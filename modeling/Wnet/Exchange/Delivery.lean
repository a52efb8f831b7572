import Wnet.Exchange.Coherent

/-!
# Requests and answers across the connection

For any number of threads, any arrival of the bytes on either side, answers in any
order and any number of connections: the server's adapter is handed the requests
that were transmitted, in order; a handler is called with the answer to its own
request; and an answer that was received completes its request.
-/

namespace Wnet

open Foundation

variable {C S : Type*}

namespace Exchange

variable {setup : Setup C S} {payload : Packet C → Bytes} {reply : Packet S → Bytes}
  {state next : Exchange C S}

/-- A step of the exchange takes one step of the session, or leaves it as it is. -/
theorem step_client {label : ExchangeLabel C S} (hstep : state.step setup label = some next) :
    next.client = state.client ∨ ∃ move, state.client.step setup.config move = some next.client ∧
      ∀ call operation, move = .start call operation → label.begins = some call := by
  cases label with
  | client label =>
      simp only [step] at hstep
      split at hstep
      next =>
        obtain ⟨client, hclient, rfl⟩ := Option.map_eq_some_iff.mp hstep
        exact Or.inr ⟨label, hclient, by rintro call operation rfl; rfl⟩
      next => cases hstep
  | connect call packetHeader =>
      simp only [step] at hstep
      split at hstep
      next =>
        obtain ⟨client, hclient, rfl⟩ := Option.map_eq_some_iff.mp hstep
        exact Or.inr ⟨_, hclient, by rintro call operation ⟨⟩; rfl⟩
      next => cases hstep
  | turn call =>
      simp only [step] at hstep
      split at hstep
      next =>
        split at hstep
        next reader input hturn =>
          obtain rfl := Option.some.inj hstep
          exact Or.inl rfl
        next header input hturn =>
          obtain ⟨client, hclient, rfl⟩ := Option.map_eq_some_iff.mp hstep
          exact Or.inr ⟨_, hclient, by rintro call operation ⟨⟩; rfl⟩
      next => cases hstep
  | arrive count =>
      simp only [step] at hstep
      split at hstep
      next => exact Or.inl (Option.some.inj hstep ▸ rfl)
      next => cases hstep
  | deliver count =>
      simp only [step] at hstep
      split at hstep
      next =>
        obtain ⟨server, -, rfl⟩ := Option.map_eq_some_iff.mp hstep
        exact Or.inl rfl
      next => cases hstep
  | answer index pcode body =>
      simp only [step] at hstep
      split at hstep
      next =>
        obtain ⟨posted, -, rfl⟩ := Option.map_eq_some_iff.mp hstep
        exact Or.inl rfl
      next => cases hstep
  | serverLost => exact Or.inl (Option.some.inj hstep ▸ rfl)

theorem step_allocations {label : ExchangeLabel C S} (hstep : state.step setup label = some next) :
    state.client.allocations ≤ next.client.allocations := by
  rcases step_client hstep with hsame | ⟨move, hmove, -⟩
  · rw [hsame]
  · exact Session.step_allocations hmove

/-- A call of the session that was not begun is idle. -/
theorem run_idle (hmode : setup.config.streamer.existPacketHeader = true) {mem : Ref → Channel}
    {labels : List (ExchangeLabel C S)} {call : Nat}
    (hbegins : ∀ label ∈ labels, label.begins ≠ some call)
    (hrun : run (step setup) (new mem) labels = some state) :
    state.client.calls call = .idle := by
  refine run_invariant (fun state : Exchange C S => state.client.calls call = .idle) rfl ?_ hrun
  intro before label after state next hsplit _ hidle hstep
  have hnot := hbegins label (by rw [hsplit]; simp)
  rcases step_client hstep with hsame | ⟨move, hmove, hstart⟩
  · rw [hsame]
    exact hidle
  · exact Session.step_idle hmode hidle
      (fun operation hmove => hnot (hstart call operation hmove)) hmove

/-- Every proper step keeps the exchange coherent, as long as identifiers are not used
again. -/
theorem step_coherent (hcoherent : state.Coherent setup payload reply)
    (hcompatible : setup.Compatible) {label : ExchangeLabel C S}
    (hproper : Proper setup payload reply state label)
    (hcount : next.client.allocations ≤ 2 ^ 28 - 1)
    (hstep : state.step setup label = some next) : next.Coherent setup payload reply := by
  obtain ⟨hroom, hproper⟩ := hproper
  cases label with
  | client label =>
      simp only [step] at hstep
      split at hstep
      next hlocal =>
        obtain ⟨client, hclient, rfl⟩ := Option.map_eq_some_iff.mp hstep
        exact hcoherent.client hcompatible hlocal hroom hproper.1 hproper.2 hcount hclient
      next => cases hstep
  | connect call packetHeader =>
      simp only [step] at hstep
      split at hstep
      next =>
        obtain ⟨client, hclient, rfl⟩ := Option.map_eq_some_iff.mp hstep
        exact hcoherent.connect hcompatible packetHeader hroom hproper hcount hclient
      next => cases hstep
  | arrive count =>
      simp only [step] at hstep
      split at hstep
      next => exact Option.some.inj hstep ▸ hcoherent.arrive count
      next => cases hstep
  | turn call =>
      simp only [step] at hstep
      split at hstep
      next =>
        split at hstep
        next reader input hturn =>
          exact Option.some.inj hstep ▸ hcoherent.leave hcompatible hturn
        next header input hturn =>
          obtain ⟨client, hclient, rfl⟩ := Option.map_eq_some_iff.mp hstep
          exact hcoherent.handle hcompatible hroom hturn hcount hclient
      next => cases hstep
  | deliver count =>
      simp only [step] at hstep
      split at hstep
      next =>
        obtain ⟨server, hserver, rfl⟩ := Option.map_eq_some_iff.mp hstep
        exact hcoherent.deliver hcompatible hserver
      next => cases hstep
  | answer index pcode body =>
      simp only [step] at hstep
      split at hstep
      next request hhanded =>
        obtain ⟨⟨result, serverOutput, sent⟩, hpost, rfl⟩ := Option.map_eq_some_iff.mp hstep
        exact hcoherent.answer hcompatible (List.mem_of_getElem? hhanded) (by rfl) (hproper _)
          hpost
      next => cases hstep
  | serverLost => exact Option.some.inj hstep ▸ hcoherent.serverLost

theorem run_coherent (hcompatible : setup.Compatible) {mem : Ref → Channel}
    {labels : List (ExchangeLabel C S)}
    (hrun : run (step setup) (new mem) labels = some state)
    (halong : Along (step setup) (Proper setup payload reply) (new mem) labels)
    (hcount : state.client.allocations ≤ 2 ^ 28 - 1) : state.Coherent setup payload reply := by
  have hinvariant : state.client.allocations ≤ 2 ^ 28 - 1 → state.Coherent setup payload reply := by
    refine run_invariant_along (fun state : Exchange C S =>
      state.client.allocations ≤ 2 ^ 28 - 1 → state.Coherent setup payload reply) ?_
      (fun _ => coherent_new setup payload reply mem) halong hrun
    intro state label next hcoherent hproper hstep hcount
    exact step_coherent (hcoherent (le_trans (step_allocations hstep) hcount)) hcompatible
      hproper hcount hstep
  exact hinvariant hcount

/-- A handler is called with a response: it is the handler of a request, with its
arguments, and the response is an answer to what the server decoded that request to. -/
def Answered (setup : Setup C S) (payload : Packet C → Bytes) (reply : Packet S → Bytes)
    (state : Exchange C S) (invocation : HandlerCall C) (delivery : Delivery C) : Prop :=
  ∃ call request channel chid own answer,
    (state.client.calls call).request = some request ∧
    state.client.allocated call = some (channel, chid) ∧
    some invocation.handler = request.packetHandler.or setup.config.defaultPacketHandler ∧
    invocation.args = request.args ∧
    setup.streamer.outcome (Streamer.frameOf payload (request.addressed chid)) = .regular own ∧
    (own, answer) ∈ state.earlier ++ state.answers ∧
    delivery = setup.config.streamer.outcome (Streamer.frameOf reply answer)

section Runs

variable (hcompatible : setup.Compatible) {mem : Ref → Channel}
  {labels : List (ExchangeLabel C S)}
  (hrun : run (step setup) (new mem) labels = some state)
  (halong : Along (step setup) (Proper setup payload reply) (new mem) labels)
  (hcount : state.client.allocations ≤ 2 ^ 28 - 1)
include hcompatible hrun halong hcount

/-- The handler of a request is called with an answer that the server's adapter gave to this
very request, and with nothing else but timeouts. -/
theorem response_answers_own_request {invocation : HandlerCall C} {delivery : Delivery C}
    (hmem : invocation ∈ state.client.handlerCalls)
    (hresponse : invocation.packet = .response delivery) :
    Answered setup payload reply state invocation delivery := by
  have hcoherent := run_coherent hcompatible hrun halong hcount
  obtain ⟨chid, hinvocation, ⟨own, answer⟩, hentry, hanswer, hdelivery⟩ :=
    hcoherent.routed.called invocation hmem delivery hresponse
  obtain ⟨⟨packet, hposts, -, hown⟩, hchid, -⟩ := hcoherent.genuine _ hentry
  obtain ⟨call, request, channel, hrequest, hallocated, -, hhandler, hargs⟩ :=
    hcoherent.kept.answers hmem hinvocation
  obtain ⟨poster, posted, channel', hposted, hallocated', hpacket⟩ := hposts
  -- The server decoded the packet of this request: its identifier was allocated once.
  have hsame : packet.header.chid = chid := by
    rw [← hanswer, hchid, Session.chid_of_regular hown.symm]
    rfl
  obtain ⟨tokens, use, detached, hledger⟩ := hcoherent.kept
  rw [hsame] at hallocated' hpacket
  obtain rfl := hledger.books.injective _ _ _ _ _ hallocated' hallocated
  obtain rfl := Option.some.inj (hposted.symm.trans hrequest)
  exact ⟨poster, posted, channel, chid, own, answer, hrequest, hallocated, hhandler, hargs,
    hpacket ▸ hown.symm, hentry, hdelivery⟩

/-- When nothing of an answer is on its way and no response or timeout is being reported, the
request of every answer on this connection has completed: a handler was called for it
exactly once. -/
theorem answered_requests_complete (hdownstream : state.downstream = [])
    (hinput : state.input = []) (hreader : state.reader.gotHeader = false)
    (hquiet : ∀ call, (state.client.calls call).reports = false)
    {request answer : Packet S} (hentry : (request, answer) ∈ state.answers) :
    (state.client.callsFor request.header.chid).length = 1 := by
  have hcoherent := run_coherent hcompatible hrun halong hcount
  obtain ⟨waiting, hcarried, -, hgiven⟩ := hcoherent.responses
  obtain ⟨⟨packet, hposts, -, hown⟩, hchid, -⟩ :=
    hcoherent.genuine _ (List.mem_append_right _ hentry)
  obtain ⟨call, own, channel, hrequest, hallocated, hpacket⟩ := hposts
  have hsame : packet.header.chid = request.header.chid := by
    rw [Session.chid_of_regular hown.symm]
    rfl
  rw [hsame] at hallocated
  have hnone : state.client.pool.useMap.lookup request.header.chid = none := by
    have hempty : waiting = [] := by
      have hnothing : setup.config.streamer.framing.Carries (none, []) [] [] :=
        Framing.Carries.nothing
      rw [Reader.pending, if_neg (by simp [hreader]), hinput, hdownstream] at hcarried
      exact List.map_eq_nil_iff.mp (Prod.mk.inj (hcarried.symm.trans hnothing)).1
    have hgiven := hgiven _ hentry
    rw [hempty, hchid] at hgiven
    exact hgiven.resolve_left List.not_mem_nil
  obtain ⟨tokens, use, detached, hledger⟩ := hcoherent.kept
  rcases hledger.waiting_or_reported hallocated hrequest with ⟨hcalls, -⟩ | ⟨_, _, -, hcalls⟩
  · have hlookup := (hledger.completesOnce.outstanding hquiet _ channel).mpr
      ⟨call, hallocated, hcalls⟩
    rw [hnone] at hlookup
    cases hlookup
  · rw [hcalls]
    rfl

/-- The server has decoded the requests that were transmitted on this connection, in order,
each once and without exception, and when nothing is on its way it has decoded all of them. -/
theorem requests_arrive_in_order : ∃ packets : List (Packet C),
    (∀ packet ∈ packets, state.client.Posts packet) ∧
    (packets.map fun packet => packet.header.chid).Nodup ∧
    packets.map (fun packet => packet.header.chid) <+:
      state.client.transmitted.drop state.settled ∧
    state.server.state = (packets.map fun packet =>
      setup.streamer.outcome (Streamer.frameOf payload packet)).foldl
        (ServerConnection.deliver setup.batchPushPacket) ⟨[], []⟩ ∧
    (state.upstream = [] → state.server.input = [] → state.server.reader.gotHeader = false →
      packets.map (fun packet => packet.header.chid) =
        state.client.transmitted.drop state.settled) := by
  have hcoherent := run_coherent hcompatible hrun halong hcount
  obtain ⟨packets, waiting, hrequests⟩ := hcoherent.requests
  have htransmitted := hrequests.transmitted
  rw [List.map_append] at htransmitted
  have hdistinct := hcoherent.outgoing.distinct.of_append_left.sublist
    (List.drop_sublist state.settled _)
  rw [htransmitted] at hdistinct
  refine ⟨packets, fun packet hpacket => hrequests.posts packet (List.mem_append_left _ hpacket),
    hdistinct.of_append_left, ⟨_, htransmitted.symm⟩, hrequests.decoded,
    fun hupstream hinput hreader => ?_⟩
  have hcarried := hrequests.carried
  have hnothing : setup.streamer.framing.Carries (none, []) [] [] := Framing.Carries.nothing
  rw [Reader.pending, if_neg (by simp [hreader]), hinput, hupstream] at hcarried
  have hempty := List.map_eq_nil_iff.mp (Prod.mk.inj (hcarried.symm.trans hnothing)).1
  rw [htransmitted, hempty, List.map_nil, List.append_nil]

end Runs

/-! ## An exchange of plain bytes -/

theorem byteStreamer_appends_iff (packet : Packet Bytes) :
    byteStreamer.Appends Packet.body packet ↔ packet.body.length ≤ 0x4000000 :=
  ⟨fun happends => happends.size, fun hsize => ⟨fun _ => rfl, hsize⟩⟩

/-- The session and the server of an application whose packets carry plain bytes. -/
def byteSetup : Setup Bytes Bytes := ⟨Session.byteConfig, byteStreamer, false⟩

theorem byteSetup_compatible : byteSetup.Compatible :=
  ⟨rfl, rfl, rfl, ⟨0, rfl⟩, byteStreamer_exactDecode, byteStreamer_exactDecode⟩

instance decidableEncodable (label : Label Bytes) :
    Decidable (Session.Encodable byteSetup.config Packet.body label) :=
  match label with
  | .start _ (.postPacket request) =>
      decidable_of_iff (request.packet.body.length ≤ 0x4000000)
        ⟨fun hsize _ => (byteStreamer_appends_iff _).mpr hsize,
          fun happends => (happends 0).size⟩
  | .start _ .onConnection | .start _ (.handlePacket _ _) | .start _ (.checkTimeout _)
  | .proceed _ | .connectionLost | .loopStop | .setClock _ | .allocElsewhere _ =>
      inferInstanceAs (Decidable True)

instance decidableInRange {Body : Type*} (label : Label Body) : Decidable label.InRange :=
  match label with
  | .start _ (.checkTimeout now) => inferInstanceAs (Decidable (now ≤ qynetMaxTime))
  | .start _ (.postPacket _) | .start _ .onConnection | .start _ (.handlePacket _ _)
  | .proceed _ | .connectionLost | .loopStop | .setClock _ | .allocElsewhere _ =>
      inferInstanceAs (Decidable True)

instance decidableProper (state : Exchange Bytes Bytes) (label : ExchangeLabel Bytes Bytes) :
    Decidable (Proper byteSetup Packet.body Packet.body state label) :=
  match label with
  | .client label => inferInstanceAs (Decidable (_ ∧
      Session.Encodable byteSetup.config Packet.body label ∧ label.InRange))
  | .connect _ _ => inferInstanceAs (Decidable (_ ∧ state.reader.gotHeader = false))
  | .answer _ _ body =>
      decidable_of_iff (state.client.output.length + 16 < 2 ^ 31 ∧ body.length ≤ 0x4000000)
        (and_congr_right fun _ =>
          ⟨fun hsize _ => (byteStreamer_appends_iff _).mpr hsize,
            fun happends => (happends 0).size⟩)
  | .arrive _ | .turn _ | .deliver _ | .serverLost =>
      inferInstanceAs (Decidable (_ ∧ True))

/-- Two requests arrive in pieces, the second is answered first, and the answers arrive in
pieces. -/
def answeredInReverse : List (ExchangeLabel Bytes Bytes) :=
  .connect 0 ⟨0, 0, 0⟩ :: List.replicate 2 (.client (.proceed 0)) ++
  .client (.start 1 (.postPacket
    { Session.byteRequest 1 with packetHandler := some 7, args := some 11 })) ::
    List.replicate 7 (.client (.proceed 1)) ++
  .client (.start 2 (.postPacket { Session.byteRequest 2 with args := some 12 })) ::
    List.replicate 7 (.client (.proceed 2)) ++
  [.deliver 5, .deliver 100, .answer 1 1 [42], .answer 0 1 [41], .arrive 20, .turn 3] ++
  List.replicate 2 (.client (.proceed 3)) ++ [.turn 4, .arrive 100, .turn 4] ++
  List.replicate 2 (.client (.proceed 4)) ++ [.turn 5]

theorem answeredInReverse_proper : Along (step byteSetup) (Proper byteSetup Packet.body Packet.body)
    (new (Process.zeroMemory 0)) answeredInReverse := by decide

theorem response_answers_own_request_answeredInReverse : ∃ state invocation,
    run (step byteSetup) (new (Process.zeroMemory 0)) answeredInReverse = some state ∧
    invocation ∈ state.client.handlerCalls ∧ invocation.handler = 0 ∧
    invocation.args = some 12 ∧
    Answered byteSetup Packet.body Packet.body state invocation
      (.regular ⟨⟨2, 1, 1⟩, [42]⟩) := by
  have hfirst : ((run (step byteSetup) (new (Process.zeroMemory 0)) answeredInReverse).bind
      fun state => state.client.handlerCalls.head?.map fun invocation =>
        (invocation.response, invocation.handler, invocation.args)) =
      some (some ⟨⟨2, 1, 1⟩, [42]⟩, 0, some 12) := by decide
  have hcount : (run (step byteSetup) (new (Process.zeroMemory 0)) answeredInReverse).map
      (fun state => state.client.allocations) = some 2 := by decide
  obtain ⟨state, hrun, hallocations⟩ := Option.map_eq_some_iff.mp hcount
  rw [hrun, Option.bind_some] at hfirst
  obtain ⟨invocation, hhead, hinvocation⟩ := Option.map_eq_some_iff.mp hfirst
  obtain ⟨hresponse, hhandler, hargs⟩ := by simpa using hinvocation
  have hmem := List.mem_of_mem_head? hhead
  exact ⟨state, invocation, hrun, hmem, hhandler, hargs,
    response_answers_own_request byteSetup_compatible hrun answeredInReverse_proper
      (by rw [hallocations]; decide) hmem (Session.packet_of_response hresponse)⟩

theorem answered_requests_complete_answeredInReverse : ∃ state request,
    run (step byteSetup) (new (Process.zeroMemory 0)) answeredInReverse = some state ∧
    state.answers.head?.map Prod.fst = some request ∧ request.header.chid = 2 ∧
    (state.client.callsFor request.header.chid).length = 1 := by
  have hempty : (run (step byteSetup) (new (Process.zeroMemory 0)) answeredInReverse).map
      (fun state => (state.client.allocations, state.downstream, state.input,
        state.reader.gotHeader)) = some (2, [], [], false) := by decide
  have hanswers : (run (step byteSetup) (new (Process.zeroMemory 0)) answeredInReverse).map
      (fun state => ((List.range 6).any fun call => (state.client.calls call).reports,
        state.answers.head?.map fun entry => entry.1.header.chid)) = some (false, some 2) := by
    decide
  obtain ⟨state, hrun, hfacts⟩ := Option.map_eq_some_iff.mp hempty
  rw [hrun, Option.map_some] at hanswers
  simp only [Prod.mk.injEq] at hfacts
  obtain ⟨hallocations, hdownstream, hinput, hreader⟩ := hfacts
  simp only [Option.some.injEq, Prod.mk.injEq, List.any_eq_false, List.mem_range,
    Bool.not_eq_true] at hanswers
  obtain ⟨hfinished, hhead⟩ := hanswers
  obtain ⟨⟨request, answer⟩, hentry, hchid⟩ := Option.map_eq_some_iff.mp hhead
  have hquiet : ∀ call, (state.client.calls call).reports = false := by
    intro call
    by_cases hbegun : call < 6
    · exact hfinished call hbegun
    · have hbegins : ∀ label ∈ answeredInReverse, ∀ other ∈ label.begins, other < 6 := by decide
      rw [run_idle rfl (fun label hlabel hsame => hbegun (hbegins label hlabel call hsame)) hrun]
      rfl
  exact ⟨state, request, hrun, by rw [hentry]; rfl, hchid,
    answered_requests_complete byteSetup_compatible hrun answeredInReverse_proper
      (by rw [hallocations]; decide) hdownstream hinput hreader hquiet
      (List.mem_of_mem_head? hentry)⟩

theorem requests_arrive_in_order_answeredInReverse : ∃ state,
    run (step byteSetup) (new (Process.zeroMemory 0)) answeredInReverse = some state ∧
    ∃ packets : List (Packet Bytes), packets.map (fun packet => packet.header.chid) = [1, 2] ∧
      (∀ packet ∈ packets, state.client.Posts packet) ∧
      state.server.state = (packets.map fun packet =>
        byteStreamer.outcome (Streamer.frameOf Packet.body packet)).foldl
          (ServerConnection.deliver false) ⟨[], []⟩ := by
  have hstate : (run (step byteSetup) (new (Process.zeroMemory 0)) answeredInReverse).map
      (fun state => (state.client.allocations, state.upstream, state.server.input,
        state.server.reader.gotHeader, state.client.transmitted.drop state.settled)) =
      some (2, [], [], false, [1, 2]) := by decide
  obtain ⟨state, hrun, hfacts⟩ := Option.map_eq_some_iff.mp hstate
  simp only [Prod.mk.injEq] at hfacts
  obtain ⟨hallocations, hupstream, hinput, hreader, htransmitted⟩ := hfacts
  obtain ⟨packets, hposts, -, -, hdecoded, hall⟩ :=
    requests_arrive_in_order byteSetup_compatible hrun answeredInReverse_proper
      (by rw [hallocations]; decide)
  exact ⟨state, hrun, packets, (hall hupstream hinput hreader).trans htransmitted, hposts,
    hdecoded⟩

end Exchange

end Wnet
