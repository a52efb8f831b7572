import Wnet.Exchange.System

/-!
# What an exchange keeps

The bytes that the server has not decoded yet are the frames of requests that were
transmitted on this connection, in order, behind those that it has decoded; the
bytes that the client has not taken yet are the frames of answers. An answer of
this connection whose frame is no longer on its way has found its channel, or the
channel was given up before.
-/

namespace Wnet

open Foundation

variable {C S : Type*}

/-- Both ends use packet headers with the same flag, every packet decodes exactly its
payload, and the session has a default handler. -/
structure Setup.Compatible (setup : Setup C S) : Prop where
  header : setup.config.streamer.existPacketHeader = true
  serverHeader : setup.streamer.existPacketHeader = true
  flag : setup.streamer.nPacketFlag = setup.config.streamer.nPacketFlag
  handler : ∃ handler, setup.config.defaultPacketHandler = some handler
  decode : setup.config.streamer.ExactDecode
  serverDecode : setup.streamer.ExactDecode

section Flag

variable {streamer : Streamer C} {other : Streamer S}
  (hflag : other.nPacketFlag = streamer.nPacketFlag)
include hflag

theorem Streamer.framing_congr : other.framing = streamer.framing := by
  simp only [framing, hflag]

end Flag

/-- The time of a timeout check is in range. -/
def Label.InRange {Body : Type*} : Label Body → Prop
  | .start _ (.checkTimeout now) => now ≤ qynetMaxTime
  | _ => True

namespace Exchange

variable (setup : Setup C S) (payload : Packet C → Bytes) (reply : Packet S → Bytes)

/-- A step of a proper run. The output buffer stays below 2 GiB, the payloads of requests
and answers can be encoded, and the last connection was not lost behind the header of a
response. -/
def Proper (state : Exchange C S) (label : ExchangeLabel C S) : Prop :=
  state.client.output.length + 16 < 2 ^ 31 ∧
  match label with
  | .client label => Session.Encodable setup.config payload label ∧ label.InRange
  | .connect _ _ => state.reader.gotHeader = false
  | .answer _ pcode body => ∀ chid, setup.streamer.Appends reply ⟨⟨chid, pcode, 0⟩, body⟩
  | _ => True

/-- What the adapter is handed for a request that was transmitted. -/
def Received (client : Session C) (delivery : Delivery S) : Prop :=
  ∃ packet, client.Posts packet ∧ packet.header.chid ∈ client.transmitted ∧
    delivery = setup.streamer.outcome (Streamer.frameOf payload packet)

/-- The response is the answer in one of these entries. -/
def AnsweredBy (entries : List (Packet S × Packet S)) (chid : UInt32) (delivery : Delivery C) :
    Prop :=
  ∃ entry ∈ entries, entry.2.header.chid = chid ∧
    delivery = setup.config.streamer.outcome (Streamer.frameOf reply entry.2)

/-- The requests that were transmitted on this connection: the server has decoded the ones
and the others are on their way. -/
structure Requests (state : Exchange C S) (taken waiting : List (Packet C)) : Prop where
  transmitted : state.client.transmitted.drop state.settled =
    (taken ++ waiting).map fun packet => packet.header.chid
  posts : ∀ packet ∈ taken ++ waiting, state.client.Posts packet
  decoded : state.server.state = (taken.map fun packet =>
    setup.streamer.outcome (Streamer.frameOf payload packet)).foldl
      (ServerConnection.deliver setup.batchPushPacket) ⟨[], []⟩
  carried : setup.streamer.framing.Carries (state.server.reader.pending, state.server.input)
    state.upstream (waiting.map (Streamer.frameOf payload))

/-- The answers of this connection that the client has not taken yet. -/
structure Responses (state : Exchange C S) (waiting : List (Packet S)) : Prop where
  carried : setup.config.streamer.framing.Carries (state.reader.pending, state.input)
    state.downstream (waiting.map (Streamer.frameOf reply))
  recorded : ∀ answer ∈ waiting, ∃ request, (request, answer) ∈ state.answers
  given : ∀ entry ∈ state.answers, entry.2 ∈ waiting ∨
    state.client.pool.useMap.lookup entry.2.header.chid = none

/-- An answer goes to the channel of a request that the server was handed. -/
def Genuine (client : Session C) (entry : Packet S × Packet S) : Prop :=
  Received setup payload client (.regular entry.1) ∧
    entry.2.header.chid = entry.1.header.chid ∧ setup.streamer.Appends reply entry.2

structure Coherent (state : Exchange C S) : Prop where
  attributed : state.client.Attributed
  kept : state.client.Kept setup.config
  outgoing : state.client.Outgoing setup.config payload
  routed : state.client.Routed (AnsweredBy setup reply (state.earlier ++ state.answers))
  settled : state.settled ≤ state.client.transmitted.length
  requests : ∃ taken waiting, Requests setup payload state taken waiting
  serverReader : Settled state.server.reader state.server.input
  serverOutput : state.serverOutput = []
  genuine : ∀ entry ∈ state.earlier ++ state.answers,
    Genuine setup payload reply state.client entry
  responses : ∃ waiting, Responses setup reply state waiting
  reader : ∀ header ∈ state.reader.pending, header.Valid

theorem coherent_new (mem : Ref → Channel) :
    (new mem : Exchange C S).Coherent setup payload reply where
  attributed := Session.attributed_new mem
  kept := Session.kept_new mem
  outgoing := Session.outgoing_new setup.config payload mem
  routed := Session.routed_new _ mem
  settled := Nat.le_refl _
  requests := ⟨[], [], rfl, by simp, rfl, Framing.Carries.nothing⟩
  serverReader := ServerConnection.settled_new _
  serverOutput := rfl
  genuine := by simp [new]
  responses := ⟨[], Framing.Carries.nothing, by simp, by simp [new]⟩
  reader := by simp [new, Reader.pending]

/-! ## Steps of the client -/

/-- What a step of the session does to the exchange it is part of. -/
structure Advances (state : Exchange C S) (client : Session C) : Prop where
  attributed : client.Attributed
  kept : client.Kept setup.config
  sent : Session.Sent setup.config payload state.client client
  received : ∀ delivery, Received setup payload state.client delivery →
    Received setup payload client delivery
  routed : client.Routed (AnsweredBy setup reply (state.earlier ++ state.answers))
  unmapped : ∀ entry ∈ state.answers,
    state.client.pool.useMap.lookup entry.2.header.chid = none →
    client.pool.useMap.lookup entry.2.header.chid = none

variable {setup payload reply} {state : Exchange C S}

theorem Received.transmitted {delivery : Delivery S} {client : Session C}
    (hreceived : Received setup payload client delivery) {packet : Packet S}
    (hregular : delivery = .regular packet) : packet.header.chid ∈ client.transmitted := by
  obtain ⟨request, -, hsent, hdelivery⟩ := hreceived
  have hchid := Session.chid_of_regular (hdelivery.symm.trans hregular)
  rw [hchid]
  exact hsent

theorem Coherent.advances (hcoherent : state.Coherent setup payload reply)
    (hcompatible : setup.Compatible) {label : Label C} {client : Session C}
    (hroom : state.client.output.length + 16 < 2 ^ 31)
    (hencodable : Session.Encodable setup.config payload label)
    (hhonest : state.client.Honest label)
    (hanswered : ∀ call header input, label = .start call (.handlePacket header input) →
      AnsweredBy setup reply (state.earlier ++ state.answers) header.chid
        (.ofDecoded header (setup.config.streamer.decode input header).1))
    (hcount : client.allocations ≤ 2 ^ 28 - 1)
    (hstep : state.client.step setup.config label = some client) :
    Advances setup payload reply state client := by
  obtain ⟨handler, hhandler⟩ := hcompatible.handler
  have hsent := Session.step_sent hcompatible.header hcoherent.outgoing hcoherent.attributed
    hcoherent.kept hroom hencodable hstep
  refine ⟨(Session.step_move hcoherent.attributed hstep).1, ?_, hsent, ?_, ?_, ?_⟩
  · exact Session.step_kept hcompatible.header hhandler hcoherent.attributed hcoherent.kept
      hhonest hcount hstep
  · rintro delivery ⟨packet, hposts, htransmitted, hdelivery⟩
    obtain ⟨handed, -, hrecorded, -⟩ := hsent.handed
    refine ⟨packet, hsent.posts packet hposts, ?_, hdelivery⟩
    rw [hrecorded]
    exact List.mem_append_left _ htransmitted
  · refine hcoherent.routed.step hcompatible.header hhandler hcoherent.kept hcount ?_ hstep
    rintro call header input rfl
    exact ⟨hhonest, hanswered call header input rfl⟩
  · intro entry hentry hnone
    obtain ⟨tokens, use, detached, hledger⟩ := hcoherent.kept
    obtain ⟨hreceived, hchid, -⟩ := hcoherent.genuine entry (List.mem_append_right _ hentry)
    have hissued := hledger.books.transmitted _ (hreceived.transmitted rfl)
    exact hledger.step_unmapped hcount hstep (hchid ▸ hissued) hnone

/-- What the client has handed over is on its way behind the rest. -/
theorem Requests.advance (hcompatible : setup.Compatible) {taken waiting : List (Packet C)}
    (hrequests : Requests setup payload state taken waiting)
    (hsettled : state.settled ≤ state.client.transmitted.length) {client : Session C}
    (hsent : Session.Sent setup.config payload state.client client) :
    ∃ waiting', Requests setup payload
      { state with
        client := client
        upstream := state.upstream ++ Session.handedOver state.client client } taken waiting' := by
  obtain ⟨handed, hbytes, htransmitted, hposts⟩ := hsent.handed
  refine ⟨waiting ++ handed, ?_, ?_, hrequests.decoded, ?_⟩
  · dsimp only
    rw [htransmitted, List.drop_append_of_le_length hsettled, hrequests.transmitted,
      ← List.append_assoc, ← List.map_append]
  · intro packet hpacket
    rw [← List.append_assoc] at hpacket
    rcases List.mem_append.mp hpacket with hold | hnew
    · exact hsent.posts packet (hrequests.posts packet hold)
    · exact hposts packet hnew
  · have hcarried := hrequests.carried
    dsimp only
    rw [Streamer.framing_congr hcompatible.flag] at hcarried ⊢
    rw [hbytes, List.map_append]
    refine hcarried.write fun frame hframe => ?_
    obtain ⟨packet, hpacket, rfl⟩ := List.mem_map.mp hframe
    exact (hsent.outgoing.appends_of_posts (hposts packet hpacket)).wellFormed

theorem Genuine.mono {client next : Session C} {entry : Packet S × Packet S}
    (hgenuine : Genuine setup payload reply client entry)
    (hreceived : ∀ delivery, Received setup payload client delivery →
      Received setup payload next delivery) : Genuine setup payload reply next entry :=
  ⟨hreceived _ hgenuine.1, hgenuine.2⟩

/-- A thread of the client goes on. -/
theorem Coherent.client (hcoherent : state.Coherent setup payload reply)
    (hcompatible : setup.Compatible) {label : Label C} {client : Session C}
    (hlocal : label.isLocal) (hroom : state.client.output.length + 16 < 2 ^ 31)
    (hencodable : Session.Encodable setup.config payload label) (hrange : label.InRange)
    (hcount : client.allocations ≤ 2 ^ 28 - 1)
    (hstep : state.client.step setup.config label = some client) :
    Coherent setup payload reply
      { state with
        client := client
        upstream := state.upstream ++ Session.handedOver state.client client } := by
  have hhonest : state.client.Honest label := by
    cases label with
    | start call operation =>
        cases operation with
        | handlePacket header input => cases hlocal
        | checkTimeout now => exact hrange
        | _ => trivial
    | _ => trivial
  have hadvances := hcoherent.advances hcompatible hroom hencodable hhonest
    (by rintro call header input rfl; cases hlocal) hcount hstep
  obtain ⟨taken, waiting, hrequests⟩ := hcoherent.requests
  obtain ⟨replies, hresponses⟩ := hcoherent.responses
  obtain ⟨handed, -, htransmitted, -⟩ := hadvances.sent.handed
  refine ⟨hadvances.attributed, hadvances.kept, hadvances.sent.outgoing, hadvances.routed, ?_,
    ⟨taken, hrequests.advance hcompatible hcoherent.settled hadvances.sent⟩,
    hcoherent.serverReader, hcoherent.serverOutput, ?_, ⟨replies, ?_⟩, hcoherent.reader⟩
  · dsimp only
    rw [htransmitted, List.length_append]
    exact le_trans hcoherent.settled (Nat.le_add_right _ _)
  · exact fun entry hentry => (hcoherent.genuine entry hentry).mono hadvances.received
  · exact ⟨hresponses.carried, hresponses.recorded, fun entry hentry =>
      (hresponses.given entry hentry).imp id (hadvances.unmapped entry hentry)⟩

/-- A connection is made. -/
theorem Coherent.connect (hcoherent : state.Coherent setup payload reply)
    (hcompatible : setup.Compatible) {call : Nat} {client : Session C}
    (packetHeader : PacketHeader) (hroom : state.client.output.length + 16 < 2 ^ 31)
    (hreader : state.reader.gotHeader = false) (hcount : client.allocations ≤ 2 ^ 28 - 1)
    (hstep : state.client.step setup.config (.start call .onConnection) = some client) :
    Coherent setup payload reply
      { state with
        client := client
        input := []
        upstream := []
        server := ServerConnection.new packetHeader
        serverOutput := []
        serverConnected := true
        downstream := []
        answers := []
        earlier := state.earlier ++ state.answers
        settled := state.client.transmitted.length } := by
  have hencodable : Session.Encodable setup.config payload (.start call .onConnection) := trivial
  have hhonest : state.client.Honest (.start call .onConnection) := trivial
  have hadvances :=
    hcoherent.advances hcompatible hroom hencodable hhonest (by simp) hcount hstep
  have htransmitted := (Session.step_start_sent hstep).2
  have hpending : state.reader.pending = none := by rw [Reader.pending, if_neg (by simp [hreader])]
  refine ⟨hadvances.attributed, hadvances.kept, hadvances.sent.outgoing, ?_, ?_,
    ⟨[], [], ?_, by simp, rfl, Framing.Carries.nothing⟩, ServerConnection.settled_new _, rfl, ?_,
    ⟨[], ?_, by simp, by simp⟩, hcoherent.reader⟩
  · dsimp only
    rw [List.append_nil]
    exact hadvances.routed
  · exact le_of_eq (congrArg List.length htransmitted.symm)
  · simp [htransmitted]
  · dsimp only
    rw [List.append_nil]
    exact fun entry hentry => (hcoherent.genuine entry hentry).mono hadvances.received
  · dsimp only
    rw [hpending]
    exact Framing.Carries.nothing

/-- Bytes arrive at the client. -/
theorem Coherent.arrive (hcoherent : state.Coherent setup payload reply) (count : Nat) :
    Coherent setup payload reply
      { state with
        input := state.input ++ state.downstream.take count
        downstream := state.downstream.drop count
        looping := true } := by
  obtain ⟨waiting, hresponses⟩ := hcoherent.responses
  obtain ⟨taken, onWay, hrequests⟩ := hcoherent.requests
  exact { hcoherent with
    requests := ⟨taken, onWay, hrequests.transmitted, hrequests.posts, hrequests.decoded,
      hrequests.carried⟩
    responses := ⟨waiting, hresponses.carried.arrive count, hresponses.recorded,
      hresponses.given⟩ }

/-- A turn of the loop leaves it. -/
theorem Coherent.leave (hcoherent : state.Coherent setup payload reply)
    (hcompatible : setup.Compatible) {reader : Reader} {input : Bytes}
    (hturn : setup.config.streamer.turn state.reader state.input = .leave reader input) :
    Coherent setup payload reply
      { state with reader := reader, input := input, looping := false } := by
  obtain ⟨waiting, hresponses⟩ := hcoherent.responses
  obtain ⟨taken, onWay, hrequests⟩ := hcoherent.requests
  have hcarried := Streamer.turn_carries hcompatible.header hcoherent.reader hresponses.carried
  rw [hturn] at hcarried
  exact { hcoherent with
    requests := ⟨taken, onWay, hrequests.transmitted, hrequests.posts, hrequests.decoded,
      hrequests.carried⟩
    responses := ⟨waiting, hcarried.2, hresponses.recorded, hresponses.given⟩
    reader := hcarried.1 }

/-- `HandlePacket` leaves what is behind the payload. -/
theorem unreadAfter_eq (hcompatible : setup.Compatible) (state : Exchange C S)
    {header : PacketHeader} {input : Bytes} (hvalid : header.Valid)
    (hlength : header.bodyLength ≤ input.length) :
    state.unreadAfter setup header input = input.drop header.bodyLength := by
  rw [unreadAfter]
  split
  · rw [Buffer.skip_eq_drop, sizeOfInt_dataLen hvalid]
  · rw [hcompatible.decode.decode_eq hvalid hlength]

/-- A turn of the loop hands an answer to `HandlePacket`. -/
theorem Coherent.handle (hcoherent : state.Coherent setup payload reply)
    (hcompatible : setup.Compatible) {call : Nat} {header : PacketHeader} {input : Bytes}
    {client : Session C} (hroom : state.client.output.length + 16 < 2 ^ 31)
    (hturn : setup.config.streamer.turn state.reader state.input = .handle header input)
    (hcount : client.allocations ≤ 2 ^ 28 - 1)
    (hstep : state.client.step setup.config (.start call (.handlePacket header input)) =
      some client) :
    Coherent setup payload reply
      { state with
        client := client
        reader := ⟨false, { header with dataLen := 0 }⟩
        input := state.unreadAfter setup header input
        response := some call } := by
  obtain ⟨waiting, hresponses⟩ := hcoherent.responses
  have hcarried := Streamer.turn_carries hcompatible.header hcoherent.reader hresponses.carried
  rw [hturn] at hcarried
  obtain ⟨hvalid, hlength, later, hframes, hlater⟩ := hcarried
  obtain ⟨answer, rest, rfl, hframe, rfl⟩ := List.map_eq_cons_iff.mp hframes
  have hchid : answer.header.chid = header.chid :=
    congrArg (fun frame => PacketHeader.chid (Prod.fst frame)) hframe
  obtain ⟨request, hentry⟩ := hresponses.recorded answer List.mem_cons_self
  have hall := List.mem_append_right state.earlier hentry
  obtain ⟨hreceived, hown, -⟩ := hcoherent.genuine _ hall
  have hsent : header.chid ∈ state.client.transmitted := by
    rw [← hchid, hown]
    exact hreceived.transmitted rfl
  have hencodable : Session.Encodable setup.config payload
    (.start call (.handlePacket header input)) := trivial
  have hadvances := hcoherent.advances hcompatible hroom hencodable hsent (by
      rintro other header' input' ⟨⟩
      refine ⟨_, hall, hchid, ?_⟩
      rw [hframe, Streamer.outcome, hcompatible.decode.decode_eq hvalid hlength])
    hcount hstep
  obtain ⟨houtput, htransmitted⟩ := Session.step_start_sent hstep
  obtain ⟨taken, onWay, hrequests⟩ := hcoherent.requests
  refine ⟨hadvances.attributed, hadvances.kept, hadvances.sent.outgoing, hadvances.routed, ?_,
    ⟨taken, onWay, ?_, ?_, hrequests.decoded, hrequests.carried⟩, hcoherent.serverReader,
    hcoherent.serverOutput, ?_, ⟨rest, ?_, ?_, ?_⟩, by simp [Reader.pending]⟩
  · exact le_of_le_of_eq hcoherent.settled (congrArg List.length htransmitted.symm)
  · exact (congrArg (List.drop state.settled) htransmitted).trans hrequests.transmitted
  · exact fun packet hpacket => hadvances.sent.posts packet (hrequests.posts packet hpacket)
  · exact fun entry hmem => (hcoherent.genuine entry hmem).mono hadvances.received
  · dsimp only
    rw [unreadAfter_eq hcompatible state hvalid hlength]
    exact hlater
  · exact fun other hother => hresponses.recorded other (List.mem_cons_of_mem _ hother)
  · intro entry hmem
    rcases hresponses.given entry hmem with hwaiting | hnone
    · rcases List.mem_cons.mp hwaiting with hthis | hrest
      · obtain ⟨tokens, use, detached, hledger⟩ := hcoherent.kept
        have hissued := hledger.books.transmitted _ hsent
        rw [hthis, hchid]
        exact Or.inr (step_handlePacket_unmapped hcompatible.header hissued hstep)
      · exact Or.inl hrest
    · exact Or.inr (hadvances.unmapped entry hmem hnone)

/-! ## Steps of the server -/

/-- Bytes arrive at the server. -/
theorem Coherent.deliver (hcoherent : state.Coherent setup payload reply)
    (hcompatible : setup.Compatible) {count : Nat} {server : Receiver (ServerState S)}
    (hserver : ServerConnection.onMessage setup.streamer setup.batchPushPacket state.server
      (state.upstream.take count) = some server) :
    Coherent setup payload reply
      { state with server := server, upstream := state.upstream.drop count } := by
  obtain ⟨taken, waiting, hrequests⟩ := hcoherent.requests
  obtain ⟨replies, hresponses⟩ := hcoherent.responses
  have htakes : TakesFrames
      (ServerConnection.handlePacket setup.streamer setup.batchPushPacket)
      (ServerConnection.handleFrame setup.streamer setup.batchPushPacket) state.server.state
      (setup.streamer.framing.feed lengthCheck (state.server.reader.pending, state.server.input)
        (state.upstream.take count)).1 :=
    (ServerConnection.takesPayload hcompatible.serverDecode).feed hcoherent.serverReader _ _
  obtain ⟨server', hserver', hstate, hrest, hsettled⟩ :=
    onMessage_eq_feed hcompatible.serverHeader hcoherent.serverReader _ htakes
  obtain rfl : server' = server := Option.some.inj (hserver'.symm.trans hserver)
  obtain ⟨later, hframes, hlater⟩ := hrequests.carried.feed lengthCheck_sound count
  obtain ⟨first, onWay, rfl, hfirst, rfl⟩ := List.map_eq_append_iff.mp hframes
  have hsplit : taken ++ (first ++ onWay) = taken ++ first ++ onWay :=
    (List.append_assoc _ _ _).symm
  exact { hcoherent with
    requests := by
      refine ⟨taken ++ first, onWay, hsplit ▸ hrequests.transmitted, hsplit ▸ hrequests.posts,
        ?_, ?_⟩
      · dsimp only
        rw [hstate, ← hfirst, hrequests.decoded, List.map_append, List.foldl_append,
          List.foldl_map (l := first), List.foldl_map (l := first)]
        rfl
      · dsimp only
        rw [hrest]
        exact hlater
    serverReader := hsettled
    responses := ⟨replies, hresponses.carried, hresponses.recorded, hresponses.given⟩ }

/-- The adapter is handed what arrives, or what was in its queue before. -/
theorem mem_handed_foldl_deliver {batchPushPacket : Bool} {deliveries : List (Delivery S)}
    {server : ServerState S} {delivery : Delivery S}
    (hmem : delivery ∈
      (deliveries.foldl (ServerConnection.deliver batchPushPacket) server).handed) :
    delivery ∈ server.handed ∨ delivery ∈ server.inputQueue.map .regular ∨
      delivery ∈ deliveries := by
  induction deliveries generalizing server with
  | nil => exact Or.inl hmem
  | cons first deliveries ih =>
      have hfirst : ∀ other,
          other ∈ (ServerConnection.deliver batchPushPacket server first).handed ∨
          other ∈ (ServerConnection.deliver batchPushPacket server first).inputQueue.map .regular →
          other ∈ server.handed ∨ other ∈ server.inputQueue.map .regular ∨ other = first := by
        intro other hother
        cases first with
        | bad =>
            simp only [ServerConnection.deliver, ServerState.handed, List.flatMap_append,
              List.flatMap_singleton, AdapterCall.packets, List.mem_append,
              List.mem_singleton] at hother ⊢
            tauto
        | regular packet =>
            simp only [ServerConnection.deliver] at hother
            split at hother
            · split at hother <;>
                simp only [ServerState.handed, List.flatMap_append, List.flatMap_singleton,
                  AdapterCall.packets, List.map_append, List.map_cons, List.map_nil,
                  List.mem_append, List.mem_singleton, List.not_mem_nil] at hother ⊢ <;>
                tauto
            · simp only [ServerState.handed, List.flatMap_append, List.flatMap_singleton,
                AdapterCall.packets, List.mem_append, List.mem_singleton] at hother ⊢
              tauto
      rw [List.foldl_cons] at hmem
      rcases ih hmem with hhanded | hqueued | hlater
      · rcases hfirst delivery (Or.inl hhanded) with h | h | rfl
        · exact Or.inl h
        · exact Or.inr (Or.inl h)
        · exact Or.inr (Or.inr List.mem_cons_self)
      · rcases hfirst delivery (Or.inr hqueued) with h | h | rfl
        · exact Or.inl h
        · exact Or.inr (Or.inl h)
        · exact Or.inr (Or.inr List.mem_cons_self)
      · exact Or.inr (Or.inr (List.mem_cons_of_mem _ hlater))

/-- What the adapter was handed are requests that were transmitted. -/
theorem Coherent.received (hcoherent : state.Coherent setup payload reply)
    {delivery : Delivery S} (hmem : delivery ∈ state.server.state.handed) :
    Received setup payload state.client delivery := by
  obtain ⟨taken, waiting, hrequests⟩ := hcoherent.requests
  rw [hrequests.decoded] at hmem
  rcases mem_handed_foldl_deliver hmem with hnone | hnone | hdecoded
  · cases hnone
  · cases hnone
  · obtain ⟨packet, hpacket, rfl⟩ := List.mem_map.mp hdecoded
    have hall := List.mem_append_left waiting hpacket
    refine ⟨packet, hrequests.posts packet hall, ?_, rfl⟩
    have hchid := List.mem_map_of_mem (f := fun packet : Packet C => packet.header.chid) hall
    rw [← hrequests.transmitted] at hchid
    exact List.mem_of_mem_drop hchid

/-- `PostPacket` of a server sends the frame of the packet at once, or nothing. -/
theorem postPacket_sends {streamer : Streamer S} (hmode : streamer.existPacketHeader = true)
    {answer : Packet S} (happends : streamer.Appends reply answer) {connected result : Bool}
    {output sent : Bytes}
    (hpost : ServerConnection.postPacket streamer connected answer [] =
      some (result, output, sent)) :
    output = [] ∧ sent = if result
      then Framing.frameBytes streamer.encodeHeader (Streamer.frameOf reply answer) else [] := by
  have hempty : ([] : Bytes).length + 16 < 2 ^ 31 := by decide
  obtain ⟨encoded, hencode⟩ := happends.encode_eq hmode hempty
  have hlong : (Framing.frameBytes streamer.encodeHeader
      (Streamer.frameOf reply answer)).length > 0 := by
    rw [Framing.frameBytes, List.length_append, Streamer.length_encodeHeader]
    omega
  rw [ServerConnection.postPacket] at hpost
  split at hpost
  · obtain ⟨rfl, rfl, rfl⟩ := by simpa using hpost
    exact ⟨rfl, rfl⟩
  · split at hpost
    · cases hpost
    · simp only [hencode, List.nil_append, if_pos hlong] at hpost
      obtain ⟨rfl, rfl, rfl⟩ := by simpa using hpost
      exact ⟨rfl, rfl⟩

/-- The adapter answers a request. -/
theorem Coherent.answer (hcoherent : state.Coherent setup payload reply)
    (hcompatible : setup.Compatible) {request answer : Packet S}
    (hhanded : .regular request ∈ state.server.state.handed)
    (hchid : answer.header.chid = request.header.chid)
    (happends : setup.streamer.Appends reply answer) {result : Bool} {serverOutput sent : Bytes}
    (hpost : ServerConnection.postPacket setup.streamer state.serverConnected answer
      state.serverOutput = some (result, serverOutput, sent)) :
    Coherent setup payload reply
      { state with
        serverOutput := serverOutput
        downstream := state.downstream ++ sent
        answers := if result then state.answers ++ [(request, answer)] else state.answers } := by
  obtain ⟨replies, hresponses⟩ := hcoherent.responses
  obtain ⟨taken, onWay, hrequests⟩ := hcoherent.requests
  rw [hcoherent.serverOutput] at hpost
  obtain ⟨rfl, rfl⟩ := postPacket_sends hcompatible.serverHeader happends hpost
  cases result with
  | false =>
      exact { hcoherent with
        requests := ⟨taken, onWay, hrequests.transmitted, hrequests.posts, hrequests.decoded,
          hrequests.carried⟩
        serverOutput := rfl
        responses := ⟨replies, by simpa using hresponses.carried, hresponses.recorded,
          hresponses.given⟩ }
  | true =>
      have hgenuine : Genuine setup payload reply state.client (request, answer) :=
        ⟨hcoherent.received hhanded, hchid, happends⟩
      have hsub : ∀ entry ∈ state.earlier ++ state.answers,
          entry ∈ state.earlier ++ (state.answers ++ [(request, answer)]) := by
        intro entry hentry
        rw [← List.append_assoc]
        exact List.mem_append_left _ hentry
      exact { hcoherent with
        routed := hcoherent.routed.mono fun chid delivery hanswered => by
          obtain ⟨entry, hentry, hown⟩ := hanswered
          exact ⟨entry, hsub entry hentry, hown⟩
        requests := ⟨taken, onWay, hrequests.transmitted, hrequests.posts, hrequests.decoded,
          hrequests.carried⟩
        serverOutput := rfl
        genuine := by
          intro entry hentry
          simp only [if_true, ← List.append_assoc] at hentry
          rcases List.mem_append.mp hentry with hold | hnew
          · exact hcoherent.genuine entry hold
          · exact List.mem_singleton.mp hnew ▸ hgenuine
        responses := by
          refine ⟨replies ++ [answer], ?_, ?_, ?_⟩
          · have hwellFormed : ∀ frame ∈ [Streamer.frameOf reply answer],
                setup.config.streamer.framing.WellFormed setup.streamer.encodeHeader frame := by
              intro frame hframe
              rw [List.mem_singleton.mp hframe, ← Streamer.framing_congr hcompatible.flag]
              exact happends.wellFormed
            simpa using hresponses.carried.write hwellFormed
          · intro other hother
            rcases List.mem_append.mp hother with hold | hnew
            · obtain ⟨own, hown⟩ := hresponses.recorded other hold
              exact ⟨own, List.mem_append_left _ hown⟩
            · exact ⟨request, List.mem_singleton.mp hnew ▸ List.mem_append_right _
                (List.mem_singleton.mpr rfl)⟩
          · intro entry hentry
            rcases List.mem_append.mp hentry with hold | hnew
            · exact (hresponses.given entry hold).imp (List.mem_append_left _) id
            · rw [List.mem_singleton.mp hnew]
              exact Or.inl (List.mem_append_right _ (List.mem_singleton.mpr rfl)) }

/-- The server's end is closed. -/
theorem Coherent.serverLost (hcoherent : state.Coherent setup payload reply) :
    Coherent setup payload reply { state with serverConnected := false } := by
  obtain ⟨taken, onWay, hrequests⟩ := hcoherent.requests
  obtain ⟨waiting, hresponses⟩ := hcoherent.responses
  exact { hcoherent with
    requests := ⟨taken, onWay, hrequests.transmitted, hrequests.posts, hrequests.decoded,
      hrequests.carried⟩
    responses := ⟨waiting, hresponses.carried, hresponses.recorded, hresponses.given⟩ }

end Exchange

end Wnet
