import Wnet.Session.Uninterrupted

/-!
# Timeouts are complete

In a session whose calls run one at a time, `CheckTimeout` gives up exactly the
pending requests whose packets have expired, sent or not, and calls the handler of
each that has one.
-/

namespace Wnet

open Foundation

variable {Body : Type*}

/-- The channels from `useListHead_` on. -/
def ChannelPool.useList (pool : ChannelPool) : List Ref :=
  follow pool.next pool.channelCount pool.useListHead

namespace Serial

variable {config : Config Body} {state next : Serial Body}

/-- The use list is that of the `sent` requests, then of the `unsent` ones; both lists of
the session are in the order of their times, and together they hold the pending requests. -/
structure InOrder (state : Serial Body) (sent unsent : List Ref) : Prop where
  useList : state.session.pool.useList = sent ++ unsent
  unsentTimes : ∀ channel ∈ unsent, state.session.pool.expireTime channel = qynetMaxTime + 1
  queue : state.session.outputQueue.map Posted.channel = unsent.map some
  useOrder : DeadlineOrder state.session.pool.expireTime state.session.pool.useList
  queueOrder : DeadlineOrder Posted.expireTime state.session.outputQueue
  pending : state.session.pool.useList.map state.session.pool.id =
    state.pending.map Pending.chid
  expireTimes : sent.map state.session.pool.expireTime ++
    state.session.outputQueue.map Posted.expireTime = state.pending.map Pending.expireTime

/-- The allocations and the clock stay in the range that identifiers and times have. -/
structure Within (config : Config Body) (state : Serial Body) : Prop where
  allocations : state.session.allocations ≤ 2 ^ 28 - 1
  clock : Session.expireTime state.session.clock config.queueTimeout ≤ qynetMaxTime + 1

/-- The pending requests are those of the two lists of the session. -/
def Kept (config : Config Body) (state : Serial Body) : Prop :=
  ∃ sent unsent, state.session.InTime config sent unsent ∧
    state.pending = (sent ++ unsent).map Item.request

theorem Kept.inOrder (hkept : state.Kept config)
    (hclock : Session.expireTime state.session.clock config.queueTimeout ≤ qynetMaxTime + 1) :
    ∃ sent unsent, state.InOrder sent unsent := by
  obtain ⟨sent, unsent, hintime, hpending⟩ := hkept
  have htimely := hintime.timely
  have huse : state.session.pool.useList = (sent ++ [] ++ unsent).map Item.channel :=
    htimely.serving.follow_use
  have hchannels : state.session.outputQueue.map Posted.channel =
      unsent.map (some ∘ Item.channel) := by
    have haddress := congrArg (List.map Prod.fst) htimely.queue
    rwa [List.map_map, List.map_map] at haddress
  have htimes : state.session.outputQueue.map Posted.expireTime = unsent.map Item.deadline := by
    have haddress := congrArg (List.map fun address => address.2.2) htimely.queue
    rwa [List.map_map, List.map_map] at haddress
  refine ⟨sent.map Item.channel, unsent.map Item.channel, ?_, ?_, ?_, ?_, ?_, ?_, ?_⟩
  · rw [huse, List.append_nil, List.map_append]
  · intro channel hchannel
    obtain ⟨item, hitem, rfl⟩ := List.mem_map.mp hchannel
    exact htimely.expireTime_unsent hitem
  · rw [hchannels, List.map_map]
  · rw [huse]
    exact htimely.useOrder hclock
  · have horder : DeadlineOrder Item.deadline unsent := htimely.order.sublist (by simp)
    rw [DeadlineOrder, ← List.pairwise_map, htimes, List.pairwise_map]
    exact horder
  · rw [huse, hpending, List.map_map, List.map_map, List.append_nil]
    apply List.map_congr_left
    intro item hitem
    exact htimely.id_eq (by rwa [List.append_nil])
  · have hsent : (sent.map Item.channel).map state.session.pool.expireTime =
        sent.map Item.deadline := by
      rw [List.map_map]
      exact List.map_congr_left fun item hitem => htimely.expireTime_sent hitem
    rw [hsent, htimes, hpending, List.map_map, List.map_append]
    rfl

/-! ## Runs of whole calls -/

theorem step_perform {call pieces : Nat} {operation : Operation Body}
    (hstep : state.step config (.perform call operation pieces) = some next) :
    state.permits operation ∧
      state.session.perform config call operation pieces = some next.session ∧
      next.pending = state.pendingAfter config call next.session operation := by
  simp only [step] at hstep
  split at hstep
  next hpermits =>
    obtain ⟨final, hperform, rfl⟩ := Option.map_eq_some_iff.mp hstep
    exact ⟨hpermits, hperform, rfl⟩
  next => cases hstep

/-- What the steps around the calls do. -/
inductive Around (state : Serial Body) : SerialLabel Body → Serial Body → Prop
  | connectionLost :
      Around state .connectionLost ⟨{ state.session with connected := false }, state.pending⟩
  | loopStop : Around state .loopStop ⟨{ state.session with stopped := true }, state.pending⟩
  | setClock {time : Int} (htime : state.session.clock ≤ time) :
      Around state (.setClock time) ⟨{ state.session with clock := time }, state.pending⟩
  | allocElsewhere {pool : ChannelPool} :
      Around state (.allocElsewhere pool)
        ⟨{ state.session with
          globals := (pool.allocChannel state.session.globals).1
          allocations := state.session.allocations + 1 }, state.pending⟩

/-- A step is a whole call or happens around the calls. -/
theorem perform_or_around {label : SerialLabel Body}
    (hstep : state.step config label = some next) :
    (∃ call operation pieces, label = .perform call operation pieces) ∨
      state.Around label next := by
  cases label with
  | perform call operation pieces => exact Or.inl ⟨call, operation, pieces, rfl⟩
  | connectionLost =>
      obtain rfl := Option.some.inj hstep
      exact Or.inr .connectionLost
  | loopStop =>
      obtain rfl := Option.some.inj hstep
      exact Or.inr .loopStop
  | setClock time =>
      simp only [step] at hstep
      split at hstep
      next htime =>
        obtain rfl := Option.some.inj hstep
        exact Or.inr (.setClock htime)
      next => cases hstep
  | allocElsewhere pool =>
      obtain rfl := Option.some.inj hstep
      exact Or.inr .allocElsewhere

theorem idle_of_start {session started : Session Body} {call : Nat} {operation : Operation Body}
    (hstarted : session.step config (.start call operation) = some started) :
    session.calls call = .idle := by
  cases Session.step_cases hstarted with
  | start hidle hnext => exact hidle

/-- A call that is known to return in some state returns in no other. -/
theorem eq_of_perform {session final : Session Body} {call pieces : Nat}
    {operation : Operation Body}
    (hperform : session.perform config call operation pieces = some final)
    {started returned : Session Body}
    (hstarted : session.step config (.start call operation) = some started)
    (hreaches : Session.Reaches config call started returned)
    (hfinished : (returned.calls call).finished) : final = returned := by
  obtain ⟨begun, hbegun, hfinal, hdone⟩ := Session.exists_perform_iff.mp ⟨pieces, hperform⟩
  obtain rfl := Option.some.inj (hstarted.symm.trans hbegun)
  exact Session.reaches_unique hreaches hfinal hfinished hdone

theorem step_within {label : SerialLabel Body} (hstep : state.step config label = some next)
    (hwithin : next.Within config) : state.Within config := by
  obtain ⟨hallocations, hclock⟩ := hwithin
  rcases perform_or_around hstep with ⟨call, operation, pieces, rfl⟩ | haround
  · obtain ⟨hle, hsame⟩ := Session.perform_keeps (step_perform hstep).2.1
    exact ⟨hle.trans hallocations, hsame ▸ hclock⟩
  · cases haround with
    | connectionLost | loopStop => exact ⟨hallocations, hclock⟩
    | setClock htime => exact ⟨hallocations, le_trans (Int.add_le_add_right htime _) hclock⟩
    | allocElsewhere => exact ⟨(Nat.le_succ _).trans hallocations, hclock⟩

section Calls

variable {call pieces : Nat}

theorem onConnection_kept (hkept : state.Kept config) (hwithin : state.Within config)
    (hstep : state.step config (.perform call .onConnection pieces) = some next) :
    next.Kept config := by
  obtain ⟨sent, unsent, hintime, hpending⟩ := hkept
  obtain ⟨-, hperform, hafter⟩ := step_perform hstep
  obtain ⟨begun, hbegun, -⟩ := Session.exists_perform_iff.mp ⟨pieces, hperform⟩
  obtain ⟨started, final, hstarted, hreaches, hreturned, hdone⟩ :=
    Session.onConnection_completes hintime hwithin.allocations (idle_of_start hbegun)
  have hfinal := eq_of_perform hperform hstarted hreaches (by rw [hreturned]; rfl)
  refine ⟨sent ++ unsent, [], hfinal ▸ hdone, ?_⟩
  rw [hafter, List.append_nil]
  exact hpending

theorem handlePacket_kept {header : PacketHeader} {input : Bytes}
    (hheader : config.streamer.existPacketHeader = true) (hkept : state.Kept config)
    (hwithin : state.Within config)
    (hstep : state.step config (.perform call (.handlePacket header input) pieces) = some next) :
    next.Kept config := by
  obtain ⟨sent, unsent, hintime, hpending⟩ := hkept
  obtain ⟨hpermits, hperform, hafter⟩ := step_perform hstep
  have htransmitted : header.chid &&& 0xFFFFFFF ∈ state.session.transmitted := by
    simpa [permits] using hpermits
  obtain ⟨started, hstarted, hreaches, hfinished⟩ :=
    Session.exists_perform_iff.mp ⟨pieces, hperform⟩
  refine ⟨_, _, Session.handlePacket_completes hintime hheader hwithin.allocations htransmitted
    hstarted hreaches hfinished, ?_⟩
  rw [hafter, pendingAfter, hpending, List.filter_map]
  congr 1
  nth_rewrite 2 [← hintime.timely.filter_transmitted htransmitted]
  exact List.filter_append ..

/-- `CheckTimeout` at any time gives up requests in a way that keeps the order. -/
theorem checkTimeout_kept {now : Int} (hkept : state.Kept config)
    (hwithin : state.Within config)
    (hstep : state.step config (.perform call (.checkTimeout now) pieces) = some next) :
    next.Kept config := by
  obtain ⟨sent, unsent, hintime, hpending⟩ := hkept
  obtain ⟨-, hperform, hafter⟩ := step_perform hstep
  obtain ⟨begun, hbegun, -⟩ := Session.exists_perform_iff.mp ⟨pieces, hperform⟩
  have hidle := idle_of_start hbegun
  rw [pendingAfter, hpending, List.filter_map] at hafter
  by_cases hnow : now ≤ qynetMaxTime + 1
  · obtain ⟨started, final, hstarted, hreaches, hreturned, hdone, -⟩ :=
      Session.checkTimeout_completes hintime hwithin.allocations hwithin.clock hidle hnow
    have hfinal := eq_of_perform hperform hstarted hreaches (by rw [hreturned]; rfl)
    refine ⟨_, _, hfinal ▸ hdone, ?_⟩
    rw [hafter, List.filter_append]
    rfl
  · have hlate : qynetMaxTime + 1 < now := not_le.mp hnow
    obtain ⟨started, final, hstarted, hreaches, hreturned, hdone⟩ :=
      Session.checkTimeout_completes_all hintime hwithin.allocations hwithin.clock hidle hlate
    have hfinal := eq_of_perform hperform hstarted hreaches (by rw [hreturned]; rfl)
    have hnone : (sent ++ unsent).filter
        ((fun request : Pending => decide (now ≤ request.expireTime)) ∘ Item.request) = [] := by
      apply List.filter_eq_nil_iff.mpr
      intro item hitem
      have hdue : item.request.expireTime < now :=
        hintime.timely.deadline_lt hwithin.clock hlate hitem
      simpa using hdue
    refine ⟨[], [], hfinal ▸ hdone, ?_⟩
    rw [hafter, hnone]
    rfl

theorem postPacket_kept {request : Request Body}
    (hheader : config.streamer.existPacketHeader = true) (htimeout : 0 < config.queueTimeout)
    (hkept : state.Kept config) (hwithin : next.Within config)
    (hstep : state.step config (.perform call (.postPacket request) pieces) = some next) :
    next.Kept config := by
  obtain ⟨sent, unsent, hintime, hpending⟩ := hkept
  obtain ⟨hpermits, hperform, hafter⟩ := step_perform hstep
  obtain ⟨begun, hbegun, -⟩ := Session.exists_perform_iff.mp ⟨pieces, hperform⟩
  obtain ⟨started, final, hstarted, hreaches, ⟨hrefused, hdone⟩ | hposted⟩ :=
    Session.postPacket_completes hintime hheader htimeout hpermits (idle_of_start hbegun)
  · have hfinal := eq_of_perform hperform hstarted hreaches (by rw [hrefused]; rfl)
    refine ⟨sent, unsent, hfinal ▸ hdone, ?_⟩
    rw [hafter, hfinal, pendingAfter, hrefused, ← hpending]
  · obtain ⟨item, hreturned, hallocated, hrequest, hdone⟩ := hposted
    have hfinal := eq_of_perform hperform hstarted hreaches (by rw [hreturned]; rfl)
    rw [hfinal, pendingAfter, hreturned, hallocated, hpending] at hafter
    have hadded : next.pending = (sent ++ unsent).map Item.request ++ [item.request] := by
      rw [hafter, hrequest]
      rfl
    rcases hdone (hfinal ▸ hwithin.allocations) with ⟨hsent, rfl⟩ | hqueued
    · refine ⟨_, _, hfinal ▸ hsent, ?_⟩
      rw [hadded]
      simp
    · refine ⟨_, _, hfinal ▸ hqueued, ?_⟩
      rw [hadded]
      simp

end Calls

theorem step_kept (hheader : config.streamer.existPacketHeader = true)
    (htimeout : 0 < config.queueTimeout) {label : SerialLabel Body} (hkept : state.Kept config)
    (hwithin : next.Within config) (hstep : state.step config label = some next) :
    next.Kept config := by
  have hbefore := step_within hstep hwithin
  rcases perform_or_around hstep with ⟨call, operation, pieces, rfl⟩ | haround
  · cases operation with
    | postPacket request => exact postPacket_kept hheader htimeout hkept hwithin hstep
    | onConnection => exact onConnection_kept hkept hbefore hstep
    | handlePacket header input => exact handlePacket_kept hheader hkept hbefore hstep
    | checkTimeout now => exact checkTimeout_kept hkept hbefore hstep
  · obtain ⟨sent, unsent, hintime, hpending⟩ := hkept
    have htimely := hintime.timely
    cases haround with
    | connectionLost =>
        exact ⟨sent, unsent, ⟨htimely.around _ false, hintime.mutex, nofun⟩, hpending⟩
    | loopStop => exact ⟨sent, unsent, ⟨htimely, hintime.mutex, hintime.flushed⟩, hpending⟩
    | setClock htime =>
        exact ⟨sent, unsent, ⟨htimely.setClock htime, hintime.mutex, hintime.flushed⟩, hpending⟩
    | @allocElsewhere pool =>
        exact ⟨sent, unsent, ⟨htimely.allocElsewhere pool, hintime.mutex, hintime.flushed⟩,
          hpending⟩

theorem run_kept (hheader : config.streamer.existPacketHeader = true)
    (htimeout : 0 < config.queueTimeout) {mem : Ref → Channel}
    {labels : List (SerialLabel Body)}
    (hrun : run (step config) (new mem) labels = some state) (hwithin : state.Within config) :
    state.Kept config := by
  have hkept : state.Within config → state.Kept config := by
    refine run_invariant (fun state => state.Within config → state.Kept config) ?_ ?_ hrun
    · exact fun _ => ⟨[], [], ⟨.new mem, rfl, fun _ => rfl⟩, rfl⟩
    · intro _ label _ middle next _ _ hmiddle hstep hnext
      exact step_kept hheader htimeout (hmiddle (step_within hstep hnext)) hnext hstep
  exact hkept hwithin

/-- In every run of whole calls the lists of the session are in the order of their
times, and `CheckTimeout` gives up exactly the pending requests whose packets have
expired, calls the handler of each that has one, and leaves the lists in order. -/
theorem timeouts_complete (hheader : config.streamer.existPacketHeader = true)
    (htimeout : 0 < config.queueTimeout) {mem : Ref → Channel}
    {labels : List (SerialLabel Body)}
    (hrun : run (step config) (new mem) labels = some state)
    (hcount : state.session.allocations ≤ 2 ^ 28 - 1)
    (hclock : Session.expireTime state.session.clock config.queueTimeout ≤ qynetMaxTime + 1) :
    (∃ sent unsent, state.InOrder sent unsent) ∧
    ∀ call now, state.session.calls call = .idle → now ≤ qynetMaxTime →
      (∃ pieces final, state.step config (.perform call (.checkTimeout now) pieces) =
        some final) ∧
      ∀ pieces final, state.step config (.perform call (.checkTimeout now) pieces) = some final →
        final.session.handlerCalls = state.session.handlerCalls ++
          (state.pending.filter (·.expireTime < now)).filterMap (·.report config) ∧
        final.pending = state.pending.filter (now ≤ ·.expireTime) ∧
        ∃ sent unsent, final.InOrder sent unsent := by
  have hwithin : state.Within config := ⟨hcount, hclock⟩
  have hkept := run_kept hheader htimeout hrun hwithin
  refine ⟨hkept.inOrder hclock, fun call now hidle hnow => ?_⟩
  obtain ⟨sent, unsent, hintime, hpending⟩ := id hkept
  obtain ⟨started, returned, hstarted, hreaches, hreturned, -, hreports⟩ :=
    Session.checkTimeout_completes hintime hcount hclock hidle (Int.le_add_one hnow)
  have hfinished : (returned.calls call).finished := by
    rw [hreturned]
    rfl
  constructor
  · obtain ⟨pieces, hperform⟩ :=
      Session.exists_perform_iff.mpr ⟨started, hstarted, hreaches, hfinished⟩
    refine ⟨pieces, ⟨returned, state.pendingAfter config call returned (.checkTimeout now)⟩, ?_⟩
    simp only [step, permits, hperform, if_true]
    rfl
  · intro pieces final hstep
    obtain ⟨-, hperform, hafter⟩ := step_perform hstep
    have hfinal := eq_of_perform hperform hstarted hreaches hfinished
    refine ⟨?_, hafter, ?_⟩
    · rw [hfinal, hreports, hpending, List.filter_map, List.filterMap_map]
      rfl
    · apply (checkTimeout_kept hkept hwithin hstep).inOrder
      rw [(Session.perform_keeps hperform).2]
      exact hclock

/-- One request is queued and flushed, one is sent, and after the connection is lost
and some time has passed a third one is queued. -/
def mixedRun : List (SerialLabel Bytes) :=
  [.perform 0 (.postPacket (Session.byteRequest 1)) 5, .perform 1 .onConnection 6,
    .perform 2 (.postPacket (Session.byteRequest 2)) 7, .connectionLost, .setClock 100,
    .perform 3 (.postPacket (Session.byteRequest 3)) 5]

theorem timeouts_complete_mixed : ∃ state,
    run (step Session.byteConfig) (new (Process.zeroMemory 0)) mixedRun = some state ∧
    state.pending = [⟨1, none, none, 5000000⟩, ⟨2, none, none, 5000000⟩,
      ⟨3, none, none, 5000100⟩] ∧
    (∃ sent unsent, state.InOrder sent unsent) ∧
    ∃ pieces final,
      state.step Session.byteConfig (.perform 4 (.checkTimeout 5000050) pieces) = some final ∧
      final.pending = [⟨3, none, none, 5000100⟩] := by
  have hrun : (run (step Session.byteConfig) (new (Process.zeroMemory 0)) mixedRun).map
      (fun state => (state.pending, state.session.allocations, state.session.clock,
        (state.session.calls 4).isIdle)) =
      some ([⟨1, none, none, 5000000⟩, ⟨2, none, none, 5000000⟩, ⟨3, none, none, 5000100⟩], 3,
        100, true) := by
    decide
  obtain ⟨state, hstate, hvalues⟩ := Option.map_eq_some_iff.mp hrun
  simp only [Prod.mk.injEq] at hvalues
  obtain ⟨hpending, hallocations, hclock, hcall⟩ := hvalues
  have hidle : state.session.calls 4 = .idle := Activity.eq_idle hcall
  have hheader : Session.byteConfig.streamer.existPacketHeader = true := rfl
  obtain ⟨horder, hcheck⟩ := timeouts_complete hheader (by decide) hstate
    (by rw [hallocations]; decide) (by rw [hclock]; decide)
  obtain ⟨⟨pieces, final, hstep⟩, hfinal⟩ := hcheck 4 5000050 hidle (by decide)
  refine ⟨state, hstate, hpending, horder, pieces, final, hstep, ?_⟩
  rw [(hfinal pieces final hstep).2.1, hpending]
  decide

/-- A session without a default handler. -/
def silentConfig : Config Bytes := { Session.byteConfig with defaultPacketHandler := none }

/-- A request without a handler is given up without a report, and a clock beyond
`QYNET_MAX_TIME` puts the use list out of order. -/
theorem timeouts_incomplete :
    (∃ state final, run (step silentConfig) (new (Process.zeroMemory 0))
        [.perform 0 (.postPacket (Session.byteRequest 1)) 5, .setClock 6000000] = some state ∧
      state.pending = [⟨1, none, none, 5000000⟩] ∧
      state.step silentConfig (.perform 1 (.checkTimeout 6000000) 3) = some final ∧
      final.session.handlerCalls = []) ∧
    ∃ state, run (step Session.byteConfig) (new (Process.zeroMemory 0))
        [.perform 0 .onConnection 2, .setClock (2 ^ 62),
          .perform 1 (.postPacket (Session.byteRequest 1)) 7, .connectionLost,
          .perform 2 (.postPacket (Session.byteRequest 2)) 5] = some state ∧
      ¬ DeadlineOrder state.session.pool.expireTime state.session.pool.useList := by
  constructor
  · have hrun : ((run (step silentConfig) (new (Process.zeroMemory 0))
        [.perform 0 (.postPacket (Session.byteRequest 1)) 5, .setClock 6000000]).bind
        fun state => (state.step silentConfig (.perform 1 (.checkTimeout 6000000) 3)).map
          fun final => (state.pending, final.session.handlerCalls.length)) =
        some ([⟨1, none, none, 5000000⟩], 0) := by
      decide
    obtain ⟨state, hstate, hstep⟩ := Option.bind_eq_some_iff.mp hrun
    obtain ⟨final, hfinal, hvalues⟩ := Option.map_eq_some_iff.mp hstep
    simp only [Prod.mk.injEq, List.length_eq_zero_iff] at hvalues
    exact ⟨state, final, hstate, hvalues.1, hfinal, hvalues.2⟩
  · have hrun : (run (step Session.byteConfig) (new (Process.zeroMemory 0))
        [.perform 0 .onConnection 2, .setClock (2 ^ 62),
          .perform 1 (.postPacket (Session.byteRequest 1)) 7, .connectionLost,
          .perform 2 (.postPacket (Session.byteRequest 2)) 5]).map
        (fun state => state.session.pool.useList.map state.session.pool.expireTime) =
        some [2 ^ 62 + 5000000, 2 ^ 62 + 1] := by
      decide
    obtain ⟨state, hstate, htimes⟩ := Option.map_eq_some_iff.mp hrun
    refine ⟨state, hstate, fun horder => ?_⟩
    rw [DeadlineOrder, ← List.pairwise_map, htimes] at horder
    revert horder
    decide

end Serial

end Wnet
