import Wnet.Session.Shares

/-!
# What the limits of a session bound

`PostPacket` compares the queue and the channels in use with its limits before it
allocates a channel and before it queues its packet, in other sections than these. A
limit is kept in the runs in which each comparison leaves room for what the calls under
way may still add; a comparison made with nothing under way leaves that room by itself.
One of them admits one packet too many.
-/

namespace Wnet

open Foundation

variable {Body : Type*} {config : Config Body} {session session' : Session Body} {call : Nat}

namespace Session

/-! ## The queue of a disconnected session -/

/-- There is room for the packets that some calls may bring to the queue: when a call of
`PostPacket` passes the first test without a connection, and when the connection is lost. -/
def QueueRoom (bound : Int) (calls : Finset Nat) (session : Session Body) : Label Body → Prop
  | .start _ (.postPacket _) => session.connected = false → session.outputQueue.length ≤ 10 →
      session.outputQueue.length + ∑ call ∈ calls, (session.calls call).mayPush false < bound
  | .connectionLost =>
      session.outputQueue.length + ∑ call ∈ calls, (session.calls call).mayPush false ≤ bound
  | _ => True

instance (bound : Int) (calls : Finset Nat) (session : Session Body) (label : Label Body) :
    Decidable (session.QueueRoom bound calls label) :=
  match label with
  | .start _ (.postPacket _) => inferInstanceAs (Decidable (session.connected = false →
      session.outputQueue.length ≤ 10 → session.outputQueue.length +
        ∑ call ∈ calls, (session.calls call).mayPush false < bound))
  | .connectionLost => inferInstanceAs (Decidable (session.outputQueue.length +
      ∑ call ∈ calls, (session.calls call).mayPush false ≤ bound))
  | .start _ .onConnection | .start _ (.handlePacket _ _) | .start _ (.checkTimeout _)
  | .proceed _ | .loopStop | .setClock _ | .allocElsewhere _ => inferInstanceAs (Decidable True)

theorem queueRoom_of_range {bound : Int} {count : Nat} {label : Label Body}
    (hidle : ∀ call, count ≤ call → session.calls call = .idle)
    (hroom : session.QueueRoom bound (Finset.range count) label) (calls : Finset Nat) :
    session.QueueRoom bound calls label := by
  have hsum := sum_shares_le (Activity.mayPush_nonneg false) rfl hidle calls
  cases label with
  | start call operation =>
      cases operation with
      | postPacket request =>
          intro hconnected hten
          have hnumbered := hroom hconnected hten
          omega
      | _ => trivial
  | connectionLost =>
      change _ + _ ≤ bound at hroom ⊢
      omega
  | _ => trivial

theorem mayPush_shares : SharesOfPosts (Activity.mayPush : Bool → Activity Body → Int) where
  nonneg := Activity.mayPush_nonneg
  connected_le connected activity := by
    rw [Activity.mayPush_connected]
    exact Activity.mayPush_nonneg _ _
  others connected activity hother := by
    cases activity with
    | postPacket request stage => exact absurd rfl (hother request stage)
    | _ => rfl

theorem start_queueRoom {bound : Int} {request : Request Body}
    (hreserved : Reserved bound session.outputQueue.length (session.shares Activity.mayPush))
    (hroom : ∀ calls, session.QueueRoom bound calls (.start call (.postPacket request)))
    (hidle : session.calls call = .idle)
    (hnext : session.start config call (.postPacket request) = some session') :
    Reserved bound session'.outputQueue.length (session'.shares Activity.mayPush) := by
  cases start_cases hnext with
  | reject hlost =>
      exact reserved_of_moves call hreserved ⟨rfl, rfl⟩ le_rfl (by rw [hidle]; rfl)
  | enter hallowed =>
      cases hconnected : session.connected with
      | true =>
          refine reserved_of_moves call hreserved ⟨rfl, rfl⟩ le_rfl ?_
          rw [hconnected, Activity.mayPush_connected]
          exact Activity.mayPush_nonneg _ _
      | false =>
          have hten : session.outputQueue.length ≤ 10 := by
            by_contra hmore
            exact hallowed ⟨hconnected, Or.inr (by omega)⟩
          have hclaim : Reserved (bound - 1) session.outputQueue.length
              (session.shares Activity.mayPush) := by
            intro calls
            have hcalls := hroom calls hconnected hten
            rw [← hconnected] at hcalls
            exact Int.le_sub_one_of_lt hcalls
          exact reserved_of_claims call hclaim ⟨rfl, rfl⟩ le_rfl (by decide)
            (Activity.mayPush_le _ _)

theorem postPacket_queueRoom {bound : Int} {request : Request Body} {stage : PostStage Body}
    (hreserved : Reserved bound session.outputQueue.length (session.shares Activity.mayPush))
    (hcall : session.calls call = .postPacket request stage)
    (hnext : session.postPacket config call request stage = some session') :
    Reserved bound session'.outputQueue.length (session'.shares Activity.mayPush) := by
  cases postPacket_cases hnext with
  | admitted | allocate | withoutChannel | fill =>
      refine reserved_of_moves call hreserved ⟨rfl, rfl⟩ le_rfl ?_
      rw [hcall]
      rfl
  | @encode packet hmutex hconnected =>
      have hspec := encode_spec config { session with mutex := some call } packet
      refine reserved_of_moves call hreserved (.become hspec.calls hspec.connected) ?_
        (Activity.mayPush_nonneg _ _)
      exact (congrArg (fun queue => (queue.length : Int)) hspec.outputQueue).le
  | push hmutex hconnected =>
      refine reserved_of_spends call hreserved ⟨rfl, rfl⟩ (Activity.mayPush_nonneg _ _) ?_
      rw [hcall, hconnected, Session.become, push_outputQueue, List.length_append]
      exact le_rfl
  | @send packet =>
      have hspec := send_spec session packet
      refine reserved_of_moves call hreserved (.become hspec.calls hspec.connected) ?_
        (Activity.mayPush_nonneg _ _)
      exact (congrArg (fun queue => (queue.length : Int)) hspec.outputQueue).le
  | wait => exact hreserved
  | _ =>
      exact reserved_of_moves call hreserved ⟨rfl, rfl⟩ le_rfl (Activity.mayPush_nonneg _ _)

theorem step_queueRoom {bound : Int} {label : Label Body}
    (hreserved : Reserved bound session.outputQueue.length (session.shares Activity.mayPush))
    (hroom : ∀ calls, session.QueueRoom bound calls label)
    (hstep : session.step config label = some session') :
    Reserved bound session'.outputQueue.length (session'.shares Activity.mayPush) := by
  have hamount : ∀ session session' : Session Body,
      session'.outputQueue.length ≤ session.outputQueue.length →
      session'.pool.getUseListCount ≤ session.pool.getUseListCount →
      (session'.outputQueue.length : Int) ≤ session.outputQueue.length :=
    fun _ _ hqueue _ => Int.ofNat_le.mpr hqueue
  refine reserved_of_step mayPush_shares hamount hreserved ?_ ?_ ?_ hstep
  · rintro call request rfl hidle hnext
    exact start_queueRoom hreserved hroom hidle hnext
  · rintro call request stage rfl hcall hnext
    exact postPacket_queueRoom hreserved hcall hnext
  · rintro rfl
    exact hroom

/-- Before any call nothing is reserved. -/
theorem reserved_new {share : Bool → Activity Body → Int} {bound : Int}
    (hidle : ∀ connected, share connected .idle = 0) (hbound : 0 ≤ bound) (mem : Ref → Channel) :
    Reserved bound 0 ((new mem : Session Body).shares share) := by
  intro calls
  have hzero : ∑ call ∈ calls, (new mem : Session Body).shares share call = 0 :=
    Finset.sum_eq_zero fun call _ => hidle _
  omega

/-- In the runs with that room the queue keeps the bound. -/
theorem outputQueue_le_of_room {mem : Ref → Channel} {labels before after : List (Label Body)}
    {middle : Session Body} {bound : Int} (hbound : 0 ≤ bound)
    (halong : Along (step config)
      (fun session label => ∀ calls, session.QueueRoom bound calls label) (new mem) labels)
    (hlabels : labels = before ++ after) (hrun : run (step config) (new mem) before = some middle) :
    middle.outputQueue.length ≤ bound := by
  subst hlabels
  exact (run_invariant_along _ (fun _ _ _ hreserved hroom => step_queueRoom hreserved hroom)
    (reserved_new (fun _ => rfl) hbound mem) halong.of_append hrun).amount_le

/-- No more than so many other calls of `PostPacket` are on their way to the queue when
one begins without a connection, and when the connection is lost they fit. -/
def Overlaps (others : Int) (calls : Finset Nat) (session : Session Body) : Label Body → Prop
  | .start _ (.postPacket _) => session.connected = false →
      ∑ call ∈ calls, (session.calls call).mayPush false ≤ others
  | .connectionLost => session.outputQueue.length +
      ∑ call ∈ calls, (session.calls call).mayPush false ≤ 11 + others
  | _ => True

instance (others : Int) (calls : Finset Nat) (session : Session Body) (label : Label Body) :
    Decidable (session.Overlaps others calls label) :=
  match label with
  | .start _ (.postPacket _) => inferInstanceAs (Decidable (session.connected = false →
      ∑ call ∈ calls, (session.calls call).mayPush false ≤ others))
  | .connectionLost => inferInstanceAs (Decidable (session.outputQueue.length +
      ∑ call ∈ calls, (session.calls call).mayPush false ≤ 11 + others))
  | .start _ .onConnection | .start _ (.handlePacket _ _) | .start _ (.checkTimeout _)
  | .proceed _ | .loopStop | .setClock _ | .allocElsewhere _ => inferInstanceAs (Decidable True)

theorem overlaps_of_range {others : Int} {count : Nat} {label : Label Body}
    (hidle : ∀ call, count ≤ call → session.calls call = .idle)
    (hoverlaps : session.Overlaps others (Finset.range count) label) (calls : Finset Nat) :
    session.Overlaps others calls label := by
  have hsum := sum_shares_le (Activity.mayPush_nonneg false) rfl hidle calls
  cases label with
  | start call operation =>
      cases operation with
      | postPacket request => exact fun hconnected => hsum.trans (hoverlaps hconnected)
      | _ => trivial
  | connectionLost =>
      change _ + _ ≤ 11 + others at hoverlaps ⊢
      omega
  | _ => trivial

/-- The test of the size leaves room for one packet more than ten and for the overlap. -/
theorem queueRoom_of_overlaps {others : Int} {calls : Finset Nat} {label : Label Body}
    (hoverlaps : session.Overlaps others calls label) :
    session.QueueRoom (11 + others) calls label := by
  cases label with
  | start call operation =>
      cases operation with
      | postPacket request =>
          intro hconnected hten
          have hothers := hoverlaps hconnected
          omega
      | _ => trivial
  | connectionLost => exact hoverlaps
  | _ => trivial

/-- At most ten packets are queued in the runs in which there is room for those on
their way to the queue as well. Without it, what the test of the size achieves is eleven
packets and one more for each call that overlaps with another one. -/
theorem outputQueue_bounded {mem : Ref → Channel} {labels : List (Label Body)} :
    (Along (step config) (fun session label => ∀ calls, session.QueueRoom 10 calls label)
        (new mem) labels →
      ∀ before after middle, labels = before ++ after →
        run (step config) (new mem) before = some middle → middle.outputQueue.length ≤ 10) ∧
    ∀ others : Nat,
      Along (step config) (fun session label => ∀ calls, session.Overlaps others calls label)
        (new mem) labels →
      ∀ before after middle, labels = before ++ after →
        run (step config) (new mem) before = some middle →
        middle.outputQueue.length ≤ 11 + others := by
  constructor
  · intro halong before after middle hlabels hrun
    exact_mod_cast outputQueue_le_of_room (by decide) halong hlabels hrun
  · intro others halong before after middle hlabels hrun
    have hroom := halong.imp_of_invariant (fun _ => True) (fun _ _ _ _ _ _ => trivial)
      (fun _ _ _ hoverlaps calls => queueRoom_of_overlaps (hoverlaps calls)) trivial
    exact_mod_cast outputQueue_le_of_room (by omega) hroom hlabels hrun

/-- The same settings without packet headers and so without channels. -/
def plainConfig : Config Bytes :=
  { byteConfig with streamer := { byteStreamer with existPacketHeader := false } }

/-- All of one call that queues its packet. -/
def post (call : Nat) : List (Label Bytes) :=
  .start call (.postPacket (byteRequest 1)) :: List.replicate 4 (.proceed call)

/-- Eight packets are queued one after the other and two at once, and the connection
comes and is lost while they are sent. -/
def fillAndSend : List (Label Bytes) :=
  (List.range 8).flatMap post ++
  [.start 8 (.postPacket (byteRequest 8)), .start 9 (.postPacket (byteRequest 9))] ++
  (List.replicate 4 [.proceed 8, .proceed 9]).flatten ++
  .start 10 .onConnection :: List.replicate 8 (.proceed 10) ++
  .start 11 (.postPacket (byteRequest 11)) :: .connectionLost :: List.replicate 25 (.proceed 10) ++
  List.replicate 4 (.proceed 11)

theorem outputQueue_bounded_filled : ∃ sent full,
    run (step plainConfig) (new (Process.zeroMemory 0)) fillAndSend = some sent ∧
    sent.outputQueue.length = 1 ∧
    (∀ before after middle, fillAndSend = before ++ after →
      run (step plainConfig) (new (Process.zeroMemory 0)) before = some middle →
      middle.outputQueue.length ≤ 10) ∧
    run (step plainConfig) (new (Process.zeroMemory 0))
      ((List.range 11).flatMap post ++ [.start 11 (.postPacket (byteRequest 11))]) = some full ∧
    full.outputQueue.length = 11 ∧ .returned 11 false ∈ full.history ∧
    ∀ before after middle,
      (List.range 11).flatMap post ++ [.start 11 (.postPacket (byteRequest 11))] =
        before ++ after →
      run (step plainConfig) (new (Process.zeroMemory 0)) before = some middle →
      middle.outputQueue.length ≤ 11 := by
  have hsent : (run (step plainConfig) (new (Process.zeroMemory 0)) fillAndSend).map
      (fun session => session.outputQueue.length) = some 1 := by decide +kernel
  have hroom : Along (step plainConfig) (QueueRoom 10 (Finset.range 12))
      (new (Process.zeroMemory 0)) fillAndSend := by decide +kernel
  have hfull : (run (step plainConfig) (new (Process.zeroMemory 0))
      ((List.range 11).flatMap post ++ [.start 11 (.postPacket (byteRequest 11))])).map
      (fun session => (session.outputQueue.length, decide (.returned 11 false ∈ session.history))) =
      some (11, true) := by decide +kernel
  have hoverlaps : Along (step plainConfig) (Overlaps 0 (Finset.range 12))
      (new (Process.zeroMemory 0))
      ((List.range 11).flatMap post ++ [.start 11 (.postPacket (byteRequest 11))]) := by
    decide +kernel
  obtain ⟨sent, hsentRun, hone⟩ := Option.map_eq_some_iff.mp hsent
  obtain ⟨full, hfullRun, heleven⟩ := Option.map_eq_some_iff.mp hfull
  obtain ⟨hlength, hrefused⟩ := Prod.mk.inj heleven
  refine ⟨sent, full, hsentRun, hone, ?_, hfullRun, hlength, of_decide_eq_true hrefused, ?_⟩
  · exact outputQueue_bounded.1 (along_of_range (fun _ _ => queueRoom_of_range) hroom (by decide))
  · exact outputQueue_bounded.2 0
      (along_of_range (fun _ _ => overlaps_of_range) hoverlaps (by decide))

theorem outputQueue_eleven : ∃ session,
    run (step plainConfig) (new (Process.zeroMemory 0)) ((List.range 11).flatMap post) =
      some session ∧ plainConfig.autoReconnect = true ∧ session.outputQueue.length = 11 := by
  have hlength : (run (step plainConfig) (new (Process.zeroMemory 0))
      ((List.range 11).flatMap post)).map (fun session => session.outputQueue.length) =
      some 11 := by decide
  obtain ⟨session, hrun, heleven⟩ := Option.map_eq_some_iff.mp hlength
  exact ⟨session, hrun, rfl, heleven⟩

/-! ## The number of requests in flight -/

/-- There is room for what some calls may bring on: when the test of the limit lets a
call of `PostPacket` pass, and when the connection is lost. -/
def LimitRoom (config : Config Body) (calls : Finset Nat) (session : Session Body) :
    Label Body → Prop
  | .proceed call => ∀ request ∈ (session.calls call).atLimitTest,
      ¬ (request.noblocking ∧ session.queueSize ≥ config.queueLimit) →
      session.queueSize + ∑ other ∈ calls, (session.calls other).mayLoad config session.connected +
        (Activity.postPacket request .admitted).mayLoad config session.connected ≤
          config.queueLimit
  | .connectionLost => session.queueSize +
      ∑ call ∈ calls, (session.calls call).mayLoad config false ≤ config.queueLimit
  | _ => True

theorem mayLoad_shares (config : Config Body) : SharesOfPosts (Activity.mayLoad config) where
  nonneg := Activity.mayLoad_nonneg
  connected_le := Activity.mayLoad_connected_le
  others connected activity hother := by
    cases activity with
    | postPacket request stage => exact absurd rfl (hother request stage)
    | _ => rfl

theorem queueSize_le_of_eases (session session' : Session Body)
    (hqueue : session'.outputQueue.length ≤ session.outputQueue.length)
    (huse : session'.pool.getUseListCount ≤ session.pool.getUseListCount) :
    session'.queueSize ≤ session.queueSize := by
  rw [queueSize, queueSize]
  omega

theorem postPacket_limitRoom {request : Request Body} {stage : PostStage Body}
    (hlimit : 0 < config.queueLimit)
    (hreserved : Reserved config.queueLimit session.queueSize
      (session.shares (Activity.mayLoad config)))
    (hroom : ∀ calls, session.LimitRoom config calls (.proceed call))
    (hcall : session.calls call = .postPacket request stage)
    (hnext : session.postPacket config call request stage = some session') :
    Reserved config.queueLimit session'.queueSize (session'.shares (Activity.mayLoad config)) := by
  cases postPacket_cases hnext with
  | admitted hmutex hpassed =>
      have hclaim : Reserved (config.queueLimit -
          (Activity.postPacket request .admitted).mayLoad config session.connected)
          session.queueSize (session.shares (Activity.mayLoad config)) := by
        intro calls
        have hcalls := hroom calls
        rw [LimitRoom, hcall] at hcalls
        exact Int.le_sub_right_of_add_le
          (hcalls request rfl fun hfull => hpassed ⟨hlimit, hfull⟩)
      exact reserved_of_claims call hclaim ⟨rfl, rfl⟩ le_rfl (Activity.mayLoad_nonneg _ _) le_rfl
  | @allocate globals pool' channel hheader halloc =>
      refine reserved_of_spends call hreserved ⟨rfl, rfl⟩ (Activity.mayLoad_nonneg _ _) ?_
      have hcount : pool'.getUseListCount ≤ session.pool.getUseListCount + 1 := by
        have huse := session.pool.allocChannel_useCount session.globals
        rwa [halloc] at huse
      rw [hcall, Activity.mayLoad, Activity.mayLoad, if_pos hheader, queueSize, queueSize]
      change (session.outputQueue.length : Int) + pool'.getUseListCount + _ ≤ _
      omega
  | withoutChannel hheader =>
      refine reserved_of_moves call hreserved ⟨rfl, rfl⟩ le_rfl ?_
      rw [hcall, Activity.mayLoad, Activity.mayLoad, hheader]
      simp
  | fill =>
      refine reserved_of_moves call hreserved ⟨rfl, rfl⟩ le_rfl ?_
      rw [hcall]
      rfl
  | @encode packet hmutex hconnected =>
      have hspec := encode_spec config { session with mutex := some call } packet
      refine reserved_of_moves call hreserved (.become hspec.calls hspec.connected) ?_
        (Activity.mayLoad_nonneg _ _)
      exact queueSize_le_of_eases _ _ (congrArg List.length hspec.outputQueue).le
        (congrArg ChannelPool.getUseListCount hspec.pool).le
  | push hmutex hconnected =>
      refine reserved_of_spends call hreserved ⟨rfl, rfl⟩ (Activity.mayLoad_nonneg _ _) ?_
      rw [hcall, hconnected, queueSize, queueSize, Session.become, push_outputQueue,
        List.length_append]
      change ((session.outputQueue.length + 1 : Nat) : Int) + session.pool.getUseListCount + 0 ≤
        session.outputQueue.length + session.pool.getUseListCount + 1
      omega
  | @send packet =>
      have hspec := send_spec session packet
      refine reserved_of_moves call hreserved (.become hspec.calls hspec.connected) ?_
        (Activity.mayLoad_nonneg _ _)
      exact queueSize_le_of_eases _ _ (congrArg List.length hspec.outputQueue).le
        (congrArg ChannelPool.getUseListCount hspec.pool).le
  | stamp =>
      exact reserved_of_moves call hreserved ⟨rfl, rfl⟩
        (queueSize_le_of_eases _ _ le_rfl (session.pool.setExpireTime_useCount _ _).le)
        (Activity.mayLoad_nonneg _ _)
  | wait => exact hreserved
  | _ =>
      exact reserved_of_moves call hreserved ⟨rfl, rfl⟩ le_rfl (Activity.mayLoad_nonneg _ _)

theorem start_limitRoom {request : Request Body}
    (hreserved : Reserved config.queueLimit session.queueSize
      (session.shares (Activity.mayLoad config)))
    (hnext : session.start config call (.postPacket request) = some session') :
    Reserved config.queueLimit session'.queueSize (session'.shares (Activity.mayLoad config)) := by
  cases start_cases hnext with
  | _ => exact reserved_of_moves call hreserved ⟨rfl, rfl⟩ le_rfl (Activity.mayLoad_nonneg _ _)

theorem step_limitRoom {label : Label Body} (hlimit : 0 < config.queueLimit)
    (hreserved : Reserved config.queueLimit session.queueSize
      (session.shares (Activity.mayLoad config)))
    (hroom : ∀ calls, session.LimitRoom config calls label)
    (hstep : session.step config label = some session') :
    Reserved config.queueLimit session'.queueSize (session'.shares (Activity.mayLoad config)) := by
  refine reserved_of_step (mayLoad_shares config) queueSize_le_of_eases hreserved ?_ ?_ ?_ hstep
  · rintro call request rfl hidle hnext
    exact start_limitRoom hreserved hnext
  · rintro call request stage rfl hcall hnext
    exact postPacket_limitRoom hlimit hreserved hroom hcall hnext
  · rintro rfl
    exact hroom

/-- The limit is kept in the runs in which the test of the limit leaves room for what
the calls that have passed it, and the one that passes it now, may still add. -/
theorem queueSize_bounded {mem : Ref → Channel} {labels : List (Label Body)}
    (hlimit : 0 < config.queueLimit)
    (halong : Along (step config)
      (fun session label => ∀ calls, session.LimitRoom config calls label) (new mem) labels) :
    ∀ before after middle, labels = before ++ after →
      run (step config) (new mem) before = some middle →
      middle.queueSize ≤ config.queueLimit := by
  rintro before after middle rfl hrun
  have hstart : Reserved config.queueLimit (new mem : Session Body).queueSize
      ((new mem).shares (Activity.mayLoad config)) :=
    reserved_new (fun _ => rfl) hlimit.le mem
  exact (run_invariant_along _
    (fun _ _ _ hreserved hroom => step_limitRoom hlimit hreserved hroom)
    hstart halong.of_append hrun).amount_le

/-- Where no other call is past its test and this one adds at most one thing, the test
itself leaves the room. -/
theorem limitRoom_of_alone {request : Request Body} {calls : Finset Nat}
    (hcall : session.calls call = .postPacket request .entered)
    (hnoblocking : request.noblocking = true)
    (halone : ∀ other, (session.calls other).mayLoad config session.connected = 0)
    (hone : config.streamer.existPacketHeader = false ∨ session.connected = true) :
    session.LimitRoom config calls (.proceed call) := by
  rw [LimitRoom, hcall]
  intro request' hrequest hpassed
  obtain rfl := Option.some.inj hrequest
  have hbelow : session.queueSize < config.queueLimit := by
    by_contra hfull
    exact hpassed ⟨hnoblocking, not_lt.mp hfull⟩
  have hadds : (Activity.postPacket request .admitted).mayLoad config session.connected ≤ 1 := by
    rcases hone with hplain | hconnected
    · rw [Activity.mayLoad, hplain]
      cases session.connected <;> decide
    · rw [Activity.mayLoad, hconnected]
      split <;> decide
  rw [Finset.sum_eq_zero fun other _ => halone other]
  omega

instance (calls : Finset Nat) (session : Session Body) (label : Label Body) :
    Decidable (session.LimitRoom config calls label) :=
  match label with
  | .proceed call => inferInstanceAs (Decidable (∀ request ∈ (session.calls call).atLimitTest,
      ¬ (request.noblocking ∧ session.queueSize ≥ config.queueLimit) →
      session.queueSize + ∑ other ∈ calls, (session.calls other).mayLoad config session.connected +
        (Activity.postPacket request .admitted).mayLoad config session.connected ≤
          config.queueLimit))
  | .connectionLost => inferInstanceAs (Decidable (session.queueSize +
      ∑ call ∈ calls, (session.calls call).mayLoad config false ≤ config.queueLimit))
  | .start _ _ | .loopStop | .setClock _ | .allocElsewhere _ => inferInstanceAs (Decidable True)

theorem limitRoom_of_range {count : Nat} {label : Label Body}
    (hidle : ∀ call, count ≤ call → session.calls call = .idle)
    (hroom : session.LimitRoom config (Finset.range count) label) (calls : Finset Nat) :
    session.LimitRoom config calls label := by
  cases label with
  | proceed call =>
      intro request hrequest hpassed
      have hsum := sum_shares_le ((mayLoad_shares config).nonneg session.connected) rfl hidle calls
      have hnumbered := hroom request hrequest hpassed
      omega
  | connectionLost =>
      have hsum := sum_shares_le ((mayLoad_shares config).nonneg false) rfl hidle calls
      change _ + _ ≤ config.queueLimit at hroom ⊢
      omega
  | _ => trivial

/-- Two requests at once, one more that is refused, the answers, and without the
connection one that is queued and one that is refused. -/
def twoAtATime : List (Label Bytes) :=
  .start 0 .onConnection :: List.replicate 2 (.proceed 0) ++
  .start 1 (.postPacket (byteRequest 1)) :: .start 2 (.postPacket (byteRequest 2)) ::
  .proceed 1 :: .proceed 2 :: List.replicate 6 (.proceed 1) ++ List.replicate 6 (.proceed 2) ++
  [.start 3 (.postPacket (byteRequest 3)), .proceed 3] ++
  .start 4 (.handlePacket ⟨1, 1, 1⟩ [1]) :: List.replicate 2 (.proceed 4) ++
  .start 5 (.handlePacket ⟨2, 1, 1⟩ [2]) :: List.replicate 2 (.proceed 5) ++
  .connectionLost :: .start 6 (.postPacket (byteRequest 6)) :: List.replicate 5 (.proceed 6) ++
  [.start 7 (.postPacket (byteRequest 7)), .proceed 7]

theorem queueSize_bounded_twoAtATime : ∃ session,
    run (step { byteConfig with queueLimit := 2 }) (new (Process.zeroMemory 0)) twoAtATime =
      some session ∧
    session.queueSize = 2 ∧
    .returned 3 false ∈ session.history ∧ .returned 7 false ∈ session.history ∧
    ∀ before after middle, twoAtATime = before ++ after →
      run (step { byteConfig with queueLimit := 2 }) (new (Process.zeroMemory 0)) before =
        some middle → middle.queueSize ≤ 2 := by
  have hsize : (run (step { byteConfig with queueLimit := 2 }) (new (Process.zeroMemory 0))
      twoAtATime).map (fun session => (session.queueSize,
        decide (.returned 3 false ∈ session.history ∧ .returned 7 false ∈ session.history))) =
      some (2, true) := by decide +kernel
  have hroom : Along (step { byteConfig with queueLimit := 2 })
      (LimitRoom { byteConfig with queueLimit := 2 } (Finset.range 8))
      (new (Process.zeroMemory 0)) twoAtATime := by decide +kernel
  obtain ⟨session, hrun, hresult⟩ := Option.map_eq_some_iff.mp hsize
  obtain ⟨htwo, hrefused⟩ := Prod.mk.inj hresult
  obtain ⟨hthird, hseventh⟩ := of_decide_eq_true hrefused
  exact ⟨session, hrun, htwo, hthird, hseventh, queueSize_bounded (by decide)
    (along_of_range (fun _ _ => limitRoom_of_range) hroom (by decide))⟩

/-- A request without a connection counts as a channel and as a packet. -/
theorem queueSize_exceeds : ∃ session,
    run (step { byteConfig with queueLimit := 1 }) (new (Process.zeroMemory 0))
      (.start 0 (.postPacket (byteRequest 1)) :: List.replicate 4 (.proceed 0)) = some session ∧
    (byteRequest 1).noblocking = true ∧ session.queueSize = 2 := by
  have hsize : (run (step { byteConfig with queueLimit := 1 }) (new (Process.zeroMemory 0))
      (.start 0 (.postPacket (byteRequest 1)) :: List.replicate 4 (.proceed 0))).map queueSize =
      some 2 := by decide
  obtain ⟨session, hrun, htwo⟩ := Option.map_eq_some_iff.mp hsize
  exact ⟨session, hrun, rfl, htwo⟩

end Session

end Wnet
