import Wnet.Session.Shares
import Wnet.Session.Locking

/-!
# Calls one at a time

A call that nothing interrupts runs from its start to its return. Here whole calls
are the steps of a session, and beside the session stands the list of its pending
requests: a `PostPacket` that returns true adds one, a response removes the request
that it answers, and `CheckTimeout` is meant to remove those whose time is over.
-/

namespace Wnet

open Foundation

variable {Body : Type*}

namespace Session

variable {config : Config Body} {session next final : Session Body} {call : Nat}

/-- A call goes on by one piece. -/
def Proceeds (config : Config Body) (call : Nat) (session next : Session Body) : Prop :=
  session.proceed config call = some next

/-- A call goes on while nothing else happens. -/
abbrev Reaches (config : Config Body) (call : Nat) : Session Body → Session Body → Prop :=
  Relation.ReflTransGen (Proceeds config call)

/-- A whole call, cut into its first piece and a number of further pieces. -/
def perform (config : Config Body) (session : Session Body) (call : Nat)
    (operation : Operation Body) (pieces : Nat) : Option (Session Body) :=
  (run (step config) session
    (.start call operation :: List.replicate pieces (.proceed call))).filter
      fun final => (final.calls call).finished

theorem reaches_iff_run :
    Reaches config call session final ↔
      ∃ pieces, run (step config) session (List.replicate pieces (.proceed call)) =
        some final := by
  constructor
  · intro hreaches
    induction hreaches with
    | refl => exact ⟨0, rfl⟩
    | tail _ hproceed ih =>
        obtain ⟨pieces, hrun⟩ := ih
        refine ⟨pieces + 1, ?_⟩
        rw [List.replicate_succ']
        exact run_concat hrun hproceed
  · rintro ⟨pieces, hrun⟩
    induction pieces generalizing session with
    | zero =>
        obtain rfl : session = final := by simpa using hrun
        exact .refl
    | succ pieces ih =>
        rw [List.replicate_succ, run_cons] at hrun
        obtain ⟨next, hnext, hrest⟩ := Option.bind_eq_some_iff.mp hrun
        exact .head hnext (ih hrest)

theorem exists_perform_iff {operation : Operation Body} :
    (∃ pieces, session.perform config call operation pieces = some final) ↔
      ∃ started, session.step config (.start call operation) = some started ∧
        Reaches config call started final ∧ (final.calls call).finished := by
  simp only [perform, Option.filter_eq_some_iff, run_cons, Option.bind_eq_some_iff]
  constructor
  · rintro ⟨pieces, ⟨started, hstarted, hrun⟩, hfinished⟩
    exact ⟨started, hstarted, reaches_iff_run.mpr ⟨pieces, hrun⟩, hfinished⟩
  · rintro ⟨started, hstarted, hreaches, hfinished⟩
    obtain ⟨pieces, hrun⟩ := reaches_iff_run.mp hreaches
    exact ⟨pieces, ⟨started, hstarted, hrun⟩, hfinished⟩

/-- A call that has returned stays as it is. -/
theorem eq_of_reaches (hfinished : (session.calls call).finished)
    (hreaches : Reaches config call session final) : final = session := by
  rcases hreaches.cases_head with rfl | ⟨next, hnext, -⟩
  · rfl
  · rw [not_finished_of_proceed hnext] at hfinished
    cases hfinished

/-- A call returns in one state only. -/
theorem reaches_unique {other : Session Body} (hfinal : Reaches config call session final)
    (hother : Reaches config call session other) (hfinished : (final.calls call).finished)
    (hreturned : (other.calls call).finished) : other = final := by
  have hunique : Relator.RightUnique (Proceeds config call) :=
    fun _ _ _ hfirst hsecond => Option.some.inj (hfirst.symm.trans hsecond)
  rcases Relation.ReflTransGen.total_of_right_unique hunique hfinal hother with hreaches | hreaches
  · exact eq_of_reaches hfinished hreaches
  · exact (eq_of_reaches hreturned hreaches).symm

/-! ## Allocations and the clock -/

@[simp] theorem encode_clock (packet : Posted Body) :
    (session.encode config packet).clock = session.clock := by
  unfold encode
  split <;> rfl

@[simp] theorem send_clock (packet : Posted Body) :
    (session.send packet).clock = session.clock := by
  unfold send
  dsimp only
  split <;> rfl

@[simp] theorem recount_clock : (session.recount config).clock = session.clock := by
  unfold recount
  split <;> rfl

theorem proceed_clock (hnext : session.proceed config call = some next) :
    next.clock = session.clock := by
  cases proceed_cases hnext with
  | postPacket hcall hnext =>
      cases postPacket_cases hnext with
      | encode => exact encode_clock _
      | send => exact send_clock _
      | _ => rfl
  | onConnection hcall hnext =>
      cases onConnection_cases hnext with
      | encode => exact encode_clock _
      | unlock => exact recount_clock
      | send => exact send_clock _
      | _ => rfl
  | handlePacket hcall hnext =>
      cases handlePacket_cases hnext with
      | _ => rfl
  | checkTimeout hcall hnext =>
      cases checkTimeout_cases hnext with
      | recount => exact recount_clock
      | _ => rfl

theorem start_clock {operation : Operation Body}
    (hnext : session.start config call operation = some next) : next.clock = session.clock := by
  cases start_cases hnext with
  | _ => rfl

theorem perform_keeps {operation : Operation Body} {pieces : Nat}
    (hperform : session.perform config call operation pieces = some final) :
    session.allocations ≤ final.allocations ∧ final.clock = session.clock := by
  obtain ⟨started, hstarted, hreaches, -⟩ := exists_perform_iff.mp ⟨pieces, hperform⟩
  have hbegin : session.allocations ≤ started.allocations ∧ started.clock = session.clock := by
    refine ⟨step_allocations hstarted, ?_⟩
    simp only [step] at hstarted
    split at hstarted
    next => exact start_clock hstarted
    next => cases hstarted
  clear hstarted hperform
  induction hreaches with
  | refl => exact hbegin
  | @tail middle last _ hproceed ih =>
      have hstep : middle.step config (.proceed call) = some last := hproceed
      refine ⟨ih.1.trans (step_allocations hstep), ?_⟩
      rw [proceed_clock hproceed, ih.2]

end Session

/-- A request that was accepted and neither answered nor given up. `expireTime` is
the expire time of its packet. -/
structure Pending where
  chid : UInt32
  packetHandler : Option Nat
  args : Option Nat
  expireTime : Int
  deriving DecidableEq

/-- The call of a handler that reports a timeout, if there is a handler. -/
def Pending.report (config : Config Body) (request : Pending) : Option (HandlerCall Body) :=
  (request.packetHandler.or config.defaultPacketHandler).map fun handler =>
    ⟨some request.chid, handler, .timeout, request.args⟩

/-- A session between two calls, with its pending requests in the order of their posts. -/
structure Serial (Body : Type*) where
  session : Session Body
  pending : List Pending

/-- What happens next: a whole call, or something around the session. -/
inductive SerialLabel (Body : Type*)
  | perform (call : Nat) (operation : Operation Body) (pieces : Nat)
  | connectionLost
  | loopStop
  | setClock (time : Int)
  | allocElsewhere (pool : ChannelPool)

namespace Serial

def new (mem : Ref → Channel) : Serial Body := ⟨.new mem, []⟩

variable (config : Config Body) (state : Serial Body)

/-- Posts do not block, and responses answer requests that were transmitted. -/
def permits : Operation Body → Bool
  | .postPacket request => request.noblocking
  | .handlePacket header _ => header.chid &&& 0xFFFFFFF ∈ state.session.transmitted
  | .onConnection | .checkTimeout _ => true

/-- The pending requests after a call that ended in `final`. -/
def pendingAfter (call : Nat) (final : Session Body) : Operation Body → List Pending
  | .postPacket request =>
      match final.calls call, final.allocated call with
      | .postPacket _ (.returned true), some (_, chid) =>
          state.pending ++ [⟨chid, request.packetHandler, request.args,
            Session.expireTime state.session.clock config.queueTimeout⟩]
      | _, _ => state.pending
  | .handlePacket header _ =>
      state.pending.filter fun request => request.chid ≠ header.chid &&& 0xFFFFFFF
  | .checkTimeout now => state.pending.filter fun request => now ≤ request.expireTime
  | .onConnection => state.pending

def step : SerialLabel Body → Option (Serial Body)
  | .perform call operation pieces =>
      if state.permits operation then
        (state.session.perform config call operation pieces).map fun final =>
          ⟨final, state.pendingAfter config call final operation⟩
      else none
  | .connectionLost =>
      (state.session.step config .connectionLost).map fun session => ⟨session, state.pending⟩
  | .loopStop =>
      (state.session.step config .loopStop).map fun session => ⟨session, state.pending⟩
  | .setClock time =>
      if state.session.clock ≤ time then
        (state.session.step config (.setClock time)).map fun session => ⟨session, state.pending⟩
      else none
  | .allocElsewhere pool =>
      (state.session.step config (.allocElsewhere pool)).map fun session =>
        ⟨session, state.pending⟩

end Serial

end Wnet
