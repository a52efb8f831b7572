import Mathlib.Algebra.Group.Int.Defs
import Mathlib.Data.Finset.Card
import Mathlib.Logic.Function.Basic
import Wnet.Foundation.Run

/-!
# The task queue of an event loop

Any thread queues functors with `QueueInLoop`; the loop thread calls them. A thread
that finds `notified_` unset sets it and writes a byte to the pipe, whose reading end
wakes the loop thread. `Stop` queues `StopInLoop`, which runs `DoPendingFunctors` from
inside of `DoPendingFunctors` until the queue is empty. The accesses to `notified_`, to
the queue, to `watcher_` and to the status are the points at which threads interleave.
The queue is the `std::vector` under `mutex_`.
-/

namespace Wnet.Evpp

open Foundation

variable {Task : Type*}

/-- What is queued: a function of the application, or `StopInLoop`. -/
inductive LoopFunctor (Task : Type*)
  | task (task : Task)
  | stopInLoop
  deriving DecidableEq

inductive LoopStatus
  | initialized
  | starting
  | running
  | stopping
  | stopped
  deriving DecidableEq

/-- Where a call of `QueueInLoop` or `Stop` stands. -/
inductive QueueStage
  | idle
  /-- `Stop` has found the loop running. -/
  | asserted
  /-- `Stop` has set the status. -/
  | stopping
  | pushed
  | counted
  /-- `notified_` was found unset. -/
  | unnotified
  /-- `notified_` was set. -/
  | stored
  /-- `watcher_` was found set, and `Notify` is to be called on it. -/
  | found
  /-- `watcher_` was found unset, and the status is to be checked. -/
  | missed
  | returned
  deriving DecidableEq

/-- The functor is in the queue and its call has not returned. -/
def QueueStage.pushing : QueueStage → Bool
  | .pushed | .counted | .unnotified | .stored | .found | .missed => true
  | _ => false

/-- `notified_` was set and the byte has not been written to the pipe. -/
def QueueStage.notifying : QueueStage → Bool
  | .stored | .found => true
  | _ => false

/-- A function on the stack of the loop thread, with the local variables that the rest of
it reads. -/
inductive LoopFrame (Task : Type*)
  /-- `DoPendingFunctors` before it takes the queue. -/
  | entering
  /-- `DoPendingFunctors` with the functors that it has still to call. -/
  | calling (functors : List (LoopFunctor Task))
  /-- The same during a call. -/
  | within (functors : List (LoopFunctor Task))
  /-- `StopInLoop`, before or after `event_base_loopexit`; it is about to call
  `DoPendingFunctors`, or to look at the queue. -/
  | draining (exiting called : Bool)
  deriving DecidableEq

/-- The functors that a frame is still to call. -/
def LoopFrame.rest : LoopFrame Task → List (LoopFunctor Task)
  | .calling functors | .within functors => functors
  | .entering | .draining _ _ => []

/-- How many calls the frame has still to subtract from `pending_functor_count_`. -/
def LoopFrame.load : LoopFrame Task → Nat
  | .calling functors => functors.length
  | .within functors => functors.length + 1
  | .entering | .draining _ _ => 0

/-- The members of an event loop and the calls on it. The last three fields are records. -/
structure EventLoop (Task : Type*) where
  status : LoopStatus
  /-- Whether `watcher_` is set. -/
  watcher : Bool
  /-- Whether the loop waits for the pipe. -/
  watching : Bool
  /-- Whether `Run` has released the watcher and is about to store the last status. -/
  leaving : Bool
  /-- The number of bytes in the pipe. -/
  pipe : Nat
  notified : Bool
  pendingFunctors : List (LoopFunctor Task)
  pendingFunctorCount : Int
  /-- Whether `event_base_loopexit` was called. -/
  exiting : Bool
  stack : List (LoopFrame Task)
  calls : Nat → QueueStage
  queued : List (LoopFunctor Task)
  called : List (LoopFunctor Task)
  /-- How many functors were queued when `StopInLoop` last found the queue empty. -/
  emptied : Option Nat

/-- What happens next. -/
inductive LoopLabel (Task : Type*)
  | run
  | dispatch
  | queueInLoop (call : Nat) (task : Task)
  | stop (call : Nat)
  | proceed (call : Nat)
  | wake
  | loop
  | exit
  | stopped

/-- The call that a label begins. -/
def LoopLabel.begins : LoopLabel Task → Option Nat
  | .queueInLoop call _ | .stop call => some call
  | _ => none

namespace EventLoop

/-- A loop that was constructed. -/
def new : EventLoop Task where
  status := .initialized
  watcher := true
  watching := false
  leaving := false
  pipe := 0
  notified := false
  pendingFunctors := []
  pendingFunctorCount := 0
  exiting := false
  stack := []
  calls := fun _ => .idle
  queued := []
  called := []
  emptied := none

variable (state : EventLoop Task)

def become (call : Nat) (stage : QueueStage) : EventLoop Task :=
  { state with calls := Function.update state.calls call stage }

def push (functor : LoopFunctor Task) : EventLoop Task :=
  { state with
    pendingFunctors := state.pendingFunctors ++ [functor]
    queued := state.queued ++ [functor] }

/-- The pieces of `QueueInLoop` and `Stop`; the pipe holds `capacity` bytes. -/
def proceed (capacity call : Nat) : QueueStage → Option (EventLoop Task)
  | .asserted => some ({ state with status := .stopping }.become call .stopping)
  | .stopping => some ((state.push .stopInLoop).become call .pushed)
  | .pushed =>
      some ({ state with
        pendingFunctorCount := state.pendingFunctorCount + 1 }.become call .counted)
  | .counted => some (state.become call (if state.notified then .returned else .unnotified))
  | .unnotified => some ({ state with notified := true }.become call .stored)
  | .stored => some (state.become call (if state.watcher then .found else .missed))
  | .found =>
      -- The watcher may have been released since it was found.
      if state.watcher then
        -- The writing end does not block: on a full pipe nothing is written.
        some ({ state with pipe := min (state.pipe + 1) capacity }.become call .returned)
      else none
  | .missed =>
      if state.status = .running then none else some (state.become call .returned)
  | .idle | .returned => none

/-- The pieces of `DoPendingFunctors` and `StopInLoop`. -/
def loop : List (LoopFrame Task) → Option (EventLoop Task)
  | [] => none
  | .entering :: below =>
      some { state with
        notified := false
        pendingFunctors := []
        stack := .calling state.pendingFunctors :: below }
  | .calling [] :: below => some { state with stack := below }
  | .calling (.task task :: functors) :: below =>
      some { state with
        called := state.called ++ [.task task]
        stack := .within functors :: below }
  | .calling (.stopInLoop :: functors) :: below =>
      if state.status = .stopping then
        some { state with
          called := state.called ++ [.stopInLoop]
          stack := .draining false false :: .within functors :: below }
      else none
  | .within functors :: below =>
      some { state with
        pendingFunctorCount := state.pendingFunctorCount - 1
        stack := .calling functors :: below }
  | .draining exiting false :: below =>
      some { state with stack := .entering :: .draining exiting true :: below }
  | .draining exiting true :: below =>
      -- `IsPendingQueueEmpty` does not take the mutex.
      if state.pendingFunctors = [] then
        if exiting then
          some { state with emptied := some state.queued.length, stack := below }
        else some { state with exiting := true, stack := .draining true false :: below }
      else some { state with stack := .draining exiting false :: below }

def step (capacity : Nat) (state : EventLoop Task) : LoopLabel Task → Option (EventLoop Task)
  | .run => if state.status = .initialized then some { state with status := .starting } else none
  | .dispatch =>
      if state.status = .starting then some { state with status := .running, watching := true }
      else none
  | .queueInLoop call task =>
      if state.calls call = .idle then some ((state.push (.task task)).become call .pushed)
      else none
  | .stop call =>
      if state.calls call = .idle ∧ state.status = .running then some (state.become call .asserted)
      else none
  | .proceed call => state.proceed capacity call (state.calls call)
  | .wake =>
      -- `HandlerFn` takes up to 128 bytes.
      if state.watching ∧ state.stack = [] ∧ 0 < state.pipe then
        some { state with pipe := state.pipe - 128, stack := [.entering] }
      else none
  | .loop => state.loop state.stack
  | .exit =>
      if state.exiting ∧ state.watching ∧ state.stack = [] then
        some { state with watcher := false, watching := false, leaving := true }
      else none
  | .stopped =>
      if state.leaving then some { state with status := .stopped, leaving := false } else none

/-! ## What one step can do -/

/-- The steps of an event loop. -/
inductive Piece (capacity : Nat) (state : EventLoop Task) : LoopLabel Task → EventLoop Task → Prop
  | run (hstatus : state.status = .initialized) :
      Piece capacity state .run { state with status := .starting }
  | dispatch (hstatus : state.status = .starting) :
      Piece capacity state .dispatch { state with status := .running, watching := true }
  | queueInLoop {call : Nat} {task : Task} (hcall : state.calls call = .idle) :
      Piece capacity state (.queueInLoop call task)
        ((state.push (.task task)).become call .pushed)
  | stop {call : Nat} (hcall : state.calls call = .idle) (hstatus : state.status = .running) :
      Piece capacity state (.stop call) (state.become call .asserted)
  | setStatus {call : Nat} (hcall : state.calls call = .asserted) :
      Piece capacity state (.proceed call)
        ({ state with status := .stopping }.become call .stopping)
  | queueStop {call : Nat} (hcall : state.calls call = .stopping) :
      Piece capacity state (.proceed call) ((state.push .stopInLoop).become call .pushed)
  | count {call : Nat} (hcall : state.calls call = .pushed) :
      Piece capacity state (.proceed call)
        ({ state with
          pendingFunctorCount := state.pendingFunctorCount + 1 }.become call .counted)
  | leave {call : Nat} (hcall : state.calls call = .counted) (hnotified : state.notified = true) :
      Piece capacity state (.proceed call) (state.become call .returned)
  | notice {call : Nat} (hcall : state.calls call = .counted)
      (hnotified : state.notified = false) :
      Piece capacity state (.proceed call) (state.become call .unnotified)
  | store {call : Nat} (hcall : state.calls call = .unnotified) :
      Piece capacity state (.proceed call) ({ state with notified := true }.become call .stored)
  | find {call : Nat} (hcall : state.calls call = .stored) (hwatcher : state.watcher = true) :
      Piece capacity state (.proceed call) (state.become call .found)
  | miss {call : Nat} (hcall : state.calls call = .stored) (hwatcher : state.watcher = false) :
      Piece capacity state (.proceed call) (state.become call .missed)
  | notify {call : Nat} (hcall : state.calls call = .found) (hwatcher : state.watcher = true) :
      Piece capacity state (.proceed call)
        ({ state with pipe := min (state.pipe + 1) capacity }.become call .returned)
  | late {call : Nat} (hcall : state.calls call = .missed) (hstatus : state.status ≠ .running) :
      Piece capacity state (.proceed call) (state.become call .returned)
  | wake (hwatching : state.watching = true) (hstack : state.stack = [])
      (hpipe : 0 < state.pipe) :
      Piece capacity state .wake { state with pipe := state.pipe - 128, stack := [.entering] }
  | enter {below : List (LoopFrame Task)} (hstack : state.stack = .entering :: below) :
      Piece capacity state .loop
        { state with
          notified := false
          pendingFunctors := []
          stack := .calling state.pendingFunctors :: below }
  | finish {below : List (LoopFrame Task)} (hstack : state.stack = .calling [] :: below) :
      Piece capacity state .loop { state with stack := below }
  | call {task : Task} {functors : List (LoopFunctor Task)} {below : List (LoopFrame Task)}
      (hstack : state.stack = .calling (.task task :: functors) :: below) :
      Piece capacity state .loop
        { state with
          called := state.called ++ [.task task]
          stack := .within functors :: below }
  | callStop {functors : List (LoopFunctor Task)} {below : List (LoopFrame Task)}
      (hstack : state.stack = .calling (.stopInLoop :: functors) :: below)
      (hstatus : state.status = .stopping) :
      Piece capacity state .loop
        { state with
          called := state.called ++ [.stopInLoop]
          stack := .draining false false :: .within functors :: below }
  | back {functors : List (LoopFunctor Task)} {below : List (LoopFrame Task)}
      (hstack : state.stack = .within functors :: below) :
      Piece capacity state .loop
        { state with
          pendingFunctorCount := state.pendingFunctorCount - 1
          stack := .calling functors :: below }
  | drain {exiting : Bool} {below : List (LoopFrame Task)}
      (hstack : state.stack = .draining exiting false :: below) :
      Piece capacity state .loop
        { state with stack := .entering :: .draining exiting true :: below }
  | again {exiting : Bool} {below : List (LoopFrame Task)}
      (hstack : state.stack = .draining exiting true :: below)
      (hpending : state.pendingFunctors ≠ []) :
      Piece capacity state .loop { state with stack := .draining exiting false :: below }
  | loopExit {below : List (LoopFrame Task)} (hstack : state.stack = .draining false true :: below)
      (hpending : state.pendingFunctors = []) :
      Piece capacity state .loop
        { state with exiting := true, stack := .draining true false :: below }
  | drained {below : List (LoopFrame Task)} (hstack : state.stack = .draining true true :: below)
      (hpending : state.pendingFunctors = []) :
      Piece capacity state .loop
        { state with emptied := some state.queued.length, stack := below }
  | exit (hexiting : state.exiting = true) (hwatching : state.watching = true)
      (hstack : state.stack = []) :
      Piece capacity state .exit
        { state with watcher := false, watching := false, leaving := true }
  | stopped (hleaving : state.leaving = true) :
      Piece capacity state .stopped { state with status := .stopped, leaving := false }

variable {state next : EventLoop Task} {capacity : Nat}

theorem proceed_cases {call : Nat} {stage : QueueStage} (hcall : state.calls call = stage)
    (hnext : state.proceed capacity call stage = some next) :
    Piece capacity state (.proceed call) next := by
  cases stage with
  | idle | returned => cases hnext
  | asserted => exact Option.some.inj hnext ▸ .setStatus hcall
  | stopping => exact Option.some.inj hnext ▸ .queueStop hcall
  | pushed => exact Option.some.inj hnext ▸ .count hcall
  | counted =>
      rw [proceed] at hnext
      cases hnotified : state.notified with
      | true =>
          rw [hnotified] at hnext
          exact Option.some.inj hnext ▸ .leave hcall hnotified
      | false =>
          rw [hnotified] at hnext
          exact Option.some.inj hnext ▸ .notice hcall hnotified
  | unnotified => exact Option.some.inj hnext ▸ .store hcall
  | stored =>
      rw [proceed] at hnext
      cases hwatcher : state.watcher with
      | true =>
          rw [hwatcher] at hnext
          exact Option.some.inj hnext ▸ .find hcall hwatcher
      | false =>
          rw [hwatcher] at hnext
          exact Option.some.inj hnext ▸ .miss hcall hwatcher
  | found =>
      obtain ⟨hwatcher, ⟨⟩⟩ := Option.ite_none_right_eq_some.mp hnext
      exact .notify hcall hwatcher
  | missed =>
      obtain ⟨hstatus, ⟨⟩⟩ := Option.ite_none_left_eq_some.mp hnext
      exact .late hcall hstatus

theorem loop_cases {stack : List (LoopFrame Task)} (hstack : state.stack = stack)
    (hnext : state.loop stack = some next) : Piece capacity state .loop next := by
  unfold loop at hnext
  split at hnext
  next => cases hnext
  next => exact Option.some.inj hnext ▸ .enter hstack
  next => exact Option.some.inj hnext ▸ .finish hstack
  next => exact Option.some.inj hnext ▸ .call hstack
  next =>
    split at hnext
    next hstatus => exact Option.some.inj hnext ▸ .callStop hstack hstatus
    next => cases hnext
  next => exact Option.some.inj hnext ▸ .back hstack
  next => exact Option.some.inj hnext ▸ .drain hstack
  next =>
    split at hnext
    next hpending =>
      split at hnext
      next hexiting =>
        subst hexiting
        exact Option.some.inj hnext ▸ .drained hstack hpending
      next hexiting =>
        obtain rfl := Bool.not_eq_true _ ▸ hexiting
        exact Option.some.inj hnext ▸ .loopExit hstack hpending
    next hpending => exact Option.some.inj hnext ▸ .again hstack hpending

theorem step_cases {label : LoopLabel Task} (hstep : state.step capacity label = some next) :
    Piece capacity state label next := by
  cases label with
  | proceed call => exact proceed_cases rfl hstep
  | loop => exact loop_cases rfl hstep
  | run =>
      obtain ⟨hstatus, ⟨⟩⟩ := Option.ite_none_right_eq_some.mp hstep
      exact .run hstatus
  | dispatch =>
      obtain ⟨hstatus, ⟨⟩⟩ := Option.ite_none_right_eq_some.mp hstep
      exact .dispatch hstatus
  | queueInLoop call task =>
      obtain ⟨hcall, ⟨⟩⟩ := Option.ite_none_right_eq_some.mp hstep
      exact .queueInLoop hcall
  | stop call =>
      obtain ⟨⟨hcall, hstatus⟩, ⟨⟩⟩ := Option.ite_none_right_eq_some.mp hstep
      exact .stop hcall hstatus
  | wake =>
      obtain ⟨⟨hwatching, hstack, hpipe⟩, ⟨⟩⟩ := Option.ite_none_right_eq_some.mp hstep
      exact .wake hwatching hstack hpipe
  | exit =>
      obtain ⟨⟨hexiting, hwatching, hstack⟩, ⟨⟩⟩ := Option.ite_none_right_eq_some.mp hstep
      exact .exit hexiting hwatching hstack
  | stopped =>
      obtain ⟨hleaving, ⟨⟩⟩ := Option.ite_none_right_eq_some.mp hstep
      exact .stopped hleaving

end EventLoop

end Wnet.Evpp
