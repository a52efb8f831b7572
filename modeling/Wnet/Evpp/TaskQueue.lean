import Mathlib.Algebra.GroupWithZero.Nat
import Wnet.Evpp.EventLoop

/-!
# Every queued functor is called once

Whatever the threads do, a loop with functors in its queue is going to be woken: a
thread has still to write to the pipe, or there is something in it, or the loop thread
is about to take the queue. The functors are called in the order in which they were
queued until `StopInLoop` calls `DoPendingFunctors` out of turn. What is in the queue
when `StopInLoop` last looks at it is called before the loop ends.
-/

namespace Wnet.Evpp

open Foundation

variable {Task : Type*} {state next : EventLoop Task} {capacity : Nat} {label : LoopLabel Task}

namespace EventLoop

/-- The functors that the loop thread has taken and not called. -/
def rest (state : EventLoop Task) : List (LoopFunctor Task) := state.stack.flatMap LoopFrame.rest

/-! ## Which functors are called -/

/-- `taken` are the functors that the loop thread has taken from the queue. -/
structure Ordered (state : EventLoop Task) (taken : List (LoopFunctor Task)) : Prop where
  queued : state.queued = taken ++ state.pendingFunctors
  once : (state.called ++ state.rest).Perm taken
  inOrder : .stopInLoop ∉ state.called → state.called ++ state.rest = taken ∧
    state.stack.tail = [] ∧ ∀ exiting called, .draining exiting called ∉ state.stack
  emptied : ∀ count ∈ state.emptied, count ≤ taken.length

theorem ordered_new : (new : EventLoop Task).Ordered [] :=
  ⟨rfl, List.Perm.refl _, fun _ => ⟨rfl, rfl, by simp [new]⟩, by simp [new]⟩

theorem Ordered.push {taken : List (LoopFunctor Task)} (hordered : state.Ordered taken)
    (functor : LoopFunctor Task) (call : Nat) (stage : QueueStage) :
    ((state.push functor).become call stage).Ordered taken where
  queued := by
    change state.queued ++ [functor] = taken ++ (state.pendingFunctors ++ [functor])
    rw [hordered.queued, List.append_assoc]
  once := hordered.once
  inOrder := hordered.inOrder
  emptied := hordered.emptied

/-- Once `StopInLoop` was called the order does not matter any more. -/
theorem Ordered.stopping {taken : List (LoopFunctor Task)} (hordered : state.Ordered taken)
    {exiting called : Bool} {below : List (LoopFrame Task)}
    (hstack : state.stack = .draining exiting called :: below) : .stopInLoop ∈ state.called := by
  by_contra hstop
  refine (hordered.inOrder hstop).2.2 exiting called ?_
  rw [hstack]
  exact List.mem_cons_self

theorem Ordered.queued_of_called {taken : List (LoopFunctor Task)}
    (hordered : state.Ordered taken) {functor : LoopFunctor Task}
    (hcalled : functor ∈ state.called) : functor ∈ state.queued := by
  rw [hordered.queued]
  exact List.mem_append_left _ (hordered.once.subset (List.mem_append_left _ hcalled))

theorem step_ordered {taken : List (LoopFunctor Task)} (hordered : state.Ordered taken)
    (hstep : state.step capacity label = some next) : ∃ taken', next.Ordered taken' := by
  cases step_cases hstep with
  | run | dispatch | stop | setStatus | count | leave | notice | store | find | miss | notify
  | late | exit | stopped =>
      exact ⟨taken, hordered.queued, hordered.once, hordered.inOrder, hordered.emptied⟩
  | queueInLoop => exact ⟨taken, hordered.push _ _ _⟩
  | queueStop => exact ⟨taken, hordered.push _ _ _⟩
  | wake hwatching hstack hpipe =>
      have hrest : state.rest = [] := by rw [rest, hstack]; rfl
      refine ⟨taken, hordered.queued, ?_, fun hstop => ⟨?_, rfl, by simp⟩, hordered.emptied⟩
      · have honce := hordered.once
        rwa [hrest] at honce
      · have htaken := (hordered.inOrder hstop).1
        rwa [hrest] at htaken
  | @enter below hstack =>
      have hrest : state.rest = below.flatMap LoopFrame.rest := by rw [rest, hstack]; rfl
      refine ⟨taken ++ state.pendingFunctors, ?_, ?_, fun hstop => ?_, fun count hcount => ?_⟩
      · exact hordered.queued.trans (List.append_nil _).symm
      · have honce := hordered.once.append_right state.pendingFunctors
        rw [hrest, List.append_assoc] at honce
        exact (List.Perm.append_left _ List.perm_append_comm).trans honce
      · obtain ⟨htaken, htail, -⟩ := hordered.inOrder hstop
        obtain rfl : below = [] := by rwa [hstack] at htail
        rw [hrest] at htaken
        refine ⟨?_, rfl, by simp⟩
        rw [← htaken]
        simp [rest, LoopFrame.rest]
      · rw [List.length_append]
        exact le_trans (hordered.emptied count hcount) (Nat.le_add_right _ _)
  | @finish below hstack =>
      have hrest : state.rest = below.flatMap LoopFrame.rest := by rw [rest, hstack]; rfl
      refine ⟨taken, hordered.queued, ?_, fun hstop => ?_, hordered.emptied⟩
      · have honce := hordered.once
        rwa [hrest] at honce
      · obtain ⟨htaken, htail, -⟩ := hordered.inOrder hstop
        obtain rfl : below = [] := by rwa [hstack] at htail
        rw [hrest] at htaken
        exact ⟨htaken, rfl, by simp⟩
  | @call task functors below hstack =>
      have hmoved : state.called ++ state.rest =
          state.called ++ [.task task] ++ (functors ++ below.flatMap LoopFrame.rest) := by
        rw [rest, hstack, List.append_assoc]
        rfl
      refine ⟨taken, hordered.queued, ?_, fun hstop => ?_, hordered.emptied⟩
      · have honce := hordered.once
        rwa [hmoved] at honce
      · have hbefore : .stopInLoop ∉ state.called := fun hmem => hstop (List.mem_append_left _ hmem)
        obtain ⟨htaken, htail, -⟩ := hordered.inOrder hbefore
        obtain rfl : below = [] := by rwa [hstack] at htail
        rw [hmoved] at htaken
        exact ⟨htaken, rfl, by simp⟩
  | @callStop functors below hstack hstatus =>
      have hmoved : state.called ++ state.rest =
          state.called ++ [.stopInLoop] ++ (functors ++ below.flatMap LoopFrame.rest) := by
        rw [rest, hstack, List.append_assoc]
        rfl
      refine ⟨taken, hordered.queued, ?_, fun hstop => ?_, hordered.emptied⟩
      · have honce := hordered.once
        rwa [hmoved] at honce
      · exact absurd (List.mem_append_right _ (List.mem_singleton.mpr rfl)) hstop
  | @back functors below hstack =>
      have hrest : state.rest = functors ++ below.flatMap LoopFrame.rest := by
        rw [rest, hstack]
        rfl
      refine ⟨taken, hordered.queued, ?_, fun hstop => ?_, hordered.emptied⟩
      · have honce := hordered.once
        rwa [hrest] at honce
      · obtain ⟨htaken, htail, -⟩ := hordered.inOrder hstop
        obtain rfl : below = [] := by rwa [hstack] at htail
        rw [hrest] at htaken
        exact ⟨htaken, rfl, by simp⟩
  | drain hstack | again hstack | loopExit hstack =>
      have honce := hordered.once
      rw [rest, hstack] at honce
      exact ⟨taken, hordered.queued, honce,
        fun hstop => absurd (hordered.stopping hstack) hstop, hordered.emptied⟩
  | drained hstack hpending =>
      have honce := hordered.once
      rw [rest, hstack] at honce
      refine ⟨taken, hordered.queued, honce,
        fun hstop => absurd (hordered.stopping hstack) hstop, ?_⟩
      rintro count ⟨⟩
      rw [hordered.queued, hpending, List.append_nil]

/-! ## Stopping -/

theorem become_self (call : Nat) (stage : QueueStage) :
    (state.become call stage).calls call = stage := Function.update_self _ _ _

/-- What the status of a loop says about it. -/
structure Orderly (state : EventLoop Task) : Prop where
  watched : state.watching = true → state.watcher = true ∧ state.status ≠ .stopped
  busy : state.stack ≠ [] → state.watching = true
  stopping : (.stopInLoop ∈ state.queued ∨ ∃ call, state.calls call = .stopping) →
    state.status = .stopping ∨ state.status = .stopped
  gone : state.watcher = false → state.status = .stopping ∨ state.status = .stopped
  exiting : state.exiting = true → state.emptied.isSome = true ∨
    ∃ called, .draining true called ∈ state.stack
  emptied : state.watcher = false → state.emptied.isSome = true
  missed : ∀ call, state.calls call = .missed → state.watcher = false
  leaving : state.leaving = true → state.watcher = false ∧ state.watching = false
  stopped : state.exiting = true → .stopInLoop ∈ state.queued

theorem orderly_new : (new : EventLoop Task).Orderly where
  watched hwatching := by cases hwatching
  busy hstack := absurd rfl hstack
  stopping hstop := by rcases hstop with hqueued | ⟨call, hcall⟩ <;> simp [new] at *
  gone hwatcher := by cases hwatcher
  exiting hexiting := by cases hexiting
  emptied hwatcher := by cases hwatcher
  missed call hcall := by cases hcall
  leaving hleaving := by cases hleaving
  stopped hexiting := by cases hexiting

theorem step_orderly {taken : List (LoopFunctor Task)} (hordered : state.Ordered taken)
    (horderly : state.Orderly)
    (hstep : state.step capacity label = some next) : next.Orderly := by
  -- No call has to do with stopping when a call moves that had not.
  have hstopping : ∀ {call : Nat} {stage : QueueStage} {queued : List (LoopFunctor Task)},
      (.stopInLoop ∈ queued → .stopInLoop ∈ state.queued) → stage ≠ .stopping →
      (.stopInLoop ∈ queued ∨ ∃ other, (state.become call stage).calls other = .stopping) →
      state.status = .stopping ∨ state.status = .stopped := by
    intro call stage queued hqueued hstage hstop
    apply horderly.stopping
    refine hstop.imp hqueued ?_
    rintro ⟨other, hother⟩
    by_cases hsame : other = call
    · rw [hsame, become_self] at hother
      exact absurd hother hstage
    · change Function.update state.calls call stage other = .stopping at hother
      exact ⟨other, by rwa [Function.update_of_ne hsame] at hother⟩
  -- No other call comes to find no watcher.
  have hmissed : ∀ {call : Nat} {stage : QueueStage}, stage ≠ .missed →
      ∀ other, (state.become call stage).calls other = .missed → state.watcher = false := by
    intro call stage hstage other hother
    by_cases hsame : other = call
    · rw [hsame, become_self] at hother
      exact absurd hother hstage
    · change Function.update state.calls call stage other = .missed at hother
      rw [Function.update_of_ne hsame] at hother
      exact horderly.missed other hother
  cases step_cases hstep with
  | run hstatus =>
      have hnever : ∀ hstop, False := fun hstop => by
        rcases horderly.stopping hstop with h | h <;> simp [hstatus] at h
      refine { horderly with
        watched := fun h => ⟨(horderly.watched h).1, by simp⟩
        stopping := fun hstop => (hnever hstop).elim
        gone := fun hgone => ?_ }
      rcases horderly.gone hgone with h | h <;> simp [hstatus] at h
  | dispatch hstatus =>
      have hnever : ∀ hstop, False := fun hstop => by
        rcases horderly.stopping hstop with h | h <;> simp [hstatus] at h
      have hwatcher : state.watcher = true := by
        by_contra hgone
        rcases horderly.gone (by simpa using hgone) with h | h <;> simp [hstatus] at h
      exact { horderly with
        watched := fun _ => ⟨hwatcher, by simp⟩
        busy := fun _ => rfl
        stopping := fun hstop => (hnever hstop).elim
        gone := fun hgone => absurd (hwatcher.symm.trans hgone) (by simp)
        leaving := fun h => absurd (hwatcher.symm.trans (horderly.leaving h).1) (by simp) }
  | queueInLoop hcall =>
      refine { horderly with
        stopping := hstopping ?_ (by simp)
        missed := hmissed (by simp)
        stopped := fun h => List.mem_append_left _ (horderly.stopped h) }
      simp [become, push]
  | stop hcall hstatus =>
      exact { horderly with stopping := hstopping id (by simp), missed := hmissed (by simp) }
  | setStatus hcall =>
      exact { horderly with
        watched := fun h => ⟨(horderly.watched h).1, by simp [become]⟩
        stopping := fun _ => Or.inl rfl
        gone := fun _ => Or.inl rfl
        missed := hmissed (by simp) }
  | @queueStop call hcall =>
      exact { horderly with
        stopping := fun _ => horderly.stopping (Or.inr ⟨call, hcall⟩)
        missed := hmissed (by simp)
        stopped := fun h => List.mem_append_left _ (horderly.stopped h) }
  | count | leave | notice | store | find | notify | late =>
      exact { horderly with stopping := hstopping id (by simp), missed := hmissed (by simp) }
  | miss hcall hwatcher =>
      exact { horderly with
        stopping := hstopping id (by simp)
        missed := fun _ _ => hwatcher }
  | wake hwatching hstack =>
      refine ⟨horderly.watched, fun _ => hwatching, horderly.stopping, horderly.gone,
        fun h => ?_, horderly.emptied, horderly.missed, horderly.leaving, horderly.stopped⟩
      have hexiting := horderly.exiting h
      rw [hstack] at hexiting
      exact hexiting.imp_right (by simp)
  | exit hexiting hwatching hstack =>
      have hemptied := horderly.exiting hexiting
      rw [hstack] at hemptied
      exact { horderly with
        watched := fun h => absurd h (by simp)
        busy := fun h => absurd hstack h
        gone := fun _ => horderly.stopping (Or.inl (horderly.stopped hexiting))
        emptied := fun _ => hemptied.resolve_right (by simp)
        missed := fun _ _ => rfl
        leaving := fun _ => ⟨rfl, rfl⟩ }
  | stopped hleaving =>
      obtain ⟨hwatcher, hwatching⟩ := horderly.leaving hleaving
      exact { horderly with
        watched := fun h => absurd (hwatching.symm.trans h) (by simp)
        stopping := fun _ => Or.inr rfl
        gone := fun _ => Or.inr rfl
        leaving := fun h => absurd h (by simp) }
  | enter hstack | call hstack | callStop hstack | back hstack =>
      refine { horderly with
        busy := fun _ => horderly.busy (by simp [hstack])
        exiting := fun h => (horderly.exiting h).imp_right ?_ }
      rw [hstack]
      rintro ⟨called, hmem⟩
      exact ⟨called, by simpa using hmem⟩
  | drain hstack =>
      refine { horderly with
        busy := fun _ => horderly.busy (by simp [hstack])
        exiting := fun h => (horderly.exiting h).imp_right ?_ }
      rw [hstack]
      rintro ⟨called, hmem⟩
      rcases List.mem_cons.mp hmem with hhead | hbelow
      · obtain ⟨rfl, -⟩ := LoopFrame.draining.inj hhead
        exact ⟨true, List.mem_cons_of_mem _ List.mem_cons_self⟩
      · exact ⟨called, by simp [hbelow]⟩
  | again hstack =>
      refine { horderly with
        busy := fun _ => horderly.busy (by simp [hstack])
        exiting := fun h => (horderly.exiting h).imp_right ?_ }
      rw [hstack]
      rintro ⟨called, hmem⟩
      rcases List.mem_cons.mp hmem with hhead | hbelow
      · obtain ⟨rfl, -⟩ := LoopFrame.draining.inj hhead
        exact ⟨false, List.mem_cons_self⟩
      · exact ⟨called, by simp [hbelow]⟩
  | finish hstack =>
      refine { horderly with
        busy := fun _ => horderly.busy (by simp [hstack])
        exiting := fun h => (horderly.exiting h).imp_right ?_ }
      rw [hstack]
      simp
  | loopExit hstack =>
      exact { horderly with
        busy := fun _ => horderly.busy (by simp [hstack])
        exiting := fun _ => Or.inr ⟨false, List.mem_cons_self⟩
        stopped := fun _ => hordered.queued_of_called (hordered.stopping hstack) }
  | drained hstack =>
      exact { horderly with
        busy := fun _ => horderly.busy (by simp [hstack])
        exiting := fun _ => Or.inl rfl
        emptied := fun _ => rfl }

/-! ## The loop is woken -/

/-- A byte in the pipe or a thread that has still to write one wakes the loop thread, unless
it is about to take the queue anyway. -/
structure Wakeful (state : EventLoop Task) : Prop where
  notified : state.watcher = true → state.notified = true →
    0 < state.pipe ∨ (∃ call, (state.calls call).notifying = true) ∨ .entering ∈ state.stack
  pending : state.watcher = true → state.pendingFunctors ≠ [] →
    0 < state.pipe ∨ (∃ call, (state.calls call).pushing = true) ∨ .entering ∈ state.stack

theorem wakeful_new : (new : EventLoop Task).Wakeful where
  notified _ hnotified := by cases hnotified
  pending _ hpending := absurd rfl hpending

/-- The calls that are in a certain stage after a call has moved. -/
theorem exists_become (good : QueueStage → Prop) {call : Nat} {stage : QueueStage}
    (hcall : good (state.calls call) → good stage) (hexists : ∃ call, good (state.calls call)) :
    ∃ other, good ((state.become call stage).calls other) := by
  obtain ⟨other, hother⟩ := hexists
  by_cases hsame : other = call
  · exact ⟨call, by rw [become_self]; exact hcall (hsame ▸ hother)⟩
  · refine ⟨other, ?_⟩
    change good (Function.update state.calls call stage other)
    rwa [Function.update_of_ne hsame]

/-- Whoever is about to write is so after a call has moved that still is if it was. -/
theorem Wakeful.notifying (hwakeful : state.Wakeful) {call : Nat} {stage : QueueStage}
    (hnotifying : (state.calls call).notifying = true → stage.notifying = true)
    (hwatcher : state.watcher = true) (hnotified : state.notified = true) :
    0 < state.pipe ∨ (∃ other, ((state.become call stage).calls other).notifying = true) ∨
      .entering ∈ state.stack := by
  refine (hwakeful.notified hwatcher hnotified).imp_right (Or.imp_left fun hexists => ?_)
  exact exists_become (fun stage => stage.notifying = true) hnotifying hexists

/-- A call moves that has still to write if it had. -/
theorem Wakeful.goesOn (hwakeful : state.Wakeful) {call : Nat} {stage : QueueStage}
    (hnotifying : (state.calls call).notifying = true → stage.notifying = true)
    (hpushing : (state.calls call).pushing = true → stage.pushing = true) :
    (state.become call stage).Wakeful where
  notified hwatcher hnotified := hwakeful.notifying hnotifying hwatcher hnotified
  pending hwatcher hpending := by
    refine (hwakeful.pending hwatcher hpending).imp_right (Or.imp_left fun hexists => ?_)
    exact exists_become (fun stage => stage.pushing = true) hpushing hexists

/-- Without a watcher nobody needs to be woken. -/
theorem Wakeful.of_gone (hwatcher : state.watcher = false) : state.Wakeful where
  notified h := absurd (hwatcher.symm.trans h) Bool.false_ne_true
  pending h := absurd (hwatcher.symm.trans h) Bool.false_ne_true

/-- The loop thread moves, and is still about to take the queue if it was. -/
theorem Wakeful.moves (hwakeful : state.Wakeful) (hwatcher : next.watcher = state.watcher)
    (hnotified : next.notified = state.notified) (hpipe : next.pipe = state.pipe)
    (hpending : next.pendingFunctors = state.pendingFunctors) (hcalls : next.calls = state.calls)
    (hstack : .entering ∈ state.stack → .entering ∈ next.stack) : next.Wakeful where
  notified := by
    rw [hwatcher, hnotified, hpipe, hcalls]
    exact fun h h' => (hwakeful.notified h h').imp_right (Or.imp_right hstack)
  pending := by
    rw [hwatcher, hpending, hpipe, hcalls]
    exact fun h h' => (hwakeful.pending h h').imp_right (Or.imp_right hstack)

/-- A functor is pushed. -/
theorem Wakeful.push (hwakeful : state.Wakeful) (functor : LoopFunctor Task) {call : Nat}
    (hcall : (state.calls call).notifying = false) :
    ((state.push functor).become call .pushed).Wakeful where
  notified hwatcher hnotified :=
    hwakeful.notifying (fun h => absurd (hcall.symm.trans h) Bool.false_ne_true) hwatcher hnotified
  pending _ _ := Or.inr (Or.inl ⟨call, by rw [become_self]; rfl⟩)

/-- A call that is about to write has not returned. -/
theorem pushing_of_notifying {stage : QueueStage} (hnotifying : stage.notifying = true) :
    stage.pushing = true := by
  cases stage with
  | stored | found => rfl
  | _ => cases hnotifying

theorem step_wakeful (hcapacity : 0 < capacity) (horderly : state.Orderly)
    (hwakeful : state.Wakeful)
    (hstep : state.step capacity label = some next) : next.Wakeful := by
  cases step_cases hstep with
  | run | dispatch | stopped => exact ⟨hwakeful.notified, hwakeful.pending⟩
  | queueInLoop hcall => exact hwakeful.push _ (by rw [hcall]; rfl)
  | queueStop hcall => exact hwakeful.push _ (by rw [hcall]; rfl)
  | stop hcall => exact hwakeful.goesOn (by rw [hcall]; nofun) (by rw [hcall]; nofun)
  | setStatus hcall =>
      have hsame : Wakeful { state with status := .stopping } :=
        ⟨hwakeful.notified, hwakeful.pending⟩
      exact hsame.goesOn (by rw [hcall]; nofun) (by rw [hcall]; nofun)
  | count hcall =>
      have hsame : Wakeful { state with pendingFunctorCount := state.pendingFunctorCount + 1 } :=
        ⟨hwakeful.notified, hwakeful.pending⟩
      exact hsame.goesOn (by rw [hcall]; nofun) fun _ => rfl
  | @leave call hcall hnotified =>
      have hnot : (state.calls call).notifying = true → QueueStage.returned.notifying = true := by
        rw [hcall]
        nofun
      refine ⟨hwakeful.notifying hnot, fun hwatcher _ => ?_⟩
      -- Whoever has set `notified_` writes to the pipe on behalf of this call.
      refine (hwakeful.notifying hnot hwatcher hnotified).imp_right (Or.imp_left ?_)
      rintro ⟨other, hother⟩
      exact ⟨other, pushing_of_notifying hother⟩
  | notice hcall hnotified => exact hwakeful.goesOn (by rw [hcall]; nofun) fun _ => rfl
  | @store call hcall =>
      exact ⟨fun _ _ => Or.inr (Or.inl ⟨call, by rw [become_self]; rfl⟩),
        fun _ _ => Or.inr (Or.inl ⟨call, by rw [become_self]; rfl⟩)⟩
  | find => exact hwakeful.goesOn (fun _ => rfl) fun _ => rfl
  | miss hcall hwatcher => exact .of_gone hwatcher
  | notify hcall hwatcher =>
      have hpipe : 0 < min (state.pipe + 1) capacity := lt_min (Nat.succ_pos _) hcapacity
      exact ⟨fun _ _ => Or.inl hpipe, fun _ _ => Or.inl hpipe⟩
  | @late call hcall => exact .of_gone (horderly.missed call hcall)
  | wake =>
      exact ⟨fun _ _ => Or.inr (Or.inr (List.mem_singleton.mpr rfl)),
        fun _ _ => Or.inr (Or.inr (List.mem_singleton.mpr rfl))⟩
  | enter => exact ⟨fun _ h => absurd h (by simp), fun _ h => absurd rfl h⟩
  | exit => exact .of_gone rfl
  | finish hstack | call hstack | callStop hstack | back hstack | again hstack | loopExit hstack
  | drained hstack =>
      refine hwakeful.moves rfl rfl rfl rfl rfl ?_
      rw [hstack]
      simp
  | drain hstack => exact hwakeful.moves rfl rfl rfl rfl rfl fun _ => List.mem_cons_self

/-! ## Counting -/

/-- `pending_functor_count_` is the number of functors that were queued and have not returned,
apart from those that their callers have not counted yet. -/
def Counted (state : EventLoop Task) : Prop :=
  ∃ uncounted : Finset Nat, (∀ call, state.calls call = .pushed ↔ call ∈ uncounted) ∧
    state.pendingFunctorCount + uncounted.card =
      state.pendingFunctors.length + (state.stack.map LoopFrame.load).sum

theorem counted_new : (new : EventLoop Task).Counted := ⟨∅, by simp [new], rfl⟩

theorem step_counted (hcounted : state.Counted)
    (hstep : state.step capacity label = some next) : next.Counted := by
  obtain ⟨uncounted, hpushed, hcount⟩ := hcounted
  -- A call comes to a stage other than `pushed`, from another one.
  have hgoesOn : ∀ {call : Nat} {stage : QueueStage}, state.calls call ≠ .pushed →
      stage ≠ .pushed → ∀ other, (state.become call stage).calls other = .pushed ↔
        other ∈ uncounted := by
    intro call stage hbefore hafter other
    rw [← hpushed]
    by_cases hsame : other = call
    · rw [hsame, become_self]
      exact iff_of_false hafter hbefore
    · change Function.update state.calls call stage other = .pushed ↔ _
      rw [Function.update_of_ne hsame]
  have hpush : ∀ {functor : LoopFunctor Task} {call : Nat}, state.calls call ≠ .pushed →
      ((state.push functor).become call .pushed).Counted := by
    intro functor call hbefore
    have hnew : call ∉ uncounted := fun hmem => hbefore ((hpushed call).mpr hmem)
    refine ⟨insert call uncounted, fun other => ?_, ?_⟩
    · rw [Finset.mem_insert, ← hpushed]
      by_cases hsame : other = call
      · rw [hsame, become_self]
        simp
      · change Function.update state.calls call .pushed other = .pushed ↔ _
        rw [Function.update_of_ne hsame]
        simp [hsame]
    · rw [Finset.card_insert_of_notMem hnew]
      change state.pendingFunctorCount + _ = ((state.pendingFunctors ++ [functor]).length : Int) +
        ((state.stack.map LoopFrame.load).sum : Nat)
      rw [List.length_append, List.length_singleton]
      omega
  cases step_cases hstep with
  | run | dispatch | exit | stopped => exact ⟨uncounted, hpushed, hcount⟩
  | queueInLoop hcall | queueStop hcall => exact hpush (by simp [hcall])
  | stop hcall | setStatus hcall | leave hcall | notice hcall | store hcall | find hcall
  | miss hcall | notify hcall | late hcall =>
      exact ⟨uncounted, hgoesOn (by simp [hcall]) (by simp), hcount⟩
  | @count call hcall =>
      have hmem : call ∈ uncounted := (hpushed call).mp hcall
      refine ⟨uncounted.erase call, fun other => ?_, ?_⟩
      · rw [Finset.mem_erase, ← hpushed]
        by_cases hsame : other = call
        · rw [hsame, become_self]
          simp
        · change Function.update state.calls call .counted other = .pushed ↔ _
          rw [Function.update_of_ne hsame]
          simp [hsame]
      · have hcard := Finset.card_erase_add_one hmem
        change state.pendingFunctorCount + 1 + _ = (state.pendingFunctors.length : Int) +
          ((state.stack.map LoopFrame.load).sum : Nat)
        omega
  | wake hwatching hstack =>
      refine ⟨uncounted, hpushed, ?_⟩
      rw [hstack] at hcount
      exact hcount
  | enter hstack | finish hstack | call hstack | callStop hstack | back hstack | drain hstack
  | again hstack | loopExit hstack | drained hstack =>
      refine ⟨uncounted, hpushed, ?_⟩
      rw [hstack] at hcount
      simp only [List.map_cons, List.sum_cons, LoopFrame.load, List.length_cons, List.length_nil]
        at hcount ⊢
      omega

/-! ## Runs -/

/-- What the steps of a loop keep. -/
structure Sound (state : EventLoop Task) : Prop where
  ordered : ∃ taken, state.Ordered taken
  wakeful : state.Wakeful
  orderly : state.Orderly
  counted : state.Counted

theorem run_sound (hcapacity : 0 < capacity) {labels : List (LoopLabel Task)}
    (hrun : run (step capacity) new labels = some state) : state.Sound := by
  refine run_invariant Sound ⟨⟨[], ordered_new⟩, wakeful_new, orderly_new, counted_new⟩ ?_ hrun
  intro before label after middle next _ _ hsound hstep
  obtain ⟨taken, hordered⟩ := hsound.ordered
  exact ⟨step_ordered hordered hstep, step_wakeful hcapacity hsound.orderly hsound.wakeful hstep,
    step_orderly hordered hsound.orderly hstep, step_counted hsound.counted hstep⟩

/-- A call that was not begun is idle. -/
theorem run_idle {call : Nat} {labels : List (LoopLabel Task)}
    (hbegins : ∀ label ∈ labels, label.begins ≠ some call)
    (hrun : run (step capacity) new labels = some state) : state.calls call = .idle := by
  refine run_invariant (fun state : EventLoop Task => state.calls call = .idle) rfl ?_ hrun
  intro before label after middle next hsplit _ hidle hstep
  have hnot := hbegins label (by rw [hsplit]; simp)
  -- The call that moves is another one.
  have hother : ∀ {moving : Nat} {stage : QueueStage}, call ≠ moving →
      Function.update middle.calls moving stage call = .idle := by
    intro moving stage hne
    rw [Function.update_of_ne hne, hidle]
  cases step_cases hstep with
  | queueInLoop | stop => exact hother fun hsame => hnot (hsame ▸ rfl)
  | setStatus hcall | queueStop hcall | count hcall | leave hcall | notice hcall | store hcall
  | find hcall | miss hcall | notify hcall | late hcall =>
      refine hother fun hsame => ?_
      rw [← hsame, hidle] at hcall
      cases hcall
  | _ => exact hidle

section Runs

variable {labels : List (LoopLabel Task)} (hcapacity : 0 < capacity)
  (hrun : run (step capacity) new labels = some state)
include hcapacity hrun

/-- No wake-up is lost. As long as there is a watcher, a loop with functors in its queue is
going to be woken, and a loop at rest, without a call of `QueueInLoop` in progress, has called
every functor that was queued and counts none. -/
theorem queued_functors_wake_loop (hwatcher : state.watcher = true) :
    (state.pendingFunctors ≠ [] → 0 < state.pipe ∨
      (∃ call, (state.calls call).pushing = true) ∨ .entering ∈ state.stack) ∧
    (state.pipe = 0 → state.stack = [] → (∀ call, (state.calls call).pushing = false) →
      state.called.Perm state.queued ∧ state.pendingFunctorCount = 0) := by
  have hsound := run_sound hcapacity hrun
  refine ⟨hsound.wakeful.pending hwatcher, fun hpipe hstack hquiet => ?_⟩
  have hpending : state.pendingFunctors = [] := by
    by_contra hpending
    rcases hsound.wakeful.pending hwatcher hpending with hbyte | ⟨call, hcall⟩ | hentering
    · omega
    · rw [hquiet call] at hcall
      cases hcall
    · rw [hstack] at hentering
      cases hentering
  obtain ⟨taken, hordered⟩ := hsound.ordered
  obtain ⟨uncounted, hpushed, hcount⟩ := hsound.counted
  constructor
  · have honce := hordered.once
    rw [rest, hstack, List.flatMap_nil, List.append_nil] at honce
    rw [hordered.queued, hpending, List.append_nil]
    exact honce
  · have hnone : uncounted = ∅ := by
      refine Finset.eq_empty_of_forall_notMem fun call hmem => ?_
      have hcall := hquiet call
      rw [(hpushed call).mpr hmem] at hcall
      cases hcall
    rw [hnone, hpending, hstack] at hcount
    simpa using hcount

/-- No functor is called twice, and until `StopInLoop` is called all are called in the order
in which they were queued. A loop that has ended has called what was queued before `StopInLoop`
last found the queue empty. -/
theorem functors_called_once :
    (∃ left, (state.called ++ left).Perm state.queued) ∧
    (.stopInLoop ∉ state.called → state.called <+: state.queued) ∧
    (state.watcher = false → ∃ taken count, state.queued = taken ++ state.pendingFunctors ∧
      state.called.Perm taken ∧ state.emptied = some count ∧ count ≤ taken.length) := by
  have hsound := run_sound hcapacity hrun
  obtain ⟨taken, hordered⟩ := hsound.ordered
  refine ⟨⟨state.rest ++ state.pendingFunctors, ?_⟩, fun hstop => ?_, fun hgone => ?_⟩
  · rw [hordered.queued, ← List.append_assoc]
    exact hordered.once.append_right _
  · rw [hordered.queued, ← (hordered.inOrder hstop).1, List.append_assoc]
    exact List.prefix_append _ _
  · have hstack : state.stack = [] := by
      by_contra hstack
      have hwatcher := (hsound.orderly.watched (hsound.orderly.busy hstack)).1
      rw [hgone] at hwatcher
      cases hwatcher
    have honce := hordered.once
    rw [rest, hstack, List.flatMap_nil, List.append_nil] at honce
    obtain ⟨count, hcount⟩ := Option.isSome_iff_exists.mp (hsound.orderly.emptied hgone)
    exact ⟨taken, count, hordered.queued, honce, hcount, hordered.emptied count hcount⟩

/-- The assertions of the loop hold: a thread inside of `DoPendingFunctors` can always go on,
and so can a thread that has queued a functor, unless it has found a watcher that the loop
has released since. -/
theorem asserted_goes_on :
    (state.stack ≠ [] → (state.loop state.stack).isSome) ∧
    ∀ call, (state.calls call).pushing = true →
      ((state.proceed capacity call (state.calls call)).isSome ↔
        ¬ (state.calls call = .found ∧ state.watcher = false)) := by
  have hsound := run_sound hcapacity hrun
  obtain ⟨taken, hordered⟩ := hsound.ordered
  constructor
  · intro hbusy
    have hrunning := (hsound.orderly.watched (hsound.orderly.busy hbusy)).2
    cases hstack : state.stack with
    | nil => exact absurd hstack hbusy
    | cons frame below =>
        cases frame with
        | entering => rfl
        | within functors => rfl
        | calling functors =>
            cases functors with
            | nil => rfl
            | cons functor functors =>
                cases functor with
                | task task => rfl
                | stopInLoop =>
                    -- `StopInLoop` was queued, and the loop has not ended.
                    have hmem : .stopInLoop ∈ state.queued := by
                      rw [hordered.queued]
                      refine List.mem_append_left _
                        (hordered.once.subset (List.mem_append_right _ ?_))
                      rw [rest, hstack]
                      exact List.mem_append_left _ List.mem_cons_self
                    have hstatus := (hsound.orderly.stopping (Or.inl hmem)).resolve_right hrunning
                    rw [loop, if_pos hstatus]
                    rfl
        | draining exiting called =>
            cases called with
            | false => rfl
            | true =>
                rw [loop]
                split
                · split <;> rfl
                · rfl
  · intro call hpushing
    cases hstage : state.calls call with
    | found => simp [proceed]
    | missed =>
        have hgone := hsound.orderly.gone (hsound.orderly.missed call hstage)
        rw [proceed, if_neg (by rcases hgone with h | h <;> simp [h])]
        simp
    | idle | asserted | stopping | returned => simp [hstage, QueueStage.pushing] at hpushing
    | _ => simp [proceed]

end Runs

/-- Two functors are queued before the loop thread wakes; only the first call writes to the
pipe. -/
def twoQueued : List (LoopLabel Nat) :=
  [.run, .dispatch, .queueInLoop 0 7, .proceed 0, .queueInLoop 1 8, .proceed 0, .proceed 0,
    .proceed 1, .proceed 1, .proceed 0, .proceed 0, .wake] ++ List.replicate 6 .loop

theorem queued_functors_wake_loop_twoQueued : ∃ state,
    run (step 64) new twoQueued = some state ∧
    state.called.Perm [.task 7, .task 8] ∧ state.pendingFunctorCount = 0 := by
  have hfacts : (run (step 64) new twoQueued).map (fun state =>
      (state.watcher, state.pipe, state.stack, state.queued)) =
      some (true, 0, [], [.task 7, .task 8]) := by decide
  have hpushing : (run (step 64) new twoQueued).map (fun state =>
      (List.range 2).any fun call => (state.calls call).pushing) = some false := by decide
  obtain ⟨state, hrun, hstate⟩ := Option.map_eq_some_iff.mp hfacts
  simp only [Prod.mk.injEq] at hstate
  obtain ⟨hwatcher, hpipe, hstack, hqueued⟩ := hstate
  rw [hrun, Option.map_some, Option.some.injEq] at hpushing
  have hquiet : ∀ call, (state.calls call).pushing = false := by
    intro call
    by_cases hbegun : call < 2
    · exact Bool.eq_false_of_not_eq_true
        (List.any_eq_false.mp hpushing call (List.mem_range.mpr hbegun))
    · have hbegins : ∀ label ∈ twoQueued, ∀ other ∈ label.begins, other < 2 := by decide
      rw [run_idle (fun label hlabel hsame => hbegun (hbegins label hlabel call hsame)) hrun]
      rfl
  have hrest := (queued_functors_wake_loop (by decide) hrun hwatcher).2 hpipe hstack hquiet
  exact ⟨state, hrun, hqueued ▸ hrest.1, hrest.2⟩

/-- A loop is stopped while a functor is queued behind `StopInLoop`, and another one is queued
after the loop has taken both. -/
def stoppedInside : List (LoopLabel Nat) :=
  [.run, .dispatch, .stop 0] ++ List.replicate 3 (.proceed 0) ++
  [.queueInLoop 1 7] ++ List.replicate 4 (.proceed 0) ++ [.wake, .loop, .queueInLoop 2 8] ++
  List.replicate 15 .loop ++ [.exit, .stopped]

theorem functors_called_once_stoppedInside : ∃ state,
    run (step 64) new stoppedInside = some state ∧ state.watcher = false ∧
    ∃ taken count, state.queued = taken ++ state.pendingFunctors ∧
      state.called.Perm taken ∧ state.emptied = some count ∧ count ≤ taken.length := by
  have hfacts : (run (step 64) new stoppedInside).map EventLoop.watcher = some false := by decide
  obtain ⟨state, hrun, hwatcher⟩ := Option.map_eq_some_iff.mp hfacts
  exact ⟨state, hrun, hwatcher, (functors_called_once (by decide) hrun).2.2 hwatcher⟩

/-- The loop thread is about to call `StopInLoop`, and a thread that has queued a functor has
found the watcher. -/
def stopAhead : List (LoopLabel Nat) :=
  [.run, .dispatch, .stop 0] ++ List.replicate 7 (.proceed 0) ++
  [.wake, .loop, .queueInLoop 1 7] ++ List.replicate 4 (.proceed 1)

/-- The loop ends before that thread calls `Notify`. -/
def releasedAhead : List (LoopLabel Nat) := stopAhead ++ List.replicate 13 .loop ++ [.exit]

theorem asserted_goes_on_releasedAhead : ∃ state released,
    run (step 64) new stopAhead = some state ∧ (state.loop state.stack).isSome ∧
    (state.proceed 64 1 (state.calls 1)).isSome ∧
    run (step 64) new releasedAhead = some released ∧
    ¬ (released.proceed 64 1 (released.calls 1)).isSome := by
  have hfacts : (run (step 64) new stopAhead).map (fun state =>
      (state.stack.isEmpty, state.calls 1, state.watcher)) = some (false, .found, true) := by decide
  have hreleased : (run (step 64) new releasedAhead).map (fun state =>
      (state.calls 1, state.watcher)) = some (.found, false) := by decide
  obtain ⟨state, hrun, hstate⟩ := Option.map_eq_some_iff.mp hfacts
  obtain ⟨released, hreleasedRun, hgone⟩ := Option.map_eq_some_iff.mp hreleased
  simp only [Prod.mk.injEq, List.isEmpty_eq_false_iff] at hstate hgone
  obtain ⟨hloop, hcalls⟩ := asserted_goes_on (by decide) hrun
  obtain ⟨-, hothers⟩ := asserted_goes_on (by decide) hreleasedRun
  refine ⟨state, released, hrun, hloop hstate.1, (hcalls 1 ?_).mpr ?_, hreleasedRun,
    fun hsome => (hothers 1 ?_).mp hsome hgone⟩
  · rw [hstate.2.1]
    rfl
  · rw [hstate.2.2]
    simp
  · rw [hgone.1]
    rfl

/-- What is queued while the loop stops is called before what is behind `StopInLoop`. -/
example : (run (step 64) new stoppedInside).map EventLoop.called =
    some [.stopInLoop, .task 8, .task 7] := by decide

end EventLoop

end Wnet.Evpp
