import Wnet.Channel.Process

/-!
# Conservation of channels

Every channel of every cluster is free, in use, or in the hands of a caller.
`AppendFreeList` breaks this: it leaves a null tail pointer behind a nonempty
free list, and the next channel that is given back overwrites the head. No
other operation does.
-/

namespace Wnet

open Foundation

namespace Tracked

/-- Every channel is on the free list, on the use list or with a caller, once
in all, and the free list's tail pointer is at its last channel. -/
def Conserved (tracked : Tracked) : Prop :=
  ∃ use free : List Ref,
    Chain tracked.pool.next use none ∧ tracked.pool.useListHead = use.head? ∧
    Chain tracked.pool.next free none ∧ tracked.pool.freeListHead = free.head? ∧
    (∀ channel < tracked.pool.channelCount,
      (use ++ free ++ tracked.detached.flatten).count channel = 1) ∧
    (tracked.pool.freeListHead = none ↔ tracked.pool.freeListTail = none) ∧
    (tracked.pool.freeListHead ≠ none → tracked.pool.freeListTail = free.getLast?)

/-- A pool without loose channels whose tail pointer is right. -/
def Whole (tracked : Tracked) : Prop :=
  ∃ use free, tracked.Valid use free [] ∧ tracked.pool.freeListTail = free.getLast?

theorem Whole.conserved {tracked : Tracked} (hwhole : tracked.Whole) : tracked.Conserved := by
  obtain ⟨use, free, hvalid, htail⟩ := hwhole
  have hlayout := hvalid.layout
  refine ⟨use, free, hlayout.useNext, hlayout.useHead, hlayout.freeNext, hlayout.freeHead,
    ?_, ?_, fun _ => htail⟩
  · intro channel hlt
    have hperm := hlayout.partition
    rw [List.append_nil] at hperm
    rw [hperm.count_eq]
    exact List.count_eq_one_of_mem List.nodup_range (List.mem_range.mpr hlt)
  · rw [hlayout.freeHead, htail, List.head?_eq_none_iff, List.getLast?_eq_none_iff]

theorem whole_new (mem : Ref → Channel) : (new mem).Whole := ⟨[], [], valid_new mem, rfl⟩

end Tracked

namespace Process

variable {process next : Process} {index : Nat} {call : PoolCall}

/-- The only call after which a pool may not be whole is `AppendFreeList` of a
nonempty list, on that pool. -/
theorem step_whole {label : Nat × PoolCall} (hstep : process.step label = some next)
    (hlabel : ∀ addList, label ≠ (index, .appendFreeList (some addList)))
    (hwhole : (process.pools index).Whole) : (next.pools index).Whole := by
  obtain ⟨other, call⟩ := label
  by_cases hother : index = other
  · subst hother
    obtain ⟨use, free, hvalid, htail⟩ := hwhole
    obtain ⟨result, free', loose', heffect⟩ := step_effect hvalid hstep
    obtain ⟨rfl, htail'⟩ := heffect.whole (fun addList hcall => hlabel addList (by rw [hcall]))
      rfl htail
    exact ⟨_, free', heffect.valid, htail'⟩
  · rw [step_other hstep hother]
    exact hwhole

/-- After `AppendFreeList` of a nonempty list the free list has a head and no tail. -/
theorem step_appendFreeList {addList : Ref} {use free loose : List Ref}
    (hvalid : (process.pools index).Valid use free loose)
    (hstep : process.step (index, .appendFreeList (some addList)) = some next) :
    ¬ (next.pools index).Conserved := by
  obtain ⟨hlegal, globals, pool, result, hperform, rfl⟩ := step_cases hstep
  obtain ⟨chain, hchain, hhead⟩ := hlegal addList rfl
  obtain ⟨rest, rfl⟩ := List.head?_eq_some_iff.mp hhead
  obtain ⟨pool', hcall, hspec, -⟩ :=
    hvalid.appendFreeList process.globals process.allocations hchain
  obtain rfl : pool = pool' := by
    simp only [perform, hcall, Option.map_some, Option.some.injEq, Prod.mk.injEq] at hperform
    exact hperform.2.1.symm
  rintro ⟨-, -, -, -, -, -, -, hends, -⟩
  simp only [Function.update_self, Tracked.after, hspec.layout.freeHead, hspec.freeListTail,
    List.head?_eq_none_iff, iff_true] at hends
  simp at hends

/-- A pool is conserved in every state of a run exactly if the run never gives
a nonempty list back to it through `AppendFreeList`. -/
theorem conserved_iff_no_appendFreeList {mem : Nat → Ref → Channel}
    {calls : List (Nat × PoolCall)} {final : Process}
    (hrun : run step (initial mem) calls = some final) (index : Nat) :
    (∀ before rest process, calls = before ++ rest →
      run step (initial mem) before = some process → (process.pools index).Conserved) ↔
    ∀ addList, (index, PoolCall.appendFreeList (some addList)) ∉ calls := by
  constructor
  · intro hconserved addList hmem
    obtain ⟨before, rest, rfl⟩ := List.append_of_mem hmem
    rw [List.append_cons] at hrun hconserved
    obtain ⟨next, hnext, -⟩ := exists_run_of_append hrun
    obtain ⟨process, hprocess, hstep⟩ := exists_of_run_concat hnext
    obtain ⟨use, free, loose, hvalid⟩ := reachable_valid hprocess index
    exact step_appendFreeList hvalid hstep (hconserved _ rest next rfl hnext)
  · rintro hcalls before rest process rfl hprocess
    apply Tracked.Whole.conserved
    refine run_invariant (fun process => (process.pools index).Whole)
      (Tracked.whole_new (mem index)) ?_ hprocess
    rintro first label second middle next rfl - hwhole hstep
    refine step_whole hstep (fun addList hlabel => hcalls addList ?_) hwhole
    simp [hlabel]

theorem conserved_iff_alloc_free : ∃ final,
    run step (initial zeroMemory) [(0, .allocChannel), (0, .freeChannel (some 0))] = some final ∧
    ((∀ before rest process, [(0, .allocChannel), (0, .freeChannel (some 0))] = before ++ rest →
      run step (initial zeroMemory) before = some process → (process.pools 0).Conserved) ↔
    ∀ addList, (0, PoolCall.appendFreeList (some addList)) ∉
      [(0, .allocChannel), (0, .freeChannel (some 0))]) :=
  ⟨_, rfl, conserved_iff_no_appendFreeList rfl 0⟩

/-- One request that times out is enough: its channel goes back through
`AppendFreeList`, and the 25 channels hang on a head without a tail. -/
theorem not_conserved_after_timeout : ∃ final,
    run step (initial zeroMemory)
      [(0, .allocChannel), (0, .setExpireTime (some 0) 0), (0, .getTimeoutList 1),
        (0, .appendFreeList (some 0))] = some final ∧
    ¬ (final.pools 0).Conserved := by
  refine ⟨_, rfl, ?_⟩
  rintro ⟨-, -, -, -, -, -, -, hends, -⟩
  revert hends
  decide

end Process

end Wnet
