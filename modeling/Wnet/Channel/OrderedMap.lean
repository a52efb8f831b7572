import Wnet.Channel.Identifier

/-!
# The pool as an ordered map

Before the identifiers wrap, the use list and `useMap_` are two views of one
ordered map from identifiers to channels. `OrderedMap` is the representation
relation and `SequenceStep` the operation on sequences that each call is meant
to implement.
-/

namespace Wnet

open Foundation

/-- The use list is a doubly linked list over `use`, and the map finds exactly its channels. -/
structure OrderedMap (pool : ChannelPool) (use : List Ref) : Prop where
  next : Chain pool.next use none
  prev : Chain pool.prev use.reverse none
  head : pool.useListHead = use.head?
  tail : pool.useListTail = use.getLast?
  map : ∀ id channel,
    pool.useMap.lookup id = some channel ↔ channel ∈ use ∧ pool.id channel = id

/-- What a call does to the sequence of channels in use. -/
def SequenceStep (pool : ChannelPool) (use : List Ref) :
    PoolCall → PoolResult → ChannelPool → List Ref → Prop
  | .allocChannel, result, _, use' =>
      ∃ channel, channel ∉ use ∧ result = .channel (some channel) ∧ use' = use ++ [channel]
  | .freeChannel (some channel), result, _, use' =>
      result = .flag (decide (channel ∈ use)) ∧ use' = use.erase channel
  | .offerChannel id, result, _, use' =>
      (∃ channel ∈ use, pool.id channel = id ∧ result = .channel (some channel) ∧
        use' = use.erase channel) ∨
      ((∀ channel ∈ use, pool.id channel ≠ id) ∧ result = .channel none ∧ use' = use)
  | .getTimeoutList now, result, pool', use' =>
      ∃ expired, use = expired ++ use' ∧
        (∀ channel ∈ expired, pool.expireTime channel < now) ∧
        (∀ channel ∈ use'.head?, now ≤ pool.expireTime channel) ∧
        result = .channel expired.head? ∧ Chain pool'.next expired none
  | _, _, _, use' => use' = use

namespace Tracked

variable {tracked : Tracked} {use free loose : List Ref} {allocations : Nat}

theorem Numbered.distinctIds (hnumbered : tracked.Numbered allocations use)
    (hcount : allocations ≤ 2 ^ 28 - 1) : tracked.DistinctIds use := by
  intro first hfirst second hsecond hids
  rw [hnumbered.id first hfirst, hnumbered.id second hsecond] at hids
  apply hnumbered.bornInjective first hfirst second hsecond
  exact idAt_injective_of_lt (lt_of_lt_of_le (hnumbered.bornLt first hfirst) hcount)
    (lt_of_lt_of_le (hnumbered.bornLt second hsecond) hcount) hids

theorem Valid.orderedMap (hvalid : tracked.Valid use free loose)
    (hcomplete : MapComplete tracked.pool use) : OrderedMap tracked.pool use where
  next := hvalid.layout.useNext
  prev := hvalid.layout.usePrev
  head := hvalid.layout.useHead
  tail := hvalid.layout.useTail
  map id channel := by
    constructor
    · intro hlookup
      obtain ⟨hmem, hid, -⟩ := hvalid.layout.mapSound id channel hlookup
      exact ⟨hmem, hid⟩
    · rintro ⟨hmem, rfl⟩
      exact hcomplete channel hmem

/-- With distinct identifiers `FreeChannel` finds exactly the channels in use. -/
theorem Valid.lookup_id (hvalid : tracked.Valid use free loose)
    (hdistinct : tracked.DistinctIds use) (hcomplete : MapComplete tracked.pool use)
    {channel : Ref} (hreturned : channel ∈ tracked.returned) :
    tracked.pool.useMap.lookup (tracked.pool.id channel) =
      if channel ∈ use then some channel else none := by
  split
  next huse => exact hcomplete channel huse
  next huse =>
    cases hlookup : tracked.pool.useMap.lookup (tracked.pool.id channel) with
    | none => rfl
    | some owner =>
        obtain ⟨howner, hid, -⟩ := hvalid.layout.mapSound _ _ hlookup
        obtain rfl := hdistinct owner (List.mem_append_left _ howner) channel
          (hvalid.mem_live_of_lookup hreturned hlookup) hid
        exact absurd howner huse

theorem perform_sequence {globals globals' : Globals} {pool' : ChannelPool} {call : PoolCall}
    {result : PoolResult} (hvalid : tracked.Valid use free loose)
    (hdistinct : tracked.DistinctIds use) (hcomplete : MapComplete tracked.pool use)
    (hlegal : tracked.Legal call)
    (hperform : perform globals tracked.pool call = some (globals', pool', result)) :
    SequenceStep tracked.pool use call result pool'
      (sequenceAfter tracked.pool use call result) := by
  cases call with
  | allocChannel =>
      have hspec := ChannelPool.allocChannel_spec globals hvalid.layout
      simp only [perform, Option.some.injEq, Prod.mk.injEq] at hperform
      obtain ⟨rfl, rfl, rfl⟩ := hperform
      exact ⟨_, hspec.fresh.1, rfl, rfl⟩
  | freeChannel channel =>
      cases channel with
      | none => rfl
      | some channel =>
          have hlookup := hvalid.lookup_id hdistinct hcomplete (hlegal channel rfl)
          simp only [perform, Option.some.injEq, Prod.mk.injEq] at hperform
          obtain ⟨-, -, rfl⟩ := hperform
          -- A channel whose identifier is not in the map is not released.
          by_cases huse : channel ∈ use
          · rw [if_pos huse] at hlookup
            rw [ChannelPool.freeChannel_mapped hlookup]
            exact ⟨by simp [huse], rfl⟩
          · rw [if_neg huse] at hlookup
            rw [ChannelPool.freeChannel_unmapped hlookup]
            exact ⟨by simp [huse], (List.erase_of_not_mem huse).symm⟩
  | appendChannel channel => rfl
  | offerChannel id =>
      simp only [perform, Option.some.injEq, Prod.mk.injEq] at hperform
      obtain ⟨-, -, rfl⟩ := hperform
      cases hlookup : tracked.pool.useMap.lookup id with
      | none =>
          rw [ChannelPool.offerChannel_unmapped hlookup]
          refine Or.inr ⟨?_, rfl, rfl⟩
          rintro channel hmem rfl
          rw [hcomplete channel hmem] at hlookup
          cases hlookup
      | some channel =>
          rw [ChannelPool.offerChannel_mapped hlookup]
          obtain ⟨hmem, hid, -⟩ := hvalid.layout.mapSound _ _ hlookup
          exact Or.inl ⟨channel, hmem, hid, rfl, rfl⟩
  | getTimeoutList now =>
      obtain ⟨outcome, list, hcall, hspec, -⟩ := hvalid.getTimeoutList globals 0 now
      simp only [perform, hcall, Option.map_some, Option.some.injEq, Prod.mk.injEq] at hperform
      obtain ⟨-, rfl, rfl⟩ := hperform
      refine ⟨tracked.pool.expired now use, ?_, ?_, ?_, ?_, ?_⟩
      · exact (tracked.pool.expired_append_unexpired now use).symm
      · exact fun channel hmem => ChannelPool.expireTime_lt_of_mem_expired hmem
      · exact fun channel hhead => ChannelPool.le_expireTime_of_head_unexpired hhead
      · rw [hspec.result]
      · exact hspec.layout.detachedNext _ (by simp)
  | appendFreeList addList => rfl
  | setExpireTime channel now => rfl

end Tracked

namespace Process

variable {process next : Process} {index : Nat} {call : PoolCall}

/-- As long as identifiers have not wrapped, the map finds every channel in use. -/
def Complete (process : Process) : Prop :=
  process.allocations ≤ 2 ^ 28 - 1 → ∀ index,
    Tracked.MapComplete (process.pools index).pool (process.pools index).pool.useSequence

theorem step_complete (hsound : process.Sound) (hcomplete : process.Complete)
    (hstep : process.step (index, call) = some next) : next.Complete := by
  intro hcount other
  rw [step_allocations hstep] at hcount
  have hbefore : process.allocations ≤ 2 ^ 28 - 1 := le_trans (Nat.le_add_right _ _) hcount
  by_cases hother : other = index
  · subst hother
    obtain ⟨use, free, loose, hvalid, hnumbered⟩ := hsound.pools other
    obtain ⟨result, free', loose', heffect⟩ := step_effect hvalid hstep
    rw [heffect.valid.useSequence_eq]
    refine heffect.complete (hnumbered.distinctIds hbefore) ?_ ?_
    · rintro rfl channel hmem hid
      have hlive : channel ∈ (process.pools other).live use := List.mem_append_left _ hmem
      have hlt := hnumbered.bornLt channel hlive
      rw [hnumbered.id channel hlive, hsound.counter, nextChannelId_counterAt] at hid
      simp only [allocationCost] at hcount
      have := idAt_injective_of_lt (lt_of_lt_of_le hlt hbefore) hcount hid
      omega
    · have := hcomplete hbefore other
      rwa [hvalid.useSequence_eq] at this
  · rw [step_other hstep hother]
    exact hcomplete hbefore other

theorem reachable_complete {mem : Nat → Ref → Channel} {calls : List (Nat × PoolCall)}
    (hrun : run step (initial mem) calls = some process) : process.Complete := by
  refine (run_invariant (fun process => process.Sound ∧ process.Complete) ?_ ?_ hrun).2
  · refine ⟨sound_initial mem, fun _ index channel hmem => ?_⟩
    rw [show ((initial mem).pools index).pool.useSequence = [] from
      (Tracked.valid_new (mem index)).useSequence_eq] at hmem
    cases hmem
  · rintro - ⟨index, call⟩ - process next - - ⟨hsound, hcomplete⟩ hstep
    exact ⟨step_sound hsound hstep, step_complete hsound hcomplete hstep⟩

/-- In every reachable state of a process with at most `2 ^ 28 - 1` allocations,
the use list and the map of each pool represent the same sequence of channels.
Every legal call returns and acts on that sequence as `SequenceStep` says. -/
theorem pool_refines_sequence {mem : Nat → Ref → Channel} {calls : List (Nat × PoolCall)}
    (hrun : run step (initial mem) calls = some process)
    (hcount : process.allocations ≤ 2 ^ 28 - 1) (index : Nat) :
    OrderedMap (process.pools index).pool (process.pools index).pool.useSequence ∧
    ∀ call, (process.pools index).Legal call → ∃ next globals result,
      process.step (index, call) = some next ∧
      perform process.globals (process.pools index).pool call =
        some (globals, (next.pools index).pool, result) ∧
      SequenceStep (process.pools index).pool (process.pools index).pool.useSequence call result
        (next.pools index).pool (next.pools index).pool.useSequence := by
  obtain ⟨use, free, loose, hvalid, hnumbered⟩ := (reachable_sound hrun).pools index
  have hcomplete := reachable_complete hrun hcount index
  rw [hvalid.useSequence_eq] at hcomplete ⊢
  refine ⟨hvalid.orderedMap hcomplete, fun call hlegal => ?_⟩
  obtain ⟨globals, pool, result, free', loose', hperform, heffect⟩ :=
    Tracked.perform_effect process.globals process.allocations hvalid hlegal
  obtain ⟨next, hstep⟩ := exists_step hvalid hlegal
  refine ⟨next, globals, result, hstep, ?_⟩
  obtain ⟨-, globals', pool', result', hperform', rfl⟩ := step_cases hstep
  rw [hperform, Option.some.injEq, Prod.mk.injEq, Prod.mk.injEq] at hperform'
  obtain ⟨rfl, rfl, rfl⟩ := hperform'
  have hafter := heffect.valid.useSequence_eq
  simp only [Tracked.after_pool, Function.update_self] at hafter ⊢
  rw [hafter]
  exact ⟨hperform, Tracked.perform_sequence hvalid (hnumbered.distinctIds hcount) hcomplete
    hlegal hperform⟩

/-- Four requests, the third answered, the first timed out, and a fifth. -/
def fiveRequests : List (Nat × PoolCall) :=
  [(0, .allocChannel), (0, .allocChannel), (0, .allocChannel), (0, .allocChannel),
    (0, .setExpireTime (some 0) 10), (0, .setExpireTime (some 1) 20),
    (0, .setExpireTime (some 2) 30), (0, .freeChannel (some 2)), (0, .getTimeoutList 15),
    (0, .appendFreeList (some 0)), (0, .allocChannel)]

/-- Then the second one times out. -/
theorem pool_refines_sequence_fiveRequests : ∃ process next globals result,
    run step (initial zeroMemory) fiveRequests = some process ∧
    (process.pools 0).pool.useSequence = [1, 3, 4] ∧
    OrderedMap (process.pools 0).pool [1, 3, 4] ∧
    process.step (0, .getTimeoutList 25) = some next ∧
    perform process.globals (process.pools 0).pool (.getTimeoutList 25) =
      some (globals, (next.pools 0).pool, result) ∧
    (next.pools 0).pool.useSequence = [3, 4] ∧
    SequenceStep (process.pools 0).pool [1, 3, 4] (.getTimeoutList 25) result
      (next.pools 0).pool [3, 4] := by
  have hreached : (run step (initial zeroMemory) fiveRequests).map (fun process =>
      (process.allocations, (process.pools 0).pool.useSequence)) = some (5, [1, 3, 4]) := by
    decide +kernel
  have hafter : (run step (initial zeroMemory) (fiveRequests ++ [(0, .getTimeoutList 25)])).map
      (fun process => (process.pools 0).pool.useSequence) = some [3, 4] := by
    decide +kernel
  obtain ⟨process, hrun, hprocess⟩ := Option.map_eq_some_iff.mp hreached
  obtain ⟨hallocations, hsequence⟩ := Prod.mk.inj hprocess
  obtain ⟨hmap, hcalls⟩ := pool_refines_sequence hrun (by rw [hallocations]; decide) 0
  obtain ⟨next, globals, result, hstep, hperform, hrefines⟩ := hcalls (.getTimeoutList 25) trivial
  rw [run_concat hrun hstep, Option.map_some, Option.some.injEq] at hafter
  rw [hsequence] at hmap hrefines
  rw [hafter] at hrefines
  exact ⟨process, next, globals, result, hrun, hsequence, hmap, hstep, hperform, hafter, hrefines⟩

end Process

end Wnet
