import Wnet.Channel.Process
import Mathlib.Data.Nat.Bitwise

/-!
# Channel identifiers

`globalChannelId_` runs from 1 to `2 ^ 28`; at `2 ^ 28` the masked value is
zero, the identifier 1 is handed out instead and the counter is reset to 1. The
identifier of a channel is therefore a function of the number of allocations
before it, with period `2 ^ 28`, in which 1 occurs twice in succession.
-/

namespace Wnet

open Foundation

def idPeriod : Nat := 2 ^ 28

/-- `globalChannelId_` after a number of allocations. -/
def counterAt (allocations : Nat) : UInt32 := UInt32.ofNat (allocations % idPeriod + 1)

/-- The identifier of the channel allocated after a number of allocations. -/
def idAt (allocations : Nat) : UInt32 :=
  if allocations % idPeriod = idPeriod - 1 then 1
  else UInt32.ofNat (allocations % idPeriod + 1)

theorem toNat_counterAt (allocations : Nat) :
    (counterAt allocations).toNat = allocations % idPeriod + 1 := by
  have hlt : allocations % idPeriod < 2 ^ 28 := Nat.mod_lt _ (by decide)
  rw [counterAt, UInt32.toNat_ofNat']
  exact Nat.mod_eq_of_lt (by omega)

theorem toNat_idAt (allocations : Nat) :
    (idAt allocations).toNat =
      if allocations % idPeriod = idPeriod - 1 then 1 else allocations % idPeriod + 1 := by
  rw [idAt]
  split
  · rfl
  · exact toNat_counterAt allocations

theorem nextChannelId_counterAt (allocations : Nat) :
    ChannelPool.nextChannelId (counterAt allocations) =
      (idAt allocations, counterAt (allocations + 1)) := by
  have hlt : allocations % idPeriod < 2 ^ 28 := Nat.mod_lt _ (by decide)
  have hmask : (counterAt allocations &&& 0x0FFFFFFF).toNat =
      (allocations % idPeriod + 1) % 2 ^ 28 := by
    rw [UInt32.toNat_and, toNat_counterAt]
    exact Nat.and_two_pow_sub_one_eq_mod _ 28
  rw [ChannelPool.nextChannelId]
  by_cases hlast : allocations % idPeriod = idPeriod - 1
  · have hzero : counterAt allocations &&& 0x0FFFFFFF = 0 := by
      apply UInt32.toNat_inj.mp
      rw [hmask, hlast]
      rfl
    have hreset : counterAt (allocations + 1) = 1 := by
      apply UInt32.toNat_inj.mp
      rw [toNat_counterAt]
      simp only [idPeriod] at hlast ⊢
      have : (allocations + 1) % 2 ^ 28 = 0 := by omega
      rw [this]
      rfl
    simp [hzero, hreset, idAt, hlast]
  · have hsmall : allocations % idPeriod + 1 < 2 ^ 28 := by
      simp only [idPeriod] at hlast hlt ⊢
      omega
    have hid : counterAt allocations &&& 0x0FFFFFFF = idAt allocations := by
      apply UInt32.toNat_inj.mp
      rw [hmask, toNat_idAt, if_neg hlast, Nat.mod_eq_of_lt hsmall]
    have hne : idAt allocations ≠ 0 := by
      intro hzero
      have := congrArg UInt32.toNat hzero
      rw [toNat_idAt, if_neg hlast] at this
      simp at this
    have hnext : counterAt allocations + 1 = counterAt (allocations + 1) := by
      apply UInt32.toNat_inj.mp
      rw [UInt32.toNat_add, toNat_counterAt, toNat_counterAt]
      simp only [idPeriod] at hsmall ⊢
      have : (allocations + 1) % 2 ^ 28 = allocations % 2 ^ 28 + 1 := by omega
      rw [this]
      exact Nat.mod_eq_of_lt (by simp; omega)
    simp [hid, hne, hnext]

theorem idAt_cases (allocations : Nat) :
    (allocations % 2 ^ 28 = 2 ^ 28 - 1 ∧ (idAt allocations).toNat = 1) ∨
      (allocations % 2 ^ 28 < 2 ^ 28 - 1 ∧
        (idAt allocations).toNat = allocations % 2 ^ 28 + 1) := by
  have hlt : allocations % 2 ^ 28 < 2 ^ 28 := Nat.mod_lt _ (by decide)
  rw [toNat_idAt]
  by_cases hlast : allocations % idPeriod = idPeriod - 1
  · exact Or.inl ⟨hlast, if_pos hlast⟩
  · refine Or.inr ⟨?_, if_neg hlast⟩
    simp only [idPeriod] at hlast
    omega

/-- Identifiers are at least 1 and fit in 28 bits. -/
theorem idAt_bounds (allocations : Nat) :
    1 ≤ (idAt allocations).toNat ∧ (idAt allocations).toNat ≤ 0x0FFFFFFF := by
  rcases idAt_cases allocations with ⟨-, hid⟩ | ⟨hlt, hid⟩ <;> omega

/-- Within less than `2 ^ 28 - 1` allocations only one identifier repeats: the
1 handed out at the reset and again right after it. -/
theorem idAt_eq_idAt_iff {earlier later : Nat} (hlt : earlier < later)
    (hclose : later - earlier < idPeriod - 1) :
    idAt earlier = idAt later ↔ counterAt later = 1 ∧ idAt earlier = 1 := by
  rw [← UInt32.toNat_inj, ← UInt32.toNat_inj, ← UInt32.toNat_inj, toNat_counterAt]
  simp only [idPeriod, UInt32.toNat_one] at hclose ⊢
  rcases idAt_cases earlier with ⟨hearlier, hid⟩ | ⟨hearlier, hid⟩ <;>
    rcases idAt_cases later with ⟨hlater, hid'⟩ | ⟨hlater, hid'⟩ <;> omega

/-- Before the counter is reset identifiers do not repeat. -/
theorem idAt_injective_of_lt {first second : Nat} (hfirst : first < idPeriod - 1)
    (hsecond : second < idPeriod - 1) (hids : idAt first = idAt second) : first = second := by
  rw [← UInt32.toNat_inj] at hids
  simp only [idPeriod] at hfirst hsecond
  rcases idAt_cases first with ⟨hcase, hid⟩ | ⟨hcase, hid⟩ <;>
    rcases idAt_cases second with ⟨hcase', hid'⟩ | ⟨hcase', hid'⟩ <;> omega

/-- Live channels carry the identifier of their last allocation. -/
structure Tracked.Numbered (tracked : Tracked) (allocations : Nat) (use : List Ref) : Prop where
  id : ∀ channel ∈ tracked.live use, tracked.pool.id channel = idAt (tracked.born channel)
  bornLt : ∀ channel ∈ tracked.live use, tracked.born channel < allocations
  bornInjective : ∀ first ∈ tracked.live use, ∀ second ∈ tracked.live use,
    tracked.born first = tracked.born second → first = second

theorem Tracked.Effect.numbered {globals globals' : Globals} {allocations : Nat}
    {tracked tracked' : Tracked} {use free loose use' free' loose' : List Ref} {call : PoolCall}
    {result : PoolResult}
    (heffect : Effect globals allocations tracked use free loose call globals' tracked' result
      use' free' loose')
    (hcounter : globals.globalChannelId = counterAt allocations)
    (hnumbered : tracked.Numbered allocations use) :
    tracked'.Numbered (allocations + Process.allocationCost call) use' := by
  refine ⟨?_, ?_, ?_⟩
  · intro channel hmem
    rcases heffect.kept channel hmem with ⟨hold, hid, hborn⟩ | ⟨-, -, hid, hborn⟩
    · rw [hid, hborn]
      exact hnumbered.id channel hold
    · rw [hid, hborn, hcounter, nextChannelId_counterAt]
  · intro channel hmem
    rcases heffect.kept channel hmem with ⟨hold, -, hborn⟩ | ⟨rfl, -, -, hborn⟩
    · exact hborn ▸ Nat.lt_add_right _ (hnumbered.bornLt channel hold)
    · exact hborn ▸ Nat.lt_succ_self _
  · intro first hfirst second hsecond hborns
    rcases heffect.kept first hfirst with ⟨hold, -, hborn⟩ | ⟨-, hresult, -, hborn⟩ <;>
      rcases heffect.kept second hsecond with ⟨hold', -, hborn'⟩ | ⟨-, hresult', -, hborn'⟩
    · exact hnumbered.bornInjective first hold second hold' (hborn ▸ hborn' ▸ hborns)
    · have := hnumbered.bornLt first hold
      omega
    · have := hnumbered.bornLt second hold'
      omega
    · simpa using hresult.symm.trans hresult'

theorem Tracked.Numbered.mono {tracked : Tracked} {allocations later : Nat} {use : List Ref}
    (hnumbered : tracked.Numbered allocations use) (hle : allocations ≤ later) :
    tracked.Numbered later use :=
  ⟨hnumbered.id, fun channel hmem => lt_of_lt_of_le (hnumbered.bornLt channel hmem) hle,
    hnumbered.bornInjective⟩

namespace Process

/-- The counter and all live identifiers follow the number of allocations. -/
structure Sound (process : Process) : Prop where
  counter : process.globals.globalChannelId = counterAt process.allocations
  pools : ∀ index, ∃ use free loose, (process.pools index).Valid use free loose ∧
    (process.pools index).Numbered process.allocations use

variable {process next : Process} {index : Nat} {call : PoolCall}

theorem sound_initial (mem : Nat → Ref → Channel) : (initial mem).Sound where
  counter := rfl
  pools := fun index => ⟨[], [], [], Tracked.valid_new (mem index),
    ⟨by simp [initial, Tracked.live, Tracked.new], by simp [initial, Tracked.live, Tracked.new],
      by simp [initial, Tracked.live, Tracked.new]⟩⟩

theorem step_sound (hsound : process.Sound) (hstep : process.step (index, call) = some next) :
    next.Sound := by
  have hallocations := step_allocations hstep
  refine ⟨?_, fun other => ?_⟩
  · obtain ⟨use, free, loose, hvalid, -⟩ := hsound.pools index
    obtain ⟨result, free', loose', heffect⟩ := step_effect hvalid hstep
    rw [heffect.counter, hallocations]
    cases call <;> simp [allocationCost, hsound.counter, nextChannelId_counterAt]
  · obtain ⟨use, free, loose, hvalid, hnumbered⟩ := hsound.pools other
    rw [hallocations]
    by_cases hother : other = index
    · subst hother
      obtain ⟨result, free', loose', heffect⟩ := step_effect hvalid hstep
      exact ⟨_, free', loose', heffect.valid, heffect.numbered hsound.counter hnumbered⟩
    · rw [step_other hstep hother]
      exact ⟨use, free, loose, hvalid, hnumbered.mono (Nat.le_add_right _ _)⟩

theorem reachable_sound {mem : Nat → Ref → Channel} {calls : List (Nat × PoolCall)}
    (hrun : run step (initial mem) calls = some process) : process.Sound :=
  run_invariant Sound (sound_initial mem)
    (fun _ _ _ _ _ _ _ hsound hstep => step_sound hsound hstep) hrun

/-- The identifiers in use after an allocation. -/
theorem step_allocChannel_ids (hsound : process.Sound)
    (hstep : process.step (index, .allocChannel) = some next) {channel : Ref}
    (hchannel : channel = ((process.pools index).pool.allocChannel process.globals).2.2) :
    ∃ use, (process.pools index).pool.useSequence = use ∧
      (next.pools index).pool.useSequence = use ++ [channel] ∧ channel ∉ use ∧
      (next.pools index).pool.id channel = idAt process.allocations ∧
      (next.pools index).born channel = process.allocations ∧
      ∀ other ∈ use, (next.pools index).pool.id other = (process.pools index).pool.id other ∧
        (process.pools index).pool.id other = idAt ((process.pools index).born other) ∧
        (process.pools index).born other < process.allocations := by
  obtain ⟨use, free, loose, hvalid, hnumbered⟩ := hsound.pools index
  obtain ⟨-, -, free', heffect⟩ := step_allocChannel hvalid hstep hchannel
  have hspec := ChannelPool.allocChannel_spec process.globals hvalid.layout
  rw [← hchannel] at hspec
  have hdead : channel ∉ (process.pools index).live use := by
    simp only [Tracked.live, List.mem_append, List.mem_flatten, not_or, not_exists, not_and]
    exact hspec.fresh
  refine ⟨use, hvalid.useSequence_eq, heffect.valid.useSequence_eq, hspec.fresh.1,
    ?_⟩
  rcases heffect.kept channel (by simp [Tracked.live]) with ⟨hlive, -⟩ | ⟨-, -, hid, hborn⟩
  · exact absurd hlive hdead
  refine ⟨?_, hborn, ?_⟩
  · rw [hid, hsound.counter, nextChannelId_counterAt]
  · intro other hmem
    have hlive : other ∈ (process.pools index).live use := List.mem_append_left _ hmem
    refine ⟨?_, hnumbered.id other hlive, hnumbered.bornLt other hlive⟩
    rcases heffect.kept other (by simp [Tracked.live, hmem]) with ⟨-, hsame, -⟩ | ⟨-, hnew, -⟩
    · exact hsame
    · obtain rfl : channel = other := by simpa using hnew
      exact absurd hlive hdead

/-- Every identifier lies in `[1, 0x0FFFFFFF]`. As long as fewer than
`2 ^ 28 - 1` channels were allocated since the oldest one in use, it differs
from all other identifiers in use in the pool, unless the counter was just
reset and the channel that received 1 at the reset is still in use there. -/
theorem allocChannel_id_distinct_iff {mem : Nat → Ref → Channel}
    {calls : List (Nat × PoolCall)} (hrun : run step (initial mem) calls = some process)
    (hstep : process.step (index, .allocChannel) = some next) {channel : Ref}
    (hchannel : channel = ((process.pools index).pool.allocChannel process.globals).2.2) :
    (1 ≤ (next.pools index).pool.id channel ∧
      (next.pools index).pool.id channel ≤ 0x0FFFFFFF) ∧
    ((∀ other ∈ (process.pools index).pool.useSequence,
        process.allocations - (process.pools index).born other < 2 ^ 28 - 1) →
      ((∀ other ∈ (next.pools index).pool.useSequence, other ≠ channel →
          (next.pools index).pool.id other ≠ (next.pools index).pool.id channel) ↔
        ¬ (process.globals.globalChannelId = 1 ∧
          ∃ other ∈ (process.pools index).pool.useSequence,
            (process.pools index).pool.id other = 1))) := by
  have hsound := reachable_sound hrun
  obtain ⟨use, huse, huse', hfresh, hid, -, hothers⟩ :=
    step_allocChannel_ids hsound hstep hchannel
  rw [huse, huse', hid, hsound.counter]
  refine ⟨?_, fun hclose => ?_⟩
  · rw [UInt32.le_iff_toNat_le, UInt32.le_iff_toNat_le]
    exact idAt_bounds process.allocations
  have hrepeat : ∀ other ∈ use, (next.pools index).pool.id other = idAt process.allocations ↔
      counterAt process.allocations = 1 ∧ (process.pools index).pool.id other = 1 := by
    intro other hmem
    obtain ⟨hsame, hborn, hlt⟩ := hothers other hmem
    rw [hsame, hborn]
    exact idAt_eq_idAt_iff hlt (hclose other hmem)
  constructor
  · rintro hdistinct ⟨hcounter, other, hmem, hone⟩
    refine hdistinct other (List.mem_append_left _ hmem) ?_
      ((hrepeat other hmem).mpr ⟨hcounter, hone⟩)
    rintro rfl
    exact hfresh hmem
  · intro hnot other hmem hne hsame
    have hold : other ∈ use := by simpa [hne] using hmem
    obtain ⟨hcounter, hone⟩ := (hrepeat other hold).mp hsame
    exact hnot ⟨hcounter, other, hold, hone⟩

theorem allocChannel_id_distinct_second : ∃ process next,
    run step (initial zeroMemory) [(0, .allocChannel)] = some process ∧
    process.step (0, .allocChannel) = some next ∧
    (1 ≤ (next.pools 0).pool.id 1 ∧ (next.pools 0).pool.id 1 ≤ 0x0FFFFFFF) ∧
    ((∀ other ∈ (process.pools 0).pool.useSequence,
        process.allocations - (process.pools 0).born other < 2 ^ 28 - 1) →
      ((∀ other ∈ (next.pools 0).pool.useSequence, other ≠ 1 →
          (next.pools 0).pool.id other ≠ (next.pools 0).pool.id 1) ↔
        ¬ (process.globals.globalChannelId = 1 ∧
          ∃ other ∈ (process.pools 0).pool.useSequence,
            (process.pools 0).pool.id other = 1))) :=
  ⟨_, _, rfl, rfl,
    @allocChannel_id_distinct_iff _ _ 0 zeroMemory [(0, .allocChannel)] rfl rfl 1 rfl⟩

/-- A channel that is allocated and freed at once leaves nothing in use. -/
theorem step_alloc_free {free loose : List Ref} (hvalid : (process.pools 0).Valid [] free loose) :
    ∃ channel final, run step process [(0, .allocChannel), (0, .freeChannel (some channel))] =
        some final ∧
      final.allocations = process.allocations + 1 ∧
      ∃ free' loose', (final.pools 0).Valid [] free' loose' := by
  obtain ⟨middle, hmiddle⟩ : ∃ middle, process.step (0, .allocChannel) = some middle :=
    exists_step hvalid trivial
  have hspec := ChannelPool.allocChannel_spec process.globals hvalid.layout
  obtain ⟨hpool, hreturned, free', heffect⟩ := step_allocChannel hvalid hmiddle rfl
  rw [← hpool] at hspec
  generalize ((process.pools 0).pool.allocChannel process.globals).2.2 = channel at *
  have hid : (middle.pools 0).pool.id channel =
      (ChannelPool.nextChannelId process.globals.globalChannelId).1 := by
    rw [ChannelPool.id_eq_content, hspec.content]
    rfl
  have hlookup : (middle.pools 0).pool.useMap.lookup ((middle.pools 0).pool.id channel) =
      some channel := by
    rw [hspec.useMap, hid, AList.lookup_insert]
  obtain ⟨final, hfinal⟩ : ∃ final, middle.step (0, .freeChannel (some channel)) = some final :=
    exists_step heffect.valid (by rintro held ⟨⟩; exact hreturned)
  refine ⟨channel, final, by simp [run_cons, hmiddle, hfinal], ?_, ?_⟩
  · rw [step_allocations hfinal, step_allocations hmiddle]
    rfl
  · obtain ⟨-, globals, pool, result, hperform, rfl⟩ := step_cases hfinal
    simp only [perform, ChannelPool.freeChannel_mapped hlookup, Option.some.injEq,
      Prod.mk.injEq] at hperform
    obtain ⟨rfl, rfl, rfl⟩ := hperform
    have hfreed := (heffect.valid.freed middle.globals middle.allocations hreturned hlookup).valid
    simp only [List.nil_append, List.erase_cons_head] at hfreed
    exact ⟨_, _, by simpa using hfreed⟩

theorem exists_run_alloc_free (mem : Nat → Ref → Channel) (count : Nat) :
    ∃ calls process, run step (initial mem) calls = some process ∧
      process.allocations = count ∧ ∃ free loose, (process.pools 0).Valid [] free loose := by
  induction count with
  | zero => exact ⟨[], initial mem, rfl, rfl, [], [], Tracked.valid_new (mem 0)⟩
  | succ count ih =>
      obtain ⟨calls, process, hrun, hcount, free, loose, hvalid⟩ := ih
      obtain ⟨channel, final, hpair, hfinal, hempty⟩ := step_alloc_free hvalid
      refine ⟨calls ++ [(0, .allocChannel), (0, .freeChannel (some channel))], final, ?_, ?_,
        hempty⟩
      · rw [run_append, hrun]
        exact hpair
      · rw [hfinal, hcount]

/-- After `2 ^ 28 - 1` channels were allocated and freed one by one, the next
two allocations, both in use, receive the identifier 1. -/
theorem exists_duplicate_id : ∃ calls process next channel,
    run step (initial zeroMemory) calls = some process ∧
    process.step (0, .allocChannel) = some next ∧
    channel = ((process.pools 0).pool.allocChannel process.globals).2.2 ∧
    (∀ other ∈ (process.pools 0).pool.useSequence,
      process.allocations - (process.pools 0).born other < 2 ^ 28 - 1) ∧
    ∃ other ∈ (next.pools 0).pool.useSequence, other ≠ channel ∧
      (next.pools 0).pool.id other = (next.pools 0).pool.id channel := by
  obtain ⟨calls, start, hstart, hcount, free, loose, hvalid⟩ :=
    exists_run_alloc_free zeroMemory (2 ^ 28 - 1)
  obtain ⟨process, hprocess⟩ : ∃ process, start.step (0, .allocChannel) = some process :=
    exists_step hvalid trivial
  have hrun := run_concat hstart hprocess
  obtain ⟨use, free', loose', hvalid', -⟩ := (reachable_sound hrun).pools 0
  obtain ⟨next, hnext⟩ : ∃ next, process.step (0, .allocChannel) = some next :=
    exists_step hvalid' trivial
  refine ⟨_, process, next, _, hrun, hnext, rfl, ?_⟩
  obtain ⟨before, hbefore, hone, -, hid, hborn, -⟩ :=
    step_allocChannel_ids (reachable_sound hstart) hprocess rfl
  obtain ⟨inUse, hinUse, hinUse', hfresh, hid', -, hothers⟩ :=
    step_allocChannel_ids (reachable_sound hrun) hnext rfl
  rw [hvalid.useSequence_eq] at hbefore
  rw [← hbefore, List.nil_append, hinUse] at hone
  subst hone
  generalize ((start.pools 0).pool.allocChannel start.globals).2.2 = first at *
  have hallocations : process.allocations = 2 ^ 28 := by
    rw [step_allocations hprocess, hcount]
    rfl
  refine ⟨?_, first, by simp [hinUse'], ?_, ?_⟩
  · rw [hinUse]
    simp [hborn, hcount, hallocations]
  · rintro rfl
    exact hfresh (List.mem_singleton_self _)
  · rw [hid', (hothers first (List.mem_singleton_self _)).1, hid, hcount, hallocations]
    rfl

end Process

end Wnet
