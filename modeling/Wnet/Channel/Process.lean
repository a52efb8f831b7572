import Wnet.Channel.Operations
import Wnet.Foundation.Run

/-!
# Runs of calls on the pools of a process

The pools of a process share `globalChannelId_`. A run is a list of calls, each
on one of the pools. Callers are trusted only as far as the pool has to trust
them: a channel is freed only if the pool returned it at some time, and it is
given back through `AppendChannel` or `AppendFreeList` only while it is in the
hands of a caller. `Tracked` records what the callers know; the pool itself
never reads these records.
-/

namespace Wnet

open Foundation

inductive PoolCall
  | allocChannel
  | freeChannel (channel : Option Ref)
  | appendChannel (channel : Ref)
  | offerChannel (id : UInt32)
  | getTimeoutList (now : Int)
  | appendFreeList (addList : Option Ref)
  | setExpireTime (channel : Option Ref) (now : Int)
  deriving DecidableEq, Repr

inductive PoolResult
  | channel (channel : Option Ref)
  | flag (value : Bool)
  | unit
  deriving DecidableEq, Repr

/-- Execute one call; `none` when it does not return. -/
def perform (globals : Globals) (pool : ChannelPool) :
    PoolCall → Option (Globals × ChannelPool × PoolResult)
  | .allocChannel =>
      let (globals, pool, channel) := pool.allocChannel globals
      some (globals, pool, .channel (some channel))
  | .freeChannel channel =>
      some (globals, (pool.freeChannel channel).1, .flag (pool.freeChannel channel).2)
  | .appendChannel channel =>
      some (globals, (pool.appendChannel channel).1, .flag (pool.appendChannel channel).2)
  | .offerChannel id =>
      some (globals, (pool.offerChannel id).1, .channel (pool.offerChannel id).2)
  | .getTimeoutList now =>
      (pool.getTimeoutList now).map fun outcome => (globals, outcome.1, .channel outcome.2)
  | .appendFreeList addList =>
      (pool.appendFreeList addList).map fun outcome => (globals, outcome.1, .flag outcome.2)
  | .setExpireTime channel now => some (globals, pool.setExpireTime channel now, .unit)

/-- The channels in use, in the order of the use list. -/
def ChannelPool.useSequence (pool : ChannelPool) : List Ref :=
  follow pool.next pool.channelCount pool.useListHead

/-- A pool with what its callers know of it: the lists they detached and have
not given back, the channels they ever received from `AllocChannel`, and how
many channels the process had allocated when each was last allocated. -/
structure Tracked where
  pool : ChannelPool
  detached : List (List Ref)
  returned : List Ref
  born : Ref → Nat

namespace Tracked

def new (mem : Ref → Channel) : Tracked := ⟨.new mem, [], [], fun _ => 0⟩

/-- What the caller of a pool operation has to respect. -/
def Legal (tracked : Tracked) : PoolCall → Prop
  | .allocChannel => True
  | .freeChannel channel => ∀ held ∈ channel, held ∈ tracked.returned
  | .appendChannel channel => [channel] ∈ tracked.detached
  | .offerChannel _ => True
  | .getTimeoutList _ => True
  | .appendFreeList addList =>
      ∀ head ∈ addList, ∃ chain ∈ tracked.detached, chain.head? = some head
  | .setExpireTime channel _ => ∀ held ∈ channel, held ∈ tracked.returned

instance (tracked : Tracked) (call : PoolCall) : Decidable (tracked.Legal call) :=
  match call with
  | .allocChannel => inferInstanceAs (Decidable True)
  | .freeChannel channel => inferInstanceAs (Decidable (∀ held ∈ channel, held ∈ _))
  | .appendChannel _ => inferInstanceAs (Decidable (_ ∈ _))
  | .offerChannel _ => inferInstanceAs (Decidable True)
  | .getTimeoutList _ => inferInstanceAs (Decidable True)
  | .appendFreeList addList =>
      inferInstanceAs
        (Decidable (∀ head ∈ addList, ∃ chain ∈ tracked.detached, chain.head? = some head))
  | .setExpireTime channel _ => inferInstanceAs (Decidable (∀ held ∈ channel, held ∈ _))

/-- The records after a call that left `pool` and returned a result. -/
def after (tracked : Tracked) (allocations : Nat) (pool : ChannelPool) :
    PoolCall → PoolResult → Tracked
  | .allocChannel, .channel (some channel) =>
      { tracked with
        pool := pool
        returned := channel :: tracked.returned
        born := Function.update tracked.born channel allocations }
  | .freeChannel (some channel), .flag true =>
      { tracked with pool := pool, detached := tracked.detached.map (·.erase channel) }
  | .appendChannel channel, _ =>
      { tracked with pool := pool, detached := tracked.detached.erase [channel] }
  | .offerChannel _, .channel (some channel) =>
      { tracked with pool := pool, detached := [channel] :: tracked.detached }
  | .getTimeoutList _, .channel list =>
      { tracked with
        pool := pool
        detached := follow pool.next pool.channelCount list :: tracked.detached }
  | .appendFreeList (some addList), _ =>
      { tracked with
        pool := pool
        detached := tracked.detached.erase
          (follow tracked.pool.next tracked.pool.channelCount (some addList)) }
  | _, _ => { tracked with pool := pool }

@[simp] theorem after_pool (tracked : Tracked) (allocations : Nat) (pool : ChannelPool)
    (call : PoolCall) (result : PoolResult) :
    (tracked.after allocations pool call result).pool = pool := by
  unfold after
  split <;> rfl

end Tracked

/-- All pools of a process and the number of `AllocChannel` calls on them so far. -/
structure Process where
  globals : Globals
  allocations : Nat
  pools : Nat → Tracked

namespace Process

def initial (mem : Nat → Ref → Channel) : Process :=
  ⟨.initial, 0, fun index => .new (mem index)⟩

/-- Memory before the first allocation, for concrete runs. -/
def zeroMemory : Nat → Ref → Channel := fun _ _ => ⟨0, none, none, 0, none, none⟩

def allocationCost : PoolCall → Nat
  | .allocChannel => 1
  | _ => 0

/-- One call on one pool. -/
def step (process : Process) (label : Nat × PoolCall) : Option Process :=
  let tracked := process.pools label.1
  if tracked.Legal label.2 then
    (perform process.globals tracked.pool label.2).map fun (globals, pool, result) =>
      { globals := globals
        allocations := process.allocations + allocationCost label.2
        pools := Function.update process.pools label.1
          (tracked.after process.allocations pool label.2 result) }
  else none

end Process

/-! ## What one call does to a pool and its records -/

namespace Tracked

/-- The channels in use and those in the hands of callers. -/
def live (tracked : Tracked) (use : List Ref) : List Ref := use ++ tracked.detached.flatten

/-- A pool with lists `use` and `free`, whose other returned channels carry no identifier. -/
structure Valid (tracked : Tracked) (use free loose : List Ref) : Prop where
  layout : tracked.pool.Layout use free tracked.detached loose
  returnedLt : ∀ channel ∈ tracked.returned, channel < tracked.pool.channelCount
  liveReturned : ∀ channel ∈ tracked.live use, channel ∈ tracked.returned
  cleared : ∀ channel ∈ tracked.returned, channel ∉ tracked.live use →
    tracked.pool.id channel = 0

theorem valid_new (mem : Ref → Channel) : (new mem).Valid [] [] [] where
  layout := ChannelPool.layout_new mem
  returnedLt := by simp [new]
  liveReturned := by simp [new, live]
  cleared := by simp [new]

/-- The sequence of channels in use after a call, by its result. -/
def sequenceAfter (pool : ChannelPool) (use : List Ref) : PoolCall → PoolResult → List Ref
  | .allocChannel, .channel (some channel) => use ++ [channel]
  | .freeChannel (some channel), .flag true => use.erase channel
  | .offerChannel _, .channel (some channel) => use.erase channel
  | .getTimeoutList now, _ => pool.unexpired now use
  | _, _ => use

/-- Every channel in use is found in the map under its identifier. -/
def MapComplete (pool : ChannelPool) (use : List Ref) : Prop :=
  ∀ channel ∈ use, pool.useMap.lookup (pool.id channel) = some channel

/-- No two live channels share an identifier. -/
def DistinctIds (tracked : Tracked) (use : List Ref) : Prop :=
  ∀ first ∈ tracked.live use, ∀ second ∈ tracked.live use,
    tracked.pool.id first = tracked.pool.id second → first = second

/-- What a call preserves and what it adds. -/
structure Effect (globals : Globals) (allocations : Nat) (tracked : Tracked)
    (use free loose : List Ref) (call : PoolCall) (globals' : Globals) (tracked' : Tracked)
    (result : PoolResult) (use' free' loose' : List Ref) : Prop where
  valid : tracked'.Valid use' free' loose'
  counter : globals'.globalChannelId = match call with
    | .allocChannel => (ChannelPool.nextChannelId globals.globalChannelId).2
    | _ => globals.globalChannelId
  kept : ∀ channel ∈ tracked'.live use',
    (channel ∈ tracked.live use ∧ tracked'.pool.id channel = tracked.pool.id channel ∧
      tracked'.born channel = tracked.born channel) ∨
    (call = .allocChannel ∧ result = .channel (some channel) ∧
      tracked'.pool.id channel = (ChannelPool.nextChannelId globals.globalChannelId).1 ∧
      tracked'.born channel = allocations)
  complete : DistinctIds tracked use →
    (call = .allocChannel → ∀ channel ∈ use,
      tracked.pool.id channel ≠ (ChannelPool.nextChannelId globals.globalChannelId).1) →
    MapComplete tracked.pool use → MapComplete tracked'.pool use'
  whole : (∀ addList, call ≠ .appendFreeList (some addList)) → loose = [] →
    tracked.pool.freeListTail = free.getLast? →
    loose' = [] ∧ tracked'.pool.freeListTail = free'.getLast?

section Calls

variable {tracked : Tracked} {use free loose : List Ref}

theorem Effect.refl (globals : Globals) (allocations : Nat) {call : PoolCall}
    {result : PoolResult} (hvalid : tracked.Valid use free loose)
    (hcall : call ≠ .allocChannel) :
    Effect globals allocations tracked use free loose call globals tracked result
      use free loose where
  valid := hvalid
  counter := by cases call <;> simp_all
  kept := fun _ hmem => Or.inl ⟨hmem, rfl, rfl⟩
  complete := fun _ _ hcomplete => hcomplete
  whole := fun _ hloose htail => ⟨hloose, htail⟩

theorem Valid.allocChannel (globals : Globals) (allocations : Nat)
    (hvalid : tracked.Valid use free loose) :
    ∃ free', Effect globals allocations tracked use free loose .allocChannel
      (tracked.pool.allocChannel globals).1
      (tracked.after allocations (tracked.pool.allocChannel globals).2.1 .allocChannel
        (.channel (some (tracked.pool.allocChannel globals).2.2)))
      (.channel (some (tracked.pool.allocChannel globals).2.2))
      (use ++ [(tracked.pool.allocChannel globals).2.2]) free' loose := by
  have hspec := ChannelPool.allocChannel_spec globals hvalid.layout
  generalize tracked.pool.allocChannel globals = outcome at hspec ⊢
  obtain ⟨globals', pool', channel⟩ := outcome
  obtain ⟨free', hlayout, -, htail⟩ := hspec.layout
  have hnew : channel ∉ tracked.live use := by
    simp only [live, List.mem_append, List.mem_flatten, not_or, not_exists, not_and]
    exact hspec.fresh
  have hothers : ∀ other ∈ tracked.returned, other ≠ channel →
      pool'.id other = tracked.pool.id other := by
    intro other hother hne
    rw [ChannelPool.id_eq_content, ChannelPool.id_eq_content,
      hspec.others other hne (hvalid.returnedLt other hother)]
  have hid : pool'.id channel = (ChannelPool.nextChannelId globals.globalChannelId).1 := by
    rw [ChannelPool.id_eq_content, hspec.content]
    rfl
  refine ⟨free', ⟨hlayout, ?_, ?_, ?_⟩, hspec.counter, ?_, ?_, ?_⟩
  · intro other hother
    rcases List.mem_cons.mp hother with rfl | hother
    · exact hlayout.lt_channelCount (by simp)
    · exact lt_of_lt_of_le (hvalid.returnedLt other hother) hspec.grows
  · intro other hother
    simp only [live, after, List.mem_append, List.mem_singleton] at hother
    rcases hother with (hother | rfl) | hother
    · exact List.mem_cons_of_mem _ (hvalid.liveReturned other (List.mem_append_left _ hother))
    · exact List.mem_cons_self
    · exact List.mem_cons_of_mem _ (hvalid.liveReturned other (List.mem_append_right _ hother))
  · intro other hother hdead
    simp only [live, after, List.mem_append, List.mem_singleton, not_or] at hdead
    have hreturned : other ∈ tracked.returned :=
      (List.mem_cons.mp hother).resolve_left hdead.1.2
    rw [← hvalid.cleared other hreturned (by simp [live, hdead.1.1, hdead.2])]
    exact hothers other hreturned hdead.1.2
  · intro other hother
    simp only [live, after, List.mem_append, List.mem_singleton] at hother
    by_cases hsame : other = channel
    · subst hsame
      exact Or.inr ⟨rfl, rfl, hid, by simp [after]⟩
    · have hlive : other ∈ tracked.live use := by
        simp only [live, List.mem_append]
        tauto
      exact Or.inl ⟨hlive, hothers other (hvalid.liveReturned other hlive) hsame,
        by simp [after, hsame]⟩
  · intro _ hfresh hcomplete other hother
    change pool'.useMap.lookup (pool'.id other) = some other
    rw [hspec.useMap]
    rcases List.mem_append.mp hother with hother | hother
    · have hreturned := hvalid.liveReturned other (List.mem_append_left _ hother)
      rw [hothers other hreturned (fun h => hnew (h ▸ List.mem_append_left _ hother)),
        AList.lookup_insert_ne (hfresh rfl other hother)]
      exact hcomplete other hother
    · obtain rfl := List.mem_singleton.mp hother
      rw [hid, AList.lookup_insert]
  · intro _ hloose htail'
    exact ⟨hloose, htail htail'⟩

theorem map_erase_of_not_mem {chains : List (List Ref)} {channel : Ref}
    (hnot : ∀ chain ∈ chains, channel ∉ chain) : chains.map (·.erase channel) = chains := by
  conv_rhs => rw [← List.map_id chains]
  exact List.map_congr_left fun chain hchain => List.erase_of_not_mem (hnot chain hchain)

theorem erase_split {before rest : List Ref} {channel : Ref}
    (hnodup : (before ++ channel :: rest).Nodup) :
    (before ++ channel :: rest).erase channel = before ++ rest := by
  have hnot : channel ∉ before := by
    intro hmem
    exact (List.nodup_append.mp hnodup).2.2 channel hmem channel (by simp) rfl
  rw [List.erase_append_right _ hnot, List.erase_cons_head]

/-- The channel whose identifier `FreeChannel` finds in the map moves to the end of the
free list, be it in use or (after the identifiers wrapped) in the hands of a caller. -/
theorem Valid.freed_layout (hvalid : tracked.Valid use free loose) {channel owner : Ref}
    (hreturned : channel ∈ tracked.returned)
    (hlookup : tracked.pool.useMap.lookup (tracked.pool.id channel) = some owner) :
    (tracked.pool.freed channel).Layout (use.erase channel)
      (tracked.pool.keptFree free ++ [channel]) (tracked.detached.map (·.erase channel))
      (tracked.pool.droppedFree free ++ loose) := by
  have hid := (hvalid.layout.mapSound _ _ hlookup).2.2
  have hlive : channel ∈ tracked.live use := by
    by_contra hdead
    exact hid (hvalid.cleared channel hreturned hdead)
  have hlayout := hvalid.layout
  have hnodup := hlayout.nodup
  rcases List.mem_append.mp hlive with huse | hheld
  · obtain ⟨-, hapart, -⟩ := hlayout.apart_use huse
    obtain ⟨before, rest, rfl⟩ := List.append_of_mem huse
    rw [map_erase_of_not_mem hapart, erase_split hlayout.useNext.nodup]
    exact hlayout.freed_use
  · obtain ⟨chain, hchain, hmem⟩ := List.mem_flatten.mp hheld
    have hnotUse : channel ∉ use := fun huse => (hlayout.apart_use huse).2.1 chain hchain hmem
    obtain ⟨before, rest, rfl⟩ := List.append_of_mem hmem
    obtain ⟨chains, chains', hsplit⟩ := List.append_of_mem hchain
    rw [hsplit] at hlayout hnodup ⊢
    have hothers : ∀ chain ∈ chains ++ chains', channel ∉ chain := by
      intro other hother hmem'
      have hcount := List.nodup_iff_count_le_one.mp hnodup channel
      have hself : (before ++ channel :: rest).count channel ≥ 1 :=
        List.count_pos_iff.mpr hmem
      have hflat : (chains.flatten ++ chains'.flatten).count channel ≥ 1 := by
        rw [← List.flatten_append]
        exact List.count_pos_iff.mpr (List.mem_flatten.mpr ⟨other, hother, hmem'⟩)
      simp only [List.flatten_append, List.flatten_cons, List.count_append] at hcount hflat hself
      omega
    rw [List.erase_of_not_mem hnotUse, List.map_append, List.map_cons,
      map_erase_of_not_mem (fun chain h => hothers chain (List.mem_append_left _ h)),
      map_erase_of_not_mem (fun chain h => hothers chain (List.mem_append_right _ h)),
      erase_split (hlayout.detachedNext _ (by simp)).nodup]
    exact hlayout.freed_detached

theorem mem_live_erase {channel other : Ref} (hvalid : tracked.Valid use free loose) :
    other ∈ use.erase channel ++ (tracked.detached.map (·.erase channel)).flatten ↔
      other ∈ tracked.live use ∧ other ≠ channel := by
  have hchains : ∀ chain ∈ tracked.detached,
      (other ∈ chain.erase channel ↔ other ≠ channel ∧ other ∈ chain) := by
    intro chain hchain
    exact (hvalid.layout.detachedNext chain hchain).nodup.mem_erase_iff
  simp only [live, List.mem_append, hvalid.layout.useNext.nodup.mem_erase_iff, List.mem_flatten,
    List.mem_map, exists_exists_and_eq_and]
  constructor
  · rintro (⟨hne, huse⟩ | ⟨chain, hchain, hmem⟩)
    · exact ⟨Or.inl huse, hne⟩
    · obtain ⟨hne, hmem⟩ := (hchains chain hchain).mp hmem
      exact ⟨Or.inr ⟨chain, hchain, hmem⟩, hne⟩
  · rintro ⟨huse | ⟨chain, hchain, hmem⟩, hne⟩
    · exact Or.inl ⟨hne, huse⟩
    · exact Or.inr ⟨chain, hchain, (hchains chain hchain).mpr ⟨hne, hmem⟩⟩

/-- The calls other than `AllocChannel` move channels between the lists and
clear those, `gone`, that go back to the free list. -/
theorem Valid.move (globals : Globals) (allocations : Nat) (gone : List Ref)
    (hvalid : tracked.Valid use free loose) {call : PoolCall} {result : PoolResult}
    {pool' : ChannelPool} {detached' : List (List Ref)} {use' free' loose' : List Ref}
    (hcall : call ≠ .allocChannel) (hlayout : pool'.Layout use' free' detached' loose')
    (hcount : pool'.channelCount = tracked.pool.channelCount)
    (hids : ∀ channel, pool'.id channel = if channel ∈ gone then 0 else tracked.pool.id channel)
    (hlive : ∀ channel, channel ∈ use' ++ detached'.flatten ↔
      channel ∈ tracked.live use ∧ channel ∉ gone)
    (hcomplete : DistinctIds tracked use → MapComplete tracked.pool use →
      ∀ channel ∈ use', pool'.useMap.lookup (tracked.pool.id channel) = some channel)
    (hwhole : (∀ addList, call ≠ .appendFreeList (some addList)) → loose = [] →
      tracked.pool.freeListTail = free.getLast? →
      loose' = [] ∧ pool'.freeListTail = free'.getLast?) :
    Effect globals allocations tracked use free loose call globals
      { tracked with pool := pool', detached := detached' } result use' free' loose' := by
  have hsame : ∀ channel ∈ use' ++ detached'.flatten,
      pool'.id channel = tracked.pool.id channel := by
    intro channel hmem
    rw [hids, if_neg ((hlive channel).mp hmem).2]
  refine ⟨⟨hlayout, ?_, ?_, ?_⟩, ?_, ?_, ?_, hwhole⟩
  · intro channel hreturned
    exact hcount ▸ hvalid.returnedLt channel hreturned
  · intro channel hmem
    exact hvalid.liveReturned channel ((hlive channel).mp hmem).1
  · intro channel hreturned hdead
    change pool'.id channel = 0
    rw [hids]
    split
    · rfl
    next hgone =>
      refine hvalid.cleared channel hreturned fun hmem => hdead ?_
      exact (hlive channel).mpr ⟨hmem, hgone⟩
  · cases call <;> simp_all
  · intro channel hmem
    exact Or.inl ⟨((hlive channel).mp hmem).1, hsame channel hmem, rfl⟩
  · intro hunique _ hmap channel hmem
    change pool'.useMap.lookup (pool'.id channel) = some channel
    rw [hsame channel (List.mem_append_left _ hmem)]
    exact hcomplete hunique hmap channel hmem

theorem Valid.mem_live_of_lookup (hvalid : tracked.Valid use free loose) {channel owner : Ref}
    (hreturned : channel ∈ tracked.returned)
    (hlookup : tracked.pool.useMap.lookup (tracked.pool.id channel) = some owner) :
    channel ∈ tracked.live use := by
  by_contra hdead
  exact (hvalid.layout.mapSound _ _ hlookup).2.2 (hvalid.cleared channel hreturned hdead)

theorem Valid.freed (globals : Globals) (allocations : Nat)
    (hvalid : tracked.Valid use free loose) {channel owner : Ref}
    (hreturned : channel ∈ tracked.returned)
    (hlookup : tracked.pool.useMap.lookup (tracked.pool.id channel) = some owner) :
    Effect globals allocations tracked use free loose (.freeChannel (some channel)) globals
      (tracked.after allocations (tracked.pool.freed channel) (.freeChannel (some channel))
        (.flag true))
      (.flag true) (use.erase channel) (tracked.pool.keptFree free ++ [channel])
      (tracked.pool.droppedFree free ++ loose) := by
  refine hvalid.move globals allocations [channel] (by simp)
    (hvalid.freed_layout hreturned hlookup) (tracked.pool.freed_channelCount channel) ?_ ?_ ?_ ?_
  · intro other
    rw [ChannelPool.id_eq_content, ChannelPool.id_eq_content, ChannelPool.freed_content]
    by_cases hsame : other = channel
    · simp [hsame, Channel.clear]
    · simp [hsame]
  · intro other
    simpa using mem_live_erase hvalid
  · intro hunique hcomplete other hother
    have hmem := (mem_live_erase hvalid).mp (List.mem_append_left _ hother)
    rw [ChannelPool.freed_useMap, AList.lookup_erase_ne]
    · exact hcomplete other (List.mem_of_mem_erase hother)
    · intro hids
      exact hmem.2 (hunique other hmem.1 channel (hvalid.mem_live_of_lookup hreturned hlookup) hids)
  · intro _ hloose htail
    obtain ⟨-, hdropped⟩ := ChannelPool.keptFree_of_tail htail
    refine ⟨by rw [hdropped, hloose, List.append_nil], ?_⟩
    simp [ChannelPool.freed_freeListTail]

theorem Valid.offered (globals : Globals) (allocations : Nat)
    (hvalid : tracked.Valid use free loose) {channel : Ref} {id : UInt32}
    (hlookup : tracked.pool.useMap.lookup id = some channel) :
    Effect globals allocations tracked use free loose (.offerChannel id) globals
      (tracked.after allocations (tracked.pool.offered id channel) (.offerChannel id)
        (.channel (some channel)))
      (.channel (some channel)) (use.erase channel) free loose := by
  obtain ⟨huse, hid, -⟩ := hvalid.layout.mapSound _ _ hlookup
  have hnodup := hvalid.layout.useNext.nodup
  have hlayout : (tracked.pool.offered id channel).Layout (use.erase channel) free
      ([channel] :: tracked.detached) loose := by
    have hlayout := hvalid.layout
    obtain ⟨before, rest, rfl⟩ := List.append_of_mem huse
    rw [erase_split hnodup]
    exact hlayout.offered hid
  refine hvalid.move globals allocations [] (by simp) hlayout
    (tracked.pool.offered_channelCount id channel) ?_ ?_ ?_ ?_
  · intro other
    simp [ChannelPool.id_eq_content, ChannelPool.offered_content]
  · intro other
    simp only [live, List.mem_append, hnodup.mem_erase_iff, List.flatten_cons,
      List.mem_singleton, List.not_mem_nil, not_false_eq_true, and_true]
    by_cases hsame : other = channel
    · simp [hsame, huse]
    · simp [hsame]
  · intro hunique hcomplete other hother
    obtain ⟨hne, hmem⟩ := hnodup.mem_erase_iff.mp hother
    rw [ChannelPool.offered_useMap, AList.lookup_erase_ne]
    · exact hcomplete other hmem
    · intro hids
      exact hne (hunique other (List.mem_append_left _ hmem) channel
        (List.mem_append_left _ huse) (hids.trans hid.symm))
  · intro _ hloose htail
    exact ⟨hloose, (tracked.pool.offered_freeListTail id channel).trans htail⟩

theorem Valid.getTimeoutList (globals : Globals) (allocations : Nat) (now : Int)
    (hvalid : tracked.Valid use free loose) :
    ∃ pool' list, tracked.pool.getTimeoutList now = some (pool', list) ∧
      ChannelPool.TimeoutSpec tracked.pool now use free tracked.detached loose pool' list ∧
      Effect globals allocations tracked use free loose (.getTimeoutList now) globals
        (tracked.after allocations pool' (.getTimeoutList now) (.channel list))
        (.channel list) (tracked.pool.unexpired now use) free loose := by
  obtain ⟨pool', list, hcall, hspec⟩ := ChannelPool.getTimeoutList_spec now hvalid.layout
  have hfollow : follow pool'.next pool'.channelCount list = tracked.pool.expired now use := by
    rw [hspec.result]
    exact (hspec.layout.detachedNext _ (by simp)).follow_eq
      (hspec.layout.length_le_of_detached (by simp))
  refine ⟨pool', list, hcall, hspec, ?_⟩
  rw [after, hfollow]
  have hsplit := tracked.pool.expired_append_unexpired now use
  have hnodup := hvalid.layout.useNext.nodup
  rw [← hsplit] at hnodup
  refine hvalid.move globals allocations [] (by simp) hspec.layout hspec.channelCount ?_ ?_ ?_ ?_
  · intro channel
    simp [ChannelPool.id_eq_content, hspec.content]
  · intro channel
    have huse : channel ∈ use ↔ channel ∈ tracked.pool.expired now use ∨
        channel ∈ tracked.pool.unexpired now use := by
      rw [← List.mem_append, hsplit]
    simp only [live, List.flatten_cons, List.mem_append, huse, List.not_mem_nil,
      not_false_eq_true, and_true]
    tauto
  · intro hunique hcomplete channel hmem
    have huse : channel ∈ use := hsplit ▸ List.mem_append_right _ hmem
    rw [hspec.useMap, ChannelPool.lookup_eraseIds, if_neg]
    · exact hcomplete channel huse
    · rintro ⟨other, hother, hids⟩
      have hotherUse : other ∈ use := hsplit ▸ List.mem_append_left _ hother
      obtain rfl := hunique other (List.mem_append_left _ hotherUse) channel
        (List.mem_append_left _ huse) hids
      exact (List.nodup_append.mp hnodup).2.2 other hother other hmem rfl
  · intro _ hloose htail
    exact ⟨hloose, hspec.freeListTail.trans htail⟩

theorem mem_flatten_erase (hvalid : tracked.Valid use free loose) {chain : List Ref}
    (hchain : chain ∈ tracked.detached) (channel : Ref) :
    channel ∈ use ++ (tracked.detached.erase chain).flatten ↔
      channel ∈ tracked.live use ∧ channel ∉ chain := by
  have hrelease := hvalid.layout.release hchain
  have hperm : (chain ++ (tracked.detached.erase chain).flatten).Perm tracked.detached.flatten :=
    (List.perm_cons_erase hchain).flatten.symm
  simp only [live, List.mem_append, ← hperm.mem_iff]
  constructor
  · rintro (huse | hheld)
    · exact ⟨Or.inl huse, (hvalid.layout.apart_use huse).2.1 chain hchain⟩
    · refine ⟨Or.inr (Or.inr hheld), fun hmem => ?_⟩
      obtain ⟨other, hother, hmem'⟩ := List.mem_flatten.mp hheld
      exact (hrelease.apart_loose (List.mem_append_left _ hmem)).2.2 other hother hmem'
  · rintro ⟨huse | hmem | hheld, hnot⟩
    · exact Or.inl huse
    · exact absurd hmem hnot
    · exact Or.inr hheld

theorem Valid.appendChannel (globals : Globals) (allocations : Nat)
    (hvalid : tracked.Valid use free loose) {channel : Ref}
    (hheld : [channel] ∈ tracked.detached) :
    Effect globals allocations tracked use free loose (.appendChannel channel) globals
      (tracked.after allocations (tracked.pool.appendChannel channel).1 (.appendChannel channel)
        (.flag true))
      (.flag true) use (tracked.pool.keptFree free ++ [channel])
      (tracked.pool.droppedFree free ++ loose) := by
  refine hvalid.move globals allocations [channel] (by simp) (hvalid.layout.appendChannel hheld)
    (tracked.pool.pushFree_channelCount channel) ?_ ?_ ?_ ?_
  · intro other
    rw [ChannelPool.id_eq_content, ChannelPool.id_eq_content, ChannelPool.appendChannel,
      ChannelPool.pushFree_content]
    by_cases hsame : other = channel
    · simp [hsame, Channel.clear]
    · simp [hsame]
  · exact mem_flatten_erase hvalid hheld
  · intro _ hcomplete
    rw [ChannelPool.appendChannel, (tracked.pool.pushFree_frame channel).1]
    exact hcomplete
  · intro _ hloose htail
    obtain ⟨-, hdropped⟩ := ChannelPool.keptFree_of_tail htail
    refine ⟨by rw [hdropped, hloose, List.append_nil], ?_⟩
    rw [ChannelPool.appendChannel, (tracked.pool.pushFree_frame channel).2.2.2.2.1]
    simp

theorem Valid.appendFreeList (globals : Globals) (allocations : Nat)
    (hvalid : tracked.Valid use free loose) {addList : Ref} {rest : List Ref}
    (hchain : (addList :: rest) ∈ tracked.detached) :
    ∃ pool', tracked.pool.appendFreeList (some addList) = some (pool', true) ∧
      ChannelPool.AppendFreeSpec tracked.pool use free tracked.detached loose (addList :: rest)
        pool' ∧
      Effect globals allocations tracked use free loose (.appendFreeList (some addList)) globals
        (tracked.after allocations pool' (.appendFreeList (some addList)) (.flag true))
        (.flag true) use (tracked.pool.keptFree free ++ addList :: rest)
        (tracked.pool.droppedFree free ++ loose) := by
  obtain ⟨pool', hcall, hspec⟩ := ChannelPool.appendFreeList_spec hvalid.layout hchain
  have hfollow : follow tracked.pool.next tracked.pool.channelCount (some addList) =
      addList :: rest :=
    (hvalid.layout.detachedNext _ hchain).follow_eq (hvalid.layout.length_le_of_detached hchain)
  refine ⟨pool', hcall, hspec, ?_⟩
  rw [after, hfollow]
  refine hvalid.move globals allocations (addList :: rest) (by simp) hspec.layout
    hspec.channelCount ?_ (mem_flatten_erase hvalid hchain) ?_ ?_
  · intro channel
    rw [ChannelPool.id_eq_content, ChannelPool.id_eq_content, hspec.content]
    split <;> rfl
  · intro _ hcomplete
    rw [hspec.useMap]
    exact hcomplete
  · intro hcall
    exact absurd rfl (hcall addList)

theorem Valid.setExpireTime (globals : Globals) (allocations : Nat)
    (hvalid : tracked.Valid use free loose) (channel : Option Ref) (now : Int) :
    Effect globals allocations tracked use free loose (.setExpireTime channel now) globals
      (tracked.after allocations (tracked.pool.setExpireTime channel now)
        (.setExpireTime channel now) .unit)
      .unit use free loose := by
  have hframe : (tracked.pool.setExpireTime channel now).channelCount =
        tracked.pool.channelCount ∧
      (tracked.pool.setExpireTime channel now).useMap = tracked.pool.useMap ∧
      (tracked.pool.setExpireTime channel now).freeListTail = tracked.pool.freeListTail := by
    cases channel <;> exact ⟨rfl, rfl, rfl⟩
  refine hvalid.move globals allocations [] (by simp) (hvalid.layout.setExpireTime channel now)
    hframe.1 ?_ ?_ ?_ ?_
  · intro other
    simp [(tracked.pool.setExpireTime_links channel other now).2.2]
  · simp [live]
  · intro _ hcomplete
    rw [hframe.2.1]
    exact hcomplete
  · intro _ hloose htail
    exact ⟨hloose, hframe.2.2.trans htail⟩

/-- Every call that its caller is allowed to make returns, and has the effect described above. -/
theorem perform_effect (globals : Globals) (allocations : Nat) {call : PoolCall}
    (hvalid : tracked.Valid use free loose) (hlegal : tracked.Legal call) :
    ∃ globals' pool' result free' loose',
      perform globals tracked.pool call = some (globals', pool', result) ∧
      Effect globals allocations tracked use free loose call globals'
        (tracked.after allocations pool' call result) result
        (sequenceAfter tracked.pool use call result) free' loose' := by
  cases call with
  | allocChannel =>
      obtain ⟨free', heffect⟩ := hvalid.allocChannel globals allocations
      exact ⟨_, _, _, free', loose, rfl, heffect⟩
  | freeChannel channel =>
      cases channel with
      | none => exact ⟨_, _, _, free, loose, rfl, .refl globals allocations hvalid (by simp)⟩
      | some channel =>
          cases hlookup : tracked.pool.useMap.lookup (tracked.pool.id channel) with
          | none =>
              refine ⟨globals, tracked.pool, .flag false, free, loose, ?_,
                .refl globals allocations hvalid (by simp)⟩
              rw [perform, ChannelPool.freeChannel_unmapped hlookup]
          | some owner =>
              refine ⟨globals, tracked.pool.freed channel, .flag true, _, _, ?_,
                hvalid.freed globals allocations (hlegal channel rfl) hlookup⟩
              rw [perform, ChannelPool.freeChannel_mapped hlookup]
  | appendChannel channel =>
      exact ⟨_, _, _, _, _, rfl, hvalid.appendChannel globals allocations hlegal⟩
  | offerChannel id =>
      cases hlookup : tracked.pool.useMap.lookup id with
      | none =>
          refine ⟨globals, tracked.pool, .channel none, free, loose, ?_,
            .refl globals allocations hvalid (by simp)⟩
          rw [perform, ChannelPool.offerChannel_unmapped hlookup]
      | some channel =>
          refine ⟨globals, tracked.pool.offered id channel, .channel (some channel), _, _, ?_,
            hvalid.offered globals allocations hlookup⟩
          rw [perform, ChannelPool.offerChannel_mapped hlookup]
  | getTimeoutList now =>
      obtain ⟨pool', list, hcall, -, heffect⟩ := hvalid.getTimeoutList globals allocations now
      refine ⟨globals, pool', .channel list, free, loose, ?_, heffect⟩
      rw [perform, hcall, Option.map_some]
  | appendFreeList addList =>
      cases addList with
      | none => exact ⟨_, _, _, free, loose, rfl, .refl globals allocations hvalid (by simp)⟩
      | some addList =>
          obtain ⟨chain, hchain, hhead⟩ := hlegal addList rfl
          obtain ⟨rest, rfl⟩ := List.head?_eq_some_iff.mp hhead
          obtain ⟨pool', hcall, -, heffect⟩ :=
            hvalid.appendFreeList globals allocations hchain
          refine ⟨globals, pool', .flag true, _, _, ?_, heffect⟩
          rw [perform, hcall, Option.map_some]
  | setExpireTime channel now =>
      exact ⟨_, _, _, free, loose, rfl, hvalid.setExpireTime globals allocations channel now⟩

end Calls

theorem Valid.useSequence_eq {tracked : Tracked} {use free loose : List Ref}
    (hvalid : tracked.Valid use free loose) : tracked.pool.useSequence = use := by
  rw [ChannelPool.useSequence, hvalid.layout.useHead]
  exact hvalid.layout.useNext.follow_eq hvalid.layout.use_length_le

end Tracked

namespace Process

variable {process next : Process} {index : Nat} {call : PoolCall}

/-- What a step does: a legal call that returned, on one pool. -/
theorem step_cases (hstep : process.step (index, call) = some next) :
    (process.pools index).Legal call ∧ ∃ globals pool result,
      perform process.globals (process.pools index).pool call = some (globals, pool, result) ∧
      next = ⟨globals, process.allocations + allocationCost call,
        Function.update process.pools index
          ((process.pools index).after process.allocations pool call result)⟩ := by
  simp only [step] at hstep
  split at hstep
  next hlegal =>
    obtain ⟨⟨globals, pool, result⟩, hperform, hnext⟩ := Option.map_eq_some_iff.mp hstep
    exact ⟨hlegal, globals, pool, result, hperform, hnext.symm⟩
  next => cases hstep

theorem step_effect {use free loose : List Ref}
    (hvalid : (process.pools index).Valid use free loose)
    (hstep : process.step (index, call) = some next) :
    ∃ result free' loose', Tracked.Effect process.globals process.allocations
      (process.pools index) use free loose call next.globals (next.pools index) result
      (Tracked.sequenceAfter (process.pools index).pool use call result) free' loose' := by
  obtain ⟨hlegal, globals, pool, result, hperform, rfl⟩ := step_cases hstep
  obtain ⟨globals', pool', result', free', loose', hperform', heffect⟩ :=
    Tracked.perform_effect process.globals process.allocations hvalid hlegal
  rw [hperform, Option.some.injEq, Prod.mk.injEq, Prod.mk.injEq] at hperform'
  obtain ⟨rfl, rfl, rfl⟩ := hperform'
  exact ⟨result, free', loose', by simpa using heffect⟩

theorem step_allocChannel {use free loose : List Ref}
    (hvalid : (process.pools index).Valid use free loose)
    (hstep : process.step (index, .allocChannel) = some next) {channel : Ref}
    (hchannel : channel = ((process.pools index).pool.allocChannel process.globals).2.2) :
    (next.pools index).pool = ((process.pools index).pool.allocChannel process.globals).2.1 ∧
    channel ∈ (next.pools index).returned ∧
    ∃ free', Tracked.Effect process.globals process.allocations (process.pools index) use free
      loose .allocChannel next.globals (next.pools index) (.channel (some channel))
      (use ++ [channel]) free' loose := by
  obtain ⟨-, globals, pool, result, hperform, rfl⟩ := step_cases hstep
  obtain ⟨free', heffect⟩ := hvalid.allocChannel process.globals process.allocations
  simp only [perform, Option.some.injEq, Prod.mk.injEq] at hperform
  obtain ⟨rfl, rfl, rfl⟩ := hperform
  subst hchannel
  exact ⟨by simp [Tracked.after], by simp [Tracked.after], free', by simpa using heffect⟩

theorem step_other (hstep : process.step (index, call) = some next) {other : Nat}
    (hother : other ≠ index) : next.pools other = process.pools other := by
  obtain ⟨-, globals, pool, result, -, rfl⟩ := step_cases hstep
  simp [hother]

theorem step_allocations (hstep : process.step (index, call) = some next) :
    next.allocations = process.allocations + allocationCost call := by
  obtain ⟨-, globals, pool, result, -, rfl⟩ := step_cases hstep
  rfl

/-- In a process whose pools are valid, every legal call has a step. -/
theorem exists_step {use free loose : List Ref}
    (hvalid : (process.pools index).Valid use free loose)
    (hlegal : (process.pools index).Legal call) :
    ∃ next, process.step (index, call) = some next := by
  obtain ⟨globals, pool, result, -, -, hperform, -⟩ :=
    Tracked.perform_effect process.globals process.allocations hvalid hlegal
  simp [step, hlegal, hperform]

/-- Every pool is valid in every reachable state. -/
theorem reachable_valid {mem : Nat → Ref → Channel} {calls : List (Nat × PoolCall)}
    (hrun : run step (initial mem) calls = some process) (index : Nat) :
    ∃ use free loose, (process.pools index).Valid use free loose := by
  refine run_invariant (fun process => ∀ index, ∃ use free loose,
    (process.pools index).Valid use free loose) ?_ ?_ hrun index
  · exact fun index => ⟨[], [], [], Tracked.valid_new (mem index)⟩
  · rintro - ⟨index, call⟩ - process next - - hvalid hstep other
    by_cases hother : other = index
    · subst hother
      obtain ⟨use, free, loose, hvalid⟩ := hvalid other
      obtain ⟨result, free', loose', heffect⟩ := step_effect hvalid hstep
      exact ⟨_, free', loose', heffect.valid⟩
    · rw [step_other hstep hother]
      exact hvalid other

end Process

end Wnet
