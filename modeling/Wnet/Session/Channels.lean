import Wnet.Channel.OrderedMap

/-!
# What a session relies on of its pool

A session never looks at the links of its channels, except along a list that it
detached. `Serving` hides the layout of the pool behind the channels in use and
the detached lists, and states what every member function does to these and to
the contents of the channels. Identifiers have not wrapped.
-/

namespace Wnet

open Foundation ChannelPool

/-- Every `AllocChannel` of the process moves the counter, whatever its pool is like. -/
theorem ChannelPool.allocChannel_counter (pool : ChannelPool) (globals : Globals) :
    (pool.allocChannel globals).1.globalChannelId = (nextChannelId globals.globalChannelId).2 := by
  unfold allocChannel
  cases pool.freeListHead <;> rfl

theorem ChannelPool.modify_content (pool : ChannelPool) (channel other : Ref)
    (change : Channel → Channel) :
    (pool.modify channel change).content other =
      if other = channel then (change (pool.mem other)).content else pool.content other := by
  by_cases hsame : other = channel <;>
    simp [content, modify, hsame]

/-- The pool of a process with `allocations` allocations so far, with the channels
`use` in use and the lists `detached` in the hands of callers. -/
structure Serving (pool : ChannelPool) (allocations : Nat) (use : List Ref)
    (detached : List (List Ref)) : Prop where
  valid : ∃ returned born free loose,
    Tracked.Valid ⟨pool, detached, returned, born⟩ use free loose ∧
    Tracked.Numbered ⟨pool, detached, returned, born⟩ allocations use
  complete : Tracked.MapComplete pool use

namespace Serving

variable {pool : ChannelPool} {allocations : Nat} {use : List Ref} {detached : List (List Ref)}

theorem new (mem : Ref → Channel) : Serving (.new mem) 0 [] [] where
  valid := ⟨[], fun _ => 0, [], [], Tracked.valid_new mem, by simp [Tracked.live],
    by simp [Tracked.live], by simp [Tracked.live]⟩
  complete := by simp [Tracked.MapComplete]

theorem mono (hserving : Serving pool allocations use detached) {later : Nat}
    (hle : allocations ≤ later) : Serving pool later use detached := by
  obtain ⟨returned, born, free, loose, hvalid, hnumbered⟩ := hserving.valid
  exact ⟨⟨returned, born, free, loose, hvalid, hnumbered.mono hle⟩, hserving.complete⟩

/-- Every live channel carries an identifier that was handed out. -/
theorem issued (hserving : Serving pool allocations use detached) {channel : Ref}
    (hmem : channel ∈ use ∨ ∃ chain ∈ detached, channel ∈ chain) :
    ∃ count < allocations, pool.id channel = idAt count := by
  obtain ⟨returned, born, free, loose, -, hnumbered⟩ := hserving.valid
  have hlive : channel ∈ Tracked.live ⟨pool, detached, returned, born⟩ use := by
    simpa [Tracked.live] using hmem
  exact ⟨born channel, hnumbered.bornLt channel hlive, hnumbered.id channel hlive⟩

theorem nodup (hserving : Serving pool allocations use detached) : use.Nodup := by
  obtain ⟨returned, born, free, loose, hvalid, -⟩ := hserving.valid
  exact hvalid.layout.useNext.nodup

theorem nodup_chain (hserving : Serving pool allocations use detached) {chain : List Ref}
    (hchain : chain ∈ detached) : chain.Nodup := by
  obtain ⟨returned, born, free, loose, hvalid, -⟩ := hserving.valid
  exact (hvalid.layout.detachedNext chain hchain).nodup

theorem not_mem_chain (hserving : Serving pool allocations use detached) {channel : Ref}
    (hmem : channel ∈ use) {chain : List Ref} (hchain : chain ∈ detached) :
    channel ∉ chain := by
  obtain ⟨returned, born, free, loose, hvalid, -⟩ := hserving.valid
  exact (hvalid.layout.apart_use hmem).2.1 chain hchain

/-- The links along a detached list stay as they are until it is given back. -/
theorem chain_next (hserving : Serving pool allocations use detached) {chain : List Ref}
    (hchain : chain ∈ detached) : Chain pool.next chain none := by
  obtain ⟨returned, born, free, loose, hvalid, -⟩ := hserving.valid
  exact hvalid.layout.detachedNext chain hchain

/-- Following the links from `useListHead_` gives the channels in use. -/
theorem follow_use (hserving : Serving pool allocations use detached) :
    follow pool.next pool.channelCount pool.useListHead = use := by
  obtain ⟨returned, born, free, loose, hvalid, -⟩ := hserving.valid
  rw [hvalid.layout.useHead]
  apply hvalid.layout.useNext.follow_eq
  have hlength := hvalid.layout.partition.length_eq
  simp only [List.length_append, List.length_range] at hlength
  omega

/-- An empty list in the hands of a caller is no list at all. -/
theorem forget_nil (hserving : Serving pool allocations use ([] :: detached)) :
    Serving pool allocations use detached := by
  obtain ⟨returned, born, free, loose, hvalid, hnumbered⟩ := hserving.valid
  have hlayout := hvalid.layout
  refine ⟨⟨returned, born, free, loose, ⟨?_, hvalid.returnedLt, ?_, ?_⟩, ⟨?_, ?_, ?_⟩⟩,
    hserving.complete⟩
  · exact { hlayout with
      detachedNext := fun chain hchain =>
        hlayout.detachedNext chain (List.mem_cons_of_mem _ hchain)
      detachedPrev := fun chain hchain =>
        hlayout.detachedPrev chain (List.mem_cons_of_mem _ hchain) }
  · exact hvalid.liveReturned
  · exact hvalid.cleared
  · exact hnumbered.id
  · exact hnumbered.bornLt
  · exact hnumbered.bornInjective

/-- Following the links from any channel of a detached list gives the rest of the list. -/
theorem follow_chain (hserving : Serving pool allocations use detached) {before after : List Ref}
    (hchain : before ++ after ∈ detached) :
    follow pool.next pool.channelCount after.head? = after := by
  obtain ⟨returned, born, free, loose, hvalid, -⟩ := hserving.valid
  have hafter := (chain_append.mp (hvalid.layout.detachedNext _ hchain)).2
  apply hafter.follow_eq
  have hlength := hvalid.layout.length_le_of_detached hchain
  rw [List.length_append] at hlength
  exact le_trans (Nat.le_add_left _ _) hlength

/-- `useMap_` holds exactly the channels in use, under their identifiers. -/
theorem lookup_iff (hserving : Serving pool allocations use detached) {id : UInt32}
    {channel : Ref} :
    pool.useMap.lookup id = some channel ↔ channel ∈ use ∧ pool.id channel = id := by
  obtain ⟨returned, born, free, loose, hvalid, -⟩ := hserving.valid
  exact (hvalid.orderedMap hserving.complete).map id channel

section Calls

variable (hserving : Serving pool allocations use detached) (hcount : allocations ≤ 2 ^ 28 - 1)
include hserving hcount

theorem id_injective {first second : Ref}
    (hfirst : first ∈ use ∨ ∃ chain ∈ detached, first ∈ chain)
    (hsecond : second ∈ use ∨ ∃ chain ∈ detached, second ∈ chain)
    (hids : pool.id first = pool.id second) : first = second := by
  obtain ⟨returned, born, free, loose, -, hnumbered⟩ := hserving.valid
  apply hnumbered.distinctIds hcount first _ second _ hids
  · simpa [Tracked.live] using hfirst
  · simpa [Tracked.live] using hsecond

/-- A call other than `AllocChannel` with a known effect on valid pools. -/
theorem after {tracked tracked' : Tracked} {free loose use' free' loose' : List Ref}
    {call : PoolCall} {result : PoolResult} (hpool : tracked.pool = pool)
    (hnumbered : tracked.Numbered allocations use) (hcall : call ≠ .allocChannel)
    (heffect : Tracked.Effect ⟨counterAt allocations, 0⟩ allocations tracked use free loose call
      ⟨counterAt allocations, 0⟩ tracked' result use' free' loose') :
    Serving tracked'.pool allocations use' tracked'.detached := by
  have hnumbered' := heffect.numbered rfl hnumbered
  have hcost : Process.allocationCost call = 0 := by
    cases call with
    | allocChannel => exact absurd rfl hcall
    | _ => rfl
  rw [hcost, Nat.add_zero] at hnumbered'
  refine ⟨⟨_, _, free', loose', heffect.valid, hnumbered'⟩, ?_⟩
  apply heffect.complete (hnumbered.distinctIds hcount)
  · exact fun h => absurd h hcall
  · exact hpool ▸ hserving.complete

theorem freeChannel {channel : Ref} (hmem : channel ∈ use) :
    pool.freeChannel (some channel) = (pool.freed channel, true) ∧
    Serving (pool.freed channel) allocations (use.erase channel) detached := by
  obtain ⟨returned, born, free, loose, hvalid, hnumbered⟩ := hserving.valid
  have hlookup := hserving.complete channel hmem
  refine ⟨freeChannel_mapped hlookup, ?_⟩
  have hafter := hserving.after hcount rfl hnumbered (by simp)
    (hvalid.freed ⟨counterAt allocations, 0⟩ allocations
      (hvalid.liveReturned channel (List.mem_append_left _ hmem)) hlookup)
  simpa [Tracked.after, Tracked.map_erase_of_not_mem (hvalid.layout.apart_use hmem).2.1]
    using hafter

theorem offerChannel {channel : Ref} (hmem : channel ∈ use) :
    pool.offerChannel (pool.id channel) = (pool.offered (pool.id channel) channel, some channel) ∧
    Serving (pool.offered (pool.id channel) channel) allocations (use.erase channel)
      ([channel] :: detached) := by
  obtain ⟨returned, born, free, loose, hvalid, hnumbered⟩ := hserving.valid
  have hlookup := hserving.complete channel hmem
  exact ⟨offerChannel_mapped hlookup, hserving.after hcount rfl hnumbered (by simp)
    (hvalid.offered ⟨counterAt allocations, 0⟩ allocations hlookup)⟩

theorem getTimeoutList (now : Int) : ∃ pool',
    pool.getTimeoutList now = some (pool', (pool.expired now use).head?) ∧
    Serving pool' allocations (pool.unexpired now use) (pool.expired now use :: detached) ∧
    ∀ channel, pool'.content channel = pool.content channel := by
  obtain ⟨returned, born, free, loose, hvalid, hnumbered⟩ := hserving.valid
  obtain ⟨pool', list, hcall, hspec, heffect⟩ :=
    hvalid.getTimeoutList ⟨counterAt allocations, 0⟩ allocations now
  have hafter := hserving.after hcount rfl hnumbered (by simp) heffect
  have hfollow : follow pool'.next pool'.channelCount list = pool.expired now use := by
    rw [hspec.result]
    exact (hspec.layout.detachedNext _ List.mem_cons_self).follow_eq
      (hspec.layout.length_le_of_detached List.mem_cons_self)
  rw [Tracked.after, hfollow] at hafter
  exact ⟨pool', hspec.result ▸ hcall, hafter, hspec.content⟩

theorem appendChannel {channel : Ref} (hheld : [channel] ∈ detached) :
    Serving (pool.pushFree channel) allocations use (detached.erase [channel]) := by
  obtain ⟨returned, born, free, loose, hvalid, hnumbered⟩ := hserving.valid
  exact hserving.after hcount rfl hnumbered (by simp)
    (hvalid.appendChannel ⟨counterAt allocations, 0⟩ allocations hheld)

theorem appendFreeList {addList : Ref} {rest : List Ref}
    (hchain : (addList :: rest) ∈ detached) : ∃ pool',
    pool.appendFreeList (some addList) = some (pool', true) ∧
    Serving pool' allocations use (detached.erase (addList :: rest)) ∧
    ∀ channel, pool'.content channel =
      if channel ∈ addList :: rest then (pool.content channel).clear
      else pool.content channel := by
  obtain ⟨returned, born, free, loose, hvalid, hnumbered⟩ := hserving.valid
  obtain ⟨pool', hcall, hspec, heffect⟩ :=
    hvalid.appendFreeList ⟨counterAt allocations, 0⟩ allocations hchain
  have hafter := hserving.after hcount rfl hnumbered (by simp) heffect
  have hfollow : follow pool.next pool.channelCount (some addList) = addList :: rest :=
    hserving.follow_chain (show [] ++ addList :: rest ∈ detached from hchain)
  simp only [Tracked.after, hfollow] at hafter
  exact ⟨pool', hcall, hafter, hspec.content⟩

end Calls

/-- What `AllocChannel` does to a pool that serves a session. -/
structure Allocated (pool : ChannelPool) (globals : Globals) (allocations : Nat) (use : List Ref)
    (detached : List (List Ref)) (globals' : Globals) (pool' : ChannelPool) (channel : Ref) :
    Prop where
  serving : Serving pool' (allocations + 1) (use ++ [channel]) detached
  counter : globals'.globalChannelId = counterAt (allocations + 1)
  notUsed : channel ∉ use
  notHeld : ∀ chain ∈ detached, channel ∉ chain
  content : pool'.content channel = allocatedContent (idAt allocations)
  others : ∀ other, (other ∈ use ∨ ∃ chain ∈ detached, other ∈ chain) →
    pool'.content other = pool.content other

theorem allocChannel (hserving : Serving pool allocations use detached) {globals : Globals}
    (hcounter : globals.globalChannelId = counterAt allocations)
    (hcount : allocations + 1 ≤ 2 ^ 28 - 1) :
    Allocated pool globals allocations use detached (pool.allocChannel globals).1
      (pool.allocChannel globals).2.1 (pool.allocChannel globals).2.2 := by
  obtain ⟨returned, born, free, loose, hvalid, hnumbered⟩ := hserving.valid
  have hspec := allocChannel_spec globals hvalid.layout
  obtain ⟨free', heffect⟩ := hvalid.allocChannel globals allocations
  have hbefore : allocations ≤ 2 ^ 28 - 1 := le_trans (Nat.le_succ _) hcount
  refine ⟨⟨⟨_, _, free', loose, heffect.valid, heffect.numbered hcounter hnumbered⟩, ?_⟩,
    ?_, hspec.fresh.1, hspec.fresh.2, ?_, ?_⟩
  · refine heffect.complete (hnumbered.distinctIds hbefore) ?_ hserving.complete
    -- The new identifier belongs to no earlier allocation.
    intro _ channel hmem hid
    obtain ⟨count, hlt, hissued⟩ := hserving.issued (Or.inl hmem)
    have hsame : count = allocations := by
      apply idAt_injective_of_lt (lt_of_lt_of_le hlt hbefore) hcount
      rw [← hissued]
      simpa [hcounter, nextChannelId_counterAt] using hid
    omega
  · rw [hspec.counter, hcounter, nextChannelId_counterAt]
  · rw [hspec.content, hcounter, nextChannelId_counterAt]
  · intro other hother
    have hlive : other ∈ Tracked.live ⟨pool, detached, returned, born⟩ use := by
      simpa [Tracked.live] using hother
    refine hspec.others other ?_ (hvalid.returnedLt other (hvalid.liveReturned other hlive))
    rintro rfl
    rcases hother with hother | ⟨chain, hchain, hother⟩
    · exact hspec.fresh.1 hother
    · exact hspec.fresh.2 chain hchain hother

/-- Writing to a channel without touching its links and its identifier. -/
theorem modify (hserving : Serving pool allocations use detached) (channel : Ref)
    {change : Channel → Channel}
    (hkeeps : ∀ fields, (change fields).next = fields.next ∧ (change fields).prev = fields.prev ∧
      (change fields).id = fields.id) :
    Serving (pool.modify channel change) allocations use detached := by
  obtain ⟨returned, born, free, loose, hvalid, hnumbered⟩ := hserving.valid
  have hlinks : ∀ other,
      ((pool.modify channel change).mem other).next = pool.next other ∧
      ((pool.modify channel change).mem other).prev = pool.prev other ∧
      ((pool.modify channel change).mem other).id = pool.id other := by
    intro other
    by_cases hsame : other = channel
    · subst hsame
      simpa [ChannelPool.next, ChannelPool.prev, ChannelPool.id] using hkeeps (pool.mem other)
    · simp [ChannelPool.next, ChannelPool.prev, ChannelPool.id, hsame]
  have hid : ∀ other, (pool.modify channel change).id other = pool.id other :=
    fun other => (hlinks other).2.2
  refine ⟨⟨returned, born, free, loose, ⟨hvalid.layout.rewrite hlinks, hvalid.returnedLt,
    hvalid.liveReturned, ?_⟩, ⟨?_, hnumbered.bornLt, hnumbered.bornInjective⟩⟩, ?_⟩
  · intro other hreturned hdead
    exact (hid other).trans (hvalid.cleared other hreturned hdead)
  · intro other hlive
    exact (hid other).trans (hnumbered.id other hlive)
  · intro other hmem
    rw [hid]
    exact hserving.complete other hmem

end Serving

end Wnet
