import Mathlib.Data.List.TakeWhile
import Wnet.Channel.Layout

/-!
# What each pool operation does to the layout

One specification lemma for each member function of the pool, for every pool
in a valid layout. The lemmas say where the channels go, which fields change
and what happens to the map; nothing later unfolds the operations again.
-/

namespace Wnet

open Foundation

namespace ChannelPool

variable {pool : ChannelPool} {use free : List Ref} {detached : List (List Ref)}
  {loose : List Ref}

namespace Layout

/-- A detached list given back by its caller is loose until it is on the free list. -/
theorem release (hlayout : pool.Layout use free detached loose) {chain : List Ref}
    (hchain : chain ∈ detached) :
    pool.Layout use free (detached.erase chain) (chain ++ loose) := by
  refine ⟨hlayout.useNext, hlayout.usePrev, hlayout.useHead, hlayout.useTail, hlayout.freeNext,
    hlayout.freeHead, hlayout.freeTail, ?_, ?_, ?_, hlayout.mapSound⟩
  · exact fun other hother => hlayout.detachedNext other (List.mem_of_mem_erase hother)
  · exact fun other hother => hlayout.detachedPrev other (List.mem_of_mem_erase hother)
  · refine hlayout.rearrange fun other => ?_
    have hcount := (List.perm_cons_erase hchain).flatten.count_eq other
    simp only [List.flatten_cons, List.count_append] at hcount ⊢
    omega

/-- Erasing entries keeps the map sound. -/
theorem eraseMap (hlayout : pool.Layout use free detached loose) (useMap : UseMap)
    (hsub : ∀ id channel, useMap.lookup id = some channel →
      pool.useMap.lookup id = some channel) :
    { pool with useMap := useMap }.Layout use free detached loose where
  useNext := hlayout.useNext
  usePrev := hlayout.usePrev
  useHead := hlayout.useHead
  useTail := hlayout.useTail
  freeNext := hlayout.freeNext
  freeHead := hlayout.freeHead
  freeTail := hlayout.freeTail
  detachedNext := hlayout.detachedNext
  detachedPrev := hlayout.detachedPrev
  partition := hlayout.partition
  mapSound := fun id channel h => hlayout.mapSound id channel (hsub id channel h)

end Layout

theorem lookup_erase_sub {useMap : UseMap} {erased id : UInt32} {channel : Ref}
    (hlookup : (useMap.erase erased).lookup id = some channel) :
    id ≠ erased ∧ useMap.lookup id = some channel := by
  by_cases heq : id = erased
  · subst id
    simp at hlookup
  · exact ⟨heq, by rwa [AList.lookup_erase_ne heq] at hlookup⟩

/-! ## Allocation -/

theorem Layout.newCluster (hlayout : pool.Layout use [] detached loose) :
    pool.newCluster.1.Layout use (List.range' (pool.channelCount + 1) 24) detached
      (pool.channelCount :: loose) := by
  obtain ⟨_, hfreeHead, hfreeTail, hfreeNext, hold, huseMap, hcount, huseHead, huseTail⟩ :=
    newCluster_spec pool
  have hbound : ∀ channel, channel ∈ use ++ [] ++ detached.flatten ++ loose →
      channel < pool.channelCount := fun channel h => hlayout.lt_channelCount h
  have hbound' : ∀ chain ∈ detached, ∀ channel ∈ chain, channel < pool.channelCount := by
    intro chain hchain channel hchannel
    apply hbound
    simp only [List.append_nil, List.mem_append, List.mem_flatten]
    exact Or.inl (Or.inr ⟨chain, hchain, hchannel⟩)
  refine ⟨?_, ?_, huseHead.trans hlayout.useHead, huseTail.trans hlayout.useTail, hfreeNext, ?_,
    ?_, ?_, ?_, ?_, ?_⟩
  · exact hlayout.useNext.congr fun other hother => (hold other (hbound other (by simp [hother]))).1
  · refine hlayout.usePrev.congr fun other hother => (hold other (hbound other ?_)).2.1
    simp [List.mem_reverse.mp hother]
  · rw [hfreeHead]
    rfl
  · rw [hfreeTail, List.range'_1_concat, List.getLast?_concat]
    exact Or.inr (by congr 1)
  · intro chain hchain
    exact (hlayout.detachedNext chain hchain).congr fun other hother =>
      (hold other (hbound' chain hchain other hother)).1
  · intro chain hchain
    exact (hlayout.detachedPrev chain hchain).congr fun other hother =>
      (hold other (hbound' chain hchain other (List.mem_reverse.mp hother))).2.1
  · rw [hcount]
    have hrange : List.range (pool.channelCount + 25) = List.range pool.channelCount ++
        pool.channelCount :: List.range' (pool.channelCount + 1) 24 := by
      rw [List.range_eq_range', List.range_eq_range', ← List.range'_append_1, Nat.zero_add]
      rfl
    rw [hrange]
    refine List.perm_iff_count.mpr fun other => ?_
    have hpartition := hlayout.partition.count_eq other
    simp only [List.count_append, List.count_cons, List.count_nil] at hpartition ⊢
    omega
  · intro id channel hlookup
    rw [huseMap] at hlookup
    obtain ⟨hmem, hid, hzero⟩ := hlayout.mapSound id channel hlookup
    refine ⟨hmem, ?_, hzero⟩
    rw [id_eq_content, (hold channel (hbound channel (by simp [hmem]))).2.2]
    exact hid

theorem registerUse_content (pool : ChannelPool) (node other : Ref) (id : UInt32) :
    (pool.registerUse node id).content other =
      if other = node then { pool.content other with id := id, handler := none, args := none }
      else pool.content other := by
  unfold registerUse
  by_cases hnode : other = node <;> simp [content, Channel.content, hnode]

theorem registerUse_links (pool : ChannelPool) (node other : Ref) (id : UInt32) :
    (pool.registerUse node id).next other = pool.next other ∧
      (pool.registerUse node id).prev other = pool.prev other := by
  unfold registerUse
  by_cases hnode : other = node <;> simp [next, prev, hnode]

theorem Layout.registerUse (hlayout : pool.Layout use free detached loose) {node : Ref}
    {id : UInt32} (hnode : node ∈ use) (hid : id ≠ 0)
    (hmap : ∀ id, pool.useMap.lookup id ≠ some node) :
    (pool.registerUse node id).Layout use free detached loose := by
  have hlinks := fun other => registerUse_links pool node other id
  refine ⟨?_, ?_, hlayout.useHead, hlayout.useTail, ?_, hlayout.freeHead, hlayout.freeTail, ?_, ?_,
    hlayout.partition, ?_⟩
  · exact hlayout.useNext.congr fun other _ => (hlinks other).1
  · exact hlayout.usePrev.congr fun other _ => (hlinks other).2
  · exact hlayout.freeNext.congr fun other _ => (hlinks other).1
  · exact fun chain hchain => (hlayout.detachedNext chain hchain).congr
      fun other _ => (hlinks other).1
  · exact fun chain hchain => (hlayout.detachedPrev chain hchain).congr
      fun other _ => (hlinks other).2
  · intro id' channel hlookup
    change (pool.useMap.insert id node).lookup id' = some channel at hlookup
    rw [id_eq_content, registerUse_content]
    by_cases heq : id' = id
    · subst id'
      rw [AList.lookup_insert] at hlookup
      obtain rfl : node = channel := by simpa using hlookup
      exact ⟨hnode, by simp, hid⟩
    · rw [AList.lookup_insert_ne heq] at hlookup
      have hne : channel ≠ node := fun h => hmap id' (h ▸ hlookup)
      rw [if_neg hne]
      exact hlayout.mapSound id' channel hlookup

/-- The channel that the next `AllocChannel` returns. -/
def allocTarget (pool : ChannelPool) : Ref := pool.freeListHead.getD pool.channelCount

/-- A channel as `AllocChannel` returns it, without its links. -/
def allocatedContent (id : UInt32) : Channel where
  id := id
  args := none
  handler := none
  expireTime := qynetMaxTime + 1
  prev := none
  next := none

theorem nextChannelId_ne_zero (counter : UInt32) : (nextChannelId counter).1 ≠ 0 := by
  unfold nextChannelId
  dsimp only
  split
  · decide
  next h => exact h

/-- `AllocChannel` puts one channel, free or new, at the end of the use list
and clears it; no other allocated channel changes. -/
structure AllocSpec (globals : Globals) (pool : ChannelPool) (use free : List Ref)
    (detached : List (List Ref)) (loose : List Ref) (globals' : Globals) (pool' : ChannelPool)
    (channel : Ref) : Prop where
  counter : globals'.globalChannelId = (nextChannelId globals.globalChannelId).2
  target : channel = pool.allocTarget
  layout : ∃ free', pool'.Layout (use ++ [channel]) free' detached loose ∧
    (∀ other ∈ free', other ∈ free ∨ pool.channelCount ≤ other) ∧
    (pool.freeListTail = free.getLast? → pool'.freeListTail = free'.getLast?)
  fresh : channel ∉ use ∧ ∀ chain ∈ detached, channel ∉ chain
  notLoose : channel ∉ loose
  origin : channel ∈ free ∨ pool.channelCount ≤ channel
  grows : pool.channelCount ≤ pool'.channelCount
  useMap : pool'.useMap = pool.useMap.insert (nextChannelId globals.globalChannelId).1 channel
  content : pool'.content channel = allocatedContent (nextChannelId globals.globalChannelId).1
  others : ∀ other, other ≠ channel → other < pool.channelCount →
    pool'.content other = pool.content other

theorem allocChannel_spec (globals : Globals) (hlayout : pool.Layout use free detached loose) :
    AllocSpec globals pool use free detached loose (allocChannel globals pool).1
      (allocChannel globals pool).2.1 (allocChannel globals pool).2.2 := by
  have hid := nextChannelId_ne_zero globals.globalChannelId
  have hcommon : ∀ (middle : ChannelPool) (channel : Ref) (free' : List Ref),
      middle.Layout use free' detached (channel :: loose) →
      middle.useMap = pool.useMap → pool.channelCount ≤ middle.channelCount →
      (∀ other ∈ free', other ∈ free ∨ pool.channelCount ≤ other) →
      (pool.freeListTail = free.getLast? → middle.freeListTail = free'.getLast?) →
      channel = pool.allocTarget → (channel ∈ free ∨ pool.channelCount ≤ channel) →
      (∀ other < pool.channelCount, middle.content other = pool.content other) →
      ∀ globals', globals'.globalChannelId = (nextChannelId globals.globalChannelId).2 →
      AllocSpec globals pool use free detached loose globals'
        ((middle.appendUse channel).registerUse channel
          (nextChannelId globals.globalChannelId).1) channel := by
    intro middle channel free' hmiddle huseMap hgrows hfree htail htarget horigin hothers
      globals' hcounter
    obtain ⟨hnotUse, hnotFree, hnotDetached⟩ := hmiddle.apart_loose List.mem_cons_self
    obtain ⟨huseMap', hclusters, _, hfreeTail', _, _⟩ := appendUse_frame middle channel
    have hunmapped : ∀ id, (middle.appendUse channel).useMap.lookup id ≠ some channel := by
      intro id h
      rw [huseMap'] at h
      exact hnotUse (hmiddle.mapSound id channel h).1
    refine ⟨hcounter, htarget, ⟨free', ?_, hfree, ?_⟩, ⟨hnotUse, hnotDetached⟩, ?_, horigin, ?_, ?_,
      ?_, ?_⟩
    · exact hmiddle.appendUse.registerUse (by simp) hid hunmapped
    · intro h
      exact hfreeTail'.trans (htail h)
    · have hnodup := hmiddle.nodup
      rw [List.nodup_append] at hnodup
      exact (List.nodup_cons.mp hnodup.2.1).1
    · change pool.channelCount ≤ (middle.appendUse channel).clusterList.length * clusterSize
      rw [hclusters]
      exact hgrows
    · change (middle.appendUse channel).useMap.insert _ _ = _
      rw [huseMap', huseMap]
    · rw [registerUse_content, if_pos rfl, appendUse_content, if_pos rfl]
      rfl
    · intro other hne hlt
      rw [registerUse_content, if_neg hne, appendUse_content, if_neg hne, hothers other hlt]
  unfold allocChannel
  have htarget : pool.allocTarget = pool.freeListHead.getD pool.channelCount := rfl
  cases hhead : pool.freeListHead with
  | none =>
      have hfree : free = [] := by
        have h := hlayout.freeHead
        rw [hhead] at h
        exact List.head?_eq_none_iff.mp h.symm
      subst free
      obtain ⟨hbase, _, hfreeTail, _, hold, huseMap, hcount, _, _⟩ := newCluster_spec pool
      dsimp only
      rw [hbase]
      refine hcommon _ _ _ hlayout.newCluster huseMap (by omega) ?_ ?_ ?_ (Or.inr (Nat.le_refl _))
        (fun other h => (hold other h).2.2) _ rfl
      · intro other hother
        rw [List.mem_range'_1] at hother
        exact Or.inr (by omega)
      · intro _
        rw [hfreeTail, List.range'_1_concat, List.getLast?_concat]
      · rw [htarget, hhead]
        rfl
  | some head =>
      have hmem : head ∈ free := List.mem_of_head? (hlayout.freeHead.symm.trans hhead)
      cases free with
      | nil => simp at hmem
      | cons first rest =>
          obtain rfl : first = head := by
            have h := hlayout.freeHead.symm.trans hhead
            simpa using h
          obtain ⟨huseMap, hclusters, _, _, _, hfreeTail⟩ := popFree_frame pool first
          have hnext : pool.next first = rest.head? := by simpa using hlayout.freeNext.1
          refine hcommon _ _ _ hlayout.popFree huseMap ?_ ?_ ?_ ?_ (Or.inl List.mem_cons_self)
            (fun other _ => popFree_content pool first other) _ rfl
          · rw [channelCount, channelCount, hclusters]
          · exact fun other hother => Or.inl (List.mem_cons_of_mem _ hother)
          · intro h
            rw [hfreeTail, hnext]
            cases rest with
            | nil => simp
            | cons second rest => simpa using h
          · rw [htarget, hhead]
            rfl

/-! ## Returning and offering channels -/

theorem unlink_content (pool : ChannelPool) (node other : Ref) :
    (pool.unlink node).content other = pool.content other := by
  rw [unlink, bridge_content]
  rfl

theorem unlink_useMap (pool : ChannelPool) (node : Ref) :
    (pool.unlink node).useMap = pool.useMap := (bridge_frame _ node).1

theorem unlink_freeListTail (pool : ChannelPool) (node : Ref) :
    (pool.unlink node).freeListTail = pool.freeListTail := (bridge_frame _ node).2.2.2.2.2

theorem unlink_channelCount (pool : ChannelPool) (node : Ref) :
    (pool.unlink node).channelCount = pool.channelCount := by
  rw [channelCount, unlink, (bridge_frame _ node).2.1]
  rfl

theorem pushFree_channelCount (pool : ChannelPool) (node : Ref) :
    (pool.pushFree node).channelCount = pool.channelCount := by
  rw [channelCount, (pushFree_frame pool node).2.1]
  rfl

theorem keptFree_congr {pool pool' : ChannelPool} (htail : pool'.freeListTail = pool.freeListTail)
    (free : List Ref) : pool'.keptFree free = pool.keptFree free := by
  rw [keptFree, keptFree, htail]

theorem droppedFree_congr {pool pool' : ChannelPool}
    (htail : pool'.freeListTail = pool.freeListTail) (free : List Ref) :
    pool'.droppedFree free = pool.droppedFree free := by
  rw [droppedFree, droppedFree, htail]

/-- With a tail pointer at the last free channel, or an empty free list, a push
at the tail keeps the whole list. -/
theorem keptFree_of_tail (htail : pool.freeListTail = free.getLast?) :
    pool.keptFree free = free ∧ pool.droppedFree free = [] := by
  unfold keptFree droppedFree
  cases free with
  | nil => simp [htail]
  | cons first rest => simp [htail, List.getLast?_cons]

theorem freeChannel_unmapped {channel : Ref}
    (hlookup : pool.useMap.lookup (pool.id channel) = none) :
    pool.freeChannel (some channel) = (pool, false) := by
  rw [freeChannel, hlookup]

/-- The pool after a `FreeChannel` that finds the identifier of its argument in the map. -/
def freed (pool : ChannelPool) (channel : Ref) : ChannelPool :=
  ({ pool with useMap := pool.useMap.erase (pool.id channel) }.unlink channel).pushFree channel

theorem freeChannel_mapped {channel owner : Ref}
    (hlookup : pool.useMap.lookup (pool.id channel) = some owner) :
    pool.freeChannel (some channel) = (pool.freed channel, true) := by
  rw [freeChannel, hlookup]
  rfl

theorem freed_useMap (pool : ChannelPool) (channel : Ref) :
    (pool.freed channel).useMap = pool.useMap.erase (pool.id channel) := by
  rw [freed, (pushFree_frame _ channel).1, unlink_useMap]

theorem freed_content (pool : ChannelPool) (channel other : Ref) :
    (pool.freed channel).content other =
      if other = channel then (pool.content other).clear else pool.content other := by
  rw [freed, pushFree_content, unlink_content]
  rfl

theorem freed_channelCount (pool : ChannelPool) (channel : Ref) :
    (pool.freed channel).channelCount = pool.channelCount := by
  rw [freed, pushFree_channelCount, unlink_channelCount]
  rfl

theorem freed_freeListTail (pool : ChannelPool) (channel : Ref) :
    (pool.freed channel).freeListTail = some channel := (pushFree_frame _ channel).2.2.2.2.1

theorem Layout.freed_use {before after : List Ref} {channel : Ref}
    (hlayout : pool.Layout (before ++ channel :: after) free detached loose) :
    (pool.freed channel).Layout (before ++ after) (pool.keptFree free ++ [channel]) detached
      (pool.droppedFree free ++ loose) := by
  have herased := hlayout.eraseMap (pool.useMap.erase (pool.id channel))
    fun id other h => (lookup_erase_sub h).2
  have hunlinked := herased.unlink_use (by
    intro id h
    obtain ⟨hne, hold⟩ := lookup_erase_sub h
    exact hne (hlayout.mapSound id channel hold).2.1.symm)
  have hpushed := hunlinked.pushFree
  rw [keptFree_congr (unlink_freeListTail _ channel),
    droppedFree_congr (unlink_freeListTail _ channel)] at hpushed
  exact hpushed

theorem Layout.freed_detached {chains chains' : List (List Ref)} {before after : List Ref}
    {channel : Ref}
    (hlayout : pool.Layout use free (chains ++ (before ++ channel :: after) :: chains') loose) :
    (pool.freed channel).Layout use (pool.keptFree free ++ [channel])
      (chains ++ (before ++ after) :: chains') (pool.droppedFree free ++ loose) := by
  have herased := hlayout.eraseMap (pool.useMap.erase (pool.id channel))
    fun id other h => (lookup_erase_sub h).2
  have hpushed := herased.unlink_detached.pushFree
  rw [keptFree_congr (unlink_freeListTail _ channel),
    droppedFree_congr (unlink_freeListTail _ channel)] at hpushed
  exact hpushed

theorem Layout.appendChannel {channel : Ref} (hlayout : pool.Layout use free detached loose)
    (hheld : [channel] ∈ detached) :
    (pool.appendChannel channel).1.Layout use (pool.keptFree free ++ [channel])
      (detached.erase [channel]) (pool.droppedFree free ++ loose) :=
  (hlayout.release hheld).pushFree

theorem Layout.detach {node : Ref} (hlayout : pool.Layout use free detached (node :: loose)) :
    ((pool.setPrev node none).setNext node none).Layout use free ([node] :: detached) loose := by
  obtain ⟨hnotUse, hnotFree, hnotDetached⟩ := hlayout.apart_loose List.mem_cons_self
  have hnext : ∀ other, other ≠ node →
      ((pool.setPrev node none).setNext node none).next other = pool.next other := by
    intro other hne
    simp [hne]
  have hprev : ∀ other, other ≠ node →
      ((pool.setPrev node none).setNext node none).prev other = pool.prev other := by
    intro other hne
    simp [hne]
  refine ⟨?_, ?_, hlayout.useHead, hlayout.useTail, ?_, hlayout.freeHead, hlayout.freeTail, ?_, ?_,
    ?_, ?_⟩
  · exact hlayout.useNext.congr fun other hother => hnext other fun h => hnotUse (h ▸ hother)
  · exact hlayout.usePrev.congr fun other hother =>
      hprev other fun h => hnotUse (h ▸ List.mem_reverse.mp hother)
  · exact hlayout.freeNext.congr fun other hother => hnext other fun h => hnotFree (h ▸ hother)
  · intro chain hchain
    rcases List.mem_cons.mp hchain with rfl | hchain
    · simp
    · exact (hlayout.detachedNext chain hchain).congr fun other hother =>
        hnext other fun h => hnotDetached chain hchain (h ▸ hother)
  · intro chain hchain
    rcases List.mem_cons.mp hchain with rfl | hchain
    · simp
    · exact (hlayout.detachedPrev chain hchain).congr fun other hother =>
        hprev other fun h => hnotDetached chain hchain (h ▸ List.mem_reverse.mp hother)
  · refine hlayout.rearrange fun other => ?_
    simp only [List.flatten_cons, List.count_append, List.count_cons, List.count_nil]
    omega
  · intro id channel hlookup
    obtain ⟨hmem, hid, hzero⟩ := hlayout.mapSound id channel hlookup
    refine ⟨hmem, ?_, hzero⟩
    rw [id_eq_content, setNext_content, setPrev_content]
    exact hid

theorem offerChannel_unmapped {id : UInt32} (hlookup : pool.useMap.lookup id = none) :
    pool.offerChannel id = (pool, none) := by
  rw [offerChannel, hlookup]

/-- The pool after an `OfferChannel` that finds `channel` under `id`. -/
def offered (pool : ChannelPool) (id : UInt32) (channel : Ref) : ChannelPool :=
  (({ pool with useMap := pool.useMap.erase id }.unlink channel).setPrev channel none).setNext
    channel none

theorem offerChannel_mapped {id : UInt32} {channel : Ref}
    (hlookup : pool.useMap.lookup id = some channel) :
    pool.offerChannel id = (pool.offered id channel, some channel) := by
  rw [offerChannel, hlookup]
  rfl

theorem offered_useMap (pool : ChannelPool) (id : UInt32) (channel : Ref) :
    (pool.offered id channel).useMap = pool.useMap.erase id := by
  change ({ pool with useMap := pool.useMap.erase id }.unlink channel).useMap = _
  rw [unlink_useMap]

theorem offered_content (pool : ChannelPool) (id : UInt32) (channel other : Ref) :
    (pool.offered id channel).content other = pool.content other := by
  rw [offered, setNext_content, setPrev_content, unlink_content]
  rfl

theorem offered_channelCount (pool : ChannelPool) (id : UInt32) (channel : Ref) :
    (pool.offered id channel).channelCount = pool.channelCount := by
  change ({ pool with useMap := pool.useMap.erase id }.unlink channel).channelCount = _
  rw [unlink_channelCount]
  rfl

theorem offered_freeListTail (pool : ChannelPool) (id : UInt32) (channel : Ref) :
    (pool.offered id channel).freeListTail = pool.freeListTail := by
  change ({ pool with useMap := pool.useMap.erase id }.unlink channel).freeListTail = _
  rw [unlink_freeListTail]

theorem Layout.offered {before after : List Ref} {channel : Ref} {id : UInt32}
    (hlayout : pool.Layout (before ++ channel :: after) free detached loose)
    (hid : pool.id channel = id) :
    (pool.offered id channel).Layout (before ++ after) free ([channel] :: detached) loose := by
  have herased := hlayout.eraseMap (pool.useMap.erase id)
    fun id other h => (lookup_erase_sub h).2
  refine (herased.unlink_use ?_).detach
  intro id' h
  obtain ⟨hne, hold⟩ := lookup_erase_sub h
  exact hne ((hlayout.mapSound id' channel hold).2.1.symm.trans hid)

/-! ## Timed-out channels -/

/-- The map after the scan over `expired`. -/
def eraseIds (pool : ChannelPool) (expired : List Ref) (useMap : UseMap) : UseMap :=
  expired.foldl (fun useMap channel => useMap.erase (pool.id channel)) useMap

theorem lookup_eraseIds (expired : List Ref) (useMap : UseMap) (id : UInt32) :
    (pool.eraseIds expired useMap).lookup id =
      if ∃ channel ∈ expired, pool.id channel = id then none else useMap.lookup id := by
  induction expired generalizing useMap with
  | nil => simp [eraseIds]
  | cons channel rest ih =>
      change (pool.eraseIds rest (useMap.erase (pool.id channel))).lookup id = _
      rw [ih]
      by_cases hrest : ∃ channel ∈ rest, pool.id channel = id
      · obtain ⟨other, hother, hid⟩ := hrest
        rw [if_pos ⟨other, hother, hid⟩, if_pos ⟨other, List.mem_cons_of_mem _ hother, hid⟩]
      · rw [if_neg hrest]
        by_cases hid : pool.id channel = id
        · rw [if_pos ⟨channel, List.mem_cons_self, hid⟩, hid, AList.lookup_erase]
        · rw [if_neg, AList.lookup_erase_ne (Ne.symm hid)]
          rintro ⟨other, hother, hother'⟩
          rcases List.mem_cons.mp hother with rfl | hother
          · exact hid hother'
          · exact hrest ⟨other, hother, hother'⟩

theorem timeoutScan_eq (pool : ChannelPool) (now : Int) (use : List Ref) (fuel : Nat)
    (useMap : UseMap) (hchain : Chain pool.next use none) (hfuel : use.length ≤ fuel) :
    pool.timeoutScan now fuel use.head? useMap =
      some ((use.dropWhile fun channel => pool.expireTime channel < now).head?,
        pool.eraseIds (use.takeWhile fun channel => pool.expireTime channel < now) useMap) := by
  induction use generalizing fuel useMap with
  | nil => cases fuel <;> rfl
  | cons channel rest ih =>
      cases fuel with
      | zero => simp at hfuel
      | succ fuel =>
          rw [List.head?_cons, timeoutScan]
          by_cases hexpired : pool.expireTime channel < now
          · have hnext : pool.next channel = rest.head? := by simpa using hchain.1
            rw [if_neg (by omega), hnext, ih fuel _ hchain.2 (by simpa using hfuel),
              List.dropWhile_cons_of_pos (by simpa using hexpired),
              List.takeWhile_cons_of_pos (by simpa using hexpired)]
            rfl
          · rw [if_pos (by omega), List.dropWhile_cons_of_neg (by simpa using hexpired),
              List.takeWhile_cons_of_neg (by simpa using hexpired)]
            rfl

theorem Layout.use_length_le (hlayout : pool.Layout use free detached loose) :
    use.length ≤ pool.channelCount := by
  have hlength := hlayout.partition.length_eq
  simp only [List.length_append, List.length_range] at hlength
  omega

/-- Cutting the use list in front of `node` detaches the part before it. -/
theorem Layout.cut {expired rest : List Ref} {node : Ref}
    (hlayout : pool.Layout (expired ++ node :: rest) free detached loose)
    (hexpired : expired ≠ [])
    (hmap : ∀ id channel, pool.useMap.lookup id = some channel → channel ∉ expired) :
    { (match pool.prev node with
        | some before => pool.setNext before none
        | none => pool).setPrev node none with useListHead := some node }.Layout
      (node :: rest) free (expired :: detached) loose := by
  obtain ⟨last, hlast⟩ : ∃ last, expired.getLast? = some last :=
    Option.ne_none_iff_exists'.mp (by simpa using hexpired)
  have hnodup := hlayout.useNext.nodup
  -- Only the two sides of the cut are relinked: `last` forwards and `node` backwards.
  have hback : pool.prev node = some last := hlayout.usePrev.prev_of_split.trans hlast
  have hmem : last ∈ expired := List.mem_of_getLast? hlast
  rw [hback]
  dsimp only
  have hnext : ∀ other, ((pool.setNext last none).setPrev node none).next other =
      if other = last then none else pool.next other := by simp
  have hprev : ∀ other, ((pool.setNext last none).setPrev node none).prev other =
      if other = node then none else pool.prev other := by simp
  have hdisjoint := (List.nodup_append.mp hnodup).2.2
  have huseNext := chain_append.mp hlayout.useNext
  have husePrev : Chain pool.prev ((node :: rest).reverse ++ expired.reverse) none := by
    rw [← List.reverse_append]
    exact hlayout.usePrev
  rw [chain_append] at husePrev
  refine ⟨?_, ?_, rfl, ?_, ?_, hlayout.freeHead, hlayout.freeTail, ?_, ?_, ?_, ?_⟩
  · refine huseNext.2.congr fun other hother => ?_
    exact (hnext other).trans (if_neg fun h => hdisjoint last hmem other hother h.symm)
  · refine husePrev.1.redirect ?_ ?_ (List.nodup_reverse.mpr (List.nodup_append.mp hnodup).2.1)
    · intro other hother
      rw [List.getLast?_reverse, List.head?_cons] at hother
      exact (hprev other).trans (if_pos (by simpa using hother.symm))
    · intro other _ hother
      rw [List.getLast?_reverse, List.head?_cons] at hother
      exact (hprev other).trans (if_neg fun h => hother (by rw [h]))
  · change pool.useListTail = _
    rw [hlayout.useTail, List.getLast?_append]
    simp [List.getLast?_cons]
  · refine hlayout.freeNext.congr fun other hother => (hnext other).trans (if_neg fun h => ?_)
    exact (hlayout.apart_free hother).1 (List.mem_append_left _ (h ▸ hmem))
  · intro chain hchain
    rcases List.mem_cons.mp hchain with rfl | hchain
    · refine huseNext.1.redirect ?_ ?_ (List.nodup_append.mp hnodup).1
      · intro other hother
        exact (hnext other).trans (if_pos (by simpa using hother.symm.trans hlast))
      · intro other _ hother
        exact (hnext other).trans (if_neg fun h => hother (by rw [hlast, h]))
    · refine (hlayout.detachedNext chain hchain).congr fun other hother =>
        (hnext other).trans (if_neg fun h => ?_)
      exact (hlayout.apart_use (List.mem_append_left _ hmem)).2.1 chain hchain (h ▸ hother)
  · intro chain hchain
    rcases List.mem_cons.mp hchain with rfl | hchain
    · refine husePrev.2.congr fun other hother => (hprev other).trans (if_neg fun h => ?_)
      exact hdisjoint other (List.mem_reverse.mp hother) node List.mem_cons_self h
    · refine (hlayout.detachedPrev chain hchain).congr fun other hother =>
        (hprev other).trans (if_neg fun h => ?_)
      exact (hlayout.apart_use (List.mem_append_right expired List.mem_cons_self)).2.1 chain hchain
        (h ▸ List.mem_reverse.mp hother)
  · refine hlayout.rearrange fun other => ?_
    simp only [List.flatten_cons, List.count_append, List.count_cons]
    omega
  · intro id channel hlookup
    obtain ⟨hmem, hid, hzero⟩ := hlayout.mapSound id channel hlookup
    refine ⟨(List.mem_append.mp hmem).resolve_left (hmap id channel hlookup), ?_, hzero⟩
    change (((pool.setNext last none).setPrev node none).content channel).id = id
    rw [setPrev_content, setNext_content]
    exact hid

/-- Detaching the whole use list. -/
theorem Layout.cutAll (hlayout : pool.Layout use free detached loose)
    (hmap : ∀ id, pool.useMap.lookup id = none) :
    { pool with useListHead := none, useListTail := none }.Layout
      [] free (use :: detached) loose := by
  refine ⟨trivial, trivial, rfl, rfl, hlayout.freeNext, hlayout.freeHead, hlayout.freeTail, ?_, ?_,
    ?_, ?_⟩
  · intro chain hchain
    rcases List.mem_cons.mp hchain with rfl | hchain
    · exact hlayout.useNext
    · exact hlayout.detachedNext chain hchain
  · intro chain hchain
    rcases List.mem_cons.mp hchain with rfl | hchain
    · exact hlayout.usePrev
    · exact hlayout.detachedPrev chain hchain
  · refine hlayout.rearrange fun other => ?_
    simp only [List.flatten_cons, List.count_append, List.count_nil]
    omega
  · intro id channel hlookup
    rw [hmap id] at hlookup
    cases hlookup

/-- The channels that `GetTimeoutList(now)` takes from the use list. -/
def expired (pool : ChannelPool) (now : Int) (use : List Ref) : List Ref :=
  use.takeWhile fun channel => pool.expireTime channel < now

/-- The channels that `GetTimeoutList(now)` leaves on the use list. -/
def unexpired (pool : ChannelPool) (now : Int) (use : List Ref) : List Ref :=
  use.dropWhile fun channel => pool.expireTime channel < now

theorem expired_append_unexpired (pool : ChannelPool) (now : Int) (use : List Ref) :
    pool.expired now use ++ pool.unexpired now use = use := List.takeWhile_append_dropWhile

theorem expireTime_lt_of_mem_expired {now : Int} {channel : Ref}
    (hmem : channel ∈ pool.expired now use) : pool.expireTime channel < now := by
  simpa using List.mem_takeWhile_imp hmem

theorem le_expireTime_of_head_unexpired {now : Int} {channel : Ref}
    (hhead : (pool.unexpired now use).head? = some channel) : now ≤ pool.expireTime channel := by
  have hstop := List.head?_dropWhile_not (fun channel => decide (pool.expireTime channel < now)) use
  rw [unexpired] at hhead
  rw [hhead] at hstop
  simpa using hstop

/-- `GetTimeoutList` detaches the maximal expired prefix of the use list and
forgets its identifiers. -/
structure TimeoutSpec (pool : ChannelPool) (now : Int) (use free : List Ref)
    (detached : List (List Ref)) (loose : List Ref) (pool' : ChannelPool)
    (list : Option Ref) : Prop where
  layout : pool'.Layout (pool.unexpired now use) free (pool.expired now use :: detached) loose
  result : list = (pool.expired now use).head?
  useMap : pool'.useMap = pool.eraseIds (pool.expired now use) pool.useMap
  content : ∀ channel, pool'.content channel = pool.content channel
  channelCount : pool'.channelCount = pool.channelCount
  freeListTail : pool'.freeListTail = pool.freeListTail

theorem cutUse_head (pool : ChannelPool) (head : Ref) :
    pool.cutUse head (some head) = (pool, none) := if_pos rfl

theorem cutUse_some (pool : ChannelPool) {head node : Ref} (hne : node ≠ head) :
    pool.cutUse head (some node) =
      ({ (match pool.prev node with
          | some before => pool.setNext before none
          | none => pool).setPrev node none with useListHead := some node }, some head) :=
  if_neg (by simpa using hne)

theorem getTimeoutList_of_head {head : Ref} (now : Int) (hhead : pool.useListHead = some head) :
    pool.getTimeoutList now =
      (pool.timeoutScan now pool.channelCount (some head) pool.useMap).map fun scanned =>
        { pool with useMap := scanned.2 }.cutUse head scanned.1 := by
  unfold getTimeoutList
  split
  next h =>
    rw [hhead] at h
    cases h
  next other h =>
    obtain rfl : head = other := Option.some.inj (hhead.symm.trans h)
    rfl

theorem getTimeoutList_spec (now : Int) (hlayout : pool.Layout use free detached loose) :
    ∃ pool' list, pool.getTimeoutList now = some (pool', list) ∧
      TimeoutSpec pool now use free detached loose pool' list := by
  have hsplit := pool.expired_append_unexpired now use
  have hscan := timeoutScan_eq pool now use pool.channelCount pool.useMap hlayout.useNext
    hlayout.use_length_le
  rw [show (use.takeWhile fun channel => pool.expireTime channel < now) =
    pool.expired now use from rfl, show (use.dropWhile fun channel =>
    pool.expireTime channel < now) = pool.unexpired now use from rfl] at hscan
  have hsub : ∀ id channel,
      (pool.eraseIds (pool.expired now use) pool.useMap).lookup id = some channel →
      pool.useMap.lookup id = some channel ∧ channel ∉ pool.expired now use := by
    intro id channel hlookup
    rw [lookup_eraseIds] at hlookup
    split at hlookup
    next => cases hlookup
    next hnone =>
      refine ⟨hlookup, fun hmem => hnone ⟨channel, hmem, ?_⟩⟩
      exact (hlayout.mapSound id channel hlookup).2.1
  have herased := hlayout.eraseMap (pool.eraseIds (pool.expired now use) pool.useMap)
    fun id channel h => (hsub id channel h).1
  cases hhead : pool.useListHead with
  | none =>
      have huse : use = [] := List.head?_eq_none_iff.mp (hlayout.useHead.symm.trans hhead)
      subst use
      refine ⟨pool, none, by rw [getTimeoutList, hhead],
        ⟨?_, rfl, rfl, fun _ => rfl, rfl, rfl⟩⟩
      exact ⟨hlayout.useNext, hlayout.usePrev, hlayout.useHead, hlayout.useTail, hlayout.freeNext,
        hlayout.freeHead, hlayout.freeTail, by simpa [expired] using hlayout.detachedNext,
        by simpa [expired] using hlayout.detachedPrev,
        by simpa [expired, unexpired] using hlayout.partition, hlayout.mapSound⟩
  | some head =>
      have huse : use.head? = some head := hlayout.useHead.symm.trans hhead
      rw [huse] at hscan
      rw [getTimeoutList_of_head now hhead, hscan, Option.map_some]
      cases hrest : pool.unexpired now use with
      | nil =>
          have hexpired : pool.expired now use = use := by
            rw [hrest, List.append_nil] at hsplit
            exact hsplit
          have hcut := herased.cutAll (by
            intro id
            cases hlookup : (pool.eraseIds (pool.expired now use) pool.useMap).lookup id with
            | none => rfl
            | some channel =>
                obtain ⟨hold, hnot⟩ := hsub id channel hlookup
                rw [hexpired] at hnot
                exact absurd (hlayout.mapSound id channel hold).1 hnot)
          refine ⟨_, some head, rfl, ⟨?_, by rw [hexpired, huse], rfl, fun _ => rfl, rfl, rfl⟩⟩
          rw [hrest, hexpired]
          rw [hexpired] at hcut
          exact hcut
      | cons node rest =>
          by_cases hexpired : pool.expired now use = []
          · have hnode : node = head := by
              rw [hexpired, hrest, List.nil_append] at hsplit
              rw [← hsplit] at huse
              simpa using huse
            subst node
            rw [List.head?_cons, cutUse_head]
            refine ⟨_, none, rfl, ⟨?_, by rw [hexpired]; rfl, rfl, fun _ => rfl, rfl, rfl⟩⟩
            rw [hexpired, List.nil_append] at hsplit
            rw [hsplit, hexpired]
            rw [hexpired] at herased
            exact ⟨herased.useNext, herased.usePrev, herased.useHead, herased.useTail,
              herased.freeNext, herased.freeHead, herased.freeTail,
              by simpa using herased.detachedNext, by simpa using herased.detachedPrev,
              by simpa using herased.partition, herased.mapSound⟩
          · have hne : node ≠ head := by
              intro h
              have hnodup := hlayout.useNext.nodup
              rw [← hsplit, hrest] at hnodup
              have hmem : head ∈ pool.expired now use := by
                rw [← hsplit, List.head?_append_of_ne_nil _ hexpired] at huse
                exact List.mem_of_head? huse
              exact (List.nodup_append.mp hnodup).2.2 head hmem node List.mem_cons_self h.symm
            have hcut := Layout.cut (by rw [hrest] at hsplit; rw [hsplit]; exact herased)
              hexpired (fun id channel h => (hsub id channel h).2)
            rw [List.head?_cons, cutUse_some _ hne]
            refine ⟨_, some head, rfl, ⟨by rw [hrest]; exact hcut, ?_, ?_, ?_, ?_, ?_⟩⟩
            · rw [← huse]
              conv_lhs => rw [← hsplit]
              rw [List.head?_append_of_ne_nil _ hexpired]
            · split <;> rfl
            · intro channel
              change (ChannelPool.setPrev _ node none).content channel = _
              rw [setPrev_content]
              split
              · rw [setNext_content]
                rfl
              · rfl
            · split <;> rfl
            · split <;> rfl

/-- The pool after the clearing loop over `chain`. -/
def clearAll (pool : ChannelPool) (chain : List Ref) : ChannelPool :=
  { pool with mem := fun channel =>
      if channel ∈ chain then (pool.mem channel).clear else pool.mem channel }

theorem clearAll_links (pool : ChannelPool) (chain : List Ref) (channel : Ref) :
    (pool.clearAll chain).next channel = pool.next channel ∧
      (pool.clearAll chain).prev channel = pool.prev channel := by
  by_cases hmem : channel ∈ chain <;> simp [clearAll, next, prev, hmem, Channel.clear]

theorem clearAll_content (pool : ChannelPool) (chain : List Ref) (channel : Ref) :
    (pool.clearAll chain).content channel =
      if channel ∈ chain then (pool.content channel).clear else pool.content channel := by
  by_cases hmem : channel ∈ chain <;>
    simp [clearAll, content, hmem, Channel.clear, Channel.content]

theorem clearFrom_eq (fuel : Nat) (pool : ChannelPool) (addList : Ref) (rest : List Ref)
    (hchain : Chain pool.next (addList :: rest) none) (hfuel : (addList :: rest).length ≤ fuel) :
    clearFrom fuel pool addList = some (pool.clearAll (addList :: rest)) := by
  induction rest generalizing fuel pool addList with
  | nil =>
      cases fuel with
      | zero => simp at hfuel
      | succ fuel =>
          have hnext : (pool.modify addList Channel.clear).next addList = none := by
            simpa [next, Channel.clear] using hchain.1
          rw [clearFrom, hnext]
          dsimp only
          congr 1
          simp only [clearAll, modify, ChannelPool.mk.injEq, and_true]
          funext channel
          by_cases heq : channel = addList <;> simp [heq]
  | cons second rest ih =>
      cases fuel with
      | zero => simp at hfuel
      | succ fuel =>
          have hlinks : ∀ channel,
              (pool.modify addList Channel.clear).next channel = pool.next channel := by
            intro channel
            by_cases heq : channel = addList <;> simp [next, heq, Channel.clear]
          have hnext : (pool.modify addList Channel.clear).next addList = some second :=
            (hlinks addList).trans hchain.1
          have hnodup := hchain.nodup
          rw [clearFrom, hnext]
          dsimp only
          rw [ih fuel _ second (hchain.2.congr fun channel _ => hlinks channel)
            (by simpa using hfuel)]
          congr 1
          simp only [clearAll, modify, ChannelPool.mk.injEq, and_true]
          funext channel
          by_cases heq : channel = addList
          · subst channel
            rw [if_neg (List.nodup_cons.mp hnodup).1]
            simp
          · simp [heq]

section SpliceFree

variable (pool : ChannelPool) (addList channel : Ref)

theorem spliceFree_next : (pool.spliceFree addList).next channel =
    if pool.freeListTail = some channel then some addList else pool.next channel := by
  unfold spliceFree
  cases pool.freeListTail with
  | none =>
      by_cases heq : channel = addList <;> simp [next, setPrev, heq]
  | some tail =>
      by_cases htail : channel = tail
      · subst channel
        simp [next, setNext]
      · by_cases heq : channel = addList
        · subst channel
          simp [next, setNext, setPrev, htail, Ne.symm htail]
        · simp [next, setNext, setPrev, heq, htail, Ne.symm htail]

theorem spliceFree_prev_of_ne (hne : channel ≠ addList) :
    (pool.spliceFree addList).prev channel = pool.prev channel := by
  unfold spliceFree
  cases pool.freeListTail with
  | none => simp [prev, setPrev, hne]
  | some tail =>
      by_cases htail : channel = tail
      · subst channel
        simp [prev, setNext, setPrev, hne]
      · simp [prev, setNext, setPrev, hne, htail]

theorem spliceFree_content :
    (pool.spliceFree addList).content channel = pool.content channel := by
  unfold spliceFree
  cases pool.freeListTail with
  | none => exact setPrev_content pool addList channel none
  | some tail =>
      refine (setNext_content _ tail channel _).trans ?_
      exact setPrev_content pool addList channel _

theorem spliceFree_frame : (pool.spliceFree addList).useMap = pool.useMap ∧
    (pool.spliceFree addList).clusterList = pool.clusterList ∧
    (pool.spliceFree addList).useListHead = pool.useListHead ∧
    (pool.spliceFree addList).useListTail = pool.useListTail ∧
    (pool.spliceFree addList).freeListTail = none ∧
    (pool.spliceFree addList).freeListHead =
      if pool.freeListTail = none then some addList else pool.freeListHead := by
  unfold spliceFree
  cases pool.freeListTail with
  | none => simp [setPrev]
  | some tail => simp [setNext, setPrev]

end SpliceFree

theorem Layout.length_le_of_detached (hlayout : pool.Layout use free detached loose)
    {chain : List Ref} (hchain : chain ∈ detached) : chain.length ≤ pool.channelCount := by
  have hlength := hlayout.partition.length_eq
  have hflatten := (List.perm_cons_erase hchain).flatten.length_eq
  simp only [List.flatten_cons, List.length_append, List.length_range] at hlength hflatten
  omega

/-- `AppendFreeList` threads the list behind the tail of the free list, if the
tail pointer has one, and leaves the tail pointer null. -/
structure AppendFreeSpec (pool : ChannelPool) (use free : List Ref) (detached : List (List Ref))
    (loose chain : List Ref) (pool' : ChannelPool) : Prop where
  layout : pool'.Layout use (pool.keptFree free ++ chain) (detached.erase chain)
    (pool.droppedFree free ++ loose)
  freeListTail : pool'.freeListTail = none
  useMap : pool'.useMap = pool.useMap
  content : ∀ channel, pool'.content channel =
    if channel ∈ chain then (pool.content channel).clear else pool.content channel
  channelCount : pool'.channelCount = pool.channelCount

theorem appendFreeList_spec (hlayout : pool.Layout use free detached loose) {addList : Ref}
    {rest : List Ref} (hchain : (addList :: rest) ∈ detached) :
    ∃ pool', pool.appendFreeList (some addList) = some (pool', true) ∧
      AppendFreeSpec pool use free detached loose (addList :: rest) pool' := by
  have hlinked := hlayout.detachedNext _ hchain
  have hclear := clearFrom_eq pool.channelCount pool addList rest hlinked
    (hlayout.length_le_of_detached hchain)
  have hreleased := hlayout.release hchain
  have hapart : ∀ channel ∈ addList :: rest,
      channel ∉ use ∧ channel ∉ free ∧ ∀ other ∈ detached.erase (addList :: rest),
        channel ∉ other := fun channel hmem =>
    hreleased.apart_loose (List.mem_append_left _ hmem)
  have htailMem : ∀ tail, pool.freeListTail = some tail → tail ∈ free := by
    intro tail htail
    rcases hlayout.freeTail with h | h
    · rw [h] at htail
      cases htail
    · exact List.mem_of_getLast? (h.symm.trans htail)
  let pool' := (pool.clearAll (addList :: rest)).spliceFree addList
  have hresult : pool.appendFreeList (some addList) = some (pool', true) := by
    rw [appendFreeList, hclear, Option.map_some]
  have hnext : ∀ channel, pool'.next channel =
      if pool.freeListTail = some channel then some addList else pool.next channel := by
    intro channel
    rw [spliceFree_next, (clearAll_links pool _ channel).1]
    rfl
  have hprev : ∀ channel, channel ≠ addList → pool'.prev channel = pool.prev channel := by
    intro channel hne
    rw [spliceFree_prev_of_ne _ _ _ hne, (clearAll_links pool _ channel).2]
  have hcontent : ∀ channel, pool'.content channel = if channel ∈ addList :: rest
      then (pool.content channel).clear else pool.content channel := by
    intro channel
    rw [spliceFree_content, clearAll_content]
  obtain ⟨huseMap, hclusters, huseHead, huseTail, htail', hhead⟩ :=
    spliceFree_frame (pool.clearAll (addList :: rest)) addList
  have hsame : ∀ channel, channel ∉ free → pool'.next channel = pool.next channel := by
    intro channel hnot
    rw [hnext, if_neg fun h => hnot (htailMem channel h)]
  refine ⟨pool', hresult, ⟨?_, htail', huseMap, hcontent, ?_⟩⟩
  · refine ⟨?_, ?_, huseHead.trans hlayout.useHead, huseTail.trans hlayout.useTail, ?_, ?_,
      Or.inl htail', ?_, ?_, ?_, ?_⟩
    · exact hlayout.useNext.congr fun channel hmem =>
        hsame channel (hlayout.apart_use hmem).1
    · refine hlayout.usePrev.congr fun channel hmem => hprev channel fun h => ?_
      exact (hapart addList List.mem_cons_self).1 (h ▸ List.mem_reverse.mp hmem)
    · rw [chain_append]
      refine ⟨?_, hlinked.congr fun channel hmem => hsame channel (hapart channel hmem).2.1⟩
      unfold keptFree
      split
      next => trivial
      next hcase =>
        have hlast := hlayout.freeTail.resolve_left hcase
        refine hlayout.freeNext.redirect ?_ ?_ hlayout.freeNext.nodup
        · intro last h
          rw [hnext, if_pos (hlast.trans h)]
          rfl
        · intro channel _ h
          rw [hnext, if_neg (by rwa [hlast])]
    · refine hhead.trans ?_
      change (if pool.freeListTail = none then some addList else pool.freeListHead) = _
      unfold keptFree
      split
      next => rfl
      next hcase =>
        have hlast := hlayout.freeTail.resolve_left hcase
        rw [hlayout.freeHead]
        cases free with
        | nil => simp [hlast] at hcase
        | cons first others => rfl
    · intro other hother
      refine (hreleased.detachedNext other hother).congr fun channel hmem => hsame channel ?_
      exact fun h => (hreleased.apart_free h).2.1 other hother hmem
    · intro other hother
      refine (hreleased.detachedPrev other hother).congr fun channel hmem =>
        hprev channel fun h => ?_
      exact (hapart addList List.mem_cons_self).2.2 other hother (h ▸ List.mem_reverse.mp hmem)
    · rw [channelCount, hclusters]
      refine hreleased.rearrange fun channel => ?_
      -- A lost tail drops the old free list: those channels become loose, none disappears.
      have hcount := count_kept_add_dropped pool free channel
      simp only [List.count_append] at hcount ⊢
      omega
    · intro id channel hlookup
      rw [huseMap] at hlookup
      obtain ⟨hmem, hid, hzero⟩ := hlayout.mapSound id channel hlookup
      refine ⟨hmem, ?_, hzero⟩
      rw [id_eq_content, hcontent, if_neg fun h => (hapart channel h).1 hmem]
      exact hid
  · rw [channelCount, channelCount, hclusters]
    rfl

/-! ## Expire times -/

theorem setExpireTime_content (pool : ChannelPool) (node channel : Ref) (now : Int) :
    (pool.setExpireTime (some node) now).content channel =
      if channel = node then { pool.content channel with expireTime := now }
      else pool.content channel := by
  by_cases heq : channel = node <;> simp [setExpireTime, content, heq, Channel.content]

theorem setExpireTime_links (pool : ChannelPool) (node : Option Ref) (channel : Ref) (now : Int) :
    (pool.setExpireTime node now).next channel = pool.next channel ∧
      (pool.setExpireTime node now).prev channel = pool.prev channel ∧
      (pool.setExpireTime node now).id channel = pool.id channel := by
  cases node with
  | none => exact ⟨rfl, rfl, rfl⟩
  | some node =>
      by_cases heq : channel = node <;> simp [setExpireTime, next, prev, id, heq]

/-- Writing to the contents of channels, without touching links or identifiers,
keeps the layout. -/
theorem Layout.rewrite (hlayout : pool.Layout use free detached loose) {mem : Ref → Channel}
    (hlinks : ∀ channel, (mem channel).next = pool.next channel ∧
      (mem channel).prev = pool.prev channel ∧ (mem channel).id = pool.id channel) :
    { pool with mem := mem }.Layout use free detached loose := by
  refine ⟨?_, ?_, hlayout.useHead, hlayout.useTail, ?_, hlayout.freeHead, hlayout.freeTail, ?_, ?_,
    hlayout.partition, ?_⟩
  · exact hlayout.useNext.congr fun channel _ => (hlinks channel).1
  · exact hlayout.usePrev.congr fun channel _ => (hlinks channel).2.1
  · exact hlayout.freeNext.congr fun channel _ => (hlinks channel).1
  · exact fun chain hchain => (hlayout.detachedNext chain hchain).congr
      fun channel _ => (hlinks channel).1
  · exact fun chain hchain => (hlayout.detachedPrev chain hchain).congr
      fun channel _ => (hlinks channel).2.1
  · intro id channel hlookup
    obtain ⟨hmem, hid, hzero⟩ := hlayout.mapSound id channel hlookup
    exact ⟨hmem, (hlinks channel).2.2.trans hid, hzero⟩

theorem Layout.setExpireTime (hlayout : pool.Layout use free detached loose)
    (node : Option Ref) (now : Int) :
    (pool.setExpireTime node now).Layout use free detached loose := by
  have hlinks := fun channel => setExpireTime_links pool node channel now
  cases node with
  | none => exact hlayout
  | some node => exact hlayout.rewrite hlinks

end ChannelPool

end Wnet
