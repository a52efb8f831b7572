import Wnet.Channel.Pool
import Wnet.Foundation.LinkedList

/-!
# The layout invariant of the channel pool

`Layout pool use free detached loose` says which channels hang on which list.
The use list and every detached list are doubly linked and null-terminated; the
free list is only ever walked forward. Loose channels hang on no list: a channel
is loose for a moment in the middle of an operation, and stays loose when an
operation loses it. One lemma for each pointer sequence of the source moves
channels between these parts; the operations are compositions of the sequences.
-/

namespace Wnet

open Foundation

namespace Channel

/-- A channel without its links. -/
def content (channel : Channel) : Channel := { channel with prev := none, next := none }

end Channel

namespace ChannelPool

def content (pool : ChannelPool) (channel : Ref) : Channel := (pool.mem channel).content

theorem id_eq_content (pool : ChannelPool) (channel : Ref) :
    pool.id channel = (pool.content channel).id := rfl

theorem expireTime_eq_content (pool : ChannelPool) (channel : Ref) :
    pool.expireTime channel = (pool.content channel).expireTime := rfl

section Fields

variable (pool : ChannelPool) (node other : Ref) (target : Option Ref)

@[simp] theorem modify_mem (change : Channel → Channel) :
    (pool.modify node change).mem other =
      if other = node then change (pool.mem other) else pool.mem other := by
  unfold modify
  by_cases heq : other = node
  · subst other
    simp
  · simp [heq]

@[simp] theorem modify_useMap (change : Channel → Channel) :
    (pool.modify node change).useMap = pool.useMap := rfl

@[simp] theorem modify_clusterList (change : Channel → Channel) :
    (pool.modify node change).clusterList = pool.clusterList := rfl

@[simp] theorem modify_freeListHead (change : Channel → Channel) :
    (pool.modify node change).freeListHead = pool.freeListHead := rfl

@[simp] theorem modify_freeListTail (change : Channel → Channel) :
    (pool.modify node change).freeListTail = pool.freeListTail := rfl

@[simp] theorem modify_useListHead (change : Channel → Channel) :
    (pool.modify node change).useListHead = pool.useListHead := rfl

@[simp] theorem modify_useListTail (change : Channel → Channel) :
    (pool.modify node change).useListTail = pool.useListTail := rfl

@[simp] theorem setNext_next :
    (pool.setNext node target).next other =
      if other = node then target else pool.next other := by
  simp only [next, setNext, modify_mem]
  split <;> rfl

@[simp] theorem setPrev_next : (pool.setPrev node target).next other = pool.next other := by
  simp only [next, setPrev, modify_mem]
  split <;> rfl

@[simp] theorem setPrev_prev :
    (pool.setPrev node target).prev other =
      if other = node then target else pool.prev other := by
  simp only [prev, setPrev, modify_mem]
  split <;> rfl

@[simp] theorem setNext_prev : (pool.setNext node target).prev other = pool.prev other := by
  simp only [prev, setNext, modify_mem]
  split <;> rfl

@[simp] theorem setNext_content :
    (pool.setNext node target).content other = pool.content other := by
  simp only [content, setNext, modify_mem]
  split <;> rfl

@[simp] theorem setPrev_content :
    (pool.setPrev node target).content other = pool.content other := by
  simp only [content, setPrev, modify_mem]
  split <;> rfl

end Fields

/-! ## The invariant -/

structure Layout (pool : ChannelPool) (use free : List Ref) (detached : List (List Ref))
    (loose : List Ref) : Prop where
  useNext : Chain pool.next use none
  usePrev : Chain pool.prev use.reverse none
  useHead : pool.useListHead = use.head?
  useTail : pool.useListTail = use.getLast?
  freeNext : Chain pool.next free none
  freeHead : pool.freeListHead = free.head?
  freeTail : pool.freeListTail = none ∨ pool.freeListTail = free.getLast?
  detachedNext : ∀ chain ∈ detached, Chain pool.next chain none
  detachedPrev : ∀ chain ∈ detached, Chain pool.prev chain.reverse none
  partition : (use ++ free ++ detached.flatten ++ loose).Perm (List.range pool.channelCount)
  mapSound : ∀ id channel, pool.useMap.lookup id = some channel →
    channel ∈ use ∧ pool.id channel = id ∧ id ≠ 0

namespace Layout

variable {pool : ChannelPool} {use free : List Ref} {detached : List (List Ref)}
  {loose : List Ref}

theorem nodup (hlayout : pool.Layout use free detached loose) :
    (use ++ free ++ detached.flatten ++ loose).Nodup :=
  hlayout.partition.nodup_iff.mpr List.nodup_range

/-- A channel sits in only one of the four parts. -/
theorem apart_use (hlayout : pool.Layout use free detached loose) {channel : Ref}
    (hmem : channel ∈ use) :
    channel ∉ free ∧ (∀ chain ∈ detached, channel ∉ chain) ∧ channel ∉ loose := by
  have hnodup := hlayout.nodup
  simp only [List.nodup_append, List.mem_append, List.mem_flatten] at hnodup
  refine ⟨fun h => ?_, fun chain hchain h => ?_, fun h => ?_⟩
  · exact hnodup.1.1.2.2 channel hmem channel h rfl
  · exact hnodup.1.2.2 channel (Or.inl hmem) channel ⟨chain, hchain, h⟩ rfl
  · exact hnodup.2.2 channel (Or.inl (Or.inl hmem)) channel h rfl

theorem apart_free (hlayout : pool.Layout use free detached loose) {channel : Ref}
    (hmem : channel ∈ free) :
    channel ∉ use ∧ (∀ chain ∈ detached, channel ∉ chain) ∧ channel ∉ loose := by
  have hnodup := hlayout.nodup
  simp only [List.nodup_append, List.mem_append, List.mem_flatten] at hnodup
  refine ⟨fun h => ?_, fun chain hchain h => ?_, fun h => ?_⟩
  · exact hnodup.1.1.2.2 channel h channel hmem rfl
  · exact hnodup.1.2.2 channel (Or.inr hmem) channel ⟨chain, hchain, h⟩ rfl
  · exact hnodup.2.2 channel (Or.inl (Or.inr hmem)) channel h rfl

theorem apart_loose (hlayout : pool.Layout use free detached loose) {channel : Ref}
    (hmem : channel ∈ loose) :
    channel ∉ use ∧ channel ∉ free ∧ ∀ chain ∈ detached, channel ∉ chain := by
  refine ⟨fun h => (hlayout.apart_use h).2.2 hmem, fun h => (hlayout.apart_free h).2.2 hmem,
    fun chain hchain h => ?_⟩
  have hnodup := hlayout.nodup
  simp only [List.nodup_append, List.mem_append, List.mem_flatten] at hnodup
  exact hnodup.2.2 channel (Or.inr ⟨chain, hchain, h⟩) channel hmem rfl

/-- Channels may move between the parts as long as none is added or removed. -/
theorem rearrange (hlayout : pool.Layout use free detached loose) {channels : List Ref}
    (hcount : ∀ other, channels.count other =
      (use ++ free ++ detached.flatten ++ loose).count other) :
    channels.Perm (List.range pool.channelCount) :=
  (List.perm_iff_count.mpr hcount).trans hlayout.partition

theorem lt_channelCount (hlayout : pool.Layout use free detached loose) {channel : Ref}
    (hmem : channel ∈ use ++ free ++ detached.flatten ++ loose) :
    channel < pool.channelCount :=
  List.mem_range.mp (hlayout.partition.subset hmem)

end Layout

theorem layout_new (mem : Ref → Channel) : (new mem).Layout [] [] [] [] where
  useNext := trivial
  usePrev := trivial
  useHead := rfl
  useTail := rfl
  freeNext := trivial
  freeHead := rfl
  freeTail := Or.inl rfl
  detachedNext := by simp
  detachedPrev := by simp
  partition := by simp [channelCount, new]
  mapSound := by simp [new]

/-! ## Unlinking -/

section Unlink

variable (pool : ChannelPool) (node other : Ref)

theorem bridge_next (hself : pool.prev node ≠ some node) :
    (pool.bridge node).next other =
      if pool.prev node = some other then pool.next node else pool.next other := by
  unfold bridge
  cases hprev : pool.prev node with
  | none => cases hnext : pool.next node <;> simp [hnext]
  | some before =>
      have hne : node ≠ before := fun heq => hself (heq ▸ hprev)
      simp only [setNext_next, if_neg hne]
      cases pool.next node <;> simp [eq_comm]

theorem bridge_prev (hself : pool.prev node ≠ some node) :
    (pool.bridge node).prev other =
      if pool.next node = some other then pool.prev node else pool.prev other := by
  unfold bridge
  cases hprev : pool.prev node with
  | none => cases hnext : pool.next node <;> simp [hprev, hnext, eq_comm]
  | some before =>
      have hne : node ≠ before := fun heq => hself (heq ▸ hprev)
      simp only [setNext_next, if_neg hne]
      cases hnext : pool.next node <;> simp [hprev, eq_comm]

@[simp] theorem bridge_content : (pool.bridge node).content other = pool.content other := by
  unfold bridge
  cases pool.prev node with
  | none => dsimp only; split <;> simp
  | some before => dsimp only; split <;> simp

theorem bridge_frame : (pool.bridge node).useMap = pool.useMap ∧
    (pool.bridge node).clusterList = pool.clusterList ∧
    (pool.bridge node).useListHead = pool.useListHead ∧
    (pool.bridge node).useListTail = pool.useListTail ∧
    (pool.bridge node).freeListHead = pool.freeListHead ∧
    (pool.bridge node).freeListTail = pool.freeListTail := by
  unfold bridge
  cases pool.prev node with
  | none => dsimp only; split <;> exact ⟨rfl, rfl, rfl, rfl, rfl, rfl⟩
  | some before => dsimp only; split <;> exact ⟨rfl, rfl, rfl, rfl, rfl, rfl⟩

variable {node} {before after : List Ref}

/-- Bridging a node of a doubly linked list leaves the list without it. -/
theorem bridge_chain (hnext : Chain pool.next (before ++ node :: after) none)
    (hprev : Chain pool.prev (before ++ node :: after).reverse none) :
    Chain (pool.bridge node).next (before ++ after) none ∧
      Chain (pool.bridge node).prev (before ++ after).reverse none := by
  have hnodup := hnext.nodup
  have hnode := hnext.next_of_split
  have hback := hprev.prev_of_split
  simp only [List.nodup_append, List.nodup_cons, List.mem_cons] at hnodup
  obtain ⟨hbefore, ⟨hnotAfter, hafter⟩, hdisjoint⟩ := hnodup
  have hself : pool.prev node ≠ some node := by
    rw [hback]
    intro h
    exact hdisjoint node (List.mem_of_getLast? h) node (Or.inl rfl) rfl
  constructor
  · refine hnext.unlink ?_ ?_ ?_ hbefore
    · intro last hlast
      rw [bridge_next pool node last hself, if_pos (hback.trans hlast)]
    · intro other _ hother
      rw [bridge_next pool node other hself, if_neg (by rwa [hback])]
    · intro other hother
      rw [bridge_next pool node other hself, if_neg]
      rw [hback]
      intro h
      exact hdisjoint other (List.mem_of_getLast? h) other (Or.inr hother) rfl
  · rw [List.reverse_append, List.reverse_cons, List.append_assoc, List.singleton_append] at hprev
    rw [List.reverse_append]
    refine hprev.unlink ?_ ?_ ?_ (List.nodup_reverse.mpr hafter)
    · intro last hlast
      rw [List.getLast?_reverse] at hlast
      rw [bridge_prev pool node last hself, if_pos (hnode.trans hlast)]
    · intro other _ hother
      rw [List.getLast?_reverse] at hother
      rw [bridge_prev pool node other hself, if_neg (by rwa [hnode])]
    · intro other hother
      rw [bridge_prev pool node other hself, if_neg]
      rw [hnode]
      intro h
      exact hdisjoint other (List.mem_reverse.mp hother) other
        (Or.inr (List.mem_of_head? h)) rfl

theorem bridge_apart (hnext : Chain pool.next (before ++ node :: after) none)
    (hprev : Chain pool.prev (before ++ node :: after).reverse none)
    (hother : other ∉ before ++ node :: after) :
    (pool.bridge node).next other = pool.next other ∧
      (pool.bridge node).prev other = pool.prev other := by
  have hnodup := hnext.nodup
  have hnode := hnext.next_of_split
  have hback := hprev.prev_of_split
  have hself : pool.prev node ≠ some node := by
    rw [hback]
    intro h
    exact (List.nodup_append.mp hnodup).2.2 node (List.mem_of_getLast? h) node
      List.mem_cons_self rfl
  constructor
  · rw [bridge_next pool node other hself, if_neg]
    rw [hback]
    intro h
    exact hother (List.mem_append_left _ (List.mem_of_getLast? h))
  · rw [bridge_prev pool node other hself, if_neg]
    rw [hnode]
    intro h
    exact hother (List.mem_append_right _ (List.mem_cons_of_mem _ (List.mem_of_head? h)))

end Unlink

namespace Layout

variable {pool : ChannelPool} {use free : List Ref} {detached : List (List Ref)}
  {loose before after : List Ref} {node : Ref}

/-- Unlinking a channel of the use list that the map no longer names. -/
theorem unlink_use (hlayout : pool.Layout (before ++ node :: after) free detached loose)
    (hmap : ∀ id, pool.useMap.lookup id ≠ some node) :
    (pool.unlink node).Layout (before ++ after) free detached (node :: loose) := by
  have hchain := bridge_chain (pool.releaseEnds node) hlayout.useNext hlayout.usePrev
  have hapart := fun other => bridge_apart (pool.releaseEnds node) other
    hlayout.useNext hlayout.usePrev
  obtain ⟨huseMap, hclusters, hhead, htail, hfreeHead, hfreeTail⟩ :=
    bridge_frame (pool.releaseEnds node) node
  have hnodup := hlayout.useNext.nodup
  have hnode : node ∉ before := fun h =>
    (List.nodup_append.mp hnodup).2.2 node h node List.mem_cons_self rfl
  have hnotAfter : node ∉ after :=
    (List.nodup_cons.mp (List.nodup_append.mp hnodup).2.1).1
  refine ⟨hchain.1, hchain.2, ?_, ?_, ?_, hfreeHead.trans hlayout.freeHead, ?_, ?_, ?_, ?_, ?_⟩
  · rw [unlink, hhead]
    change (if some node = pool.useListHead then pool.next node else pool.useListHead) = _
    rw [hlayout.useHead, hlayout.useNext.next_of_split]
    cases before with
    | nil => simp
    | cons first rest =>
        have hne : node ≠ first := fun h => hnode (h ▸ List.mem_cons_self)
        simp [hne]
  · rw [unlink, htail]
    change (if some node = pool.useListTail then pool.prev node else pool.useListTail) = _
    rw [hlayout.useTail, hlayout.usePrev.prev_of_split]
    rcases List.eq_nil_or_concat after with rfl | ⟨init, last, rfl⟩
    · simp
    · have hne : node ≠ last := fun h => hnotAfter (h ▸ by simp)
      have hlast : (before ++ node :: init.concat last).getLast? = some last := by
        rw [List.concat_eq_append, ← List.cons_append, ← List.append_assoc, List.getLast?_concat]
      rw [hlast, if_neg (by simpa using hne)]
      simp
  · refine hlayout.freeNext.congr fun other hother => (hapart other ?_).1
    exact (hlayout.apart_free hother).1
  · rw [unlink, hfreeTail]
    exact hlayout.freeTail
  · intro chain hchain
    refine (hlayout.detachedNext chain hchain).congr fun other hother => (hapart other ?_).1
    exact fun h => (hlayout.apart_use h).2.1 chain hchain hother
  · intro chain hchain
    refine (hlayout.detachedPrev chain hchain).congr fun other hother => (hapart other ?_).2
    exact fun h => (hlayout.apart_use h).2.1 chain hchain (List.mem_reverse.mp hother)
  · rw [channelCount, unlink, hclusters]
    refine hlayout.rearrange fun other => ?_
    simp only [List.count_append, List.count_cons]
    omega
  · intro id channel hlookup
    rw [unlink, huseMap] at hlookup
    obtain ⟨hmem, hid, hzero⟩ := hlayout.mapSound id channel hlookup
    have hne : channel ≠ node := fun h => hmap id (h ▸ hlookup)
    refine ⟨?_, ?_, hzero⟩
    · simp only [List.mem_append, List.mem_cons] at hmem ⊢
      tauto
    · rw [unlink, id_eq_content, bridge_content]
      exact hid

/-- Unlinking a channel that a caller still holds in a detached list. -/
theorem unlink_detached {chains chains' : List (List Ref)}
    (hlayout : pool.Layout use free (chains ++ (before ++ node :: after) :: chains') loose) :
    (pool.unlink node).Layout use free (chains ++ (before ++ after) :: chains')
      (node :: loose) := by
  have hmem : (before ++ node :: after) ∈ chains ++ (before ++ node :: after) :: chains' := by simp
  have hchain := bridge_chain (pool.releaseEnds node)
    (hlayout.detachedNext _ hmem) (hlayout.detachedPrev _ hmem)
  have hapart := fun other => bridge_apart (pool.releaseEnds node) other
    (hlayout.detachedNext _ hmem) (hlayout.detachedPrev _ hmem)
  obtain ⟨huseMap, hclusters, hhead, htail, hfreeHead, hfreeTail⟩ :=
    bridge_frame (pool.releaseEnds node) node
  have hnotUse : ∀ other ∈ use, other ∉ before ++ node :: after := fun other hother =>
    (hlayout.apart_use hother).2.1 _ hmem
  have hnotUse' : node ∉ use := fun h => hnotUse node h (by simp)
  have hothers : ∀ chain ∈ chains ++ chains', ∀ other ∈ chain,
      other ∉ before ++ node :: after := by
    intro chain hchain other hother hother'
    have hcount := List.nodup_iff_count_le_one.mp hlayout.nodup other
    have hfirst : 0 < (before ++ node :: after).count other := List.count_pos_iff.mpr hother'
    have hsecond : 0 < (chains ++ chains').flatten.count other :=
      List.count_pos_iff.mpr (List.mem_flatten.mpr ⟨chain, hchain, hother⟩)
    simp only [List.flatten_append, List.flatten_cons, List.count_append] at *
    omega
  refine ⟨?_, ?_, ?_, ?_, ?_, hfreeHead.trans hlayout.freeHead, ?_, ?_, ?_, ?_, ?_⟩
  · exact hlayout.useNext.congr fun other hother => (hapart other (hnotUse other hother)).1
  · exact hlayout.usePrev.congr fun other hother =>
      (hapart other (hnotUse other (List.mem_reverse.mp hother))).2
  · rw [unlink, hhead]
    change (if some node = pool.useListHead then pool.next node else pool.useListHead) = _
    rw [hlayout.useHead, if_neg]
    exact fun h => hnotUse' (List.mem_of_head? h.symm)
  · rw [unlink, htail]
    change (if some node = pool.useListTail then pool.prev node else pool.useListTail) = _
    rw [hlayout.useTail, if_neg]
    exact fun h => hnotUse' (List.mem_of_getLast? h.symm)
  · refine hlayout.freeNext.congr fun other hother => (hapart other ?_).1
    exact (hlayout.apart_free hother).2.1 _ hmem
  · rw [unlink, hfreeTail]
    exact hlayout.freeTail
  · intro chain hchain'
    rcases (by simpa using hchain' : chain ∈ chains ∨ chain = before ++ after ∨ chain ∈ chains')
      with h | rfl | h
    · exact (hlayout.detachedNext chain (by simp [h])).congr fun other hother =>
        (hapart other (hothers chain (by simp [h]) other hother)).1
    · exact hchain.1
    · exact (hlayout.detachedNext chain (by simp [h])).congr fun other hother =>
        (hapart other (hothers chain (by simp [h]) other hother)).1
  · intro chain hchain'
    rcases (by simpa using hchain' : chain ∈ chains ∨ chain = before ++ after ∨ chain ∈ chains')
      with h | rfl | h
    · exact (hlayout.detachedPrev chain (by simp [h])).congr fun other hother =>
        (hapart other (hothers chain (by simp [h]) other (List.mem_reverse.mp hother))).2
    · exact hchain.2
    · exact (hlayout.detachedPrev chain (by simp [h])).congr fun other hother =>
        (hapart other (hothers chain (by simp [h]) other (List.mem_reverse.mp hother))).2
  · rw [channelCount, unlink, hclusters]
    refine hlayout.rearrange fun other => ?_
    simp only [List.flatten_append, List.flatten_cons, List.count_append, List.count_cons]
    omega
  · intro id channel hlookup
    rw [unlink, huseMap] at hlookup
    obtain ⟨hmem, hid, hzero⟩ := hlayout.mapSound id channel hlookup
    refine ⟨hmem, ?_, hzero⟩
    rw [unlink, id_eq_content, bridge_content]
    exact hid

end Layout

/-! ## The free list -/

/-- What a push at the free list's tail keeps of it: with a null tail pointer
the head pointer is overwritten. -/
def keptFree (pool : ChannelPool) (free : List Ref) : List Ref :=
  if pool.freeListTail = none then [] else free

/-- What a push at the free list's tail loses of it. -/
def droppedFree (pool : ChannelPool) (free : List Ref) : List Ref :=
  if pool.freeListTail = none then free else []

theorem count_kept_add_dropped (pool : ChannelPool) (free : List Ref) (channel : Ref) :
    (pool.keptFree free).count channel + (pool.droppedFree free).count channel =
      free.count channel := by
  unfold keptFree droppedFree
  split <;> simp

section PushFree

variable (pool : ChannelPool) (node other : Ref)

theorem pushFree_next (htail : pool.freeListTail ≠ some node) :
    (pool.pushFree node).next other =
      if other = node then none
      else if pool.freeListTail = some other then some node else pool.next other := by
  unfold pushFree
  cases hcase : pool.freeListTail with
  | none =>
      by_cases hnode : other = node <;> simp [next, setNext, setPrev, Channel.clear, hnode]
  | some tail =>
      have hne : node ≠ tail := fun h => htail (h ▸ hcase)
      by_cases hnode : other = node
      · simp [next, setNext, setPrev, Channel.clear, hnode, hne]
      · by_cases hother : other = tail
        · subst other
          simp [next, setNext, setPrev, hnode]
        · simp [next, setNext, setPrev, hnode, hother, Ne.symm hother]

theorem pushFree_prev_of_ne (hne : other ≠ node) :
    (pool.pushFree node).prev other = pool.prev other := by
  unfold pushFree
  cases pool.freeListTail with
  | none => simp [prev, setNext, setPrev, hne]
  | some tail =>
      by_cases hother : other = tail
      · subst other
        simp [prev, setNext, setPrev, hne]
      · simp [prev, setNext, setPrev, hne, hother]

theorem pushFree_content : (pool.pushFree node).content other =
    if other = node then (pool.content other).clear else pool.content other := by
  unfold pushFree
  cases pool.freeListTail with
  | none =>
      by_cases hnode : other = node <;>
        simp [content, setNext, setPrev, hnode, Channel.clear, Channel.content]
  | some tail =>
      by_cases hother : other = tail
      · subst other
        by_cases hnode : tail = node <;>
          simp [content, setNext, setPrev, hnode, Channel.clear, Channel.content]
      · by_cases hnode : other = node
        · subst other
          simp [content, setNext, setPrev, hother, Channel.clear, Channel.content]
        · simp [content, setNext, setPrev, hnode, hother]

theorem pushFree_frame : (pool.pushFree node).useMap = pool.useMap ∧
    (pool.pushFree node).clusterList = pool.clusterList ∧
    (pool.pushFree node).useListHead = pool.useListHead ∧
    (pool.pushFree node).useListTail = pool.useListTail ∧
    (pool.pushFree node).freeListTail = some node ∧
    (pool.pushFree node).freeListHead =
      if pool.freeListTail = none then some node else pool.freeListHead := by
  unfold pushFree
  cases pool.freeListTail with
  | none => simp [setNext, setPrev]
  | some tail => simp [setNext, setPrev]

end PushFree

namespace Layout

variable {pool : ChannelPool} {use free : List Ref} {detached : List (List Ref)}
  {loose before after : List Ref} {node : Ref}

theorem pushFree (hlayout : pool.Layout use free detached (node :: loose)) :
    (pool.pushFree node).Layout use (pool.keptFree free ++ [node]) detached
      (pool.droppedFree free ++ loose) := by
  obtain ⟨hnotUse, hnotFree, hnotDetached⟩ := hlayout.apart_loose List.mem_cons_self
  have htailMem : ∀ tail, pool.freeListTail = some tail → tail ∈ free := by
    intro tail htail
    rcases hlayout.freeTail with h | h
    · rw [h] at htail
      cases htail
    · exact List.mem_of_getLast? (h.symm.trans htail)
  have htail : pool.freeListTail ≠ some node := fun h => hnotFree (htailMem node h)
  -- Besides `node` itself only the old tail of the free list gets a new successor.
  have hsame : ∀ other, other ≠ node → other ∉ free →
      (pool.pushFree node).next other = pool.next other := by
    intro other hne hfree
    rw [pushFree_next pool node other htail, if_neg hne, if_neg]
    exact fun h => hfree (htailMem other h)
  obtain ⟨huseMap, hclusters, huseHead, huseTail, hfreeTail, hfreeHead⟩ :=
    pushFree_frame pool node
  refine ⟨?_, ?_, huseHead.trans hlayout.useHead, huseTail.trans hlayout.useTail, ?_, ?_, ?_,
    ?_, ?_, ?_, ?_⟩
  · refine hlayout.useNext.congr fun other hother => hsame other ?_ (hlayout.apart_use hother).1
    exact fun h => hnotUse (h ▸ hother)
  · refine hlayout.usePrev.congr fun other hother => pushFree_prev_of_ne pool node other ?_
    exact fun h => hnotUse (h ▸ List.mem_reverse.mp hother)
  · have hnode : (pool.pushFree node).next node = none := by
      rw [pushFree_next pool node node htail, if_pos rfl]
    unfold keptFree
    split
    next h => simpa using hnode
    next h =>
      have hlast := hlayout.freeTail.resolve_left h
      refine hlayout.freeNext.concat ?_ ?_ hnode hlayout.freeNext.nodup
      · intro last hlast'
        have hne : last ≠ node := fun h => hnotFree (h ▸ List.mem_of_getLast? hlast')
        rw [pushFree_next pool node last htail, if_neg hne, if_pos (hlast.trans hlast')]
      · intro other hother hnotLast
        have hne : other ≠ node := fun h => hnotFree (h ▸ hother)
        rw [pushFree_next pool node other htail, if_neg hne, if_neg (by rwa [hlast])]
  · rw [hfreeHead]
    unfold keptFree
    split
    next => rfl
    next h =>
      have hlast := hlayout.freeTail.resolve_left h
      rw [hlayout.freeHead]
      cases free with
      | nil => simp [hlast] at h
      | cons first rest => rfl
  · rw [hfreeTail]
    simp
  · intro chain hchain
    refine (hlayout.detachedNext chain hchain).congr fun other hother => hsame other ?_ ?_
    · exact fun h => hnotDetached chain hchain (h ▸ hother)
    · exact fun h => (hlayout.apart_free h).2.1 chain hchain hother
  · intro chain hchain
    refine (hlayout.detachedPrev chain hchain).congr fun other hother =>
      pushFree_prev_of_ne pool node other ?_
    exact fun h => hnotDetached chain hchain (h ▸ List.mem_reverse.mp hother)
  · rw [channelCount, hclusters]
    refine hlayout.rearrange fun other => ?_
    -- Without a tail the old free list is dropped: its channels become loose.
    have hcount := count_kept_add_dropped pool free other
    simp only [List.count_append, List.count_cons, List.count_nil]
    omega
  · intro id channel hlookup
    rw [huseMap] at hlookup
    obtain ⟨hmem, hid, hzero⟩ := hlayout.mapSound id channel hlookup
    have hne : channel ≠ node := fun h => hnotUse (h ▸ hmem)
    refine ⟨hmem, ?_, hzero⟩
    rw [id_eq_content, pushFree_content, if_neg hne]
    exact hid

end Layout

section PopFree

variable (pool : ChannelPool) (node other : Ref)

theorem popFree_next : (pool.popFree node).next other = pool.next other := by
  unfold popFree
  dsimp only
  split <;> simp [next, setPrev]
  split <;> rfl

theorem popFree_prev_of_ne (hne : pool.next node ≠ some other) :
    (pool.popFree node).prev other = pool.prev other := by
  unfold popFree
  dsimp only
  split
  next head hhead =>
    have hother : other ≠ head := fun h => hne (h ▸ hhead)
    simp [prev, setPrev, hother]
  next => rfl

theorem popFree_content : (pool.popFree node).content other = pool.content other := by
  unfold popFree
  dsimp only
  split
  · rw [setPrev_content]
    rfl
  · rfl

theorem popFree_frame : (pool.popFree node).useMap = pool.useMap ∧
    (pool.popFree node).clusterList = pool.clusterList ∧
    (pool.popFree node).useListHead = pool.useListHead ∧
    (pool.popFree node).useListTail = pool.useListTail ∧
    (pool.popFree node).freeListHead = pool.next node ∧
    (pool.popFree node).freeListTail =
      if pool.next node = none then none else pool.freeListTail := by
  unfold popFree
  cases hnext : pool.next node with
  | none => simp
  | some head => simp [setPrev]

end PopFree

section AppendUse

variable (pool : ChannelPool) (node other : Ref)

theorem appendUse_next (htail : pool.useListTail ≠ some node) :
    (pool.appendUse node).next other =
      if other = node then none
      else if pool.useListTail = some other then some node else pool.next other := by
  unfold appendUse
  cases hcase : pool.useListTail with
  | none => by_cases hnode : other = node <;> simp [next, hnode]
  | some tail =>
      have hne : node ≠ tail := fun h => htail (h ▸ hcase)
      by_cases hnode : other = node
      · simp [next, setNext, hnode, hne]
      · by_cases hother : other = tail
        · subst other
          simp [next, setNext, hnode]
        · simp [next, setNext, hnode, hother, Ne.symm hother]

theorem appendUse_prev : (pool.appendUse node).prev other =
    if other = node then pool.useListTail else pool.prev other := by
  unfold appendUse
  cases pool.useListTail with
  | none => by_cases hnode : other = node <;> simp [prev, hnode]
  | some tail =>
      by_cases hother : other = tail
      · subst other
        by_cases hnode : tail = node <;> simp [prev, setNext, hnode]
      · by_cases hnode : other = node
        · subst other
          simp [prev, setNext, hother]
        · simp [prev, setNext, hnode, hother]

theorem appendUse_content : (pool.appendUse node).content other =
    if other = node then { pool.content other with expireTime := qynetMaxTime + 1 }
    else pool.content other := by
  unfold appendUse
  cases pool.useListTail with
  | none => by_cases hnode : other = node <;> simp [content, Channel.content, hnode]
  | some tail =>
      by_cases hother : other = tail
      · subst other
        by_cases hnode : tail = node <;> simp [content, Channel.content, setNext, hnode]
      · by_cases hnode : other = node
        · subst other
          simp [content, Channel.content, setNext, hother]
        · simp [content, setNext, hnode, hother]

theorem appendUse_frame : (pool.appendUse node).useMap = pool.useMap ∧
    (pool.appendUse node).clusterList = pool.clusterList ∧
    (pool.appendUse node).freeListHead = pool.freeListHead ∧
    (pool.appendUse node).freeListTail = pool.freeListTail ∧
    (pool.appendUse node).useListTail = some node ∧
    (pool.appendUse node).useListHead =
      if pool.useListTail = none then some node else pool.useListHead := by
  unfold appendUse
  cases pool.useListTail with
  | none => simp
  | some tail => simp [setNext]

end AppendUse

namespace Layout

variable {pool : ChannelPool} {use free : List Ref} {detached : List (List Ref)}
  {loose before after : List Ref} {node : Ref}

theorem popFree (hlayout : pool.Layout use (node :: free) detached loose) :
    (pool.popFree node).Layout use free detached (node :: loose) := by
  have hnext : pool.next node = free.head? := by simpa using hlayout.freeNext.1
  have hprev : ∀ other, other ∉ free → (pool.popFree node).prev other = pool.prev other := by
    intro other hother
    apply popFree_prev_of_ne
    rw [hnext]
    exact fun h => hother (List.mem_of_head? h)
  obtain ⟨huseMap, hclusters, huseHead, huseTail, hfreeHead, hfreeTail⟩ :=
    popFree_frame pool node
  refine ⟨?_, ?_, huseHead.trans hlayout.useHead, huseTail.trans hlayout.useTail, ?_,
    hfreeHead.trans hnext, ?_, ?_, ?_, ?_, ?_⟩
  · exact hlayout.useNext.congr fun other _ => popFree_next pool node other
  · refine hlayout.usePrev.congr fun other hother => hprev other fun h => ?_
    exact (hlayout.apart_use (List.mem_reverse.mp hother)).1 (List.mem_cons_of_mem _ h)
  · exact hlayout.freeNext.2.congr fun other _ => popFree_next pool node other
  · rw [hfreeTail, hnext]
    cases free with
    | nil => simp
    | cons first rest => simpa using hlayout.freeTail
  · intro chain hchain
    exact (hlayout.detachedNext chain hchain).congr fun other _ => popFree_next pool node other
  · intro chain hchain
    refine (hlayout.detachedPrev chain hchain).congr fun other hother => hprev other fun h => ?_
    exact (hlayout.apart_free (List.mem_cons_of_mem _ h)).2.1 chain hchain
      (List.mem_reverse.mp hother)
  · rw [channelCount, hclusters]
    refine hlayout.rearrange fun other => ?_
    simp only [List.count_append, List.count_cons]
    omega
  · intro id channel hlookup
    rw [huseMap] at hlookup
    rw [id_eq_content, popFree_content]
    exact hlayout.mapSound id channel hlookup

theorem appendUse (hlayout : pool.Layout use free detached (node :: loose)) :
    (pool.appendUse node).Layout (use ++ [node]) free detached loose := by
  obtain ⟨hnotUse, hnotFree, hnotDetached⟩ := hlayout.apart_loose List.mem_cons_self
  have htail : pool.useListTail ≠ some node := by
    rw [hlayout.useTail]
    exact fun h => hnotUse (List.mem_of_getLast? h)
  have hsame : ∀ other, other ≠ node → other ∉ use →
      (pool.appendUse node).next other = pool.next other := by
    intro other hne huse
    rw [appendUse_next pool node other htail, if_neg hne, if_neg]
    rw [hlayout.useTail]
    exact fun h => huse (List.mem_of_getLast? h)
  obtain ⟨huseMap, hclusters, hfreeHead, hfreeTail, huseTail, huseHead⟩ :=
    appendUse_frame pool node
  refine ⟨?_, ?_, ?_, ?_, ?_, hfreeHead.trans hlayout.freeHead, ?_, ?_, ?_, ?_, ?_⟩
  · refine hlayout.useNext.concat ?_ ?_ ?_ hlayout.useNext.nodup
    · intro last hlast
      have hne : last ≠ node := fun h => hnotUse (h ▸ List.mem_of_getLast? hlast)
      rw [appendUse_next pool node last htail, if_neg hne,
        if_pos (hlayout.useTail.trans hlast)]
    · intro other hother hnotLast
      have hne : other ≠ node := fun h => hnotUse (h ▸ hother)
      rw [appendUse_next pool node other htail, if_neg hne,
        if_neg (by rwa [hlayout.useTail])]
    · rw [appendUse_next pool node node htail, if_pos rfl]
  · rw [List.reverse_append, List.reverse_singleton, List.singleton_append, chain_cons]
    constructor
    · rw [appendUse_prev, if_pos rfl, hlayout.useTail, List.head?_reverse, Option.or_none]
    · refine hlayout.usePrev.congr fun other hother => ?_
      have hne : other ≠ node := fun h => hnotUse (h ▸ List.mem_reverse.mp hother)
      rw [appendUse_prev, if_neg hne]
  · rw [huseHead, hlayout.useTail, hlayout.useHead]
    cases use with
    | nil => rfl
    | cons first rest => simp [List.getLast?_cons]
  · rw [huseTail, List.getLast?_concat]
  · refine hlayout.freeNext.congr fun other hother => hsame other ?_ (hlayout.apart_free hother).1
    exact fun h => hnotFree (h ▸ hother)
  · rw [hfreeTail]
    exact hlayout.freeTail
  · intro chain hchain
    refine (hlayout.detachedNext chain hchain).congr fun other hother => hsame other ?_ ?_
    · exact fun h => hnotDetached chain hchain (h ▸ hother)
    · exact fun h => (hlayout.apart_use h).2.1 chain hchain hother
  · intro chain hchain
    refine (hlayout.detachedPrev chain hchain).congr fun other hother => ?_
    have hne : other ≠ node := fun h =>
      hnotDetached chain hchain (h ▸ List.mem_reverse.mp hother)
    rw [appendUse_prev, if_neg hne]
  · rw [channelCount, hclusters]
    refine hlayout.rearrange fun other => ?_
    simp only [List.count_append, List.count_cons, List.count_nil]
    omega
  · intro id channel hlookup
    rw [huseMap] at hlookup
    obtain ⟨hmem, hid, hzero⟩ := hlayout.mapSound id channel hlookup
    have hne : channel ≠ node := fun h => hnotUse (h ▸ hmem)
    refine ⟨List.mem_append_left _ hmem, ?_, hzero⟩
    rw [id_eq_content, appendUse_content, if_neg hne]
    exact hid

end Layout

/-! ## New clusters -/

section NewCluster

/-- The loop that threads a cluster, from a free list that ends in `first`. -/
theorem foldl_linkClusterNode (count first : Nat) (pool : ChannelPool)
    (htail : pool.freeListTail = some first)
    (hnext : ∀ node, first ≤ node → node ≤ first + count → pool.next node = none) :
    let linked := (List.range' (first + 1) count).foldl linkClusterNode pool
    linked.freeListTail = some (first + count) ∧
      Chain linked.next (List.range' first (count + 1)) none ∧
      (∀ node < first, linked.next node = pool.next node ∧ linked.prev node = pool.prev node) ∧
      (∀ node, linked.content node = pool.content node) ∧
      linked.useMap = pool.useMap ∧ linked.clusterList = pool.clusterList ∧
      linked.useListHead = pool.useListHead ∧ linked.useListTail = pool.useListTail ∧
      linked.freeListHead = pool.freeListHead := by
  induction count generalizing first pool with
  | zero =>
      refine ⟨htail, ?_, fun _ _ => ⟨rfl, rfl⟩, fun _ => rfl, rfl, rfl, rfl, rfl, rfl⟩
      simpa using hnext first (Nat.le_refl _) (Nat.le_refl _)
  | succ count ih =>
      -- One turn of the loop links the tail `first` and the node behind it both ways.
      have hstep : pool.linkClusterNode (first + 1) =
          { (pool.setNext first (some (first + 1))).setPrev (first + 1) (some first) with
            freeListTail := some (first + 1) } := by
        simp [linkClusterNode, htail]
      have hrest := ih (first + 1) (pool.linkClusterNode (first + 1)) (by rw [hstep]) (by
        intro node hlow hhigh
        have hne : node ≠ first := by omega
        have hprev : ((pool.setNext first (some (first + 1))).setPrev (first + 1)
            (some first)).next node = none := by
          simpa [hne] using hnext node (by omega) (by omega)
        rw [hstep]
        exact hprev)
      rw [List.range'_succ, List.foldl_cons]
      obtain ⟨htail', hchain, hlow, hcontent, hframe⟩ := hrest
      have hframe' : (pool.linkClusterNode (first + 1)).useMap = pool.useMap ∧
          (pool.linkClusterNode (first + 1)).clusterList = pool.clusterList ∧
          (pool.linkClusterNode (first + 1)).useListHead = pool.useListHead ∧
          (pool.linkClusterNode (first + 1)).useListTail = pool.useListTail ∧
          (pool.linkClusterNode (first + 1)).freeListHead = pool.freeListHead := by
        rw [hstep]
        exact ⟨rfl, rfl, rfl, rfl, rfl⟩
      have hlinks : ∀ node, (pool.linkClusterNode (first + 1)).next node =
            (if node = first then some (first + 1) else pool.next node) ∧
          (pool.linkClusterNode (first + 1)).prev node =
            (if node = first + 1 then some first else pool.prev node) ∧
          (pool.linkClusterNode (first + 1)).content node = pool.content node := by
        intro node
        rw [hstep]
        change ((pool.setNext first (some (first + 1))).setPrev (first + 1) (some first)).next
            node = _ ∧
          ((pool.setNext first (some (first + 1))).setPrev (first + 1) (some first)).prev node = _ ∧
          ((pool.setNext first (some (first + 1))).setPrev (first + 1) (some first)).content
            node = _
        simp
      refine ⟨by rw [htail']; congr 1; omega, ?_, ?_, ?_, ?_⟩
      · rw [List.range'_succ, chain_cons]
        refine ⟨?_, hchain⟩
        rw [(hlow first (by omega)).1, (hlinks first).1, if_pos rfl]
        rfl
      · intro node hnode
        obtain ⟨hn, hp⟩ := hlow node (by omega)
        rw [hn, hp, (hlinks node).1, (hlinks node).2.1, if_neg (show node ≠ first by omega),
          if_neg (show node ≠ first + 1 by omega)]
        exact ⟨rfl, rfl⟩
      · intro node
        rw [hcontent, (hlinks node).2.2]
      · obtain ⟨h1, h2, h3, h4, h5⟩ := hframe
        obtain ⟨g1, g2, g3, g4, g5⟩ := hframe'
        exact ⟨h1.trans g1, h2.trans g2, h3.trans g3, h4.trans g4, h5.trans g5⟩

/-- What allocating a cluster does: 24 new free channels behind one for the caller. -/
theorem newCluster_spec (pool : ChannelPool) :
    pool.newCluster.2 = pool.channelCount ∧
      pool.newCluster.1.freeListHead = some (pool.channelCount + 1) ∧
      pool.newCluster.1.freeListTail = some (pool.channelCount + 24) ∧
      Chain pool.newCluster.1.next (List.range' (pool.channelCount + 1) 24) none ∧
      (∀ node < pool.channelCount, pool.newCluster.1.next node = pool.next node ∧
        pool.newCluster.1.prev node = pool.prev node ∧
        pool.newCluster.1.content node = pool.content node) ∧
      pool.newCluster.1.useMap = pool.useMap ∧
      pool.newCluster.1.channelCount = pool.channelCount + 25 ∧
      pool.newCluster.1.useListHead = pool.useListHead ∧
      pool.newCluster.1.useListTail = pool.useListTail := by
  have hfresh : ∀ node, pool.constructCluster.mem node =
      if pool.channelCount ≤ node ∧ node < pool.channelCount + clusterSize
      then (pool.mem node).construct else pool.mem node := fun _ => rfl
  have hthread := foldl_linkClusterNode 23 (pool.channelCount + 1) pool.constructCluster rfl (by
    intro node hfirst hlast
    have hin : pool.channelCount ≤ node ∧ node < pool.channelCount + clusterSize := by
      unfold clusterSize
      omega
    rw [next, hfresh, if_pos hin]
    rfl)
  unfold newCluster
  dsimp only
  rw [show pool.channelCount + 2 = pool.channelCount + 1 + 1 by omega,
    show clusterSize - 2 = 23 from rfl]
  generalize (List.range' (pool.channelCount + 1 + 1) 23).foldl linkClusterNode
    pool.constructCluster = linked at hthread
  obtain ⟨htail, hchain, hlow, hcontent, huseMap, hclusters, huseHead, huseTail, hfreeHead⟩ :=
    hthread
  have hfreeHead' : linked.freeListHead = some (pool.channelCount + 1) := hfreeHead
  have hlast : linked.next (pool.channelCount + 1 + 23) = none := by
    rw [List.range'_1_concat] at hchain
    exact hchain.next_of_split
  simp only [hfreeHead', htail]
  refine ⟨trivial, hfreeHead', htail, ?_, ?_, huseMap, ?_, huseHead, huseTail⟩
  · refine hchain.congr fun node _ => ?_
    by_cases hnode : node = pool.channelCount + 1 + 23
    · subst node
      rw [setNext_next, if_pos rfl, hlast]
    · rw [setNext_next, if_neg hnode, setPrev_next]
  · intro node hnode
    have hmem : pool.constructCluster.mem node = pool.mem node := by
      rw [hfresh, if_neg (by omega)]
    have hne : node ≠ pool.channelCount + 1 + 23 := by omega
    have hne' : node ≠ pool.channelCount + 1 := by omega
    obtain ⟨hn, hp⟩ := hlow node (by omega)
    simp only [setNext_next, setNext_prev, setPrev_next, setPrev_prev, setNext_content,
      setPrev_content, hne, hne', if_false]
    rw [hn, hp, hcontent]
    simp only [next, prev, content, hmem, and_self]
  · change linked.clusterList.length * clusterSize = _
    rw [hclusters]
    change (pool.clusterList ++ [pool.channelCount]).length * clusterSize = _
    rw [List.length_append, Nat.add_mul]
    rfl

end NewCluster

end ChannelPool

end Wnet
