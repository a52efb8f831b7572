import Mathlib.Algebra.Group.Int.Defs
import Mathlib.Data.List.AList
import Mathlib.Logic.Function.Basic

/-!
# Channels and the channel pool

`ChannelPool` keeps every channel it ever allocated in clusters of 25 and
threads them, through their own `prev_` and `next_` fields, onto a free list
and a use list; `useMap_` indexes the channels in use by their identifier. The
operations below are the bodies of the member functions: each runs under the
pool's mutex and is one atomic section. Null pointers are `none`.
-/

namespace Wnet

/-- The address of a channel: the position of its cluster times the cluster
size, plus its index in the cluster. -/
abbrev Ref := Nat

/-- `1ll << 62`. -/
def qynetMaxTime : Int := 2 ^ 62

def clusterSize : Nat := 25

structure Channel where
  id : UInt32
  args : Option Nat
  handler : Option Nat
  expireTime : Int
  prev : Option Ref
  next : Option Ref
  deriving DecidableEq, Repr

/-- The constructor sets the links and the expire time and leaves the other
fields as the memory has them. -/
def Channel.construct (channel : Channel) : Channel :=
  { channel with prev := none, next := none, expireTime := 0 }

/-- The fields that `FreeChannel`, `AppendChannel` and `AppendFreeList` clear. -/
def Channel.clear (channel : Channel) : Channel :=
  { channel with id := 0, handler := none, args := none }

abbrev UseMap := AList (fun _ : UInt32 => Ref)

/-- The static members shared by all pools of the process. -/
structure Globals where
  globalChannelId : UInt32
  globalTotalCount : Int32

def Globals.initial : Globals := ⟨1, 0⟩

structure ChannelPool where
  mem : Ref → Channel
  useMap : UseMap
  clusterList : List Ref
  freeListHead : Option Ref
  freeListTail : Option Ref
  useListHead : Option Ref
  useListTail : Option Ref
  maxUseCount : Nat

namespace ChannelPool

/-- A new pool. What the memory holds before any cluster is allocated is arbitrary. -/
def new (mem : Ref → Channel) : ChannelPool where
  mem := mem
  useMap := ∅
  clusterList := []
  freeListHead := none
  freeListTail := none
  useListHead := none
  useListTail := none
  maxUseCount := 0

/-- The number of channels in all clusters; their addresses are the numbers below it. -/
def channelCount (pool : ChannelPool) : Nat := pool.clusterList.length * clusterSize

def next (pool : ChannelPool) (channel : Ref) : Option Ref := (pool.mem channel).next
def prev (pool : ChannelPool) (channel : Ref) : Option Ref := (pool.mem channel).prev
def id (pool : ChannelPool) (channel : Ref) : UInt32 := (pool.mem channel).id
def expireTime (pool : ChannelPool) (channel : Ref) : Int := (pool.mem channel).expireTime

def modify (pool : ChannelPool) (channel : Ref) (change : Channel → Channel) : ChannelPool :=
  { pool with mem := Function.update pool.mem channel (change (pool.mem channel)) }

def setNext (pool : ChannelPool) (channel : Ref) (target : Option Ref) : ChannelPool :=
  pool.modify channel fun fields => { fields with next := target }

def setPrev (pool : ChannelPool) (channel : Ref) (target : Option Ref) : ChannelPool :=
  pool.modify channel fun fields => { fields with prev := target }

def getUseListCount (pool : ChannelPool) : Nat := pool.useMap.keys.length

/-! ## Allocation -/

/-- One iteration of the loop that threads a new cluster onto the free list. -/
def linkClusterNode (pool : ChannelPool) (node : Ref) : ChannelPool :=
  match pool.freeListTail with
  | none => pool
  | some tail =>
      let pool := (pool.setNext tail (some node)).setPrev node (some tail)
      { pool with freeListTail := pool.next tail }

/-- `new Channel[CHANNEL_CLUSTER_SIZE]`, with the second channel as the whole free list. -/
def constructCluster (pool : ChannelPool) : ChannelPool :=
  let base := pool.channelCount
  { pool with
    mem := fun channel =>
      if base ≤ channel ∧ channel < base + clusterSize
      then (pool.mem channel).construct else pool.mem channel
    clusterList := pool.clusterList ++ [base]
    freeListHead := some (base + 1)
    freeListTail := some (base + 1) }

/-- Allocate a cluster: its first channel is returned, the others become the free list, whose
outer links are cleared after the loop. -/
def newCluster (pool : ChannelPool) : ChannelPool × Ref :=
  let base := pool.channelCount
  let linked := (List.range' (base + 2) (clusterSize - 2)).foldl linkClusterNode
    pool.constructCluster
  let headed := match linked.freeListHead with
    | some head => linked.setPrev head none
    | none => linked
  let ended := match linked.freeListTail with
    | some tail => headed.setNext tail none
    | none => headed
  (ended, base)

/-- Take the head of a nonempty free list; the tail changes only when the list is empty then. -/
def popFree (pool : ChannelPool) (head : Ref) : ChannelPool :=
  let pool := { pool with freeListHead := pool.next head }
  match pool.freeListHead with
  | some head => pool.setPrev head none
  | none => { pool with freeListTail := none }

/-- Put a channel at the end of the use list. The time of a channel that is not on the wire yet
is past `QYNET_MAX_TIME`. -/
def appendUse (pool : ChannelPool) (channel : Ref) : ChannelPool :=
  let linked := pool.modify channel fun fields =>
    { fields with prev := pool.useListTail, next := none, expireTime := qynetMaxTime + 1 }
  let threaded := match pool.useListTail with
    | none => { linked with useListHead := some channel }
    | some tail => linked.setNext tail (some channel)
  { threaded with useListTail := some channel }

/-- The identifier handed out at a value of `globalChannelId_`, and the value after it, which is
1 and not 2 at a masked zero. -/
def nextChannelId (counter : UInt32) : UInt32 × UInt32 :=
  let id := counter &&& 0x0FFFFFFF
  if id = 0 then (1, 1) else (id, counter + 1)

def registerUse (pool : ChannelPool) (channel : Ref) (id : UInt32) : ChannelPool :=
  let pool := pool.modify channel fun fields =>
    { fields with id := id, handler := none, args := none }
  let useMap := pool.useMap.insert id channel
  { pool with
    useMap := useMap
    maxUseCount := if pool.maxUseCount < useMap.keys.length
      then useMap.keys.length else pool.maxUseCount }

def allocChannel (globals : Globals) (pool : ChannelPool) : Globals × ChannelPool × Ref :=
  let (globals, pool, channel) := match pool.freeListHead with
    | none =>
        let (pool, channel) := pool.newCluster
        ({ globals with
          globalTotalCount := globals.globalTotalCount + Int32.ofNat clusterSize }, pool, channel)
    | some head => (globals, pool.popFree head, head)
  let pool := pool.appendUse channel
  let (id, counter) := nextChannelId globals.globalChannelId
  ({ globals with globalChannelId := counter }, pool.registerUse channel id, channel)

/-! ## Removal from the use list and return to the free list -/

/-- Move the ends of the use list past a channel that is one of them. -/
def releaseEnds (pool : ChannelPool) (channel : Ref) : ChannelPool :=
  { pool with
    useListHead := if some channel = pool.useListHead then pool.next channel else pool.useListHead
    useListTail := if some channel = pool.useListTail then pool.prev channel else pool.useListTail }

/-- Link the two neighbours of a channel, which keeps its own links, to each other. -/
def bridge (pool : ChannelPool) (channel : Ref) : ChannelPool :=
  let pool := match pool.prev channel with
    | some before => pool.setNext before (pool.next channel)
    | none => pool
  match pool.next channel with
  | some after => pool.setPrev after (pool.prev channel)
  | none => pool

/-- The unlinking sequence that `FreeChannel` and `OfferChannel` share. -/
def unlink (pool : ChannelPool) (channel : Ref) : ChannelPool :=
  (pool.releaseEnds channel).bridge channel

/-- The sequence that puts one channel at the end of the free list and clears it. -/
def pushFree (pool : ChannelPool) (channel : Ref) : ChannelPool :=
  let linked := (pool.setPrev channel pool.freeListTail).setNext channel none
  let threaded := match pool.freeListTail with
    | none => { linked with freeListHead := some channel }
    | some tail => linked.setNext tail (some channel)
  { threaded with freeListTail := some channel }.modify channel Channel.clear

/-- `FreeChannel` takes the channel off the use list by its own links, not by the entry that it
found in the map. -/
def freeChannel (pool : ChannelPool) : Option Ref → ChannelPool × Bool
  | none => (pool, false)
  | some channel =>
      match pool.useMap.lookup (pool.id channel) with
      | none => (pool, false)
      | some _ =>
          let pool := { pool with useMap := pool.useMap.erase (pool.id channel) }
          ((pool.unlink channel).pushFree channel, true)

def appendChannel (pool : ChannelPool) (channel : Ref) : ChannelPool × Bool :=
  (pool.pushFree channel, true)

def offerChannel (pool : ChannelPool) (id : UInt32) : ChannelPool × Option Ref :=
  match pool.useMap.lookup id with
  | none => (pool, none)
  | some channel =>
      let pool := { pool with useMap := pool.useMap.erase id }
      (((pool.unlink channel).setPrev channel none).setNext channel none, some channel)

/-! ## Timed-out channels -/

/-- The scan of `GetTimeoutList`: the first channel not yet expired, whatever is behind it,
and the map without the expired ones. A list longer than the number of channels would be a
cycle, on which the loop does not end. -/
def timeoutScan (pool : ChannelPool) (now : Int) :
    Nat → Option Ref → UseMap → Option (Option Ref × UseMap)
  | _, none, useMap => some (none, useMap)
  | 0, some _, _ => none
  | fuel + 1, some channel, useMap =>
      if pool.expireTime channel ≥ now then some (some channel, useMap)
      else timeoutScan pool now fuel (pool.next channel) (useMap.erase (pool.id channel))

/-- Cut the use list in front of `stop`; the part from `head` on is returned. -/
def cutUse (pool : ChannelPool) (head : Ref) (stop : Option Ref) : ChannelPool × Option Ref :=
  if stop = some head then (pool, none)
  else match stop with
    | none => ({ pool with useListHead := none, useListTail := none }, some head)
    | some channel =>
        let ended := match pool.prev channel with
          | some before => pool.setNext before none
          | none => pool
        ({ ended.setPrev channel none with useListHead := some channel }, some head)

def getTimeoutList (pool : ChannelPool) (now : Int) : Option (ChannelPool × Option Ref) :=
  match pool.useListHead with
  | none => some (pool, none)
  | some head =>
      (pool.timeoutScan now pool.channelCount (some head) pool.useMap).map fun scanned =>
        { pool with useMap := scanned.2 }.cutUse head scanned.1

/-- The `do … while` of `AppendFreeList`: clear every channel from `tail` on. -/
def clearFrom : Nat → ChannelPool → Ref → Option ChannelPool
  | 0, _, _ => none
  | fuel + 1, pool, tail =>
      let pool := pool.modify tail Channel.clear
      match pool.next tail with
      | none => some pool
      | some tail => clearFrom fuel pool tail

/-- Thread a list behind the tail of the free list. After the clearing loop the
local `tail` of the source is null, and null is what `freeListTail_` receives. -/
def spliceFree (pool : ChannelPool) (addList : Ref) : ChannelPool :=
  let linked := pool.setPrev addList pool.freeListTail
  let threaded := match pool.freeListTail with
    | none => { linked with freeListHead := some addList }
    | some tail => linked.setNext tail (some addList)
  { threaded with freeListTail := none }

def appendFreeList (pool : ChannelPool) : Option Ref → Option (ChannelPool × Bool)
  | none => some (pool, true)
  | some addList => (clearFrom pool.channelCount pool addList).map fun cleared =>
      (cleared.spliceFree addList, true)

def setExpireTime (pool : ChannelPool) (channel : Option Ref) (now : Int) : ChannelPool :=
  match channel with
  | none => pool
  | some channel => pool.modify channel fun fields => { fields with expireTime := now }

end ChannelPool

end Wnet
