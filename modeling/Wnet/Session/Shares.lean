import Wnet.Foundation.Reservation
import Wnet.Session.Locking
import Wnet.Session.Order

/-!
# What calls may still add to the limited numbers

A session limits its queue and its channels in use. First this says of every step that
does not belong to a call of `PostPacket` that both numbers do not grow. What such a
call may still add is its share; a bound that leaves room for the shares is kept by
every step but those that begin a share anew.
-/

namespace Wnet

open Foundation

/-! ## The number of channels in use -/

namespace ChannelPool

variable (pool : ChannelPool)

theorem useCount_erase_le (useMap : UseMap) (id : UInt32) :
    (useMap.erase id).keys.length ≤ useMap.keys.length := by
  rw [AList.keys_erase]
  exact List.length_erase_le

theorem allocChannel_useMap (globals : Globals) : ∃ channel,
    (pool.allocChannel globals).2.1.useMap =
      pool.useMap.insert (nextChannelId globals.globalChannelId).1 channel := by
  unfold allocChannel
  cases hhead : pool.freeListHead with
  | none =>
      refine ⟨pool.newCluster.2, ?_⟩
      change (pool.newCluster.1.appendUse pool.newCluster.2).useMap.insert
        (nextChannelId globals.globalChannelId).1 pool.newCluster.2 = _
      rw [(appendUse_frame _ _).1, (newCluster_spec pool).2.2.2.2.2.1]
  | some head =>
      refine ⟨head, ?_⟩
      change ((pool.popFree head).appendUse head).useMap.insert
        (nextChannelId globals.globalChannelId).1 head = _
      rw [(appendUse_frame _ _).1, (popFree_frame _ _).1]

/-- `AllocChannel` adds at most one to the map. -/
theorem allocChannel_useCount (globals : Globals) :
    (pool.allocChannel globals).2.1.getUseListCount ≤ pool.getUseListCount + 1 := by
  obtain ⟨channel, huseMap⟩ := pool.allocChannel_useMap globals
  rw [getUseListCount, getUseListCount, huseMap, AList.keys_insert, List.length_cons]
  exact Nat.succ_le_succ List.length_erase_le

theorem freeChannel_useCount (channel : Option Ref) :
    (pool.freeChannel channel).1.getUseListCount ≤ pool.getUseListCount := by
  cases channel with
  | none => exact le_rfl
  | some channel =>
      cases hlookup : pool.useMap.lookup (pool.id channel) with
      | none => rw [freeChannel_unmapped hlookup]
      | some owner =>
          rw [freeChannel_mapped hlookup, getUseListCount, freed_useMap]
          exact useCount_erase_le _ _

theorem offerChannel_useCount (id : UInt32) :
    (pool.offerChannel id).1.getUseListCount ≤ pool.getUseListCount := by
  cases hlookup : pool.useMap.lookup id with
  | none => rw [offerChannel_unmapped hlookup]
  | some channel =>
      rw [offerChannel_mapped hlookup, getUseListCount, offered_useMap]
      exact useCount_erase_le _ _

theorem appendChannel_useCount (channel : Ref) :
    (pool.appendChannel channel).1.getUseListCount = pool.getUseListCount := by
  change (pool.pushFree channel).useMap.keys.length = _
  rw [(pushFree_frame pool channel).1]
  rfl

theorem timeoutScan_useCount (now : Int) {fuel : Nat} {channel stop : Option Ref}
    {useMap useMap' : UseMap}
    (hscan : pool.timeoutScan now fuel channel useMap = some (stop, useMap')) :
    useMap'.keys.length ≤ useMap.keys.length := by
  induction fuel generalizing channel useMap with
  | zero =>
      cases channel with
      | none =>
          cases hscan
          exact le_rfl
      | some channel => cases hscan
  | succ fuel ih =>
      cases channel with
      | none =>
          cases hscan
          exact le_rfl
      | some channel =>
          rw [timeoutScan] at hscan
          split at hscan
          · cases hscan
            exact le_rfl
          · exact le_trans (ih hscan) (useCount_erase_le _ _)

theorem cutUse_useMap (head : Ref) (stop : Option Ref) :
    (pool.cutUse head stop).1.useMap = pool.useMap := by
  unfold cutUse
  split
  · rfl
  · split
    · rfl
    · split <;> rfl

theorem getTimeoutList_useCount {now : Int} {pool' : ChannelPool} {list : Option Ref}
    (hlist : pool.getTimeoutList now = some (pool', list)) :
    pool'.getUseListCount ≤ pool.getUseListCount := by
  unfold getTimeoutList at hlist
  split at hlist
  · cases hlist
    exact le_rfl
  · obtain ⟨⟨stop, useMap⟩, hscan, hcut⟩ := Option.map_eq_some_iff.mp hlist
    have hpool := congrArg (fun outcome => outcome.1.useMap) hcut
    rw [cutUse_useMap] at hpool
    rw [getUseListCount, ← hpool]
    exact pool.timeoutScan_useCount now hscan

theorem clearFrom_useMap {fuel : Nat} {cleared : ChannelPool} {tail : Ref}
    (hclear : clearFrom fuel pool tail = some cleared) : cleared.useMap = pool.useMap := by
  induction fuel generalizing pool tail with
  | zero => cases hclear
  | succ fuel ih =>
      simp only [clearFrom] at hclear
      split at hclear
      · cases hclear
        rfl
      · exact ih (pool.modify tail Channel.clear) hclear

theorem appendFreeList_useCount {addList : Option Ref} {pool' : ChannelPool} {result : Bool}
    (happend : pool.appendFreeList addList = some (pool', result)) :
    pool'.getUseListCount = pool.getUseListCount := by
  cases addList with
  | none =>
      cases happend
      rfl
  | some addList =>
      obtain ⟨cleared, hclear, hsplice⟩ := Option.map_eq_some_iff.mp happend
      have huseMap : (cleared.spliceFree addList).useMap = cleared.useMap := by
        unfold spliceFree
        cases cleared.freeListTail <;> rfl
      cases hsplice
      rw [getUseListCount, huseMap, pool.clearFrom_useMap hclear]
      rfl

theorem setExpireTime_useCount (channel : Option Ref) (now : Int) :
    (pool.setExpireTime channel now).getUseListCount = pool.getUseListCount := by
  cases channel <;> rfl

end ChannelPool

/-! ## What a step adds -/

variable {Body : Type*} {config : Config Body} {session session' : Session Body} {call : Nat}

/-- Neither the queue nor the number of used channels grows, and nothing is allocated. -/
structure Eases (session session' : Session Body) : Prop where
  outputQueue : session'.outputQueue.length ≤ session.outputQueue.length
  useCount : session'.pool.getUseListCount ≤ session.pool.getUseListCount
  allocations : session'.allocations = session.allocations

/-- What `encode` and `send` leave alone. -/
theorem Eases.of_eq (hqueue : session'.outputQueue = session.outputQueue)
    (hpool : session'.pool = session.pool) (hallocations : session'.allocations =
      session.allocations) : Eases session session' :=
  ⟨(congrArg List.length hqueue).le, (congrArg ChannelPool.getUseListCount hpool).le, hallocations⟩

namespace Session

theorem onConnection_eases {stage : FlushStage Body}
    (hnext : session.onConnection config call stage = some session') :
    Eases session session' := by
  cases onConnection_cases hnext with
  | @encode packet outputQueue hqueue =>
      have hspec := encode_spec config (session.pop packet outputQueue) packet
      refine ⟨?_, (congrArg ChannelPool.getUseListCount hspec.pool).le, hspec.allocations⟩
      change (encode config (session.pop packet outputQueue) packet).outputQueue.length
        ≤ _
      rw [hspec.outputQueue, hqueue]
      exact Nat.le_succ _
  | unlock hqueue =>
      obtain ⟨total, htotal⟩ := recount_eq config session
      rw [htotal]
      exact ⟨le_rfl, le_rfl, rfl⟩
  | stamp => exact ⟨le_rfl, (session.pool.setExpireTime_useCount _ _).le, rfl⟩
  | @send packet =>
      have hspec := send_spec session packet
      exact .of_eq hspec.outputQueue hspec.pool hspec.allocations
  | _ => exact ⟨le_rfl, le_rfl, rfl⟩

theorem handlePacket_eases {stage : ResponseStage Body}
    (hnext : session.handlePacket config call stage = some session') :
    Eases session session' := by
  cases handlePacket_cases hnext with
  | answer hhandler => exact ⟨le_rfl, le_rfl, rfl⟩
  | @append channel =>
      exact ⟨le_rfl, ((session.setArgsNull channel).pool.appendChannel_useCount channel).le, rfl⟩

theorem checkTimeout_eases {now : Int} {stage : TimeoutStage Body}
    (hnext : session.checkTimeout config call now stage = some session') :
    Eases session session' := by
  cases checkTimeout_cases hnext with
  | appendFreeList happend =>
      exact ⟨le_rfl, (session.pool.appendFreeList_useCount happend).le, rfl⟩
  | detach hmutex => exact ⟨(List.dropWhile_sublist _).length_le, le_rfl, rfl⟩
  | skipQueued hchannel hhandler => exact ⟨le_rfl, session.pool.freeChannel_useCount _, rfl⟩
  | @freeChannel channel packetList =>
      exact ⟨le_rfl, (session.setArgsNull channel).pool.freeChannel_useCount _, rfl⟩
  | recount hmutex hover =>
      obtain ⟨total, htotal⟩ := recount_eq config session
      rw [htotal]
      exact ⟨le_rfl, le_rfl, rfl⟩
  | _ => exact ⟨le_rfl, le_rfl, rfl⟩

theorem start_eases {operation : Operation Body}
    (hnext : session.start config call operation = some session') : Eases session session' := by
  cases start_cases hnext with
  | @offer header input pool channel hheader hoffer =>
      have hcount := session.pool.offerChannel_useCount (header.chid &&& 0xFFFFFFF)
      rw [hoffer] at hcount
      exact ⟨le_rfl, hcount, rfl⟩
  | @miss header input pool hheader hoffer =>
      have hcount := session.pool.offerChannel_useCount (header.chid &&& 0xFFFFFFF)
      rw [hoffer] at hcount
      exact ⟨le_rfl, hcount, rfl⟩
  | detach hlist => exact ⟨le_rfl, session.pool.getTimeoutList_useCount hlist, rfl⟩
  | noneExpired hlist => exact ⟨le_rfl, session.pool.getTimeoutList_useCount hlist, rfl⟩
  | _ => exact ⟨le_rfl, le_rfl, rfl⟩

theorem postPacket_allocations {request : Request Body} {stage : PostStage Body}
    (hnext : session.postPacket config call request stage = some session') :
    session.allocations ≤ session'.allocations := by
  cases postPacket_cases hnext with
  | allocate => exact Nat.le_succ _
  | @encode packet hmutex hconnected =>
      exact (encode_spec config { session with mutex := some call } packet).allocations.ge
  | @send packet => exact (send_spec session packet).allocations.ge
  | _ => exact le_rfl

theorem step_allocations {label : Label Body} (hstep : session.step config label = some session') :
    session.allocations ≤ session'.allocations := by
  cases step_cases hstep with
  | start hidle hnext => exact (start_eases hnext).allocations.ge
  | postPacket hcall hnext => exact postPacket_allocations hnext
  | onConnection hcall hnext => exact (onConnection_eases hnext).allocations.ge
  | handlePacket hcall hnext => exact (handlePacket_eases hnext).allocations.ge
  | checkTimeout hcall hnext => exact (checkTimeout_eases hnext).allocations.ge
  | allocElsewhere => exact Nat.le_succ _
  | _ => exact le_rfl

/-! ## What the calls may still add -/

end Session

/-- What a call of `PostPacket` may still add to the queue: one packet, from the first
test of the connection on, if there is none. -/
def Activity.mayPush (connected : Bool) : Activity Body → Int
  | .postPacket _ .entered | .postPacket _ .admitted | .postPacket _ (.allocated _ _)
  | .postPacket _ (.filled _) => if connected then 0 else 1
  | _ => 0

/-- What a call of `PostPacket` that has passed the test of the limit may still add to
the queue and the channels in use. -/
def Activity.mayLoad (config : Config Body) (connected : Bool) : Activity Body → Int
  | .postPacket _ .admitted =>
      (if config.streamer.existPacketHeader then 1 else 0) + if connected then 0 else 1
  | .postPacket _ (.allocated _ _) | .postPacket _ (.filled _) => if connected then 0 else 1
  | _ => 0

/-- The request of a call of `PostPacket` that comes to the test of the limit. -/
def Activity.atLimitTest : Activity Body → Option (Request Body)
  | .postPacket request .entered => some request
  | _ => none

theorem Activity.mayPush_nonneg (connected : Bool) (activity : Activity Body) :
    0 ≤ activity.mayPush connected := by
  unfold mayPush
  split <;> cases connected <;> decide

theorem Activity.mayPush_le (connected : Bool) (activity : Activity Body) :
    activity.mayPush connected ≤ 1 := by
  unfold mayPush
  split <;> cases connected <;> decide

theorem Activity.mayPush_connected (activity : Activity Body) : activity.mayPush true = 0 := by
  unfold mayPush
  split <;> rfl

theorem Activity.mayLoad_nonneg (connected : Bool) (activity : Activity Body) :
    0 ≤ activity.mayLoad config connected := by
  unfold mayLoad
  repeat' split
  all_goals decide

theorem Activity.mayLoad_connected_le (connected : Bool) (activity : Activity Body) :
    activity.mayLoad config true ≤ activity.mayLoad config connected := by
  cases connected with
  | true => exact le_rfl
  | false =>
      unfold mayLoad
      split <;> simp

/-- One call has moved to another stage. -/
structure Moves (session session' : Session Body) (call : Nat) (activity : Activity Body) :
    Prop where
  calls : session'.calls = Function.update session.calls call activity
  connected : session'.connected = session.connected

theorem Moves.become {middle : Session Body} {activity : Activity Body}
    (hcalls : middle.calls = session.calls) (hconnected : middle.connected = session.connected) :
    Moves session (middle.become call activity) call activity :=
  ⟨by rw [Session.become, hcalls], hconnected⟩

theorem FlushPiece.moves {stage : FlushStage Body}
    (hpiece : FlushPiece config session call stage session') :
    ∃ stage', Moves session session' call (.onConnection stage') := by
  cases hpiece with
  | @encode packet outputQueue hqueue =>
      have hspec := encode_spec config (session.pop packet outputQueue) packet
      exact ⟨_, .become hspec.calls hspec.connected⟩
  | unlock hqueue =>
      obtain ⟨total, htotal⟩ := recount_eq config session
      rw [htotal]
      exact ⟨_, rfl, rfl⟩
  | @send packet =>
      have hspec := send_spec session packet
      exact ⟨_, .become hspec.calls hspec.connected⟩
  | _ => exact ⟨_, rfl, rfl⟩

theorem ResponsePiece.moves {stage : ResponseStage Body}
    (hpiece : ResponsePiece config session call stage session') :
    ∃ stage', Moves session session' call (.handlePacket stage') := by
  cases hpiece with
  | _ => exact ⟨_, rfl, rfl⟩

theorem TimeoutPiece.moves {now : Int} {stage : TimeoutStage Body}
    (hpiece : TimeoutPiece config session call now stage session') :
    ∃ stage', Moves session session' call (.checkTimeout now stage') := by
  cases hpiece with
  | recount =>
      obtain ⟨total, htotal⟩ := recount_eq config session
      rw [htotal]
      exact ⟨_, rfl, rfl⟩
  | _ => exact ⟨_, rfl, rfl⟩

namespace Session

/-- What each call may still add. -/
def shares (session : Session Body) (share : Bool → Activity Body → Int) (call : Nat) : Int :=
  share session.connected (session.calls call)

section Shares

variable {share : Bool → Activity Body → Int} {activity : Activity Body}
  {bound amount amount' : Int}

theorem shares_of_moves (hmoves : Moves session session' call activity) :
    session'.shares share = Function.update (session.shares share) call
      (share session.connected activity) := by
  funext other
  rw [shares, hmoves.calls, hmoves.connected]
  by_cases hother : other = call
  · rw [hother, Function.update_self, Function.update_self]
  · rw [Function.update_of_ne hother, Function.update_of_ne hother, shares]

/-- A call moves on and adds nothing. -/
theorem reserved_of_moves (call : Nat)
    (hreserved : Reserved bound amount (session.shares share))
    (hmoves : Moves session session' call activity) (hamount : amount' ≤ amount)
    (hshare : share session.connected activity ≤ share session.connected (session.calls call)) :
    Reserved bound amount' (session'.shares share) := by
  refine hreserved.mono hamount fun other => ?_
  rw [shares_of_moves hmoves]
  by_cases hother : other = call
  · rw [hother, Function.update_self]
    exact hshare
  · rw [Function.update_of_ne hother]

/-- A call adds what its share loses. -/
theorem reserved_of_spends (call : Nat)
    (hreserved : Reserved bound amount (session.shares share))
    (hmoves : Moves session session' call activity)
    (hnonneg : 0 ≤ share session.connected activity)
    (hspend : amount' + share session.connected activity ≤
      amount + share session.connected (session.calls call)) :
    Reserved bound amount' (session'.shares share) := by
  rw [shares_of_moves hmoves]
  refine hreserved.spend call ?_ ?_ fun other hother => ?_
  · rwa [Function.update_self]
  · rwa [Function.update_self]
  · rw [Function.update_of_ne hother]

/-- A call begins a share for which there is room. -/
theorem reserved_of_claims (call : Nat) {extra : Int}
    (hroom : Reserved (bound - extra) amount (session.shares share))
    (hmoves : Moves session session' call activity) (hamount : amount' ≤ amount)
    (hextra : 0 ≤ extra) (hclaim : share session.connected activity ≤ extra) :
    Reserved bound amount' (session'.shares share) := by
  rw [shares_of_moves hmoves]
  refine Reserved.claim call hroom hamount hextra ?_ fun other hother => ?_
  · rwa [Function.update_self]
  · rw [Function.update_of_ne hother]

end Shares

/-- Only calls of `PostPacket` have a share, and a connection leaves none with a larger one. -/
structure SharesOfPosts (share : Bool → Activity Body → Int) : Prop where
  nonneg : ∀ connected activity, 0 ≤ share connected activity
  connected_le : ∀ connected activity, share true activity ≤ share connected activity
  others : ∀ connected activity, (∀ request stage, activity ≠ .postPacket request stage) →
    share connected activity = 0

/-- What a step leaves room for, if the pieces of `PostPacket` and the loss of the
connection do: nothing else needs any. -/
theorem reserved_of_step {share : Bool → Activity Body → Int} (hshares : SharesOfPosts share)
    {amount : Session Body → Int}
    (hamount : ∀ session session' : Session Body,
      session'.outputQueue.length ≤ session.outputQueue.length →
      session'.pool.getUseListCount ≤ session.pool.getUseListCount →
      amount session' ≤ amount session)
    {bound : Int} (hreserved : Reserved bound (amount session) (session.shares share))
    {label : Label Body}
    (hstart : ∀ call request, label = .start call (.postPacket request) →
      session.calls call = .idle → session.start config call (.postPacket request) = some session' →
      Reserved bound (amount session') (session'.shares share))
    (hproceed : ∀ call request stage, label = .proceed call →
      session.calls call = .postPacket request stage →
      session.postPacket config call request stage = some session' →
      Reserved bound (amount session') (session'.shares share))
    (hlost : label = .connectionLost →
      Reserved bound (amount session) fun call => share false (session.calls call))
    (hstep : session.step config label = some session') :
    Reserved bound (amount session') (session'.shares share) := by
  have hmoves : ∀ {call : Nat} {activity : Activity Body}, Eases session session' →
      Moves session session' call activity →
      (∀ request stage, activity ≠ .postPacket request stage) →
      Reserved bound (amount session') (session'.shares share) := by
    intro call activity heases hmoves hother
    refine reserved_of_moves call hreserved hmoves
      (hamount _ _ heases.outputQueue heases.useCount) ?_
    rw [hshares.others _ _ hother]
    exact hshares.nonneg _ _
  cases step_cases hstep with
  | @start call operation next hidle hnext =>
      have heases := start_eases hnext
      cases operation with
      | postPacket request => exact hstart call request rfl hidle hnext
      | onConnection =>
          cases start_cases hnext with
          | connect =>
              have hreserved' : Reserved bound (amount session)
                  (({ session with connected := true } : Session Body).shares share) :=
                hreserved.mono le_rfl fun other => hshares.connected_le _ _
              refine reserved_of_moves call hreserved' ⟨rfl, rfl⟩
                (hamount _ _ heases.outputQueue heases.useCount) ?_
              rw [hshares.others true (.onConnection .assigned) nofun]
              exact hshares.nonneg _ _
      | _ =>
          cases start_cases hnext with
          | _ => exact hmoves heases ⟨rfl, rfl⟩ nofun
  | postPacket hcall hnext => exact hproceed _ _ _ rfl hcall hnext
  | onConnection hcall hnext =>
      obtain ⟨stage', hmoved⟩ := (onConnection_cases hnext).moves
      exact hmoves (onConnection_eases hnext) hmoved nofun
  | handlePacket hcall hnext =>
      obtain ⟨stage', hmoved⟩ := (handlePacket_cases hnext).moves
      exact hmoves (handlePacket_eases hnext) hmoved nofun
  | checkTimeout hcall hnext =>
      obtain ⟨stage', hmoved⟩ := (checkTimeout_cases hnext).moves
      exact hmoves (checkTimeout_eases hnext) hmoved nofun
  | connectionLost => exact (hlost rfl).mono (hamount _ _ le_rfl le_rfl) fun _ => le_rfl
  | _ => exact hreserved.mono (hamount _ _ le_rfl le_rfl) fun _ => le_rfl

/-- The number of a call that begins is below this one. -/
def Numbered (count : Nat) : Label Body → Prop
  | .start call _ => call < count
  | _ => True

instance (count : Nat) : DecidablePred (Numbered count : Label Body → Prop)
  | .start call _ => inferInstanceAs (Decidable (call < count))
  | .proceed _ | .connectionLost | .loopStop | .setClock _ | .allocElsewhere _ =>
      inferInstanceAs (Decidable True)

theorem idle_of_numbered {count : Nat} {label : Label Body}
    (hidle : ∀ call, count ≤ call → session.calls call = .idle) (hnumbered : Numbered count label)
    (hstep : session.step config label = some session') :
    ∀ call, count ≤ call → session'.calls call = .idle := by
  have hlocking : ∀ {call : Nat} {activity : Activity Body}, call < count →
      Locking session session' call activity →
      ∀ other, count ≤ other → session'.calls other = .idle := by
    intro call activity hcall hlocking other hother
    rw [hlocking.calls, Function.update_of_ne (by omega)]
    exact hidle other hother
  have hbegun : ∀ {call : Nat}, session.calls call ≠ .idle → call < count := by
    intro call hcall
    by_contra hlarge
    exact hcall (hidle call (by omega))
  cases step_cases hstep with
  | start hcall hnext =>
      obtain ⟨activity, hmoved⟩ := start_locking hcall hnext
      exact hlocking hnumbered hmoved
  | postPacket hcall hnext =>
      obtain ⟨activity, hmoved⟩ := postPacket_locking hcall hnext
      exact hlocking (hbegun (by rw [hcall]; nofun)) hmoved
  | onConnection hcall hnext =>
      obtain ⟨activity, hmoved⟩ := onConnection_locking hcall hnext
      exact hlocking (hbegun (by rw [hcall]; nofun)) hmoved
  | handlePacket hcall hnext =>
      obtain ⟨activity, hmoved⟩ := handlePacket_locking hcall hnext
      exact hlocking (hbegun (by rw [hcall]; nofun)) hmoved
  | checkTimeout hcall hnext =>
      obtain ⟨activity, hmoved⟩ := checkTimeout_locking hcall hnext
      exact hlocking (hbegun (by rw [hcall]; nofun)) hmoved
  | _ => exact hidle

/-- The shares of all calls are those of the numbered ones. -/
theorem sum_shares_le {share : Activity Body → Int} {count : Nat}
    (hnonneg : ∀ activity, 0 ≤ share activity) (hzero : share .idle = 0)
    (hidle : ∀ call, count ≤ call → session.calls call = .idle) (calls : Finset Nat) :
    ∑ call ∈ calls, share (session.calls call) ≤
      ∑ call ∈ Finset.range count, share (session.calls call) := by
  have hreserved : Reserved (∑ call ∈ Finset.range count, share (session.calls call)) 0
      fun call => share (session.calls call) := by
    refine Reserved.of_support (fun call hcall => ?_) (fun call => hnonneg _)
      (Int.zero_add _).le
    rw [hidle call (by simpa using hcall), hzero]
  simpa only [Int.zero_add] using hreserved calls

/-- Where only numbered calls begin, room for them is room for all. -/
theorem along_of_range {room : Finset Nat → Session Body → Label Body → Prop} {count : Nat}
    (hroom : ∀ session label, (∀ call, count ≤ call → session.calls call = .idle) →
      room (Finset.range count) session label → ∀ calls, room calls session label)
    {mem : Ref → Channel} {labels : List (Label Body)}
    (halong : Along (step config) (room (Finset.range count)) (new mem) labels)
    (hnumbered : ∀ label ∈ labels, Numbered count label) :
    Along (step config) (fun session label => ∀ calls, room calls session label) (new mem)
      labels :=
  (halong.and_mem hnumbered).imp_of_invariant
    (fun session => ∀ call, count ≤ call → session.calls call = .idle)
    (fun _ _ _ hidle hcondition hstep => idle_of_numbered hidle hcondition.2 hstep)
    (fun session label hidle hcondition => hroom session label hidle hcondition.1)
    fun _ _ => rfl

end Session

end Wnet
