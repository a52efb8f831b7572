import Mathlib.Data.Int.Order.Basic
import Wnet.Foundation.Deadlines
import Wnet.Session.Ledger
import Wnet.Session.Serial

/-!
# The order of the timeouts

Both scans for timeouts stop at the first entry that is not due. They miss nothing
because of an invariant of two lists: the channels in use are those of the sent
requests, in the order of their deadlines, followed by those of the unsent ones,
which carry a time beyond all others and are in step with the output queue.
-/

namespace Wnet

open Foundation

variable {Body : Type*}

/-- The parts of a session that its timeouts depend on. -/
structure Schedule (Body : Type*) where
  globals : Globals
  pool : ChannelPool
  outputQueue : List (Posted Body)
  mutex : Option Nat
  connected : Bool
  clock : Int
  allocations : Nat
  frames : List UInt32
  transmitted : List UInt32

namespace Session

def schedule (session : Session Body) : Schedule Body where
  globals := session.globals
  pool := session.pool
  outputQueue := session.outputQueue
  mutex := session.mutex
  connected := session.connected
  clock := session.clock
  allocations := session.allocations
  frames := session.frames
  transmitted := session.transmitted

variable {config : Config Body} {session : Session Body}

theorem encode_schedule (packet : Posted Body) :
    (session.encode config packet).schedule =
      { session.schedule with frames := (session.encode config packet).frames } := by
  unfold encode
  split <;> rfl

theorem send_schedule (packet : Posted Body) :
    (session.send packet).schedule =
      { session.schedule with
        frames := (session.send packet).frames
        transmitted := (session.send packet).transmitted } := by
  unfold send
  dsimp only
  split <;> rfl

theorem recount_schedule : (session.recount config).schedule = session.schedule := by
  unfold recount
  split <;> rfl

end Session

/-- The contents of the channel of a request. -/
def Pending.content (request : Pending) (expireTime : Int) : Channel where
  id := request.chid
  args := request.args
  handler := request.packetHandler
  expireTime := expireTime
  prev := none
  next := none

/-- A pending request on its channel. -/
structure Item where
  channel : Ref
  request : Pending
  deriving DecidableEq

/-- What a queued packet and a request have in common. -/
def Posted.address (packet : Posted Body) : Option Ref × UInt32 × Int :=
  (packet.channel, packet.packet.header.chid, packet.expireTime)

def Item.address (item : Item) : Option Ref × UInt32 × Int :=
  (some item.channel, item.request.chid, item.request.expireTime)

def Item.deadline (item : Item) : Int := item.request.expireTime

/-- The channels in use belong to the `sent` requests, to the requests `draining`
whose packets have left the queue, and to the `unsent` ones, in this order. -/
structure Timely (config : Config Body) (schedule : Schedule Body)
    (sent draining unsent : List Item) : Prop where
  serving : Serving schedule.pool schedule.allocations
    ((sent ++ draining ++ unsent).map Item.channel) []
  counter : schedule.globals.globalChannelId = counterAt schedule.allocations
  clock : 0 ≤ schedule.clock
  sentContent : ∀ item ∈ sent,
    schedule.pool.content item.channel = item.request.content item.deadline
  unsentContent : ∀ item ∈ draining ++ unsent,
    schedule.pool.content item.channel = item.request.content (qynetMaxTime + 1)
  queue : schedule.outputQueue.map Posted.address = unsent.map Item.address
  order : DeadlineOrder Item.deadline (sent ++ draining ++ unsent)
  deadlines : ∀ item ∈ sent ++ draining ++ unsent, 0 < item.deadline ∧
    item.deadline ≤ Session.expireTime schedule.clock config.queueTimeout
  untransmitted : ∀ item ∈ draining ++ unsent,
    item.request.chid ∉ schedule.frames ∧ item.request.chid ∉ schedule.transmitted
  issued : ∀ chid, chid ∈ schedule.frames ∨ chid ∈ schedule.transmitted →
    Issued schedule.allocations chid

namespace Timely

variable {config : Config Body} {schedule : Schedule Body} {sent draining unsent : List Item}

theorem new (mem : Ref → Channel) :
    Timely config (Session.new mem : Session Body).schedule [] [] [] where
  serving := .new mem
  counter := rfl
  clock := le_rfl
  sentContent := by simp
  unsentContent := by simp
  queue := rfl
  order := List.Pairwise.nil
  deadlines := by simp
  untransmitted := by simp
  issued := by simp [Session.schedule, Session.new]

/-- Requests leave, and packets leave the queue. -/
theorem narrow (htimely : Timely config schedule sent draining unsent) {pool : ChannelPool}
    {outputQueue : List (Posted Body)} {sent' draining' unsent' : List Item}
    (hsent : sent' ⊆ sent) (hunsent : draining' ++ unsent' ⊆ draining ++ unsent)
    (hsublist : (sent' ++ draining' ++ unsent').Sublist (sent ++ draining ++ unsent))
    (hqueue : outputQueue.map Posted.address = unsent'.map Item.address)
    (hserving : Serving pool schedule.allocations
      ((sent' ++ draining' ++ unsent').map Item.channel) [])
    (hcontent : ∀ item ∈ sent' ++ draining' ++ unsent',
      pool.content item.channel = schedule.pool.content item.channel) :
    Timely config { schedule with pool := pool, outputQueue := outputQueue }
      sent' draining' unsent' where
  serving := hserving
  counter := htimely.counter
  clock := htimely.clock
  sentContent := by
    intro item hitem
    rw [hcontent item (by simp [hitem])]
    exact htimely.sentContent item (hsent hitem)
  unsentContent := by
    intro item hitem
    rw [hcontent item (by rw [List.append_assoc]; exact List.mem_append_right _ hitem)]
    exact htimely.unsentContent item (hunsent hitem)
  queue := hqueue
  order := htimely.order.sublist hsublist
  deadlines := fun item hitem => htimely.deadlines item (hsublist.subset hitem)
  untransmitted := fun item hitem => htimely.untransmitted item (hunsent hitem)
  issued := htimely.issued

/-- The order of the timeouts does not depend on the mutex and the connection. -/
theorem around (htimely : Timely config schedule sent draining unsent) (mutex : Option Nat)
    (connected : Bool) :
    Timely config { schedule with mutex := mutex, connected := connected }
      sent draining unsent := { htimely with }

/-- The clock moves on. -/
theorem setClock (htimely : Timely config schedule sent draining unsent) {time : Int}
    (htime : schedule.clock ≤ time) :
    Timely config { schedule with clock := time } sent draining unsent :=
  { htimely with
    clock := htimely.clock.trans htime
    deadlines := fun item hitem => by
      obtain ⟨hpositive, hbound⟩ := htimely.deadlines item hitem
      refine ⟨hpositive, hbound.trans ?_⟩
      exact Int.add_le_add_right htime _ }

/-- A channel is allocated in another pool of the process. -/
theorem allocElsewhere (htimely : Timely config schedule sent draining unsent)
    (pool : ChannelPool) :
    Timely config { schedule with
      globals := (pool.allocChannel schedule.globals).1
      allocations := schedule.allocations + 1 } sent draining unsent :=
  { htimely with
    serving := htimely.serving.mono (Nat.le_succ _)
    counter := by
      rw [ChannelPool.allocChannel_counter, htimely.counter, nextChannelId_counterAt]
    issued := fun chid hchid => (htimely.issued chid hchid).mono (Nat.le_succ _) }

theorem id_eq (htimely : Timely config schedule sent draining unsent) {item : Item}
    (hitem : item ∈ sent ++ draining ++ unsent) :
    schedule.pool.id item.channel = item.request.chid := by
  rw [List.append_assoc, List.mem_append] at hitem
  rcases hitem with hitem | hitem
  · rw [ChannelPool.id_eq_content, htimely.sentContent item hitem]
    rfl
  · rw [ChannelPool.id_eq_content, htimely.unsentContent item hitem]
    rfl

/-- Requests on different channels have different identifiers. -/
theorem chid_eq_iff (htimely : Timely config schedule sent draining unsent)
    (hcount : schedule.allocations ≤ 2 ^ 28 - 1) {first second : Item}
    (hfirst : first ∈ sent ++ draining ++ unsent) (hsecond : second ∈ sent ++ draining ++ unsent) :
    first.request.chid = second.request.chid ↔ first.channel = second.channel := by
  rw [← htimely.id_eq hfirst, ← htimely.id_eq hsecond]
  constructor
  · intro hids
    exact htimely.serving.id_injective hcount (Or.inl (List.mem_map_of_mem hfirst))
      (Or.inl (List.mem_map_of_mem hsecond)) hids
  · intro hchannel
    rw [hchannel]

/-- `PostPacket` allocates a channel and queues its packet. -/
theorem push (htimely : Timely config schedule sent [] unsent)
    (htimeout : 0 < config.queueTimeout) (hcount : schedule.allocations + 1 ≤ 2 ^ 28 - 1)
    {globals : Globals} {pool : ChannelPool} {channel : Ref}
    (halloc : schedule.pool.allocChannel schedule.globals = (globals, pool, channel))
    {handler args : Option Nat} {outputQueue : List (Posted Body)} {item : Item}
    (hitem : item = ⟨channel, pool.id channel, handler, args,
      Session.expireTime schedule.clock config.queueTimeout⟩)
    (hqueue : outputQueue.map Posted.address = (unsent ++ [item]).map Item.address) :
    Timely config { schedule with
      globals := globals
      pool := pool.modify channel fun fields => { fields with handler := handler, args := args }
      outputQueue := outputQueue
      allocations := schedule.allocations + 1 } sent [] (unsent ++ [item]) := by
  have hspec := htimely.serving.allocChannel htimely.counter hcount
  rw [halloc] at hspec
  have hid : pool.id channel = idAt schedule.allocations := by
    rw [ChannelPool.id_eq_content, hspec.content]
    rfl
  have hchannel : item.channel = channel := by rw [hitem]
  have hdeadline : item.deadline = Session.expireTime schedule.clock config.queueTimeout := by
    rw [hitem]
    rfl
  -- The allocated channel was in no item, so the others keep their contents.
  have hothers : ∀ other ∈ sent ++ unsent,
      (pool.modify channel fun fields => { fields with handler := handler, args := args }).content
        other.channel = schedule.pool.content other.channel := by
    intro other hother
    have hmem : other.channel ∈ (sent ++ [] ++ unsent).map Item.channel := by
      rw [List.append_nil]
      exact List.mem_map_of_mem hother
    have hne : other.channel ≠ channel := fun heq => hspec.notUsed (heq ▸ hmem)
    rw [ChannelPool.modify_content, if_neg hne]
    exact hspec.others other.channel (Or.inl hmem)
  have hserving : Serving
      (pool.modify channel fun fields => { fields with handler := handler, args := args })
      (schedule.allocations + 1) ((sent ++ [] ++ unsent).map Item.channel ++ [channel]) [] :=
    hspec.serving.modify channel fun fields => ⟨rfl, rfl, rfl⟩
  have hlist : sent ++ [] ++ (unsent ++ [item]) = (sent ++ [] ++ unsent) ++ [item] := by simp
  constructor
  case serving =>
    rw [hlist, List.map_append, List.map_singleton, hchannel]
    exact hserving
  case counter => exact hspec.counter
  case clock => exact htimely.clock
  case sentContent =>
    intro other hother
    rw [hothers other (List.mem_append_left _ hother)]
    exact htimely.sentContent other hother
  case unsentContent =>
    intro other hother
    rcases List.mem_append.mp (List.nil_append _ ▸ hother) with hold | hnew
    · rw [hothers other (List.mem_append_right _ hold)]
      exact htimely.unsentContent other hold
    · obtain rfl := List.mem_singleton.mp hnew
      have htime : (pool.mem channel).expireTime = qynetMaxTime + 1 :=
        congrArg Channel.expireTime hspec.content
      rw [hchannel, ChannelPool.modify_content, if_pos rfl, hitem]
      simp only [Channel.content, Pending.content, htime]
      rfl
  case queue => exact hqueue
  case order =>
    rw [hlist]
    apply htimely.order.concat
    intro other hother
    rw [hdeadline]
    exact (htimely.deadlines other hother).2
  case deadlines =>
    intro other hother
    rw [hlist] at hother
    rcases List.mem_append.mp hother with hold | hnew
    · exact htimely.deadlines other hold
    · obtain rfl := List.mem_singleton.mp hnew
      rw [hdeadline]
      refine ⟨?_, le_rfl⟩
      have hclock := htimely.clock
      rw [Session.expireTime, if_neg (by omega)]
      omega
  case untransmitted =>
    intro other hother
    rcases List.mem_append.mp (List.nil_append _ ▸ hother) with hold | hnew
    · exact htimely.untransmitted other hold
    · obtain rfl := List.mem_singleton.mp hnew
      -- A fresh identifier cannot have been transmitted or answered.
      have hnew : ¬ Issued schedule.allocations other.request.chid := by
        rw [hitem, hid]
        exact not_issued_idAt hcount
      exact ⟨fun hmem => hnew (htimely.issued _ (Or.inl hmem)),
        fun hmem => hnew (htimely.issued _ (Or.inr hmem))⟩
  case issued => exact fun chid hchid => (htimely.issued chid hchid).mono (Nat.le_succ _)

/-- A packet that was taken from the queue is encoded and its channel stamped. -/
theorem stamp {item : Item} (htimely : Timely config schedule sent [item] unsent)
    (hcount : schedule.allocations ≤ 2 ^ 28 - 1) {frames transmitted : List UInt32}
    (hframes : ∀ chid, chid ∈ frames ∨ chid ∈ transmitted →
      (chid ∈ schedule.frames ∨ chid ∈ schedule.transmitted) ∨ chid = item.request.chid) :
    Timely config { schedule with
      pool := schedule.pool.setExpireTime (some item.channel) item.deadline
      frames := frames
      transmitted := transmitted } (sent ++ [item]) [] unsent := by
  have hmem : item ∈ sent ++ [item] ++ unsent := by simp
  have hapart : ∀ other ∈ sent ++ unsent, other.channel ≠ item.channel := by
    have hnodup := htimely.serving.nodup
    rw [List.append_assoc, List.map_append, List.singleton_append, List.map_cons,
      List.nodup_middle, ← List.map_append, List.nodup_cons] at hnodup
    intro other hother heq
    exact hnodup.1 (heq ▸ List.mem_map_of_mem hother)
  have hserving : Serving (schedule.pool.setExpireTime (some item.channel) item.deadline)
      schedule.allocations ((sent ++ [item] ++ unsent).map Item.channel) [] := by
    rw [ChannelPool.setExpireTime]
    exact htimely.serving.modify item.channel fun fields => ⟨rfl, rfl, rfl⟩
  have hothers : ∀ other ∈ sent ++ unsent,
      (schedule.pool.setExpireTime (some item.channel) item.deadline).content other.channel =
        schedule.pool.content other.channel := by
    intro other hother
    rw [ChannelPool.setExpireTime_content, if_neg (hapart other hother)]
  constructor
  case serving =>
    rw [List.append_nil]
    exact hserving
  case counter => exact htimely.counter
  case clock => exact htimely.clock
  case sentContent =>
    intro other hother
    rcases List.mem_append.mp hother with hold | hnew
    · rw [hothers other (List.mem_append_left _ hold)]
      exact htimely.sentContent other hold
    · obtain rfl := List.mem_singleton.mp hnew
      rw [ChannelPool.setExpireTime_content, if_pos rfl,
        htimely.unsentContent other List.mem_cons_self]
      rfl
  case unsentContent =>
    intro other hother
    rw [List.nil_append] at hother
    rw [hothers other (List.mem_append_right _ hother)]
    exact htimely.unsentContent other (List.mem_append_right _ hother)
  case queue => exact htimely.queue
  case order =>
    rw [List.append_nil]
    exact htimely.order
  case deadlines =>
    rw [List.append_nil]
    exact htimely.deadlines
  case untransmitted =>
    intro other hother
    rw [List.nil_append] at hother
    have hdistinct : other.request.chid ≠ item.request.chid := by
      intro heq
      apply hapart other (List.mem_append_right _ hother)
      exact (htimely.chid_eq_iff hcount (List.mem_append_right _ hother) hmem).mp heq
    have hbefore := htimely.untransmitted other (List.mem_append_right _ hother)
    constructor
    · intro hframe
      rcases hframes _ (Or.inl hframe) with (hold | hold) | hold
      · exact hbefore.1 hold
      · exact hbefore.2 hold
      · exact hdistinct hold
    · intro hsent
      rcases hframes _ (Or.inr hsent) with (hold | hold) | hold
      · exact hbefore.1 hold
      · exact hbefore.2 hold
      · exact hdistinct hold
  case issued =>
    intro chid hchid
    rcases hframes chid hchid with hold | rfl
    · exact htimely.issued chid hold
    · obtain ⟨count, hlt, hid⟩ := htimely.serving.issued (Or.inl (List.mem_map_of_mem hmem))
      exact ⟨count, hlt, by rw [← hid, htimely.id_eq hmem]⟩

theorem filter_transmitted (htimely : Timely config schedule sent [] unsent) {chid : UInt32}
    (hchid : chid ∈ schedule.transmitted) :
    unsent.filter (fun item => item.request.chid ≠ chid) = unsent := by
  apply List.filter_eq_self.mpr
  intro item hitem
  have hfresh := (htimely.untransmitted item hitem).2
  have hne : item.request.chid ≠ chid := fun heq => hfresh (heq ▸ hchid)
  simpa using hne

/-- `HandlePacket` takes the channel of an answered request and gives it back. -/
theorem answer (htimely : Timely config schedule sent [] unsent)
    (hcount : schedule.allocations ≤ 2 ^ 28 - 1) {item : Item} (hitem : item ∈ sent ++ unsent)
    (htransmitted : item.request.chid ∈ schedule.transmitted) :
    Timely config { schedule with
      pool := ((schedule.pool.offered item.request.chid item.channel).modify item.channel
        fun fields => { fields with args := none }).pushFree item.channel }
      (sent.filter fun other => other.request.chid ≠ item.request.chid) [] unsent := by
  have hmem : item ∈ sent ++ [] ++ unsent := by rwa [List.append_nil]
  have hkeep : (sent ++ [] ++ unsent).filter (fun other => other.channel ≠ item.channel) =
      (sent.filter fun other => other.request.chid ≠ item.request.chid) ++ [] ++ unsent := by
    rw [List.append_nil, List.append_nil]
    nth_rewrite 2 [← htimely.filter_transmitted htransmitted]
    rw [← List.filter_append]
    apply List.filter_congr
    intro other hother
    rw [← List.append_nil sent] at hother
    simp [htimely.chid_eq_iff hcount hother hmem]
  have huse : ((sent ++ [] ++ unsent).map Item.channel).erase item.channel =
      ((sent.filter fun other : Item => other.request.chid ≠ item.request.chid) ++ [] ++
        unsent).map Item.channel := by
    rw [htimely.serving.nodup.erase_eq_filter, List.filter_map, ← hkeep]
    congr 1
    apply List.filter_congr
    intro other _
    by_cases hsame : other.channel = item.channel <;> simp [hsame]
  obtain ⟨-, hoffered⟩ := htimely.serving.offerChannel hcount (List.mem_map_of_mem hmem)
  rw [htimely.id_eq hmem, huse] at hoffered
  have hmodified : Serving ((schedule.pool.offered item.request.chid item.channel).modify
      item.channel fun fields => { fields with args := none }) schedule.allocations
      _ [[item.channel]] := hoffered.modify item.channel fun fields => ⟨rfl, rfl, rfl⟩
  have hserving := hmodified.appendChannel hcount List.mem_cons_self
  rw [List.erase_cons_head] at hserving
  have hsublist : (sent.filter fun other => other.request.chid ≠ item.request.chid).Sublist
      sent := List.filter_sublist
  refine htimely.narrow hsublist.subset (List.Subset.refl _) ?_ htimely.queue hserving ?_
  · exact (hsublist.append (List.Sublist.refl _)).append (List.Sublist.refl _)
  · intro other hother
    have hne : other.channel ≠ item.channel := by
      rw [← hkeep] at hother
      simpa using (List.mem_filter.mp hother).2
    rw [ChannelPool.pushFree_content, if_neg hne, ChannelPool.modify_content, if_neg hne,
      ChannelPool.offered_content]

/-- `CheckTimeout` frees the channel of a packet that it took from the queue. -/
theorem free {item : Item} (htimely : Timely config schedule sent (item :: draining) unsent)
    (hcount : schedule.allocations ≤ 2 ^ 28 - 1) {change : Channel → Channel}
    (hkeeps : ∀ fields, (change fields).next = fields.next ∧ (change fields).prev = fields.prev ∧
      (change fields).id = fields.id) :
    Timely config { schedule with
      pool := ((schedule.pool.modify item.channel change).freeChannel (some item.channel)).1 }
      sent draining unsent := by
  have hnodup := htimely.serving.nodup
  have hlist : (sent ++ item :: draining ++ unsent).map Item.channel =
      sent.map Item.channel ++ item.channel :: (draining ++ unsent).map Item.channel := by simp
  rw [hlist, List.nodup_middle, List.nodup_cons, ← List.map_append, ← List.append_assoc] at hnodup
  have huse : ((sent ++ item :: draining ++ unsent).map Item.channel).erase item.channel =
      (sent ++ draining ++ unsent).map Item.channel := by
    have hbefore : item.channel ∉ sent.map Item.channel := by
      intro hmem
      apply hnodup.1
      rw [List.append_assoc, List.map_append]
      exact List.mem_append_left _ hmem
    rw [hlist, List.erase_append_right _ hbefore, List.erase_cons_head, ← List.map_append,
      ← List.append_assoc]
  have hmem : item.channel ∈ (sent ++ item :: draining ++ unsent).map Item.channel := by simp
  obtain ⟨hfree, hserving⟩ :=
    (htimely.serving.modify item.channel hkeeps).freeChannel hcount hmem
  rw [huse] at hserving
  rw [hfree]
  refine htimely.narrow (List.Subset.refl _) ?_ ?_ htimely.queue hserving ?_
  · exact List.subset_cons_self _ _
  · exact ((List.Sublist.refl _).append (List.sublist_cons_self _ _)).append (List.Sublist.refl _)
  · intro other hother
    have hne : other.channel ≠ item.channel :=
      fun heq => hnodup.1 (heq ▸ List.mem_map_of_mem hother)
    rw [ChannelPool.freed_content, if_neg hne, ChannelPool.modify_content, if_neg hne]

/-! ## The two scans -/

theorem expireTime_sent (htimely : Timely config schedule sent draining unsent) {item : Item}
    (hitem : item ∈ sent) : schedule.pool.expireTime item.channel = item.deadline :=
  congrArg Channel.expireTime (htimely.sentContent item hitem)

theorem expireTime_unsent (htimely : Timely config schedule sent draining unsent) {item : Item}
    (hitem : item ∈ draining ++ unsent) :
    schedule.pool.expireTime item.channel = qynetMaxTime + 1 :=
  congrArg Channel.expireTime (htimely.unsentContent item hitem)

/-- The expire times do not decrease along the use list. -/
theorem useOrder (htimely : Timely config schedule sent [] unsent)
    (hclock : Session.expireTime schedule.clock config.queueTimeout ≤ qynetMaxTime + 1) :
    DeadlineOrder schedule.pool.expireTime ((sent ++ [] ++ unsent).map Item.channel) := by
  have hsent : DeadlineOrder Item.deadline sent := htimely.order.sublist (by simp)
  rw [DeadlineOrder, List.pairwise_map, List.append_nil]
  apply List.pairwise_append.mpr ⟨_, _, _⟩
  · apply List.Pairwise.imp_of_mem _ hsent
    intro first second hfirst hsecond hle
    rwa [htimely.expireTime_sent hfirst, htimely.expireTime_sent hsecond]
  · apply List.pairwise_of_forall_mem_list
    intro first hfirst second hsecond
    rw [htimely.expireTime_unsent hfirst, htimely.expireTime_unsent hsecond]
  · intro first hfirst second hsecond
    rw [htimely.expireTime_sent hfirst, htimely.expireTime_unsent hsecond]
    exact (htimely.deadlines first (by simp [hfirst])).2.trans hclock

section Scan

variable (htimely : Timely config schedule sent [] unsent)
  (hclock : Session.expireTime schedule.clock config.queueTimeout ≤ qynetMaxTime + 1) {now : Int}
include htimely hclock

theorem expired_eq_filter :
    schedule.pool.expired now ((sent ++ [] ++ unsent).map Item.channel) =
      (sent.filter (fun item => item.deadline < now) ++
        unsent.filter (fun _ => qynetMaxTime + 1 < now)).map Item.channel := by
  rw [ChannelPool.expired, (htimely.useOrder hclock).takeWhile_due, List.filter_map,
    List.append_nil, List.filter_append]
  congr 2
  · apply List.filter_congr
    intro item hitem
    simp [htimely.expireTime_sent hitem]
  · apply List.filter_congr
    intro item hitem
    simp [htimely.expireTime_unsent hitem]

theorem unexpired_eq_filter :
    schedule.pool.unexpired now ((sent ++ [] ++ unsent).map Item.channel) =
      (sent.filter (fun item => now ≤ item.deadline) ++
        unsent.filter (fun _ => now ≤ qynetMaxTime + 1)).map Item.channel := by
  rw [ChannelPool.unexpired, (htimely.useOrder hclock).dropWhile_due, List.filter_map,
    List.append_nil, List.filter_append]
  congr 2
  · apply List.filter_congr
    intro item hitem
    simp [htimely.expireTime_sent hitem]
  · apply List.filter_congr
    intro item hitem
    simp [htimely.expireTime_unsent hitem]

/-- Up to the time of unsent channels the scan of the use list finds the due sent requests. -/
theorem expired_sent (hnow : now ≤ qynetMaxTime + 1) :
    schedule.pool.expired now ((sent ++ [] ++ unsent).map Item.channel) =
      (sent.filter (fun item => item.deadline < now)).map Item.channel := by
  have hnone : unsent.filter (fun _ => qynetMaxTime + 1 < now) = [] := by simp [hnow]
  rw [htimely.expired_eq_filter hclock, hnone, List.append_nil]

theorem unexpired_sent (hnow : now ≤ qynetMaxTime + 1) :
    schedule.pool.unexpired now ((sent ++ [] ++ unsent).map Item.channel) =
      (sent.filter (fun item : Item => now ≤ item.deadline) ++ [] ++ unsent).map
        Item.channel := by
  have hall : unsent.filter (fun _ => now ≤ qynetMaxTime + 1) = unsent := by simp [hnow]
  rw [htimely.unexpired_eq_filter hclock, hall, List.append_nil]

/-- Beyond that time every request is due. -/
theorem deadline_lt (hnow : qynetMaxTime + 1 < now) {item : Item}
    (hitem : item ∈ sent ++ unsent) : item.deadline < now := by
  rw [← List.append_nil sent] at hitem
  exact ((htimely.deadlines item hitem).2.trans hclock).trans_lt hnow

theorem expired_all (hnow : qynetMaxTime + 1 < now) :
    schedule.pool.expired now ((sent ++ [] ++ unsent).map Item.channel) =
      (sent ++ unsent).map Item.channel := by
  have hsent : sent.filter (fun item => item.deadline < now) = sent := by
    apply List.filter_eq_self.mpr
    intro item hitem
    simpa using htimely.deadline_lt hclock hnow (List.mem_append_left _ hitem)
  have hunsent : unsent.filter (fun _ => qynetMaxTime + 1 < now) = unsent := by simp [hnow]
  rw [htimely.expired_eq_filter hclock, hsent, hunsent]

theorem unexpired_none (hnow : qynetMaxTime + 1 < now) :
    schedule.pool.unexpired now ((sent ++ [] ++ unsent).map Item.channel) = [] := by
  have hsplit := schedule.pool.expired_append_unexpired now
    ((sent ++ [] ++ unsent).map Item.channel)
  rw [htimely.expired_all hclock hnow, List.append_nil] at hsplit
  rw [List.append_nil]
  exact List.append_right_eq_self.mp hsplit

end Scan

end Timely

/-- The scan of the output queue goes as far as the due requests. -/
theorem takeWhile_timedOut {outputQueue : List (Posted Body)} {items : List Item}
    (haddress : outputQueue.map Posted.address = items.map Item.address)
    (hpositive : ∀ item ∈ items, 0 < item.deadline) (now : Int) :
    (outputQueue.takeWhile (Session.timedOut now)).map Posted.address =
      (items.takeWhile (·.deadline < now)).map Item.address ∧
    (outputQueue.dropWhile (Session.timedOut now)).map Posted.address =
      (items.dropWhile (·.deadline < now)).map Item.address := by
  induction items generalizing outputQueue with
  | nil =>
      obtain rfl := List.map_eq_nil_iff.mp haddress
      exact ⟨rfl, rfl⟩
  | cons item rest ih =>
      obtain ⟨packet, outputQueue, rfl, hpacket, hrest⟩ := List.map_eq_cons_iff.mp haddress
      obtain ⟨htaken, hleft⟩ :=
        ih hrest fun other hother => hpositive other (List.mem_cons_of_mem _ hother)
      have htime : packet.expireTime = item.deadline :=
        congrArg (fun address => address.2.2) hpacket
      have hzero := hpositive item List.mem_cons_self
      by_cases hdue : item.deadline < now
      · have hout : Session.timedOut now packet = true := by
          simp [Session.timedOut, htime, hdue, hzero.ne']
        rw [List.takeWhile_cons_of_pos hout, List.dropWhile_cons_of_pos hout,
          List.takeWhile_cons_of_pos (by simpa using hdue),
          List.dropWhile_cons_of_pos (by simpa using hdue), List.map_cons, List.map_cons, hpacket,
          htaken]
        exact ⟨rfl, hleft⟩
      · have hout : ¬ Session.timedOut now packet = true := by
          simp [Session.timedOut, htime, hdue]
        rw [List.takeWhile_cons_of_neg hout, List.dropWhile_cons_of_neg hout,
          List.takeWhile_cons_of_neg (by simpa using hdue),
          List.dropWhile_cons_of_neg (by simpa using hdue)]
        exact ⟨rfl, haddress⟩

end Wnet
