import Wnet.Foundation.Inventory
import Wnet.Session.Locking
import Wnet.Session.Order

/-!
# Who has a packet

A packet that `PostPacket` takes over is queued, in the hands of a call that
sends it under the mutex, in a list that `CheckTimeout` detached, or freed. It
moves between these places and is in one of them at a time: sessions free every
packet they accept once and read nothing of it afterwards.
-/

namespace Wnet

open Foundation

variable {Body : Type*}

/-- The packets that a call has taken over and not freed. -/
def Activity.held : Activity Body → List (Posted Body)
  | .postPacket _ (.encoded packet) | .postPacket _ (.stamped packet) => [packet]
  | .onConnection (.encoded packet) | .onConnection (.stamped packet) => [packet]
  | .checkTimeout _ (.draining packetList) | .checkTimeout _ (.drained _ packetList) => packetList
  | _ => []

/-- The list of packets that a call of `CheckTimeout` detached from the queue and
still has to go through. -/
def Activity.detachedList : Activity Body → List (Posted Body)
  | .checkTimeout _ (.draining packetList) | .checkTimeout _ (.drained _ packetList) => packetList
  | _ => []

/-- Whether a call of `PostPacket` has given its packet away. -/
def Activity.handedOver : Activity Body → Bool
  | .postPacket _ (.encoded _) | .postPacket _ (.stamped _) | .postPacket _ .posted => true
  | .postPacket _ (.returned result) => result
  | _ => false

/-- What a call of `PostPacket` has returned. -/
def Activity.result : Activity Body → Option Bool
  | .postPacket _ (.returned result) => some result
  | _ => none

/-- Where a packet can be once it was handed over. -/
inductive Spot
  | queue
  | held (call : Nat)
  | freed
  deriving DecidableEq

/-- The packet that an event frees. -/
def Event.freedPacket : Event → Option Nat
  | .freed call => some call
  | _ => none

namespace Session

/-- The packets in each place, by the call that posted them. -/
def inventory (session : Session Body) : Spot → List Nat
  | .queue => session.outputQueue.map Posted.call
  | .held call => (session.calls call).held.map Posted.call
  | .freed => session.history.filterMap Event.freedPacket

theorem inventory_become (session : Session Body) (call : Nat) (activity : Activity Body) :
    (session.become call activity).inventory =
      Function.update session.inventory (.held call) (activity.held.map Posted.call) := by
  funext spot
  cases spot with
  | queue => rfl
  | freed => rfl
  | held other =>
      by_cases hother : other = call
      · subst hother
        simp [inventory, become]
      · have hspot : Spot.held other ≠ .held call := fun h => hother (Spot.held.inj h)
        rw [Function.update_of_ne hspot]
        simp [inventory, become, Function.update_of_ne hother]

/-- A call that holds what it held. -/
theorem inventory_held_become {session middle : Session Body} {call : Nat}
    {activity : Activity Body} (hcalls : middle.calls = session.calls)
    (hheld : activity.held = (session.calls call).held) (other : Nat) :
    (middle.become call activity).inventory (.held other) = session.inventory (.held other) := by
  by_cases hother : other = call
  · subst hother
    simp [inventory, become, hheld]
  · simp [inventory, become, Function.update_of_ne hother, hcalls]

/-- `Encode` neither frees nor returns. -/
theorem encode_history (session : Session Body) (config : Config Body) (packet : Posted Body) :
    (session.encode config packet).history.filterMap Event.freedPacket =
        session.history.filterMap Event.freedPacket ∧
      ∀ call result, .returned call result ∈ (session.encode config packet).history →
        .returned call result ∈ session.history := by
  unfold encode
  split
  · simp [List.filterMap_append, Event.freedPacket]
  · exact ⟨rfl, fun _ _ hmem => hmem⟩

/-- The history records what is freed. -/
theorem count_freed (session : Session Body) (call : Nat) :
    session.history.count (.freed call) = (session.inventory .freed).count call := by
  rw [inventory]
  induction session.history with
  | nil => rfl
  | cons event history ih =>
      cases event <;> simp [List.filterMap_cons, Event.freedPacket, List.count_cons, ih]

end Session

/-- The invariant: `place` says where each packet is. -/
structure Custody (session : Session Body) (place : Nat → Option Spot) : Prop where
  placed : Placed session.inventory place
  handedOver : ∀ call, place call = none ↔ (session.calls call).handedOver = false
  returned : ∀ call result, .returned call result ∈ session.history →
    (session.calls call).result = some result

/-- There is such a function. -/
def Session.InCustody (session : Session Body) : Prop := ∃ place, Custody session place

namespace Custody

variable {config : Config Body} {session next : Session Body} {place : Nat → Option Spot}
  {call : Nat} {activity : Activity Body}

theorem new (mem : Ref → Channel) :
    Custody (Session.new mem : Session Body) (fun _ => none) where
  placed := by
    intro item spot
    cases spot <;> rfl
  handedOver := fun _ => ⟨fun _ => rfl, fun _ => rfl⟩
  returned := by
    intro call result hmem
    cases hmem

/-- What a call that has not returned may add to the history. -/
def Returns (call : Nat) (activity : Activity Body) (session next : Session Body) : Prop :=
  ∀ other result, .returned other result ∈ next.history →
    .returned other result ∈ session.history ∨ other = call ∧ activity.result = some result

/-- A piece of a call that touches neither the queue nor the freed packets. -/
structure Carries (call : Nat) (activity : Activity Body) (session middle : Session Body) :
    Prop where
  queue : middle.outputQueue = session.outputQueue
  calls : middle.calls = session.calls
  freed : middle.history.filterMap Event.freedPacket =
    session.history.filterMap Event.freedPacket
  returns : Returns call activity session middle

theorem returns_of_eq {middle : Session Body} (hhistory : middle.history = session.history) :
    Returns call activity session middle := by
  intro other result hmem
  rw [hhistory] at hmem
  exact Or.inl hmem

theorem Carries.of_eq {middle : Session Body}
    (hqueue : middle.outputQueue = session.outputQueue) (hcalls : middle.calls = session.calls)
    (hhistory : middle.history = session.history) : Carries call activity session middle where
  queue := hqueue
  calls := hcalls
  freed := by rw [hhistory]
  returns := returns_of_eq hhistory

/-- A step of one call, with the packets in new places. -/
theorem step (hcustody : Custody session place) {place' : Nat → Option Spot}
    (hcalls : next.calls = Function.update session.calls call activity)
    (hplaced : Placed next.inventory place')
    (hcall : place' call = none ↔ activity.handedOver = false)
    (hothers : ∀ other, other ≠ call → (place' other = none ↔ place other = none))
    (hopen : (session.calls call).result = none)
    (hreturns : Returns call activity session next) : Custody next place' where
  placed := hplaced
  handedOver := by
    intro other
    rw [hcalls]
    by_cases hother : other = call
    · subst hother
      rw [Function.update_self, hcall]
    · rw [Function.update_of_ne hother, hothers other hother, hcustody.handedOver]
  returned := by
    intro other result hmem
    rw [hcalls]
    rcases hreturns other result hmem with hbefore | ⟨rfl, hresult⟩
    · have hold := hcustody.returned other result hbefore
      have hother : other ≠ call := by
        rintro rfl
        rw [hopen] at hold
        cases hold
      rw [Function.update_of_ne hother, hold]
    · rw [Function.update_self, hresult]

/-- A step that leaves every packet where it is. -/
theorem turn {middle : Session Body} (hcustody : Custody session place)
    (hcarries : Carries call activity session middle)
    (hheld : activity.held = (session.calls call).held)
    (hhanded : activity.handedOver = (session.calls call).handedOver)
    (hopen : (session.calls call).result = none) :
    Custody (middle.become call activity) place := by
  have hinventory : (middle.become call activity).inventory = session.inventory := by
    funext spot
    cases spot with
    | queue => exact congrArg (List.map Posted.call) hcarries.queue
    | held other => exact Session.inventory_held_become hcarries.calls hheld other
    | freed => exact hcarries.freed
  refine hcustody.step (by rw [Session.become, hcarries.calls]) (hinventory ▸ hcustody.placed)
    ?_ (fun _ _ => Iff.rfl) hopen hcarries.returns
  rw [hhanded]
  exact hcustody.handedOver call

/-- A call hands over its packet. -/
theorem insert {middle : Session Body} (hcustody : Custody session place) (spot : Spot)
    (hcalls : middle.calls = session.calls) (hbefore : (session.calls call).handedOver = false)
    (hafter : activity.handedOver = true)
    (hspot : (middle.become call activity).inventory spot = session.inventory spot ++ [call])
    (hothers : ∀ other, other ≠ spot →
      (middle.become call activity).inventory other = session.inventory other)
    (hopen : (session.calls call).result = none)
    (hreturns : Returns call activity session middle) :
    (middle.become call activity).InCustody := by
  have hnew := (hcustody.handedOver call).mpr hbefore
  refine ⟨_, hcustody.step (by rw [Session.become, hcalls])
    (hcustody.placed.insert hnew hspot hothers) ?_ ?_ hopen hreturns⟩
  · simp [hafter]
  · intro other hother
    rw [Function.update_of_ne hother]

/-- A call moves packets from one place to another. -/
theorem transfer {middle : Session Body} (hcustody : Custody session place)
    (source target : Spot) (moved : List Nat) (hne : source ≠ target)
    (hcalls : middle.calls = session.calls)
    (hsource : ∀ packet, (session.inventory source).count packet =
      ((middle.become call activity).inventory source).count packet + moved.count packet)
    (htarget : ∀ packet, ((middle.become call activity).inventory target).count packet =
      (session.inventory target).count packet + moved.count packet)
    (hothers : ∀ other, other ≠ source → other ≠ target →
      (middle.become call activity).inventory other = session.inventory other)
    (hhanded : activity.handedOver = (session.calls call).handedOver)
    (hopen : (session.calls call).result = none)
    (hreturns : Returns call activity session middle) :
    (middle.become call activity).InCustody := by
  have hsame : ∀ packet, (if packet ∈ moved then some target else place packet) = none ↔
      place packet = none := by
    intro packet
    by_cases hmoved : packet ∈ moved
    · simp [hmoved, hcustody.placed.place_of_moved hsource hmoved]
    · simp [hmoved]
  refine ⟨_, hcustody.step (by rw [Session.become, hcalls])
    (hcustody.placed.transfer hne hsource htarget hothers) ?_ (fun other _ => hsame other) hopen
    hreturns⟩
  rw [hsame, hhanded]
  exact hcustody.handedOver call

/-- A call frees the first packet that it holds. -/
theorem free {middle : Session Body} {packet : Posted Body} (hcustody : Custody session place)
    (hheld : (session.calls call).held = packet :: activity.held)
    (hcalls : middle.calls = session.calls)
    (hqueue : middle.outputQueue = session.outputQueue)
    (hhistory : middle.history = session.history ++ [.freed packet.call])
    (hhanded : activity.handedOver = (session.calls call).handedOver)
    (hopen : (session.calls call).result = none) :
    (middle.become call activity).InCustody := by
  have hmiddle : ∀ other, middle.inventory (.held other) = session.inventory (.held other) := by
    intro other
    rw [Session.inventory, Session.inventory, hcalls]
  refine hcustody.transfer (.held call) .freed [packet.call] (by simp) hcalls ?_ ?_ ?_ hhanded
    hopen ?_
  · intro other
    rw [Session.inventory_become, Function.update_self, Session.inventory, hheld, List.map_cons,
      ← List.singleton_append, List.count_append, Nat.add_comm]
  · intro other
    rw [Session.inventory_become, Function.update_of_ne (by simp), Session.inventory,
      Session.inventory, hhistory, List.filterMap_append, List.count_append]
    rfl
  · intro spot hsource htarget
    rw [Session.inventory_become, Function.update_of_ne hsource]
    cases spot with
    | queue => rw [Session.inventory, hqueue, Session.inventory]
    | held other => exact hmiddle other
    | freed => exact absurd rfl htarget
  · intro other result hmem
    rw [hhistory] at hmem
    left
    simpa using hmem

/-- A call takes packets from the front of the queue. -/
theorem take {middle : Session Body} {kept : List (Posted Body)}
    (hcustody : Custody session place) (hheld : (session.calls call).held = [])
    (hqueue : session.outputQueue = activity.held ++ kept)
    (hkept : middle.outputQueue = kept) (hcalls : middle.calls = session.calls)
    (hfreed : middle.history.filterMap Event.freedPacket =
      session.history.filterMap Event.freedPacket)
    (hhanded : activity.handedOver = (session.calls call).handedOver)
    (hopen : (session.calls call).result = none)
    (hreturns : Returns call activity session middle) :
    (middle.become call activity).InCustody := by
  refine hcustody.transfer .queue (.held call) (activity.held.map Posted.call) (by simp) hcalls
    ?_ ?_ ?_ hhanded hopen hreturns
  · intro other
    rw [Session.inventory_become, Function.update_of_ne (by simp), Session.inventory,
      Session.inventory, hkept, hqueue, List.map_append, List.count_append, Nat.add_comm]
  · intro other
    rw [Session.inventory_become, Function.update_self, Session.inventory, hheld]
    simp
  · intro spot hsource htarget
    rw [Session.inventory_become, Function.update_of_ne htarget]
    cases spot with
    | queue => exact absurd rfl hsource
    | held other => rw [Session.inventory, Session.inventory, hcalls]
    | freed => exact hfreed

end Custody

/-- Two stages at which a call holds the same packets. -/
structure Activity.Alike (before after : Activity Body) : Prop where
  held : after.held = before.held
  handedOver : after.handedOver = before.handedOver
  result : before.result = none

section Steps

variable {config : Config Body} {session next : Session Body} {place : Nat → Option Spot}
  {call : Nat}

/-- A piece between two such stages. -/
theorem Custody.pass {before after : Activity Body} {middle : Session Body}
    (hcustody : Custody session place) (hcall : session.calls call = before)
    (halike : before.Alike after) (hcarries : Custody.Carries call after session middle) :
    (middle.become call after).InCustody := by
  subst hcall
  exact ⟨place, hcustody.turn hcarries halike.held halike.handedOver halike.result⟩

/-- A call of `PostPacket` returns. -/
theorem Custody.returnPost {request : Request Body} {stage : PostStage Body} {result : Bool}
    {middle : Session Body} (hcustody : Custody session place)
    (hcall : session.calls call = .postPacket request stage)
    (halike : (Activity.postPacket request stage).Alike (.postPacket request (.returned result)))
    (hqueue : middle.outputQueue = session.outputQueue)
    (hcalls : middle.calls = session.calls) (hhistory : middle.history = session.history) :
    (middle.returnPost call request result).InCustody := by
  refine hcustody.pass hcall halike ⟨hqueue, hcalls, ?_, ?_⟩
  · simp [Session.record, hhistory, List.filterMap_append, Event.freedPacket]
  · intro other result' hmem
    simpa [Session.record, hhistory, Activity.result, eq_comm] using hmem

theorem Custody.postPacket (hcustody : Custody session place) {request : Request Body}
    {stage : PostStage Body} (hown : stage.Own call)
    (hcall : session.calls call = .postPacket request stage)
    (hnext : session.postPacket config call request stage = some next) :
    next.InCustody := by
  cases Session.postPacket_cases hnext with
  | refuse hmutex hfull => exact hcustody.returnPost hcall ⟨rfl, rfl, rfl⟩ rfl rfl rfl
  | @encode packet hmutex hconnected =>
      have hcalled : packet.call = call := hown
      have hheld : (session.calls call).held = [] := by rw [hcall]; rfl
      have hspec := encode_spec config { session with mutex := some call } packet
      have hhistory := Session.encode_history { session with mutex := some call } config packet
      refine hcustody.insert (.held call) hspec.calls (by rw [hcall]; rfl) rfl ?_ ?_
        (by rw [hcall]; rfl) (fun other result hmem => Or.inl (hhistory.2 _ _ hmem))
      · rw [Session.inventory_become, Function.update_self, Session.inventory, hheld]
        simp [Activity.held, hcalled]
      · intro spot hspot
        rw [Session.inventory_become, Function.update_of_ne hspot]
        cases spot with
        | queue => rw [Session.inventory, hspec.outputQueue, Session.inventory]
        | held other => rw [Session.inventory, hspec.calls, Session.inventory]
        | freed => exact hhistory.1
  | @push packet hmutex hconnected =>
      have hcalled : packet.call = call := hown
      have hheld : (session.calls call).held = [] := by rw [hcall]; rfl
      refine hcustody.insert .queue rfl (by rw [hcall]; rfl) rfl ?_ ?_ (by rw [hcall]; rfl)
        (Custody.returns_of_eq rfl)
      · rw [Session.inventory_become, Function.update_of_ne (by simp)]
        simp [Session.inventory, Session.push, hcalled]
      · intro spot hspot
        cases spot with
        | queue => exact absurd rfl hspot
        | held other =>
            apply Session.inventory_held_become rfl
            exact hheld.symm
        | freed => rfl
  | @send packet =>
      have hspec := send_spec session packet
      have hhistory := congrArg Traffic.history (session.send_traffic packet)
      exact hcustody.free (by rw [hcall]; rfl) hspec.calls hspec.outputQueue hhistory
        (by rw [hcall]; rfl) (by rw [hcall]; rfl)
  | wake hmutex hblocking hover => exact hcustody.returnPost hcall ⟨rfl, rfl, rfl⟩ rfl rfl rfl
  | wait hmutex hblocking hfull =>
      exact ⟨place, hcustody.placed, hcustody.handedOver, hcustody.returned⟩
  | leave hfree => exact hcustody.returnPost hcall ⟨rfl, rfl, rfl⟩ rfl rfl rfl
  | _ => exact hcustody.pass hcall ⟨rfl, rfl, rfl⟩ (.of_eq rfl rfl rfl)

theorem Custody.onConnection (hcustody : Custody session place) {stage : FlushStage Body}
    (hcall : session.calls call = .onConnection stage)
    (hnext : session.onConnection config call stage = some next) : next.InCustody := by
  cases Session.onConnection_cases hnext with
  | @encode packet outputQueue hqueue =>
      have hspec := encode_spec config (session.pop packet outputQueue) packet
      have hhistory :=
        Session.encode_history (session.pop packet outputQueue) config packet
      exact hcustody.take (by rw [hcall]; rfl) hqueue hspec.outputQueue hspec.calls hhistory.1
        (by rw [hcall]; rfl) (by rw [hcall]; rfl)
        (fun other result hmem => Or.inl (hhistory.2 _ _ hmem))
  | unlock hqueue =>
      obtain ⟨total, htotal⟩ := recount_eq config session
      rw [htotal]
      exact hcustody.pass hcall ⟨rfl, rfl, rfl⟩ (.of_eq rfl rfl rfl)
  | @send packet =>
      have hspec := send_spec session packet
      have hhistory := congrArg Traffic.history (session.send_traffic packet)
      exact hcustody.free (by rw [hcall]; rfl) hspec.calls hspec.outputQueue hhistory
        (by rw [hcall]; rfl) (by rw [hcall]; rfl)
  | _ => exact hcustody.pass hcall ⟨rfl, rfl, rfl⟩ (.of_eq rfl rfl rfl)

theorem Custody.handlePacket (hcustody : Custody session place) {stage : ResponseStage Body}
    (hcall : session.calls call = .handlePacket stage)
    (hnext : session.handlePacket config call stage = some next) : next.InCustody := by
  cases Session.handlePacket_cases hnext with
  | answer hhandler => exact hcustody.pass hcall ⟨rfl, rfl, rfl⟩ (.of_eq rfl rfl rfl)
  | append => exact hcustody.pass hcall ⟨rfl, rfl, rfl⟩ (.of_eq rfl rfl rfl)

theorem Custody.checkTimeout (hcustody : Custody session place) {now : Int}
    {stage : TimeoutStage Body} (hcall : session.calls call = .checkTimeout now stage)
    (hnext : session.checkTimeout config call now stage = some next) : next.InCustody := by
  cases Session.checkTimeout_cases hnext with
  | detach hmutex =>
      refine hcustody.take (by rw [hcall]; rfl) ?_ rfl rfl rfl (by rw [hcall]; rfl)
        (by rw [hcall]; rfl) (Custody.returns_of_eq rfl)
      exact (List.takeWhile_append_dropWhile).symm
  | dropPacket | notifyQueued | skipQueued =>
      exact hcustody.free (by rw [hcall]; rfl) rfl rfl rfl (by rw [hcall]; rfl) (by rw [hcall]; rfl)
  | recount hmutex hover =>
      obtain ⟨total, htotal⟩ := recount_eq config session
      rw [htotal]
      exact hcustody.pass hcall ⟨rfl, rfl, rfl⟩ (.of_eq rfl rfl rfl)
  | _ => exact hcustody.pass hcall ⟨rfl, rfl, rfl⟩ (.of_eq rfl rfl rfl)

theorem Custody.start (hcustody : Custody session place) {operation : Operation Body}
    (hidle : session.calls call = .idle)
    (hnext : session.start config call operation = some next) : next.InCustody := by
  cases Session.start_cases hnext with
  | reject hlost =>
      refine hcustody.pass hidle ⟨rfl, rfl, rfl⟩ ⟨rfl, rfl, ?_, ?_⟩
      · simp [Session.record, List.filterMap_append, Event.freedPacket]
      · intro other result hmem
        simpa [Session.record, Activity.result, eq_comm] using hmem
  | enter hallowed =>
      refine hcustody.pass hidle ⟨rfl, rfl, rfl⟩ ⟨rfl, rfl, ?_, ?_⟩
      · simp [Session.record, List.filterMap_append, Event.freedPacket]
      · intro other result hmem
        left
        simpa [Session.record] using hmem
  | _ => exact hcustody.pass hidle ⟨rfl, rfl, rfl⟩ (.of_eq rfl rfl rfl)

theorem step_inCustody {label : Label Body} (hcustody : session.InCustody)
    (hattributed : session.Attributed) (hstep : session.step config label = some next) :
    next.InCustody := by
  obtain ⟨place, hcustody⟩ := hcustody
  have hquiet : ∀ {session' : Session Body}, session'.outputQueue = session.outputQueue →
      session'.calls = session.calls → session'.history = session.history →
      session'.InCustody := by
    intro session' hqueue hcalls hhistory
    have hinventory : session'.inventory = session.inventory := by
      funext spot
      cases spot <;> simp only [Session.inventory, hqueue, hcalls, hhistory]
    refine ⟨place, hinventory ▸ hcustody.placed, ?_, ?_⟩
    · rw [hcalls]
      exact hcustody.handedOver
    · rw [hcalls, hhistory]
      exact hcustody.returned
  cases Session.step_cases hstep with
  | start hidle hnext => exact hcustody.start hidle hnext
  | @postPacket call request stage next hcall hnext =>
      exact hcustody.postPacket (hattributed call request stage hcall) hcall hnext
  | onConnection hcall hnext => exact hcustody.onConnection hcall hnext
  | handlePacket hcall hnext => exact hcustody.handlePacket hcall hnext
  | checkTimeout hcall hnext => exact hcustody.checkTimeout hcall hnext
  | _ => exact hquiet rfl rfl rfl

end Steps

/-! ## What is done with the packets -/

/-- The packet that something is done with. -/
def Access.packet : Access → Nat
  | .touched call | .freed call => call

/-- The packet that an access frees. -/
def Access.freedPacket : Access → Option Nat
  | .touched _ => none
  | .freed call => some call

/-- Nothing is done with a packet after it was freed. -/
def Untouched (accesses : List Access) : Prop :=
  accesses.Pairwise fun earlier later => earlier ≠ .freed later.packet

theorem Untouched.append {accesses more : List Access} (huntouched : Untouched accesses)
    (hmore : Untouched more) (hnot : ∀ access ∈ more, .freed access.packet ∉ accesses) :
    Untouched (accesses ++ more) := by
  refine List.pairwise_append.mpr ⟨huntouched, hmore, ?_⟩
  rintro earlier hearlier later hlater rfl
  exact hnot later hlater hearlier

namespace Session

/-- The packet is queued, held by a call or not handed over yet. -/
def Reached (session : Session Body) (packet : Nat) : Prop :=
  packet ∈ session.inventory .queue ∨ (∃ holder, packet ∈ session.inventory (.held holder)) ∨
    (session.calls packet).handedOver = false

/-- A step touches packets that the calls and the queue can reach, and may then free one that
a call holds. -/
structure Handles (session next : Session Body) (packets : List Nat) (freed : Option Nat) :
    Prop where
  accesses : next.accesses =
    session.accesses ++ (packets.map .touched ++ freed.toList.map .freed)
  history : next.history.filterMap Event.freedPacket =
    session.history.filterMap Event.freedPacket ++ freed.toList
  touched : ∀ packet ∈ packets, session.Reached packet
  held : ∀ packet ∈ freed, ∃ holder, packet ∈ session.inventory (.held holder)

/-- The accesses are in order, and the packets freed in them are those of the history. -/
structure Records (session : Session Body) : Prop where
  untouched : Untouched session.accesses
  freed : session.accesses.filterMap Access.freedPacket =
    session.history.filterMap Event.freedPacket

theorem Records.mem_history (hrecords : Records session) {call : Nat}
    (hfreed : .freed call ∈ session.accesses) : call ∈ session.inventory .freed := by
  rw [inventory, ← hrecords.freed]
  exact List.mem_filterMap.mpr ⟨_, hfreed, rfl⟩

end Session

section Accesses

variable {config : Config Body} {session next : Session Body} {place : Nat → Option Spot}
  {call : Nat} {packets : List Nat} {freed : Option Nat}

open Session

theorem Custody.reached (hcustody : Custody session place) {packet : Nat}
    (hreached : session.Reached packet) : place packet ≠ some .freed := by
  rcases hreached with hqueue | ⟨holder, hheld⟩ | hown
  · rw [hcustody.placed.mem_iff.mp hqueue]
    decide
  · rw [hcustody.placed.mem_iff.mp hheld]
    simp
  · rw [(hcustody.handedOver packet).mpr hown]
    decide

/-- A step keeps the record. -/
theorem Custody.records (hcustody : Custody session place) (hrecords : session.Records)
    (hhandles : Handles session next packets freed) : next.Records where
  untouched := by
    have hbefore : ∀ {packet : Nat}, .freed packet ∈ session.accesses →
        place packet = some .freed := fun hfreed =>
      hcustody.placed.mem_iff.mp (hrecords.mem_history hfreed)
    rw [hhandles.accesses]
    refine hrecords.untouched.append (List.pairwise_append.mpr ⟨?_, ?_, ?_⟩) ?_
    · exact List.pairwise_map.mpr (List.pairwise_of_forall fun _ _ => Access.noConfusion)
    · cases freed <;> simp
    · intro earlier hearlier later hlater
      obtain ⟨packet, -, rfl⟩ := List.mem_map.mp hearlier
      exact Access.noConfusion
    · intro access haccess hfreed
      refine hcustody.reached ?_ (hbefore hfreed)
      rcases List.mem_append.mp haccess with hmem | hmem
      · obtain ⟨packet, hpacket, rfl⟩ := List.mem_map.mp hmem
        exact hhandles.touched packet hpacket
      · obtain ⟨packet, hpacket, rfl⟩ := List.mem_map.mp hmem
        exact Or.inr (Or.inl (hhandles.held packet (Option.mem_toList.mp hpacket)))
  freed := by
    have htouched : (packets.map Access.touched).filterMap Access.freedPacket = [] := by
      simp [List.filterMap_eq_nil_iff, Access.freedPacket]
    rw [hhandles.accesses, hhandles.history, List.filterMap_append, List.filterMap_append,
      hrecords.freed, htouched]
    cases freed <;> rfl

theorem Session.Handles.quiet (haccesses : next.accesses = session.accesses)
    (hhistory : next.history.filterMap Event.freedPacket =
      session.history.filterMap Event.freedPacket) : Handles session next [] none where
  accesses := by simp [haccesses]
  history := by simp [hhistory]
  touched := by simp
  held := by simp

/-- A call of `PostPacket` reaches its own packet before it hands it over. -/
theorem Session.reached_own {request : Request Body} {stage : PostStage Body}
    (hcall : session.calls call = .postPacket request stage)
    (hbefore : (Activity.postPacket request stage).handedOver = false) : session.Reached call := by
  refine Or.inr (Or.inr ?_)
  rw [hcall]
  exact hbefore

theorem Session.held_of_mem {packet : Posted Body}
    (hmem : packet ∈ (session.calls call).held) :
    ∃ holder, packet.call ∈ session.inventory (.held holder) :=
  ⟨call, List.mem_map_of_mem hmem⟩

theorem Session.returnPost_handles {request : Request Body} {result : Bool}
    {middle : Session Body} (haccesses : middle.accesses = session.accesses)
    (hhistory : middle.history = session.history) :
    Handles session (middle.returnPost call request result) [] none :=
  .quiet haccesses (by simp [returnPost, become, record, hhistory, Event.freedPacket])

theorem Session.encode_handles {middle : Session Body} {packet : Posted Body}
    {activity : Activity Body}
    (haccesses : middle.accesses = session.accesses ++ packets.map .touched)
    (hhistory : middle.history = session.history)
    (htouched : ∀ touched ∈ packets ++ [packet.call], session.Reached touched) :
    Handles session ((middle.encode config packet).become call activity)
      (packets ++ [packet.call]) none where
  accesses := by
    have hencode : (middle.encode config packet).accesses =
        middle.accesses ++ [.touched packet.call] := by
      unfold encode
      split <;> rfl
    simp [become, hencode, haccesses]
  history := by
    rw [become, (encode_history middle config packet).1, hhistory]
    exact (List.append_nil _).symm
  touched := htouched
  held := by simp

theorem Session.stamp_handles {packet : Posted Body} {activity : Activity Body}
    (hheld : packet ∈ (session.calls call).held) :
    Handles session ((session.stamp packet).become call activity) [packet.call] none where
  accesses := rfl
  history := (List.append_nil _).symm
  touched := by
    intro touched htouched
    rw [List.mem_singleton.mp htouched]
    exact Or.inr (Or.inl (held_of_mem hheld))
  held := by simp

/-- A packet that a call holds is freed. -/
theorem Session.free_handles {middle : Session Body} {packet : Posted Body}
    {activity : Activity Body} (hheld : packet ∈ (session.calls call).held)
    (hpackets : packets ⊆ [packet.call])
    (haccesses : middle.accesses =
      session.accesses ++ (packets.map .touched ++ [.freed packet.call]))
    (hhistory : middle.history = session.history ++ [.freed packet.call]) :
    Handles session (middle.become call activity) packets (some packet.call) where
  accesses := haccesses
  history := by simp [become, hhistory, Event.freedPacket]
  touched := by
    intro touched htouched
    rw [List.mem_singleton.mp (hpackets htouched)]
    exact Or.inr (Or.inl (held_of_mem hheld))
  held := by
    rintro freed ⟨⟩
    exact held_of_mem hheld

theorem Session.send_accesses (session : Session Body) (packet : Posted Body) :
    (session.send packet).accesses = session.accesses ++ [.freed packet.call] := by
  unfold send
  dsimp only
  split <;> rfl

theorem Session.postPacket_handles {request : Request Body} {stage : PostStage Body}
    (hown : stage.Own call) (hcall : session.calls call = .postPacket request stage)
    (hnext : session.postPacket config call request stage = some next) :
    ∃ packets freed, Handles session next packets freed := by
  cases postPacket_cases hnext with
  | refuse | leave => exact ⟨[], none, returnPost_handles rfl rfl⟩
  | wake => exact ⟨[], none, returnPost_handles rfl rfl⟩
  | admitted | wait => exact ⟨[], none, .quiet rfl rfl⟩
  | allocate | withoutChannel =>
      have hreached := reached_own hcall rfl
      exact ⟨[call], none, rfl, (List.append_nil _).symm, by simpa using hreached, by simp⟩
  | @fill packet channel =>
      have hcalled : packet.call = call := hown
      have hreached := reached_own hcall rfl
      exact ⟨[packet.call], none, rfl, (List.append_nil _).symm, by simpa [hcalled] using hreached,
        by simp⟩
  | @encode packet hmutex hconnected =>
      have hcalled : packet.call = call := hown
      have hreached := reached_own hcall rfl
      exact ⟨[] ++ [packet.call], none,
        encode_handles (by simp) rfl (by simpa [hcalled] using hreached)⟩
  | @push packet hmutex hconnected =>
      have hcalled : packet.call = call := hown
      have hreached := reached_own hcall rfl
      refine ⟨(packet :: session.outputQueue.getLast?.toList).map Posted.call, none, ?_,
        (List.append_nil _).symm, ?_, by simp⟩
      · simp [push, become]
      · intro touched htouched
        obtain ⟨linked, hlinked, rfl⟩ := List.mem_map.mp htouched
        rcases List.mem_cons.mp hlinked with rfl | hlast
        · exact hcalled ▸ hreached
        · have hmem := List.mem_of_getLast? (Option.mem_toList.mp hlast)
          exact Or.inl (List.mem_map_of_mem hmem)
  | @stamp packet => exact ⟨_, none, stamp_handles (by simp [hcall, Activity.held])⟩
  | @send packet =>
      exact ⟨[], _, free_handles (by simp [hcall, Activity.held]) (by simp)
        (session.send_accesses packet) (congrArg Traffic.history (session.send_traffic packet))⟩

theorem Session.onConnection_handles {stage : FlushStage Body}
    (hcall : session.calls call = .onConnection stage)
    (hnext : session.onConnection config call stage = some next) :
    ∃ packets freed, Handles session next packets freed := by
  cases onConnection_cases hnext with
  | @encode packet outputQueue hqueue =>
      have hreached : session.Reached packet.call := Or.inl (by simp [inventory, hqueue])
      exact ⟨[packet.call] ++ [packet.call], none,
        encode_handles rfl rfl (by simpa using hreached)⟩
  | unlock hqueue =>
      obtain ⟨total, htotal⟩ := recount_eq config session
      rw [htotal]
      exact ⟨[], none, .quiet rfl rfl⟩
  | @stamp packet => exact ⟨_, none, stamp_handles (by simp [hcall, Activity.held])⟩
  | @send packet =>
      exact ⟨[], _, free_handles (by simp [hcall, Activity.held]) (by simp)
        (session.send_accesses packet) (congrArg Traffic.history (session.send_traffic packet))⟩
  | _ => exact ⟨[], none, .quiet rfl rfl⟩

theorem Session.checkTimeout_handles {now : Int} {stage : TimeoutStage Body}
    (hcall : session.calls call = .checkTimeout now stage)
    (hnext : session.checkTimeout config call now stage = some next) :
    ∃ packets freed, Handles session next packets freed := by
  cases checkTimeout_cases hnext with
  | detach hmutex =>
      refine ⟨(session.outputQueue.takeWhile (timedOut now) ++
        (session.outputQueue.dropWhile (timedOut now)).head?.toList).map Posted.call, none, ?_,
        (List.append_nil _).symm, ?_, by simp⟩
      · simp [detachTimedOut, become, Function.comp_def]
      · intro touched htouched
        obtain ⟨packet, hpacket, rfl⟩ := List.mem_map.mp htouched
        refine Or.inl (List.mem_map_of_mem ?_)
        rcases List.mem_append.mp hpacket with htaken | hkept
        · exact (List.takeWhile_prefix _).mem htaken
        · exact (List.dropWhile_suffix _).mem
            (List.mem_of_mem_head? (Option.mem_toList.mp hkept))
  | @dropPacket packet | @notifyQueued packet | @skipQueued packet =>
      exact ⟨[packet.call], _, free_handles (by simp [hcall, Activity.held])
        (List.Subset.refl _) rfl rfl⟩
  | recount hmutex hover =>
      obtain ⟨total, htotal⟩ := recount_eq config session
      rw [htotal]
      exact ⟨[], none, .quiet rfl rfl⟩
  | _ => exact ⟨[], none, .quiet rfl rfl⟩

theorem Session.step_handles {label : Label Body} (hattributed : session.Attributed)
    (hstep : session.step config label = some next) :
    ∃ packets freed, Handles session next packets freed := by
  cases step_cases hstep with
  | start hidle hnext =>
      cases start_cases hnext with
      | reject =>
          exact ⟨[], none, .quiet rfl (by simp [returnPost, become, record, Event.freedPacket])⟩
      | enter => exact ⟨[], none, .quiet rfl (by simp [become, record, Event.freedPacket])⟩
      | _ => exact ⟨[], none, .quiet rfl rfl⟩
  | postPacket hcall hnext => exact postPacket_handles (hattributed _ _ _ hcall) hcall hnext
  | onConnection hcall hnext => exact onConnection_handles hcall hnext
  | handlePacket hcall hnext =>
      cases handlePacket_cases hnext <;> exact ⟨[], none, .quiet rfl rfl⟩
  | checkTimeout hcall hnext => exact checkTimeout_handles hcall hnext
  | _ => exact ⟨[], none, .quiet rfl rfl⟩

/-- In every reachable state each packet is in one place, and nothing was done with one that
was freed. -/
theorem run_inCustody {mem : Ref → Channel} {labels : List (Label Body)}
    (hrun : run (Session.step config) (Session.new mem) labels = some session) :
    session.InCustody ∧ session.Attributed ∧ session.Exclusive ∧ session.Records := by
  apply run_invariant (fun session => session.InCustody ∧ session.Attributed ∧
    session.Exclusive ∧ session.Records) _ _ hrun
  · exact ⟨⟨_, Custody.new mem⟩, Session.attributed_new mem, Session.exclusive_new mem,
      List.Pairwise.nil, rfl⟩
  · rintro before label after middle next - - ⟨hcustody, hattributed, hexclusive, hrecords⟩ hstep
    obtain ⟨place, hplace⟩ := hcustody
    obtain ⟨packets, freed, hhandles⟩ := Session.step_handles hattributed hstep
    exact ⟨step_inCustody ⟨place, hplace⟩ hattributed hstep,
      (Session.step_move hattributed hstep).1, Session.step_exclusive hexclusive hstep,
      hplace.records hrecords hhandles⟩

end Accesses

/-! ## What follows from it -/

namespace Session

/-- A packet is in the queue, in one detached list or freed, once, and nowhere else. -/
def InOnePlace (session : Session Body) (call : Nat) : Prop :=
  ∃ spot : Spot, (∀ holder, spot = .held holder →
      call ∈ (session.calls holder).detachedList.map Posted.call) ∧
    ∀ other, (session.inventory other).count call = if other = spot then 1 else 0

/-- The loop of `PacketQueue::Clear`. -/
def clear : List (Posted Body) → Session Body → Session Body
  | [], session => { session with outputQueue := [] }
  | packet :: rest, session => clear rest ((session.pop packet rest).free packet)

/-- The destructor, which destroys `outputQueue_`. -/
def destroy (session : Session Body) : Session Body := clear session.outputQueue session

/-- A refused packet was not freed. An accepted one is, whenever no call holds the
mutex, in the queue, in one detached list or freed. Nothing is done with a packet after it
was freed, and neither does the destructor do anything with it, after which every accepted
packet was freed once and no refused one was. -/
structure FreedOnce (session : Session Body) : Prop where
  refused : ∀ call, .returned call false ∈ session.history → .freed call ∉ session.history
  accepted : ∀ call, .returned call true ∈ session.history → session.mutex = none →
    session.InOnePlace call
  untouched : Untouched session.accesses
  recorded : session.accesses.filterMap Access.freedPacket =
    session.history.filterMap Event.freedPacket
  destroyed : (∀ call, (session.calls call).finished) → Untouched session.destroy.accesses ∧
    ∀ call result, .returned call result ∈ session.history →
      session.destroy.history.count (.freed call) = if result then 1 else 0

theorem history_clear (queue : List (Posted Body)) (session : Session Body) :
    (clear queue session).history =
      session.history ++ queue.map fun packet => .freed packet.call := by
  induction queue generalizing session with
  | nil => simp [clear]
  | cons packet rest ih =>
      rw [clear, ih]
      simp [free, pop]

end Session

section Consequences

variable {config : Config Body} {session : Session Body} {place : Nat → Option Spot}
  {call : Nat}

theorem Activity.held_eq_detachedList {activity : Activity Body}
    (hlocks : activity.locks = false) : activity.held = activity.detachedList := by
  cases activity with
  | idle => rfl
  | postPacket request stage =>
      cases stage with
      | encoded packet => cases hlocks
      | stamped packet => cases hlocks
      | _ => rfl
  | onConnection stage =>
      cases stage with
      | encoded packet => cases hlocks
      | stamped packet => cases hlocks
      | _ => rfl
  | handlePacket stage => rfl
  | checkTimeout now stage => cases stage <;> rfl

theorem Activity.held_of_finished {activity : Activity Body} (hfinished : activity.finished) :
    activity.held = [] := by
  cases activity with
  | idle => rfl
  | postPacket request stage =>
      cases stage with
      | returned result => rfl
      | _ => cases hfinished
  | onConnection stage =>
      cases stage with
      | returned => rfl
      | _ => cases hfinished
  | handlePacket stage => rfl
  | checkTimeout now stage =>
      cases stage with
      | returned => rfl
      | _ => cases hfinished

theorem Custody.not_freed (hcustody : Custody session place)
    (hplace : place call ≠ some .freed) : .freed call ∉ session.history := by
  rw [← List.count_eq_zero, Session.count_freed, hcustody.placed, if_neg hplace]

/-- What was returned says whether the packet was handed over. -/
theorem Custody.handedOver_of_returned (hcustody : Custody session place) {result : Bool}
    (hreturned : .returned call result ∈ session.history) :
    place call = none ↔ result = false := by
  have hresult := hcustody.returned call result hreturned
  rw [hcustody.handedOver]
  cases hactivity : session.calls call with
  | postPacket request stage =>
      rw [hactivity] at hresult
      cases stage with
      | returned other =>
          obtain rfl := Option.some.inj hresult
          rfl
      | _ => cases hresult
  | _ =>
      rw [hactivity] at hresult
      cases hresult

theorem Custody.inOnePlace (hcustody : Custody session place) (hexclusive : session.Exclusive)
    (hmutex : session.mutex = none) (hreturned : .returned call true ∈ session.history) :
    session.InOnePlace call := by
  cases hplace : place call with
  | none =>
      have hfalse := (hcustody.handedOver_of_returned hreturned).mp hplace
      cases hfalse
  | some spot =>
      refine ⟨spot, ?_, ?_⟩
      · rintro holder rfl
        have hlocks : (session.calls holder).locks = false := by
          by_contra hlocks
          have hheld := (hexclusive holder).mp (by simpa using hlocks)
          rw [hmutex] at hheld
          cases hheld
        rw [← Activity.held_eq_detachedList hlocks]
        exact hcustody.placed.mem_iff.mpr hplace
      · intro other
        rw [hcustody.placed, hplace]
        simp only [Option.some.injEq, eq_comm]

/-- The destructor frees what is left. -/
theorem Custody.destroy (hcustody : Custody session place)
    (hfinished : ∀ call, (session.calls call).finished) {result : Bool}
    (hreturned : .returned call result ∈ session.history) :
    session.destroy.history.count (.freed call) = if result then 1 else 0 := by
  have hcount : ∀ queue : List (Posted Body),
      (queue.map fun packet => Event.freed packet.call).count (.freed call) =
        (queue.map Posted.call).count call := by
    intro queue
    induction queue with
    | nil => rfl
    | cons packet queue ih => simp [List.count_cons, ih]
  have hplaces : ∀ holder, place call ≠ some (.held holder) := by
    intro holder hplace
    have hmem := hcustody.placed.mem_iff.mpr hplace
    rw [Session.inventory, Activity.held_of_finished (hfinished holder)] at hmem
    cases hmem
  have hqueue : (session.outputQueue.map Posted.call).count call =
      if place call = some .queue then 1 else 0 := hcustody.placed call .queue
  have hhanded := hcustody.handedOver_of_returned hreturned
  rw [Session.destroy, Session.history_clear, List.count_append, hcount, Session.count_freed,
    hcustody.placed, hqueue]
  cases hplace : place call with
  | none => simp [hhanded.mp hplace]
  | some spot =>
      have htrue : result = true := by
        rw [hplace] at hhanded
        simpa using hhanded
      cases spot with
      | queue => simp [htrue]
      | freed => simp [htrue]
      | held holder => exact absurd hplace (hplaces holder)

theorem Session.clear_untouched {queue : List (Posted Body)} {session : Session Body}
    (huntouched : Untouched session.accesses) (hnodup : (queue.map Posted.call).Nodup)
    (hqueued : ∀ packet ∈ queue, .freed packet.call ∉ session.accesses) :
    Untouched (clear queue session).accesses := by
  induction queue generalizing session with
  | nil => exact huntouched
  | cons packet rest ih =>
      obtain ⟨hnew, hrest⟩ := List.nodup_cons.mp hnodup
      have hqueue := hqueued packet List.mem_cons_self
      have hfreed : Untouched (session.accesses ++ [.touched packet.call] ++
          [.freed packet.call]) := by
        rw [List.append_assoc]
        exact huntouched.append (by simp [Untouched]) (by simpa [Access.packet] using hqueue)
      refine ih hfreed hrest fun other hother => ?_
      have hne : other.call ≠ packet.call := fun hsame =>
        hnew (hsame ▸ List.mem_map_of_mem hother)
      have hbefore := hqueued other (List.mem_cons_of_mem _ hother)
      simp [free, pop, hne, hbefore]

/-- The destructor does nothing with a packet that was freed. -/
theorem Custody.destroy_untouched (hcustody : Custody session place)
    (hrecords : session.Records) : Untouched session.destroy.accesses := by
  refine Session.clear_untouched hrecords.untouched ?_ fun packet hpacket hfreed => ?_
  · rw [List.nodup_iff_count_le_one]
    intro other
    have hcount : (session.outputQueue.map Posted.call).count other =
        if place other = some .queue then 1 else 0 := hcustody.placed other .queue
    rw [hcount]
    split <;> simp
  · have hplace : place packet.call = some .queue :=
      hcustody.placed.mem_iff.mp (List.mem_map_of_mem hpacket)
    have hgone := hcustody.placed.mem_iff.mp (hrecords.mem_history hfreed)
    rw [hplace] at hgone
    cases hgone

/-- In every reachable state the packets are freed as they should be. -/
theorem packets_freed_once {mem : Ref → Channel} {labels : List (Label Body)}
    (hrun : run (Session.step config) (Session.new mem) labels = some session) :
    session.FreedOnce := by
  obtain ⟨⟨place, hcustody⟩, hattributed, hexclusive, hrecords⟩ := run_inCustody hrun
  refine ⟨?_, ?_, hrecords.untouched, hrecords.freed, ?_⟩
  · intro call hreturned
    have hplace := (hcustody.handedOver_of_returned hreturned).mpr rfl
    exact hcustody.not_freed (by rw [hplace]; simp)
  · exact fun call hreturned hmutex => hcustody.inOnePlace hexclusive hmutex hreturned
  · intro hfinished
    exact ⟨hcustody.destroy_untouched hrecords, fun call result hreturned =>
      hcustody.destroy hfinished hreturned⟩

end Consequences

/-- Packet 0 is posted without a connection and times out; its list is detached
and not yet gone through. Packet 2 is posted after that. -/
def detachedOnce : List (Label Bytes) :=
  .start 0 (.postPacket (Session.byteRequest 1)) :: List.replicate 5 (.proceed 0) ++
  .start 1 (.checkTimeout 10000000) :: .proceed 1 ::
  .start 2 (.postPacket (Session.byteRequest 2)) :: List.replicate 5 (.proceed 2)

theorem packets_freed_once_detached : ∃ session,
    run (Session.step Session.byteConfig) (Session.new (Process.zeroMemory 0)) detachedOnce =
      some session ∧
    .returned 0 true ∈ session.history ∧ .returned 2 true ∈ session.history ∧
    session.mutex = none ∧ session.FreedOnce := by
  have hevents : (run (Session.step Session.byteConfig) (Session.new (Process.zeroMemory 0))
      detachedOnce).map (fun session => (session.history, session.mutex)) =
      some ([.called 0, .returned 0 true, .called 2, .returned 2 true], none) := by decide
  obtain ⟨session, hrun, hstate⟩ := Option.map_eq_some_iff.mp hevents
  obtain ⟨hhistory, hmutex⟩ := Prod.mk.inj hstate
  exact ⟨session, hrun, by rw [hhistory]; decide, by rw [hhistory]; decide, hmutex,
    packets_freed_once hrun⟩

end Wnet
