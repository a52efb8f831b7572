import Mathlib.Algebra.Group.Nat.Defs
import Mathlib.Data.List.Perm.Subperm
import Mathlib.Logic.Function.Basic
import Wnet.Foundation.LinkedList
import Wnet.Foundation.Run

/-!
# Packet queues

`PacketQueue` threads its packets through their own field `next_`, which it
leaves as it is when a packet is taken out and which `MoveTo` and `GetTimeoutList`
share between queues and detached lists. Packets are addresses here, the fields
of all packets are one memory, and any number of queues work on it. `size_` is an
`int` that no loop depends on: from `2 ^ 31` packets on a queue is still a list,
but its count is wrong.
-/

namespace Wnet

open Foundation

/-- The address of a packet. -/
abbrev PacketRef := Nat

structure PacketQueue where
  head : Option PacketRef
  tail : Option PacketRef
  size : Int32

/-- The fields of the packets that the queues use, and the calls of `Free` so far. -/
structure PacketMemory where
  next : PacketRef → Option PacketRef
  expireTime : PacketRef → Int
  freed : List PacketRef

namespace PacketQueue

def empty : PacketQueue := ⟨none, none, 0⟩

def pop (memory : PacketMemory) (queue : PacketQueue) : PacketQueue × Option PacketRef :=
  match queue.head with
  | none => (queue, none)
  | some packet =>
      let head := memory.next packet
      ({ head := head
         tail := if head = none then none else queue.tail
         size := queue.size - 1 }, some packet)

/-- The loop of `Clear`, from a packet on, which gives nothing when it goes round more
often than the fuel allows. -/
def freeFrom (memory : PacketMemory) : Nat → Option PacketRef → Option PacketMemory
  | _, none => some memory
  | 0, some _ => none
  | fuel + 1, some packet =>
      freeFrom { memory with freed := memory.freed ++ [packet] } fuel (memory.next packet)

def clear (fuel : Nat) (memory : PacketMemory) (queue : PacketQueue) :
    Option (PacketMemory × PacketQueue) :=
  match queue.head with
  | none => some (memory, queue)
  | some _ => (freeFrom memory fuel queue.head).map fun memory => (memory, empty)

def setNext (memory : PacketMemory) (packet : PacketRef) (target : Option PacketRef) :
    PacketMemory :=
  { memory with next := Function.update memory.next packet target }

def push (memory : PacketMemory) (queue : PacketQueue) :
    Option PacketRef → PacketMemory × PacketQueue
  | none => (memory, queue)
  | some packet =>
      let memory := setNext memory packet none
      match queue.tail with
      | none => (memory, ⟨some packet, some packet, queue.size + 1⟩)
      | some tail =>
          (setNext memory tail (some packet), ⟨queue.head, some packet, queue.size + 1⟩)

/-- The memory, the source and the destination after a move. -/
def moveTo (memory : PacketMemory) (queue destQueue : PacketQueue) :
    PacketMemory × PacketQueue × PacketQueue :=
  match queue.head with
  | none => (memory, queue, destQueue)
  | some _ =>
      match destQueue.tail with
      | none => (memory, empty, ⟨queue.head, queue.tail, destQueue.size + queue.size⟩)
      | some tail =>
          (setNext memory tail queue.head, empty,
            ⟨destQueue.head, queue.tail, destQueue.size + queue.size⟩)

/-- Whether `GetTimeoutList` goes past a packet. -/
def timedOut (memory : PacketMemory) (now : Int) (packet : PacketRef) : Bool :=
  memory.expireTime packet ≠ 0 ∧ memory.expireTime packet < now

/-- The loop of `GetTimeoutList` with its local variables `list` and `tail`. -/
def detachLoop (now : Int) : Nat → PacketMemory → PacketQueue → Option PacketRef →
    Option PacketRef → Option (PacketMemory × PacketQueue × Option PacketRef × Option PacketRef)
  | fuel, memory, queue, list, tail =>
      match queue.head with
      | none => some (memory, queue, list, tail)
      | some head =>
          if timedOut memory now head then
            match fuel with
            | 0 => none
            | fuel + 1 =>
                let list := if tail = none then some head else list
                let memory := match tail with
                  | none => memory
                  | some tail => setNext memory tail (some head)
                let rest := memory.next head
                detachLoop now fuel memory
                  { head := rest
                    tail := if rest = none then none else queue.tail
                    size := queue.size - 1 } list (some head)
          else some (memory, queue, list, tail)

def getTimeoutList (fuel : Nat) (memory : PacketMemory) (queue : PacketQueue) (now : Int) :
    Option (PacketMemory × PacketQueue × Option PacketRef) :=
  (detachLoop now fuel memory queue none none).map fun outcome =>
    match outcome with
    | (memory, queue, list, none) => (memory, queue, list)
    | (memory, queue, list, some tail) => (setNext memory tail none, queue, list)

end PacketQueue

/-! ## Many queues -/

/-- What may be called, on the queues with the given numbers. -/
inductive QueueCall
  | push (queue : Nat) (packet : Option PacketRef)
  | pop (queue : Nat)
  | clear (queue : Nat)
  | moveTo (queue destQueue : Nat)
  | getTimeoutList (queue : Nat) (now : Int)
  | setExpireTime (packet : PacketRef) (time : Int)

structure Queues where
  memory : PacketMemory
  queue : Nat → PacketQueue

namespace Queues

def new (memory : PacketMemory) : Queues := ⟨memory, fun _ => .empty⟩

def set (queues : Queues) (memory : PacketMemory) (number : Nat) (queue : PacketQueue) : Queues :=
  ⟨memory, Function.update queues.queue number queue⟩

/-- A call and the packet it returns, if it returns one. A loop that goes round more
often than the fuel allows gives nothing. -/
def perform (fuel : Nat) (queues : Queues) : QueueCall → Option (Queues × Option PacketRef)
  | .push number packet =>
      let (memory, queue) := (queues.queue number).push queues.memory packet
      some (queues.set memory number queue, none)
  | .pop number =>
      let (queue, packet) := (queues.queue number).pop queues.memory
      some (queues.set queues.memory number queue, packet)
  | .clear number =>
      ((queues.queue number).clear fuel queues.memory).map fun (memory, queue) =>
        (queues.set memory number queue, none)
  | .moveTo number dest =>
      let (memory, queue, destQueue) :=
        (queues.queue number).moveTo queues.memory (queues.queue dest)
      some ((queues.set memory number queue).set memory dest destQueue, none)
  | .getTimeoutList number now =>
      ((queues.queue number).getTimeoutList fuel queues.memory now).map
        fun (memory, queue, list) => (queues.set memory number queue, list)
  | .setExpireTime packet time =>
      some ({ queues with
        memory := { queues.memory with
          expireTime := Function.update queues.memory.expireTime packet time } }, none)

def step (fuel : Nat) (queues : Queues) (call : QueueCall) : Option Queues :=
  (queues.perform fuel call).map Prod.fst

end Queues

/-! ## Lists -/

/-- What the queues are for: lists of packets, first in, first out. -/
structure Fifo where
  lists : Nat → List PacketRef
  expireTime : PacketRef → Int
  freed : List PacketRef

namespace Fifo

def new (expireTime : PacketRef → Int) (freed : List PacketRef) : Fifo :=
  ⟨fun _ => [], expireTime, freed⟩

def set (fifo : Fifo) (number : Nat) (list : List PacketRef) : Fifo :=
  { fifo with lists := Function.update fifo.lists number list }

def timedOut (fifo : Fifo) (now : Int) (packet : PacketRef) : Bool :=
  fifo.expireTime packet ≠ 0 ∧ fifo.expireTime packet < now

/-- A call and the packets it returns. -/
def perform (fifo : Fifo) : QueueCall → Fifo × List PacketRef
  | .push number packet => (fifo.set number (fifo.lists number ++ packet.toList), [])
  | .pop number => (fifo.set number (fifo.lists number).tail, (fifo.lists number).head?.toList)
  | .clear number =>
      ({ fifo.set number [] with freed := fifo.freed ++ fifo.lists number }, [])
  | .moveTo number dest =>
      ((fifo.set number []).set dest (fifo.lists dest ++ fifo.lists number), [])
  | .getTimeoutList number now =>
      (fifo.set number ((fifo.lists number).dropWhile (fifo.timedOut now)),
        (fifo.lists number).takeWhile (fifo.timedOut now))
  | .setExpireTime packet time =>
      ({ fifo with expireTime := Function.update fifo.expireTime packet time }, [])

def step (fifo : Fifo) (call : QueueCall) : Fifo := (fifo.perform call).1

/-- A packet is pushed only if it is in no queue, and a queue is moved only to another. -/
def Legal (fifo : Fifo) : QueueCall → Prop
  | .push _ packet => ∀ pushed ∈ packet, ∀ number, pushed ∉ fifo.lists number
  | .moveTo number dest => number ≠ dest
  | _ => True

end Fifo

/-! ## One queue and its list -/

/-- The queue is threaded through the packets of the list, in order. Its size is the
length of the list as far as an `int` can say it. -/
structure PacketQueue.Holds (next : PacketRef → Option PacketRef) (queue : PacketQueue)
    (list : List PacketRef) : Prop where
  head : queue.head = list.head?
  tail : queue.tail = list.getLast?
  size : queue.size = Int32.ofNat list.length
  chain : Chain next list none

namespace PacketQueue

variable {memory : PacketMemory} {next next' : PacketRef → Option PacketRef}
  {queue : PacketQueue} {list : List PacketRef}

theorem Holds.nodup (hholds : Holds next queue list) : list.Nodup := hholds.chain.nodup

theorem Holds.frame (hholds : Holds next queue list)
    (hsame : ∀ packet ∈ list, next' packet = next packet) : Holds next' queue list :=
  ⟨hholds.head, hholds.tail, hholds.size, hholds.chain.congr hsame⟩

theorem Holds.size_toInt (hholds : Holds next queue list) (hlength : list.length < 2 ^ 31) :
    queue.size.toInt = list.length := by
  rw [hholds.size, Int32.toInt_ofNat_of_lt hlength]

theorem holds_empty (next : PacketRef → Option PacketRef) : Holds next empty [] :=
  ⟨rfl, rfl, rfl, trivial⟩

/-- A queue without its first packet. -/
theorem Holds.rest {packet : PacketRef} {rest : List PacketRef}
    (hholds : Holds next queue (packet :: rest)) :
    Holds next ⟨next packet, if next packet = none then none else queue.tail, queue.size - 1⟩
      rest := by
  have hnext : next packet = rest.head? := by simpa using hholds.chain.1
  refine ⟨hnext, ?_, ?_, hholds.chain.2⟩
  · rw [hnext]
    cases rest with
    | nil => rfl
    | cons second others => simp [hholds.tail, List.getLast?_cons_cons]
  · rw [hholds.size, List.length_cons, Int32.ofNat_add]
    exact Int32.add_sub_cancel ..

theorem pop_spec (hholds : Holds memory.next queue list) :
    Holds memory.next (queue.pop memory).1 list.tail ∧ (queue.pop memory).2 = list.head? := by
  have hhead := hholds.head
  unfold pop
  cases list with
  | nil =>
      simp only [List.head?_nil] at hhead
      simp only [hhead]
      exact ⟨hholds, rfl⟩
  | cons packet rest =>
      simp only [List.head?_cons] at hhead
      simp only [hhead]
      exact ⟨hholds.rest, rfl⟩

/-- The loop frees the packets of the list in order and changes no field. -/
theorem freeFrom_spec (fuel : Nat) (hchain : Chain memory.next list none)
    (hfuel : list.length ≤ fuel) :
    freeFrom memory fuel list.head? =
      some { memory with freed := memory.freed ++ list } := by
  induction list generalizing memory fuel with
  | nil => cases fuel <;> simp [freeFrom]
  | cons packet rest ih =>
      cases fuel with
      | zero => simp at hfuel
      | succ fuel =>
          have hnext : memory.next packet = rest.head? := by simpa using hchain.1
          have hrest := @ih { memory with freed := memory.freed ++ [packet] } fuel hchain.2
            (by simpa using hfuel)
          rw [List.head?_cons, freeFrom, hnext, hrest]
          simp

theorem clear_spec {fuel : Nat} (hholds : Holds memory.next queue list)
    (hfuel : list.length ≤ fuel) :
    ∃ memory' queue', queue.clear fuel memory = some (memory', queue') ∧
      Holds memory'.next queue' [] ∧ memory'.next = memory.next ∧
      memory'.expireTime = memory.expireTime ∧ memory'.freed = memory.freed ++ list := by
  have hhead := hholds.head
  unfold clear
  cases list with
  | nil =>
      simp only [List.head?_nil] at hhead
      simp only [hhead, List.append_nil]
      exact ⟨_, _, rfl, hholds, rfl, rfl, rfl⟩
  | cons packet rest =>
      have hfree := freeFrom_spec fuel hholds.chain hfuel
      simp only [List.head?_cons] at hhead hfree
      simp only [hhead, hfree, Option.map_some]
      exact ⟨_, _, rfl, holds_empty _, rfl, rfl, rfl⟩

/-- A chain whose last packet is given another successor ends there. -/
theorem chain_setNext {stop target : Option PacketRef} {last : PacketRef}
    (hchain : Chain memory.next list stop) (hlast : list.getLast? = some last)
    (hnodup : list.Nodup) : Chain (setNext memory last target).next list target := by
  apply hchain.redirect _ _ hnodup
  · intro other hother
    obtain rfl := Option.some.inj (hlast.symm.trans hother)
    exact Function.update_self ..
  · intro other _ hnot
    refine Function.update_of_ne ?_ ..
    rintro rfl
    exact hnot hlast

theorem push_spec (hholds : Holds memory.next queue list) {packet : PacketRef}
    (hnew : packet ∉ list) :
    Holds (queue.push memory (some packet)).1.next (queue.push memory (some packet)).2
      (list ++ [packet]) ∧
    (queue.push memory (some packet)).1.expireTime = memory.expireTime ∧
    (queue.push memory (some packet)).1.freed = memory.freed ∧
    ∀ other ∉ list, other ≠ packet →
      (queue.push memory (some packet)).1.next other = memory.next other := by
  have htail := hholds.tail
  unfold push
  rcases List.eq_nil_or_concat list with rfl | ⟨init, last, rfl⟩
  · simp only [List.getLast?_nil] at htail
    simp only [htail, List.nil_append]
    refine ⟨⟨rfl, rfl, by simp [hholds.size], ?_⟩, rfl, rfl, ?_⟩
    · simp [setNext]
    · exact fun other _ hne => Function.update_of_ne hne ..
  · have hlast : (init.concat last).getLast? = some last := by simp
    rw [hlast] at htail
    have hne : last ≠ packet := by
      rintro rfl
      exact hnew (by simp)
    simp only [htail]
    refine ⟨⟨?_, by simp, ?_, ?_⟩, rfl, rfl, ?_⟩
    · simp [hholds.head]
    · rw [hholds.size, List.length_append, Int32.ofNat_add]
      rfl
    · have hfresh : Chain (setNext memory packet none).next (init.concat last) none := by
        apply hholds.chain.congr
        intro other hother
        refine Function.update_of_ne ?_ ..
        rintro rfl
        exact hnew hother
      rw [chain_append]
      refine ⟨chain_setNext hfresh hlast hholds.nodup, ?_⟩
      simp [setNext, Function.update_of_ne hne.symm]
    · intro other hother hne'
      have hne'' : other ≠ last := fun hsame => hother (by simp [hsame])
      simp [setNext, Function.update_of_ne hne', Function.update_of_ne hne'']

theorem moveTo_spec {destQueue : PacketQueue} {dest : List PacketRef}
    (hholds : Holds memory.next queue list) (hdest : Holds memory.next destQueue dest)
    (hapart : ∀ packet ∈ dest, packet ∉ list) :
    ∃ memory' queue' destQueue',
      queue.moveTo memory destQueue = (memory', queue', destQueue') ∧
      Holds memory'.next queue' [] ∧ Holds memory'.next destQueue' (dest ++ list) ∧
      memory'.expireTime = memory.expireTime ∧ memory'.freed = memory.freed ∧
      ∀ other ∉ dest, memory'.next other = memory.next other := by
  have hhead := hholds.head
  have htail := hdest.tail
  unfold moveTo
  cases list with
  | nil =>
      simp only [List.head?_nil] at hhead
      simp only [hhead, List.append_nil]
      exact ⟨_, _, _, rfl, hholds, hdest, rfl, rfl, fun _ _ => rfl⟩
  | cons packet rest =>
      simp only [List.head?_cons] at hhead
      simp only [hhead]
      rcases List.eq_nil_or_concat dest with rfl | ⟨init, last, rfl⟩
      · simp only [List.getLast?_nil] at htail
        simp only [htail, List.nil_append]
        refine ⟨_, _, _, rfl, holds_empty _, ⟨rfl, hholds.tail, ?_, hholds.chain⟩, rfl, rfl,
          fun _ _ => rfl⟩
        simp [hdest.size, hholds.size]
      · simp only [List.concat_eq_append] at *
        have hlast : (init ++ [last]).getLast? = some last := by simp
        rw [hlast] at htail
        simp only [htail]
        refine ⟨_, _, _, rfl, holds_empty _, ⟨?_, ?_, ?_, ?_⟩, rfl, rfl, ?_⟩
        · simp [hdest.head]
        · rw [hholds.tail, List.getLast?_append_of_ne_nil _ (List.cons_ne_nil packet rest)]
        · rw [hdest.size, hholds.size, ← Int32.ofNat_add, ← List.length_append]
        · rw [chain_append]
          constructor
          -- The old tail of the destination is the only packet whose `next_` is written.
          · exact chain_setNext hdest.chain hlast hdest.nodup
          · apply hholds.chain.congr
            intro other hother
            refine Function.update_of_ne ?_ ..
            rintro rfl
            exact hapart other (by simp) hother
        · intro other hother
          refine Function.update_of_ne ?_ ..
          rintro rfl
          exact hother (by simp)

theorem setNext_eq_self {packet : PacketRef} {target : Option PacketRef}
    (hnext : memory.next packet = target) : setNext memory packet target = memory := by
  simp [setNext, ← hnext]

/-- The loop writes to `next_` what already stands there, as the packets that it
goes past follow each other in the queue. -/
theorem detachLoop_spec (now : Int) (fuel : Nat) (taken : List PacketRef)
    (hholds : Holds memory.next queue list) (hchain : Chain memory.next (taken ++ list) none)
    (hfuel : list.length ≤ fuel) :
    ∃ queue', detachLoop now fuel memory queue taken.head? taken.getLast? =
        some (memory, queue', (taken ++ list.takeWhile (timedOut memory now)).head?,
          (taken ++ list.takeWhile (timedOut memory now)).getLast?) ∧
      Holds memory.next queue' (list.dropWhile (timedOut memory now)) := by
  induction list generalizing queue taken fuel with
  | nil =>
      have hhead := hholds.head
      simp only [List.head?_nil] at hhead
      rw [detachLoop.eq_def]
      simp only [hhead, List.takeWhile_nil, List.append_nil, List.dropWhile_nil]
      exact ⟨queue, rfl, hholds⟩
  | cons packet rest ih =>
      have hhead := hholds.head
      simp only [List.head?_cons] at hhead
      rw [detachLoop.eq_def]
      simp only [hhead, List.takeWhile_cons, List.dropWhile_cons]
      by_cases hdue : timedOut memory now packet
      · cases fuel with
        | zero => simp at hfuel
        | succ fuel =>
            simp only [hdue, if_true]
            have hlink : (match taken.getLast? with
                | none => memory
                | some tail => setNext memory tail (some packet)) = memory := by
              cases hlast : taken.getLast? with
              | none => rfl
              | some last =>
                  obtain ⟨init, rfl⟩ := List.getLast?_eq_some_iff.mp hlast
                  apply setNext_eq_self
                  rw [List.append_assoc] at hchain
                  simpa using hchain.next_of_split
            have hlist : (if taken.getLast? = none then some packet else taken.head?) =
                (taken ++ [packet]).head? := by
              cases taken with
              | nil => rfl
              | cons first others => simp [List.getLast?_cons]
            have hnewTail : some packet = (taken ++ [packet]).getLast? := by simp
            rw [hlink, hlist, hnewTail]
            rw [List.append_cons taken packet rest] at hchain
            have hrest := ih fuel _ hholds.rest hchain (by simpa using hfuel)
            simpa [List.append_assoc] using hrest
      · simp only [hdue, Bool.false_eq_true, if_false, List.append_nil]
        exact ⟨queue, rfl, hholds⟩

theorem getTimeoutList_spec {fuel : Nat} (now : Int) (hholds : Holds memory.next queue list)
    (hfuel : list.length ≤ fuel) :
    ∃ memory' queue',
      queue.getTimeoutList fuel memory now =
        some (memory', queue', (list.takeWhile (timedOut memory now)).head?) ∧
      Holds memory'.next queue' (list.dropWhile (timedOut memory now)) ∧
      Chain memory'.next (list.takeWhile (timedOut memory now)) none ∧
      memory'.expireTime = memory.expireTime ∧ memory'.freed = memory.freed ∧
      ∀ other ∉ list, memory'.next other = memory.next other := by
  obtain ⟨queue', hloop, hkept⟩ := detachLoop_spec now fuel [] hholds hholds.chain hfuel
  have hsplit := List.takeWhile_append_dropWhile (p := timedOut memory now) (l := list)
  generalize list.takeWhile (timedOut memory now) = detached at hloop hsplit ⊢
  generalize list.dropWhile (timedOut memory now) = kept at hkept hsplit ⊢
  subst hsplit
  simp only [List.head?_nil, List.getLast?_nil, List.nil_append] at hloop
  have hnodup := hholds.nodup
  have hapart := (List.nodup_append.mp hnodup).2.2
  unfold getTimeoutList
  rw [hloop, Option.map_some]
  cases hlast : detached.getLast? with
  | none =>
      obtain rfl := List.getLast?_eq_none_iff.mp hlast
      exact ⟨_, _, rfl, hkept, trivial, rfl, rfl, fun _ _ => rfl⟩
  | some last =>
      have hmem := List.mem_of_getLast? hlast
      refine ⟨_, _, rfl, ?_, ?_, rfl, rfl, ?_⟩
      · apply hkept.frame
        intro other hother
        exact Function.update_of_ne (fun hsame => hapart last hmem other hother hsame.symm) ..
      · exact chain_setNext (chain_append.mp hholds.chain).1 hlast (List.nodup_append.mp hnodup).1
      · intro other hother
        refine Function.update_of_ne ?_ ..
        rintro rfl
        exact hother (List.mem_append_left _ hmem)

end PacketQueue

/-! ## All queues and their lists -/

/-- No packet is in two queues. -/
def Fifo.Apart (fifo : Fifo) : Prop :=
  ∀ first second, first ≠ second → ∀ packet ∈ fifo.lists first, packet ∉ fifo.lists second

/-- The queues hold the lists, and nothing is in two of them. -/
structure Queues.Represents (queues : Queues) (fifo : Fifo) : Prop where
  holds : ∀ number, (queues.queue number).Holds queues.memory.next (fifo.lists number)
  expireTime : queues.memory.expireTime = fifo.expireTime
  freed : queues.memory.freed = fifo.freed
  apart : fifo.Apart

namespace Queues

variable {memory : PacketMemory} {queues : Queues} {fifo : Fifo}

theorem represents_new (memory : PacketMemory) :
    (new memory).Represents (.new memory.expireTime memory.freed) where
  holds _ := PacketQueue.holds_empty _
  expireTime := rfl
  freed := rfl
  apart _ _ _ _ hmem := absurd hmem List.not_mem_nil

theorem Represents.timedOut_eq (hrep : queues.Represents fifo) (now : Int) :
    PacketQueue.timedOut queues.memory now = fifo.timedOut now := by
  funext packet
  simp only [PacketQueue.timedOut, Fifo.timedOut, hrep.expireTime]

theorem apart_update {number : Nat} {list : List PacketRef} (hapart : fifo.Apart)
    (hlist : ∀ other ≠ number, ∀ packet ∈ list, packet ∉ fifo.lists other) :
    (fifo.set number list).Apart := by
  intro first second hne packet hfirst hsecond
  by_cases hisFirst : first = number
  · subst hisFirst
    simp only [Fifo.set, Function.update_self, Function.update_of_ne hne.symm] at hfirst hsecond
    exact hlist second hne.symm packet hfirst hsecond
  · by_cases hisSecond : second = number
    · subst hisSecond
      simp only [Fifo.set, Function.update_self, Function.update_of_ne hne] at hfirst hsecond
      exact hlist first hne packet hsecond hfirst
    · simp only [Fifo.set, Function.update_of_ne hisFirst, Function.update_of_ne hisSecond]
        at hfirst hsecond
      exact hapart first second hne packet hfirst hsecond

/-- One queue changes, and no link between the packets of another does. -/
theorem Represents.update (hrep : queues.Represents fifo) (number : Nat)
    {memory : PacketMemory} {queue : PacketQueue} {list freed : List PacketRef}
    (hholds : queue.Holds memory.next list)
    (hframe : ∀ other ≠ number, ∀ packet ∈ fifo.lists other,
      memory.next packet = queues.memory.next packet)
    (hlist : ∀ other ≠ number, ∀ packet ∈ list, packet ∉ fifo.lists other)
    (hexpire : memory.expireTime = fifo.expireTime) (hfreed : memory.freed = freed) :
    (queues.set memory number queue).Represents
      { fifo.set number list with freed := freed } where
  holds other := by
    by_cases hsame : other = number
    · subst hsame
      simpa [set, Fifo.set] using hholds
    · simp only [set, Fifo.set, Function.update_of_ne hsame]
      exact (hrep.holds other).frame (hframe other hsame)
  expireTime := hexpire
  freed := hfreed
  apart := apart_update hrep.apart hlist

/-- A part of the packets of a queue is in no other queue. -/
theorem Represents.not_mem_other (hrep : queues.Represents fifo) {number other : Nat}
    (hne : other ≠ number) {packet : PacketRef} (hmem : packet ∈ fifo.lists number) :
    packet ∉ fifo.lists other :=
  hrep.apart number other hne.symm packet hmem

/-- What a call gives back: the first packet of the list it returns, and for a
timeout scan the whole list, ended by a null link. -/
def Returns (queues : Queues) (result : Option PacketRef) (call : QueueCall)
    (packets : List PacketRef) : Prop :=
  result = packets.head? ∧
    ∀ number now, call = .getTimeoutList number now → Chain queues.memory.next packets none

theorem perform_push (fuel : Nat) (hrep : queues.Represents fifo) (number : Nat)
    {packet : PacketRef} (hnew : ∀ number, packet ∉ fifo.lists number) :
    ∃ queues', queues.perform fuel (.push number (some packet)) = some (queues', none) ∧
      queues'.Represents (fifo.step (.push number (some packet))) := by
  obtain ⟨hholds, hexpire, hfreed, hframe⟩ :=
    PacketQueue.push_spec (hrep.holds number) (hnew number)
  refine ⟨_, rfl, ?_⟩
  apply hrep.update number hholds _ _ (hexpire.trans hrep.expireTime) (hfreed.trans hrep.freed)
  · intro other hne other' hother
    apply hframe
    · exact hrep.not_mem_other hne.symm hother
    · rintro rfl
      exact hnew other hother
  · intro other hne pushed hpushed
    rcases List.mem_append.mp hpushed with hold | hfresh
    · exact hrep.not_mem_other hne hold
    · obtain rfl := List.mem_singleton.mp hfresh
      exact hnew other

theorem perform_moveTo (fuel : Nat) (hrep : queues.Represents fifo) {number dest : Nat}
    (hne : number ≠ dest) :
    ∃ queues', queues.perform fuel (.moveTo number dest) = some (queues', none) ∧
      queues'.Represents (fifo.step (.moveTo number dest)) := by
  obtain ⟨memory', queue', destQueue', hmove, hholds, hdest, hexpire, hfreed, hframe⟩ :=
    PacketQueue.moveTo_spec (hrep.holds number) (hrep.holds dest) (hrep.apart dest number hne.symm)
  refine ⟨(queues.set memory' number queue').set memory' dest destQueue',
    by simp only [perform, hmove], ?_⟩
  refine ⟨fun other => ?_, hexpire.trans hrep.expireTime, hfreed.trans hrep.freed, ?_⟩
  · simp only [set, Fifo.step, Fifo.perform, Fifo.set]
    by_cases hisDest : other = dest
    · subst hisDest
      simpa using hdest
    · by_cases hisSource : other = number
      · subst hisSource
        simpa [Function.update_of_ne hne] using hholds
      · simp only [Function.update_of_ne hisDest, Function.update_of_ne hisSource]
        apply (hrep.holds other).frame
        intro packet hpacket
        exact hframe packet (hrep.apart other dest hisDest packet hpacket)
  · apply apart_update
    · exact apart_update hrep.apart fun _ _ _ hmem => absurd hmem List.not_mem_nil
    · intro other hisDest packet hpacket
      by_cases hisSource : other = number
      · subst hisSource
        simp [Fifo.set]
      · simp only [Fifo.set, Function.update_of_ne hisSource]
        rcases List.mem_append.mp hpacket with hold | hmoved
        · exact hrep.not_mem_other hisDest hold
        · exact hrep.not_mem_other hisSource hmoved

/-- Every permitted call does on the queues what it does on the lists, when the loops can
go round as often as a list is long. -/
theorem perform_spec {fuel : Nat} (hrep : queues.Represents fifo) (call : QueueCall)
    (hlegal : fifo.Legal call) (hfuel : ∀ number, (fifo.lists number).length ≤ fuel) :
    ∃ queues' result, queues.perform fuel call = some (queues', result) ∧
      queues'.Represents (fifo.step call) ∧
      queues'.Returns result call (fifo.perform call).2 := by
  cases call with
  | push number packet =>
      -- `Push` of a null pointer changes nothing.
      cases packet with
      | none =>
          refine ⟨queues, none, ?_, ?_, rfl, fun _ _ hcall => nomatch hcall⟩
          · simp [perform, PacketQueue.push, set]
          · simpa [Fifo.step, Fifo.perform, Fifo.set] using hrep
      | some packet =>
          obtain ⟨queues', hperform, hrep'⟩ :=
            perform_push fuel hrep number (hlegal packet rfl)
          exact ⟨queues', none, hperform, hrep', rfl, fun _ _ hcall => nomatch hcall⟩
  | pop number =>
      obtain ⟨hholds, hresult⟩ := PacketQueue.pop_spec (hrep.holds number)
      refine ⟨_, _, rfl, ?_, ?_, fun _ _ hcall => nomatch hcall⟩
      · apply hrep.update number hholds (fun _ _ _ _ => rfl) _ hrep.expireTime hrep.freed
        intro other hne packet hpacket
        exact hrep.not_mem_other hne (List.mem_of_mem_tail hpacket)
      · exact hresult.trans (by simp [Fifo.perform])
  | clear number =>
      obtain ⟨memory', queue', hclear, hholds, hnext, hexpire, hfreed⟩ :=
        PacketQueue.clear_spec (hrep.holds number) (hfuel number)
      refine ⟨_, none, by rw [perform, hclear]; rfl, ?_, rfl, fun _ _ hcall => nomatch hcall⟩
      apply hrep.update number hholds _ _ (hexpire.trans hrep.expireTime)
        (hfreed.trans (congrArg (· ++ fifo.lists number) hrep.freed))
      · exact fun _ _ packet _ => congrFun hnext packet
      · exact fun _ _ _ hmem => absurd hmem List.not_mem_nil
  | moveTo number dest =>
      obtain ⟨queues', hperform, hrep'⟩ := perform_moveTo fuel hrep hlegal
      exact ⟨queues', none, hperform, hrep', rfl, fun _ _ hcall => nomatch hcall⟩
  | getTimeoutList number now =>
      obtain ⟨memory', queue', hget, hholds, hdetached, hexpire, hfreed, hframe⟩ :=
        PacketQueue.getTimeoutList_spec now (hrep.holds number) (hfuel number)
      rw [hrep.timedOut_eq now] at hget hholds hdetached
      refine ⟨_, _, by rw [perform, hget]; rfl, ?_, rfl, fun _ _ _ => hdetached⟩
      apply hrep.update number hholds _ _ (hexpire.trans hrep.expireTime)
        (hfreed.trans hrep.freed)
      · intro other hne packet hpacket
        exact hframe packet (hrep.not_mem_other hne.symm hpacket)
      · intro other hne packet hpacket
        exact hrep.not_mem_other hne ((List.dropWhile_sublist _).subset hpacket)
  | setExpireTime packet time =>
      refine ⟨_, none, rfl, ⟨hrep.holds, ?_, hrep.freed, hrep.apart⟩, rfl,
        fun _ _ hcall => nomatch hcall⟩
      simp only [Fifo.step, Fifo.perform, hrep.expireTime]

/-- The packets that a call brings into the queues. -/
def pushedBy : QueueCall → List PacketRef
  | .push _ packet => packet.toList
  | _ => []

theorem length_pushedBy_le (call : QueueCall) : (pushedBy call).length ≤ 1 := by
  cases call with
  | push _ packet => cases packet <;> simp [pushedBy]
  | _ => simp [pushedBy]

/-- Nothing comes into a list that was not in some list or is pushed now. -/
theorem step_lists_subset {pushed : List PacketRef} (call : QueueCall)
    (hpushed : ∀ number, fifo.lists number ⊆ pushed) (number : Nat) :
    (fifo.step call).lists number ⊆ pushed ++ pushedBy call := by
  intro packet hpacket
  have hold : ∀ other, packet ∈ fifo.lists other → packet ∈ pushed ++ pushedBy call :=
    fun other hmem => List.mem_append_left _ (hpushed other hmem)
  cases call with
  | push target new =>
      simp only [Fifo.step, Fifo.perform, Fifo.set, Function.update_apply] at hpacket
      split at hpacket
      · rcases List.mem_append.mp hpacket with hmem | hnew
        · exact hold target hmem
        · exact List.mem_append_right _ hnew
      · exact hold number hpacket
  | pop target =>
      simp only [Fifo.step, Fifo.perform, Fifo.set, Function.update_apply] at hpacket
      split at hpacket
      · exact hold target (List.mem_of_mem_tail hpacket)
      · exact hold number hpacket
  | clear target =>
      simp only [Fifo.step, Fifo.perform, Fifo.set, Function.update_apply] at hpacket
      split at hpacket
      · exact absurd hpacket List.not_mem_nil
      · exact hold number hpacket
  | moveTo source dest =>
      simp only [Fifo.step, Fifo.perform, Fifo.set, Function.update_apply] at hpacket
      split at hpacket
      · rcases List.mem_append.mp hpacket with hmem | hmoved
        · exact hold dest hmem
        · exact hold source hmoved
      · split at hpacket
        · exact absurd hpacket List.not_mem_nil
        · exact hold number hpacket
  | getTimeoutList target now =>
      simp only [Fifo.step, Fifo.perform, Fifo.set, Function.update_apply] at hpacket
      split at hpacket
      · exact hold target ((List.dropWhile_sublist _).subset hpacket)
      · exact hold number hpacket
  | setExpireTime target time => exact hold number hpacket

/-- No list is longer than all that was pushed. -/
theorem Represents.length_le (hrep : queues.Represents fifo) {pushed : List PacketRef}
    (hpushed : ∀ number, fifo.lists number ⊆ pushed) (number : Nat) :
    (fifo.lists number).length ≤ pushed.length :=
  ((hrep.holds number).nodup.subperm (hpushed number)).length_le

/-- Every call of a list is permitted where it is made. -/
def AllLegal (memory : PacketMemory) (calls : List QueueCall) : Prop :=
  Along (fun fifo call => some (Fifo.step fifo call)) Fifo.Legal
    (.new memory.expireTime memory.freed) calls

/-- Fuel for every packet pushed so far and for every call to come is enough. -/
theorem run_represents {calls : List QueueCall} {fuel : Nat} (hrep : queues.Represents fifo)
    {pushed : List PacketRef} (hpushed : ∀ number, fifo.lists number ⊆ pushed)
    (hlegal : Along (fun fifo call => some (Fifo.step fifo call)) Fifo.Legal fifo calls)
    (hfuel : pushed.length + calls.length ≤ fuel) :
    ∃ queues', run (step fuel) queues calls = some queues' ∧
      queues'.Represents (calls.foldl Fifo.step fifo) ∧
      ∀ number, ((calls.foldl Fifo.step fifo).lists number).length ≤ fuel := by
  induction calls generalizing queues fifo pushed with
  | nil =>
      refine ⟨queues, rfl, hrep, ?_⟩
      exact fun number => Nat.le_trans (hrep.length_le hpushed number) hfuel
  | cons call rest ih =>
      rw [List.length_cons] at hfuel
      have hroom : ∀ number, (fifo.lists number).length ≤ fuel := by
        intro number
        exact Nat.le_trans (hrep.length_le hpushed number) (by omega)
      obtain ⟨next, result, hperform, hrep', -⟩ := perform_spec hrep call hlegal.1 hroom
      have hnewFuel : (pushed ++ pushedBy call).length + rest.length ≤ fuel := by
        have hone := length_pushedBy_le call
        rw [List.length_append]
        omega
      obtain ⟨queues', hrun, hfinal, hlengths⟩ :=
        ih hrep' (step_lists_subset call hpushed) (hlegal.2 _ rfl) hnewFuel
      refine ⟨queues', ?_, hfinal, hlengths⟩
      rw [run_cons, step, hperform]
      exact hrun

/-- Any queues after any permitted calls are first-in-first-out lists: they hold the
lists that the calls on lists leave, no packet is in two of them or twice in one, the
size of a queue is the length of its list while that is below `2 ^ 31`, and whatever
permitted call comes next changes and returns what it does on lists. -/
theorem packetQueues_refine_fifo (memory : PacketMemory) (calls : List QueueCall) (fuel : Nat)
    (hlegal : AllLegal memory calls) (hfuel : calls.length ≤ fuel) :
    ∃ queues, run (step fuel) (new memory) calls = some queues ∧
      let fifo := calls.foldl Fifo.step (.new memory.expireTime memory.freed)
      queues.Represents fifo ∧ (∀ number, (fifo.lists number).Nodup) ∧
      (∀ number, (fifo.lists number).length < 2 ^ 31 →
        (queues.queue number).size.toInt = (fifo.lists number).length) ∧
      ∀ call, fifo.Legal call →
        ∃ queues' result, queues.perform fuel call = some (queues', result) ∧
          queues'.Represents (fifo.step call) ∧
          queues'.Returns result call (fifo.perform call).2 := by
  have hempty : ∀ number, (Fifo.new memory.expireTime memory.freed).lists number ⊆ [] :=
    fun _ => List.Subset.refl _
  obtain ⟨queues, hrun, hrep, hlengths⟩ :=
    run_represents (represents_new memory) hempty hlegal (by simpa using hfuel)
  refine ⟨queues, hrun, hrep, ?_, ?_, ?_⟩
  · intro number
    exact (hrep.holds number).nodup
  · intro number
    exact (hrep.holds number).size_toInt
  · intro call hcall
    exact perform_spec hrep call hcall hlengths

/-- Two queues, a move that shares links, a scan that stops at the third packet, and
a packet that comes back after it was taken out. -/
theorem packetQueues_refine_fifo_twoQueues :
    let memory : PacketMemory := ⟨fun _ => some 7, fun packet => if packet = 3 then 0 else 5, []⟩
    let calls : List QueueCall := [.push 0 (some 1), .push 0 (some 2), .push 1 (some 3), .pop 0,
      .push 1 (some 1), .moveTo 1 0, .getTimeoutList 0 6]
    AllLegal memory calls ∧
      ∃ queues, run (step 7) (new memory) calls = some queues ∧
        (queues.queue 0).Holds queues.memory.next [3, 1] ∧ (queues.queue 0).size.toInt = 2 := by
  intro memory calls
  have hlegal : AllLegal memory calls := by
    simp [AllLegal, Along, Fifo.Legal, Fifo.new, Fifo.step, Fifo.perform, Fifo.set, calls,
      Function.update_apply]
    constructor
    all_goals
      intro number
      split_ifs
      all_goals simp
  obtain ⟨queues, hrun, hrep, -, hsize, -⟩ :=
    packetQueues_refine_fifo memory calls 7 hlegal (by decide)
  exact ⟨hlegal, queues, hrun, hrep.holds 0, hsize 0 (by decide)⟩

/-- New packets pushed to one queue, one after the other. -/
theorem pushAll {packets : List PacketRef} (hnodup : packets.Nodup)
    (hnew : ∀ packet ∈ packets, ∀ number, packet ∉ fifo.lists number) :
    let calls := packets.map fun packet => QueueCall.push 0 (some packet)
    Along (fun fifo call => some (Fifo.step fifo call)) Fifo.Legal fifo calls ∧
      (calls.foldl Fifo.step fifo).lists 0 = fifo.lists 0 ++ packets := by
  induction packets generalizing fifo with
  | nil => exact ⟨trivial, (List.append_nil _).symm⟩
  | cons packet rest ih =>
      obtain ⟨hfresh, hrest⟩ := List.nodup_cons.mp hnodup
      have hlater : ∀ other ∈ rest, ∀ number,
          other ∉ (fifo.step (.push 0 (some packet))).lists number := by
        intro other hother number hmem
        simp only [Fifo.step, Fifo.perform, Fifo.set, Function.update_apply] at hmem
        split at hmem
        · rcases List.mem_append.mp hmem with hold | hpushed
          · exact hnew other (List.mem_cons_of_mem _ hother) 0 hold
          · obtain rfl := List.mem_singleton.mp hpushed
            exact hfresh hother
        · exact hnew other (List.mem_cons_of_mem _ hother) number hmem
      obtain ⟨halong, hlists⟩ := ih hrest hlater
      refine ⟨⟨?_, ?_⟩, ?_⟩
      · intro pushed hpushed
        obtain rfl := Option.some.inj hpushed
        exact hnew packet List.mem_cons_self
      · rintro _ hnext
        obtain rfl := Option.some.inj hnext
        exact halong
      · rw [List.map_cons, List.foldl_cons, hlists]
        simp [Fifo.step, Fifo.perform, Fifo.set]

/-- The size of a queue of `2 ^ 31` packets is negative. -/
theorem size_wrong_of_manyPackets :
    ¬ ∀ (memory : PacketMemory) (calls : List QueueCall) (fuel : Nat), AllLegal memory calls →
      calls.length ≤ fuel → ∃ queues, run (step fuel) (new memory) calls = some queues ∧
        ∀ number, (queues.queue number).size.toInt =
          ((calls.foldl Fifo.step (.new memory.expireTime memory.freed)).lists number).length := by
  intro hall
  let memory : PacketMemory := ⟨fun _ => none, fun _ => 0, []⟩
  obtain ⟨count, hcount⟩ : ∃ count, count = 2 ^ 31 := ⟨_, rfl⟩
  have hnew : ∀ packet ∈ List.range count, ∀ number,
      packet ∉ (Fifo.new memory.expireTime memory.freed).lists number :=
    fun _ _ _ => List.not_mem_nil
  obtain ⟨hlegal, hlists⟩ := pushAll List.nodup_range hnew
  obtain ⟨queues, -, hsize⟩ := hall memory _ _ hlegal (Nat.le_refl _)
  have hlength := hsize 0
  rw [hlists, List.length_append, List.length_range] at hlength
  have hbound := (queues.queue 0).size.toInt_lt
  omega

end Queues

end Wnet
