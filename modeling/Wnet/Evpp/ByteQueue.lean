import Wnet.Foundation.Simulation
import Wnet.Packet.Buffer

/-!
# The buffer as a queue of bytes

The calls on an `evpp::Buffer` follow those on a queue of bytes: what is read is what was
written, in order, wherever the bytes lie in the array and however often it is replaced.
The queue also counts the room in front of the unread bytes that a caller can rely on, and
remembers the bytes that were just read and can be unread.
-/

namespace Wnet.Evpp

open Foundation

/-- A call on a buffer. -/
inductive BufferCall
  | write (bytes : Bytes)
  | appendInt32 (value : Int32)
  | prepend (bytes : Bytes)
  | prependInt32 (value : Int32)
  | unwriteBytes (n : Nat)
  | readFromFD (bytes : Bytes)
  | reserve (len : Nat)
  | shrink (reserve : Nat)
  | truncate (n : Nat)
  | toText
  | skip (len : Nat)
  | next (len : Nat)
  | nextAll
  | readByte
  | peekInt32
  | readInt32
  | unreadBytes (n : Nat)
  deriving DecidableEq

/-- What a call returns. -/
inductive BufferResult
  | nothing
  | bytes (bytes : Bytes)
  | word (value : Int32)
  deriving DecidableEq

namespace Buffer

/-! ## The remaining operations of the buffer -/

section Operations

variable (memory : Nat → UInt8) (buffer : Buffer)

/-- The constructor with its two arguments. -/
def sized (initialSize reservedPrependSize : Nat) : Option Buffer :=
  if h : reservedPrependSize < 2 ^ 32 ∧ reservedPrependSize + initialSize < 2 ^ 64 then
    some
      { buffer := newArray memory (reservedPrependSize + initialSize)
        readIndex := reservedPrependSize
        writeIndex := reservedPrependSize
        reservedPrependSize
        read_le_write := Nat.le_refl _
        write_le_capacity := by simp
        reserved_le_capacity := by simp
        reserved_lt := h.1
        capacity_lt := by rw [length_newArray]; exact h.2 }
  else none

/-- The read index is moved over unread bytes. -/
def advance (len : Nat) (hlen : len ≤ buffer.length) : Buffer where
  buffer := buffer.buffer
  readIndex := buffer.readIndex + len
  writeIndex := buffer.writeIndex
  reservedPrependSize := buffer.reservedPrependSize
  read_le_write := by
    have := buffer.read_le_write
    rw [length] at hlen
    omega
  write_le_capacity := buffer.write_le_capacity
  reserved_le_capacity := buffer.reserved_le_capacity
  reserved_lt := buffer.reserved_lt
  capacity_lt := buffer.capacity_lt

def skip (len : Nat) : Option Buffer :=
  if h : len < buffer.length then some (buffer.advance len (Nat.le_of_lt h))
  else buffer.truncate 0

def nextAll : Option (Buffer × Bytes) :=
  (buffer.truncate 0).map fun after => (after, buffer.contents)

def next (len : Nat) : Option (Buffer × Bytes) :=
  if h : len < buffer.length then
    some (buffer.advance len (Nat.le_of_lt h), buffer.contents.take len)
  else buffer.nextAll

/-- `ReadByte`, which does not reset an empty buffer. -/
def readByte : Option (Buffer × Bytes) :=
  if h : 1 ≤ buffer.length then some (buffer.advance 1 h, buffer.contents.take 1) else none

def peekInt32 : Option Int32 :=
  if 4 ≤ buffer.length then some (decodeWord buffer.contents).toInt32 else none

def readInt32 : Option (Buffer × Int32) := do
  let value ← buffer.peekInt32
  let buffer ← buffer.skip 4
  some (buffer, value)

def prepend (bytes : Bytes) : Option Buffer :=
  if hroom : bytes.length ≤ buffer.readIndex then
    have hfits : buffer.readIndex - bytes.length + bytes.length ≤ buffer.buffer.length := by
      have := buffer.read_le_write
      have := buffer.write_le_capacity
      omega
    some
      { buffer := splice buffer.buffer (buffer.readIndex - bytes.length) bytes
        readIndex := buffer.readIndex - bytes.length
        writeIndex := buffer.writeIndex
        reservedPrependSize := buffer.reservedPrependSize
        read_le_write := Nat.le_trans (Nat.sub_le _ _) buffer.read_le_write
        write_le_capacity := by rw [length_splice hfits]; exact buffer.write_le_capacity
        reserved_le_capacity := by rw [length_splice hfits]; exact buffer.reserved_le_capacity
        reserved_lt := buffer.reserved_lt
        capacity_lt := by rw [length_splice hfits]; exact buffer.capacity_lt }
  else none

def prependInt32 (value : Int32) : Option Buffer := buffer.prepend (encodeWord value.toUInt32)

def unwriteBytes (n : Nat) : Option Buffer :=
  if h : n ≤ buffer.length then
    some
      { buffer with
        writeIndex := buffer.writeIndex - n
        read_le_write := by
          have := buffer.read_le_write
          rw [length] at h
          omega
        write_le_capacity := Nat.le_trans (Nat.sub_le _ _) buffer.write_le_capacity }
  else none

def unreadBytes (n : Nat) : Option Buffer :=
  if n < buffer.readIndex then
    some
      { buffer with
        readIndex := buffer.readIndex - n
        read_le_write := Nat.le_trans (Nat.sub_le _ _) buffer.read_le_write }
  else none

def reserve (len : Nat) : Option Buffer :=
  if buffer.capacity ≥ (len + buffer.reservedPrependSize) % 2 ^ 64 then some buffer
  else buffer.grow memory ((len + buffer.reservedPrependSize) % 2 ^ 64)

/-- `Shrink`: the other buffer is constructed with the default space for prepending. -/
def shrink (reserve : Nat) : Option Buffer := do
  let other ← sized memory ((buffer.length + reserve) % 2 ^ 64) kCheapPrependSize
  other.write memory buffer.contents

def toText : Option Buffer := do
  let buffer ← buffer.write memory [0]
  buffer.unwriteBytes 1

/-- The bytes that `readv` puts behind the write index. -/
def receive (bytes : Bytes) (hfits : buffer.writeIndex + bytes.length ≤ buffer.buffer.length) :
    Buffer where
  buffer := splice buffer.buffer buffer.writeIndex bytes
  readIndex := buffer.readIndex
  writeIndex := buffer.writeIndex + bytes.length
  reservedPrependSize := buffer.reservedPrependSize
  read_le_write := Nat.le_add_right_of_le buffer.read_le_write
  write_le_capacity := by rwa [length_splice hfits]
  reserved_le_capacity := by rw [length_splice hfits]; exact buffer.reserved_le_capacity
  reserved_lt := buffer.reserved_lt
  capacity_lt := by rw [length_splice hfits]; exact buffer.capacity_lt

theorem take_writable_fits (bytes : Bytes) :
    buffer.writeIndex + (bytes.take buffer.writableBytes).length ≤ buffer.buffer.length := by
  have := buffer.write_le_capacity
  rw [List.length_take, writableBytes, capacity]
  omega

/-- `ReadFromFD` when `readv` returns these bytes. What does not fit behind the write index
comes by way of an array on the stack. -/
def readFromFD (bytes : Bytes) : Option Buffer :=
  let filled := buffer.receive (bytes.take buffer.writableBytes) (buffer.take_writable_fits bytes)
  if bytes.length ≤ buffer.writableBytes then some filled
  else filled.write memory (bytes.drop buffer.writableBytes)

end Operations

/-- The calls on a buffer. -/
def call (memory : Nat → UInt8) (buffer : Buffer) : BufferCall → Option (Buffer × BufferResult)
  | .write bytes => (buffer.write memory bytes).map (·, .nothing)
  | .appendInt32 value => (buffer.appendInt32 memory value).map (·, .nothing)
  | .prepend bytes => (buffer.prepend bytes).map (·, .nothing)
  | .prependInt32 value => (buffer.prependInt32 value).map (·, .nothing)
  | .unwriteBytes n => (buffer.unwriteBytes n).map (·, .nothing)
  | .readFromFD bytes => (buffer.readFromFD memory bytes).map (·, .nothing)
  | .reserve len => (buffer.reserve memory len).map (·, .nothing)
  | .shrink reserve => (buffer.shrink memory reserve).map (·, .nothing)
  | .truncate n => (buffer.truncate n).map (·, .nothing)
  | .toText => (buffer.toText memory).map (·, .nothing)
  | .skip len => (buffer.skip len).map (·, .nothing)
  | .next len => (buffer.next len).map fun (after, bytes) => (after, .bytes bytes)
  | .nextAll => buffer.nextAll.map fun (after, bytes) => (after, .bytes bytes)
  | .readByte => buffer.readByte.map fun (after, bytes) => (after, .bytes bytes)
  | .peekInt32 => buffer.peekInt32.map fun value => (buffer, .word value)
  | .readInt32 => buffer.readInt32.map fun (after, value) => (after, .word value)
  | .unreadBytes n => (buffer.unreadBytes n).map (·, .nothing)

end Buffer

/-! ## The queue -/

/-- A queue of bytes, with the space reserved for prepending, the room in front of the queue
that a caller can rely on, and the bytes that can be unread. -/
structure ByteQueue where
  contents : Bytes
  reserved : Nat
  room : Nat
  behind : Bytes
  deriving DecidableEq

namespace ByteQueue

variable (queue : ByteQueue)

def new (reserved : Nat) : ByteQueue where
  contents := []
  reserved
  room := reserved
  behind := []

/-- A queue whose bytes may have moved to the reserved position. -/
def put (contents : Bytes) : ByteQueue :=
  { queue with contents, room := min queue.room queue.reserved, behind := [] }

def clear : ByteQueue := { queue with contents := [], room := queue.reserved, behind := [] }

/-- The first bytes of the queue are read, and others remain. -/
def pass (len : Nat) : ByteQueue :=
  { queue with
    contents := queue.contents.drop len
    room := queue.room + len
    behind := queue.behind ++ queue.contents.take len }

def drain (len : Nat) : ByteQueue :=
  if len < queue.contents.length then queue.pass len else queue.clear

def append (bytes : Bytes) : Option ByteQueue :=
  if queue.contents.length + bytes.length < 2 ^ 32 then some (queue.put (queue.contents ++ bytes))
  else none

def push (bytes : Bytes) : Option ByteQueue :=
  if bytes.length ≤ queue.room then
    some { queue with
      contents := bytes ++ queue.contents
      room := queue.room - bytes.length
      behind := queue.behind.take (queue.behind.length - bytes.length) }
  else none

/-- A queue of less than `2 ^ 32` bytes keeps this up: the calls that it allows, and what
they do and return. -/
def call : BufferCall → Option (ByteQueue × BufferResult)
  | .write bytes | .readFromFD bytes => (queue.append bytes).map (·, .nothing)
  | .appendInt32 value => (queue.append (encodeWord value.toUInt32)).map (·, .nothing)
  | .prepend bytes => (queue.push bytes).map (·, .nothing)
  | .prependInt32 value => (queue.push (encodeWord value.toUInt32)).map (·, .nothing)
  | .unwriteBytes n =>
      if n ≤ queue.contents.length then
        some ({ queue with contents := queue.contents.take (queue.contents.length - n) }, .nothing)
      else none
  | .reserve len =>
      if queue.contents.length + (len + queue.reserved) < 2 ^ 32 then
        some (queue.put queue.contents, .nothing)
      else none
  | .shrink reserve =>
      if queue.contents.length + reserve < 2 ^ 32 then
        some ({ new kCheapPrependSize with contents := queue.contents }, .nothing)
      else none
  | .truncate n =>
      if n = 0 then some (queue.clear, .nothing)
      else if n ≤ queue.contents.length then
        some ({ queue with contents := queue.contents.take n }, .nothing)
      else none
  | .toText => (queue.append [0]).map fun _ => (queue.put queue.contents, .nothing)
  | .skip len => some (queue.drain len, .nothing)
  | .next len => some (queue.drain len, .bytes (queue.contents.take len))
  | .nextAll => some (queue.clear, .bytes queue.contents)
  | .readByte =>
      if queue.contents = [] then none
      else some (queue.pass 1, .bytes (queue.contents.take 1))
  | .peekInt32 =>
      if 4 ≤ queue.contents.length then some (queue, .word (decodeWord queue.contents).toInt32)
      else none
  | .readInt32 =>
      if 4 ≤ queue.contents.length then
        some (queue.drain 4, .word (decodeWord queue.contents).toInt32)
      else none
  | .unreadBytes n =>
      if n ≤ queue.behind.length ∧ n < queue.room then
        some ({ queue with
          contents := queue.behind.drop (queue.behind.length - n) ++ queue.contents
          room := queue.room - n
          behind := queue.behind.take (queue.behind.length - n) }, .nothing)
      else none

end ByteQueue

/-! ## The buffer follows the queue -/

/-- The bytes of the queue lie between the indices of the buffer, and what can be unread lies
in front of them. -/
structure Follows (queue : ByteQueue) (buffer : Buffer) : Prop where
  reserved : buffer.reservedPrependSize = queue.reserved
  room : queue.room ≤ buffer.readIndex
  behind : queue.behind.length ≤ buffer.readIndex
  bytes : Foundation.segment buffer.buffer (buffer.readIndex - queue.behind.length)
    buffer.writeIndex = queue.behind ++ queue.contents

namespace Follows

variable {memory : Nat → UInt8} {queue : ByteQueue} {buffer : Buffer}

theorem contents (hfollows : Follows queue buffer) : buffer.contents = queue.contents := by
  have hdrop : buffer.contents = (Foundation.segment buffer.buffer
      (buffer.readIndex - queue.behind.length) buffer.writeIndex).drop queue.behind.length := by
    rw [Buffer.contents, Foundation.segment, Foundation.segment, List.drop_drop,
      Nat.sub_add_cancel hfollows.behind]
  rw [hdrop, hfollows.bytes, List.drop_left]

theorem length (hfollows : Follows queue buffer) :
    buffer.length = queue.contents.length := by
  rw [← hfollows.contents, buffer.length_contents]

/-- A buffer from which nothing can be unread. -/
theorem of_contents {contents : Bytes} {room : Nat}
    (hreserved : buffer.reservedPrependSize = queue.reserved) (hroom : room ≤ buffer.readIndex)
    (hcontents : buffer.contents = contents) :
    Follows { queue with contents, room, behind := [] } buffer where
  reserved := hreserved
  room := hroom
  behind := Nat.zero_le _
  bytes := hcontents

end Follows

/-! ## Where the bytes lie -/

namespace Buffer

variable {memory : Nat → UInt8} {buffer after : Buffer}

/-- The unread bytes stay where they are or come to the reserved position. -/
def Moves (buffer after : Buffer) : Prop :=
  after.reservedPrependSize = buffer.reservedPrependSize ∧
    min buffer.readIndex buffer.reservedPrependSize ≤ after.readIndex

theorem grow_moves {len : Nat} (hgrow : buffer.grow memory len = some after) :
    buffer.Moves after := by
  unfold grow at hgrow
  split at hgrow
  next =>
    dsimp only at hgrow
    split at hgrow
    next =>
      obtain rfl := Option.some.inj hgrow
      exact ⟨rfl, Nat.min_le_right _ _⟩
    next => cases hgrow
  next =>
    split at hgrow
    next =>
      dsimp only at hgrow
      split at hgrow
      next =>
        obtain rfl := Option.some.inj hgrow
        exact ⟨rfl, Nat.min_le_right _ _⟩
      next => cases hgrow
    next => cases hgrow

theorem ensureWritableBytes_moves {len : Nat}
    (hensure : buffer.ensureWritableBytes memory len = some after) : buffer.Moves after := by
  rw [ensureWritableBytes] at hensure
  by_cases hneeds : buffer.writableBytes < len
  · rw [if_pos hneeds] at hensure
    obtain ⟨grown, hgrow, hready⟩ := Option.bind_eq_some_iff.mp hensure
    dsimp only at hready
    split at hready
    next =>
      obtain rfl := Option.some.inj hready
      exact grow_moves hgrow
    next => cases hready
  · rw [if_neg hneeds, Option.bind_eq_bind, Option.bind_some] at hensure
    dsimp only at hensure
    split at hensure
    next =>
      obtain rfl := Option.some.inj hensure
      exact ⟨rfl, Nat.min_le_left _ _⟩
    next => cases hensure

theorem write_moves {bytes : Bytes} (hwrite : buffer.write memory bytes = some after) :
    buffer.Moves after := by
  obtain ⟨ready, hready, hwritten⟩ := Option.bind_eq_some_iff.mp hwrite
  have hmoves := ensureWritableBytes_moves hready
  split at hwritten
  next =>
    obtain rfl := Option.some.inj hwritten
    exact hmoves
  next => cases hwritten

end Buffer

/-! ## One call -/

namespace Follows

variable {memory : Nat → UInt8} {queue after : ByteQueue} {buffer : Buffer}

/-- The buffer after its bytes have moved. -/
theorem put {moved : Buffer} (hfollows : Follows queue buffer) (hmoves : buffer.Moves moved)
    {contents : Bytes} (hcontents : moved.contents = contents) :
    Follows (queue.put contents) moved := by
  refine of_contents (hmoves.1.trans hfollows.reserved) ?_ hcontents
  have hroom := hfollows.room
  have hindex := hmoves.2
  rw [hfollows.reserved] at hindex
  omega

theorem append {bytes : Bytes} (hfollows : Follows queue buffer)
    (happend : queue.append bytes = some after) :
    ∃ written, buffer.write memory bytes = some written ∧ Follows after written := by
  rw [ByteQueue.append] at happend
  split at happend
  next hbound =>
    obtain rfl := Option.some.inj happend
    rw [← hfollows.contents] at hbound
    obtain ⟨written, hwrite, hcontents⟩ := Buffer.write_spec memory hbound
    rw [hfollows.contents] at hcontents
    exact ⟨written, hwrite, hfollows.put (Buffer.write_moves hwrite) hcontents⟩
  next => cases happend

theorem clear (hfollows : Follows queue buffer) :
    ∃ emptied, buffer.truncate 0 = some emptied ∧ Follows queue.clear emptied := by
  refine ⟨_, rfl, of_contents hfollows.reserved (Nat.le_of_eq hfollows.reserved.symm) ?_⟩
  rw [Buffer.contents, Foundation.segment]
  exact List.drop_eq_nil_of_le (Nat.le_of_eq (List.length_take_of_le buffer.reserved_le_capacity))

theorem pass {len : Nat} (hfollows : Follows queue buffer) (hlen : len ≤ buffer.length) :
    Follows (queue.pass len) (buffer.advance len hlen) where
  reserved := hfollows.reserved
  room := Nat.add_le_add_right hfollows.room len
  behind := by
    have hbehind := hfollows.behind
    have htake : (queue.behind ++ queue.contents.take len).length ≤ queue.behind.length + len := by
      rw [List.length_append, List.length_take]
      omega
    exact Nat.le_trans htake (Nat.add_le_add_right hbehind len)
  bytes := by
    have hlength : (queue.contents.take len).length = len :=
      List.length_take_of_le (hfollows.length ▸ hlen)
    have hstart : buffer.readIndex + len - (queue.behind ++ queue.contents.take len).length =
        buffer.readIndex - queue.behind.length := by
      rw [List.length_append, hlength]
      omega
    change Foundation.segment buffer.buffer (buffer.readIndex + len -
      (queue.behind ++ queue.contents.take len).length) buffer.writeIndex =
      queue.behind ++ queue.contents.take len ++ queue.contents.drop len
    rw [hstart, List.append_assoc, List.take_append_drop]
    exact hfollows.bytes

theorem push {bytes : Bytes} (hfollows : Follows queue buffer)
    (hpush : queue.push bytes = some after) :
    ∃ prepended, buffer.prepend bytes = some prepended ∧ Follows after prepended := by
  rw [ByteQueue.push] at hpush
  split at hpush
  next hroom =>
    obtain rfl := Option.some.inj hpush
    have hindex : bytes.length ≤ buffer.readIndex := Nat.le_trans hroom hfollows.room
    have hkept : (queue.behind.take (queue.behind.length - bytes.length)).length =
        queue.behind.length - bytes.length := List.length_take_of_le (Nat.sub_le _ _)
    have hbehind := hfollows.behind
    rw [Buffer.prepend, dif_pos hindex]
    refine ⟨_, rfl, hfollows.reserved, Nat.sub_le_sub_right hfollows.room _, ?_, ?_⟩
    · dsimp only
      omega
    · dsimp only
      rw [hkept]
      have hread := buffer.read_le_write
      have hwrite := buffer.write_le_capacity
      by_cases hfew : bytes.length ≤ queue.behind.length
      · -- The first bytes that could be unread stay in front of those that are prepended.
        have hstart : buffer.readIndex - bytes.length - (queue.behind.length - bytes.length) =
            buffer.readIndex - queue.behind.length := by omega
        have hoffset : buffer.readIndex - bytes.length = buffer.readIndex - queue.behind.length +
            (queue.behind.length - bytes.length) := by omega
        have hend : queue.behind.length - bytes.length + bytes.length = queue.behind.length := by
          omega
        rw [hstart, hoffset, segment_splice_inside _ (by omega) hwrite, hfollows.bytes, splice,
          hend, List.take_append_of_le_length (Nat.sub_le _ _), List.drop_left, List.append_assoc]
      · have hnone : queue.behind.length - bytes.length = 0 := by omega
        have hrest : (Foundation.segment buffer.buffer (buffer.readIndex - bytes.length)
            buffer.writeIndex).drop bytes.length = queue.contents := by
          rw [← hfollows.contents, Buffer.contents, Foundation.segment, Foundation.segment,
            List.drop_drop, Nat.sub_add_cancel hindex]
        have hinside : Foundation.segment
            (splice buffer.buffer (buffer.readIndex - bytes.length + 0) bytes)
            (buffer.readIndex - bytes.length) buffer.writeIndex = _ :=
          segment_splice_inside 0 (by omega) hwrite
        rw [Nat.add_zero] at hinside
        rw [hnone, Nat.sub_zero, hinside, splice, Nat.zero_add, hrest, List.take_zero,
          List.take_zero, List.nil_append, List.nil_append]
  next => cases hpush

theorem drain (hfollows : Follows queue buffer) (len : Nat) :
    ∃ skipped, buffer.skip len = some skipped ∧
      buffer.next len = some (skipped, queue.contents.take len) ∧
      Follows (queue.drain len) skipped := by
  have hlength := hfollows.length
  rw [Buffer.skip, Buffer.next, ByteQueue.drain]
  by_cases hless : len < buffer.length
  · rw [dif_pos hless, dif_pos hless, if_pos (hlength ▸ hless), ← hfollows.contents]
    exact ⟨_, rfl, rfl, hfollows.pass (Nat.le_of_lt hless)⟩
  · obtain ⟨emptied, hemptied, hclear⟩ := hfollows.clear
    have hall : queue.contents.take len = queue.contents :=
      List.take_of_length_le (by omega)
    rw [dif_neg hless, dif_neg hless, if_neg (by omega), Buffer.nextAll, hemptied,
      hfollows.contents, hall]
    exact ⟨emptied, rfl, rfl, hclear⟩

theorem unwrite {n : Nat} (hfollows : Follows queue buffer) (hn : n ≤ queue.contents.length) :
    ∃ shortened, buffer.unwriteBytes n = some shortened ∧
      Follows { queue with contents := queue.contents.take (queue.contents.length - n) }
        shortened := by
  have hlength := hfollows.length
  have hshorter : n ≤ buffer.length := by omega
  have hbehind := hfollows.behind
  have hread := buffer.read_le_write
  rw [Buffer.length] at hlength
  rw [Buffer.unwriteBytes, dif_pos hshorter]
  refine ⟨_, rfl, hfollows.reserved, hfollows.room, hfollows.behind, ?_⟩
  have hstop : Foundation.segment buffer.buffer (buffer.readIndex - queue.behind.length)
      (buffer.writeIndex - n) = (Foundation.segment buffer.buffer
        (buffer.readIndex - queue.behind.length) buffer.writeIndex).take
          (queue.behind.length + (queue.contents.length - n)) := by
    rw [Foundation.segment, Foundation.segment, List.take_drop, List.take_take]
    congr 2
    omega
  rw [hstop, hfollows.bytes, List.take_length_add_append]

theorem unread {n : Nat} (hfollows : Follows queue buffer) (hn : n ≤ queue.behind.length)
    (hroom : n < queue.room) :
    ∃ unread, buffer.unreadBytes n = some unread ∧
      Follows { queue with
        contents := queue.behind.drop (queue.behind.length - n) ++ queue.contents
        room := queue.room - n
        behind := queue.behind.take (queue.behind.length - n) } unread := by
  have hbehind := hfollows.behind
  have hkept : (queue.behind.take (queue.behind.length - n)).length = queue.behind.length - n :=
    List.length_take_of_le (Nat.sub_le _ _)
  rw [Buffer.unreadBytes, if_pos (Nat.lt_of_lt_of_le hroom hfollows.room)]
  refine ⟨_, rfl, hfollows.reserved, Nat.sub_le_sub_right hfollows.room _, ?_, ?_⟩
  · dsimp only
    omega
  · have hstart : buffer.readIndex - n - (queue.behind.length - n) =
        buffer.readIndex - queue.behind.length := by omega
    dsimp only
    rw [hkept, hstart, hfollows.bytes, ← List.append_assoc, List.take_append_drop]

/-- A buffer that keeps the space reserved for prepending. -/
theorem reserve {len : Nat} (hfollows : Follows queue buffer)
    (hbound : queue.contents.length + (len + queue.reserved) < 2 ^ 32) :
    ∃ reserved, buffer.reserve memory len = some reserved ∧
      Follows (queue.put queue.contents) reserved := by
  have hsum : (len + buffer.reservedPrependSize) % 2 ^ 64 = len + buffer.reservedPrependSize := by
    rw [hfollows.reserved]
    exact Nat.mod_eq_of_lt (by omega)
  rw [Buffer.reserve, hsum]
  split
  next => exact ⟨buffer, rfl, hfollows.put ⟨rfl, Nat.min_le_left _ _⟩ hfollows.contents⟩
  next hsmall =>
    have hneeds : buffer.writableBytes < len + buffer.reservedPrependSize := by
      rw [Buffer.writableBytes]
      omega
    have hfits : buffer.contents.length + (len + buffer.reservedPrependSize) < 2 ^ 32 := by
      rw [hfollows.contents, hfollows.reserved]
      exact hbound
    obtain ⟨grown, hgrow, hcontents, -⟩ := Buffer.grow_spec memory hneeds hfits
    exact ⟨grown, hgrow, hfollows.put (Buffer.grow_moves hgrow)
      (hcontents.trans hfollows.contents)⟩

theorem receive {bytes : Bytes} (hfollows : Follows queue buffer)
    (hfits : buffer.writeIndex + bytes.length ≤ buffer.buffer.length) :
    Follows { queue with contents := queue.contents ++ bytes } (buffer.receive bytes hfits) where
  reserved := hfollows.reserved
  room := hfollows.room
  behind := hfollows.behind
  bytes := by
    have hstart : buffer.readIndex - queue.behind.length ≤ buffer.writeIndex :=
      Nat.le_trans (Nat.sub_le _ _) buffer.read_le_write
    change Foundation.segment (splice buffer.buffer buffer.writeIndex bytes)
      (buffer.readIndex - queue.behind.length) (buffer.writeIndex + bytes.length) = _
    rw [segment_splice_append hstart buffer.write_le_capacity, hfollows.bytes, List.append_assoc]

/-- The bytes of `readv` come to the end of the queue, whether or not they fit behind the
write index. -/
theorem readFromFD {bytes : Bytes} (hfollows : Follows queue buffer)
    (happend : queue.append bytes = some after) :
    ∃ received, buffer.readFromFD memory bytes = some received ∧ Follows after received := by
  rw [ByteQueue.append] at happend
  split at happend
  next hbound =>
    obtain rfl := Option.some.inj happend
    have hfits : buffer.writeIndex + (bytes.take buffer.writableBytes).length ≤
        buffer.buffer.length := by
      have := buffer.write_le_capacity
      rw [List.length_take, Buffer.writableBytes, Buffer.capacity]
      omega
    have hreceived := hfollows.receive hfits
    rw [Buffer.readFromFD]
    split
    next hshort =>
      refine ⟨_, rfl, hreceived.put ⟨rfl, Nat.min_le_left _ _⟩ ?_⟩
      rw [hreceived.contents, List.take_of_length_le hshort]
    next =>
      have hparts : queue.contents ++ bytes.take buffer.writableBytes ++
          bytes.drop buffer.writableBytes = queue.contents ++ bytes := by
        rw [List.append_assoc, List.take_append_drop]
      refine hreceived.append ?_
      rw [ByteQueue.append, hparts, ← List.length_append, hparts, List.length_append, if_pos hbound]
      rfl
  next => cases happend

theorem truncate {n : Nat} (hfollows : Follows queue buffer) (hpos : n ≠ 0)
    (hn : n ≤ queue.contents.length) : ∃ truncated, buffer.truncate n = some truncated ∧
      Follows { queue with contents := queue.contents.take n } truncated := by
  have hlength := hfollows.length
  have hread := buffer.read_le_write
  have hwrite := buffer.write_le_capacity
  have hlt := buffer.capacity_lt
  have hshort : buffer.length - n ≤ buffer.length := Nat.sub_le _ _
  have hsame : buffer.truncate n = buffer.unwriteBytes (buffer.length - n) := by
    have hstop : (buffer.readIndex + n) % 2 ^ 64 = buffer.readIndex + n := by
      rw [Buffer.length] at hlength
      exact Nat.mod_eq_of_lt (by omega)
    have hend : buffer.writeIndex - (buffer.length - n) = buffer.readIndex + n := by
      rw [Buffer.length] at hlength ⊢
      omega
    rw [Buffer.truncate, if_neg hpos, Buffer.unwriteBytes, dif_pos hshort]
    simp only [hstop, hend]
    split
    next => rw [dif_pos (Nat.le_add_right _ _)]
    next hall =>
      have hwriteIndex : buffer.writeIndex = buffer.readIndex + n := by
        rw [Buffer.length] at hlength
        omega
      simp only [← hwriteIndex]
  rw [hsame]
  have hkept : queue.contents.length - (buffer.length - n) = n := by omega
  have hunwrite := hfollows.unwrite (n := buffer.length - n) (by omega)
  rwa [hkept] at hunwrite

/-- A buffer that was constructed. -/
theorem sized {initialSize reserved : Nat}
    (hsized : Buffer.sized memory initialSize reserved = some buffer) :
    Follows (ByteQueue.new reserved) buffer := by
  rw [Buffer.sized] at hsized
  split at hsized
  next =>
    obtain rfl := Option.some.inj hsized
    refine ⟨rfl, Nat.le_refl _, Nat.zero_le _, ?_⟩
    rw [Foundation.segment]
    exact List.drop_eq_nil_of_le (List.length_take_le _ _)
  next => cases hsized

theorem shrink {reserve : Nat} (hfollows : Follows queue buffer)
    (hbound : queue.contents.length + reserve < 2 ^ 32) :
    ∃ shrunk, buffer.shrink memory reserve = some shrunk ∧
      Follows { ByteQueue.new kCheapPrependSize with contents := queue.contents } shrunk := by
  have hsize : (buffer.length + reserve) % 2 ^ 64 = buffer.length + reserve := by
    rw [hfollows.length]
    exact Nat.mod_eq_of_lt (by omega)
  have hroom : kCheapPrependSize < 2 ^ 32 ∧
      kCheapPrependSize + (buffer.length + reserve) < 2 ^ 64 := by
    rw [hfollows.length, kCheapPrependSize]
    omega
  have happend : (ByteQueue.new kCheapPrependSize).append queue.contents =
      some { ByteQueue.new kCheapPrependSize with contents := queue.contents } := by
    simp [ByteQueue.append, ByteQueue.new, ByteQueue.put]
    omega
  have hother : Buffer.sized memory (buffer.length + reserve) kCheapPrependSize = some _ :=
    dif_pos hroom
  rw [Buffer.shrink, hsize, hother, Option.bind_eq_bind, Option.bind_some, hfollows.contents]
  exact (sized hother).append happend

theorem toText (hfollows : Follows queue buffer)
    (hbound : queue.contents.length + 1 < 2 ^ 32) :
    ∃ text, buffer.toText memory = some text ∧ Follows (queue.put queue.contents) text := by
  have happend : queue.append [0] = some (queue.put (queue.contents ++ [0])) := if_pos hbound
  obtain ⟨written, hwrite, hwritten⟩ : ∃ written, buffer.write memory [0] = some written ∧
      Follows (queue.put (queue.contents ++ [0])) written := hfollows.append happend
  obtain ⟨text, hunwrite, htext⟩ := hwritten.unwrite (n := 1) (by simp [ByteQueue.put])
  refine ⟨text, ?_, ?_⟩
  · rw [Buffer.toText, hwrite, Option.bind_eq_bind, Option.bind_some, hunwrite]
  · simpa [ByteQueue.put] using htext

/-- What a call that changes the buffer returns. -/
theorem returning {changed : Option Buffer} (result : BufferResult)
    (hchanged : ∃ next, changed = some next ∧ Follows after next) :
    ∃ next, changed.map (·, result) = some (next, result) ∧ Follows after next := by
  obtain ⟨next, hnext, hfollows⟩ := hchanged
  exact ⟨next, by rw [hnext]; rfl, hfollows⟩

/-- A call that the queue allows. -/
theorem call {call : BufferCall} {result : BufferResult} (hfollows : Follows queue buffer)
    (hcall : queue.call call = some (after, result)) :
    ∃ changed, buffer.call memory call = some (changed, result) ∧ Follows after changed := by
  have hlength := hfollows.length
  cases call with
  | write bytes | appendInt32 value =>
      obtain ⟨next, happend, hsame⟩ := Option.map_eq_some_iff.mp hcall
      obtain ⟨rfl, rfl⟩ := Prod.mk.inj hsame
      exact returning _ (hfollows.append happend)
  | prepend bytes | prependInt32 value =>
      obtain ⟨next, hpush, hsame⟩ := Option.map_eq_some_iff.mp hcall
      obtain ⟨rfl, rfl⟩ := Prod.mk.inj hsame
      exact returning _ (hfollows.push hpush)
  | unwriteBytes n =>
      rw [ByteQueue.call] at hcall
      split at hcall
      next hn =>
        obtain ⟨rfl, rfl⟩ := Prod.mk.inj (Option.some.inj hcall)
        exact returning _ (hfollows.unwrite hn)
      next => cases hcall
  | readFromFD bytes =>
      obtain ⟨next, happend, hsame⟩ := Option.map_eq_some_iff.mp hcall
      obtain ⟨rfl, rfl⟩ := Prod.mk.inj hsame
      exact returning _ (hfollows.readFromFD happend)
  | reserve len =>
      rw [ByteQueue.call] at hcall
      split at hcall
      next hbound =>
        obtain ⟨rfl, rfl⟩ := Prod.mk.inj (Option.some.inj hcall)
        exact returning _ (hfollows.reserve hbound)
      next => cases hcall
  | shrink reserve =>
      rw [ByteQueue.call] at hcall
      split at hcall
      next hbound =>
        obtain ⟨rfl, rfl⟩ := Prod.mk.inj (Option.some.inj hcall)
        exact returning _ (hfollows.shrink hbound)
      next => cases hcall
  | truncate n =>
      rw [ByteQueue.call] at hcall
      split at hcall
      next hzero =>
        obtain ⟨rfl, rfl⟩ := Prod.mk.inj (Option.some.inj hcall)
        exact returning _ (hzero ▸ hfollows.clear)
      next hpos =>
        split at hcall
        next hn =>
          obtain ⟨rfl, rfl⟩ := Prod.mk.inj (Option.some.inj hcall)
          exact returning _ (hfollows.truncate hpos hn)
        next => cases hcall
  | toText =>
      obtain ⟨next, happend, hsame⟩ := Option.map_eq_some_iff.mp hcall
      obtain ⟨rfl, rfl⟩ := Prod.mk.inj hsame
      rw [ByteQueue.append] at happend
      split at happend
      next hbound => exact returning _ (hfollows.toText hbound)
      next => cases happend
  | skip len =>
      obtain ⟨rfl, rfl⟩ := Prod.mk.inj (Option.some.inj hcall)
      obtain ⟨skipped, hskip, -, hnext⟩ := hfollows.drain len
      exact returning _ ⟨skipped, hskip, hnext⟩
  | next len =>
      obtain ⟨rfl, rfl⟩ := Prod.mk.inj (Option.some.inj hcall)
      obtain ⟨skipped, -, hread, hnext⟩ := hfollows.drain len
      exact ⟨skipped, by rw [Buffer.call, hread]; rfl, hnext⟩
  | nextAll =>
      obtain ⟨rfl, rfl⟩ := Prod.mk.inj (Option.some.inj hcall)
      obtain ⟨emptied, hemptied, hnext⟩ := hfollows.clear
      exact ⟨emptied, by rw [Buffer.call, Buffer.nextAll, hemptied, ← hfollows.contents]; rfl,
        hnext⟩
  | readByte =>
      rw [ByteQueue.call] at hcall
      split at hcall
      next => cases hcall
      next hnonempty =>
        obtain ⟨rfl, rfl⟩ := Prod.mk.inj (Option.some.inj hcall)
        have hone : 1 ≤ buffer.length := by
          rw [hlength]
          exact List.length_pos_iff.mpr hnonempty
        refine ⟨_, ?_, hfollows.pass hone⟩
        rw [Buffer.call, Buffer.readByte, dif_pos hone, ← hfollows.contents]
        rfl
  | peekInt32 =>
      rw [ByteQueue.call] at hcall
      split at hcall
      next hlong =>
        obtain ⟨rfl, rfl⟩ := Prod.mk.inj (Option.some.inj hcall)
        refine ⟨buffer, ?_, hfollows⟩
        rw [Buffer.call, Buffer.peekInt32, if_pos (hlength ▸ hlong), hfollows.contents]
        rfl
      next => cases hcall
  | readInt32 =>
      rw [ByteQueue.call] at hcall
      split at hcall
      next hlong =>
        obtain ⟨rfl, rfl⟩ := Prod.mk.inj (Option.some.inj hcall)
        obtain ⟨skipped, hskip, -, hnext⟩ := hfollows.drain 4
        refine ⟨skipped, ?_, hnext⟩
        rw [Buffer.call, Buffer.readInt32, Buffer.peekInt32, if_pos (hlength ▸ hlong),
          hfollows.contents, Option.bind_eq_bind, Option.bind_some, hskip]
        rfl
      next => cases hcall
  | unreadBytes n =>
      rw [ByteQueue.call] at hcall
      split at hcall
      next hn =>
        obtain ⟨rfl, rfl⟩ := Prod.mk.inj (Option.some.inj hcall)
        exact returning _ (hfollows.unread hn.1 hn.2)
      next => cases hcall

end Follows

/-! ## Runs -/

/-- A buffer is a queue of bytes. Whatever calls are made on it, as long as the queue allows
them, no assertion fails, no index leaves the array, every call returns what the queue
returns, the unread bytes are those of the queue, and there is the room for prepending that
the queue promises. -/
theorem buffer_follows_queue {memory : Nat → UInt8} {initialSize reserved : Nat}
    {buffer : Buffer} (hsized : Buffer.sized memory initialSize reserved = some buffer)
    {calls : List BufferCall} {queue : ByteQueue} {results : List BufferResult}
    (hqueue : run (recording ByteQueue.call) (ByteQueue.new reserved, []) calls =
      some (queue, results)) :
    ∃ after, run (recording (Buffer.call memory)) (buffer, []) calls = some (after, results) ∧
      after.contents = queue.contents ∧ queue.room ≤ after.prependableBytes := by
  have hstep : ∀ (abstract : ByteQueue × List BufferResult)
      (concrete : Buffer × List BufferResult) (call : BufferCall)
      (next : ByteQueue × List BufferResult),
      (Follows abstract.1 concrete.1 ∧ abstract.2 = concrete.2) →
      recording ByteQueue.call abstract call = some next →
      ∃ after, recording (Buffer.call memory) concrete call = some after ∧
        Follows next.1 after.1 ∧ next.2 = after.2 := by
    rintro abstract concrete call next ⟨hfollows, hsame⟩ hnext
    obtain ⟨result, hcall, hresults⟩ := recording_eq_some_iff.mp hnext
    obtain ⟨changed, hchanged, hkept⟩ := hfollows.call hcall
    exact ⟨(changed, concrete.2 ++ [result]),
      recording_eq_some_iff.mpr ⟨result, hchanged, rfl⟩, hkept, by rw [hresults, hsame]⟩
  obtain ⟨after, hafter, hfollows, hsame⟩ : ∃ after,
      run (recording (Buffer.call memory)) (buffer, []) calls = some after ∧
        Follows queue after.1 ∧ results = after.2 :=
    run_simulates
      (fun (abstract : ByteQueue × List BufferResult) (concrete : Buffer × List BufferResult) =>
        Follows abstract.1 concrete.1 ∧ abstract.2 = concrete.2)
      hstep ⟨Follows.sized hsized, rfl⟩ hqueue
  refine ⟨after.1, ?_, hfollows.contents, hfollows.room⟩
  rw [hafter]
  exact congrArg some (Prod.ext rfl hsame.symm)

/-- A small buffer has to grow, two bytes of a word are read and one of them unread, and what
is read from the socket does not fit either. -/
def mixedCalls : List BufferCall :=
  [.write [1, 2, 3, 4, 5, 6], .next 2, .unreadBytes 1, .prependInt32 7, .readInt32,
    .readFromFD (List.replicate 20 9), .toText, .next 5, .shrink 0, .prepend [8], .nextAll]

theorem buffer_follows_queue_mixedCalls : ∃ buffer after,
    Buffer.sized (fun _ => 0) 4 8 = some buffer ∧
    run (recording (Buffer.call fun _ => 0)) (buffer, []) mixedCalls =
      some (after, [.nothing, .bytes [1, 2], .nothing, .nothing, .word 7, .nothing, .nothing,
        .bytes [2, 3, 4, 5, 6], .nothing, .nothing, .bytes (8 :: List.replicate 20 9)]) ∧
    after.contents = [] ∧ 8 ≤ after.prependableBytes := by
  obtain ⟨buffer, hsized⟩ : ∃ buffer, Buffer.sized (fun _ => 0) 4 8 = some buffer :=
    ⟨_, dif_pos (by decide)⟩
  have hqueue : run (recording ByteQueue.call) (ByteQueue.new 8, []) mixedCalls =
      some (ByteQueue.new 8, [.nothing, .bytes [1, 2], .nothing, .nothing, .word 7, .nothing,
        .nothing, .bytes [2, 3, 4, 5, 6], .nothing, .nothing,
        .bytes (8 :: List.replicate 20 9)]) := by decide
  obtain ⟨after, hrun, hcontents, hroom⟩ := buffer_follows_queue hsized hqueue
  exact ⟨buffer, after, hsized, hrun, hcontents, hroom⟩

end Wnet.Evpp
