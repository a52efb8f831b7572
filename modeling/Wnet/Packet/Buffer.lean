import Wnet.Foundation.Segment
import Wnet.Packet.Streamer

/-!
# The buffer under the streamer

`evpp::Buffer` keeps its unread bytes in one array, between a read and a write
index. When the space behind the write index runs out it either moves the
unread bytes to the front of the array or to a larger array. The operations
return `none` where an assertion of the buffer fails, an index leaves the
array, or the indices lose their order.
-/

namespace Wnet.Evpp

open Foundation

def kCheapPrependSize : Nat := 8

def kInitialSize : Nat := 1024

/-- `evpp::Buffer`: `capacity_` is the length of the array. The space reserved for
prepending is chosen at construction, where this program leaves it at its default. -/
structure Buffer where
  buffer : Bytes
  readIndex : Nat
  writeIndex : Nat
  reservedPrependSize : Nat
  read_le_write : readIndex ≤ writeIndex
  write_le_capacity : writeIndex ≤ buffer.length
  reserved_le_capacity : reservedPrependSize ≤ buffer.length
  reserved_lt : reservedPrependSize < 2 ^ 32
  capacity_lt : buffer.length < 2 ^ 64

/-- `new char[n]`, whose bytes are whatever the memory held. -/
def newArray (memory : Nat → UInt8) (n : Nat) : Bytes := (List.range n).map memory

@[simp] theorem length_newArray (memory : Nat → UInt8) (n : Nat) :
    (newArray memory n).length = n := by
  simp [newArray]

namespace Buffer

variable (memory : Nat → UInt8) (buffer : Buffer)

/-- A buffer constructed with the default arguments. -/
def new : Buffer where
  buffer := newArray memory (kCheapPrependSize + kInitialSize)
  readIndex := kCheapPrependSize
  writeIndex := kCheapPrependSize
  reservedPrependSize := kCheapPrependSize
  read_le_write := Nat.le_refl _
  write_le_capacity := by simp
  reserved_le_capacity := by simp
  reserved_lt := by decide
  capacity_lt := by
    rw [length_newArray]
    decide

def capacity : Nat := buffer.buffer.length

def length : Nat := buffer.writeIndex - buffer.readIndex

def writableBytes : Nat := buffer.capacity - buffer.writeIndex

def prependableBytes : Nat := buffer.readIndex

/-- The unread bytes. -/
def contents : Bytes := segment buffer.buffer buffer.readIndex buffer.writeIndex

theorem length_contents : buffer.contents.length = buffer.length :=
  length_segment _ buffer.write_le_capacity

/-- The unread bytes moved to the reserved position of an array that has room for them. -/
def settle (array : Bytes)
    (hfits : buffer.reservedPrependSize + buffer.contents.length ≤ array.length)
    (hlt : array.length < 2 ^ 64) : Buffer where
  buffer := splice array buffer.reservedPrependSize buffer.contents
  readIndex := buffer.reservedPrependSize
  writeIndex := buffer.reservedPrependSize + buffer.contents.length
  reservedPrependSize := buffer.reservedPrependSize
  read_le_write := Nat.le_add_right _ _
  write_le_capacity := by rwa [length_splice hfits]
  reserved_le_capacity := by
    rw [length_splice hfits]
    omega
  reserved_lt := buffer.reserved_lt
  capacity_lt := by rwa [length_splice hfits]

/-- `grow`. -/
def grow (len : Nat) : Option Buffer :=
  if buffer.writableBytes + buffer.prependableBytes <
      (len + buffer.reservedPrependSize) % 2 ^ 64 then
    let n := ((buffer.capacity <<< 1) + len) % 2 ^ 64
    if hfits : buffer.reservedPrependSize + buffer.contents.length ≤ n then
      some (buffer.settle (newArray memory n) (by rwa [length_newArray])
        (by rw [length_newArray]; exact Nat.mod_lt _ (by decide)))
    else none
  else if hreserved : buffer.reservedPrependSize < buffer.readIndex then
    let moved := buffer.settle buffer.buffer
      (by
        have := buffer.length_contents
        have := buffer.read_le_write
        have := buffer.write_le_capacity
        rw [length] at *
        omega)
      buffer.capacity_lt
    if len ≤ moved.writableBytes then some moved else none
  else none

/-- `EnsureWritableBytes`. -/
def ensureWritableBytes (len : Nat) : Option Buffer := do
  let buffer ← if buffer.writableBytes < len then buffer.grow memory len else some buffer
  if len ≤ buffer.writableBytes then some buffer else none

/-- `Write`. -/
def write (bytes : Bytes) : Option Buffer := do
  let buffer ← buffer.ensureWritableBytes memory bytes.length
  if hfits : buffer.writeIndex + bytes.length ≤ buffer.buffer.length then
    some
      { buffer with
        buffer := splice buffer.buffer buffer.writeIndex bytes
        writeIndex := buffer.writeIndex + bytes.length
        read_le_write := Nat.le_add_right_of_le buffer.read_le_write
        write_le_capacity := by rwa [length_splice hfits]
        reserved_le_capacity := by
          rw [length_splice hfits]
          exact buffer.reserved_le_capacity
        capacity_lt := by
          rw [length_splice hfits]
          exact buffer.capacity_lt }
  else none

/-- `AppendInt32`. -/
def appendInt32 (value : Int32) : Option Buffer := buffer.write memory (encodeWord value.toUInt32)

/-- `Truncate`. -/
def truncate (n : Nat) : Option Buffer :=
  if n = 0 then
    some
      { buffer with
        readIndex := buffer.reservedPrependSize
        writeIndex := buffer.reservedPrependSize
        read_le_write := Nat.le_refl _
        write_le_capacity := buffer.reserved_le_capacity }
  else
    let stop := (buffer.readIndex + n) % 2 ^ 64
    if hstop : buffer.writeIndex > stop then
      if hread : buffer.readIndex ≤ stop then
        some
          { buffer with
            writeIndex := stop
            read_le_write := hread
            write_le_capacity := Nat.le_trans (Nat.le_of_lt hstop) buffer.write_le_capacity }
      else none
    else some buffer

/-- `memcpy` of a word over the unread bytes at an offset. -/
def overwrite (offset : Nat) (value : Int32) : Option Buffer :=
  if hfits : buffer.readIndex + offset + (encodeWord value.toUInt32).length ≤
      buffer.buffer.length then
    some
      { buffer with
        buffer := splice buffer.buffer (buffer.readIndex + offset) (encodeWord value.toUInt32)
        write_le_capacity := by
          rw [length_splice hfits]
          exact buffer.write_le_capacity
        reserved_le_capacity := by
          rw [length_splice hfits]
          exact buffer.reserved_le_capacity
        capacity_lt := by
          rw [length_splice hfits]
          exact buffer.capacity_lt }
  else none

/-! ## What the operations do to the unread bytes -/

variable {buffer}

theorem capacity_eq :
    buffer.capacity = buffer.readIndex + buffer.contents.length + buffer.writableBytes := by
  have hread := buffer.read_le_write
  have hwrite := buffer.write_le_capacity
  rw [length_contents, writableBytes, length, capacity]
  omega

@[simp] theorem contents_settle {array : Bytes}
    (hfits : buffer.reservedPrependSize + buffer.contents.length ≤ array.length)
    (hlt : array.length < 2 ^ 64) : (buffer.settle array hfits hlt).contents = buffer.contents :=
  segment_splice (by omega)

@[simp] theorem writableBytes_settle {array : Bytes}
    (hfits : buffer.reservedPrependSize + buffer.contents.length ≤ array.length)
    (hlt : array.length < 2 ^ 64) : (buffer.settle array hfits hlt).writableBytes =
      array.length - (buffer.reservedPrependSize + buffer.contents.length) := by
  rw [writableBytes, capacity, settle, length_splice hfits]

/-- Below `2 ^ 32` bytes `grow` makes room, whichever of its two ways it takes. -/
theorem grow_spec {len : Nat} (hneeds : buffer.writableBytes < len)
    (hbound : buffer.contents.length + len < 2 ^ 32) :
    ∃ grown, buffer.grow memory len = some grown ∧ grown.contents = buffer.contents ∧
      len ≤ grown.writableBytes := by
  have hcapacity := buffer.capacity_eq
  have hreserved := buffer.reserved_lt
  have hroom : buffer.reservedPrependSize ≤ buffer.capacity := buffer.reserved_le_capacity
  have hshift : buffer.capacity <<< 1 = 2 * buffer.capacity := by
    rw [Nat.shiftLeft_eq]
    omega
  have hsum : (len + buffer.reservedPrependSize) % 2 ^ 64 = len + buffer.reservedPrependSize :=
    Nat.mod_eq_of_lt (by omega)
  simp only [grow, hsum, hshift, prependableBytes]
  split
  next hfull =>
    -- the capacity is small here, so that the new one does not overflow
    have hsize : (2 * buffer.capacity + len) % 2 ^ 64 = 2 * buffer.capacity + len :=
      Nat.mod_eq_of_lt (by omega)
    simp only [hsize]
    rw [dif_pos (by omega)]
    refine ⟨_, rfl, contents_settle _ _, ?_⟩
    rw [writableBytes_settle, length_newArray]
    omega
  next hfull =>
    have hread : buffer.reservedPrependSize < buffer.readIndex := by omega
    have hmoved : len ≤ buffer.buffer.length -
        (buffer.reservedPrependSize + buffer.contents.length) := by
      rw [capacity] at hcapacity
      omega
    rw [dif_pos hread]
    simp only [writableBytes_settle, if_pos hmoved]
    refine ⟨_, rfl, contents_settle _ _, ?_⟩
    rwa [writableBytes_settle]

theorem ensureWritableBytes_spec {len : Nat} (hbound : buffer.contents.length + len < 2 ^ 32) :
    ∃ ready, buffer.ensureWritableBytes memory len = some ready ∧
      ready.contents = buffer.contents ∧ len ≤ ready.writableBytes := by
  by_cases hneeds : buffer.writableBytes < len
  · obtain ⟨grown, hgrow, hcontents, hroom⟩ := grow_spec memory hneeds hbound
    exact ⟨grown, by simp [ensureWritableBytes, hneeds, hgrow, hroom], hcontents, hroom⟩
  · have hroom : len ≤ buffer.writableBytes := Nat.not_lt.mp hneeds
    exact ⟨buffer, by simp [ensureWritableBytes, hneeds, hroom], rfl, hroom⟩

/-- `Write` appends. -/
theorem write_spec {bytes : Bytes} (hbound : buffer.contents.length + bytes.length < 2 ^ 32) :
    ∃ written, buffer.write memory bytes = some written ∧
      written.contents = buffer.contents ++ bytes := by
  obtain ⟨ready, hready, hcontents, hroom⟩ := ensureWritableBytes_spec memory hbound
  have hfits : ready.writeIndex + bytes.length ≤ ready.buffer.length := by
    have := ready.write_le_capacity
    rw [writableBytes, capacity] at hroom
    omega
  rw [write, hready, Option.bind_eq_bind, Option.bind_some, dif_pos hfits]
  refine ⟨_, rfl, ?_⟩
  rw [← hcontents]
  exact segment_splice_append ready.read_le_write ready.write_le_capacity

theorem appendInt32_spec (value : Int32) (hbound : buffer.contents.length + 4 < 2 ^ 32) :
    ∃ written, buffer.appendInt32 memory value = some written ∧
      written.contents = Wnet.Buffer.appendInt32 buffer.contents value :=
  write_spec memory hbound

/-- Several `Write`s, one after another. -/
theorem writes_spec {pieces : List Bytes}
    (hbound : buffer.contents.length + pieces.flatten.length < 2 ^ 32) :
    ∃ written, pieces.foldlM (fun buffer bytes => buffer.write memory bytes) buffer =
        some written ∧ written.contents = buffer.contents ++ pieces.flatten := by
  induction pieces generalizing buffer with
  | nil => exact ⟨buffer, rfl, by simp⟩
  | cons bytes pieces ih =>
      rw [List.flatten_cons, List.length_append] at hbound
      have hfits : buffer.contents.length + bytes.length < 2 ^ 32 := by omega
      obtain ⟨first, hfirst, hcontents⟩ := write_spec memory hfits
      have hlength : first.contents.length = buffer.contents.length + bytes.length := by
        rw [hcontents, List.length_append]
      have hrest : first.contents.length + pieces.flatten.length < 2 ^ 32 := by omega
      obtain ⟨written, hwritten, hall⟩ := ih hrest
      refine ⟨written, ?_, ?_⟩
      · rw [List.foldlM_cons, hfirst, Option.bind_eq_bind, Option.bind_some, hwritten]
      · rw [hall, hcontents, List.flatten_cons, List.append_assoc]

/-- `Truncate` keeps the first unread bytes; emptying the buffer resets its indices. -/
theorem truncate_spec {n : Nat} (hn : n ≤ buffer.contents.length) :
    ∃ truncated, buffer.truncate n = some truncated ∧
      truncated.contents = buffer.contents.take n := by
  have hlength := buffer.length_contents
  have hread := buffer.read_le_write
  have hwrite := buffer.write_le_capacity
  have hlt := buffer.capacity_lt
  rw [length] at hlength
  rw [truncate]
  split
  next hzero =>
    refine ⟨_, rfl, ?_⟩
    rw [hzero, List.take_zero, contents, Foundation.segment]
    apply List.drop_eq_nil_of_le
    exact Nat.le_of_eq (List.length_take_of_le buffer.reserved_le_capacity)
  next hpos =>
    have hstop : (buffer.readIndex + n) % 2 ^ 64 = buffer.readIndex + n :=
      Nat.mod_eq_of_lt (by omega)
    simp only [hstop]
    split
    next hshorter =>
      rw [dif_pos (Nat.le_add_right _ _)]
      refine ⟨_, rfl, ?_⟩
      rw [contents, contents, Foundation.segment, Foundation.segment, List.take_drop,
        List.take_take, Nat.min_eq_left (by omega)]
    next hall =>
      exact ⟨buffer, rfl, (List.take_of_length_le (by omega)).symm⟩

theorem overwrite_spec {offset : Nat} {value : Int32}
    (hinside : offset + 4 ≤ buffer.contents.length) :
    ∃ patched, buffer.overwrite offset value = some patched ∧
      patched.contents = Wnet.Buffer.overwrite buffer.contents offset value := by
  have hlength := buffer.length_contents
  have hread := buffer.read_le_write
  have hwrite := buffer.write_le_capacity
  rw [length] at hlength
  have hfits : buffer.readIndex + offset + (encodeWord value.toUInt32).length ≤
      buffer.writeIndex := by
    rw [length_encodeWord]
    omega
  rw [overwrite, dif_pos (Nat.le_trans hfits hwrite)]
  exact ⟨_, rfl, segment_splice_inside offset hfits hwrite⟩

end Buffer

end Wnet.Evpp
