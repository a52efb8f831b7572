import Mathlib.Data.List.Basic

/-!
# Segments of an array

The elements of an array between two indices, and the array with the elements
from some index on replaced. `memcpy` and `memmove` into a buffer are `splice`;
what a reader of the buffer sees is a `segment`.
-/

namespace Wnet.Foundation

variable {α : Type*}

/-- The elements from index `start` up to index `stop`. -/
def segment (array : List α) (start stop : Nat) : List α := (array.take stop).drop start

/-- The array with `values` written over the elements from `offset` on. -/
def splice (array : List α) (offset : Nat) (values : List α) : List α :=
  array.take offset ++ values ++ array.drop (offset + values.length)

theorem length_segment {array : List α} {stop : Nat} (start : Nat) (hstop : stop ≤ array.length) :
    (segment array start stop).length = stop - start := by
  rw [segment, List.length_drop, List.length_take_of_le hstop]

theorem length_splice {array values : List α} {offset : Nat}
    (hfits : offset + values.length ≤ array.length) :
    (splice array offset values).length = array.length := by
  simp only [splice, List.length_append, List.length_take, List.length_drop]
  omega

theorem take_splice {array values : List α} {offset : Nat} (hoffset : offset ≤ array.length) :
    (splice array offset values).take (offset + values.length) =
      array.take offset ++ values := by
  have hlength : (array.take offset ++ values).length = offset + values.length := by
    rw [List.length_append, List.length_take_of_le hoffset]
  rw [splice, List.take_append_of_le_length (Nat.le_of_eq hlength.symm), ← hlength,
    List.take_length]

/-- Writing at the end of a segment appends to it. -/
theorem segment_splice_append {array values : List α} {start offset : Nat}
    (hstart : start ≤ offset) (hoffset : offset ≤ array.length) :
    segment (splice array offset values) start (offset + values.length) =
      segment array start offset ++ values := by
  have hlength : start ≤ (array.take offset).length := by
    rwa [List.length_take_of_le hoffset]
  rw [segment, take_splice hoffset, List.drop_append_of_le_length hlength, segment]

/-- What was written is what is read there. -/
theorem segment_splice {array values : List α} {offset : Nat} (hoffset : offset ≤ array.length) :
    segment (splice array offset values) offset (offset + values.length) = values := by
  rw [segment_splice_append (Nat.le_refl offset) hoffset]
  simp [segment]

/-- Writing inside a segment. -/
theorem segment_splice_inside {array values : List α} {start stop : Nat} (offset : Nat)
    (hinside : start + offset + values.length ≤ stop) (hstop : stop ≤ array.length) :
    segment (splice array (start + offset) values) start stop =
      splice (segment array start stop) offset values := by
  apply List.ext_getElem?
  intro index
  simp only [segment, splice, List.getElem?_drop, List.getElem?_take, List.getElem?_append,
    List.length_append, List.length_take, List.length_drop]
  grind

end Wnet.Foundation
