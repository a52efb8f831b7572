import Mathlib.Data.List.Basic
import Mathlib.Data.Option.Basic

/-!
# Named values and partial readers

A list of named values is searched from its beginning, so of several values with one
name only the first is found. Replacing that value does not change what is found under
the other names.

A reader that may fail is applied to every element of a list, and fails on the list when
it fails on an element.
-/

namespace Wnet.Foundation

section NamedValues

variable {Name Value : Type*} [BEq Name] [LawfulBEq Name]

/-- Replace the first value of the name. -/
def replaceFirst (name : Name) (value : Value) : List (Name × Value) → List (Name × Value)
  | [] => []
  | (other, old) :: rest =>
      if other == name then (other, value) :: rest else (other, old) :: replaceFirst name value rest

theorem lookup_replaceFirst_of_ne {name other : Name} (hne : other ≠ name) (value : Value)
    (values : List (Name × Value)) :
    (replaceFirst name value values).lookup other = values.lookup other := by
  induction values with
  | nil => rfl
  | cons entry rest ih =>
      obtain ⟨key, old⟩ := entry
      rw [replaceFirst]
      split
      next heq =>
        have hkey : (other == key) = false := by simpa [eq_of_beq heq] using hne
        simp [List.lookup_cons, hkey]
      next => simp [List.lookup_cons, ih]

end NamedValues

section Readers

variable {Item Result : Type*} {read : Item → Option Result}

theorem isSome_mapM_iff {items : List Item} :
    (items.mapM read).isSome ↔ ∀ item ∈ items, (read item).isSome := by
  induction items with
  | nil => simp
  | cons item items ih =>
      rw [List.mapM_cons, List.forall_mem_cons, ← ih]
      cases hitem : read item <;> cases hrest : items.mapM read <;> simp

theorem mapM_eq_some_nil_iff {items : List Item} : items.mapM read = some [] ↔ items = [] := by
  cases items with
  | nil => simp
  | cons item items =>
      rw [List.mapM_cons]
      cases hitem : read item <;> cases hrest : items.mapM read <;> simp

/-- What was printed element by element is read back when each element is. -/
theorem mapM_map_eq_some_iff {print : Result → Item} {results : List Result} :
    (results.map print).mapM read = some results ↔
      ∀ result ∈ results, read (print result) = some result := by
  induction results with
  | nil => simp
  | cons result results ih =>
      rw [List.map_cons, List.mapM_cons, List.forall_mem_cons, ← ih]
      cases hitem : read (print result) <;> cases hrest : (results.map print).mapM read <;> simp

end Readers

/-- Two readers one after the other succeed when both do. -/
theorem isSome_pair_iff {First Second : Type*} {first : Option First} {second : Option Second} :
    (first.bind fun value => second.bind fun other => some (value, other)).isSome ↔
      first.isSome ∧ second.isSome := by
  cases first <;> cases second <;> simp

theorem pair_eq_some_iff {First Second : Type*} {first : Option First} {second : Option Second}
    {value : First} {other : Second} :
    (first.bind fun value => second.bind fun other => some (value, other)) = some (value, other) ↔
      first = some value ∧ second = some other := by
  cases first <;> cases second <;> simp

end Wnet.Foundation
