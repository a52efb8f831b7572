import Mathlib.Data.List.Count
import Mathlib.Logic.Function.Basic

/-!
# Items in places

An inventory lists what is in each place. It is well kept by a function that says
of each item where it is: an item is listed once there and nowhere else. New
items are put into a place, and items are moved from one place to another.
-/

namespace Wnet.Foundation

variable {Place Item : Type*} [DecidableEq Place] [DecidableEq Item]

/-- Each item is listed once in the place it is in, and in no other. -/
def Placed (inventory : Place → List Item) (place : Item → Option Place) : Prop :=
  ∀ item spot, (inventory spot).count item = if place item = some spot then 1 else 0

namespace Placed

variable {inventory inventory' : Place → List Item} {place : Item → Option Place}

theorem mem_iff (hplaced : Placed inventory place) {item : Item} {spot : Place} :
    item ∈ inventory spot ↔ place item = some spot := by
  rw [← List.one_le_count_iff, hplaced]
  split
  next heq => simp [heq]
  next hne => simp [hne]

/-- An item that is nowhere is put into a place. -/
theorem insert (hplaced : Placed inventory place) {item : Item} {spot : Place}
    (hnew : place item = none) (hspot : inventory' spot = inventory spot ++ [item])
    (hothers : ∀ other, other ≠ spot → inventory' other = inventory other) :
    Placed inventory' (Function.update place item (some spot)) := by
  intro other spot'
  have hbefore := hplaced other spot'
  by_cases hspot' : spot' = spot
  · subst hspot'
    rw [hspot, List.count_append, hbefore]
    by_cases hitem : other = item
    · subst hitem
      simp [hnew]
    · simp [hitem, Ne.symm hitem]
  · rw [hothers spot' hspot', hbefore]
    by_cases hitem : other = item
    · subst hitem
      simp [hnew, Ne.symm hspot']
    · rw [Function.update_of_ne hitem]

/-- What is moved away from a place was there. -/
theorem place_of_moved (hplaced : Placed inventory place) {source : Place} {moved : List Item}
    (hsource : ∀ item, (inventory source).count item =
      (inventory' source).count item + moved.count item) {item : Item} (hmoved : item ∈ moved) :
    place item = some source := by
  have hcount : 0 < moved.count item := List.count_pos_iff.mpr hmoved
  have hfrom := hplaced item source
  rw [hsource] at hfrom
  by_contra hnot
  rw [if_neg hnot] at hfrom
  omega

/-- Some items are moved from one place to another. -/
theorem transfer (hplaced : Placed inventory place) {source target : Place}
    (hne : source ≠ target) {moved : List Item}
    (hsource : ∀ item, (inventory source).count item =
      (inventory' source).count item + moved.count item)
    (htarget : ∀ item, (inventory' target).count item =
      (inventory target).count item + moved.count item)
    (hothers : ∀ other, other ≠ source → other ≠ target → inventory' other = inventory other) :
    Placed inventory' fun item => if item ∈ moved then some target else place item := by
  intro item spot
  have hfrom := hplaced item source
  have hto := hplaced item target
  rw [hsource] at hfrom
  by_cases hmoved : item ∈ moved
  · -- It was at the source, so it was nowhere else.
    have hcount : 0 < moved.count item := List.count_pos_iff.mpr hmoved
    have hplace := hplaced.place_of_moved hsource hmoved
    rw [if_pos hplace] at hfrom
    rw [hplace, if_neg (by simpa using hne)] at hto
    simp only [hmoved, if_true, Option.some.injEq]
    by_cases htargetSpot : spot = target
    · subst htargetSpot
      rw [htarget, if_pos rfl]
      omega
    · rw [if_neg (Ne.symm htargetSpot)]
      by_cases hsourceSpot : spot = source
      · subst hsourceSpot
        omega
      · rw [hothers spot hsourceSpot htargetSpot, hplaced, hplace,
          if_neg (by simpa using Ne.symm hsourceSpot)]
  · have hcount : moved.count item = 0 := List.count_eq_zero.mpr hmoved
    simp only [hmoved, if_false]
    by_cases htargetSpot : spot = target
    · subst htargetSpot
      rw [htarget, hcount, hto, Nat.add_zero]
    · by_cases hsourceSpot : spot = source
      · subst hsourceSpot
        omega
      · rw [hothers spot hsourceSpot htargetSpot, hplaced]

end Placed

end Wnet.Foundation
