import Mathlib.Order.Lattice
import Mathlib.Data.List.Basic

/-!
# Lists in the order of their deadlines

A scan that stops at the first item that is not due finds every due item when the
deadlines do not decrease along the list.
-/

namespace Wnet.Foundation

variable {Item Time : Type*} [LinearOrder Time]

/-- The deadlines do not decrease along the list. -/
def DeadlineOrder (deadline : Item → Time) (items : List Item) : Prop :=
  items.Pairwise fun first second => deadline first ≤ deadline second

variable {deadline : Item → Time} {items : List Item}

theorem DeadlineOrder.sublist {rest : List Item} (horder : DeadlineOrder deadline items)
    (hrest : rest.Sublist items) : DeadlineOrder deadline rest :=
  List.Pairwise.sublist hrest horder

theorem DeadlineOrder.concat {last : Item} (horder : DeadlineOrder deadline items)
    (hlast : ∀ item ∈ items, deadline item ≤ deadline last) :
    DeadlineOrder deadline (items ++ [last]) := by
  apply List.pairwise_append.mpr ⟨horder, List.pairwise_singleton _ _, _⟩
  intro item hitem other hother
  rw [List.mem_singleton.mp hother]
  exact hlast item hitem

/-- The scan that stops at the first item that is not due takes every due item. -/
theorem DeadlineOrder.takeWhile_due (horder : DeadlineOrder deadline items) (now : Time) :
    items.takeWhile (deadline · < now) = items.filter (deadline · < now) := by
  induction items with
  | nil => rfl
  | cons item rest ih =>
      obtain ⟨hitem, hrest⟩ := List.pairwise_cons.mp horder
      by_cases hdue : deadline item < now
      · rw [List.takeWhile_cons_of_pos (by simpa using hdue),
          List.filter_cons_of_pos (by simpa using hdue), ih hrest]
      · have hnone : rest.filter (deadline · < now) = [] := by
          apply List.filter_eq_nil_iff.mpr
          intro other hother
          have hlater := hitem other hother
          simpa using le_trans (not_lt.mp hdue) hlater
        rw [List.takeWhile_cons_of_neg (by simpa using hdue),
          List.filter_cons_of_neg (by simpa using hdue), hnone]

/-- It leaves the items that are not due. -/
theorem DeadlineOrder.dropWhile_due (horder : DeadlineOrder deadline items) (now : Time) :
    items.dropWhile (deadline · < now) = items.filter (now ≤ deadline ·) := by
  induction items with
  | nil => rfl
  | cons item rest ih =>
      obtain ⟨hitem, hrest⟩ := List.pairwise_cons.mp horder
      by_cases hdue : deadline item < now
      · rw [List.dropWhile_cons_of_pos (by simpa using hdue),
          List.filter_cons_of_neg (by simpa using hdue), ih hrest]
      · have hall : (item :: rest).filter (now ≤ deadline ·) = item :: rest := by
          apply List.filter_eq_self.mpr
          intro other hother
          rcases List.mem_cons.mp hother with rfl | hother
          · simpa using hdue
          · simpa using le_trans (not_lt.mp hdue) (hitem other hother)
        rw [List.dropWhile_cons_of_neg (by simpa using hdue), hall]

end Wnet.Foundation
