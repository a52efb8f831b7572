import Mathlib.Order.Defs.LinearOrder
import Mathlib.Data.List.Sort

/-!
# Maps as sorted lists of entries

A finite map that is traversed in the order of its keys. The entries are kept
strictly sorted, so two maps that find the same are equal, and an entry whose key
is past all others goes to the end.
-/

namespace Wnet.Foundation

/-- A finite map, its entries in the order of the keys. -/
@[ext] structure SortedMap (Key Value : Type*) [LinearOrder Key] where
  entries : List (Key × Value)
  sorted : entries.Pairwise fun first second => first.1 < second.1

namespace SortedMap

variable {Key Value : Type*} [LinearOrder Key]

def empty : SortedMap Key Value := ⟨[], .nil⟩

/-- The entries with the value at a key computed from the one that is there. -/
def alterEntries (key : Key) (change : Option Value → Value) :
    List (Key × Value) → List (Key × Value)
  | [] => [(key, change none)]
  | (other, value) :: rest =>
      if key < other then (key, change none) :: (other, value) :: rest
      else if key = other then (key, change (some value)) :: rest
      else (other, value) :: alterEntries key change rest

def findEntry (key : Key) : List (Key × Value) → Option Value
  | [] => none
  | (other, value) :: rest => if key = other then some value else findEntry key rest

theorem mem_alterEntries {key : Key} {change : Option Value → Value}
    {entries : List (Key × Value)} {entry : Key × Value}
    (hmem : entry ∈ alterEntries key change entries) :
    entry ∈ entries ∨ entry.1 = key ∧
      (entry.2 = change none ∨
        ∃ value, (key, value) ∈ entries ∧ entry.2 = change (some value)) := by
  induction entries with
  | nil =>
      simp only [alterEntries, List.mem_singleton] at hmem
      subst hmem
      exact Or.inr ⟨rfl, Or.inl rfl⟩
  | cons head rest ih =>
      rw [alterEntries] at hmem
      split_ifs at hmem with hlt heq
      · rcases List.mem_cons.mp hmem with rfl | hrest
        · exact Or.inr ⟨rfl, Or.inl rfl⟩
        · exact Or.inl hrest
      · rcases List.mem_cons.mp hmem with rfl | hrest
        · refine Or.inr ⟨rfl, Or.inr ⟨head.2, ?_, rfl⟩⟩
          rw [heq]
          exact List.mem_cons_self
        · exact Or.inl (List.mem_cons_of_mem _ hrest)
      · rcases List.mem_cons.mp hmem with rfl | hrest
        · exact Or.inl List.mem_cons_self
        · rcases ih hrest with hold | ⟨hkey, hnew | ⟨value, hvalue, hchange⟩⟩
          · exact Or.inl (List.mem_cons_of_mem _ hold)
          · exact Or.inr ⟨hkey, Or.inl hnew⟩
          · exact Or.inr ⟨hkey, Or.inr ⟨value, List.mem_cons_of_mem _ hvalue, hchange⟩⟩

theorem sorted_alterEntries (key : Key) (change : Option Value → Value)
    {entries : List (Key × Value)}
    (hsorted : entries.Pairwise fun first second => first.1 < second.1) :
    (alterEntries key change entries).Pairwise fun first second => first.1 < second.1 := by
  induction entries with
  | nil => exact List.pairwise_singleton ..
  | cons head rest ih =>
      obtain ⟨hhead, hrest⟩ := List.pairwise_cons.mp hsorted
      rw [alterEntries]
      split_ifs with hlt heq
      · refine List.pairwise_cons.mpr ⟨fun other hother => ?_, hsorted⟩
        rcases List.mem_cons.mp hother with rfl | hafter
        · exact hlt
        · exact lt_trans hlt (hhead other hafter)
      · refine List.pairwise_cons.mpr ⟨fun other hother => ?_, hrest⟩
        rw [heq]
        exact hhead other hother
      · refine List.pairwise_cons.mpr ⟨fun other hother => ?_, ih hrest⟩
        rcases mem_alterEntries hother with hafter | ⟨hkey, -⟩
        · exact hhead other hafter
        · rw [hkey]
          exact lt_of_le_of_ne (not_lt.mp hlt) (Ne.symm heq)

/-- The map with the value at a key computed from the one that is there. -/
def alter (map : SortedMap Key Value) (key : Key) (change : Option Value → Value) :
    SortedMap Key Value :=
  ⟨alterEntries key change map.entries, sorted_alterEntries key change map.sorted⟩

def find? (map : SortedMap Key Value) (key : Key) : Option Value := findEntry key map.entries

/-- Nothing happens to an entry that is there. -/
def insert (map : SortedMap Key Value) (key : Key) (value : Value) : SortedMap Key Value :=
  map.alter key fun old => old.getD value

@[simp] theorem find?_empty (key : Key) : (empty : SortedMap Key Value).find? key = none := rfl

theorem findEntry_eq_none_of_lt {key : Key} {entries : List (Key × Value)}
    (hlt : ∀ entry ∈ entries, key < entry.1) : findEntry key entries = none := by
  induction entries with
  | nil => rfl
  | cons head rest ih =>
      rw [findEntry, if_neg (ne_of_lt (hlt head List.mem_cons_self))]
      exact ih fun entry hentry => hlt entry (List.mem_cons_of_mem _ hentry)

theorem findEntry_alterEntries_self (key : Key) (change : Option Value → Value)
    {entries : List (Key × Value)}
    (hsorted : entries.Pairwise fun first second => first.1 < second.1) :
    findEntry key (alterEntries key change entries) = some (change (findEntry key entries)) := by
  induction entries with
  | nil => simp [alterEntries, findEntry]
  | cons head rest ih =>
      obtain ⟨hhead, hrest⟩ := List.pairwise_cons.mp hsorted
      rw [alterEntries]
      split_ifs with hlt heq
      · have hnone : findEntry key (head :: rest) = none := by
          apply findEntry_eq_none_of_lt
          intro entry hentry
          rcases List.mem_cons.mp hentry with rfl | hafter
          · exact hlt
          · exact lt_trans hlt (hhead entry hafter)
        rw [hnone]
        simp [findEntry]
      · simp [findEntry, heq]
      · rw [findEntry, if_neg heq, findEntry, if_neg heq]
        exact ih hrest

theorem findEntry_alterEntries_of_ne {key other : Key} (change : Option Value → Value)
    (hne : other ≠ key) (entries : List (Key × Value)) :
    findEntry other (alterEntries key change entries) = findEntry other entries := by
  induction entries with
  | nil => simp [alterEntries, findEntry, hne]
  | cons head rest ih =>
      rw [alterEntries]
      split_ifs with hlt heq
      · rw [findEntry, if_neg hne]
      · rw [findEntry, if_neg hne, findEntry, if_neg (heq ▸ hne)]
      · rw [findEntry, findEntry, ih]

@[simp] theorem find?_alter_self (map : SortedMap Key Value) (key : Key)
    (change : Option Value → Value) :
    (map.alter key change).find? key = some (change (map.find? key)) :=
  findEntry_alterEntries_self key change map.sorted

theorem find?_alter_of_ne (map : SortedMap Key Value) {key other : Key}
    (change : Option Value → Value) (hne : other ≠ key) :
    (map.alter key change).find? other = map.find? other :=
  findEntry_alterEntries_of_ne change hne map.entries

theorem alterEntries_of_gt {key : Key} {entries : List (Key × Value)}
    (change : Option Value → Value) (hgt : ∀ entry ∈ entries, entry.1 < key) :
    alterEntries key change entries = entries ++ [(key, change none)] := by
  induction entries with
  | nil => rfl
  | cons head rest ih =>
      have hhead : head.1 < key := hgt head List.mem_cons_self
      rw [alterEntries, if_neg (not_lt_of_gt hhead), if_neg (ne_of_gt hhead)]
      rw [ih fun entry hentry => hgt entry (List.mem_cons_of_mem _ hentry), List.cons_append]

theorem entries_alter_of_gt (map : SortedMap Key Value) {key : Key}
    (change : Option Value → Value) (hgt : ∀ entry ∈ map.entries, entry.1 < key) :
    (map.alter key change).entries = map.entries ++ [(key, change none)] :=
  alterEntries_of_gt change hgt

theorem alterEntries_alterEntries (key : Key) (first second : Option Value → Value)
    (entries : List (Key × Value)) :
    alterEntries key second (alterEntries key first entries) =
      alterEntries key (fun old => second (some (first old))) entries := by
  induction entries with
  | nil => simp [alterEntries]
  | cons head rest ih =>
      by_cases hlt : key < head.1
      · simp [alterEntries, hlt]
      · by_cases heq : key = head.1
        · simp only [alterEntries, heq, lt_irrefl, if_true, if_false]
        · simp [alterEntries, hlt, heq, ih]

/-- Two changes at one key are one change. -/
theorem alter_alter (map : SortedMap Key Value) (key : Key) (first second : Option Value → Value) :
    (map.alter key first).alter key second =
      map.alter key fun old => second (some (first old)) :=
  SortedMap.ext (alterEntries_alterEntries key first second map.entries)

theorem alterEntries_eq_self {key : Key} {change : Option Value → Value} {value : Value}
    {entries : List (Key × Value)} (hfind : findEntry key entries = some value)
    (hsame : change (some value) = value)
    (hsorted : entries.Pairwise fun first second => first.1 < second.1) :
    alterEntries key change entries = entries := by
  induction entries with
  | nil => simp [findEntry] at hfind
  | cons head rest ih =>
      obtain ⟨hhead, hrest⟩ := List.pairwise_cons.mp hsorted
      rw [findEntry] at hfind
      rw [alterEntries]
      by_cases heq : key = head.1
      · rw [if_pos heq] at hfind
        obtain rfl := Option.some.inj hfind
        rw [if_neg (heq ▸ lt_irrefl _), if_pos heq, hsame, heq]
      · rw [if_neg heq] at hfind
        have hlt : ¬ key < head.1 := by
          intro hlt
          have hnone := findEntry_eq_none_of_lt fun entry hentry =>
            lt_trans hlt (hhead entry hentry)
          simp [hnone] at hfind
        rw [if_neg hlt, if_neg heq, ih hfind hrest]

theorem insert_eq_self (map : SortedMap Key Value) {key : Key} {old : Value} (value : Value)
    (hfind : map.find? key = some old) : map.insert key value = map :=
  SortedMap.ext (alterEntries_eq_self hfind rfl map.sorted)

theorem findEntry_eq_some_iff {key : Key} {value : Value} {entries : List (Key × Value)}
    (hsorted : entries.Pairwise fun first second => first.1 < second.1) :
    findEntry key entries = some value ↔ (key, value) ∈ entries := by
  induction entries with
  | nil => simp [findEntry]
  | cons head rest ih =>
      obtain ⟨hhead, hrest⟩ := List.pairwise_cons.mp hsorted
      rw [findEntry, List.mem_cons]
      by_cases heq : key = head.1
      · have hnot : (key, value) ∉ rest := fun hmem =>
          absurd (hhead (key, value) hmem) (heq ▸ lt_irrefl _)
        rw [if_pos heq, or_iff_left hnot, Option.some.injEq, Prod.ext_iff]
        exact ⟨fun hvalue => ⟨heq, hvalue.symm⟩, fun hpair => hpair.2.symm⟩
      · rw [if_neg heq, ih hrest, or_iff_right]
        intro hpair
        exact heq (Prod.ext_iff.mp hpair).1

/-- Two maps that find the same are equal. -/
theorem ext_find? {first second : SortedMap Key Value}
    (hfind : ∀ key, first.find? key = second.find? key) : first = second := by
  have hirrefl : Std.Irrefl fun first second : Key × Value => first.1 < second.1 :=
    ⟨fun entry => lt_irrefl entry.1⟩
  have hasymm : Std.Antisymm fun first second : Key × Value => first.1 < second.1 :=
    ⟨fun _ _ hlt hgt => absurd hlt (lt_asymm hgt)⟩
  apply SortedMap.ext
  apply first.sorted.eq_of_mem_iff second.sorted
  rintro ⟨key, value⟩
  rw [← findEntry_eq_some_iff first.sorted, ← findEntry_eq_some_iff second.sorted]
  exact iff_of_eq (congrArg (· = some value) (hfind key))

/-- Entries that come in order build the map up from its beginning. -/
theorem foldl_insert {map whole : SortedMap Key Value} {rest : List (Key × Value)}
    (hwhole : whole.entries = map.entries ++ rest) :
    rest.foldl (fun map entry => map.insert entry.1 entry.2) map = whole := by
  induction rest generalizing map with
  | nil =>
      apply SortedMap.ext
      rw [hwhole, List.append_nil, List.foldl_nil]
  | cons entry rest ih =>
      rw [List.foldl_cons]
      apply ih
      have hgt : ∀ other ∈ map.entries, other.1 < entry.1 := by
        intro other hother
        have hsorted := whole.sorted
        rw [hwhole] at hsorted
        exact (List.pairwise_append.mp hsorted).2.2 other hother entry List.mem_cons_self
      rw [hwhole, insert, entries_alter_of_gt _ _ hgt, List.append_assoc]
      rfl

end SortedMap

end Wnet.Foundation
