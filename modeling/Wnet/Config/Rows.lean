import Wnet.Config.Load

/-!
# What a row says

`Load` looks at one row at a time. A row opens a section, sets a key, says nothing,
or stops the loading, and for a row that is a whole line this only depends on the
row without the blanks around it.
-/

namespace Wnet.Config

open Foundation

inductive RowKind
  | header (name : Bytes)
  | setting (key value : Bytes)
  | ignored
  | malformed
  | aborts
  deriving DecidableEq

namespace RowKind

def ofValue : Option (ReturnCode × Bytes × Bytes) → RowKind
  | none => .aborts
  | some (.success, key, value) => .setting key value
  | some (.error, _, _) => .malformed
  | some (.fail, _, _) => .ignored

/-- The kind of a row as `Load` reads it. -/
def ofRow (str : Bytes) : RowKind :=
  match getSectionName str with
  | (.success, _, name) => .header name
  | (.error, _, _) => .malformed
  | (.fail, str, _) => ofValue (parseValue str)

/-- The kind of a line without the blanks around it. -/
def ofLine (row : Bytes) : RowKind :=
  if row.head? = some openBracket then
    if row.getLast? = some closeBracket then
      .header (trim isBlank (substr row 1 (row.length - 2)))
    else .malformed
  else ofValue (parseValue row)

end RowKind

/-- `Load` goes by the kinds of the rows. -/
def loadKinds (state : LoadState) : List RowKind → Option (ReturnCode × ConfigMap)
  | [] => some (.success, state.configMap)
  | .header name :: rest => loadKinds (state.enterSection name) rest
  | .setting key value :: rest =>
      match state.pMap with
      | none => none
      | some name => loadKinds (state.insertSetting name key value) rest
  | .ignored :: rest => loadKinds state rest
  | .malformed :: _ => some (.fail, state.configMap)
  | .aborts :: _ => none

theorem loadRows_eq_loadKinds (state : LoadState) (rows : List Bytes) :
    loadRows state rows = loadKinds state (rows.map fun data => .ofRow (cString data)) := by
  induction rows generalizing state with
  | nil => rfl
  | cons data rest ih =>
      rw [loadRows, List.map_cons, RowKind.ofRow]
      rcases getSectionName (cString data) with ⟨code, str, name⟩
      cases code with
      | success => exact ih _
      | error => rfl
      | fail =>
          rcases hparse : parseValue str with _ | ⟨code', key, value⟩
          · simp only [hparse]
            rfl
          · cases code' with
            | success =>
                simp only [hparse, RowKind.ofValue, loadKinds]
                cases state.pMap with
                | none => rfl
                | some current => exact ih _
            | error =>
                simp only [hparse]
                rfl
            | fail =>
                simp only [hparse]
                exact ih _

/-! ## Positions of characters -/

theorem find_eq_none {str : Bytes} {char : UInt8} (hnot : char ∉ str) :
    find str char = none := by
  apply List.findIdx?_eq_none_iff.mpr
  intro other hother
  simp only [beq_eq_false_iff_ne, ne_eq]
  rintro rfl
  exact hnot hother

theorem find_append {left : Bytes} {char : UInt8} (right : Bytes) (hnot : char ∉ left) :
    find (left ++ char :: right) char = some left.length := by
  unfold find
  rw [List.findIdx?_append]
  have hnone := find_eq_none hnot
  unfold find at hnone
  rw [hnone]
  simp [List.findIdx?_cons]

/-- A text is cut at the first occurrence of a character. -/
theorem exists_cut {str : Bytes} {char : UInt8} (hmem : char ∈ str) :
    ∃ left right, str = left ++ char :: right ∧ char ∉ left :=
  List.eq_append_cons_of_mem hmem

theorem sizeSub_of_le {first second : Nat} (hle : second ≤ first) (hsize : first < 2 ^ 64) :
    sizeSub first second = first - second := by
  unfold sizeSub
  omega

theorem sizeSub_of_lt {first second : Nat} (hlt : first < second) (hsize : second < 2 ^ 64) :
    sizeSub first second = first + 2 ^ 64 - second := by
  unfold sizeSub
  omega

/-! ## Settings -/

/-- What `rStr` has to be like for `_ParseValue` to find a setting in it. -/
structure Assignable (str : Bytes) : Prop where
  notEmpty : str ≠ []
  notHash : str.head? ≠ some hash
  notSemicolon : str.head? ≠ some semicolon

theorem parseValue_trim (str : Bytes) : parseValue (trim isBlank str) = parseValue str := by
  unfold parseValue
  rw [trim_trim]
  by_cases hempty : str = []
  · subst hempty
    rfl
  · by_cases hblank : trim isBlank str = []
    · simp [hblank, hempty]
    · rw [if_neg hblank, if_neg hempty]

/-- Without `#` after the sign, all that follows the sign is the value. -/
theorem parseValue_of_cut {left right : Bytes} (hassignable : Assignable (left ++ equals :: right))
    (htrimmed : Trimmed isBlank (left ++ equals :: right)) (hleft : equals ∉ left)
    (hlength : (left ++ equals :: right).length < 4096) (hhash : hash ∈ left ∨ hash ∉ right) :
    parseValue (left ++ equals :: right) =
      some (.success, trim isBlank left, trim isBlank right) := by
  unfold parseValue
  simp only [htrimmed.trim_eq, hassignable.notEmpty, hassignable.notHash,
    hassignable.notSemicolon, or_self, if_false, find_append right hleft]
  have hkey : substr (left ++ equals :: right) 0 left.length = left := by simp [substr]
  have hvalue : ∀ count, right.length ≤ count →
      substr (left ++ equals :: right) (left.length + 1) count = right := by
    intro count hcount
    simp [substr, List.take_of_length_le hcount]
  rw [hkey]
  by_cases hin : hash ∈ left
  · obtain ⟨before, after, rfl, hbefore⟩ := exists_cut hin
    have hfind : find (before ++ hash :: after ++ equals :: right) hash = some before.length := by
      rw [List.append_assoc, List.cons_append]
      exact find_append _ hbefore
    simp only [List.length_append, List.length_cons] at hlength
    -- `pos1` is before `pos`, so the difference wraps and `substr` takes all that is left.
    have hwrap : sizeSub before.length (before ++ hash :: after).length =
        before.length + 2 ^ 64 - (before ++ hash :: after).length := by
      apply sizeSub_of_lt
      · simp
      · simp only [List.length_append, List.length_cons]
        omega
    have hcount : sizeSub (sizeSub before.length (before ++ hash :: after).length) 1 =
        before.length + 2 ^ 64 - (before ++ hash :: after).length - 1 := by
      rw [hwrap, sizeSub_of_le]
      all_goals
        simp only [List.length_append, List.length_cons]
        omega
    rw [hfind]
    simp only [hcount]
    rw [if_pos, hvalue]
    · simp only [List.length_append, List.length_cons]
      omega
    · rw [hwrap]
      simp only [List.length_append, List.length_cons]
      omega
  · have hnone : find (left ++ equals :: right) hash = none := by
      apply find_eq_none
      simp only [List.mem_append, List.mem_cons, not_or]
      exact ⟨hin, by decide, hhash.resolve_left hin⟩
    rw [hnone]
    simp only
    rw [hvalue]
    simp only [List.length_append, List.length_cons]
    omega

/-- A comment behind the value; an empty value in front of it trips the assertion. -/
theorem parseValue_of_comment {left middle comment : Bytes}
    (hassignable : Assignable (left ++ equals :: (middle ++ hash :: comment)))
    (htrimmed : Trimmed isBlank (left ++ equals :: (middle ++ hash :: comment)))
    (hleft : equals ∉ left) (hnotLeft : hash ∉ left) (hmiddle : hash ∉ middle)
    (hlength : (left ++ equals :: (middle ++ hash :: comment)).length < 4096) :
    parseValue (left ++ equals :: (middle ++ hash :: comment)) =
      if middle = [] then none else some (.success, trim isBlank left, trim isBlank middle) := by
  have hfind : find (left ++ equals :: (middle ++ hash :: comment)) hash =
      some (left.length + 1 + middle.length) := by
    have hnot : hash ∉ left ++ equals :: middle := by
      simp only [List.mem_append, List.mem_cons, not_or]
      exact ⟨hnotLeft, by decide, hmiddle⟩
    have hcut := find_append comment hnot
    simpa [Nat.add_assoc, Nat.add_comm 1] using hcut
  simp only [List.length_append, List.length_cons] at hlength
  have hdistance : sizeSub (left.length + 1 + middle.length) left.length =
      middle.length + 1 := by
    rw [sizeSub_of_le]
    all_goals omega
  have hcount : sizeSub (middle.length + 1) 1 = middle.length := by
    rw [sizeSub_of_le]
    all_goals omega
  simp only [parseValue, htrimmed.trim_eq, hassignable.notEmpty, hassignable.notHash,
    hassignable.notSemicolon, or_self, if_false, find_append _ hleft, hfind, hdistance, hcount]
  cases middle with
  | nil => simp
  | cons first middle => simp [substr]

/-- Where `_ParseValue` finds the key and the value. -/
structure Cut (str key value left right middle : Bytes) : Prop where
  assignable : Assignable str
  cut : str = left ++ equals :: right
  noEquals : equals ∉ left
  key : key = trim isBlank left
  value : value = trim isBlank middle
  within : middle <+: right
  hashes : hash ∈ middle → hash ∈ left

theorem exists_cut_of_parseValue {str key value : Bytes} (hlength : str.length < 4096)
    (hparse : parseValue str = some (.success, key, value)) :
    ∃ left right middle, Cut (trim isBlank str) key value left right middle := by
  rw [← parseValue_trim] at hparse
  have htrimmed : Trimmed isBlank (trim isBlank str) := trimmed_trim str
  have hshort : (trim isBlank str).length < 4096 :=
    Nat.lt_of_le_of_lt (trim_isInfix str).length_le hlength
  generalize trim isBlank str = row at *
  have hassignable : Assignable row := by
    constructor
    all_goals
      intro hrow
      simp [parseValue, htrimmed.trim_eq, hrow] at hparse
  have hequals : equals ∈ row := by
    by_contra hnot
    simp [parseValue, htrimmed.trim_eq, hassignable.notEmpty, hassignable.notHash,
      hassignable.notSemicolon, find_eq_none hnot] at hparse
  obtain ⟨left, right, rfl, hleft⟩ := exists_cut hequals
  by_cases hhash : hash ∈ left ∨ hash ∉ right
  · rw [parseValue_of_cut hassignable htrimmed hleft hshort hhash] at hparse
    simp only [Option.some.injEq, Prod.mk.injEq, true_and] at hparse
    refine ⟨left, right, right, hassignable, rfl, hleft, hparse.1.symm, hparse.2.symm,
      List.prefix_rfl, ?_⟩
    intro hmem
    exact hhash.resolve_right (not_not.mpr hmem)
  · obtain ⟨hnotLeft, hright⟩ := not_or.mp hhash
    obtain ⟨middle, comment, rfl, hmiddle⟩ := exists_cut (not_not.mp hright)
    rw [parseValue_of_comment hassignable htrimmed hleft hnotLeft hmiddle hshort] at hparse
    split_ifs at hparse with hnonempty
    simp only [Option.some.injEq, Prod.mk.injEq, true_and] at hparse
    exact ⟨left, middle ++ hash :: comment, middle, hassignable, rfl, hleft, hparse.1.symm,
      hparse.2.symm, List.prefix_append .., fun hmem => absurd hmem hmiddle⟩

/-! ## Lines -/

theorem trimLeft_line (row : Bytes) :
    trim isBlank row = [] ∧ trimLeft isBlank (row ++ [newline]) = [] ∨
    trim isBlank row ≠ [] ∧ ∃ after, trimLeft isBlank (row ++ [newline]) =
      trim isBlank row ++ after ∧ after ≠ [] ∧ ∀ char ∈ after, isBlank char := by
  obtain ⟨left, right, hrow, hleft, hright⟩ := exists_blanks_around isBlank row
  have htrimmed : Trimmed isBlank (trim isBlank row) := trimmed_trim row
  generalize trim isBlank row = text at *
  have hafter : ∀ char ∈ right ++ [newline], isBlank char := by
    intro char hchar
    rcases List.mem_append.mp hchar with hold | hlast
    · exact hright char hold
    · rw [List.mem_singleton.mp hlast]
      rfl
  rw [hrow, List.append_assoc, List.append_assoc, trimLeft_append hleft]
  by_cases hempty : text = []
  · refine Or.inl ⟨hempty, ?_⟩
    subst hempty
    have hall : trimLeft isBlank (right ++ [newline] ++ []) = trimLeft isBlank [] :=
      trimLeft_append hafter
    rwa [List.append_nil] at hall
  · refine Or.inr ⟨hempty, right ++ [newline], trimLeft_eq_self ?_, by simp, hafter⟩
    intro char hchar
    apply htrimmed.first
    rwa [List.head?_append_of_ne_nil _ hempty] at hchar

/-- A line is read without the blanks around it. -/
theorem ofRow_line (row : Bytes) :
    RowKind.ofRow (row ++ [newline]) = RowKind.ofLine (trim isBlank row) := by
  have htrimmed : Trimmed isBlank (trim isBlank row) := trimmed_trim row
  have htrim : trim isBlank (trimLeft isBlank (row ++ [newline])) = trim isBlank row := by
    rw [trim_trimLeft, trim_append]
    intro char hchar
    rw [List.mem_singleton.mp hchar]
    rfl
  unfold RowKind.ofRow getSectionName RowKind.ofLine
  rcases trimLeft_line row with ⟨hblank, hleft⟩ | ⟨hne, after, hleft, hafterNe, hafter⟩
  · simp [hblank, hleft]
  · rw [hleft] at htrim ⊢
    generalize trim isBlank row = text at *
    have hhead : (text ++ after).head? = text.head? := List.head?_append_of_ne_nil _ hne
    have hparse : parseValue (text ++ after) = parseValue text := by
      rw [← parseValue_trim, htrim]
    by_cases hbracket : text.head? = some openBracket
    · by_cases hshort : (text ++ after).length ≤ 2
      · -- only a bracket and one blank: the row is too short to be a header, and sets nothing
        obtain ⟨rest, rfl⟩ := List.head?_eq_some_iff.mp hbracket
        have hrest : rest = [] := by
          have := List.length_pos_iff.mpr hafterNe
          apply List.length_eq_zero_iff.mp
          simp only [List.length_append, List.length_cons] at hshort
          omega
        subst hrest
        simp only [hshort, true_or, or_true, if_true, hparse]
        decide
      · have hright : trimRight isBlank (text ++ after) = text := by
          rw [trimRight_append hafter, trimRight_eq_self htrimmed.last]
        have hheader : ¬ (text ++ after = [] ∨ (text ++ after).length ≤ 2 ∨
            (text ++ after).head? ≠ some openBracket) := by
          rw [hhead, hbracket]
          rintro (hnil | hfew | hother)
          · exact hne (List.append_eq_nil_iff.mp hnil).1
          · exact hshort hfew
          · exact hother rfl
        simp only [if_neg hheader, hright, hbracket, if_true, ne_eq, ite_not]
        by_cases hclose : text.getLast? = some closeBracket
        · simp only [hclose, if_true]
        · simp only [hclose, if_false]
    · simp [hhead, hbracket, hparse]

theorem ofRow_of_line {row : Bytes} (hrow : 0 ∉ row) :
    RowKind.ofRow (cString (row ++ [newline])) = RowKind.ofLine (trim isBlank row) := by
  rw [cString_eq_self, ofRow_line]
  rw [List.mem_append, List.mem_singleton]
  exact not_or.mpr ⟨hrow, by decide⟩

/-- `Load` goes by the lines of a text without the blanks around them. -/
theorem loadRows_joinLines (state : LoadState) {rows : List Bytes}
    (hrows : ∀ row ∈ rows, IsRow row ∧ 0 ∉ row) :
    loadRows state (readRows (joinLines rows)) =
      loadKinds state (rows.map fun row => .ofLine (trim isBlank row)) := by
  rw [readRows_joinLines fun row hrow => (hrows row hrow).1, loadRows_eq_loadKinds, List.map_map]
  congr 1
  apply List.map_congr_left
  intro row hrow
  exact ofRow_of_line (hrows row hrow).2

theorem enterSection_eq (state : LoadState) (name : Bytes) :
    state.enterSection name = ⟨state.configMap.insert name .empty, some name⟩ := by
  unfold LoadState.enterSection
  cases hfind : state.configMap.find? name with
  | none => rfl
  | some map => rw [SortedMap.insert_eq_self _ _ hfind]

end Wnet.Config
