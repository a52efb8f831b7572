import Wnet.Config.PrintedForm
import Wnet.Config.Settings
import Wnet.Config.Writing

/-!
# What a written setting does to the file

The rows that `WriteProfileString` leaves are the rows it found, but for a header in
the place of the first row that mentions it and a setting in the place of a row that
sets the key. When the written setting is the one that counts, and when no other
setting is touched, depends on which rows mention the header and the key.
-/

namespace Wnet.Config

open Foundation

/-- What an argument of `WriteProfileString` is after it was trimmed. -/
structure IsArgument (text : Bytes) : Prop where
  trimmed : Trimmed isBlank text
  notEmpty : text ≠ []
  plain : ∀ char ∈ text,
    char ∉ [newline, openBracket, closeBracket, equals, hash, semicolon]
  short : text.length ≤ 90

variable {name key value row : Bytes} {rows : List Bytes}

/-- The kinds of rows without blanks around them. -/
def kindsOf (rows : List Bytes) : List RowKind := rows.map RowKind.ofLine

@[simp] theorem kindsOf_cons (row : Bytes) (rows : List Bytes) :
    kindsOf (row :: rows) = RowKind.ofLine row :: kindsOf rows := rfl

@[simp] theorem kindsOf_append (first second : List Bytes) :
    kindsOf (first ++ second) = kindsOf first ++ kindsOf second := List.map_append

theorem IsArgument.head?_ne (hkey : IsArgument key) {char : UInt8}
    (hchar : char ∈ [newline, openBracket, closeBracket, equals, hash, semicolon]) :
    key.head? ≠ some char :=
  fun hhead => hkey.plain char (List.mem_of_head? hhead) hchar

theorem IsArgument.isSetting (hkey : IsArgument key) (hkeyNul : 0 ∉ key)
    (hvalue : Trimmed isBlank value) (hplain : newline ∉ value ∧ hash ∉ value)
    (hvalueNul : 0 ∉ value) : IsSetting key value where
  keyTrimmed := hkey.trimmed
  valueTrimmed := hvalue
  noEquals hmem := hkey.plain _ hmem (by decide)
  notBracket := hkey.head?_ne (by decide)
  notHash := hkey.head?_ne (by decide)
  notSemicolon := hkey.head?_ne (by decide)
  hashes hmem := absurd hmem hplain.2
  noNewline hmem := by
    rcases List.mem_append.mp hmem with hin | hin
    · exact hkey.plain _ hin (by decide)
    · exact hplain.1 hin
  noNul hmem := by
    rcases List.mem_append.mp hmem with hin | hin
    · exact hkeyNul hin
    · exact hvalueNul hin

/-! ## Rows that mention a text -/

theorem not_mentions_of_before {text : Bytes} (hrow : row ∈ before text rows) :
    ¬ Mentions text row := by
  simpa using List.mem_takeWhile_imp hrow

/-- A row that sets a key mentions it. -/
theorem mentions_of_setting (hlength : row.length < 4096)
    (hkind : RowKind.ofLine row = .setting key value) : Mentions key row := by
  obtain ⟨-, hparse⟩ := parseValue_of_setting hkind
  obtain ⟨left, right, middle, hcut⟩ := exists_cut_of_parseValue hlength hparse
  have hkey : key <:+: left := hcut.key ▸ trim_isInfix left
  have hleft : left <:+: trim isBlank row := ⟨[], equals :: right, hcut.cut.symm⟩
  exact (hkey.trans hleft).trans (trim_isInfix row)

/-- Rows that do not mention a key do not set it. -/
theorem settingIn_before (hrows : ∀ row ∈ rows, row.length < 4096) (current : Option Bytes) :
    settingIn name key current (kindsOf (before key rows)) = none := by
  apply settingIn_eq_none
  intro value hmem
  obtain ⟨row, hrow, hkind⟩ := List.mem_map.mp hmem
  have hlength := hrows row (List.takeWhile_subset _ hrow)
  exact not_mentions_of_before hrow (mentions_of_setting hlength hkind)

/-- The row gives the key a value. -/
def Sets (key row : Bytes) : Prop :=
  match RowKind.ofLine row with
  | .setting other _ => other = key
  | _ => False

instance (key row : Bytes) : Decidable (Sets key row) := by
  unfold Sets
  exact match RowKind.ofLine row with
    | .setting other _ => inferInstanceAs (Decidable (other = key))
    | .header _ | .ignored | .malformed | .aborts => inferInstanceAs (Decidable False)

theorem sets_iff : Sets key row ↔ ∃ old, RowKind.ofLine row = .setting key old := by
  unfold Sets
  cases RowKind.ofLine row with
  | setting other old =>
      constructor
      · rintro rfl
        exact ⟨old, rfl⟩
      · rintro ⟨old', heq⟩
        exact (RowKind.setting.inj heq).1
  | _ => exact ⟨False.elim, fun ⟨_, heq⟩ => nomatch heq⟩

theorem success_of_parseValue {code : ReturnCode}
    (hparse : parseValue row = some (code, key, value)) (hkey : key ≠ []) : code = .success := by
  unfold parseValue at hparse
  simp only at hparse
  split_ifs at hparse
  · simp_all
  · simp_all
  · cases hequals : find (trim isBlank row) equals with
    | none => simp_all
    | some pos =>
        cases hhash : find (trim isBlank row) hash with
        | none => simp_all
        | some pos1 =>
            simp only [hequals, hhash] at hparse
            split_ifs at hparse
            simp_all

/-- `WriteProfileString` parses a row without asking first whether it is a header, but a
header does not look like the key. -/
theorem parsedKey_iff (hkey : IsArgument key) (htrimmed : Trimmed isBlank row)
    (hlength : row.length < 4096) {outcome : ReturnCode × Bytes × Bytes}
    (hparse : parseValue row = some outcome) : outcome.2.1 = key ↔ Sets key row := by
  rw [sets_iff]
  constructor
  · intro hsame
    obtain ⟨code, other, old⟩ := outcome
    have hother : other = key := hsame
    subst hother
    have hsuccess := success_of_parseValue hparse hkey.notEmpty
    subst hsuccess
    obtain ⟨left, right, middle, hcut⟩ := exists_cut_of_parseValue hlength hparse
    rw [htrimmed.trim_eq] at hcut
    obtain ⟨first, rest, rfl⟩ := List.exists_cons_of_ne_nil hkey.notEmpty
    have hhead : row.head? = some first := hcut.head?_key htrimmed rfl
    have hbracket : row.head? ≠ some openBracket := by
      rw [hhead]
      exact hkey.head?_ne (by decide)
    exact ⟨old, by rw [RowKind.ofLine, if_neg hbracket, hparse, RowKind.ofValue]⟩
  · rintro ⟨old, hkind⟩
    rw [(parseValue_of_setting hkind).2] at hparse
    obtain rfl := Option.some.inj hparse
    rfl

/-! ## The kinds of the rows that are written -/

/-- The kind of a row that is written as a line. -/
def lineKind (row : Bytes) : RowKind := .ofRow (cString (row ++ [newline]))

theorem lineKind_eq_ofLine (htrimmed : Trimmed isBlank row) (hnul : 0 ∉ row) :
    lineKind row = .ofLine row := by
  rw [lineKind, ofRow_of_line hnul, htrimmed.trim_eq]

theorem exists_cString_line (value : Bytes) :
    ∃ after, cString (value ++ [newline]) = cString value ++ after ∧
      ∀ char ∈ after, isBlank char := by
  by_cases hnul : 0 ∈ value
  · obtain ⟨first, second, rfl, hfirst⟩ := exists_cut hnul
    refine ⟨[], ?_, by simp⟩
    rw [List.append_assoc, List.cons_append, cString_append hfirst, cString_append hfirst]
    simp [cString]
  · refine ⟨[newline], ?_, by decide⟩
    rw [cString_append hnul, cString_eq_self hnul]
    rfl

/-- A text that does not begin with a blank, and the blanks after it. -/
theorem exists_blanks_after {text : Bytes} (hfirst : ∀ char ∈ text.head?, ¬ isBlank char) :
    ∃ after, text = trim isBlank text ++ after ∧ ∀ char ∈ after, isBlank char := by
  obtain ⟨left, right, htext, hleft, hright⟩ := exists_blanks_around isBlank text
  cases left with
  | nil => exact ⟨right, htext, hright⟩
  | cons char others =>
      have hhead : text.head? = some char := by
        rw [htext]
        rfl
      exact absurd (hleft char List.mem_cons_self) (hfirst char hhead)

theorem exists_assignment_blanks (hkey : key ≠ []) {written : Bytes}
    (hfirst : ∀ char ∈ written.head?, ¬ isBlank char) :
    ∃ after, assignment key written =
        beforeSign key ++ equals :: afterSign (trim isBlank written) ++ after ∧
      ∀ char ∈ after, isBlank char := by
  obtain ⟨after, hwritten, hafter⟩ := exists_blanks_after hfirst
  by_cases hempty : trim isBlank written = []
  · refine ⟨space :: after, ?_, ?_⟩
    · conv_lhs => rw [hwritten]
      simp [assignment, beforeSign, afterSign, hempty, hkey, ascii]
    · intro char hchar
      rcases List.mem_cons.mp hchar with rfl | hrest
      · decide
      · exact hafter char hrest
  · refine ⟨after, ?_, hafter⟩
    conv_lhs => rw [hwritten]
    simp [assignment, beforeSign, afterSign, hempty, hkey, ascii]

theorem head?_cString (hfirst : ∀ char ∈ value.head?, ¬ isBlank char) :
    ∀ char ∈ (cString value).head?, ¬ isBlank char := by
  intro char hchar
  apply hfirst
  unfold cString at hchar
  cases value with
  | nil => simp at hchar
  | cons first rest =>
      rw [List.takeWhile_cons] at hchar
      split_ifs at hchar
      · exact hchar
      · simp at hchar

/-- The setting is read back up to the first null byte of the value. -/
theorem lineKind_assignment (hkey : IsArgument key) (hkeyNul : 0 ∉ key)
    (hvalue : ∀ char ∈ value.head?, ¬ isBlank char) (hplain : newline ∉ value ∧ hash ∉ value)
    (hlength : value.length ≤ 90) :
    lineKind (assignment key value) = .setting key (trim isBlank (cString value)) := by
  have hfirst := head?_cString hvalue
  have hmem : ∀ char ∈ trim isBlank (cString value), char ∈ value := fun char hchar =>
    List.takeWhile_subset _ (mem_of_mem_trim hchar)
  have hsetting : IsSetting key (trim isBlank (cString value)) :=
    hkey.isSetting hkeyNul (trimmed_trim _)
      ⟨fun h => hplain.1 (hmem _ h), fun h => hplain.2 (hmem _ h)⟩
      (fun h => zero_not_mem_cString value (mem_of_mem_trim h))
  obtain ⟨afterLine, hline, hafterLine⟩ := exists_cString_line value
  obtain ⟨after, hassign, hafter⟩ := exists_assignment_blanks hkey.notEmpty hfirst
  -- As a C string the row ends at the first null byte, which cuts the value and what follows.
  have hstr : cString (assignment key value ++ [newline]) =
      beforeSign key ++ equals :: afterSign (trim isBlank (cString value)) ++
        (after ++ afterLine) := by
    have hsign : 0 ∉ key ++ ascii " = " := by
      rw [List.mem_append]
      exact not_or.mpr ⟨hkeyNul, by decide⟩
    calc cString (assignment key value ++ [newline])
      _ = cString ((key ++ ascii " = ") ++ (value ++ [newline])) := by simp [assignment]
      _ = assignment key (cString value) ++ afterLine := by
          rw [cString_append hsign, hline]
          simp [assignment]
      _ = _ := by rw [hassign, List.append_assoc]
  have htrimmed := trimmed_assignment hsetting.keyTrimmed hsetting.valueTrimmed
  have hblanks : ∀ char ∈ after ++ afterLine, isBlank char := by
    intro char hchar
    exact (List.mem_append.mp hchar).elim (hafter char) (hafterLine char)
  have hshort : (beforeSign key ++ equals :: afterSign (trim isBlank (cString value))).length <
      4096 := by
    have hkeyLength := hkey.short
    have hvalueLength : (trim isBlank (cString value)).length ≤ value.length :=
      Nat.le_trans (trim_isInfix _).length_le (List.takeWhile_sublist _).length_le
    unfold beforeSign afterSign
    split_ifs
    all_goals
      simp only [List.length_append, List.length_cons, List.length_nil]
      omega
  have hkind := ofLine_assignment hsetting hshort
  generalize hrow : beforeSign key ++ equals :: afterSign (trim isBlank (cString value)) = row at *
  have hne : row ≠ [] := by
    rw [← hrow]
    simp
  have hhead : (row ++ (after ++ afterLine)).head? = row.head? :=
    List.head?_append_of_ne_nil _ hne
  obtain ⟨hbracket, hparse⟩ := parseValue_of_setting hkind
  have hleft : trimLeft isBlank (row ++ (after ++ afterLine)) = row ++ (after ++ afterLine) := by
    apply trimLeft_eq_self
    rw [hhead]
    exact htrimmed.first
  rw [lineKind, hstr, RowKind.ofRow, getSectionName, hleft]
  simp only [hhead, ne_eq, hbracket, not_false_eq_true, or_true, if_true]
  rw [← parseValue_trim, trim_append hblanks, htrimmed.trim_eq, hparse, RowKind.ofValue]

/-- What has become of the rows after the header. -/
inductive KeyWritten (key value : Bytes) (after : List Bytes) : List RowKind → Prop
  | inserted (hnone : onwards key after = []) :
      KeyWritten key value after (.setting key value :: kindsOf after)
  | replaced {found old : Bytes} {rest : List Bytes} (hfound : onwards key after = found :: rest)
      (hsets : RowKind.ofLine found = .setting key old) :
      KeyWritten key value after (kindsOf (before key after) ++ .setting key value :: kindsOf rest)
  | kept {found : Bytes} {rest : List Bytes} (hfound : onwards key after = found :: rest)
      (hnot : ¬ Sets key found) : KeyWritten key value after (kindsOf after)

/-- What has become of the rows of a file. -/
inductive Written (name key value : Bytes) (rows : List Bytes) : List RowKind → Prop
  | appended (hnone : onwards (CConfig.headerLine name) rows = []) :
      Written name key value rows (kindsOf rows ++ [.header name, .setting key value])
  | within {found : Bytes} {after : List Bytes} {kinds : List RowKind}
      (hfound : onwards (CConfig.headerLine name) rows = found :: after)
      (hkey : KeyWritten key value after kinds) :
      Written name key value rows
        (kindsOf (before (CConfig.headerLine name) rows) ++ .header name :: kinds)

/-- Rows as `WriteProfileString` sees those of a text. -/
def Clean (rows : List Bytes) : Prop :=
  ∀ row ∈ rows, Trimmed isBlank row ∧ 0 ∉ row ∧ IsRow row

theorem Clean.length_lt (hrows : Clean rows) (hrow : row ∈ rows) : row.length < 4096 :=
  Nat.lt_succ_of_lt (hrows row hrow).2.2.2

theorem Clean.sublist {rows' : List Bytes} (hrows : Clean rows) (hsub : rows' ⊆ rows) :
    Clean rows' :=
  fun row hrow => hrows row (hsub hrow)

theorem Clean.lineKinds (hrows : Clean rows) : rows.map lineKind = kindsOf rows := by
  apply List.map_congr_left
  intro row hrow
  exact lineKind_eq_ofLine (hrows row hrow).1 (hrows row hrow).2.1

theorem onwards_subset {text : Bytes} {rest : List Bytes}
    (honwards : onwards text rows = row :: rest) : row :: rest ⊆ rows :=
  honwards ▸ List.dropWhile_subset _

theorem before_subset (text : Bytes) (rows : List Bytes) : before text rows ⊆ rows :=
  List.takeWhile_subset _

theorem keyWritten_of_replaceKey {after after' : List Bytes} {written : Bytes}
    (hkey : IsArgument key) (hafter : Clean after)
    (hassign : lineKind (assignment key value) = .setting key written)
    (hsome : onwards key after ≠ []) (hreplace : replaceKey key value after = some after') :
    KeyWritten key written after (after'.map lineKind) := by
  obtain ⟨found, rest, hfound⟩ := List.exists_cons_of_ne_nil hsome
  have hsub := onwards_subset hfound
  have hrest : Clean rest := hafter.sublist fun row hrow => hsub (List.mem_cons_of_mem _ hrow)
  have hbefore : Clean (before key after) := hafter.sublist (before_subset key after)
  have hmem : found ∈ after := hsub List.mem_cons_self
  simp only [replaceKey, hfound, Option.map_eq_some_iff] at hreplace
  obtain ⟨outcome, hparse, rfl⟩ := hreplace
  have hsets := parsedKey_iff hkey (hafter found hmem).1 (hafter.length_lt hmem) hparse
  rw [List.map_append, List.map_cons, hbefore.lineKinds, hrest.lineKinds]
  by_cases hsame : outcome.2.1 = key
  · obtain ⟨old, hold⟩ := sets_iff.mp (hsets.mp hsame)
    rw [if_pos hsame, hassign]
    exact .replaced hfound hold
  · rw [if_neg hsame, lineKind_eq_ofLine (hafter found hmem).1 (hafter found hmem).2.1,
      ← kindsOf_cons, ← kindsOf_append, ← hfound, before_append_onwards]
    exact .kept hfound (mt hsets.mpr hsame)

theorem written_of_rewriteRows {rows' : List Bytes} {written : Bytes} (hname : IsArgument name)
    (hnul : 0 ∉ name) (hkey : IsArgument key) (hrows : Clean rows)
    (hassign : lineKind (assignment key value) = .setting key written)
    (happend : lineKind (assignment (cString key) (cString value)) = .setting key written)
    (hrewrite : rewriteRows (CConfig.headerLine name) key value rows = some rows') :
    Written name key written rows (rows'.map lineKind) := by
  have hheader : lineKind (CConfig.headerLine name) = .header name := by
    rw [lineKind_eq_ofLine (trimmed_headerLine name), ofLine_headerLine hname.trimmed]
    simp [CConfig.headerLine, ascii, hnul]
  unfold rewriteRows at hrewrite
  cases hfound : onwards (CConfig.headerLine name) rows with
  | nil =>
      simp only [hfound, Option.some.injEq] at hrewrite
      subst hrewrite
      rw [List.map_append, hrows.lineKinds, List.map_cons, List.map_singleton, hheader, happend]
      exact .appended hfound
  | cons found after =>
      have hsub := onwards_subset hfound
      have hafter : Clean after := hrows.sublist fun row hrow => hsub (List.mem_cons_of_mem _ hrow)
      have hbefore : Clean (before (CConfig.headerLine name) rows) :=
        hrows.sublist (before_subset _ rows)
      simp only [hfound] at hrewrite
      split_ifs at hrewrite with hnone
      · obtain rfl := Option.some.inj hrewrite
        rw [List.map_append, List.map_cons, List.map_cons, hbefore.lineKinds, hheader, hassign,
          hafter.lineKinds]
        exact .within hfound (.inserted hnone)
      · obtain ⟨after', hreplace, rfl⟩ := Option.map_eq_some_iff.mp hrewrite
        rw [List.map_append, List.map_cons, hbefore.lineKinds, hheader]
        exact .within hfound (keyWritten_of_replaceKey hkey hafter hassign hnone hreplace)

/-! ## Loading the rows that were written -/

theorem kindsOf_split {text found : Bytes} {after : List Bytes}
    (hfound : onwards text rows = found :: after) :
    kindsOf rows = kindsOf (before text rows) ++ RowKind.ofLine found :: kindsOf after := by
  rw [← kindsOf_cons, ← kindsOf_append, ← hfound, before_append_onwards]

theorem Accepted.tail {current : Option Bytes} {kind : RowKind} {kinds : List RowKind}
    (haccepted : Accepted current (kind :: kinds)) : ∃ current', Accepted current' kinds := by
  cases kind with
  | header name => exact ⟨some name, haccepted⟩
  | setting key value => exact ⟨current, haccepted.2⟩
  | ignored => exact ⟨current, haccepted⟩
  | malformed => exact haccepted.elim
  | aborts => exact haccepted.elim

theorem accepted_keyWritten {after : List Bytes} {kinds : List RowKind}
    (haccepted : Accepted (some name) (kindsOf after)) (hkey : KeyWritten key value after kinds) :
    Accepted (some name) kinds := by
  cases hkey with
  | inserted => exact ⟨by simp, haccepted⟩
  | replaced hfound =>
      rw [kindsOf_split hfound, accepted_append] at haccepted
      obtain ⟨opened, hopened⟩ := sectionAfter_some name (kindsOf (before key after))
      obtain ⟨current, hrest⟩ := haccepted.2.tail
      rw [accepted_append, hopened]
      exact ⟨haccepted.1, by simp, hrest.opened opened⟩
  | kept => exact haccepted

theorem accepted_written {kinds : List RowKind} (haccepted : Accepted none (kindsOf rows))
    (hwritten : Written name key value rows kinds) : Accepted none kinds := by
  cases hwritten with
  | appended =>
      rw [accepted_append]
      exact ⟨haccepted, by simp, trivial⟩
  | within hfound hkey =>
      rw [kindsOf_split hfound, accepted_append] at haccepted
      obtain ⟨current, hafter⟩ := haccepted.2.tail
      rw [accepted_append]
      exact ⟨haccepted.1, accepted_keyWritten (hafter.opened name) hkey⟩

/-- The first row that mentions the key, if there is one, sets it, and is in the section. -/
def KeyInPlace (name key : Bytes) (after : List Bytes) : Prop :=
  match onwards key after with
  | [] => True
  | row :: _ => Sets key row ∧ sectionAfter (some name) (kindsOf (before key after)) = some name

instance (name key : Bytes) (after : List Bytes) : Decidable (KeyInPlace name key after) :=
  match hfound : onwards key after with
  | [] => .isTrue (by simp [KeyInPlace, hfound])
  | row :: _ =>
      decidable_of_iff
        (Sets key row ∧ sectionAfter (some name) (kindsOf (before key after)) = some name)
        (by simp [KeyInPlace, hfound])

/-- When the setting that is written is the one that counts: no row before the new one
sets the key of the section to something else, and the new one either is there or changes
nothing. -/
def WritesThrough (name key value : Bytes) (rows : List Bytes) : Prop :=
  match onwards (CConfig.headerLine name) rows with
  | [] => ∀ old ∈ settingIn name key none (kindsOf rows), old = value
  | _ :: after =>
      match settingIn name key none (kindsOf (before (CConfig.headerLine name) rows)) with
      | some old => old = value
      | none => KeyInPlace name key after ∨
          settingIn name key (some name) (kindsOf after) = some value

instance (name key value : Bytes) (rows : List Bytes) :
    Decidable (WritesThrough name key value rows) :=
  match hfound : onwards (CConfig.headerLine name) rows with
  | [] =>
      decidable_of_iff (∀ old ∈ settingIn name key none (kindsOf rows), old = value)
        (by simp [WritesThrough, hfound])
  | _ :: after =>
      match hbefore : settingIn name key none
          (kindsOf (before (CConfig.headerLine name) rows)) with
      | some old => decidable_of_iff (old = value) (by simp [WritesThrough, hfound, hbefore])
      | none =>
          decidable_of_iff (KeyInPlace name key after ∨
            settingIn name key (some name) (kindsOf after) = some value)
            (by simp [WritesThrough, hfound, hbefore])

theorem settingIn_keyWritten {after : List Bytes} {kinds : List RowKind} (hafter : Clean after)
    (hkey : KeyWritten key value after kinds) :
    settingIn name key (some name) kinds = some value ↔
      KeyInPlace name key after ∨ settingIn name key (some name) (kindsOf after) = some value := by
  have hnone : settingIn name key (some name) (kindsOf (before key after)) = none :=
    settingIn_before (fun row hrow => hafter.length_lt hrow) (some name)
  unfold KeyInPlace
  cases hkey with
  | inserted hfound => simp [hfound, settingIn]
  | @replaced found old rest hfound hsets =>
      have hsame : Sets key found := sets_iff.mpr ⟨old, hsets⟩
      simp only [hfound, hsame, true_and]
      rw [kindsOf_split hfound, settingIn_append, settingIn_append, hnone, Option.none_or,
        Option.none_or, hsets, settingIn, settingIn]
      by_cases hopened : sectionAfter (some name) (kindsOf (before key after)) = some name
      · simp [hopened]
      · simp [hopened]
  | kept hfound hnot => simp [hfound, hnot]

/-- The rows that were written give the key the written value exactly in this case. -/
theorem settingIn_written {kinds : List RowKind} (hrows : Clean rows)
    (hwritten : Written name key value rows kinds) :
    settingIn name key none kinds = some value ↔ WritesThrough name key value rows := by
  unfold WritesThrough
  cases hwritten with
  | appended hnone =>
      simp only [hnone, settingIn_append]
      cases settingIn name key none (kindsOf rows) with
      | none => simp [settingIn]
      | some old => simp
  | @within found after kinds' hfound hkey =>
      have hsub := onwards_subset hfound
      have hafter : Clean after :=
        hrows.sublist fun row hrow => hsub (List.mem_cons_of_mem _ hrow)
      simp only [hfound, settingIn_append]
      cases settingIn name key none (kindsOf (before (CConfig.headerLine name) rows)) with
      | some old => simp
      | none => exact settingIn_keyWritten hafter hkey

/-! ## Settings that were not written -/

/-- The first row that mentions the header is the header. -/
def HeaderFound (name : Bytes) (rows : List Bytes) : Prop :=
  ∀ found ∈ (onwards (CConfig.headerLine name) rows).head?, found = CConfig.headerLine name

instance (name : Bytes) (rows : List Bytes) : Decidable (HeaderFound name rows) :=
  inferInstanceAs (Decidable (∀ found ∈ (onwards (CConfig.headerLine name) rows).head?,
    found = CConfig.headerLine name))

/-- The setting that is overwritten: its section and its value. -/
def replacedSetting (name key : Bytes) (rows : List Bytes) : Option (Bytes × Bytes) :=
  match onwards (CConfig.headerLine name) rows with
  | [] => none
  | _ :: after =>
      match onwards key after with
      | [] => none
      | row :: _ =>
          match RowKind.ofLine row with
          | .setting other old =>
              if other = key then
                (sectionAfter (some name) (kindsOf (before key after))).map fun opened =>
                  (opened, old)
              else none
          | _ => none

/-- The setting that is overwritten is the one that is written, or has the value already,
or was not the first of its kind. -/
def SettingInPlace (name key value : Bytes) (rows : List Bytes) : Prop :=
  ∀ replaced ∈ replacedSetting name key rows, replaced.1 = name ∨ replaced.2 = value ∨
    settingIn replaced.1 key none (kindsOf (before (CConfig.headerLine name) rows)) ≠ none

instance (name key value : Bytes) (rows : List Bytes) :
    Decidable (SettingInPlace name key value rows) :=
  inferInstanceAs (Decidable (∀ replaced ∈ replacedSetting name key rows, replaced.1 = name ∨
    replaced.2 = value ∨
    settingIn replaced.1 key none (kindsOf (before (CConfig.headerLine name) rows)) ≠ none))

theorem kindsOf_headerFound {found : Bytes} {after : List Bytes} (hname : Trimmed isBlank name)
    (hheader : HeaderFound name rows)
    (hfound : onwards (CConfig.headerLine name) rows = found :: after) :
    kindsOf rows =
      kindsOf (before (CConfig.headerLine name) rows) ++ .header name :: kindsOf after := by
  have hsame : found = CConfig.headerLine name := hheader found (by rw [hfound]; rfl)
  rw [kindsOf_split hfound, hsame, ofLine_headerLine hname]

theorem settingIn_cons_setting_of_ne {other setting : Bytes} {current : Option Bytes}
    (kinds : List RowKind) (hne : ¬ (current = some other ∧ key = setting)) :
    settingIn other setting current (.setting key value :: kinds) =
      settingIn other setting current kinds := by
  rw [settingIn, if_neg hne]

/-- No other setting is touched by a change in place. -/
theorem settingIn_other {kinds : List RowKind} {other setting : Bytes}
    (hname : Trimmed isBlank name) (hheader : HeaderFound name rows)
    (hplace : SettingInPlace name key value rows) (hwritten : Written name key value rows kinds)
    (hne : ¬ (other = name ∧ setting = key)) :
    settingIn other setting none kinds = settingIn other setting none (kindsOf rows) := by
  have hnot : ¬ (some name = some other ∧ key = setting) := by
    rintro ⟨hsame, rfl⟩
    exact hne ⟨(Option.some.inj hsame).symm, rfl⟩
  cases hwritten with
  | appended =>
      rw [settingIn_append, settingIn, settingIn_cons_setting_of_ne _ hnot, settingIn]
      exact Option.or_none
  | @within found after kinds' hfound hkey =>
      rw [kindsOf_headerFound hname hheader hfound, settingIn_append, settingIn_append, settingIn,
        settingIn]
      cases hkey with
      | inserted => rw [settingIn_cons_setting_of_ne _ hnot]
      | kept => rfl
      | @replaced row old rest hrow hsets =>
          rw [kindsOf_split hrow, hsets, settingIn_append, settingIn_append]
          obtain ⟨opened, hopened⟩ := sectionAfter_some name (kindsOf (before key after))
          rw [hopened]
          by_cases hhere : some opened = some other ∧ key = setting
          · obtain ⟨hsame, rfl⟩ := hhere
            obtain rfl := Option.some.inj hsame
            have hreplaced : (opened, old) ∈ replacedSetting name key rows := by
              simp [replacedSetting, hfound, hrow, hsets, hopened]
            rcases hplace _ hreplaced with hsection | hvalue | hshadowed
            · exact absurd ⟨hsection, rfl⟩ hne
            · have hvalue : old = value := hvalue
              rw [hvalue]
            · obtain ⟨first, hfirst⟩ := Option.ne_none_iff_exists'.mp hshadowed
              have hfirst : settingIn opened key none
                (kindsOf (before (CConfig.headerLine name) rows)) = some first := hfirst
              rw [hfirst, Option.some_or, Option.some_or]
          · rw [settingIn_cons_setting_of_ne _ hhere, settingIn_cons_setting_of_ne _ hhere]

/-- A change that is not in place shows. -/
theorem settingInPlace_of_others {kinds : List RowKind} (hrows : Clean rows)
    (hname : Trimmed isBlank name) (hheader : HeaderFound name rows)
    (hwritten : Written name key value rows kinds)
    (hothers : ∀ other setting, ¬ (other = name ∧ setting = key) →
      settingIn other setting none kinds = settingIn other setting none (kindsOf rows)) :
    SettingInPlace name key value rows := by
  rintro ⟨opened, old⟩ hreplaced
  by_contra hcontra
  simp only [not_or, not_not] at hcontra
  obtain ⟨hsection, hvalue, hfirst⟩ := hcontra
  have hsame := hothers opened key fun hboth => hsection hboth.1
  cases hwritten with
  | appended hnone => simp [replacedSetting, hnone] at hreplaced
  | @within found after kinds' hfound hkey =>
      have hsub := onwards_subset hfound
      have hafter : Clean after := hrows.sublist fun row hrow => hsub (List.mem_cons_of_mem _ hrow)
      have hnone : settingIn opened key (some name) (kindsOf (before key after)) = none :=
        settingIn_before (fun row hrow => hafter.length_lt hrow) (some name)
      rw [kindsOf_headerFound hname hheader hfound, settingIn_append, settingIn_append, hfirst,
        Option.none_or, Option.none_or, settingIn, settingIn] at hsame
      cases hkey with
      | inserted hrow => simp [replacedSetting, hfound, hrow] at hreplaced
      | @kept row rest hrow hnot =>
          have hnotSets : ∀ old', RowKind.ofLine row ≠ .setting key old' := fun old' heq =>
            hnot (sets_iff.mpr ⟨old', heq⟩)
          cases hkind : RowKind.ofLine row with
          | setting other old' =>
              have hother : other ≠ key := by
                rintro rfl
                exact hnotSets old' hkind
              simp [replacedSetting, hfound, hrow, hkind, hother] at hreplaced
          | _ => simp [replacedSetting, hfound, hrow, hkind] at hreplaced
      | @replaced row old' rest hrow hsets =>
          obtain ⟨opened', hopened⟩ := sectionAfter_some name (kindsOf (before key after))
          simp only [replacedSetting, hfound, hrow, hsets, if_true, hopened, Option.map_some,
            Option.mem_def, Option.some.injEq, Prod.mk.injEq] at hreplaced
          obtain ⟨rfl, rfl⟩ := hreplaced
          rw [kindsOf_split hrow, hsets, settingIn_append, settingIn_append, hnone, hopened,
            Option.none_or, Option.none_or, settingIn, settingIn, if_pos ⟨rfl, rfl⟩,
            if_pos ⟨rfl, rfl⟩] at hsame
          exact hvalue (Option.some.inj hsame).symm

/-! ## The rows of a text -/

/-- The rows of a text as they are compared and copied. -/
def rowsOf (text : Bytes) : List Bytes := (lines text).map (trim isBlank)

theorem loadRows_of_isRow (state : LoadState) (hrows : ∀ row ∈ rows, IsRow row) :
    loadRows state (readRows (joinLines rows)) = loadKinds state (rows.map lineKind) := by
  rw [readRows_joinLines hrows, loadRows_eq_loadKinds, List.map_map]
  rfl

theorem trim_line (row : Bytes) : trim isBlank (row ++ [newline]) = trim isBlank row :=
  trim_append (by decide)

theorem rowsOf_joinLines (hrows : ∀ row ∈ rows, newline ∉ row) :
    rowsOf (joinLines rows) = rows.map (trim isBlank) := by
  rw [rowsOf, lines_joinLines hrows, List.map_map]
  exact List.map_congr_left fun row _ => trim_line row

/-- The rows of a text are clean, are what is read, and say what `Load` goes by. -/
theorem IniText.rows_spec {text : Bytes} (htext : IniText text) :
    Clean (rowsOf text) ∧ trimmedRows (readRows text) = rowsOf text ∧
      ∀ state, loadRows state (readRows text) = loadKinds state (kindsOf (rowsOf text)) := by
  obtain ⟨rows, rfl, hrows⟩ := htext.exists_rows
  have hrowsOf : rowsOf (joinLines rows) = rows.map (trim isBlank) :=
    rowsOf_joinLines fun row hrow => (hrows row hrow).1.1
  rw [hrowsOf]
  refine ⟨?_, ?_, ?_⟩
  · intro row hrow
    obtain ⟨source, hsource, rfl⟩ := List.mem_map.mp hrow
    obtain ⟨⟨hnewline, hlength⟩, hnul⟩ := hrows source hsource
    refine ⟨trimmed_trim source, fun hmem => hnul (mem_of_mem_trim hmem),
      fun hmem => hnewline (mem_of_mem_trim hmem), ?_⟩
    exact Nat.lt_of_le_of_lt (trim_isInfix source).length_le hlength
  · rw [readRows_joinLines fun row hrow => (hrows row hrow).1, trimmedRows, List.map_map]
    apply List.map_congr_left
    intro row hrow
    have hnul : 0 ∉ row ++ [newline] := by
      rw [List.mem_append]
      exact not_or.mpr ⟨(hrows row hrow).2, by decide⟩
    rw [Function.comp_apply, cString_eq_self hnul, trim_line]
  · intro state
    rw [loadRows_joinLines state hrows, kindsOf, List.map_map]
    rfl

theorem isRow_assignment (hkey : newline ∉ key ∧ key.length ≤ 90)
    (hvalue : newline ∉ value ∧ value.length ≤ 90) : IsRow (assignment key value) := by
  constructor
  · simp only [assignment, List.mem_append, not_or]
    exact ⟨⟨hkey.1, by decide⟩, hvalue.1⟩
  · have hsign : (ascii " = ").length = 3 := rfl
    simp only [assignment, List.length_append, hsign]
    omega

theorem IsArgument.isLine (hargument : IsArgument key) : newline ∉ key ∧ key.length ≤ 90 :=
  ⟨fun hmem => hargument.plain _ hmem (by decide), hargument.short⟩

theorem IsArgument.cString_isLine (hargument : IsArgument key) :
    newline ∉ cString key ∧ (cString key).length ≤ 90 :=
  ⟨fun hmem => hargument.isLine.1 (List.takeWhile_subset _ hmem),
    Nat.le_trans (List.takeWhile_sublist _).length_le hargument.short⟩

theorem IsArgument.isRow_headerLine (hname : IsArgument name) :
    IsRow (CConfig.headerLine name) := by
  constructor
  · simp only [CConfig.headerLine, List.mem_append, not_or]
    exact ⟨⟨by decide, hname.isLine.1⟩, by decide⟩
  · have hlength := hname.short
    simp only [CConfig.headerLine, List.length_append, ascii, List.length_map]
    simp
    omega

theorem isRow_of_replaceKey {after after' : List Bytes} (hafter : ∀ row ∈ after, IsRow row)
    (hassign : IsRow (assignment key value)) (hreplace : replaceKey key value after = some after') :
    ∀ row ∈ after', IsRow row := by
  unfold replaceKey at hreplace
  cases hfound : onwards key after with
  | nil =>
      simp only [hfound, Option.some.injEq] at hreplace
      exact hreplace ▸ hafter
  | cons found rest =>
      simp only [hfound, Option.map_eq_some_iff] at hreplace
      obtain ⟨outcome, -, rfl⟩ := hreplace
      have hsub := onwards_subset hfound
      intro row hrow
      rcases List.mem_append.mp hrow with hbefore | hrest
      · exact hafter row (before_subset key after hbefore)
      · rcases List.mem_cons.mp hrest with rfl | hlast
        · split_ifs
          · exact hassign
          · exact hafter found (hsub List.mem_cons_self)
        · exact hafter row (hsub (List.mem_cons_of_mem _ hlast))

theorem isRow_of_rewriteRows {rows' : List Bytes} (hname : IsArgument name)
    (hkey : IsArgument key) (hvalue : IsArgument value) (hrows : Clean rows)
    (hrewrite : rewriteRows (CConfig.headerLine name) key value rows = some rows') :
    ∀ row ∈ rows', IsRow row := by
  have hassign : IsRow (assignment key value) := isRow_assignment hkey.isLine hvalue.isLine
  have hold : ∀ row ∈ rows, IsRow row := fun row hrow => (hrows row hrow).2.2
  have hheader := hname.isRow_headerLine
  unfold rewriteRows at hrewrite
  cases hfound : onwards (CConfig.headerLine name) rows with
  | nil =>
      simp only [hfound, Option.some.injEq] at hrewrite
      subst hrewrite
      intro row hrow
      rcases List.mem_append.mp hrow with hin | hnew
      · exact hold row hin
      · rcases List.mem_cons.mp hnew with rfl | hlast
        · exact hheader
        · rw [List.mem_singleton.mp hlast]
          exact isRow_assignment hkey.cString_isLine hvalue.cString_isLine
  | cons found after =>
      have hsub := onwards_subset hfound
      have hafter : ∀ row ∈ after, IsRow row := fun row hrow =>
        hold row (hsub (List.mem_cons_of_mem _ hrow))
      have hbefore : ∀ row ∈ before (CConfig.headerLine name) rows, IsRow row := fun row hrow =>
        hold row (before_subset _ rows hrow)
      simp only [hfound] at hrewrite
      split_ifs at hrewrite
      · obtain rfl := Option.some.inj hrewrite
        simp only [List.forall_mem_append, List.forall_mem_cons]
        exact ⟨hbefore, hheader, hassign, hafter⟩
      · obtain ⟨after', hreplace, rfl⟩ := Option.map_eq_some_iff.mp hrewrite
        simp only [List.forall_mem_append, List.forall_mem_cons]
        exact ⟨hbefore, hheader, isRow_of_replaceKey hafter hassign hreplace⟩

end Wnet.Config
