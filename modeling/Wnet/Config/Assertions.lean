import Wnet.Config.Lines

/-!
# When loading trips an assertion

`Load` ends in a failed assertion if a key comes before the first section, since
`pMap` starts as null in every call, and if the first `=` of a row is immediately
followed by its first `#`. Rows behind a malformed row are never read.
-/

namespace Wnet.Config

open Foundation

variable {current : Option Bytes} {kinds : List RowKind}

/-- Rows on which `Load` trips no assertion. -/
def Guarded (current : Option Bytes) : List RowKind → Prop
  | [] => True
  | .header name :: rest => Guarded (some name) rest
  | .setting _ _ :: rest => current ≠ none ∧ Guarded current rest
  | .ignored :: rest => Guarded current rest
  | .malformed :: _ => True
  | .aborts :: _ => False

theorem loadKinds_isSome_iff (state : LoadState) (kinds : List RowKind) :
    (loadKinds state kinds).isSome ↔ Guarded state.pMap kinds := by
  induction kinds generalizing state with
  | nil => exact ⟨fun _ => trivial, fun _ => rfl⟩
  | cons kind rest ih =>
      cases kind with
      | header name =>
          rw [loadKinds, enterSection_eq]
          exact ih _
      | setting key value =>
          rw [loadKinds, Guarded]
          cases hcurrent : state.pMap with
          | none => simp
          | some name =>
              have hrest := ih (state.insertSetting name key value)
              rw [show (state.insertSetting name key value).pMap = state.pMap from rfl,
                hcurrent] at hrest
              simpa using hrest
      | ignored => exact ih state
      | malformed => exact ⟨fun _ => trivial, fun _ => rfl⟩
      | aborts => simp [loadKinds, Guarded]

theorem sectionAfter_append (first second : List RowKind) :
    sectionAfter current (first ++ second) = sectionAfter (sectionAfter current first) second := by
  induction first generalizing current with
  | nil => rfl
  | cons kind rest ih => cases kind <;> exact ih

theorem sectionAfter_ne_none_iff :
    sectionAfter current kinds ≠ none ↔ current ≠ none ∨ ∃ name, RowKind.header name ∈ kinds := by
  induction kinds generalizing current with
  | nil => simp [sectionAfter]
  | cons kind rest ih =>
      cases kind with
      | header name => simp [sectionAfter, ih]
      | _ => simp [sectionAfter, ih]

/-- The places of a list are its head and the places of its tail. -/
theorem forall_place_cons {α : Type*} {first : α} {rest : List α}
    {holds : List α → α → Prop} :
    (∀ before item after, first :: rest = before ++ item :: after → holds before item) ↔
      holds [] first ∧
        ∀ before item after, rest = before ++ item :: after → holds (first :: before) item := by
  constructor
  · intro hall
    refine ⟨hall [] first rest rfl, ?_⟩
    rintro before item after rfl
    exact hall (first :: before) item after rfl
  · rintro ⟨hfirst, hrest⟩ (_ | ⟨other, before⟩) item after hsplit
    · obtain ⟨rfl, -⟩ := List.cons.inj hsplit
      exact hfirst
    · obtain ⟨rfl, htail⟩ := List.cons.inj hsplit
      exact hrest before item after htail

/-- A row in its place: if it is read, it finds a section if it needs one, and its own parts
are in order. -/
def Fits (current : Option Bytes) (before : List RowKind) (kind : RowKind) : Prop :=
  .malformed ∉ before → kind ≠ .aborts ∧
    ((∃ key value, kind = .setting key value) → sectionAfter current before ≠ none)

theorem guarded_iff : Guarded current kinds ↔
    ∀ before kind after, kinds = before ++ kind :: after → Fits current before kind := by
  induction kinds generalizing current with
  | nil => simp [Guarded]
  | cons first rest ih =>
      rw [forall_place_cons]
      cases first with
      | header name => simp [Guarded, Fits, sectionAfter, ih]
      | setting key value => simp [Guarded, Fits, sectionAfter, ih]
      | ignored => simp [Guarded, Fits, sectionAfter, ih]
      | malformed => simp [Guarded, Fits]
      | aborts => simp [Guarded, Fits]

/-! ## The rows of a file -/

/-- A row that opens a section. -/
def OpensSection (row : Bytes) : Prop := (getSectionName row).1 = .success

/-- A row that is neither a header nor a comment and has a `=` on it. -/
def IsKeyRow (row : Bytes) : Prop :=
  (getSectionName row).1 = .fail ∧ ¬ IsComment (trim isBlank row) ∧ equals ∈ trim isBlank row

/-- A row that `Load` rejects: a header without its bracket, or no header, no comment and no
`=` on it. -/
def IsRejected (row : Bytes) : Prop :=
  (getSectionName row).1 = .error ∨
    (getSectionName row).1 = .fail ∧ ¬ IsComment (trim isBlank row) ∧ equals ∉ trim isBlank row

instance (row : Bytes) : Decidable (OpensSection row) := inferInstanceAs (Decidable (_ = _))

instance (row : Bytes) : Decidable (IsKeyRow row) := inferInstanceAs (Decidable (_ ∧ _))

instance (row : Bytes) : Decidable (IsRejected row) := inferInstanceAs (Decidable (_ ∨ _))

/-- What `_GetSectionName` leaves in the row when it is no header. -/
theorem getSectionName_fail {row str name : Bytes}
    (hfail : getSectionName row = (.fail, str, name)) : str = trimLeft isBlank row := by
  unfold getSectionName at hfail
  dsimp only at hfail
  split at hfail
  next =>
    obtain ⟨-, hrest⟩ := Prod.mk.inj hfail
    exact (Prod.mk.inj hrest).1.symm
  next => split at hfail <;> cases hfail

/-- The kind of a row by what is on it. -/
theorem ofRow_eq {row : Bytes} (hlength : row.length < 4096) :
    RowKind.ofRow row =
      if OpensSection row then .header (getSectionName row).2.2
      else if IsRejected row then .malformed
      else if IsKeyRow row then
        if HashAtOnce (trim isBlank row) then .aborts
        else .setting (keyOf (trim isBlank row)) (valueOf (trim isBlank row))
      else .ignored := by
  have hshort : (trim isBlank row).length < 4096 :=
    Nat.lt_of_le_of_lt (trim_isInfix row).length_le hlength
  rcases hname : getSectionName row with ⟨code, str, name⟩
  simp only [RowKind.ofRow, OpensSection, IsRejected, IsKeyRow, hname]
  cases code with
  | success => simp
  | error => simp
  | fail =>
      have hparse : parseValue str = parseValue (trim isBlank row) := by
        rw [getSectionName_fail hname, ← parseValue_trim, trim_trimLeft]
      simp only [hparse, parseValue_eq (trimmed_trim row) hshort, reduceCtorEq, if_false, false_or,
        true_and]
      by_cases hcomment : IsComment (trim isBlank row)
      · simp [hcomment, RowKind.ofValue]
      · by_cases hequals : equals ∈ trim isBlank row
        · by_cases hhash : HashAtOnce (trim isBlank row)
          · simp [hcomment, hequals, hhash, RowKind.ofValue]
          · simp [hcomment, hequals, hhash, RowKind.ofValue]
        · simp [hcomment, hequals, RowKind.ofValue]

theorem length_fgets_le (count : Nat) (file : Bytes) : (fgets count file).1.length ≤ count := by
  induction count generalizing file with
  | zero => simp [fgets]
  | succ count ih =>
      cases file with
      | nil => simp [fgets]
      | cons char rest =>
          rw [fgets]
          split
          next => simp
          next => exact Nat.succ_le_succ (ih rest)

theorem length_lt_of_mem_readLoop {fuel : Nat} {file row : Bytes}
    (hrow : row ∈ readLoop fuel file) : row.length < 4096 := by
  induction fuel generalizing file with
  | zero => simp [readLoop] at hrow
  | succ fuel ih =>
      cases file with
      | nil => simp [readLoop] at hrow
      | cons char rest =>
          rw [readLoop] at hrow
          rcases List.mem_cons.mp hrow with rfl | hlater
          · have hle := length_fgets_le 4095 (char :: rest)
            exact Nat.lt_succ_of_le hle
          · exact ih hlater

/-- The rows of a file as C strings. -/
def rowStrings (file : Bytes) : List Bytes := (readRows file).map cString

theorem length_lt_of_mem_rowStrings {file row : Bytes} (hrow : row ∈ rowStrings file) :
    row.length < 4096 := by
  obtain ⟨data, hdata, rfl⟩ := List.mem_map.mp hrow
  exact Nat.lt_of_le_of_lt (List.takeWhile_prefix _).length_le (length_lt_of_mem_readLoop hdata)

theorem IsKeyRow.not_opensSection {row : Bytes} (hkey : IsKeyRow row) : ¬ OpensSection row := by
  intro hopens
  rw [OpensSection, hkey.1] at hopens
  cases hopens

theorem IsKeyRow.not_isRejected {row : Bytes} (hkey : IsKeyRow row) : ¬ IsRejected row := by
  rintro (herror | ⟨-, -, hequals⟩)
  · rw [hkey.1] at herror
    cases herror
  · exact hequals hkey.2.2

theorem OpensSection.not_isRejected {row : Bytes} (hopens : OpensSection row) :
    ¬ IsRejected row := by
  rw [OpensSection] at hopens
  rintro (herror | ⟨hfail, -⟩)
  · rw [hopens] at herror
    cases herror
  · rw [hopens] at hfail
    cases hfail

section Kinds

variable {row : Bytes} (hlength : row.length < 4096)
include hlength

theorem ofRow_eq_malformed_iff : RowKind.ofRow row = .malformed ↔ IsRejected row := by
  rw [ofRow_eq hlength]
  split_ifs with hopens hrejected
  · simpa using hopens.not_isRejected
  all_goals simpa using hrejected

theorem exists_ofRow_eq_header_iff :
    (∃ name, RowKind.ofRow row = .header name) ↔ OpensSection row := by
  rw [ofRow_eq hlength]
  split_ifs with hopens <;> simpa using hopens

theorem ofRow_eq_aborts_iff :
    RowKind.ofRow row = .aborts ↔ IsKeyRow row ∧ HashAtOnce (trim isBlank row) := by
  rw [ofRow_eq hlength]
  split_ifs with hopens hrejected hkey hhash
  · simpa using fun hkey => absurd hopens (IsKeyRow.not_opensSection hkey)
  · simpa using fun hkey => absurd hrejected (IsKeyRow.not_isRejected hkey)
  · simpa using ⟨hkey, hhash⟩
  · simpa using fun _ => hhash
  · simpa using fun hrow => absurd hrow hkey

theorem exists_ofRow_eq_setting_iff :
    (∃ key value, RowKind.ofRow row = .setting key value) ↔
      IsKeyRow row ∧ ¬ HashAtOnce (trim isBlank row) := by
  rw [ofRow_eq hlength]
  split_ifs with hopens hrejected hkey hhash
  · simpa using fun hkey => absurd hopens (IsKeyRow.not_opensSection hkey)
  · simpa using fun hkey => absurd hrejected (IsKeyRow.not_isRejected hkey)
  · simpa using fun _ => hhash
  · simpa using ⟨hkey, hhash⟩
  · simpa using fun hrow => absurd hrow hkey

end Kinds

theorem forall_place_map {α β : Type*} {convert : α → β} {items : List α}
    {holds : List β → β → Prop} :
    (∀ before item after, items.map convert = before ++ item :: after → holds before item) ↔
      ∀ before item after, items = before ++ item :: after →
        holds (before.map convert) (convert item) := by
  constructor
  · rintro hall before item after rfl
    exact hall _ _ (after.map convert) (by simp)
  · intro hall before item after hsplit
    obtain ⟨first, second, rfl, rfl, hsecond⟩ := List.map_eq_append_iff.mp hsplit
    obtain ⟨middle, last, rfl, rfl, rfl⟩ := List.map_eq_cons_iff.mp hsecond
    exact hall first middle last rfl

/-- A key row that `Load` reads has a section above it, and no comment right behind its `=`. -/
def KeyRowFits (before : List Bytes) (row : Bytes) : Prop :=
  (∀ other ∈ before, ¬ IsRejected other) → IsKeyRow row →
    (∃ other ∈ before, OpensSection other) ∧ ¬ HashAtOnce (trim isBlank row)

instance (before : List Bytes) (row : Bytes) : Decidable (KeyRowFits before row) :=
  inferInstanceAs (Decidable (_ → _))

theorem fits_iff_keyRowFits {before : List Bytes} {row : Bytes}
    (hbefore : ∀ other ∈ before, other.length < 4096) (hrow : row.length < 4096) :
    Fits none (before.map RowKind.ofRow) (.ofRow row) ↔ KeyRowFits before row := by
  have hrejected : .malformed ∉ before.map RowKind.ofRow ↔
      ∀ other ∈ before, ¬ IsRejected other := by
    simp only [List.mem_map, not_exists, not_and]
    exact forall₂_congr fun other hother =>
      not_congr (ofRow_eq_malformed_iff (hbefore other hother))
  have hopened : sectionAfter none (before.map RowKind.ofRow) ≠ none ↔
      ∃ other ∈ before, OpensSection other := by
    rw [sectionAfter_ne_none_iff]
    constructor
    · rintro (hnone | ⟨name, hname⟩)
      · exact absurd rfl hnone
      · obtain ⟨other, hother, hheader⟩ := List.mem_map.mp hname
        exact ⟨other, hother,
          (exists_ofRow_eq_header_iff (hbefore other hother)).mp ⟨name, hheader⟩⟩
    · rintro ⟨other, hother, hopens⟩
      obtain ⟨name, hheader⟩ := (exists_ofRow_eq_header_iff (hbefore other hother)).mpr hopens
      exact Or.inr ⟨name, List.mem_map.mpr ⟨other, hother, hheader⟩⟩
  rw [Fits, KeyRowFits, hrejected, hopened, exists_ofRow_eq_setting_iff hrow, ne_eq,
    ofRow_eq_aborts_iff hrow]
  tauto

theorem loadKinds_code {state : LoadState} {code : ReturnCode} {map : ConfigMap}
    (hload : loadKinds state kinds = some (code, map)) : code = .success ∨ code = .fail := by
  induction kinds generalizing state with
  | nil =>
      obtain ⟨rfl, -⟩ := Prod.mk.inj (Option.some.inj hload)
      exact Or.inl rfl
  | cons kind rest ih =>
      cases kind with
      | header name => exact ih hload
      | setting key value =>
          rw [loadKinds] at hload
          split at hload
          next => cases hload
          next => exact ih hload
      | ignored => exact ih hload
      | malformed =>
          obtain ⟨rfl, -⟩ := Prod.mk.inj (Option.some.inj hload)
          exact Or.inr rfl
      | aborts => cases hload

/-- `Load` goes by the kinds of the rows of the file, whatever was loaded before. -/
theorem load_eq_loadKinds {files : Files} {filename text : Bytes}
    (hfile : files filename = some text) (config : CConfig) :
    config.load files filename =
      (loadKinds ⟨config.configMap, none⟩ ((rowStrings text).map RowKind.ofRow)).map
        fun (code, map) => (code, ⟨filename, map⟩) := by
  rw [CConfig.load, hfile, rowStrings, List.map_map]
  simp only [loadRows_eq_loadKinds]
  rfl

/-- `Load` returns success or failure, and trips no assertion, if and only if every key row up
to the first row that it rejects has a section above it and no comment right behind its `=`. -/
theorem load_returns_iff {files : Files} {filename text : Bytes}
    (hfile : files filename = some text) (config : CConfig) :
    (∃ code config', config.load files filename = some (code, config') ∧
      (code = .success ∨ code = .fail)) ↔
    ∀ before row after, rowStrings text = before ++ row :: after → KeyRowFits before row := by
  have hreturns : (∃ code config', config.load files filename = some (code, config') ∧
      (code = .success ∨ code = .fail)) ↔
      (loadKinds ⟨config.configMap, none⟩ ((rowStrings text).map RowKind.ofRow)).isSome := by
    rw [load_eq_loadKinds hfile]
    constructor
    · rintro ⟨code, config', hload, -⟩
      obtain ⟨outcome, hkinds, -⟩ := Option.map_eq_some_iff.mp hload
      rw [hkinds]
      rfl
    · intro hsome
      obtain ⟨⟨code, map⟩, hkinds⟩ := Option.isSome_iff_exists.mp hsome
      exact ⟨code, ⟨filename, map⟩, by rw [hkinds]; rfl, loadKinds_code hkinds⟩
  rw [hreturns, loadKinds_isSome_iff, guarded_iff, forall_place_map]
  refine forall₄_congr fun before row after hsplit => ?_
  have hshort : ∀ other ∈ before ++ row :: after, other.length < 4096 := fun other hother =>
    length_lt_of_mem_rowStrings (hsplit ▸ hother)
  exact fits_iff_keyRowFits (fun other hother => hshort other (by simp [hother]))
    (hshort row (by simp))

theorem load_returns_commented :
    ∃ code config, CConfig.new.load (fun _ => some (ascii "[s]\nkey = 1 # note\n")) (ascii "f") =
      some (code, config) ∧ (code = .success ∨ code = .fail) := by
  have hrows : rowStrings (ascii "[s]\nkey = 1 # note\n") =
      [ascii "[s]\n", ascii "key = 1 # note\n"] := by decide
  apply (@load_returns_iff (fun _ => some (ascii "[s]\nkey = 1 # note\n")) (ascii "f") _ rfl
    .new).mpr
  rw [hrows, forall_place_cons, forall_place_cons]
  exact ⟨by decide, by decide, by simp⟩

/-- A key without a section, and an empty value with a comment right behind its `=`. -/
theorem load_aborts :
    CConfig.new.load (fun _ => some (ascii "key = 1\n")) (ascii "f") = none ∧
      CConfig.new.load (fun _ => some (ascii "[s]\nkey =# none\n")) (ascii "f") = none :=
  ⟨by decide, by decide⟩

end Wnet.Config
