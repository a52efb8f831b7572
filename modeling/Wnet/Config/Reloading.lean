import Wnet.Config.Meaning

/-!
# Loading over what is there

`Load` works on the map of the object. It keeps every entry it finds there, puts in
what is missing row by row, and sets `m_FilePath` before it looks at the first row.
What is in the map afterwards is therefore decided by the file alone only if the file
says everything that was in the map before.
-/

namespace Wnet.Config

open Foundation

variable {state : LoadState} {kinds : List RowKind} {code : ReturnCode} {map after : ConfigMap}

/-! ## Maps of maps -/

/-- Maps with the same sections and the same values in them are equal. -/
theorem configMap_ext {first second : ConfigMap}
    (hsections : ∀ name, (first.find? name).isSome ↔ (second.find? name).isSome)
    (hvalues : ∀ name key, valueIn first name key = valueIn second name key) :
    first = second := by
  apply SortedMap.ext_find?
  intro name
  have hsection := hsections name
  cases hfirst : first.find? name with
  | none =>
      have hsecond : second.find? name = none := by simpa [hfirst] using hsection
      rw [hsecond]
  | some inner =>
      obtain ⟨other, hsecond⟩ : ∃ other, second.find? name = some other := by
        simpa [hfirst, Option.isSome_iff_exists] using hsection
      rw [hsecond]
      congr 1
      apply SortedMap.ext_find?
      intro key
      simpa [valueIn, hfirst, hsecond] using hvalues name key

theorem isSome_find?_insert (map : ConfigMap) (opened name : Bytes) (inner : SectionMap) :
    ((map.insert opened inner).find? name).isSome ↔ (map.find? name).isSome ∨ name = opened := by
  unfold SortedMap.insert
  by_cases hname : name = opened
  · subst hname
    simp
  · simp [SortedMap.find?_alter_of_ne _ _ hname, hname]

theorem isSome_find?_insertSetting {opened name key value : Bytes}
    (hopened : (state.configMap.find? opened).isSome) :
    ((state.insertSetting opened key value).configMap.find? name).isSome ↔
      (state.configMap.find? name).isSome := by
  unfold LoadState.insertSetting
  by_cases hname : name = opened
  · subst hname
    simp [hopened]
  · simp [SortedMap.find?_alter_of_ne _ _ hname]

/-! ## The rows that are read -/

/-- The rows before the first one that `Load` rejects. -/
def rowsRead (kinds : List RowKind) : List RowKind := kinds.takeWhile (· ≠ .malformed)

theorem rowsRead_eq_self (hkinds : .malformed ∉ kinds) : rowsRead kinds = kinds := by
  apply List.takeWhile_eq_self_iff.mpr
  intro kind hkind
  have hne : kind ≠ .malformed := fun heq => hkinds (heq ▸ hkind)
  simpa using hne

/-- The rows behind the rejected one have no effect. -/
theorem loadKinds_rowsRead (hload : loadKinds state kinds = some (code, map)) :
    loadKinds state (rowsRead kinds) = some (.success, map) := by
  induction kinds generalizing state with
  | nil =>
      obtain ⟨-, rfl⟩ := Prod.mk.inj (Option.some.inj hload)
      rfl
  | cons kind rest ih =>
      cases kind with
      | header name => exact ih hload
      | setting key value =>
          rw [loadKinds] at hload
          cases hcurrent : state.pMap with
          | none => simp [hcurrent] at hload
          | some name =>
              simp only [hcurrent] at hload
              have hrest := ih hload
              simpa [rowsRead, loadKinds, hcurrent] using hrest
      | ignored => exact ih hload
      -- Here `Load` returns `FAIL`, while the rows read end with success.
      | malformed =>
          obtain ⟨-, rfl⟩ := Prod.mk.inj (Option.some.inj hload)
          rfl
      | aborts => cases hload

/-- The sections after loading are those that were there and those that the rows open. -/
theorem sections_of_success (hload : loadKinds state kinds = some (.success, map))
    (hcurrent : ∀ name, state.pMap = some name → (state.configMap.find? name).isSome)
    (name : Bytes) :
    (map.find? name).isSome ↔ (state.configMap.find? name).isSome ∨ .header name ∈ kinds := by
  induction kinds generalizing state with
  | nil =>
      obtain ⟨-, rfl⟩ := Prod.mk.inj (Option.some.inj hload)
      simp
  | cons kind rest ih =>
      cases kind with
      | header opened =>
          rw [loadKinds, enterSection_eq] at hload
          have hrest := ih hload (by
            intro other hother
            obtain rfl := Option.some.inj hother
            exact (isSome_find?_insert ..).mpr (Or.inr rfl))
          rw [hrest, isSome_find?_insert, List.mem_cons, RowKind.header.injEq, or_assoc]
      -- The section of a setting was opened before, so it adds none.
      | setting key value =>
          rw [loadKinds] at hload
          cases hopened : state.pMap with
          | none => simp [hopened] at hload
          | some opened =>
              simp only [hopened] at hload
              have hthere := hcurrent opened hopened
              have hrest := ih hload (by
                intro other hother
                exact (isSome_find?_insertSetting hthere).mpr (hcurrent other hother))
              rw [hrest, isSome_find?_insertSetting hthere]
              simp
      | ignored =>
          rw [ih hload hcurrent]
          simp
      | malformed => cases hload
      | aborts => cases hload

/-! ## What has to be there already -/

/-- Everything in the map is in the rows as well. -/
def SaysAll (kinds : List RowKind) (map : ConfigMap) : Prop :=
  (∀ name, (map.find? name).isSome → .header name ∈ kinds) ∧
    ∀ name key value, valueIn map name key = some value →
      settingIn name key none kinds = some value

/-- The rows open no section and set no key that is not in the map. -/
def AddsNothing (kinds : List RowKind) (map : ConfigMap) : Prop :=
  (∀ name, .header name ∈ kinds → (map.find? name).isSome) ∧
    ∀ name key, (settingIn name key none kinds).isSome → (valueIn map name key).isSome

/-- What loading makes of a map. -/
structure Merges (kinds : List RowKind) (before after : ConfigMap) : Prop where
  sections : ∀ name, (after.find? name).isSome ↔
    (before.find? name).isSome ∨ .header name ∈ kinds
  values : ∀ name key, valueIn after name key =
    (valueIn before name key).or (settingIn name key none kinds)

theorem merges_of_loadKinds {before after : ConfigMap}
    (hload : loadKinds ⟨before, none⟩ kinds = some (code, after)) :
    Merges (rowsRead kinds) before after := by
  have hread := loadKinds_rowsRead hload
  obtain ⟨other, hother, hvalues⟩ := loadKinds_of_accepted (accepted_of_loadKinds hread)
  obtain ⟨-, rfl⟩ := Prod.mk.inj (Option.some.inj (hread.symm.trans hother))
  exact ⟨sections_of_success hread (by simp), hvalues⟩

theorem Merges.fresh_sections {fresh : ConfigMap} (hfresh : Merges kinds .empty fresh)
    (name : Bytes) : (fresh.find? name).isSome ↔ .header name ∈ kinds := by
  simpa using hfresh.sections name

theorem Merges.fresh_values {fresh : ConfigMap} (hfresh : Merges kinds .empty fresh)
    (name key : Bytes) : valueIn fresh name key = settingIn name key none kinds := by
  simpa [valueIn] using hfresh.values name key

theorem Merges.saysAll {fresh : ConfigMap} (hfresh : Merges kinds .empty fresh) :
    SaysAll kinds fresh := by
  refine ⟨fun name hname => (hfresh.fresh_sections name).mp hname, ?_⟩
  intro name key value hvalue
  rw [← hfresh.fresh_values, hvalue]

/-- Loading into the map has the result of loading into an empty one. -/
theorem Merges.eq_fresh_iff {before after fresh : ConfigMap} (hmerges : Merges kinds before after)
    (hfresh : Merges kinds .empty fresh) : after = fresh ↔ SaysAll kinds before := by
  have hsections := hfresh.fresh_sections
  have hvalues := hfresh.fresh_values
  constructor
  · rintro rfl
    refine ⟨fun name hname => ?_, fun name key value hvalue => ?_⟩
    · exact (hsections name).mp ((hmerges.sections name).mpr (Or.inl hname))
    · rw [← hvalues, hmerges.values, hvalue]
      rfl
  · rintro ⟨hnames, hkeys⟩
    -- Values alone do not tell a map apart: an empty section counts as well.
    apply configMap_ext
    · intro name
      rw [hmerges.sections, hsections]
      exact ⟨fun hname => hname.elim (hnames name) id, Or.inr⟩
    · intro name key
      rw [hmerges.values, hvalues]
      cases hvalue : valueIn before name key with
      | none => rfl
      | some value => exact (hkeys name key value hvalue).symm

/-- Loading leaves the map as it was. -/
theorem Merges.eq_before_iff {before after : ConfigMap} (hmerges : Merges kinds before after) :
    after = before ↔ AddsNothing kinds before := by
  constructor
  · rintro rfl
    refine ⟨fun name hname => (hmerges.sections name).mpr (Or.inr hname), fun name key hset => ?_⟩
    rw [hmerges.values, Option.isSome_or, hset, Bool.or_true]
  · rintro ⟨hnames, hkeys⟩
    apply configMap_ext
    · intro name
      rw [hmerges.sections]
      exact ⟨fun hname => hname.elim id (hnames name), Or.inl⟩
    · intro name key
      rw [hmerges.values]
      cases hvalue : valueIn before name key with
      | some value => rfl
      | none =>
          have hunset := hkeys name key
          rw [hvalue] at hunset
          simpa using hunset

/-! ## Loading a file -/

/-- The kinds of the rows of a file. -/
def rowKinds (text : Bytes) : List RowKind := (rowStrings text).map RowKind.ofRow

/-- Loading the file into two objects: after a success both have the map that a new object gets
from it, after a failure both are as before. -/
def LoadsAlike (files : Files) (filename : Bytes) (first second : CConfig) : Prop :=
  ∀ code first', first.load files filename = some (code, first') →
    ∃ second', second.load files filename = some (code, second') ∧
      (code = .success → first'.configMap = second'.configMap ∧
        ∃ fresh, CConfig.new.load files filename = some (.success, fresh) ∧
          first'.configMap = fresh.configMap) ∧
      (code = .fail →
        (first'.configMap = first.configMap ∧ first'.filePath = first.filePath) ∧
          second'.configMap = second.configMap ∧ second'.filePath = second.filePath)

/-- An object that loading the file cannot spoil: either no row is rejected and the file says
everything that the object holds, or a row is rejected, the rows before it add nothing and the
path is that of the object already. -/
def Prepared (filename : Bytes) (kinds : List RowKind) (config : CConfig) : Prop :=
  (.malformed ∉ kinds → SaysAll kinds config.configMap) ∧
    (.malformed ∈ kinds →
      config.filePath = filename ∧ AddsNothing (rowsRead kinds) config.configMap)

theorem prepared_of_malformed {filename : Bytes} {config : CConfig} (hkinds : .malformed ∈ kinds) :
    Prepared filename kinds config ↔
      config.filePath = filename ∧ AddsNothing (rowsRead kinds) config.configMap := by
  simp [Prepared, hkinds]

theorem prepared_of_not_malformed {filename : Bytes} {config : CConfig}
    (hkinds : .malformed ∉ kinds) :
    Prepared filename kinds config ↔ SaysAll kinds config.configMap := by
  simp [Prepared, hkinds]

/-- Both objects come to the same code. -/
theorem loadsAlike_of_load {files : Files} {filename : Bytes}
    {first second first' second' : CConfig}
    (hfirst : first.load files filename = some (code, first'))
    (hsecond : second.load files filename = some (code, second')) :
    LoadsAlike files filename first second ↔
      (code = .success → first'.configMap = second'.configMap ∧
        ∃ fresh, CConfig.new.load files filename = some (.success, fresh) ∧
          first'.configMap = fresh.configMap) ∧
      (code = .fail →
        (first'.configMap = first.configMap ∧ first'.filePath = first.filePath) ∧
          second'.configMap = second.configMap ∧ second'.filePath = second.filePath) := by
  constructor
  · intro halike
    obtain ⟨other, hother, hcases⟩ := halike code first' hfirst
    obtain ⟨-, rfl⟩ := Prod.mk.inj (Option.some.inj (hsecond.symm.trans hother))
    exact hcases
  · intro hcases other third hthird
    obtain ⟨rfl, rfl⟩ := Prod.mk.inj (Option.some.inj (hfirst.symm.trans hthird))
    exact ⟨second', hsecond, hcases⟩

theorem code_of_guarded (hload : loadKinds ⟨map, none⟩ kinds = some (code, after))
    (hguarded : Guarded none kinds) : code = if .malformed ∈ kinds then .fail else .success := by
  have hsuccess := success_iff_accepted hload
  rw [accepted_iff_of_guarded hguarded] at hsuccess
  split_ifs with hmalformed
  · exact (loadKinds_code hload).resolve_left fun hcode => hsuccess.mp hcode hmalformed
  · exact hsuccess.mpr hmalformed

section File

variable {files : Files} {filename text : Bytes} (hfile : files filename = some text)
include hfile

theorem load_of_guarded (hguarded : Guarded none (rowKinds text)) (config : CConfig) :
    ∃ after, config.load files filename =
        some (if .malformed ∈ rowKinds text then .fail else .success, ⟨filename, after⟩) ∧
      Merges (rowsRead (rowKinds text)) config.configMap after := by
  obtain ⟨⟨code, after⟩, hload⟩ := Option.isSome_iff_exists.mp
    ((loadKinds_isSome_iff ⟨config.configMap, none⟩ _).mpr hguarded)
  obtain rfl := code_of_guarded hload hguarded
  refine ⟨after, ?_, merges_of_loadKinds hload⟩
  rw [load_eq_loadKinds hfile, ← rowKinds, hload]
  rfl

theorem load_eq_none (hguarded : ¬ Guarded none (rowKinds text)) (config : CConfig) :
    config.load files filename = none := by
  have hnone := mt (loadKinds_isSome_iff ⟨config.configMap, none⟩ _).mp hguarded
  rw [load_eq_loadKinds hfile, ← rowKinds, Option.not_isSome_iff_eq_none.mp hnone]
  rfl

/-- What is in two objects before the call does not show after it, if and only if the file trips
an assertion or loading it spoils neither of them. -/
theorem loadsAlike_iff (first second : CConfig) :
    LoadsAlike files filename first second ↔
      (Guarded none (rowKinds text) →
        Prepared filename (rowKinds text) first ∧ Prepared filename (rowKinds text) second) := by
  -- With an assertion that fails nothing is returned, and there is nothing to compare.
  by_cases hguarded : Guarded none (rowKinds text)
  · obtain ⟨firstAfter, hfirst, hfirstMerges⟩ := load_of_guarded hfile hguarded first
    obtain ⟨secondAfter, hsecond, hsecondMerges⟩ := load_of_guarded hfile hguarded second
    obtain ⟨fresh, hnew, hfresh⟩ := load_of_guarded hfile hguarded .new
    simp only [hguarded, true_imp_iff]
    by_cases hmalformed : .malformed ∈ rowKinds text
    · rw [if_pos hmalformed] at hfirst hsecond
      rw [loadsAlike_of_load hfirst hsecond, prepared_of_malformed hmalformed,
        prepared_of_malformed hmalformed, ← hfirstMerges.eq_before_iff,
        ← hsecondMerges.eq_before_iff]
      constructor
      · rintro ⟨-, hfail⟩
        obtain ⟨⟨hfirstMap, hfirstPath⟩, hsecondMap, hsecondPath⟩ := hfail rfl
        exact ⟨⟨hfirstPath.symm, hfirstMap⟩, hsecondPath.symm, hsecondMap⟩
      · rintro ⟨⟨hfirstPath, hfirstMap⟩, hsecondPath, hsecondMap⟩
        exact ⟨by simp, fun _ => ⟨⟨hfirstMap, hfirstPath.symm⟩, hsecondMap, hsecondPath.symm⟩⟩
    · rw [if_neg hmalformed] at hfirst hsecond hnew
      rw [rowsRead_eq_self hmalformed] at hfirstMerges hsecondMerges hfresh
      rw [loadsAlike_of_load hfirst hsecond, prepared_of_not_malformed hmalformed,
        prepared_of_not_malformed hmalformed, ← hfirstMerges.eq_fresh_iff hfresh,
        ← hsecondMerges.eq_fresh_iff hfresh]
      constructor
      · rintro ⟨hsuccess, -⟩
        obtain ⟨hsame, config, hconfig, hmap⟩ := hsuccess rfl
        obtain ⟨-, rfl⟩ := Prod.mk.inj (Option.some.inj (hnew.symm.trans hconfig))
        exact ⟨hmap, hsame.symm.trans hmap⟩
      · rintro ⟨hfirstMap, hsecondMap⟩
        exact ⟨fun _ => ⟨hfirstMap.trans hsecondMap.symm, _, hnew, hfirstMap⟩, by simp⟩
  · simp [LoadsAlike, load_eq_none hfile hguarded, hguarded]

end File

/-- A file that is loaded a second time. -/
theorem loadsAlike_again :
    let files : Files := fun _ => some (ascii "[s]\nkey = 1\n")
    ∃ config, CConfig.new.load files (ascii "f") = some (.success, config) ∧
      LoadsAlike files (ascii "f") config .new := by
  intro files
  have hkinds : rowKinds (ascii "[s]\nkey = 1\n") =
      [.header (ascii "s"), .setting (ascii "key") (ascii "1")] := by decide
  obtain ⟨map, hload, hmerges⟩ := @load_of_guarded files (ascii "f") _ rfl
    (hkinds ▸ ⟨by simp, trivial⟩) .new
  rw [hkinds] at hload hmerges
  refine ⟨⟨ascii "f", map⟩, hload, (@loadsAlike_iff files (ascii "f") _ rfl _ .new).mpr ?_⟩
  intro _
  rw [hkinds, prepared_of_not_malformed (by decide), prepared_of_not_malformed (by decide)]
  exact ⟨hmerges.saysAll, by simp [CConfig.new], by simp [CConfig.new, valueIn]⟩

/-- A key of another file is still there after a successful load, and a failed one leaves the
path and a section of the rejected file behind. -/
theorem load_spoils :
    let files : Files := fun name =>
      if name = ascii "a" then some (ascii "[s]\nold = 1\n")
      else if name = ascii "b" then some (ascii "[s]\nnew = 2\n")
      else some (ascii "[t]\nnone\n")
    ∃ config, CConfig.new.load files (ascii "a") = some (.success, config) ∧
      ¬ LoadsAlike files (ascii "b") config .new ∧ ¬ LoadsAlike files (ascii "c") config .new := by
  intro files
  let old : SectionMap := SortedMap.empty.insert (ascii "old") (ascii "1")
  let both : SectionMap := old.insert (ascii "new") (ascii "2")
  let new : SectionMap := SortedMap.empty.insert (ascii "new") (ascii "2")
  let config : CConfig := ⟨ascii "a", SortedMap.empty.insert (ascii "s") old⟩
  have hfirst : config.load files (ascii "b") =
      some (.success, ⟨ascii "b", SortedMap.empty.insert (ascii "s") both⟩) := rfl
  have hfresh : CConfig.new.load files (ascii "b") =
      some (.success, ⟨ascii "b", SortedMap.empty.insert (ascii "s") new⟩) := rfl
  refine ⟨config, rfl, ?_, ?_⟩
  · intro halike
    have hsame := (((loadsAlike_of_load hfirst hfresh).mp halike).1 rfl).1
    have hvalue := congrArg (fun map => valueIn map (ascii "s") (ascii "old")) hsame
    revert hvalue
    decide
  · intro halike
    obtain ⟨_, _, _, hfail⟩ :=
      halike .fail ⟨ascii "c", config.configMap.insert (ascii "t") .empty⟩ rfl
    have hpath := (hfail rfl).1.2
    revert hpath
    decide

end Wnet.Config
