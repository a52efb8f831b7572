import Wnet.Config.WrittenSettings

/-!
# Reading a file after a setting was written to it

A configuration is loaded from a text, one setting is written, and the file is loaded
again. The setting is in the map of the writer; whether it, and it alone, has changed
in the file is decided by the rows of the text.
-/

namespace Wnet.Config

open Foundation

/-- A configuration was loaded from a file and one setting was written to it. -/
structure WriteRun (files files' : Files) (filename text : Bytes) (config config' : CConfig)
    (name key value : Bytes) : Prop where
  file : files filename = some text
  iniText : IniText text
  loaded : CConfig.load files .new filename = some (.success, config)
  nameArgument : IsArgument (trim isBlank name)
  keyArgument : IsArgument (trim isBlank key)
  valueArgument : IsArgument (trim isBlank value)
  written : config.writeProfileString files name key value = some (.success, files', config')

variable {files files' : Files} {filename text name key value : Bytes} {config config' : CConfig}

/-! ## Maps -/

theorem getString_eq (config : CConfig) (name key default : Bytes) :
    config.getString name key default =
      match valueIn config.configMap name key with
      | none => (.fail, default)
      | some value => (.success, value) := by
  unfold CConfig.getString valueIn
  cases config.configMap.find? name with
  | none => rfl
  | some map => cases hfind : map.find? key <;> simp [hfind]

theorem getString_eq_success (config : CConfig) (default : Bytes) :
    config.getString name key default = (.success, value) ↔
      valueIn config.configMap name key = some value := by
  rw [getString_eq]
  cases valueIn config.configMap name key <;> simp

theorem valueIn_setCfgToMap (config : CConfig) (name key value : Bytes) :
    valueIn (config.setCfgToMap name key value).configMap name key = some value := by
  unfold CConfig.setCfgToMap valueIn SortedMap.insert
  cases hfind : config.configMap.find? name with
  | none => simp [hfind]
  | some map => simp

theorem load_eq_some {files : Files} {code : ReturnCode} (hfile : files filename = some text) :
    CConfig.load files .new filename = some (code, config) ↔
      loadRows ⟨.empty, none⟩ (readRows text) = some (code, config.configMap) ∧
        config.filePath = filename := by
  rw [CConfig.load, hfile]
  simp only [CConfig.new, Option.map_eq_some_iff, Prod.mk.injEq]
  constructor
  · rintro ⟨⟨code', map⟩, hrows, rfl, rfl⟩
    exact ⟨hrows, rfl⟩
  · rintro ⟨hrows, rfl⟩
    exact ⟨(code, config.configMap), hrows, rfl, rfl⟩

/-- The rows of the text are what the loaded map holds. -/
theorem WriteRun.valueIn_config
    (hrun : WriteRun files files' filename text config config' name key value)
    (other setting : Bytes) :
    valueIn config.configMap other setting =
      settingIn other setting none (kindsOf (rowsOf text)) := by
  obtain ⟨-, -, hkinds⟩ := hrun.iniText.rows_spec
  have hload := ((load_eq_some hrun.file).mp hrun.loaded).1
  rw [hkinds] at hload
  obtain ⟨map, hmap, hvalue⟩ := loadKinds_of_accepted (accepted_of_loadKinds hload)
  obtain ⟨-, rfl⟩ := Prod.mk.inj (Option.some.inj (hload.symm.trans hmap))
  rw [hvalue]
  rfl

theorem WriteRun.filePath_eq
    (hrun : WriteRun files files' filename text config config' name key value) :
    config.filePath = filename :=
  ((load_eq_some hrun.file).mp hrun.loaded).2

/-- The map of the writer holds the setting. -/
theorem WriteRun.valueIn_writer
    (hrun : WriteRun files files' filename text config config' name key value) :
    valueIn config'.configMap (trim isBlank name) (trim isBlank key) =
      some (trim isBlank value) := by
  have hwrite := hrun.written
  unfold CConfig.writeProfileString at hwrite
  split_ifs at hwrite with hpath
  · simp at hwrite
  · rw [hrun.filePath_eq, hrun.file] at hwrite
    simp only [Option.bind_eq_bind, Option.bind_eq_some_iff, Option.some.injEq,
      Prod.mk.injEq] at hwrite
    obtain ⟨-, -, -, -, -, -, rfl⟩ := hwrite
    exact valueIn_setCfgToMap config _ _ _

theorem IsArgument.formatSection_eq (hname : IsArgument name) (hnul : 0 ∉ name) :
    formatSection name = CConfig.headerLine name := by
  have hlength := hname.short
  rw [formatSection, cString_eq_self hnul, List.take_of_length_le]
  simp [CConfig.headerLine, ascii]
  omega

theorem fitsBuffer (hname : IsArgument name) (hkey : IsArgument key) (hvalue : IsArgument value) :
    FitsBuffer (CConfig.headerLine name) key value := by
  have hnameLength := hname.short
  have hkeyLength := hkey.cString_isLine.2
  have hvalueLength := hvalue.cString_isLine.2
  unfold FitsBuffer CConfig.headerLine assignment
  simp [ascii]
  omega

/-- The file that was written, as rows. -/
theorem WriteRun.exists_rows
    (hrun : WriteRun files files' filename text config config' name key value)
    (hnul : 0 ∉ trim isBlank name) :
    ∃ rows, files' filename = some (joinLines rows) ∧
      rewriteRows (CConfig.headerLine (trim isBlank name)) (trim isBlank key) (trim isBlank value)
        (rowsOf text) = some rows := by
  obtain ⟨-, hread, -⟩ := hrun.iniText.rows_spec
  have hspec := writeRows_addMissing
    (fitsBuffer hrun.nameArgument hrun.keyArgument hrun.valueArgument) [] (readRows text)
  rw [hread, joinLines_nil] at hspec
  have hwrite := hrun.written
  unfold CConfig.writeProfileString at hwrite
  split_ifs at hwrite with hpath
  · simp at hwrite
  · rw [hrun.filePath_eq, hrun.file] at hwrite
    simp only [hrun.nameArgument.formatSection_eq hnul] at hwrite
    simp only [Option.bind_eq_bind, Option.bind_eq_some_iff, Option.some.injEq,
      Prod.mk.injEq] at hwrite
    obtain ⟨state, hstate, context, hcontext, -, rfl, -⟩ := hwrite
    rw [hstate, Option.bind_some, hcontext] at hspec
    obtain ⟨rows, hrows, hjoin⟩ := Option.map_eq_some_iff.mp hspec.symm
    exact ⟨rows, by rw [Function.update_self, ← hjoin, List.nil_append], hrows⟩

/-- Loading the file that was written: the rows it has now, and what they set. -/
theorem WriteRun.reload
    (hrun : WriteRun files files' filename text config config' name key value)
    (hname : 0 ∉ trim isBlank name) (hkey : 0 ∉ trim isBlank key) :
    ∃ reader kinds, CConfig.load files' .new filename = some (.success, reader) ∧
      Written (trim isBlank name) (trim isBlank key) (trim isBlank (cString (trim isBlank value)))
        (rowsOf text) kinds ∧
      ∀ other setting, valueIn reader.configMap other setting =
        settingIn other setting none kinds := by
  obtain ⟨hclean, -, hload⟩ := hrun.iniText.rows_spec
  obtain ⟨rows, hfile, hrows⟩ := hrun.exists_rows hname
  have hisRow := isRow_of_rewriteRows hrun.nameArgument hrun.keyArgument hrun.valueArgument hclean
    hrows
  have hvalue := hrun.valueArgument
  have hplain : newline ∉ trim isBlank value ∧ hash ∉ trim isBlank value :=
    ⟨hvalue.isLine.1, fun hmem => hvalue.plain _ hmem (by decide)⟩
  have hassign := lineKind_assignment hrun.keyArgument hkey hvalue.trimmed.first hplain
    hvalue.short
  have happend : lineKind (assignment (cString (trim isBlank key))
      (cString (trim isBlank value))) =
      .setting (trim isBlank key) (trim isBlank (cString (trim isBlank value))) := by
    have hcut := lineKind_assignment hrun.keyArgument hkey
      (head?_cString hvalue.trimmed.first)
      ⟨fun hmem => hplain.1 (List.takeWhile_subset _ hmem),
        fun hmem => hplain.2 (List.takeWhile_subset _ hmem)⟩ hvalue.cString_isLine.2
    rw [cString_eq_self (zero_not_mem_cString _)] at hcut
    rw [cString_eq_self hkey, hcut]
  have hwritten := written_of_rewriteRows hrun.nameArgument hname hrun.keyArgument hclean hassign
    happend hrows
  have haccepted : Accepted none (kindsOf (rowsOf text)) := by
    have hloaded := ((load_eq_some hrun.file).mp hrun.loaded).1
    rw [hload] at hloaded
    exact accepted_of_loadKinds hloaded
  obtain ⟨map, hmap, hvalues⟩ :=
    @loadKinds_of_accepted (rows.map lineKind) ⟨.empty, none⟩ (accepted_written haccepted hwritten)
  refine ⟨⟨filename, map⟩, rows.map lineKind, ?_, hwritten, ?_⟩
  · rw [load_eq_some hfile, loadRows_of_isRow _ hisRow]
    exact ⟨hmap, rfl⟩
  · intro other setting
    rw [hvalues]
    rfl

/-- A loaded configuration whose writing succeeds. -/
theorem exists_writeRun (hfile : files filename = some text) (htext : IniText text)
    (hload : CConfig.load files .new filename = some (.success, config))
    (hname : IsArgument (trim isBlank name)) (hkey : IsArgument (trim isBlank key))
    (hvalue : IsArgument (trim isBlank value))
    (hwrite : (config.writeProfileString files name key value).map Prod.fst = some .success) :
    ∃ files' config', WriteRun files files' filename text config config' name key value := by
  obtain ⟨⟨code, files', config'⟩, hresult, hcode⟩ := Option.map_eq_some_iff.mp hwrite
  obtain rfl : code = .success := hcode
  exact ⟨files', config', hfile, htext, hload, hname, hkey, hvalue, hresult⟩

/-! ## Names and values that can be read -/

/-- What a row can say, whatever the file. -/
def RowKind.Readable : RowKind → Prop
  | .header name => Trimmed isBlank name ∧ 0 ∉ name
  | .setting key value => Trimmed isBlank key ∧ 0 ∉ key ∧ 0 ∉ value
  | _ => True

theorem readable_ofValue {str : Bytes} (hnul : 0 ∉ str) :
    (RowKind.ofValue (parseValue str)).Readable := by
  have hmem : ∀ pos count, ∀ char ∈ trim isBlank (substr (trim isBlank str) pos count),
      char ∈ str := by
    intro pos count char hchar
    exact mem_of_mem_trim (List.mem_of_mem_drop (List.mem_of_mem_take (mem_of_mem_trim hchar)))
  unfold parseValue
  simp only
  split_ifs
  · trivial
  · trivial
  · cases find (trim isBlank str) equals with
    | none => trivial
    | some pos =>
        cases find (trim isBlank str) hash with
        | none =>
            exact ⟨trimmed_trim _, fun h => hnul (hmem _ _ _ h), fun h => hnul (hmem _ _ _ h)⟩
        | some pos1 =>
            simp only
            split_ifs
            · exact ⟨trimmed_trim _, fun h => hnul (hmem _ _ _ h), fun h => hnul (hmem _ _ _ h)⟩
            · trivial

theorem readable_ofRow {str : Bytes} (hnul : 0 ∉ str) : (RowKind.ofRow str).Readable := by
  have hleft : ∀ char ∈ trimLeft isBlank str, char ∈ str := fun char hchar =>
    List.dropWhile_subset _ hchar
  unfold RowKind.ofRow getSectionName
  simp only
  split_ifs
  · exact readable_ofValue fun hmem => hnul (hleft _ hmem)
  · trivial
  · refine ⟨trimmed_trim _, fun hmem => hnul (hleft _ ?_)⟩
    have hright := List.mem_of_mem_drop (List.mem_of_mem_take (mem_of_mem_trim hmem))
    exact (List.rdropWhile_prefix _ _).subset hright

theorem mem_header_of_settingIn {current : Option Bytes} {kinds : List RowKind}
    (hsetting : settingIn name key current kinds = some value) :
    current = some name ∨ RowKind.header name ∈ kinds := by
  induction kinds generalizing current with
  | nil => simp [settingIn] at hsetting
  | cons kind rest ih =>
      cases kind with
      | header opened =>
          rcases ih hsetting with hopened | hmem
          · rw [Option.some.inj hopened]
            exact Or.inr List.mem_cons_self
          · exact Or.inr (List.mem_cons_of_mem _ hmem)
      | setting other old =>
          rw [settingIn] at hsetting
          split_ifs at hsetting with hhere
          · exact Or.inl hhere.1
          · exact (ih hsetting).imp_right (List.mem_cons_of_mem _)
      | _ => exact (ih hsetting).imp_right (List.mem_cons_of_mem _)

/-- What can be found in a configuration that was loaded from a file. -/
theorem readable_of_load {reader : CConfig}
    (hload : CConfig.load files .new filename = some (.success, reader))
    (hvalue : valueIn reader.configMap name key = some value) :
    (Trimmed isBlank name ∧ 0 ∉ name) ∧ Trimmed isBlank key ∧ 0 ∉ key ∧ 0 ∉ value := by
  cases hfile : files filename with
  | none => simp [CConfig.load, hfile] at hload
  | some file =>
      have hrows := ((load_eq_some hfile).mp hload).1
      rw [loadRows_eq_loadKinds] at hrows
      obtain ⟨map, hmap, hvalues⟩ := loadKinds_of_accepted (accepted_of_loadKinds hrows)
      obtain ⟨-, rfl⟩ := Prod.mk.inj (Option.some.inj (hrows.symm.trans hmap))
      rw [hvalues] at hvalue
      have hsetting : settingIn name key none
          ((readRows file).map fun data => RowKind.ofRow (cString data)) = some value := hvalue
      have hreadable : ∀ kind ∈ (readRows file).map fun data => RowKind.ofRow (cString data),
          kind.Readable := by
        intro kind hkind
        obtain ⟨data, -, rfl⟩ := List.mem_map.mp hkind
        exact readable_ofRow (zero_not_mem_cString data)
      have hheader := (mem_header_of_settingIn hsetting).resolve_left (by simp)
      exact ⟨hreadable _ hheader, hreadable _ (settingIn_mem hsetting)⟩

/-! ## The setting that was written -/

/-- The file loads, and the setting reads back from it as from the map of the writer. -/
def ReadsBack (files : Files) (filename : Bytes) (writer : CConfig) (name key value : Bytes) :
    Prop :=
  ∃ reader, CConfig.load files .new filename = some (.success, reader) ∧
    ∀ default, reader.getString name key default = (.success, value) ∧
      writer.getString name key default = (.success, value)

/-- The arguments have no null byte and the row that is written is the one that counts. -/
def ReadBackCondition (text name key value : Bytes) : Prop :=
  (0 ∉ name ∧ 0 ∉ key ∧ 0 ∉ value) ∧ WritesThrough name key value (rowsOf text)

instance (text name key value : Bytes) : Decidable (ReadBackCondition text name key value) :=
  inferInstanceAs (Decidable ((0 ∉ name ∧ 0 ∉ key ∧ 0 ∉ value) ∧
    WritesThrough name key value (rowsOf text)))

theorem ReadsBack.readable
    (hreads : ReadsBack files filename config name key value) :
    (Trimmed isBlank name ∧ 0 ∉ name) ∧ Trimmed isBlank key ∧ 0 ∉ key ∧ 0 ∉ value := by
  obtain ⟨reader, hload, hget⟩ := hreads
  exact readable_of_load hload ((getString_eq_success reader []).mp (hget []).1)

theorem WriteRun.readsBack_trimmed_iff
    (hrun : WriteRun files files' filename text config config' name key value) :
    ReadsBack files' filename config' (trim isBlank name) (trim isBlank key) (trim isBlank value) ↔
      ReadBackCondition text (trim isBlank name) (trim isBlank key) (trim isBlank value) := by
  obtain ⟨hclean, -⟩ := hrun.iniText.rows_spec
  constructor
  · intro hreads
    obtain ⟨⟨-, hname⟩, -, hkey, hvalue⟩ := hreads.readable
    refine ⟨⟨hname, hkey, hvalue⟩, ?_⟩
    obtain ⟨reader, kinds, hload, hwritten, hvalues⟩ := hrun.reload hname hkey
    obtain ⟨reader', hload', hget⟩ := hreads
    obtain ⟨-, rfl⟩ := Prod.mk.inj (Option.some.inj (hload.symm.trans hload'))
    have hfound := (getString_eq_success reader []).mp (hget []).1
    rw [hvalues] at hfound
    rw [cString_eq_self hvalue, trim_trim] at hwritten
    exact (settingIn_written hclean hwritten).mp hfound
  · rintro ⟨⟨hname, hkey, hvalue⟩, hcondition⟩
    obtain ⟨reader, kinds, hload, hwritten, hvalues⟩ := hrun.reload hname hkey
    rw [cString_eq_self hvalue, trim_trim] at hwritten
    have hfound := (settingIn_written hclean hwritten).mpr hcondition
    rw [← hvalues] at hfound
    refine ⟨reader, hload, fun default => ⟨?_, ?_⟩⟩
    · exact (getString_eq_success reader default).mpr hfound
    · exact (getString_eq_success config' default).mpr hrun.valueIn_writer

/-- A written setting reads back, from the file and from the writer, exactly if its row is
the one that counts; under names with blanks around them it is not found at all. -/
theorem writeProfileString_readsBack_iff
    (hrun : WriteRun files files' filename text config config' name key value) :
    (ReadsBack files' filename config' (trim isBlank name) (trim isBlank key)
        (trim isBlank value) ↔
      ReadBackCondition text (trim isBlank name) (trim isBlank key) (trim isBlank value)) ∧
    (ReadsBack files' filename config' name key (trim isBlank value) ↔
      (trim isBlank name = name ∧ trim isBlank key = key) ∧
        ReadBackCondition text name key (trim isBlank value)) := by
  refine ⟨hrun.readsBack_trimmed_iff, ?_⟩
  have htrimmed := hrun.readsBack_trimmed_iff
  constructor
  · intro hreads
    obtain ⟨⟨hname, -⟩, hkey, -⟩ := hreads.readable
    rw [hname.trim_eq, hkey.trim_eq] at htrimmed
    exact ⟨⟨hname.trim_eq, hkey.trim_eq⟩, htrimmed.mp hreads⟩
  · rintro ⟨⟨hname, hkey⟩, hcondition⟩
    rw [hname, hkey] at htrimmed
    exact htrimmed.mpr hcondition

/-- The key is found with a comment after its value, and once more in the next section. -/
theorem writeProfileString_readsBack_replaced :
    let text := ascii "[a]\nx = 1\n [s]\n; old\nkey= 1 # note\n[b]\nkey = 3\n"
    let files : Files := Function.update (fun _ => none) (ascii "f") (some text)
    let config : CConfig := ⟨ascii "f", ⟨[(ascii "a", ⟨[(ascii "x", ascii "1")], by decide⟩),
      (ascii "b", ⟨[(ascii "key", ascii "3")], by decide⟩),
      (ascii "s", ⟨[(ascii "key", ascii "1")], by decide⟩)], by decide⟩⟩
    ∃ files' config', WriteRun files files' (ascii "f") text config config' (ascii "s ")
        (ascii "key") (ascii " 2") ∧
      ReadsBack files' (ascii "f") config' (ascii "s") (ascii "key") (ascii "2") := by
  intro text files config
  obtain ⟨files', config', hrun⟩ := @exists_writeRun files (ascii "f") text (ascii "s ")
    (ascii "key") (ascii " 2") config rfl ⟨by decide, by decide, by decide⟩ rfl
    ⟨trimmed_trim _, by decide, by decide, by decide⟩
    ⟨trimmed_trim _, by decide, by decide, by decide⟩
    ⟨trimmed_trim _, by decide, by decide, by decide⟩ (by decide +kernel)
  exact ⟨files', config', hrun,
    (writeProfileString_readsBack_iff hrun).1.mpr (by decide +kernel)⟩

/-- A key that is part of another key of the section is not written at all. -/
theorem writeProfileString_missesKey :
    let text := ascii "[s]\nmykey = 1\n"
    let files : Files := Function.update (fun _ => none) (ascii "f") (some text)
    let config : CConfig :=
      ⟨ascii "f", ⟨[(ascii "s", ⟨[(ascii "mykey", ascii "1")], by decide⟩)], by decide⟩⟩
    ∃ files' config', WriteRun files files' (ascii "f") text config config' (ascii "s")
        (ascii "key") (ascii "2") ∧
      ¬ ReadsBack files' (ascii "f") config' (ascii "s") (ascii "key") (ascii "2") := by
  intro text files config
  obtain ⟨files', config', hrun⟩ := @exists_writeRun files (ascii "f") text (ascii "s")
    (ascii "key") (ascii "2") config rfl ⟨by decide, by decide, by decide⟩ rfl
    ⟨trimmed_trim _, by decide, by decide, by decide⟩
    ⟨trimmed_trim _, by decide, by decide, by decide⟩
    ⟨trimmed_trim _, by decide, by decide, by decide⟩ (by decide +kernel)
  refine ⟨files', config', hrun, fun hreads => ?_⟩
  have hcondition := hrun.readsBack_trimmed_iff.mp hreads
  exact absurd hcondition (by decide +kernel)

/-! ## The settings that were not written -/

/-- The file loads, and every other setting is as it was before. -/
def OthersKept (files : Files) (filename : Bytes) (config : CConfig) (name key : Bytes) : Prop :=
  ∃ reader, CConfig.load files .new filename = some (.success, reader) ∧
    ∀ other setting, ¬ (other = name ∧ setting = key) → ∀ default,
      reader.getString other setting default = config.getString other setting default

theorem valueIn_eq_of_getString {first second : CConfig}
    (hsame : ∀ default, first.getString name key default = second.getString name key default) :
    valueIn first.configMap name key = valueIn second.configMap name key := by
  have hhere := hsame []
  rw [getString_eq, getString_eq] at hhere
  cases hfirst : valueIn first.configMap name key with
  | none =>
      cases hsecond : valueIn second.configMap name key with
      | none => rfl
      | some value => simp [hfirst, hsecond] at hhere
  | some value =>
      cases hsecond : valueIn second.configMap name key with
      | none => simp [hfirst, hsecond] at hhere
      | some value' =>
          simp only [hfirst, hsecond, Prod.mk.injEq, true_and] at hhere
          rw [hhere]

/-- The rows that are overwritten are the header of the section and a row of it. -/
def InPlaceCondition (text name key value : Bytes) : Prop :=
  (0 ∉ name ∧ 0 ∉ key) ∧ HeaderFound name (rowsOf text) ∧
    SettingInPlace name key (trim isBlank (cString value)) (rowsOf text)

instance (text name key value : Bytes) : Decidable (InPlaceCondition text name key value) :=
  inferInstanceAs (Decidable ((0 ∉ name ∧ 0 ∉ key) ∧ HeaderFound name (rowsOf text) ∧
    SettingInPlace name key (trim isBlank (cString value)) (rowsOf text)))

theorem WriteRun.othersKept_iff
    (hrun : WriteRun files files' filename text config config' name key value)
    (hnul : 0 ∉ trim isBlank name ∧ 0 ∉ trim isBlank key)
    (hheader : HeaderFound (trim isBlank name) (rowsOf text)) :
    OthersKept files' filename config (trim isBlank name) (trim isBlank key) ↔
      SettingInPlace (trim isBlank name) (trim isBlank key)
        (trim isBlank (cString (trim isBlank value))) (rowsOf text) := by
  obtain ⟨hclean, -⟩ := hrun.iniText.rows_spec
  obtain ⟨reader, kinds, hload, hwritten, hvalues⟩ := hrun.reload hnul.1 hnul.2
  constructor
  · rintro ⟨reader', hload', hsame⟩
    obtain ⟨-, rfl⟩ := Prod.mk.inj (Option.some.inj (hload.symm.trans hload'))
    apply settingInPlace_of_others hclean (trimmed_trim _) hheader hwritten
    intro other setting hne
    rw [← hvalues, ← hrun.valueIn_config]
    exact valueIn_eq_of_getString (hsame other setting hne)
  · intro hplace
    refine ⟨reader, hload, fun other setting hne default => ?_⟩
    rw [getString_eq, getString_eq, hvalues, hrun.valueIn_config,
      settingIn_other (trimmed_trim _) hheader hplace hwritten hne]

/-- Writing a setting in place leaves all others alone; and where the first row that
mentions the header is the header, only then. -/
theorem writeProfileString_othersKept
    (hrun : WriteRun files files' filename text config config' name key value) :
    (InPlaceCondition text (trim isBlank name) (trim isBlank key) (trim isBlank value) →
      OthersKept files' filename config (trim isBlank name) (trim isBlank key)) ∧
    ((0 ∉ trim isBlank name ∧ 0 ∉ trim isBlank key) →
      HeaderFound (trim isBlank name) (rowsOf text) →
      OthersKept files' filename config (trim isBlank name) (trim isBlank key) →
      InPlaceCondition text (trim isBlank name) (trim isBlank key) (trim isBlank value)) := by
  constructor
  · rintro ⟨hnul, hheader, hplace⟩
    exact (hrun.othersKept_iff hnul hheader).mpr hplace
  · intro hnul hheader hkept
    exact ⟨hnul, hheader, (hrun.othersKept_iff hnul hheader).mp hkept⟩

theorem writeProfileString_othersKept_replaced :
    let text := ascii "[a]\nkey = 1\n[s]\n\nkey= 1\n[b]\nkey = 3\n"
    let files : Files := Function.update (fun _ => none) (ascii "f") (some text)
    let config : CConfig := ⟨ascii "f", ⟨[(ascii "a", ⟨[(ascii "key", ascii "1")], by decide⟩),
      (ascii "b", ⟨[(ascii "key", ascii "3")], by decide⟩),
      (ascii "s", ⟨[(ascii "key", ascii "1")], by decide⟩)], by decide⟩⟩
    ∃ files' config', WriteRun files files' (ascii "f") text config config' (ascii "s")
        (ascii "key") (ascii "2") ∧
      OthersKept files' (ascii "f") config (ascii "s") (ascii "key") := by
  intro text files config
  obtain ⟨files', config', hrun⟩ := @exists_writeRun files (ascii "f") text (ascii "s")
    (ascii "key") (ascii "2") config rfl ⟨by decide, by decide, by decide⟩ rfl
    ⟨trimmed_trim _, by decide, by decide, by decide⟩
    ⟨trimmed_trim _, by decide, by decide, by decide⟩
    ⟨trimmed_trim _, by decide, by decide, by decide⟩ (by decide +kernel)
  exact ⟨files', config', hrun, (writeProfileString_othersKept hrun).1 (by decide +kernel)⟩

/-- A section that does not have the key yet: the key of the next section is overwritten. -/
theorem writeProfileString_overwritesOther :
    let text := ascii "[s]\nx = 1\n[b]\nkey = 3\n"
    let files : Files := Function.update (fun _ => none) (ascii "f") (some text)
    let config : CConfig := ⟨ascii "f", ⟨[(ascii "b", ⟨[(ascii "key", ascii "3")], by decide⟩),
      (ascii "s", ⟨[(ascii "x", ascii "1")], by decide⟩)], by decide⟩⟩
    ∃ files' config', WriteRun files files' (ascii "f") text config config' (ascii "s")
        (ascii "key") (ascii "2") ∧
      ¬ OthersKept files' (ascii "f") config (ascii "s") (ascii "key") := by
  intro text files config
  obtain ⟨files', config', hrun⟩ := @exists_writeRun files (ascii "f") text (ascii "s")
    (ascii "key") (ascii "2") config rfl ⟨by decide, by decide, by decide⟩ rfl
    ⟨trimmed_trim _, by decide, by decide, by decide⟩
    ⟨trimmed_trim _, by decide, by decide, by decide⟩
    ⟨trimmed_trim _, by decide, by decide, by decide⟩ (by decide +kernel)
  refine ⟨files', config', hrun, fun hkept => ?_⟩
  have hplace := (hrun.othersKept_iff (by decide) (by decide +kernel)).mp hkept
  exact absurd hplace (by decide +kernel)

end Wnet.Config
