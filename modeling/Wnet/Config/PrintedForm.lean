import Wnet.Config.Rows

/-!
# The printed form of a configuration

`ToString` prints a configuration in the format that `Load` reads. The names, keys
and values that `Load` can find in lines are such that the printed lines say the
same again.
-/

namespace Wnet.Config

open Foundation

/-- The name of a section as `Load` finds it. -/
structure IsName (name : Bytes) : Prop where
  trimmed : Trimmed isBlank name
  noNewline : newline ∉ name
  noNul : 0 ∉ name

/-- A key and a value as `Load` finds them in a line. -/
structure IsSetting (key value : Bytes) : Prop where
  keyTrimmed : Trimmed isBlank key
  valueTrimmed : Trimmed isBlank value
  noEquals : equals ∉ key
  notBracket : key.head? ≠ some openBracket
  notHash : key.head? ≠ some hash
  notSemicolon : key.head? ≠ some semicolon
  -- `#` ends a value, but not if another one comes before the sign
  hashes : hash ∈ value → hash ∈ key
  noNewline : newline ∉ key ++ value
  noNul : 0 ∉ key ++ value

variable {row name key value : Bytes}

theorem isName_of_header (hnewline : newline ∉ row) (hnul : 0 ∉ row)
    (hkind : RowKind.ofLine row = .header name) : IsName name := by
  unfold RowKind.ofLine at hkind
  split_ifs at hkind
  · obtain rfl := RowKind.header.inj hkind
    have hmem : ∀ char ∈ trim isBlank (substr row 1 (row.length - 2)), char ∈ row := by
      intro char hchar
      exact List.mem_of_mem_drop (List.mem_of_mem_take (mem_of_mem_trim hchar))
    exact ⟨trimmed_trim _, fun h => hnewline (hmem _ h), fun h => hnul (hmem _ h)⟩
  · rcases hparse : parseValue row with _ | ⟨_ | _ | _, _, _⟩
    all_goals simp [hparse, RowKind.ofValue] at hkind

theorem parseValue_of_setting (hkind : RowKind.ofLine row = .setting key value) :
    row.head? ≠ some openBracket ∧ parseValue row = some (.success, key, value) := by
  unfold RowKind.ofLine at hkind
  split_ifs at hkind with hbracket
  refine ⟨hbracket, ?_⟩
  rcases hparse : parseValue row with _ | ⟨_ | _ | _, key', value'⟩
  all_goals simp_all [RowKind.ofValue]

/-- The first character of a key is the first of its line. -/
theorem Cut.head?_key {left right middle : Bytes} (hcut : Cut row key value left right middle)
    (htrimmed : Trimmed isBlank row) {char : UInt8} (hchar : key.head? = some char) :
    row.head? = some char := by
  rw [hcut.key] at hchar
  cases left with
  | nil => simp [trim, trimLeft, trimRight] at hchar
  | cons first others =>
      have hfirst : ¬ isBlank first := by
        apply htrimmed.first
        rw [hcut.cut]
        rfl
      rw [head?_trim_cons hfirst] at hchar
      rw [hcut.cut]
      exact hchar

theorem isSetting_of_setting (htrimmed : Trimmed isBlank row) (hlength : row.length < 4096)
    (hnewline : newline ∉ row) (hnul : 0 ∉ row)
    (hkind : RowKind.ofLine row = .setting key value) : IsSetting key value := by
  obtain ⟨hbracket, hparse⟩ := parseValue_of_setting hkind
  obtain ⟨left, right, middle, hcut⟩ := exists_cut_of_parseValue hlength hparse
  rw [htrimmed.trim_eq] at hcut
  have hkeyMem : ∀ char ∈ key, char ∈ left := by
    intro char hchar
    rw [hcut.key] at hchar
    exact mem_of_mem_trim hchar
  have hvalueMem : ∀ char ∈ value, char ∈ middle := by
    intro char hchar
    rw [hcut.value] at hchar
    exact mem_of_mem_trim hchar
  have hmem : ∀ char ∈ key ++ value, char ∈ row := by
    intro char hchar
    rw [hcut.cut]
    rcases List.mem_append.mp hchar with hkey | hvalue
    · exact List.mem_append_left _ (hkeyMem char hkey)
    · apply List.mem_append_right
      exact List.mem_cons_of_mem _ (hcut.within.subset (hvalueMem char hvalue))
  refine ⟨?_, ?_, ?_, ?_, ?_, ?_, ?_, ?_, ?_⟩
  · rw [hcut.key]
    exact trimmed_trim _
  · rw [hcut.value]
    exact trimmed_trim _
  · exact fun hequals => hcut.noEquals (hkeyMem _ hequals)
  · exact fun hhead => hbracket (hcut.head?_key htrimmed hhead)
  · exact fun hhead => hcut.assignable.notHash (hcut.head?_key htrimmed hhead)
  · exact fun hhead => hcut.assignable.notSemicolon (hcut.head?_key htrimmed hhead)
  · intro hhash
    rw [hcut.key]
    exact mem_trim (hcut.hashes (hvalueMem _ hhash)) (by decide)
  · exact fun hchar => hnewline (hmem _ hchar)
  · exact fun hchar => hnul (hmem _ hchar)

/-! ## Printed lines -/

theorem getLast?_headerLine (name : Bytes) :
    (CConfig.headerLine name).getLast? = some closeBracket := by
  rw [CConfig.headerLine, List.getLast?_append_of_ne_nil _ (by decide)]
  rfl

theorem trimmed_headerLine (name : Bytes) : Trimmed isBlank (CConfig.headerLine name) := by
  constructor
  · rintro char ⟨rfl⟩
    decide
  · intro char hchar
    rw [getLast?_headerLine] at hchar
    obtain rfl := Option.some.inj hchar
    decide

theorem ofLine_headerLine (htrimmed : Trimmed isBlank name) :
    RowKind.ofLine (CConfig.headerLine name) = .header name := by
  have hhead : (CConfig.headerLine name).head? = some openBracket := rfl
  have hname : substr (CConfig.headerLine name) 1 ((CConfig.headerLine name).length - 2) =
      name := by
    simp [CConfig.headerLine, ascii, substr]
  rw [RowKind.ofLine, if_pos hhead, if_pos (getLast?_headerLine name), hname, htrimmed.trim_eq]

/-- What stands before the sign of a printed setting, without the blanks at the ends of
the line, and what stands after it. -/
def beforeSign (key : Bytes) : Bytes := if key = [] then [] else key ++ [space]

def afterSign (value : Bytes) : Bytes := if value = [] then [] else space :: value

theorem trim_beforeSign (htrimmed : Trimmed isBlank key) :
    trim isBlank (beforeSign key) = key := by
  unfold beforeSign
  split_ifs with hempty
  · rw [hempty]
    rfl
  · rw [trim_append (by decide), htrimmed.trim_eq]

theorem trim_afterSign (htrimmed : Trimmed isBlank value) :
    trim isBlank (afterSign value) = value := by
  unfold afterSign
  split_ifs with hempty
  · rw [hempty]
    rfl
  · rw [← List.singleton_append, trim_blanks_append (by decide), htrimmed.trim_eq]

theorem head?_assignment (key value : Bytes) :
    (beforeSign key ++ equals :: afterSign value).head? = key.head?.or (some equals) := by
  unfold beforeSign
  cases key <;> simp

theorem trimmed_assignment (hkey : Trimmed isBlank key) (hvalue : Trimmed isBlank value) :
    Trimmed isBlank (beforeSign key ++ equals :: afterSign value) := by
  constructor
  · intro char hchar
    rw [head?_assignment] at hchar
    cases hhead : key.head? with
    | none =>
        rw [hhead] at hchar
        obtain rfl := Option.some.inj hchar
        decide
    | some first =>
        rw [hhead] at hchar
        exact hkey.first char (hhead.trans hchar)
  · intro char hchar
    rw [List.getLast?_append_of_ne_nil _ (List.cons_ne_nil _ _)] at hchar
    unfold afterSign at hchar
    split_ifs at hchar with hempty
    · obtain rfl := Option.some.inj hchar
      decide
    · rw [List.getLast?_cons_cons, ← List.singleton_append,
        List.getLast?_append_of_ne_nil _ hempty] at hchar
      exact hvalue.last char hchar

theorem ofLine_assignment (hsetting : IsSetting key value)
    (hlength : (beforeSign key ++ equals :: afterSign value).length < 4096) :
    RowKind.ofLine (beforeSign key ++ equals :: afterSign value) = .setting key value := by
  have htrimmed := trimmed_assignment hsetting.keyTrimmed hsetting.valueTrimmed
  have hhead : ∀ char, key.head? ≠ some char → char ≠ equals →
      (beforeSign key ++ equals :: afterSign value).head? ≠ some char := by
    intro char hnot hsign
    rw [head?_assignment]
    cases hkey : key.head? with
    | none => simpa using hsign.symm
    | some first => simpa [hkey] using hnot
  have hassignable : Assignable (beforeSign key ++ equals :: afterSign value) := by
    refine ⟨by simp, ?_, ?_⟩
    · exact hhead hash hsetting.notHash (by decide)
    · exact hhead semicolon hsetting.notSemicolon (by decide)
  have hleft : equals ∉ beforeSign key := by
    unfold beforeSign
    split_ifs
    · exact List.not_mem_nil
    · rw [List.mem_append, List.mem_singleton]
      exact not_or.mpr ⟨hsetting.noEquals, by decide⟩
  have hhash : hash ∈ beforeSign key ∨ hash ∉ afterSign value := by
    by_cases hvalue : hash ∈ value
    · have hkey := hsetting.hashes hvalue
      left
      rw [beforeSign, if_neg (List.ne_nil_of_mem hkey)]
      exact List.mem_append_left _ hkey
    · right
      unfold afterSign
      split_ifs
      · exact List.not_mem_nil
      · rw [List.mem_cons]
        exact not_or.mpr ⟨by decide, hvalue⟩
  rw [RowKind.ofLine, if_neg (hhead openBracket hsetting.notBracket (by decide)),
    parseValue_of_cut hassignable htrimmed hleft hlength hhash,
    trim_beforeSign hsetting.keyTrimmed, trim_afterSign hsetting.valueTrimmed, RowKind.ofValue]

/-- Blanks around the sign of a setting change nothing. -/
theorem trim_settingLine (hkey : Trimmed isBlank key) (hvalue : Trimmed isBlank value) :
    trim isBlank (CConfig.settingLine key value) =
      beforeSign key ++ equals :: afterSign value := by
  have htrimmed := trimmed_assignment hkey hvalue
  have hshape : ∃ before after, CConfig.settingLine key value =
      before ++ (beforeSign key ++ equals :: afterSign value) ++ after ∧
      (∀ char ∈ before, isBlank char) ∧ ∀ char ∈ after, isBlank char := by
    by_cases hemptyKey : key = [] <;> by_cases hemptyValue : value = []
    · subst hemptyKey hemptyValue
      exact ⟨ascii "     ", ascii " ", by decide, by decide, by decide⟩
    · subst hemptyKey
      refine ⟨ascii "     ", [], ?_, by decide, by simp⟩
      simp [CConfig.settingLine, beforeSign, afterSign, hemptyValue, ascii]
    · subst hemptyValue
      refine ⟨ascii "    ", ascii " ", ?_, by decide, by decide⟩
      simp [CConfig.settingLine, beforeSign, afterSign, hemptyKey, ascii]
    · refine ⟨ascii "    ", [], ?_, by decide, by simp⟩
      simp [CConfig.settingLine, beforeSign, afterSign, hemptyKey, hemptyValue, ascii]
  obtain ⟨before, after, hline, hbefore, hafter⟩ := hshape
  rw [hline, trim_eq_of_blanks hbefore hafter htrimmed]

/-! ## Loaded maps -/

/-- A map that `Load` can build from lines. -/
def IsLoaded (map : ConfigMap) : Prop :=
  ∀ entry ∈ map.entries, IsName entry.1 ∧
    ∀ setting ∈ entry.2.entries, IsSetting setting.1 setting.2

/-- What the kind of a line can be. -/
def RowKind.FromLine : RowKind → Prop
  | .header name => IsName name
  | .setting key value => IsSetting key value
  | _ => True

theorem fromLine_ofLine (htrimmed : Trimmed isBlank row) (hlength : row.length < 4096)
    (hnewline : newline ∉ row) (hnul : 0 ∉ row) : (RowKind.ofLine row).FromLine := by
  cases hkind : RowKind.ofLine row with
  | header name => exact isName_of_header hnewline hnul hkind
  | setting key value => exact isSetting_of_setting htrimmed hlength hnewline hnul hkind
  | ignored => trivial
  | malformed => trivial
  | aborts => trivial

theorem isLoaded_insert {map : ConfigMap} (hmap : IsLoaded map) (hname : IsName name) :
    IsLoaded (map.insert name .empty) := by
  intro entry hentry
  rcases SortedMap.mem_alterEntries hentry with hold | ⟨hkey, hnew | ⟨inner, hinner, hchange⟩⟩
  · exact hmap entry hold
  · refine ⟨hkey ▸ hname, ?_⟩
    rw [hnew]
    exact fun setting hsetting => absurd hsetting List.not_mem_nil
  · refine ⟨hkey ▸ hname, ?_⟩
    rw [hchange]
    exact (hmap _ hinner).2

theorem isSetting_of_mem_insert {inner : SectionMap}
    (hinner : ∀ setting ∈ inner.entries, IsSetting setting.1 setting.2)
    (hsetting : IsSetting key value) :
    ∀ setting ∈ (inner.insert key value).entries, IsSetting setting.1 setting.2 := by
  intro setting hmem
  rcases SortedMap.mem_alterEntries hmem with hold | ⟨hkey, hnew | ⟨old, hold, hchange⟩⟩
  · exact hinner setting hold
  · rw [hkey, hnew]
    exact hsetting
  · rw [hkey, hchange]
    exact hinner _ hold

theorem isLoaded_insertSetting {state : LoadState} (hmap : IsLoaded state.configMap)
    (hname : IsName name) (hsetting : IsSetting key value) :
    IsLoaded (state.insertSetting name key value).configMap := by
  intro entry hentry
  rcases SortedMap.mem_alterEntries hentry with hold | ⟨hkey, hnew | ⟨inner, hinner, hchange⟩⟩
  · exact hmap entry hold
  · refine ⟨hkey ▸ hname, ?_⟩
    rw [hnew]
    apply isSetting_of_mem_insert _ hsetting
    exact fun setting hmem => absurd hmem List.not_mem_nil
  · refine ⟨hkey ▸ hname, ?_⟩
    rw [hchange]
    exact isSetting_of_mem_insert (hmap _ hinner).2 hsetting

theorem loadKinds_isLoaded {kinds : List RowKind} {state : LoadState} {code : ReturnCode}
    {map : ConfigMap} (hstate : IsLoaded state.configMap)
    (hpMap : ∀ name ∈ state.pMap, IsName name) (hkinds : ∀ kind ∈ kinds, kind.FromLine)
    (hload : loadKinds state kinds = some (code, map)) : IsLoaded map := by
  induction kinds generalizing state with
  | nil =>
      simp only [loadKinds, Option.some.injEq, Prod.mk.injEq] at hload
      exact hload.2 ▸ hstate
  | cons kind rest ih =>
      have hkind := hkinds kind List.mem_cons_self
      have hrest : ∀ other ∈ rest, other.FromLine := fun other hother =>
        hkinds other (List.mem_cons_of_mem _ hother)
      cases kind with
      | header name =>
          rw [loadKinds, enterSection_eq] at hload
          refine ih (isLoaded_insert hstate hkind) ?_ hrest hload
          rintro name' ⟨rfl⟩
          exact hkind
      | setting key value =>
          rw [loadKinds] at hload
          cases hcurrent : state.pMap with
          | none => simp [hcurrent] at hload
          | some current =>
              simp only [hcurrent] at hload
              have hnext := isLoaded_insertSetting hstate (hpMap current hcurrent) hkind
              exact ih hnext hpMap hrest hload
      | ignored => exact ih hstate hpMap hrest hload
      | malformed =>
          simp only [loadKinds, Option.some.injEq, Prod.mk.injEq] at hload
          exact hload.2 ▸ hstate
      | aborts => simp [loadKinds] at hload

/-! ## Loading what is printed -/

/-- The lines that are printed for a section. -/
def sectionLines (entry : Bytes × SectionMap) : List Bytes :=
  CConfig.headerLine entry.1 ::
    entry.2.entries.map fun setting => CConfig.settingLine setting.1 setting.2

/-- What the printed lines say. -/
def sectionKinds (entry : Bytes × SectionMap) : List RowKind :=
  .header entry.1 :: entry.2.entries.map fun setting => .setting setting.1 setting.2

theorem toString_eq_joinLines (config : CConfig) :
    config.toString = joinLines (config.configMap.entries.flatMap sectionLines ++ [[]]) := by
  have hsection : ∀ entry : Bytes × SectionMap,
      CConfig.headerLine entry.1 ++ ascii "\n" ++
        entry.2.entries.flatMap (fun setting =>
          CConfig.settingLine setting.1 setting.2 ++ ascii "\n") =
      joinLines (sectionLines entry) := by
    intro entry
    rw [sectionLines, joinLines_cons, joinLines, List.flatMap_map]
    simp [ascii]
  rw [joinLines_append]
  unfold CConfig.toString
  have hlast : joinLines [[]] = ascii "\n" := by decide
  rw [hlast]
  congr 1
  induction config.configMap.entries with
  | nil => rfl
  | cons entry rest ih =>
      rw [List.flatMap_cons, List.flatMap_cons, joinLines_append, ih, ← hsection]

theorem loadKinds_settings (map : ConfigMap) (name : Bytes) (settings : List (Bytes × Bytes))
    (rest : List RowKind) (inner : Option SectionMap → SectionMap) :
    loadKinds ⟨map.alter name inner, some name⟩
        (settings.map (fun setting => .setting setting.1 setting.2) ++ rest) =
      loadKinds ⟨map.alter name fun old =>
        settings.foldl (fun inner setting => inner.insert setting.1 setting.2) (inner old),
        some name⟩ rest := by
  induction settings generalizing inner with
  | nil => rfl
  | cons setting settings ih =>
      rw [List.map_cons, List.cons_append, loadKinds]
      simp only [LoadState.insertSetting, SortedMap.alter_alter, Option.getD_some]
      exact ih _

/-- Sections that come in order build the map up from its beginning. -/
theorem loadKinds_sections {entries : List (Bytes × SectionMap)} {map whole : ConfigMap}
    (current : Option Bytes) (hwhole : whole.entries = map.entries ++ entries) :
    loadKinds ⟨map, current⟩ (entries.flatMap sectionKinds ++ [.ignored]) =
      some (.success, whole) := by
  induction entries generalizing map current with
  | nil =>
      rw [List.append_nil] at hwhole
      rw [List.flatMap_nil, List.nil_append, loadKinds, loadKinds, SortedMap.ext hwhole]
  | cons entry rest ih =>
      have hgt : ∀ other ∈ map.entries, other.1 < entry.1 := by
        intro other hother
        have hsorted := whole.sorted
        rw [hwhole] at hsorted
        exact (List.pairwise_append.mp hsorted).2.2 other hother entry List.mem_cons_self
      rw [List.flatMap_cons, sectionKinds, List.cons_append, List.cons_append, loadKinds,
        enterSection_eq, SortedMap.insert, List.append_assoc, loadKinds_settings]
      apply ih
      have hsection : entry.2.entries.foldl
          (fun inner setting => inner.insert setting.1 setting.2) SortedMap.empty = entry.2 :=
        SortedMap.foldl_insert rfl
      rw [hwhole, SortedMap.entries_alter_of_gt _ _ hgt, Option.getD_none, hsection,
        List.append_assoc]
      rfl

theorem isLoaded_of_text {text : Bytes} {code : ReturnCode} {map : ConfigMap}
    (htext : IniText text)
    (hload : loadRows ⟨.empty, none⟩ (readRows text) = some (code, map)) : IsLoaded map := by
  obtain ⟨rows, rfl, hrows⟩ := htext.exists_rows
  rw [loadRows_joinLines _ hrows] at hload
  refine loadKinds_isLoaded ?_ ?_ ?_ hload
  · exact fun entry hentry => absurd hentry List.not_mem_nil
  · exact fun name hname => nomatch hname
  · intro kind hkind
    obtain ⟨row, hrow, rfl⟩ := List.mem_map.mp hkind
    obtain ⟨⟨hnewline, hlength⟩, hnul⟩ := hrows row hrow
    apply fromLine_ofLine (trimmed_trim row)
    · exact Nat.lt_of_le_of_lt (trim_isInfix row).length_le (Nat.lt_succ_of_lt hlength)
    · exact fun hmem => hnewline (mem_of_mem_trim hmem)
    · exact fun hmem => hnul (mem_of_mem_trim hmem)

theorem clean_sectionLines {entry : Bytes × SectionMap} (hname : IsName entry.1)
    (hsettings : ∀ setting ∈ entry.2.entries, IsSetting setting.1 setting.2) :
    ∀ row ∈ sectionLines entry, newline ∉ row ∧ 0 ∉ row := by
  intro row hrow
  rcases List.mem_cons.mp hrow with rfl | hsetting
  · have hnewline := hname.noNewline
    simp [CConfig.headerLine, ascii, hname.noNul]
    exact ⟨by decide, hnewline, by decide⟩
  · obtain ⟨setting, hmem, rfl⟩ := List.mem_map.mp hsetting
    have hnewline := (hsettings setting hmem).noNewline
    have hnul := (hsettings setting hmem).noNul
    simp only [List.mem_append, not_or] at hnewline hnul
    simp [CConfig.settingLine, ascii, hnewline, hnul]
    decide

/-- The printed lines of a loaded section say what they were printed for. -/
theorem ofLine_sectionLines {entry : Bytes × SectionMap} (hname : IsName entry.1)
    (hsettings : ∀ setting ∈ entry.2.entries, IsSetting setting.1 setting.2)
    (hlength : ∀ row ∈ sectionLines entry, row.length < 4095) :
    (sectionLines entry).map (fun row => RowKind.ofLine (trim isBlank row)) =
      sectionKinds entry := by
  rw [sectionLines, sectionKinds, List.map_cons, (trimmed_headerLine _).trim_eq,
    ofLine_headerLine hname.trimmed, List.map_map]
  congr 1
  apply List.map_congr_left
  intro setting hmem
  have hsetting := hsettings setting hmem
  have hline := trim_settingLine hsetting.keyTrimmed hsetting.valueTrimmed
  rw [Function.comp_apply, hline, ofLine_assignment hsetting]
  rw [← hline]
  apply Nat.lt_of_le_of_lt (trim_isInfix _).length_le
  exact Nat.lt_succ_of_lt (hlength _ (List.mem_cons_of_mem _ (List.mem_map_of_mem hmem)))

theorem ofLine_printed {entries : List (Bytes × SectionMap)}
    (hentries : ∀ entry ∈ entries, IsName entry.1 ∧
      ∀ setting ∈ entry.2.entries, IsSetting setting.1 setting.2)
    (hlength : ∀ row ∈ entries.flatMap sectionLines, row.length < 4095) :
    (entries.flatMap sectionLines).map (fun row => RowKind.ofLine (trim isBlank row)) =
      entries.flatMap sectionKinds := by
  rw [List.map_flatMap]
  apply List.flatMap_congr
  intro entry hentry
  obtain ⟨hname, hsettings⟩ := hentries entry hentry
  apply ofLine_sectionLines hname hsettings
  intro row hrow
  exact hlength row (List.mem_flatMap.mpr ⟨entry, hentry, hrow⟩)

/-- What `ToString` prints of a loaded configuration loads as the same configuration. -/
theorem load_toString {files files' : Files} {filename printed text : Bytes} {config : CConfig}
    (hfile : files filename = some text) (htext : IniText text)
    (hload : CConfig.load files .new filename = some (.success, config))
    (hshort : ∀ line ∈ lines config.toString, line.length < 4096)
    (hprinted : files' printed = some config.toString) :
    CConfig.load files' .new printed = some (.success, ⟨printed, config.configMap⟩) := by
  have hloaded : IsLoaded config.configMap := by
    rw [CConfig.load, hfile] at hload
    obtain ⟨⟨code, map⟩, hrows, hresult⟩ := Option.map_eq_some_iff.mp hload
    obtain ⟨-, rfl⟩ := Prod.mk.inj hresult
    exact isLoaded_of_text htext hrows
  have hclean : ∀ row ∈ config.configMap.entries.flatMap sectionLines ++ [[]],
      newline ∉ row ∧ 0 ∉ row := by
    intro row hrow
    rcases List.mem_append.mp hrow with hsection | hlast
    · obtain ⟨entry, hentry, hmem⟩ := List.mem_flatMap.mp hsection
      obtain ⟨hname, hsettings⟩ := hloaded entry hentry
      exact clean_sectionLines hname hsettings row hmem
    · simp [List.mem_singleton.mp hlast]
  have hlength : ∀ row ∈ config.configMap.entries.flatMap sectionLines ++ [[]],
      row.length < 4095 := by
    intro row hrow
    rw [toString_eq_joinLines, lines_joinLines fun row hrow => (hclean row hrow).1] at hshort
    have hline := hshort (row ++ [newline]) (List.mem_map_of_mem hrow)
    rw [List.length_append, List.length_singleton] at hline
    omega
  have hkinds := ofLine_printed hloaded fun row hrow =>
    hlength row (List.mem_append_left _ hrow)
  have hblank : RowKind.ofLine (trim isBlank []) = .ignored := by decide
  have hrows := loadRows_joinLines ⟨.empty, none⟩ fun row hrow =>
    ⟨⟨(hclean row hrow).1, hlength row hrow⟩, (hclean row hrow).2⟩
  have hmap : loadKinds ⟨.empty, none⟩
      (config.configMap.entries.flatMap sectionKinds ++ [.ignored]) =
      some (.success, config.configMap) := loadKinds_sections none rfl
  rw [List.map_append, hkinds, List.map_singleton, hblank, hmap, ← toString_eq_joinLines] at hrows
  rw [CConfig.load, hprinted]
  simp only [CConfig.new, hrows, Option.map_some]

/-- Sections that come twice, an empty one, blanks, comments, an empty value and a `#`
in a key. -/
theorem load_toString_mixed :
    let text := ascii
      "[b]\nx # y = 1 = #2\n[ ]\n\n ; note\n[a ]\nk= v # c\n[b]\nx # y = 3\nz =\n"
    let config : CConfig := ⟨ascii "f", ⟨[([], .empty),
      (ascii "a", ⟨[(ascii "k", ascii "v")], by decide⟩),
      (ascii "b", ⟨[(ascii "x # y", ascii "1 = #2"), (ascii "z", [])], by decide⟩)], by decide⟩⟩
    CConfig.load (fun _ => some text) .new (ascii "f") = some (.success, config) ∧
      CConfig.load (fun _ => some config.toString) .new (ascii "f") = some (.success, config) := by
  intro text config
  have htext : IniText text := ⟨by decide, by decide, by decide⟩
  have hload : CConfig.load (fun _ => some text) .new (ascii "f") = some (.success, config) := rfl
  have hshort : ∀ line ∈ lines config.toString, line.length < 4096 := by decide
  exact ⟨hload, @load_toString (fun _ => some text) (fun _ => some config.toString) (ascii "f")
    (ascii "f") text config rfl htext hload hshort rfl⟩

end Wnet.Config
