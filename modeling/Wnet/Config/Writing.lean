import Wnet.Config.PrintedForm

/-!
# Writing one setting

`WriteProfileString` copies the file row by row, without the blanks around the rows.
It looks for the header of the section and then for the key as pieces of rows, and
puts its own rows in the place of those it finds.
-/

namespace Wnet.Config

open Foundation

/-- The text is a piece of the row. -/
def Mentions (text row : Bytes) : Prop := text <:+: row

instance (text row : Bytes) : Decidable (Mentions text row) :=
  inferInstanceAs (Decidable (text <:+: row))

/-- The position of the first occurrence of a text. -/
def findString (str needle : Bytes) : Option Nat :=
  if needle <+: str then some 0
  else match str with
    | [] => none
    | _ :: rest => (findString rest needle).map (· + 1)

theorem findString_isSome {str needle : Bytes} :
    (findString str needle).isSome ↔ Mentions needle str := by
  induction str with
  | nil =>
      unfold findString
      split_ifs with hstart
      · exact iff_of_true rfl hstart.isInfix
      · refine iff_of_false (by simp) fun hinfix => hstart ?_
        obtain rfl := List.infix_nil.mp hinfix
        exact List.prefix_rfl
  | cons char rest ih =>
      unfold findString
      split_ifs with hstart
      · exact iff_of_true rfl hstart.isInfix
      · rw [Option.isSome_map, ih, Mentions, Mentions, List.infix_cons_iff]
        exact ⟨Or.inr, fun h => h.resolve_left hstart⟩

/-- `fileContext`, `nSectionPos` and `nKeyPos`, where `none` stands for `npos`. -/
structure WriteState where
  fileContext : Bytes
  sectionPos : Option Nat
  keyPos : Option Nat

/-- `fileKey = fileValue` as a row. -/
def assignment (fileKey fileValue : Bytes) : Bytes := fileKey ++ ascii " = " ++ fileValue

/-- The loop of `WriteProfileString` over the rows that are read. -/
def writeRows (tmpSection fileKey fileValue : Bytes) :
    WriteState → List Bytes → Option WriteState
  | state, [] => some state
  | state, data :: rest =>
      let row := trim isBlank (cString data)
      if state.sectionPos = none ∧ (findString row tmpSection).isSome then
        let fileContext := state.fileContext ++ tmpSection ++ ascii "\n"
        writeRows tmpSection fileKey fileValue ⟨fileContext, some fileContext.length, none⟩ rest
      else if state.keyPos = none ∧ (findString row fileKey).isSome then
        match parseValue row with
        | none => none
        | some (_, key, _) =>
            let written := if key = fileKey then assignment fileKey fileValue else row
            writeRows tmpSection fileKey fileValue
              { state with
                fileContext := state.fileContext ++ written ++ ascii "\n"
                keyPos := findString row fileKey } rest
      else
        writeRows tmpSection fileKey fileValue
          { state with fileContext := state.fileContext ++ row ++ ascii "\n" } rest

/-- `snprintf(tmpSection, 100, "[%s]", …)`. -/
def formatSection (fileSection : Bytes) : Bytes :=
  (CConfig.headerLine (cString fileSection)).take 99

/-- What is added after the last row: a new section, or a new key of a section that is
there. -/
def addMissing (tmpSection fileKey fileValue : Bytes) (state : WriteState) : Option Bytes :=
  if state.sectionPos = none ∧ state.keyPos = some 0 then
    -- `sprintf` into the buffer of 4096 bytes
    let data := tmpSection ++ ascii "\n" ++
      assignment (cString fileKey) (cString fileValue) ++ ascii "\n"
    if data.length < 4096 then some (state.fileContext ++ data) else none
  else
    match state.sectionPos, state.keyPos with
    | some pos, none =>
        some (state.fileContext.take pos ++ assignment fileKey fileValue ++ ascii "\n" ++
          state.fileContext.drop pos)
    | _, _ => some state.fileContext

def CConfig.writeProfileString (files : Files) (config : CConfig) (name key value : Bytes) :
    Option (ReturnCode × Files × CConfig) :=
  if config.filePath = [] then some (.error, files, config)
  else
    let fileSection := trim isBlank name
    let fileKey := trim isBlank key
    let fileValue := trim isBlank value
    let tmpSection := formatSection fileSection
    match files config.filePath with
    | none => none
    | some file => do
        let state ← writeRows tmpSection fileKey fileValue ⟨[], none, some 0⟩ (readRows file)
        let fileContext ← addMissing tmpSection fileKey fileValue state
        some (.success, Function.update files config.filePath (some fileContext),
          config.setCfgToMap fileSection fileKey fileValue)

/-! ## The rows that are written -/

variable {tmpSection fileKey fileValue : Bytes}

/-- The rows before the first that mentions a text, and the rows from it on. -/
def before (text : Bytes) (rows : List Bytes) : List Bytes :=
  rows.takeWhile fun row => ¬ Mentions text row

def onwards (text : Bytes) (rows : List Bytes) : List Bytes :=
  rows.dropWhile fun row => ¬ Mentions text row

/-- The rows as they are compared and copied. -/
def trimmedRows (data : List Bytes) : List Bytes := data.map fun row => trim isBlank (cString row)

theorem joinLines_snoc (rows : List Bytes) (row : Bytes) :
    joinLines (rows ++ [row]) = joinLines rows ++ row ++ ascii "\n" := by
  simp [ascii]

/-- Once the key has been met all rows are copied. -/
theorem writeRows_copy (done : List Bytes) (pos pos' : Nat) (data : List Bytes) :
    writeRows tmpSection fileKey fileValue ⟨joinLines done, some pos, some pos'⟩ data =
      some ⟨joinLines (done ++ trimmedRows data), some pos, some pos'⟩ := by
  induction data generalizing done with
  | nil => simp [writeRows, trimmedRows]
  | cons row rest ih =>
      rw [writeRows, if_neg (by simp), if_neg (by simp), ← joinLines_snoc, ih]
      simp [trimmedRows]

theorem before_cons_of_not (text row : Bytes) (rows : List Bytes) (hnot : ¬ Mentions text row) :
    before text (row :: rows) = row :: before text rows := by
  simp [before, hnot]

theorem onwards_cons_of_not (text row : Bytes) (rows : List Bytes) (hnot : ¬ Mentions text row) :
    onwards text (row :: rows) = onwards text rows := by
  simp [onwards, hnot]

theorem before_cons_of_mentions (text row : Bytes) (rows : List Bytes) (hrow : Mentions text row) :
    before text (row :: rows) = [] := by
  simp [before, hrow]

theorem onwards_cons_of_mentions (text row : Bytes) (rows : List Bytes)
    (hrow : Mentions text row) : onwards text (row :: rows) = row :: rows := by
  simp [onwards, hrow]

theorem before_append_onwards (text : Bytes) (rows : List Bytes) :
    before text rows ++ onwards text rows = rows :=
  List.takeWhile_append_dropWhile

/-- The rows after the header of the section, once the key has been looked for. -/
def replaceKey (fileKey fileValue : Bytes) (rows : List Bytes) : Option (List Bytes) :=
  match onwards fileKey rows with
  | [] => some rows
  | row :: rest => (parseValue row).map fun outcome =>
      before fileKey rows ++
        (if outcome.2.1 = fileKey then assignment fileKey fileValue else row) :: rest

theorem replaceKey_cons_of_not {row : Bytes} (rows : List Bytes) (hnot : ¬ Mentions fileKey row) :
    replaceKey fileKey fileValue (row :: rows) =
      (replaceKey fileKey fileValue rows).map (row :: ·) := by
  unfold replaceKey
  rw [onwards_cons_of_not _ _ _ hnot, before_cons_of_not _ _ _ hnot]
  cases onwards fileKey rows with
  | nil => rfl
  | cons first rest =>
      simp only [Option.map_map]
      rfl

theorem replaceKey_cons_of_mentions {row : Bytes} (rows : List Bytes)
    (hrow : Mentions fileKey row) :
    replaceKey fileKey fileValue (row :: rows) = (parseValue row).map fun outcome =>
      (if outcome.2.1 = fileKey then assignment fileKey fileValue else row) :: rows := by
  rw [replaceKey, onwards_cons_of_mentions _ _ _ hrow, before_cons_of_mentions _ _ _ hrow]
  rfl

/-- After the header the loop looks for the key. -/
theorem writeRows_seekKey (tmpSection fileKey fileValue : Bytes) (done : List Bytes) (pos : Nat)
    (data : List Bytes) :
    ∃ keyPos, (keyPos = none ↔ onwards fileKey (trimmedRows data) = []) ∧
      writeRows tmpSection fileKey fileValue ⟨joinLines done, some pos, none⟩ data =
        (replaceKey fileKey fileValue (trimmedRows data)).map fun rows =>
          ⟨joinLines (done ++ rows), some pos, keyPos⟩ := by
  induction data generalizing done with
  | nil => exact ⟨none, by simp [trimmedRows, onwards], by simp [writeRows, trimmedRows, replaceKey,
      onwards]⟩
  | cons row rest ih =>
      rw [writeRows, if_neg (by simp)]
      simp only [true_and, findString_isSome, trimmedRows, List.map_cons]
      by_cases hmentions : Mentions fileKey (trim isBlank (cString row))
      · rw [if_pos hmentions]
        refine ⟨findString (trim isBlank (cString row)) fileKey, ?_, ?_⟩
        · rw [onwards_cons_of_mentions _ _ _ hmentions]
          have hsome := findString_isSome.mpr hmentions
          refine iff_of_false (fun hnone => ?_) (List.cons_ne_nil _ _)
          rw [hnone] at hsome
          exact nomatch hsome
        · obtain ⟨pos', hpos'⟩ := Option.isSome_iff_exists.mp (findString_isSome.mpr hmentions)
          rw [replaceKey_cons_of_mentions _ hmentions, hpos']
          cases parseValue (trim isBlank (cString row)) with
          | none => rfl
          | some outcome =>
              simp only [Option.map_some]
              rw [← joinLines_snoc, writeRows_copy, List.append_assoc, List.singleton_append]
              rfl
      · rw [if_neg hmentions]
        obtain ⟨keyPos, hkeyPos, hrest⟩ := ih (done ++ [trim isBlank (cString row)])
        refine ⟨keyPos, ?_, ?_⟩
        · rw [onwards_cons_of_not _ _ _ hmentions]
          exact hkeyPos
        · rw [← joinLines_snoc, hrest, replaceKey_cons_of_not _ hmentions, Option.map_map]
          simp only [trimmedRows, Function.comp_def, List.append_assoc, List.singleton_append]

/-- The rows that `WriteProfileString` leaves. -/
def rewriteRows (tmpSection fileKey fileValue : Bytes) (rows : List Bytes) :
    Option (List Bytes) :=
  match onwards tmpSection rows with
  | [] => some (rows ++ [tmpSection, assignment (cString fileKey) (cString fileValue)])
  | _ :: after =>
      if onwards fileKey after = [] then
        some (before tmpSection rows ++ tmpSection :: assignment fileKey fileValue :: after)
      else
        (replaceKey fileKey fileValue after).map fun after =>
          before tmpSection rows ++ tmpSection :: after

theorem rewriteRows_cons_of_not {row : Bytes} (rows : List Bytes)
    (hnot : ¬ Mentions tmpSection row) :
    rewriteRows tmpSection fileKey fileValue (row :: rows) =
      (rewriteRows tmpSection fileKey fileValue rows).map (row :: ·) := by
  unfold rewriteRows
  rw [onwards_cons_of_not _ _ _ hnot, before_cons_of_not _ _ _ hnot]
  cases onwards tmpSection rows with
  | nil => rfl
  | cons first after =>
      simp only
      split_ifs
      · rfl
      · rw [Option.map_map]
        rfl

/-- The bytes that `sprintf` puts into the buffer fit it. -/
def FitsBuffer (tmpSection fileKey fileValue : Bytes) : Prop :=
  (tmpSection ++ ascii "\n" ++ assignment (cString fileKey) (cString fileValue) ++
    ascii "\n").length < 4096

/-- `WriteProfileString` up to the writing of the file: the rows it leaves. -/
theorem writeRows_addMissing (hfits : FitsBuffer tmpSection fileKey fileValue)
    (done data : List Bytes) :
    ((writeRows tmpSection fileKey fileValue ⟨joinLines done, none, some 0⟩ data).bind
      (addMissing tmpSection fileKey fileValue)) =
      (rewriteRows tmpSection fileKey fileValue (trimmedRows data)).map fun rows =>
        joinLines (done ++ rows) := by
  -- Up to the first row with the header all rows are copied; `done` has them.
  induction data generalizing done with
  | nil =>
      have hlength : (tmpSection ++ ascii "\n" ++
        assignment (cString fileKey) (cString fileValue) ++ ascii "\n").length < 4096 := hfits
      simp only [writeRows, addMissing, and_self, if_true, hlength, Option.bind_some, trimmedRows,
        List.map_nil, rewriteRows, onwards, List.dropWhile_nil, List.nil_append, Option.map_some]
      simp [ascii]
  | cons row rest ih =>
      rw [writeRows]
      simp only [true_and, findString_isSome]
      by_cases hmentions : Mentions tmpSection (trim isBlank (cString row))
      · rw [if_pos hmentions, ← joinLines_snoc]
        obtain ⟨keyPos, hkeyPos, hrest⟩ := writeRows_seekKey tmpSection fileKey fileValue
          (done ++ [tmpSection]) (joinLines (done ++ [tmpSection])).length rest
        rw [hrest]
        have hrows : trimmedRows (row :: rest) =
          trim isBlank (cString row) :: trimmedRows rest := rfl
        rw [hrows, rewriteRows, onwards_cons_of_mentions _ _ _ hmentions,
          before_cons_of_mentions _ _ _ hmentions]
        -- The key is put right behind the header if no later row mentions it.
        by_cases hnone : onwards fileKey (trimmedRows rest) = []
        · have hcopied : replaceKey fileKey fileValue (trimmedRows rest) =
              some (trimmedRows rest) := by
            rw [replaceKey, hnone]
          simp only [hnone, if_true, hkeyPos.mpr hnone, hcopied, Option.map_some,
            Option.bind_some, addMissing, reduceCtorEq, false_and, if_false]
          rw [joinLines_append (done ++ [tmpSection]), List.take_left, List.drop_left]
          simp [ascii]
        · obtain ⟨pos, rfl⟩ := Option.ne_none_iff_exists'.mp (mt hkeyPos.mp hnone)
          simp only [hnone, if_false]
          cases replaceKey fileKey fileValue (trimmedRows rest) with
          | none => rfl
          | some rows =>
              simp [addMissing]
      · rw [if_neg hmentions, if_neg (by simp), ← joinLines_snoc, ih]
        have hrows : trimmedRows (row :: rest) =
          trim isBlank (cString row) :: trimmedRows rest := rfl
        rw [hrows, rewriteRows_cons_of_not _ hmentions, Option.map_map]
        simp only [Function.comp_def, List.append_assoc, List.singleton_append]

end Wnet.Config
