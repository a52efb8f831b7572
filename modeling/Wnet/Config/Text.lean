import Wnet.Foundation.BigEndian
import Wnet.Foundation.Trimming

/-!
# The rows of a configuration file

Strings are lists of bytes. A file is read with `fgets` into a buffer of 4096
bytes and each row is taken as a C string, so a row ends at a newline, at the
end of the buffer or at a null byte, whichever comes first.
-/

namespace Wnet.Config

open Foundation

/-- A text is checked character by character, not value by value of a character. -/
instance decidableForallMem (text : Bytes) (good : UInt8 → Prop) [DecidablePred good] :
    Decidable (∀ char ∈ text, good char) := List.decidableBAll good text

instance decidableForallFound (found : Option UInt8) (good : UInt8 → Prop) [DecidablePred good] :
    Decidable (∀ char ∈ found, good char) := Option.decidableForallMem found

/-- The bytes of a text in ASCII. -/
def ascii (text : String) : Bytes := text.toList.map fun char => char.toNat.toUInt8

abbrev newline : UInt8 := 10
abbrev space : UInt8 := 32
abbrev hash : UInt8 := 35
abbrev semicolon : UInt8 := 59
abbrev equals : UInt8 := 61
abbrev openBracket : UInt8 := 91
abbrev closeBracket : UInt8 := 93

/-- The characters that `QYStringOp` takes off: space, `\t`, `\f`, `\v`, `\n` and `\r`. -/
def isBlank (char : UInt8) : Bool := char ∈ ([32, 9, 12, 11, 10, 13] : Bytes)

/-- A buffer as a C string. -/
def cString (data : Bytes) : Bytes := data.takeWhile (· ≠ 0)

/-- Read at most `count` bytes, through the first newline, and return what is left. -/
def fgets : Nat → Bytes → Bytes × Bytes
  | 0, file => ([], file)
  | _ + 1, [] => ([], [])
  | count + 1, char :: rest =>
      if char = newline then ([char], rest)
      else ((char :: (fgets count rest).1), (fgets count rest).2)

/-- The successive contents of the buffer, until nothing is left to read. -/
def readLoop : Nat → Bytes → List Bytes
  | 0, _ => []
  | _ + 1, [] => []
  | fuel + 1, char :: rest =>
      let (row, file) := fgets 4095 (char :: rest)
      row :: readLoop fuel file

def readRows (file : Bytes) : List Bytes := readLoop file.length file

/-- The lines of a text, each with its newline. -/
def lines : Bytes → List Bytes
  | [] => []
  | char :: rest =>
      if char = newline then [newline] :: lines rest
      else match lines rest with
        | [] => [[char]]
        | line :: others => (char :: line) :: others

/-- A text without null bytes all of whose lines are ended by a newline and shorter,
with that newline, than the buffer. -/
structure IniText (text : Bytes) : Prop where
  noNul : 0 ∉ text
  terminated : ∀ last ∈ text.getLast?, last = newline
  short : ∀ line ∈ lines text, line.length < 4096

/-- The text with the given rows. -/
def joinLines (rows : List Bytes) : Bytes := rows.flatMap (· ++ [newline])

@[simp] theorem joinLines_nil : joinLines [] = [] := rfl

@[simp] theorem joinLines_cons (row : Bytes) (rows : List Bytes) :
    joinLines (row :: rows) = row ++ newline :: joinLines rows := by
  simp [joinLines]

@[simp] theorem joinLines_append (first second : List Bytes) :
    joinLines (first ++ second) = joinLines first ++ joinLines second := by
  simp [joinLines]

/-- A row that fits the buffer, that is one line of a text. -/
def IsRow (row : Bytes) : Prop := newline ∉ row ∧ row.length < 4095

theorem fgets_row {row : Bytes} (count : Nat) (rest : Bytes) (hnewline : newline ∉ row)
    (hlength : row.length < count) :
    fgets count (row ++ newline :: rest) = (row ++ [newline], rest) := by
  induction row generalizing count with
  | nil =>
      obtain ⟨count, rfl⟩ := Nat.exists_eq_add_of_lt hlength
      simp [fgets]
  | cons char row ih =>
      cases count with
      | zero => simp at hlength
      | succ count =>
          have hchar : char ≠ newline := fun heq => hnewline (heq ▸ List.mem_cons_self)
          have hrest := ih count (fun hmem => hnewline (List.mem_cons_of_mem _ hmem))
            (by simpa using hlength)
          simp [fgets, hchar, hrest]

theorem readLoop_joinLines (fuel : Nat) {rows : List Bytes} (hrows : ∀ row ∈ rows, IsRow row)
    (hfuel : rows.length ≤ fuel) :
    readLoop fuel (joinLines rows) = rows.map (· ++ [newline]) := by
  induction rows generalizing fuel with
  | nil => cases fuel <;> rfl
  | cons row rest ih =>
      cases fuel with
      | zero => simp at hfuel
      | succ fuel =>
          obtain ⟨hnewline, hlength⟩ := hrows row List.mem_cons_self
          have hrest := ih fuel (fun other hother => hrows other (List.mem_cons_of_mem _ hother))
            (by simpa using hfuel)
          have hread := fgets_row 4095 (joinLines rest) hnewline hlength
          rw [joinLines_cons, List.map_cons, ← hrest]
          cases row with
          | nil =>
              rw [List.nil_append, readLoop]
              rw [List.nil_append] at hread
              rw [hread]
          | cons char row =>
              rw [List.cons_append, readLoop]
              rw [List.cons_append] at hread
              rw [hread]

theorem length_le_joinLines (rows : List Bytes) : rows.length ≤ (joinLines rows).length := by
  induction rows with
  | nil => simp
  | cons row rest ih =>
      simp only [joinLines_cons, List.length_cons, List.length_append]
      omega

theorem readRows_joinLines {rows : List Bytes} (hrows : ∀ row ∈ rows, IsRow row) :
    readRows (joinLines rows) = rows.map (· ++ [newline]) :=
  readLoop_joinLines _ hrows (length_le_joinLines rows)

theorem lines_row {row : Bytes} (rest : Bytes) (hnewline : newline ∉ row) :
    lines (row ++ newline :: rest) = (row ++ [newline]) :: lines rest := by
  induction row with
  | nil => simp [lines]
  | cons char row ih =>
      have hchar : char ≠ newline := fun heq => hnewline (heq ▸ List.mem_cons_self)
      rw [List.cons_append, lines, if_neg hchar,
        ih fun hmem => hnewline (List.mem_cons_of_mem _ hmem)]
      rfl

theorem lines_joinLines {rows : List Bytes} (hrows : ∀ row ∈ rows, newline ∉ row) :
    lines (joinLines rows) = rows.map (· ++ [newline]) := by
  induction rows with
  | nil => rfl
  | cons row rest ih =>
      rw [joinLines_cons, lines_row _ (hrows row List.mem_cons_self), List.map_cons]
      rw [ih fun other hother => hrows other (List.mem_cons_of_mem _ hother)]

/-- A text whose last line is ended is made of lines. -/
theorem exists_joinLines {text : Bytes} (hterminated : ∀ last ∈ text.getLast?, last = newline) :
    ∃ rows, text = joinLines rows ∧ ∀ row ∈ rows, newline ∉ row := by
  induction text with
  | nil => exact ⟨[], rfl, by simp⟩
  | cons char rest ih =>
      have hrest : ∀ last ∈ rest.getLast?, last = newline := by
        intro last hlast
        apply hterminated
        rw [List.getLast?_cons, Option.mem_def.mp hlast]
        rfl
      obtain ⟨rows, rfl, hrows⟩ := ih hrest
      by_cases hchar : char = newline
      · refine ⟨[] :: rows, by simp [hchar], ?_⟩
        simpa using hrows
      · cases rows with
        | nil => exact absurd (hterminated char (by simp)) hchar
        | cons row others =>
            refine ⟨(char :: row) :: others, by simp, ?_⟩
            intro other hother
            rcases List.mem_cons.mp hother with rfl | hafter
            · rintro (_ | ⟨_, hmem⟩)
              · exact hchar rfl
              · exact hrows row List.mem_cons_self hmem
            · exact hrows other (List.mem_cons_of_mem _ hafter)

theorem mem_joinLines {rows : List Bytes} {row : Bytes} {char : UInt8} (hrow : row ∈ rows)
    (hchar : char ∈ row) : char ∈ joinLines rows := by
  simp only [joinLines, List.mem_flatMap]
  exact ⟨row, hrow, List.mem_append_left _ hchar⟩

/-- What is known of the rows of a text. -/
theorem IniText.exists_rows {text : Bytes} (htext : IniText text) :
    ∃ rows, text = joinLines rows ∧ ∀ row ∈ rows, IsRow row ∧ 0 ∉ row := by
  obtain ⟨rows, rfl, hrows⟩ := exists_joinLines htext.terminated
  refine ⟨rows, rfl, ?_⟩
  intro row hrow
  refine ⟨⟨hrows row hrow, ?_⟩, fun hnul => htext.noNul (mem_joinLines hrow hnul)⟩
  have hshort := htext.short (row ++ [newline])
  rw [lines_joinLines hrows] at hshort
  have hlength := hshort (List.mem_map_of_mem hrow)
  rw [List.length_append, List.length_singleton] at hlength
  omega

theorem cString_append {first second : Bytes} (hnul : 0 ∉ first) :
    cString (first ++ second) = first ++ cString second := by
  unfold cString
  apply List.takeWhile_append_of_pos
  intro char hchar
  simp only [ne_eq, decide_eq_true_eq]
  rintro rfl
  exact hnul hchar

theorem cString_eq_self {data : Bytes} (hnul : 0 ∉ data) : cString data = data := by
  have happend : cString (data ++ []) = data ++ cString [] := cString_append hnul
  rwa [List.append_nil, show cString [] = [] from rfl, List.append_nil] at happend

theorem zero_not_mem_cString (data : Bytes) : 0 ∉ cString data := by
  intro hmem
  simpa using List.mem_takeWhile_imp hmem

end Wnet.Config
