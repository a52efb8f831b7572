import Wnet.Config.Settings

/-!
# The meaning of a line

What a line of a file says, read off its text without the blanks around it: the
name of a section stands between brackets, a key before the first `=`, and its
value behind it, up to a `#` that comes after the `=`. `_ParseValue` finds the
same, unless the value is empty and a comment follows at once.
-/

namespace Wnet.Config

open Foundation

/-- A line that opens a section. -/
def IsHeader (line : Bytes) : Prop :=
  line.head? = some openBracket ∧ line.getLast? = some closeBracket

/-- A line with nothing on it or only a comment. -/
def IsComment (line : Bytes) : Prop :=
  line = [] ∨ line.head? = some hash ∨ line.head? = some semicolon

/-- A line that is neither a header nor a comment and has a `=` on it. -/
def IsKeyLine (line : Bytes) : Prop :=
  ¬ IsComment line ∧ line.head? ≠ some openBracket ∧ equals ∈ line

/-- A line that has a meaning. -/
def IsMeaningful (line : Bytes) : Prop :=
  IsComment line ∨ IsHeader line ∨ line.head? ≠ some openBracket ∧ equals ∈ line

instance (line : Bytes) : Decidable (IsHeader line) := inferInstanceAs (Decidable (_ ∧ _))

instance (line : Bytes) : Decidable (IsComment line) := inferInstanceAs (Decidable (_ ∨ _))

instance (line : Bytes) : Decidable (IsKeyLine line) := inferInstanceAs (Decidable (_ ∧ _))

instance (line : Bytes) : Decidable (IsMeaningful line) := inferInstanceAs (Decidable (_ ∨ _))

/-- The name of the section that a header opens. -/
def nameOf (line : Bytes) : Bytes := trim isBlank (substr line 1 (line.length - 2))

def beforeEquals (line : Bytes) : Bytes := line.takeWhile (· ≠ equals)

def afterEquals (line : Bytes) : Bytes := (line.dropWhile (· ≠ equals)).drop 1

def keyOf (line : Bytes) : Bytes := trim isBlank (beforeEquals line)

def valueOf (line : Bytes) : Bytes :=
  trim isBlank (if hash ∈ beforeEquals line then afterEquals line
    else (afterEquals line).takeWhile (· ≠ hash))

/-- The first `=` of the line is immediately followed by the line's first `#`. -/
def HashAtOnce (line : Bytes) : Prop :=
  hash ∉ beforeEquals line ∧ (afterEquals line).head? = some hash

instance (line : Bytes) : Decidable (HashAtOnce line) := inferInstanceAs (Decidable (_ ∧ _))

section Cut

variable {left right : Bytes}

theorem takeWhile_ne_append {char : UInt8} (hleft : char ∉ left) :
    (left ++ char :: right).takeWhile (· ≠ char) = left := by
  rw [List.takeWhile_append_of_pos]
  · simp
  · intro other hother
    simp only [ne_eq, decide_eq_true_eq]
    rintro rfl
    exact hleft hother

theorem beforeEquals_cut (hleft : equals ∉ left) :
    beforeEquals (left ++ equals :: right) = left :=
  takeWhile_ne_append hleft

theorem afterEquals_cut (hleft : equals ∉ left) :
    afterEquals (left ++ equals :: right) = right := by
  rw [afterEquals, List.dropWhile_append_of_pos]
  · simp
  · intro other hother
    simp only [ne_eq, decide_eq_true_eq]
    rintro rfl
    exact hleft hother

end Cut

/-- What `_ParseValue` makes of a row without blanks around it. -/
theorem parseValue_eq {line : Bytes} (htrimmed : Trimmed isBlank line)
    (hlength : line.length < 4096) :
    parseValue line =
      if IsComment line then some (.fail, [], [])
      else if equals ∉ line then some (.error, [], [])
      else if HashAtOnce line then none
      else some (.success, keyOf line, valueOf line) := by
  by_cases hcomment : IsComment line
  · rw [if_pos hcomment, parseValue, htrimmed.trim_eq]
    split
    next => rfl
    next => exact if_pos hcomment
  · have hassignable : Assignable line := by
      obtain ⟨hempty, hothers⟩ := not_or.mp hcomment
      obtain ⟨hhash, hsemicolon⟩ := not_or.mp hothers
      exact ⟨hempty, hhash, hsemicolon⟩
    rw [if_neg hcomment]
    by_cases hequals : equals ∈ line
    · obtain ⟨left, right, rfl, hleft⟩ := exists_cut hequals
      rw [if_neg (not_not.mpr hequals)]
      simp only [HashAtOnce, keyOf, valueOf, beforeEquals_cut hleft, afterEquals_cut hleft]
      by_cases hhash : hash ∈ left ∨ hash ∉ right
      · rw [parseValue_of_cut hassignable htrimmed hleft hlength hhash, if_neg]
        · rcases hhash with hin | hout
          · rw [if_pos hin]
          · have hwhole : right.takeWhile (· ≠ hash) = right := by
              apply List.takeWhile_eq_self_iff.mpr
              intro char hchar
              simp only [ne_eq, decide_eq_true_eq]
              rintro rfl
              exact hout hchar
            rw [hwhole, ite_self]
        · rintro ⟨hnot, hhead⟩
          exact hhash.elim hnot fun hout => hout (List.mem_of_mem_head? hhead)
      · obtain ⟨hnotLeft, hright⟩ := not_or.mp hhash
        obtain ⟨middle, comment, rfl, hmiddle⟩ := exists_cut (not_not.mp hright)
        rw [parseValue_of_comment hassignable htrimmed hleft hnotLeft hmiddle hlength,
          if_neg hnotLeft, takeWhile_ne_append hmiddle]
        cases middle with
        | nil => simp [hnotLeft]
        | cons first middle =>
            have hfirst : first ≠ hash := fun heq => hmiddle (heq ▸ List.mem_cons_self)
            simp [hfirst]
    · rw [if_pos hequals]
      simp [parseValue, htrimmed.trim_eq, hassignable.notEmpty, hassignable.notHash,
        hassignable.notSemicolon, find_eq_none hequals]

theorem not_isComment_of_bracket {line : Bytes} (hbracket : line.head? = some openBracket) :
    ¬ IsComment line := by
  rintro (rfl | hother | hother)
  · cases hbracket
  · rw [hbracket] at hother
    cases hother
  · rw [hbracket] at hother
    cases hother

/-- A line as `Load` reads it, by its meaning. -/
theorem ofLine_eq {line : Bytes} (htrimmed : Trimmed isBlank line) (hlength : line.length < 4096)
    (hhash : IsKeyLine line → ¬ HashAtOnce line) :
    RowKind.ofLine line =
      if IsComment line then .ignored
      else if IsHeader line then .header (nameOf line)
      else if IsKeyLine line then .setting (keyOf line) (valueOf line)
      else .malformed := by
  rw [RowKind.ofLine, parseValue_eq htrimmed hlength]
  by_cases hbracket : line.head? = some openBracket
  · have hcomment := not_isComment_of_bracket hbracket
    have hkey : ¬ IsKeyLine line := fun hkey => hkey.2.1 hbracket
    by_cases hclose : line.getLast? = some closeBracket
    · rw [if_pos hbracket, if_pos hclose, if_neg hcomment, if_pos ⟨hbracket, hclose⟩]
      rfl
    · rw [if_pos hbracket, if_neg hclose, if_neg hcomment, if_neg fun hheader => hclose hheader.2,
        if_neg hkey]
  · have hheader : ¬ IsHeader line := fun hheader => hbracket hheader.1
    rw [if_neg hbracket]
    by_cases hcomment : IsComment line
    · rw [if_pos hcomment, if_pos hcomment]
      rfl
    · by_cases hequals : equals ∈ line
      · have hkey : IsKeyLine line := ⟨hcomment, hbracket, hequals⟩
        rw [if_neg hcomment, if_neg (not_not.mpr hequals), if_neg (hhash hkey), if_neg hcomment,
          if_neg hheader, if_pos hkey]
        rfl
      · rw [if_neg hcomment, if_pos hequals, if_neg hcomment, if_neg hheader,
          if_neg fun hkey => hequals hkey.2.2]
        rfl

end Wnet.Config
