import Mathlib.Data.List.DropRight

/-!
# Blanks around a text

Texts are lists of characters, some of which are blank. Trimming takes off the
blanks at both ends, and a text without blanks at its ends is what remains of it
however it was surrounded.
-/

namespace Wnet.Foundation

variable {α : Type*} (blank : α → Bool)

def trimLeft (text : List α) : List α := text.dropWhile blank

def trimRight (text : List α) : List α := text.rdropWhile blank

def trim (text : List α) : List α := trimLeft blank (trimRight blank text)

/-- The text neither begins nor ends with a blank. -/
structure Trimmed (text : List α) : Prop where
  first : ∀ char ∈ text.head?, ¬ blank char
  last : ∀ char ∈ text.getLast?, ¬ blank char

variable {blank} {text before after : List α}

theorem trimLeft_append (hbefore : ∀ char ∈ before, blank char) :
    trimLeft blank (before ++ text) = trimLeft blank text := by
  unfold trimLeft
  exact List.dropWhile_append_of_pos hbefore

theorem trimRight_append (hafter : ∀ char ∈ after, blank char) :
    trimRight blank (text ++ after) = trimRight blank text := by
  induction after using List.reverseRecOn with
  | nil => rw [List.append_nil]
  | append_singleton after char ih =>
      unfold trimRight at *
      rw [← List.append_assoc, List.rdropWhile_concat_pos _ _ _ (hafter char (by simp))]
      exact ih fun other hother => hafter other (List.mem_append_left _ hother)

theorem trimLeft_eq_self (hfirst : ∀ char ∈ text.head?, ¬ blank char) :
    trimLeft blank text = text := by
  cases text with
  | nil => rfl
  | cons char rest => exact List.dropWhile_cons_of_neg (hfirst char rfl)

theorem trimRight_eq_self (hlast : ∀ char ∈ text.getLast?, ¬ blank char) :
    trimRight blank text = text := by
  apply List.rdropWhile_eq_self_iff.mpr
  intro hne
  exact hlast _ (List.getLast?_eq_some_getLast hne)

theorem Trimmed.trim_eq (htrimmed : Trimmed blank text) : trim blank text = text := by
  rw [trim, trimRight_eq_self htrimmed.last, trimLeft_eq_self htrimmed.first]

theorem trim_append (hafter : ∀ char ∈ after, blank char) :
    trim blank (text ++ after) = trim blank text := by
  rw [trim, trimRight_append hafter, trim]

/-- The blanks at the left may be taken off first. -/
theorem exists_blanks_left (blank : α → Bool) (text : List α) :
    ∃ before, text = before ++ trimLeft blank text ∧ ∀ char ∈ before, blank char := by
  refine ⟨text.takeWhile blank, List.takeWhile_append_dropWhile.symm, ?_⟩
  intro char hchar
  exact List.mem_takeWhile_imp hchar

theorem exists_blanks_right (blank : α → Bool) (text : List α) :
    ∃ after, text = trimRight blank text ++ after ∧ ∀ char ∈ after, blank char := by
  induction text using List.reverseRecOn with
  | nil => exact ⟨[], rfl, by simp⟩
  | append_singleton text char ih =>
      obtain ⟨after, htext, hafter⟩ := ih
      unfold trimRight at *
      by_cases hblank : blank char
      · refine ⟨after ++ [char], ?_, ?_⟩
        · rw [List.rdropWhile_concat_pos _ _ _ hblank, ← List.append_assoc, ← htext]
        · intro other hother
          rcases List.mem_append.mp hother with hold | hnew
          · exact hafter other hold
          · rw [List.mem_singleton.mp hnew]
            exact hblank
      · refine ⟨[], ?_, by simp⟩
        rw [List.rdropWhile_concat_neg _ _ _ hblank, List.append_nil]

theorem head?_trimLeft (text : List α) : ∀ char ∈ (trimLeft blank text).head?, ¬ blank char := by
  induction text with
  | nil => simp [trimLeft]
  | cons first rest ih =>
      unfold trimLeft at *
      by_cases hblank : blank first
      · rwa [List.dropWhile_cons_of_pos hblank]
      · rw [List.dropWhile_cons_of_neg hblank]
        rintro char ⟨rfl⟩
        exact hblank

theorem getLast?_trimRight (text : List α) :
    ∀ char ∈ (trimRight blank text).getLast?, ¬ blank char := by
  intro char hchar
  unfold trimRight at hchar
  have hne : text.rdropWhile blank ≠ [] := by
    rintro hnil
    simp [hnil] at hchar
  have hlast := List.rdropWhile_last_not blank text hne
  rw [List.getLast?_eq_some_getLast hne] at hchar
  obtain rfl := Option.some.inj hchar
  exact hlast

/-- The last character stays when blanks are taken off at the left. -/
theorem getLast?_trimLeft (hlast : ∀ char ∈ text.getLast?, ¬ blank char) :
    ∀ char ∈ (trimLeft blank text).getLast?, ¬ blank char := by
  intro char hchar
  obtain ⟨before, htext, -⟩ := exists_blanks_left blank text
  have hne : trimLeft blank text ≠ [] := by
    rintro hnil
    simp [hnil] at hchar
  apply hlast
  rw [htext, List.getLast?_append_of_ne_nil _ hne]
  exact hchar

theorem trimmed_trim (text : List α) : Trimmed blank (trim blank text) :=
  ⟨head?_trimLeft _, getLast?_trimLeft (getLast?_trimRight text)⟩

theorem trim_trim (text : List α) : trim blank (trim blank text) = trim blank text :=
  (trimmed_trim text).trim_eq

theorem exists_blanks_around (blank : α → Bool) (text : List α) :
    ∃ before after, text = before ++ trim blank text ++ after ∧
      (∀ char ∈ before, blank char) ∧ ∀ char ∈ after, blank char := by
  obtain ⟨after, htext, hafter⟩ := exists_blanks_right blank text
  obtain ⟨before, hbegin, hbefore⟩ := exists_blanks_left blank (trimRight blank text)
  refine ⟨before, after, ?_, hbefore, hafter⟩
  rw [trim, ← hbegin]
  exact htext

/-- What is left is the part without blanks at its ends, whatever blanks surround it. -/
theorem trim_eq_of_blanks (hbefore : ∀ char ∈ before, blank char)
    (hafter : ∀ char ∈ after, blank char) (htrimmed : Trimmed blank text) :
    trim blank (before ++ text ++ after) = text := by
  rw [trim_append hafter, trim]
  rcases List.eq_nil_or_concat text with rfl | ⟨init, last, rfl⟩
  · rw [List.append_nil, ← List.nil_append before, trimRight_append hbefore]
    rfl
  · rw [trimRight_eq_self, trimLeft_append hbefore, trimLeft_eq_self htrimmed.first]
    intro char hchar
    apply htrimmed.last
    rwa [List.getLast?_append_of_ne_nil _ (by simp)] at hchar

theorem trim_blanks_append (hbefore : ∀ char ∈ before, blank char) :
    trim blank (before ++ text) = trim blank text := by
  obtain ⟨left, right, htext, hleft, hright⟩ := exists_blanks_around blank text
  have hshape : before ++ text = (before ++ left) ++ trim blank text ++ right := by
    rw [List.append_assoc before, List.append_assoc before, ← htext]
  rw [hshape]
  apply trim_eq_of_blanks _ hright (trimmed_trim text)
  intro char hchar
  rcases List.mem_append.mp hchar with hfirst | hsecond
  · exact hbefore char hfirst
  · exact hleft char hsecond

theorem trim_trimLeft (text : List α) : trim blank (trimLeft blank text) = trim blank text := by
  obtain ⟨before, htext, hbefore⟩ := exists_blanks_left blank text
  conv_rhs => rw [htext, trim_blanks_append hbefore]

theorem trim_isInfix (text : List α) : trim blank text <:+: text := by
  obtain ⟨before, after, htext, -⟩ := exists_blanks_around blank text
  exact ⟨before, after, htext.symm⟩

theorem mem_of_mem_trim {char : α} (hmem : char ∈ trim blank text) : char ∈ text :=
  (trim_isInfix text).subset hmem

theorem mem_trim {char : α} (hmem : char ∈ text) (hchar : ¬ blank char) :
    char ∈ trim blank text := by
  obtain ⟨before, after, htext, hbefore, hafter⟩ := exists_blanks_around blank text
  rw [htext] at hmem
  rcases List.mem_append.mp hmem with hfirst | hlast
  · rcases List.mem_append.mp hfirst with hblank | hin
    · exact absurd (hbefore char hblank) hchar
    · exact hin
  · exact absurd (hafter char hlast) hchar

/-- A character that is not blank stays at the beginning. -/
theorem head?_trim_cons {char : α} {rest : List α} (hchar : ¬ blank char) :
    (trim blank (char :: rest)).head? = some char := by
  obtain ⟨before, after, htext, hbefore, hafter⟩ := exists_blanks_around blank (char :: rest)
  have hmem : char ∈ trim blank (char :: rest) := mem_trim List.mem_cons_self hchar
  cases before with
  | nil =>
      rw [List.nil_append] at htext
      have hhead := congrArg List.head? htext
      rw [List.head?_append_of_ne_nil _ (List.ne_nil_of_mem hmem)] at hhead
      exact hhead.symm
  | cons first others =>
      have hhead : char = first := (List.cons.inj htext).1
      exact absurd (hbefore first List.mem_cons_self) (hhead ▸ hchar)

end Wnet.Foundation
