import Mathlib.Data.List.Basic
import Mathlib.Logic.Function.Basic

/-!
# Codes without a word that begins another

A text is a list of symbols and its code is the concatenation of the words of its
symbols. If no word is empty or begins another, the code determines the text. Two
such codes of the same symbols translate into each other, one text at a time.
-/

namespace Wnet.Foundation

variable {Symbol Letter : Type*}

/-- A word for each symbol, none of them empty and none the beginning of another. -/
structure PrefixCode (Symbol Letter : Type*) where
  word : Symbol → List Letter
  word_ne_nil : ∀ symbol, word symbol ≠ []
  eq_of_prefix : ∀ first second, word first <+: word second → first = second

namespace PrefixCode

variable (code source target : PrefixCode Symbol Letter)

def encode (text : List Symbol) : List Letter := text.flatMap code.word

@[simp] theorem encode_nil : code.encode [] = [] := rfl

@[simp] theorem encode_cons (symbol : Symbol) (text : List Symbol) :
    code.encode (symbol :: text) = code.word symbol ++ code.encode text := by
  simp [encode]

/-- The code of some of the symbols. -/
def comap {Other : Type*} (embed : Other → Symbol) (hembed : embed.Injective) :
    PrefixCode Other Letter where
  word symbol := code.word (embed symbol)
  word_ne_nil symbol := code.word_ne_nil (embed symbol)
  eq_of_prefix _ _ hbegins := hembed (code.eq_of_prefix _ _ hbegins)

variable {code source target}

theorem encode_eq_nil_iff {text : List Symbol} : code.encode text = [] ↔ text = [] := by
  cases text with
  | nil => simp
  | cons symbol text => simp [code.word_ne_nil symbol]

/-- Two texts with one code begin with the same symbol: its word is in both cases at the
beginning of the code. -/
theorem encode_injective : Function.Injective code.encode := by
  intro first second hcode
  induction first generalizing second with
  | nil => exact (encode_eq_nil_iff.mp hcode.symm).symm
  | cons symbol first ih =>
      cases second with
      | nil => exact encode_eq_nil_iff.mp hcode
      | cons other second =>
          simp only [encode_cons] at hcode
          have hsymbol : symbol = other := by
            have hleft : code.word symbol <+: code.word other ++ code.encode second :=
              ⟨_, hcode⟩
            rcases List.prefix_or_prefix_of_prefix hleft (List.prefix_append _ _) with h | h
            · exact code.eq_of_prefix _ _ h
            · exact (code.eq_of_prefix _ _ h).symm
          subst hsymbol
          rw [ih (List.append_cancel_left hcode)]

theorem length_encode_le {factor : Nat}
    (hword : ∀ symbol, (target.word symbol).length ≤ factor * (source.word symbol).length)
    (text : List Symbol) :
    (target.encode text).length ≤ factor * (source.encode text).length := by
  induction text with
  | nil => simp
  | cons symbol text ih =>
      simp only [encode_cons, List.length_append, Nat.mul_add]
      exact Nat.add_le_add (hword symbol) ih

/-- The two codes are those of one text. -/
def Translates (source target : PrefixCode Symbol Letter) (first second : List Letter) : Prop :=
  ∃ text, source.encode text = first ∧ target.encode text = second

theorem Translates.symm {first second : List Letter}
    (htext : source.Translates target first second) : target.Translates source second first := by
  obtain ⟨text, hfirst, hsecond⟩ := htext
  exact ⟨text, hsecond, hfirst⟩

theorem Translates.unique {first second other : List Letter}
    (htext : source.Translates target first second)
    (hother : source.Translates target first other) : second = other := by
  obtain ⟨text, hfirst, rfl⟩ := htext
  obtain ⟨text', hfirst', rfl⟩ := hother
  rw [encode_injective (hfirst.trans hfirst'.symm)]

theorem Translates.eq_nil_iff {first second : List Letter}
    (htext : source.Translates target first second) : second = [] ↔ first = [] := by
  obtain ⟨text, rfl, rfl⟩ := htext
  rw [encode_eq_nil_iff, encode_eq_nil_iff]

theorem Translates.length_le {factor : Nat} {first second : List Letter}
    (hword : ∀ symbol, (target.word symbol).length ≤ factor * (source.word symbol).length)
    (htext : source.Translates target first second) : second.length ≤ factor * first.length := by
  obtain ⟨text, rfl, rfl⟩ := htext
  exact length_encode_le hword text

end PrefixCode

end Wnet.Foundation
