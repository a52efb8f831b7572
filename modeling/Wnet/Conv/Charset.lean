import Wnet.Foundation.PrefixCode
import Wnet.Config.Text

/-!
# GB2312 and UTF-8

A GB2312 text mixes ASCII characters of one byte with the characters of the table, of
two bytes each. The table is not part of the program; what matters of it is that it
names a character by two bytes, that the first byte is not ASCII, and that its characters
lie in the basic plane. In UTF-8 they take two or three bytes.
-/

namespace Wnet.Conv

open Foundation Config

/-- The characters of GB2312 beyond ASCII and the two bytes of each. -/
structure Gb2312 where
  bytes : Char → Option (UInt8 × UInt8)
  nonAscii : ∀ char pair, bytes char = some pair → 0x80 ≤ char.toNat ∧ 0x80 ≤ pair.1
  basicPlane : ∀ char pair, bytes char = some pair → char.toNat < 0x10000
  injective : ∀ first second pair, bytes first = some pair → bytes second = some pair →
    first = second

namespace Gb2312

variable (table : Gb2312)

/-- The characters that a GB2312 text can hold. -/
def Symbol : Type := {char : Char // char.toNat < 0x80 ∨ (table.bytes char).isSome}

/-- The bytes of a character. -/
def word (char : Char) : Bytes :=
  if char.toNat < 0x80 then [char.toNat.toUInt8]
  else match table.bytes char with
    | some (lead, trail) => [lead, trail]
    | none => []

variable {table}

/-- A character is ASCII, or it is in the table. -/
theorem word_cases (symbol : table.Symbol) :
    (symbol.val.toNat < 0x80 ∧ table.word symbol.val = [symbol.val.toNat.toUInt8]) ∨
    (∃ lead trail, table.bytes symbol.val = some (lead, trail) ∧
      table.word symbol.val = [lead, trail]) := by
  by_cases hascii : symbol.val.toNat < 0x80
  · exact .inl ⟨hascii, by simp [word, hascii]⟩
  · obtain ⟨⟨lead, trail⟩, hbytes⟩ :=
      Option.isSome_iff_exists.mp (symbol.property.resolve_left hascii)
    exact .inr ⟨lead, trail, hbytes, by simp [word, hascii, hbytes]⟩

theorem lead_ne_ascii {char : Char} {lead trail : UInt8} {ascii : Nat}
    (hbytes : table.bytes char = some (lead, trail)) (hascii : ascii < 0x80) :
    lead ≠ ascii.toUInt8 := by
  intro heq
  have hlead : 0x80 ≤ lead := (table.nonAscii _ _ hbytes).2
  rw [heq, UInt8.le_iff_toNat_le] at hlead
  simp at hlead
  omega

/-- A lead byte is never ASCII, so the first byte tells how long a character is. -/
theorem eq_of_word_prefix {first second : table.Symbol}
    (hbegins : table.word first.val <+: table.word second.val) : first = second := by
  apply Subtype.ext
  rcases word_cases first with ⟨hascii, hword⟩ | ⟨lead, trail, hbytes, hword⟩ <;>
    rcases word_cases second with ⟨hascii', hword'⟩ | ⟨lead', trail', hbytes', hword'⟩ <;>
    rw [hword, hword'] at hbegins
  · simp only [List.cons_prefix_cons, List.prefix_rfl, and_true] at hbegins
    have hnat := congrArg UInt8.toNat hbegins
    simp only [Nat.toUInt8_eq, UInt8.toNat_ofNat'] at hnat
    rw [Nat.mod_eq_of_lt (by omega), Nat.mod_eq_of_lt (by omega)] at hnat
    exact Char.toNat_inj.mp hnat
  · simp only [List.cons_prefix_cons] at hbegins
    exact absurd hbegins.1.symm (lead_ne_ascii hbytes' hascii)
  · simp at hbegins
  · simp only [List.cons_prefix_cons, List.prefix_rfl, and_true] at hbegins
    obtain ⟨rfl, rfl⟩ := hbegins
    exact table.injective _ _ _ hbytes hbytes'

variable (table)

def code : PrefixCode table.Symbol UInt8 where
  word symbol := table.word symbol.val
  word_ne_nil symbol := by
    rcases word_cases symbol with ⟨_, hword⟩ | ⟨_, _, _, hword⟩ <;> simp [hword]
  eq_of_prefix _ _ := eq_of_word_prefix

end Gb2312

/-- The library's decoder takes the first character off, so no encoded character begins
another one. -/
def utf8 : PrefixCode Char UInt8 where
  word := String.utf8EncodeChar
  word_ne_nil _ := String.utf8EncodeChar_ne_nil
  eq_of_prefix first second hbegins := by
    obtain ⟨rest, hrest⟩ := hbegins
    have hfirst := ByteArray.utf8DecodeChar?_utf8EncodeChar_append
      (b := rest.toByteArray) (c := first)
    have hsecond := ByteArray.utf8DecodeChar?_utf8EncodeChar_append
      (b := ByteArray.empty) (c := second)
    rw [← List.toByteArray_append, hrest] at hfirst
    rw [ByteArray.append_empty] at hsecond
    exact Option.some_inj.mp (hfirst.symm.trans hsecond)

variable (table : Gb2312)

/-- The characters of a GB2312 text in UTF-8. -/
def utf8Of : PrefixCode table.Symbol UInt8 := utf8.comap Subtype.val Subtype.val_injective

/-- `converted` is the complete conversion of the GB2312 text `source` to UTF-8. -/
def IsUtf8Of (source converted : Bytes) : Prop :=
  table.code.Translates (utf8Of table) source converted

variable {table}

/-- A text has one conversion. -/
theorem IsUtf8Of.unique {source converted other : Bytes}
    (htext : IsUtf8Of table source converted) (hother : IsUtf8Of table source other) :
    converted = other := PrefixCode.Translates.unique htext hother

/-- A conversion comes from one text. -/
theorem IsUtf8Of.source_unique {source other converted : Bytes}
    (htext : IsUtf8Of table source converted) (hother : IsUtf8Of table other converted) :
    source = other := PrefixCode.Translates.unique htext.symm hother.symm

theorem length_utf8_le_two_mul (symbol : table.Symbol) :
    ((utf8Of table).word symbol).length ≤ 2 * (table.code.word symbol).length := by
  change (String.utf8EncodeChar symbol.val).length ≤ 2 * (table.word symbol.val).length
  rw [String.length_utf8EncodeChar]
  rcases Gb2312.word_cases symbol with ⟨hascii, hword⟩ | ⟨lead, trail, hbytes, hword⟩
  · have hone : symbol.val.utf8Size = 1 := by
      rw [Char.utf8Size_eq_one_iff, UInt32.le_iff_toNat_le]
      exact Nat.lt_succ_iff.mp hascii
    simp [hone, hword]
  · have hplane := table.basicPlane _ _ hbytes
    have hfour : symbol.val.utf8Size ≠ 4 := by
      rw [Ne, Char.utf8Size_eq_four_iff, UInt32.lt_iff_toNat_lt, not_lt]
      exact Nat.lt_succ_iff.mp hplane
    have hbound := Char.utf8Size_le_four symbol.val
    simp only [hword, List.length_cons, List.length_nil]
    omega

theorem length_gb2312_le_two_mul (symbol : table.Symbol) :
    (table.code.word symbol).length ≤ 2 * ((utf8Of table).word symbol).length := by
  have hsome : 0 < ((utf8Of table).word symbol).length :=
    List.length_pos_iff.mpr ((utf8Of table).word_ne_nil symbol)
  have hbytes : (table.code.word symbol).length ≤ 2 := by
    change (table.word symbol.val).length ≤ 2
    rcases Gb2312.word_cases symbol with ⟨_, hword⟩ | ⟨_, _, _, hword⟩ <;> simp [hword]
  omega

theorem char_zero_of_mem_utf8 {char : Char} (hzero : 0 ∈ String.utf8EncodeChar char) :
    char.toNat = 0 := by
  have hnat : char.val.toNat = char.toNat := rfl
  unfold String.utf8EncodeChar at hzero
  simp only [hnat] at hzero
  split at hzero
  next hascii =>
    have heq := congrArg UInt8.toNat (List.mem_singleton.mp hzero)
    simp only [UInt8.toNat_zero, UInt8.toNat_ofNat'] at heq
    omega
  next =>
    -- Every byte of a longer character has its high bit set.
    exfalso
    split_ifs at hzero <;>
      simp only [List.mem_cons, List.not_mem_nil, or_false, ← UInt8.toNat_inj] at hzero <;>
      simp at hzero <;> omega

/-- Only the null character has a null byte, in either character set. -/
theorem IsUtf8Of.noNul {source converted : Bytes} (htext : IsUtf8Of table source converted)
    (hnul : 0 ∉ source) : 0 ∉ converted := by
  obtain ⟨text, rfl, rfl⟩ := htext
  intro hzero
  obtain ⟨symbol, hsymbol, hword⟩ := List.mem_flatMap.mp hzero
  have hchar := char_zero_of_mem_utf8 hword
  refine hnul (List.mem_flatMap.mpr ⟨symbol, hsymbol, ?_⟩)
  change 0 ∈ table.word symbol.val
  simp [Gb2312.word, hchar]

/-- The output space that the conversion is given suffices. -/
theorem IsUtf8Of.length_lt {source converted : Bytes} (htext : IsUtf8Of table source converted) :
    converted.length < 2 * (source.length + 1) := by
  have hlength := PrefixCode.Translates.length_le length_utf8_le_two_mul htext
  omega

/-- It suffices for the way back as well. -/
theorem IsUtf8Of.length_lt_symm {source converted : Bytes}
    (htext : IsUtf8Of table source converted) : source.length < 2 * (converted.length + 1) := by
  have hlength := PrefixCode.Translates.length_le length_gb2312_le_two_mul htext.symm
  omega

end Wnet.Conv
