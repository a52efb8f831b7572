import Wnet.Conv.Charset

/-!
# Converting a text

`_Convert` hands the addresses of its two buffer pointers to `iconv`, which moves both
past what it read and wrote. The result is then read, and both arrays are given back,
through the moved pointers. The conversion itself is complete: the space suffices in
both directions, and the array holds it from its beginning on.
-/

namespace Wnet.Conv

open Foundation Config

/-- What a call of `iconv` did: the value it returned, the number of bytes it took from the
input, and the bytes it wrote. -/
structure IconvCall where
  ret : UInt64
  consumed : Nat
  produced : Bytes

/-- The conversion library. A descriptor is opened for a target and a source character set,
and a call is given the input that is left and the space that is left. -/
structure Iconv where
  iconvOpen : Bytes → Bytes → UInt64
  iconv : UInt64 → Bytes → Nat → IconvCall

/-- The library converts the whole input when the output space suffices. -/
structure Iconv.ConvertsWhole (library : Iconv) (fcharset tcharset source converted : Bytes) :
    Prop where
  opens : library.iconvOpen tcharset fcharset ≠ 0
  succeeds : ∀ space, converted.length ≤ space →
    (library.iconv (library.iconvOpen tcharset fcharset) source space).ret ≠ -1
  consumed : ∀ space, converted.length ≤ space →
    (library.iconv (library.iconvOpen tcharset fcharset) source space).consumed = source.length
  produced : ∀ space, converted.length ≤ space →
    (library.iconv (library.iconvOpen tcharset fcharset) source space).produced = converted

/-- A pointer into an array that `new[]` returned. -/
structure Pointer where
  array : Bytes
  offset : Nat
deriving DecidableEq

namespace Pointer

def advance (pointer : Pointer) (count : Nat) : Pointer :=
  { pointer with offset := pointer.offset + count }

/-- Write some bytes and move past them. -/
def write (pointer : Pointer) (data : Bytes) : Pointer where
  array := pointer.array.take pointer.offset ++ data ++
    pointer.array.drop (pointer.offset + data.length)
  offset := pointer.offset + data.length

/-- The C string at the pointer, if it ends inside the array. -/
def chars (pointer : Pointer) : Option Bytes :=
  if (pointer.array.drop pointer.offset).contains 0
  then some (cString (pointer.array.drop pointer.offset)) else none

/-- `delete[]` takes what `new[]` returned, which points to the first byte. -/
def delete (pointer : Pointer) : Option Unit :=
  if pointer.offset = 0 then some () else none

end Pointer

/-- `_Convert`: whether it succeeded and the new content of `rToStr`, or nothing where its
behaviour is undefined. -/
def convert (library : Iconv) (fcharset tcharset fromStr toStr : Bytes) :
    Option (Bool × Bytes) :=
  let cd := library.iconvOpen tcharset fcharset
  if cd = 0 then some (false, toStr)
  else
    let srcSize := fromStr.length
    let inBuf : Pointer := ⟨fromStr ++ [0], 0⟩
    let destSize := 2 * (srcSize + 1)
    let outBuf : Pointer := ⟨List.replicate destSize 0, 0⟩
    let call := library.iconv cd (inBuf.array.take srcSize) destSize
    -- The call gets `&pcInBuf` and `&pcOutBuf`, and leaves both moved.
    let inBuf := inBuf.advance call.consumed
    let outBuf := outBuf.write call.produced
    if call.ret = -1 then do
      inBuf.delete
      outBuf.delete
      some (false, toStr)
    else do
      let toStr ← outBuf.chars
      inBuf.delete
      outBuf.delete
      some (true, toStr)

def gbk2utf8 (library : Iconv) (gbkStr utf8Str : Bytes) : Option (Bool × Bytes) :=
  convert library (ascii "gb2312") (ascii "utf-8") gbkStr utf8Str

def utf82gbk (library : Iconv) (utf8Str gbkStr : Bytes) : Option (Bool × Bytes) :=
  convert library (ascii "utf-8") (ascii "gb2312") utf8Str gbkStr

variable {library : Iconv} {fcharset tcharset source converted : Bytes}

/-- The output array once the whole text is converted. -/
def convertedBuf (source converted : Bytes) : Pointer :=
  (⟨List.replicate (2 * (source.length + 1)) 0, 0⟩ : Pointer).write converted

theorem convertedBuf_array (source converted : Bytes) :
    (convertedBuf source converted).array =
      converted ++ List.replicate (2 * (source.length + 1) - converted.length) 0 := by
  simp [convertedBuf, Pointer.write]

@[simp] theorem convertedBuf_offset (source converted : Bytes) :
    (convertedBuf source converted).offset = converted.length := by
  simp [convertedBuf, Pointer.write]

/-- From its beginning the array holds the whole conversion as a C string. -/
theorem convertedBuf_chars_start (hnull : 0 ∉ converted)
    (hspace : converted.length < 2 * (source.length + 1)) :
    ({ convertedBuf source converted with offset := 0 } : Pointer).chars = some converted := by
  obtain ⟨rest, hrest⟩ := Nat.exists_eq_add_of_lt hspace
  have hzeros : 2 * (source.length + 1) - converted.length = rest + 1 := by omega
  have hstring : cString (converted ++ 0 :: List.replicate rest 0) = converted := by
    rw [cString_append hnull]
    simp [cString]
  simp [Pointer.chars, convertedBuf_array, hzeros, List.replicate_succ, hstring]

/-- Where the call has left the pointer there are only zeros, so what is read is empty. -/
theorem chars_convertedBuf {text : Bytes}
    (hread : (convertedBuf source converted).chars = some text) : text = [] := by
  simp only [Pointer.chars, convertedBuf_array, convertedBuf_offset, List.drop_left] at hread
  split at hread
  next hzero =>
    obtain ⟨hcount, -⟩ := List.mem_replicate.mp (List.contains_iff_mem.mp hzero)
    obtain ⟨count, hcount⟩ := Nat.exists_eq_succ_of_ne_zero hcount
    rw [hcount] at hread
    simpa [cString, List.replicate_succ] using hread.symm
  next => cases hread

/-- Both conversions are complete, and both arrays would give the text if they were read from
their beginning. -/
theorem IsUtf8Of.chars_start {table : Gb2312} {text converted : Bytes}
    (htext : IsUtf8Of table text converted) (hnul : 0 ∉ text) :
    ({ convertedBuf text converted with offset := 0 } : Pointer).chars = some converted ∧
      ({ convertedBuf converted text with offset := 0 } : Pointer).chars = some text :=
  ⟨convertedBuf_chars_start (htext.noNul hnul) htext.length_lt,
    convertedBuf_chars_start hnul htext.length_lt_symm⟩

/-- A conversion of nothing is the only one that leaves both pointers where `new[]` put
them. -/
theorem convert_of_whole (hwhole : library.ConvertsWhole fcharset tcharset source converted)
    (hspace : converted.length < 2 * (source.length + 1)) (toStr : Bytes) :
    convert library fcharset tcharset source toStr =
      if source = [] ∧ converted = [] then some (true, []) else none := by
  have hsucceeds := hwhole.succeeds _ hspace.le
  have hconsumed := hwhole.consumed _ hspace.le
  have hproduced := hwhole.produced _ hspace.le
  unfold convert
  simp only [hwhole.opens, if_false, List.take_left, hsucceeds, hconsumed, hproduced]
  rw [← convertedBuf]
  cases hread : (convertedBuf source converted).chars with
  | none =>
      have hne : ¬ (source = [] ∧ converted = []) := by
        rintro ⟨rfl, rfl⟩
        exact absurd hread (by decide)
      rw [if_neg hne]
      rfl
  | some text =>
      obtain rfl := chars_convertedBuf hread
      by_cases hsource : source = []
      · by_cases hconverted : converted = []
        · simp [hsource, hconverted, Pointer.delete, Pointer.advance]
        · simp [hsource, hconverted, Pointer.delete, Pointer.advance]
      · simp [hsource, Pointer.delete, Pointer.advance]

/-- The text survives the way to UTF-8 and back exactly when it is empty: any other text
moves the pointers that are read and given back afterwards. -/
theorem gbk2utf8_utf82gbk_iff {table : Gb2312} {text converted : Bytes}
    (htext : IsUtf8Of table text converted)
    (hgbk : library.ConvertsWhole (ascii "gb2312") (ascii "utf-8") text converted)
    (hutf8 : library.ConvertsWhole (ascii "utf-8") (ascii "gb2312") converted text)
    (utf8Str gbkStr : Bytes) :
    (gbk2utf8 library text utf8Str = some (true, converted) ∧
      utf82gbk library converted gbkStr = some (true, text)) ↔ text = [] := by
  have hnil : converted = [] ↔ text = [] := htext.eq_nil_iff
  unfold gbk2utf8 utf82gbk
  rw [convert_of_whole hgbk htext.length_lt, convert_of_whole hutf8 htext.length_lt_symm]
  by_cases hempty : text = []
  · simp [hempty, hnil.mpr hempty]
  · simp [hempty]

/-- The library on ASCII texts, whose bytes are the same in both character sets. -/
def asciiIconv : Iconv where
  iconvOpen _ _ := 1
  iconv _ input space :=
    if input.length ≤ space then ⟨0, input.length, input⟩
    else ⟨-1, space, input.take space⟩

/-- GB2312 without the two-byte characters. -/
def asciiTable : Gb2312 where
  bytes _ := none
  nonAscii _ _ hbytes := by cases hbytes
  basicPlane _ _ hbytes := by cases hbytes
  injective _ _ _ hbytes := by cases hbytes

theorem asciiIconv_convertsWhole (fcharset tcharset text : Bytes) :
    asciiIconv.ConvertsWhole fcharset tcharset text text where
  opens := (by decide : (1 : UInt64) ≠ 0)
  succeeds space hspace := by
    simp only [asciiIconv, if_pos hspace]
    decide
  consumed space hspace := by simp [asciiIconv, hspace]
  produced space hspace := by simp [asciiIconv, hspace]

theorem isUtf8Of_letter : IsUtf8Of asciiTable (ascii "A") (ascii "A") :=
  ⟨[⟨'A', .inl (by decide)⟩], by decide, by decide⟩

open Classical in
/-- The call that writes the conversion of its input, if there is space for it. -/
noncomputable def IconvCall.whole (conversion : Bytes → Prop) (input : Bytes) (space : Nat) :
    IconvCall :=
  if h : ∃ output, conversion output ∧ output.length ≤ space
  then ⟨0, input.length, h.choose⟩ else ⟨-1, 0, []⟩

theorem IconvCall.whole_eq {conversion : Bytes → Prop} {input output : Bytes} {space : Nat}
    (hunique : ∀ other, conversion other → output = other) (houtput : conversion output)
    (hspace : output.length ≤ space) :
    IconvCall.whole conversion input space = ⟨0, input.length, output⟩ := by
  have hexists : ∃ output, conversion output ∧ output.length ≤ space :=
    ⟨output, houtput, hspace⟩
  rw [whole, dif_pos hexists, ← hunique _ hexists.choose_spec.1]

/-- A library that converts what has a conversion. -/
noncomputable def wholeIconv (table : Gb2312) : Iconv where
  iconvOpen tcharset _ := if tcharset = ascii "utf-8" then 1 else 2
  iconv cd input space :=
    if cd = 1 then .whole (IsUtf8Of table input) input space
    else .whole (fun text => IsUtf8Of table text input) input space

theorem Iconv.convertsWhole_of_call {cd : UInt64}
    (hopens : library.iconvOpen tcharset fcharset = cd) (hcd : cd ≠ 0)
    (hcall : ∀ space, converted.length ≤ space →
      library.iconv cd source space = ⟨0, source.length, converted⟩) :
    library.ConvertsWhole fcharset tcharset source converted := by
  have hzero : (0 : UInt64) ≠ -1 := by decide
  subst hopens
  refine ⟨hcd, fun space hspace => ?_, fun space hspace => ?_, fun space hspace => ?_⟩
  · rw [hcall space hspace]
    exact hzero
  · rw [hcall space hspace]
  · rw [hcall space hspace]

/-- It converts every text both ways, as a text has one conversion and a conversion comes
from one text. -/
theorem wholeIconv_convertsWhole {table : Gb2312} {text converted : Bytes}
    (htext : IsUtf8Of table text converted) :
    (wholeIconv table).ConvertsWhole (ascii "gb2312") (ascii "utf-8") text converted ∧
      (wholeIconv table).ConvertsWhole (ascii "utf-8") (ascii "gb2312") converted text := by
  have hother : ascii "gb2312" ≠ ascii "utf-8" := by decide
  have hto : (wholeIconv table).iconvOpen (ascii "utf-8") (ascii "gb2312") = 1 := by
    simp [wholeIconv]
  have hfrom : (wholeIconv table).iconvOpen (ascii "gb2312") (ascii "utf-8") = 2 := by
    simp [wholeIconv, hother]
  constructor
  · refine Iconv.convertsWhole_of_call hto (by decide) fun space hspace => ?_
    exact IconvCall.whole_eq (fun _ => htext.unique) htext hspace
  · refine Iconv.convertsWhole_of_call hfrom (by decide) fun space hspace => ?_
    exact IconvCall.whole_eq (fun _ => htext.source_unique) htext hspace

/-- GB2312 with one two-byte character. -/
def middleTable : Gb2312 where
  bytes char := if char = '中' then some (0xD6, 0xD0) else none
  nonAscii char pair hbytes := by
    split at hbytes
    next hchar =>
      subst hchar
      obtain rfl := Option.some.inj hbytes
      decide
    next => cases hbytes
  basicPlane char pair hbytes := by
    split at hbytes
    next hchar =>
      subst hchar
      decide
    next => cases hbytes
  injective first second pair hfirst hsecond := by
    split at hfirst
    next hchar =>
      split at hsecond
      next hchar' => exact hchar.trans hchar'.symm
      next => cases hsecond
    next => cases hfirst

/-- A letter and a character of two bytes are not converted, a text of none is. -/
theorem gbk2utf8_utf82gbk_mixed :
    IsUtf8Of middleTable [0x41, 0xD6, 0xD0] [0x41, 0xE4, 0xB8, 0xAD] ∧
      ¬ (gbk2utf8 (wholeIconv middleTable) [0x41, 0xD6, 0xD0] [] =
          some (true, [0x41, 0xE4, 0xB8, 0xAD]) ∧
        utf82gbk (wholeIconv middleTable) [0x41, 0xE4, 0xB8, 0xAD] [] =
          some (true, [0x41, 0xD6, 0xD0])) ∧
      gbk2utf8 (wholeIconv middleTable) [] [7] = some (true, []) ∧
      utf82gbk (wholeIconv middleTable) [] [8] = some (true, []) := by
  have hmixed : IsUtf8Of middleTable [0x41, 0xD6, 0xD0] [0x41, 0xE4, 0xB8, 0xAD] :=
    ⟨[⟨'A', .inl (by decide)⟩, ⟨'中', .inr (by decide)⟩], by decide, by decide⟩
  have hempty : IsUtf8Of middleTable [] [] := ⟨[], rfl, rfl⟩
  obtain ⟨hgbk, hutf8⟩ := wholeIconv_convertsWhole hmixed
  obtain ⟨hgbk', hutf8'⟩ := wholeIconv_convertsWhole hempty
  refine ⟨hmixed, ?_, (gbk2utf8_utf82gbk_iff hempty hgbk' hutf8' [7] [8]).mpr rfl⟩
  exact fun hboth => List.cons_ne_nil _ _
    ((gbk2utf8_utf82gbk_iff hmixed hgbk hutf8 [] []).mp hboth)

/-- A single letter is converted, but the arrays are given back at their second byte. -/
theorem letter_not_converted :
    (0 : UInt8) ∉ ascii "A" ∧ IsUtf8Of asciiTable (ascii "A") (ascii "A") ∧
      asciiIconv.ConvertsWhole (ascii "gb2312") (ascii "utf-8") (ascii "A") (ascii "A") ∧
      asciiIconv.ConvertsWhole (ascii "utf-8") (ascii "gb2312") (ascii "A") (ascii "A") ∧
      ¬ (gbk2utf8 asciiIconv (ascii "A") [] = some (true, ascii "A") ∧
        utf82gbk asciiIconv (ascii "A") [] = some (true, ascii "A")) :=
  ⟨by decide, isUtf8Of_letter, asciiIconv_convertsWhole _ _ _, asciiIconv_convertsWhole _ _ _,
    by decide⟩

end Wnet.Conv
