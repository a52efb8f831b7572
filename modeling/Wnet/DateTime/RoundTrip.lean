import Wnet.DateTime.Zone

/-!
# Reading the text of a time

The text of a time is read back field by field. The positions at which
`GetDateTimeFromStr` looks are those where `strftime` puts the fields, so the
fields of the broken-down time come back, and in a zone with a fixed offset they
lead to the same seconds.
-/

namespace Wnet.DateTime

open Foundation Config

/-! ## Numerals -/

theorem isBlank_of_isDigit {char : UInt8} (hdigit : isDigit char) : isBlank char = false := by
  have hblanks : ∀ blank ∈ ([32, 9, 12, 11, 10, 13] : Bytes), isDigit blank = false := by decide
  apply decide_eq_false
  intro hblank
  rw [hblanks char hblank] at hdigit
  cases hdigit

/-- Digits without sign or blanks are read as they are. -/
theorem atoi_of_digits {digits : Bytes} (hdigits : ∀ char ∈ digits, isDigit char) :
    atoi digits = digitsValue digits := by
  have hall : digits.takeWhile isDigit = digits := List.takeWhile_eq_self_iff.mpr hdigits
  cases digits with
  | nil => rfl
  | cons char rest =>
      have hchar := hdigits char List.mem_cons_self
      rw [atoi, List.dropWhile_cons_of_neg (by simp [isBlank_of_isDigit hchar])]
      split
      next hminus =>
        obtain ⟨rfl, -⟩ := List.cons.inj hminus
        cases hchar
      next hplus =>
        obtain ⟨rfl, -⟩ := List.cons.inj hplus
        cases hchar
      next => rw [hall]

theorem zero_not_mem_numeral (width number : Nat) : 0 ∉ numeral width number := by
  intro hzero
  cases isDigit_of_mem_numeral hzero

theorem atoi_numeral {width number : Nat} (hnumber : number < 10 ^ width) :
    atoi (cString (numeral width number)) = number := by
  rw [cString_eq_self (zero_not_mem_numeral width number),
    atoi_of_digits fun _ => isDigit_of_mem_numeral, digitsValue_numeral hnumber]

theorem digitChar_eq_digit : ∀ value < 10, (Nat.digitChar value).toNat.toUInt8 = digit value := by
  decide

/-- A number of as many digits as the numeral is wide is printed like that. -/
theorem ascii_toString {width number : Nat} (hlower : 10 ^ width ≤ number)
    (hupper : number < 10 ^ (width + 1)) :
    ascii (toString number) = numeral (width + 1) number := by
  rw [Nat.toString_eq_repr, Nat.repr_eq_ofList_toDigits, ascii, String.toList_ofList]
  induction width generalizing number with
  | zero =>
      have hdigit : number < 10 := by simpa using hupper
      rw [Nat.toDigits_of_lt_base hdigit, List.map_singleton, digitChar_eq_digit number hdigit,
        numeral, numeral, List.nil_append, Nat.mod_eq_of_lt hdigit]
  | succ width ih =>
      have hten : 10 ≤ number :=
        Nat.le_trans (Nat.le_self_pow (Nat.succ_ne_zero width) 10) hlower
      rw [Nat.pow_succ] at hlower hupper
      rw [Nat.toDigits_of_base_le (by decide) hten, List.map_append, List.map_singleton,
        ih ((Nat.le_div_iff_mul_le (by decide)).mpr hlower) (Nat.div_lt_of_lt_mul (by omega)),
        digitChar_eq_digit _ (Nat.mod_lt _ (by decide))]
      rfl

/-! ## The fields of a text -/

/-- The formats with a year of two digits. -/
def TimeFormat.IsShort : TimeFormat → Prop
  | yyMMddHHmmss => True
  | yy_MM_dd_HH_mm_ss => True
  | yyMMdd_HHmmss => True
  | _ => False

/-- The fields that a broken-down time should have in a text. -/
def Tm.fields (tm : Tm) : Fields :=
  ⟨tm.year + 1900, tm.mon + 1, tm.mday, tm.hour, tm.min, tm.sec⟩

theorem atoi_twoDigits {value : Int} (hlower : 0 ≤ value) (hupper : value < 100) :
    atoi (cString (numeral 2 value.toNat)) = value := by
  have hnumber : value.toNat < 10 ^ 2 := by omega
  rw [atoi_numeral hnumber, Int.toNat_of_nonneg hlower]

/-- The year as four digits. -/
theorem conversion_year {tm : Tm} (hlower : 1000 ≤ tm.year + 1900)
    (hupper : tm.year + 1900 ≤ 9999) :
    conversion tm 'Y' = numeral 4 (tm.year + 1900).toNat := by
  have hyear : tm.year + 1900 = ((tm.year + 1900).toNat : Int) := by omega
  have hprinted : toString (tm.year + 1900) = toString (tm.year + 1900).toNat := by
    rw [hyear]
    rfl
  rw [conversion, hprinted, ascii_toString]
  all_goals omega

/-- The length of a text is not changed by the conversion to `int`. -/
theorem bmod_of_lt {length : Nat} (hlength : length < 2 ^ 31) :
    (length : Int).bmod (2 ^ 32) = length := by
  apply Int.bmod_eq_of_le
  · omega
  · omega

/-- A text with the fields where they are looked for. -/
theorem readFields_eq {tm : Tm} (hnormal : tm.Normal) {str : Bytes} {expected digits year : Nat}
    {base : Int} {month day hour minute second : Nat} (hlength : str.length = expected)
    (hexpected : expected < 2 ^ 31) (hwidth : year < 10 ^ digits)
    (hyear : substr str 0 digits = numeral digits year)
    (hbase : year + base = tm.year + 1900)
    (hmonth : substr str month 2 = numeral 2 (tm.mon + 1).toNat)
    (hday : substr str day 2 = numeral 2 tm.mday.toNat)
    (hhour : substr str hour 2 = numeral 2 tm.hour.toNat)
    (hminute : substr str minute 2 = numeral 2 tm.min.toNat)
    (hsecond : substr str second 2 = numeral 2 tm.sec.toNat) :
    readFields str expected digits base month day hour minute second = tm.fields := by
  obtain ⟨hsecRange, hminRange, hhourRange, hmdayRange, hmonRange⟩ := hnormal
  have hsize : (str.length : Int).bmod (2 ^ 32) = expected := by
    rw [hlength, bmod_of_lt hexpected]
  unfold readFields Tm.fields
  rw [if_pos hsize]
  simp only [readAt, hyear, hmonth, hday, hhour, hminute, hsecond, atoi_numeral hwidth, hbase]
  rw [atoi_twoDigits, atoi_twoDigits, atoi_twoDigits, atoi_twoDigits, atoi_twoDigits]
  all_goals omega

/-- The fields of a broken-down time are where `GetDateTimeFromStr` looks for them. -/
theorem fieldsOf_strftime {tm : Tm} (hnormal : tm.Normal) {format : TimeFormat}
    (hformat : format ≠ .maxIndex) (hlower : 1000 ≤ tm.year + 1900)
    (hupper : tm.year + 1900 ≤ 9999)
    (hshort : format.IsShort → 2000 ≤ tm.year + 1900 ∧ tm.year + 1900 ≤ 2099) :
    fieldsOf (strftime tm format.pattern.toList) format = tm.fields := by
  have hyear := conversion_year hlower hupper
  have hwidth : (tm.year + 1900).toNat < 10 ^ 4 := by omega
  have hbase : ((tm.year + 1900).toNat : Int) + 0 = tm.year + 1900 := by omega
  have hshortWidth : ((tm.year + 1900) % 100).toNat < 10 ^ 2 := by omega
  have hshortBase : format.IsShort →
      (((tm.year + 1900) % 100).toNat : Int) + 2000 = tm.year + 1900 := by
    intro hisShort
    have hyears := hshort hisShort
    omega
  -- With the year as a numeral of known width every offset can be evaluated.
  cases format with
  | yyyyMMddHHmmss =>
      have htext : strftime tm "%Y%m%d%H%M%S".toList =
          conversion tm 'Y' ++ strftime tm "%m%d%H%M%S".toList := rfl
      rw [TimeFormat.pattern, htext, hyear]
      exact readFields_eq hnormal rfl (by decide) hwidth rfl hbase rfl rfl rfl rfl rfl
  | yyyy_MM_dd_HH_mm_ss =>
      have htext : strftime tm "%Y-%m-%d %H:%M:%S".toList =
          conversion tm 'Y' ++ strftime tm "-%m-%d %H:%M:%S".toList := rfl
      rw [TimeFormat.pattern, htext, hyear]
      exact readFields_eq hnormal rfl (by decide) hwidth rfl hbase rfl rfl rfl rfl rfl
  | yyMMddHHmmss =>
      exact readFields_eq hnormal rfl (by decide) hshortWidth rfl (hshortBase trivial)
        rfl rfl rfl rfl rfl
  | yy_MM_dd_HH_mm_ss =>
      exact readFields_eq hnormal rfl (by decide) hshortWidth rfl (hshortBase trivial)
        rfl rfl rfl rfl rfl
  | yyyyMMdd_HHmmss =>
      have htext : strftime tm "%Y%m%d %H%M%S".toList =
          conversion tm 'Y' ++ strftime tm "%m%d %H%M%S".toList := rfl
      rw [TimeFormat.pattern, htext, hyear]
      exact readFields_eq hnormal rfl (by decide) hwidth rfl hbase rfl rfl rfl rfl rfl
  | yyMMdd_HHmmss =>
      exact readFields_eq hnormal rfl (by decide) hshortWidth rfl (hshortBase trivial)
        rfl rfl rfl rfl rfl
  | maxIndex => exact absurd rfl hformat

/-! ## The round trip -/

/-- The fields of a broken-down time make the same time again, up to what `mktime` ignores. -/
theorem toTm_fields {tm : Tm} (hstandard : tm.isdst = 0) (uninitialised : Tm) :
    tm.fields.toTm uninitialised =
      { tm with wday := uninitialised.wday, yday := uninitialised.yday } := by
  simp [Tm.fields, Fields.toTm, hstandard]

/-- The text of a time is read as the same time, in each format and whatever memory
it is read in. -/
theorem getDateTimeFromStr_getTimeStr {lib : CLibrary} (hzone : FixedZone lib)
    (memory elsewhere : Memory) (seconds clock : Int) (uninitialised : Tm) {format : TimeFormat}
    (hformat : format ≠ .maxIndex)
    (hlower : 1000 ≤ (lib.brokenDown seconds).year + 1900)
    (hupper : (lib.brokenDown seconds).year + 1900 ≤ 9999)
    (hshort : format.IsShort → 2000 ≤ (lib.brokenDown seconds).year + 1900 ∧
      (lib.brokenDown seconds).year + 1900 ≤ 2099) :
    let made := CDateTime.ofSeconds lib memory seconds
    let text := made.2.getTimeStr made.1 format
    (CDateTime.getDateTimeFromStr lib elsewhere clock uninitialised text format).2.getSeconds =
      seconds := by
  intro made text
  have htext : text = strftime (lib.brokenDown seconds) format.pattern.toList := by
    have hfilled : made.1 made.2.time = lib.brokenDown seconds := Function.update_self ..
    rw [← hfilled]
    rfl
  have hfields := fieldsOf_strftime (lib.normal seconds) hformat hlower hupper hshort
  -- Year 0 is the sign for an unreadable text, which the text of a time never is.
  have hyear : (lib.brokenDown seconds).fields.year ≠ 0 := by
    change (lib.brokenDown seconds).year + 1900 ≠ 0
    omega
  rw [CDateTime.getDateTimeFromStr, htext]
  simp only [hfields, hyear, ne_eq, not_false_eq_true, if_true]
  rw [toTm_fields (hzone.standard seconds)]
  exact hzone.mktime_brokenDown seconds _ _

/-- A leap day in China, with the year as two digits, read where the beginning of 1970
is in the memory. -/
theorem getDateTimeFromStr_getTimeStr_leap :
    let lib := fixedOffset 28800
    let epoch : Memory := fun _ => lib.brokenDown 0
    let made := CDateTime.ofSeconds lib epoch 951787845
    made.2.getTimeStr made.1 .yy_MM_dd_HH_mm_ss = ascii "00-02-29 09:30:45" ∧
      (CDateTime.getDateTimeFromStr lib epoch 0 (lib.brokenDown 0)
        (ascii "00-02-29 09:30:45") .yy_MM_dd_HH_mm_ss).2.getSeconds = 951787845 := by
  intro lib epoch made
  have htext : made.2.getTimeStr made.1 .yy_MM_dd_HH_mm_ss = ascii "00-02-29 09:30:45" := by
    decide
  have hread := getDateTimeFromStr_getTimeStr (fixedZone_fixedOffset 28800) epoch epoch 951787845
    0 (lib.brokenDown 0) (by decide : TimeFormat.yy_MM_dd_HH_mm_ss ≠ .maxIndex) (by decide)
    (by decide) (fun _ => ⟨by decide, by decide⟩)
  exact ⟨htext, htext ▸ hread⟩

end Wnet.DateTime
