import Wnet.Foundation.BigEndian

/-!
# Decimal numerals of a fixed width
-/

namespace Wnet.Foundation

/-- The character of a digit. -/
def digit (value : Nat) : UInt8 := .ofNat (48 + value)

def isDigit (char : UInt8) : Bool := 48 ≤ char && char ≤ 57

/-- The last digits of a number, with leading zeros. -/
def numeral : Nat → Nat → Bytes
  | 0, _ => []
  | width + 1, number => numeral width (number / 10) ++ [digit (number % 10)]

/-- The number that some digits are the numeral of. -/
def digitsValue (digits : Bytes) : Nat :=
  digits.foldl (fun value char => value * 10 + (char.toNat - 48)) 0

theorem toNat_digit {value : Nat} (hvalue : value < 10) : (digit value).toNat = 48 + value := by
  rw [digit, UInt8.toNat_ofNat']
  omega

theorem isDigit_digit {value : Nat} (hvalue : value < 10) : isDigit (digit value) := by
  have hdigit := toNat_digit hvalue
  simp only [isDigit, Bool.and_eq_true, decide_eq_true_eq, UInt8.le_iff_toNat_le, hdigit]
  exact ⟨Nat.le_add_right 48 value, Nat.add_le_add_left (Nat.le_of_lt_succ hvalue) 48⟩

@[simp] theorem length_numeral (width number : Nat) : (numeral width number).length = width := by
  induction width generalizing number with
  | zero => rfl
  | succ width ih => rw [numeral, List.length_append, ih, List.length_singleton]

theorem isDigit_of_mem_numeral {width number : Nat} {char : UInt8}
    (hchar : char ∈ numeral width number) : isDigit char := by
  induction width generalizing number with
  | zero => cases hchar
  | succ width ih =>
      rw [numeral, List.mem_append, List.mem_singleton] at hchar
      rcases hchar with hbefore | rfl
      · exact ih hbefore
      · exact isDigit_digit (Nat.mod_lt _ (by decide))

/-- A numeral that is wide enough has the number as its value. -/
theorem digitsValue_numeral {width number : Nat} (hnumber : number < 10 ^ width) :
    digitsValue (numeral width number) = number := by
  induction width generalizing number with
  | zero =>
      obtain rfl : number = 0 := Nat.lt_one_iff.mp hnumber
      rfl
  | succ width ih =>
      have hbefore : number / 10 < 10 ^ width := by
        rw [Nat.pow_succ] at hnumber
        exact Nat.div_lt_of_lt_mul (Nat.mul_comm .. ▸ hnumber)
      have hdigit : number % 10 < 10 := Nat.mod_lt _ (by decide)
      have hvalue := ih hbefore
      rw [digitsValue] at hvalue
      rw [digitsValue, numeral, List.foldl_append, hvalue, List.foldl_cons, List.foldl_nil,
        toNat_digit hdigit]
      omega

/-- Numerals of one width are different for different numbers. -/
theorem numeral_inj {width first second : Nat} (hfirst : first < 10 ^ width)
    (hsecond : second < 10 ^ width) (hnumeral : numeral width first = numeral width second) :
    first = second := by
  rw [← digitsValue_numeral hfirst, hnumeral, digitsValue_numeral hsecond]

end Wnet.Foundation
