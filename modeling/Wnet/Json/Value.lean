import Wnet.Foundation.NamedValues
import Wnet.Config.Text

/-!
# Values of a document

A `rapidjson` value and the accessors that the macros of `json_format.h` use. An accessor
whose precondition does not hold violates an assertion and has no result. Assigning from
a value moves it, and leaves null in its place.
-/

namespace Wnet.Json

open Foundation Config

inductive Value where
  | null
  | bool (value : Bool)
  | integer (number : Int)
  | double (bits : UInt64)
  | string (text : Bytes)
  | array (elements : List Value)
  | object (members : List (Bytes × Value))

namespace Value

def IsObject : Value → Prop
  | object _ => True
  | _ => False

def IsBool : Value → Prop
  | bool _ => True
  | _ => False

/-- An integer that `int` can hold; a number written with a fraction or an exponent is a
double. -/
def IsInt : Value → Prop
  | integer number => -0x80000000 ≤ number ∧ number < 0x80000000
  | _ => False

/-- The first member of the name. A value that is not an object has no members. -/
def member? : Value → Bytes → Option Value
  | object members, name => members.lookup name
  | _, _ => none

/-- The elements that a loop over the value visits, none unless it is an array. -/
def elements : Value → List Value
  | array elements => elements
  | _ => []

/-- `FindMember`, which asserts that the value is an object. -/
def findMember : Value → Bytes → Option (Option Value)
  | object members, name => some (members.lookup name)
  | _, _ => none

def hasMember (value : Value) (name : Bytes) : Option Bool :=
  (value.findMember name).map Option.isSome

/-- `operator[]`, which asserts that the member exists. -/
def index (value : Value) (name : Bytes) : Option Value := (value.findMember name).join

def getInt : Value → Option Int32
  | integer number =>
      if -0x80000000 ≤ number ∧ number < 0x80000000 then some (Int32.ofInt number) else none
  | _ => none

def getBool : Value → Option Bool
  | bool value => some value
  | _ => none

/-- The value after its first member of the name was moved out of it. -/
def moveOut : Value → Bytes → Value
  | object members, name => object (replaceFirst name null members)
  | value, _ => value

/-- `AddMember`. -/
def addMember (members : List (Bytes × Value)) (name : Bytes) (value : Value) :
    List (Bytes × Value) := members ++ [(name, value)]

variable {value : Value} {name other : Bytes}

theorem isSome_getInt_iff : value.getInt.isSome ↔ value.IsInt := by
  cases value with
  | integer number =>
      by_cases hrange : -0x80000000 ≤ number ∧ number < 0x80000000
      · rw [getInt, if_pos hrange]
        exact ⟨fun _ => hrange, fun _ => rfl⟩
      · rw [getInt, if_neg hrange]
        exact ⟨fun hsome => absurd hsome Bool.false_ne_true, fun hint => absurd hint hrange⟩
  | _ => simp [getInt, IsInt]

theorem isSome_getBool_iff : value.getBool.isSome ↔ value.IsBool := by
  cases value <;> simp [getBool, IsBool]

@[simp] theorem getInt_toInt (number : Int32) :
    (integer number.toInt).getInt = some number := by
  have hlow := Int32.le_toInt number
  have hhigh := Int32.toInt_lt number
  rw [getInt, if_pos ⟨by omega, by omega⟩, Int32.ofInt_toInt]

@[simp] theorem isObject_moveOut : (value.moveOut name).IsObject ↔ value.IsObject := by
  cases value <;> rfl

/-- Moving a member out does not change the members of other names. -/
theorem member?_moveOut_of_ne (hne : other ≠ name) :
    (value.moveOut name).member? other = value.member? other := by
  cases value with
  | object members => exact lookup_replaceFirst_of_ne hne null members
  | _ => rfl

end Value

end Wnet.Json
