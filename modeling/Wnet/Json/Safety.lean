import Wnet.Json.Macros

/-!
# Which texts can be parsed

The macros look a member up without asking whether the document is an object, and read
a number or a bool without asking for its type. The code of a class therefore runs to
its end exactly on the documents that conform to the class, whatever the object held.
-/

namespace Wnet.Json

open Foundation Config

/-- The document is an object if it is asked for a member, and what is read from it, at any
depth, has the type that it is read as. Once a list or an object was read, null is in its
place for a macro that names it again. -/
def Conforms : Schema → Value → Prop
  | .done, _ => True
  | .int name rest, doc =>
      (doc.IsObject ∧ ∀ value ∈ doc.member? name, value.IsInt) ∧ Conforms rest doc
  | .bool name rest, doc =>
      (doc.IsObject ∧ ∀ value ∈ doc.member? name, value.IsBool) ∧ Conforms rest doc
  | .intList name rest, doc =>
      (doc.IsObject ∧ ∀ value ∈ doc.member? name, ∀ element ∈ value.elements, element.IsInt) ∧
        Conforms rest (doc.moveOut name)
  | .boolList name _ rest, doc =>
      (doc.IsObject ∧ ∀ value ∈ doc.member? name, ∀ element ∈ value.elements, element.IsBool) ∧
        Conforms rest (doc.moveOut name)
  | .object name members rest, doc =>
      (doc.IsObject ∧ ∀ value ∈ doc.member? name, Conforms members value) ∧
        Conforms rest (doc.moveOut name)
  | .objectList name _ members rest, doc =>
      (doc.IsObject ∧
        ∀ value ∈ doc.member? name, ∀ element ∈ value.elements, Conforms members element) ∧
        Conforms rest (doc.moveOut name)

variable {construct : Constructors}

/-- The code of a class runs to its end exactly on the documents that conform to it. -/
theorem isSome_praseMembers_iff (schema : Schema) (doc : Value) (object : schema.Object) :
    (praseMembers construct schema doc object).isSome ↔ Conforms schema doc := by
  induction schema generalizing doc with
  | done => simp [praseMembers, Conforms]
  | int name rest ih =>
      have hmember : (praseInt doc name object.1).isSome ↔
          doc.IsObject ∧ ∀ value ∈ doc.member? name, value.IsInt := by
        simp only [praseInt, isSome_praseMember_iff, Value.isSome_getInt_iff]
      exact isSome_pair_iff.trans (and_congr hmember (ih doc object.2))
  | bool name rest ih =>
      have hmember : (praseBool doc name object.1).isSome ↔
          doc.IsObject ∧ ∀ value ∈ doc.member? name, value.IsBool := by
        simp only [praseBool, isSome_praseMember_iff, Value.isSome_getBool_iff]
      exact isSome_pair_iff.trans (and_congr hmember (ih doc object.2))
  | intList name rest ih =>
      have hmember : (praseIntList doc name object.1).isSome ↔ doc.IsObject ∧
          ∀ value ∈ doc.member? name, ∀ element ∈ value.elements, element.IsInt := by
        simp only [praseIntList, isSome_praseMember_iff, isSome_pushElements_iff,
          Value.isSome_getInt_iff]
      exact isSome_pair_iff.trans (and_congr hmember (ih (doc.moveOut name) object.2))
  | boolList name container rest ih =>
      have hmember : (praseBoolList doc name object.1).isSome ↔ doc.IsObject ∧
          ∀ value ∈ doc.member? name, ∀ element ∈ value.elements, element.IsBool := by
        simp only [praseBoolList, isSome_praseMember_iff, isSome_pushElements_iff,
          Value.isSome_getBool_iff]
      exact isSome_pair_iff.trans (and_congr hmember (ih (doc.moveOut name) object.2))
  | object name members rest ihmembers ih =>
      have hmember : (praseObject (fun value start => praseMembers construct members value start)
          doc name object.1).isSome ↔
          doc.IsObject ∧ ∀ value ∈ doc.member? name, Conforms members value := by
        simp only [praseObject, isSome_praseMember_iff, ihmembers]
      exact isSome_pair_iff.trans (and_congr hmember (ih (doc.moveOut name) object.2))
  | objectList name type members rest ihmembers ih =>
      have hmember : (praseObjectList
          (fun value start => praseMembers construct members value start)
          (construct type members) doc name object.1).isSome ↔ doc.IsObject ∧
          ∀ value ∈ doc.member? name, ∀ element ∈ value.elements, Conforms members element := by
        simp only [praseObjectList, isSome_praseMember_iff, isSome_pushElements_iff, ihmembers]
      exact isSome_pair_iff.trans (and_congr hmember (ih (doc.moveOut name) object.2))

/-- A text is parsed or refused without an aborted program exactly when it is no document or
its document conforms to the class. -/
theorem praseJsonString_safe_iff (library : Rapidjson) (schema : Schema) (jsonStr : Bytes)
    (object : schema.Object) :
    (∃ outcome, praseJsonString library construct schema jsonStr object = some outcome) ↔
      ∀ doc ∈ library.parse (cString jsonStr), Conforms schema doc := by
  rw [← Option.isSome_iff_exists, praseJsonString]
  cases hparse : library.parse (cString jsonStr) with
  | none => simp
  | some doc => simp [isSome_praseMembers_iff]

/-- The empty array is a document, and no object to look a member up in. -/
theorem array_aborts :
    praseJsonString (.ofText (ascii "[]") (.array [])) (fun _ => Schema.zero)
      (.int (ascii "a") .done) (ascii "[]") (0, ()) = none := by
  rfl

/-! ## Classes with distinct names -/

/-- Every member that is there, at any depth, has the type that the class declares. -/
def Typed : Schema → Value → Prop
  | .done, _ => True
  | .int name rest, doc =>
      (doc.IsObject ∧ ∀ value ∈ doc.member? name, value.IsInt) ∧ Typed rest doc
  | .bool name rest, doc =>
      (doc.IsObject ∧ ∀ value ∈ doc.member? name, value.IsBool) ∧ Typed rest doc
  | .intList name rest, doc =>
      (doc.IsObject ∧ ∀ value ∈ doc.member? name, ∀ element ∈ value.elements, element.IsInt) ∧
        Typed rest doc
  | .boolList name _ rest, doc =>
      (doc.IsObject ∧ ∀ value ∈ doc.member? name, ∀ element ∈ value.elements, element.IsBool) ∧
        Typed rest doc
  | .object name members rest, doc =>
      (doc.IsObject ∧ ∀ value ∈ doc.member? name, Typed members value) ∧ Typed rest doc
  | .objectList name _ members rest, doc =>
      (doc.IsObject ∧
        ∀ value ∈ doc.member? name, ∀ element ∈ value.elements, Typed members element) ∧
        Typed rest doc

/-- Whether a document conforms depends on the members that the class names. -/
theorem typed_moveOut_iff {schema : Schema} {doc : Value} {name : Bytes}
    (hname : name ∉ schema.names) : Typed schema (doc.moveOut name) ↔ Typed schema doc := by
  induction schema with
  | done => rfl
  | int other rest ih | bool other rest ih | intList other rest ih | boolList other _ rest ih
  | object other _ rest _ ih | objectList other _ _ rest _ ih =>
      obtain ⟨hother, hrest⟩ := List.ne_and_not_mem_of_not_mem_cons hname
      simp only [Typed, Value.isObject_moveOut, Value.member?_moveOut_of_ne hother.symm,
        ih hrest]

/-- When no name is used twice it does not matter that lists and objects are moved out. -/
theorem conforms_iff_typed {schema : Schema} (hdistinct : schema.Distinct) (doc : Value) :
    Conforms schema doc ↔ Typed schema doc := by
  induction schema generalizing doc with
  | done => rfl
  | int name rest ih | bool name rest ih => simp only [Conforms, Typed, ih hdistinct.2]
  | intList name rest ih | boolList name _ rest ih =>
      simp only [Conforms, Typed, ih hdistinct.2, typed_moveOut_iff hdistinct.1]
  | object name members rest ihmembers ih | objectList name _ members rest ihmembers ih =>
      simp only [Conforms, Typed, ihmembers hdistinct.2.1, ih hdistinct.2.2,
        typed_moveOut_iff hdistinct.1]

end Wnet.Json
