import Wnet.Json.Value

/-!
# Classes described with the macros

A class lists its members between a `BEGIN` and an `END` macro, and each macro is
expanded to the code that formats or parses its member. The code of a class is the code
of its macros in the order of the class. Members and macros have one name, a member
`m_name` and a macro for `name`.
-/

namespace Wnet.Json

open Foundation Config

/-- The container of a list of bools. Every container but `std::vector<bool>` hands out its
elements as `bool`; that one hands out proxies. -/
inductive Container where
  | plain
  | vector
deriving DecidableEq

/-- The macros of a class, in order. A list of objects also names the class whose
constructor makes its elements. A member that is named by two macros counts once for each. -/
inductive Schema where
  | done
  | int (name : Bytes) (rest : Schema)
  | bool (name : Bytes) (rest : Schema)
  | intList (name : Bytes) (rest : Schema)
  | boolList (name : Bytes) (container : Container) (rest : Schema)
  | object (name : Bytes) (members rest : Schema)
  | objectList (name type : Bytes) (members rest : Schema)

namespace Schema

/-- The data members of an object of the class. -/
@[reducible] def Object : Schema → Type
  | done => Unit
  | int _ rest => Int32 × rest.Object
  | bool _ rest => Bool × rest.Object
  | intList _ rest => List Int32 × rest.Object
  | boolList _ _ rest => List Bool × rest.Object
  | object _ members rest => members.Object × rest.Object
  | objectList _ _ members rest => List members.Object × rest.Object

def names : Schema → List Bytes
  | done => []
  | int name rest => name :: rest.names
  | bool name rest => name :: rest.names
  | intList name rest => name :: rest.names
  | boolList name _ rest => name :: rest.names
  | object name _ rest => name :: rest.names
  | objectList name _ _ rest => name :: rest.names

/-- In the class, and in every class inside it, no two members have the same name. -/
def Distinct : Schema → Prop
  | done => True
  | int name rest => name ∉ rest.names ∧ rest.Distinct
  | bool name rest => name ∉ rest.names ∧ rest.Distinct
  | intList name rest => name ∉ rest.names ∧ rest.Distinct
  | boolList name _ rest => name ∉ rest.names ∧ rest.Distinct
  | object name members rest => name ∉ rest.names ∧ members.Distinct ∧ rest.Distinct
  | objectList name _ members rest => name ∉ rest.names ∧ members.Distinct ∧ rest.Distinct

/-- The object with zeros, `false` and empty lists. -/
def zero : (schema : Schema) → schema.Object
  | done => ()
  | int _ rest => (0, rest.zero)
  | bool _ rest => (false, rest.zero)
  | intList _ rest => ([], rest.zero)
  | boolList _ _ rest => ([], rest.zero)
  | object _ members rest => (members.zero, rest.zero)
  | objectList _ _ _ rest => ([], rest.zero)

end Schema

/-- The two directions of the library between texts and documents. -/
structure Rapidjson where
  parse : Bytes → Option Value
  write : Value → Bytes

/-- The library as far as one document and its text are concerned. -/
def Rapidjson.ofText (text : Bytes) (doc : Value) : Rapidjson where
  parse other := if other = text then some doc else none
  write _ := text

/-- What the default constructor of a named class makes of its members. -/
abbrev Constructors := Bytes → (members : Schema) → members.Object

/-! ## Parsing -/

/-- `if (jsonDoc.HasMember(#name)) { m_name = read(jsonDoc[#name]); }`. -/
def praseMember {Member : Type} (read : Value → Option Member) (doc : Value) (name : Bytes)
    (member : Member) : Option Member := do
  if ← doc.hasMember name then read (← doc.index name) else some member

/-- The body of a list macro: anything but an array is passed over, and the elements of an
array are pushed behind those that the list has. -/
def pushElements {Element : Type} (read : Value → Option Element) (value : Value)
    (list : List Element) : Option (List Element) := do
  let values ← value.elements.mapM read
  some (list ++ values)

def praseInt : Value → Bytes → Int32 → Option Int32 := praseMember Value.getInt

def praseBool : Value → Bytes → Bool → Option Bool := praseMember Value.getBool

def praseIntList (doc : Value) (name : Bytes) (list : List Int32) : Option (List Int32) :=
  praseMember (pushElements Value.getInt · list) doc name list

def praseBoolList (doc : Value) (name : Bytes) (list : List Bool) : Option (List Bool) :=
  praseMember (pushElements Value.getBool · list) doc name list

/-- `prase` is the `PraseJsonString` of the member's class. -/
def praseObject {Object : Type} (prase : Value → Object → Option Object) (doc : Value)
    (name : Bytes) (object : Object) : Option Object :=
  praseMember (prase · object) doc name object

def praseObjectList {Object : Type} (prase : Value → Object → Option Object) (start : Object)
    (doc : Value) (name : Bytes) (list : List Object) : Option (List Object) :=
  praseMember (pushElements (prase · start) · list) doc name list

/-- The macros of a class one after another. A list or an object is moved out of the
document before it is read. -/
def praseMembers (construct : Constructors) :
    (schema : Schema) → Value → schema.Object → Option schema.Object
  | .done, _, object => some object
  | .int name rest, doc, object => do
      let member ← praseInt doc name object.1
      let others ← praseMembers construct rest doc object.2
      some (member, others)
  | .bool name rest, doc, object => do
      let member ← praseBool doc name object.1
      let others ← praseMembers construct rest doc object.2
      some (member, others)
  | .intList name rest, doc, object => do
      let member ← praseIntList doc name object.1
      let others ← praseMembers construct rest (doc.moveOut name) object.2
      some (member, others)
  | .boolList name _ rest, doc, object => do
      let member ← praseBoolList doc name object.1
      let others ← praseMembers construct rest (doc.moveOut name) object.2
      some (member, others)
  | .object name members rest, doc, object => do
      let member ← praseObject (fun value start => praseMembers construct members value start)
        doc name object.1
      let others ← praseMembers construct rest (doc.moveOut name) object.2
      some (member, others)
  | .objectList name type members rest, doc, object => do
      let member ← praseObjectList
        (fun value start => praseMembers construct members value start) (construct type members)
        doc name object.1
      let others ← praseMembers construct rest (doc.moveOut name) object.2
      some (member, others)

/-- `PraseJsonString`: whether it returns true and the object it leaves, or nothing when an
assertion of the library is violated. -/
def praseJsonString (library : Rapidjson) (construct : Constructors) (schema : Schema)
    (jsonStr : Bytes) (object : schema.Object) : Option (Bool × schema.Object) :=
  match library.parse (cString jsonStr) with
  | none => some (false, object)
  | some doc => (praseMembers construct schema doc object).map (true, ·)

/-! ## Formatting -/

/-- What `PushBack(*it)` makes of an element. A proxy is no `bool`, so the overload that is
taken for it is the one for `int`. -/
def Container.element : Container → Bool → Value
  | plain, value => .bool value
  | vector, value => .integer (if value then 1 else 0)

def formatNumber (name : Bytes) (number : Int32) (doc : List (Bytes × Value)) :
    List (Bytes × Value) := Value.addMember doc name (.integer number.toInt)

def formatBool (name : Bytes) (value : Bool) (doc : List (Bytes × Value)) :
    List (Bytes × Value) :=
  if value then Value.addMember doc name (.bool true) else Value.addMember doc name (.bool false)

/-- `FORMAT_JSON_LIST` and `FORMAT_JSON_OBJECT_LIST`, which differ in what is pushed for an
element. -/
def formatList {Element : Type} (print : Element → Value) (name : Bytes) (list : List Element)
    (doc : List (Bytes × Value)) : List (Bytes × Value) :=
  Value.addMember doc name (.array (list.map print))

/-- `format` is the `FormatJsonToString` of the member's class, which adds its members to an
empty object. -/
def formatObject {Object : Type}
    (format : Object → List (Bytes × Value) → List (Bytes × Value)) (name : Bytes)
    (object : Object) (doc : List (Bytes × Value)) : List (Bytes × Value) :=
  Value.addMember doc name (.object (format object []))

/-- The macros of a class one after another, adding to the members of a document. -/
def formatMembers :
    (schema : Schema) → schema.Object → List (Bytes × Value) → List (Bytes × Value)
  | .done, _, doc => doc
  | .int name rest, object, doc =>
      formatMembers rest object.2 (formatNumber name object.1 doc)
  | .bool name rest, object, doc =>
      formatMembers rest object.2 (formatBool name object.1 doc)
  | .intList name rest, object, doc =>
      formatMembers rest object.2
        (formatList (fun number : Int32 => .integer number.toInt) name object.1 doc)
  | .boolList name container rest, object, doc =>
      formatMembers rest object.2 (formatList container.element name object.1 doc)
  | .object name members rest, object, doc =>
      formatMembers rest object.2
        (formatObject (fun member doc => formatMembers members member doc) name object.1 doc)
  | .objectList name _ members rest, object, doc =>
      formatMembers rest object.2
        (formatList (fun member => .object (formatMembers members member [])) name object.1 doc)

/-- The document that an object is formatted to. -/
def formatJson (schema : Schema) (object : schema.Object) : Value :=
  .object (formatMembers schema object [])

/-- `FormatJsonToString`, which returns what the writer left in the buffer as a C string. -/
def formatJsonToString (library : Rapidjson) (schema : Schema) (object : schema.Object) :
    Bytes := cString (library.write (formatJson schema object))

/-! ## What a macro reads -/

variable {Member : Type} {read : Value → Option Member} {doc : Value} {name : Bytes}
  {member result : Member}

/-- A macro may run when its document is an object and the member, if it is there, can be
read. -/
theorem isSome_praseMember_iff :
    (praseMember read doc name member).isSome ↔
      doc.IsObject ∧ ∀ value ∈ doc.member? name, (read value).isSome := by
  cases doc with
  | object members =>
      cases hfound : members.lookup name <;>
        simp [praseMember, Value.hasMember, Value.index, Value.findMember, Value.member?,
          Value.IsObject, hfound]
  | _ => simp [praseMember, Value.hasMember, Value.findMember, Value.IsObject]

/-- It leaves an absent member as it was, and gives another what was read. -/
theorem praseMember_eq_some_iff :
    praseMember read doc name member = some result ↔
      doc.IsObject ∧ ((doc.member? name = none ∧ member = result) ∨
        ∃ value, doc.member? name = some value ∧ read value = some result) := by
  cases doc with
  | object members =>
      cases hfound : members.lookup name <;>
        simp [praseMember, Value.hasMember, Value.index, Value.findMember, Value.member?,
          Value.IsObject, hfound]
  | _ => simp [praseMember, Value.hasMember, Value.findMember, Value.IsObject]

theorem isSome_pushElements_iff {Element : Type} {read : Value → Option Element} {value : Value}
    {list : List Element} :
    (pushElements read value list).isSome ↔ ∀ element ∈ value.elements, (read element).isSome := by
  rw [← isSome_mapM_iff, pushElements]
  cases value.elements.mapM read <;> simp

end Wnet.Json
