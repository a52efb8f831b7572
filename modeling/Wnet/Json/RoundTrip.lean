import Wnet.Json.Macros

/-!
# Formatting and parsing back

Formatting adds the members in the order of the class, and parsing looks each of them up
in what the macros before it left of the document. With distinct names every member
finds what was formatted for it. An element of a `std::vector<bool>` was formatted as a
number, and cannot be read as a bool.
-/

namespace Wnet.Json

open Foundation Config

/-- An object whose lists are empty, as a constructor makes it. -/
def EmptyLists : (schema : Schema) → schema.Object → Prop
  | .done, _ => True
  | .int _ rest, object => EmptyLists rest object.2
  | .bool _ rest, object => EmptyLists rest object.2
  | .intList _ rest, object => object.1 = [] ∧ EmptyLists rest object.2
  | .boolList _ _ rest, object => object.1 = [] ∧ EmptyLists rest object.2
  | .object _ members rest, object => EmptyLists members object.1 ∧ EmptyLists rest object.2
  | .objectList _ _ _ rest, object => object.1 = [] ∧ EmptyLists rest object.2

/-- No `std::vector<bool>` of the object, at any depth, has an element. -/
def VectorsEmpty : (schema : Schema) → schema.Object → Prop
  | .done, _ => True
  | .int _ rest, object => VectorsEmpty rest object.2
  | .bool _ rest, object => VectorsEmpty rest object.2
  | .intList _ rest, object => VectorsEmpty rest object.2
  | .boolList _ container rest, object =>
      (container = .vector → object.1 = []) ∧ VectorsEmpty rest object.2
  | .object _ members rest, object => VectorsEmpty members object.1 ∧ VectorsEmpty rest object.2
  | .objectList _ _ members rest, object =>
      (∀ element ∈ object.1, VectorsEmpty members element) ∧ VectorsEmpty rest object.2

/-! ## The document of an object -/

theorem formatBool_eq_addMember (name : Bytes) (value : Bool) (doc : List (Bytes × Value)) :
    formatBool name value doc = Value.addMember doc name (.bool value) := by
  cases value <;> rfl

theorem formatMembers_eq_append (schema : Schema) (object : schema.Object)
    (doc : List (Bytes × Value)) :
    formatMembers schema object doc = doc ++ formatMembers schema object [] := by
  induction schema generalizing doc with
  | done => simp [formatMembers]
  | int name rest ih | bool name rest ih | intList name rest ih | boolList name _ rest ih
  | object name _ rest _ ih | objectList name _ _ rest _ ih =>
      simp only [formatMembers, formatNumber, formatBool_eq_addMember, formatList, formatObject,
        Value.addMember]
      rw [ih object.2 (doc ++ _), ih object.2 ([] ++ _), List.append_assoc, List.nil_append]

/-- The member added first is the first of the document. -/
theorem formatMembers_addMember (schema : Schema) (object : schema.Object) (name : Bytes)
    (value : Value) :
    formatMembers schema object (Value.addMember [] name value) =
      (name, value) :: formatMembers schema object [] := by
  rw [formatMembers_eq_append, Value.addMember, List.nil_append, List.singleton_append]

/-- What the class looks up in the document are the members of the formatted object. -/
structure Shows (schema : Schema) (object : schema.Object) (doc : Value) : Prop where
  isObject : doc.IsObject
  found : ∀ name ∈ schema.names,
    doc.member? name = (formatMembers schema object []).lookup name

theorem shows_formatJson (schema : Schema) (object : schema.Object) :
    Shows schema object (formatJson schema object) where
  isObject := trivial
  found _ _ := rfl

section Macro

variable {schema rest : Schema} {object : schema.Object} {remaining : rest.Object} {doc : Value}
  {name : Bytes} {value : Value}

theorem Shows.moveOut (hshows : Shows rest remaining doc) (hdistinct : name ∉ rest.names) :
    Shows rest remaining (doc.moveOut name) where
  isObject := Value.isObject_moveOut.mpr hshows.isObject
  found other hother := by
    have hne : other ≠ name := fun heq => hdistinct (heq ▸ hother)
    rw [Value.member?_moveOut_of_ne hne, hshows.found other hother]

/-- The first macro of a class finds its own member, and the macros after it find theirs, in the
document and in what is left of it when that member is moved out. -/
theorem Shows.first (hshows : Shows schema object doc)
    (hname : schema.names = name :: rest.names) (hdistinct : name ∉ rest.names)
    (hmembers : formatMembers schema object [] =
      (name, value) :: formatMembers rest remaining []) :
    doc.member? name = some value ∧ Shows rest remaining doc ∧
      Shows rest remaining (doc.moveOut name) := by
  have hrest : Shows rest remaining doc := by
    refine ⟨hshows.isObject, fun other hother => ?_⟩
    have hne : (other == name) = false := by
      simpa using fun heq : other = name => hdistinct (heq ▸ hother)
    rw [hshows.found other (by simp [hname, hother]), hmembers, List.lookup_cons, hne]
  refine ⟨?_, hrest, hrest.moveOut hdistinct⟩
  rw [hshows.found name (by simp [hname]), hmembers, List.lookup_cons_self]

end Macro

section Read

variable {doc : Value} {name : Bytes}

theorem praseMember_found {Member : Type} {read : Value → Option Member} {value : Value}
    {member result : Member} (hobject : doc.IsObject) (hfound : doc.member? name = some value) :
    praseMember read doc name member = some result ↔ read value = some result := by
  simp [praseMember_eq_some_iff, hobject, hfound]

/-- A list that was formatted element by element is read into an empty one exactly when each of
its elements is. -/
theorem pushElements_map_iff {Element : Type} {read : Value → Option Element}
    {print : Element → Value} {list : List Element} :
    pushElements read (.array (list.map print)) [] = some list ↔
      ∀ element ∈ list, read (print element) = some element := by
  rw [← mapM_map_eq_some_iff, pushElements, Value.elements]
  cases (list.map print).mapM read <;> simp

/-- A proxy is formatted as a number, which is not read as a bool. -/
theorem getBool_element_iff {container : Container} {list : List Bool} :
    (∀ value ∈ list, (container.element value).getBool = some value) ↔
      (container = .vector → list = []) := by
  cases container with
  | plain => simp [Container.element, Value.getBool]
  | vector => simp [Container.element, Value.getBool, List.eq_nil_iff_forall_not_mem]

end Read

/-! ## Parsing what was formatted -/

/-- By induction on the class: each macro finds what was formatted for it, because the macros
before it moved out members of other names only. -/
theorem praseMembers_eq_some_iff {construct : Constructors}
    (hconstruct : ∀ type members, EmptyLists members (construct type members))
    (schema : Schema) (hdistinct : schema.Distinct) {object start : schema.Object} {doc : Value}
    (hshows : Shows schema object doc) (hempty : EmptyLists schema start) :
    praseMembers construct schema doc start = some object ↔ VectorsEmpty schema object := by
  induction schema generalizing doc with
  | done => simp [praseMembers, VectorsEmpty]
  | int name rest ih =>
      have hmembers : formatMembers (.int name rest) object [] =
          (name, .integer object.1.toInt) :: formatMembers rest object.2 [] :=
        formatMembers_addMember ..
      obtain ⟨hfound, hnext, -⟩ := hshows.first rfl hdistinct.1 hmembers
      have hmember : praseInt doc name start.1 = some object.1 :=
        (praseMember_found hshows.isObject hfound).mpr (Value.getInt_toInt _)
      have hrest := ih hdistinct.2 hnext hempty
      exact pair_eq_some_iff.trans ((and_iff_right hmember).trans hrest)
  | bool name rest ih =>
      have hmembers : formatMembers (.bool name rest) object [] =
          (name, .bool object.1) :: formatMembers rest object.2 [] := by
        rw [formatMembers, formatBool_eq_addMember, formatMembers_addMember]
      obtain ⟨hfound, hnext, -⟩ := hshows.first rfl hdistinct.1 hmembers
      have hmember : praseBool doc name start.1 = some object.1 :=
        (praseMember_found hshows.isObject hfound).mpr rfl
      have hrest := ih hdistinct.2 hnext hempty
      exact pair_eq_some_iff.trans ((and_iff_right hmember).trans hrest)
  | intList name rest ih =>
      have hmembers : formatMembers (.intList name rest) object [] =
          (name, .array (object.1.map fun number => .integer number.toInt)) ::
            formatMembers rest object.2 [] := formatMembers_addMember ..
      obtain ⟨hfound, -, hmoved⟩ := hshows.first rfl hdistinct.1 hmembers
      have hmember : praseIntList doc name start.1 = some object.1 := by
        rw [praseIntList, hempty.1, praseMember_found hshows.isObject hfound,
          pushElements_map_iff]
        exact fun number _ => Value.getInt_toInt number
      have hrest := ih hdistinct.2 hmoved hempty.2
      exact pair_eq_some_iff.trans ((and_iff_right hmember).trans hrest)
  | boolList name container rest ih =>
      have hmembers : formatMembers (.boolList name container rest) object [] =
          (name, .array (object.1.map container.element)) :: formatMembers rest object.2 [] :=
        formatMembers_addMember ..
      obtain ⟨hfound, -, hmoved⟩ := hshows.first rfl hdistinct.1 hmembers
      -- The only macro that does not read what its counterpart wrote.
      have hmember : praseBoolList doc name start.1 = some object.1 ↔
          (container = .vector → object.1 = []) := by
        rw [praseBoolList, hempty.1, praseMember_found hshows.isObject hfound,
          pushElements_map_iff, getBool_element_iff]
      have hrest := ih hdistinct.2 hmoved hempty.2
      exact pair_eq_some_iff.trans (and_congr hmember hrest)
  | object name members rest ihmembers ih =>
      have hmembers : formatMembers (.object name members rest) object [] =
          (name, formatJson members object.1) :: formatMembers rest object.2 [] :=
        formatMembers_addMember ..
      obtain ⟨hfound, -, hmoved⟩ := hshows.first rfl hdistinct.1 hmembers
      have hmember : praseObject (fun value start => praseMembers construct members value start)
          doc name start.1 = some object.1 ↔ VectorsEmpty members object.1 := by
        rw [praseObject, praseMember_found hshows.isObject hfound]
        exact ihmembers hdistinct.2.1 (shows_formatJson members object.1) hempty.1
      have hrest := ih hdistinct.2.2 hmoved hempty.2
      exact pair_eq_some_iff.trans (and_congr hmember hrest)
  | objectList name type members rest ihmembers ih =>
      have hmembers : formatMembers (.objectList name type members rest) object [] =
          (name, .array (object.1.map (formatJson members))) :: formatMembers rest object.2 [] :=
        formatMembers_addMember ..
      obtain ⟨hfound, -, hmoved⟩ := hshows.first rfl hdistinct.1 hmembers
      have hmember : praseObjectList
          (fun value start => praseMembers construct members value start)
          (construct type members) doc name start.1 = some object.1 ↔
          ∀ element ∈ object.1, VectorsEmpty members element := by
        rw [praseObjectList, hempty.1, praseMember_found hshows.isObject hfound,
          pushElements_map_iff]
        -- Each element is read into an object that the constructor has just made.
        refine forall₂_congr fun element _ => ?_
        exact ihmembers hdistinct.2.1 (shows_formatJson members element) (hconstruct type members)
      have hrest := ih hdistinct.2.2 hmoved hempty.2
      exact pair_eq_some_iff.trans (and_congr hmember hrest)

/-- A formatted object is parsed back exactly when each `std::vector<bool>` in it is empty. -/
theorem praseJsonString_formatJsonToString_iff {library : Rapidjson} {construct : Constructors}
    (hconstruct : ∀ type members, EmptyLists members (construct type members))
    {schema : Schema} (hdistinct : schema.Distinct) {object start : schema.Object}
    (hempty : EmptyLists schema start)
    (hnul : 0 ∉ library.write (formatJson schema object))
    (hparse : library.parse (library.write (formatJson schema object)) =
      some (formatJson schema object)) :
    praseJsonString library construct schema (formatJsonToString library schema object) start =
      some (true, object) ↔ VectorsEmpty schema object := by
  have hmembers := praseMembers_eq_some_iff hconstruct schema hdistinct
    (shows_formatJson schema object) hempty
  rw [praseJsonString, formatJsonToString, cString_eq_self hnul, cString_eq_self hnul, hparse,
    ← hmembers]
  simp

theorem emptyLists_zero (schema : Schema) : EmptyLists schema schema.zero := by
  induction schema with
  | done => trivial
  | int _ _ ih | bool _ _ ih => exact ih
  | intList _ _ ih | boolList _ _ _ ih | objectList _ _ _ _ _ ih => exact ⟨rfl, ih⟩
  | object _ _ _ ihmembers ih => exact ⟨ihmembers, ih⟩

/-- A number and a list of bools. -/
abbrev numberAndBools (container : Container) : Schema :=
  .int (ascii "a") (.boolList (ascii "b") container .done)

/-- The library on the object with the number 5 and the list of `true`, in its text. -/
def numberAndBoolsLibrary (container : Container) (text : String) : Rapidjson :=
  .ofText (ascii text) (formatJson (numberAndBools container) (5, [true], ()))

theorem numberAndBools_parsed :
    praseJsonString (numberAndBoolsLibrary .plain "\x7b\"a\":5,\"b\":[true]\x7d")
      (fun _ => Schema.zero) (numberAndBools .plain)
      (formatJsonToString (numberAndBoolsLibrary .plain "\x7b\"a\":5,\"b\":[true]\x7d")
        (numberAndBools .plain) (5, [true], ())) (0, [], ()) = some (true, 5, [true], ()) :=
  (praseJsonString_formatJsonToString_iff (fun _ => emptyLists_zero)
    (show (numberAndBools .plain).Distinct from ⟨by decide, by decide, trivial⟩)
    ⟨rfl, trivial⟩ (by decide) rfl).mpr ⟨fun hvector => absurd hvector (by decide), trivial⟩

/-- The only element of a `std::vector<bool>` is written as the number 1, and asked for a bool
when it is read. -/
theorem numberAndBools_vector_not_parsed :
    (numberAndBools .vector).Distinct ∧ EmptyLists (numberAndBools .vector) (0, [], ()) ∧
      formatJson (numberAndBools .vector) (5, [true], ()) =
        .object [(ascii "a", .integer 5), (ascii "b", .array [.integer 1])] ∧
      praseJsonString (numberAndBoolsLibrary .vector "\x7b\"a\":5,\"b\":[1]\x7d")
        (fun _ => Schema.zero) (numberAndBools .vector)
        (formatJsonToString (numberAndBoolsLibrary .vector "\x7b\"a\":5,\"b\":[1]\x7d")
          (numberAndBools .vector) (5, [true], ())) (0, [], ()) = none :=
  ⟨⟨by decide, by decide, trivial⟩, ⟨rfl, trivial⟩, rfl, rfl⟩

end Wnet.Json
