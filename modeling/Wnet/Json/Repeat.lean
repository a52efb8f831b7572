import Wnet.Json.Macros

/-!
# Parsing a text again

Numbers and bools are assigned, but the elements of a list are pushed behind those that
the list has, and no macro clears it. A second parse of a text therefore changes the
object as soon as the text has an element for one of its lists. The elements of a list
of objects are made anew each time, so that what is in them does not matter.
-/

namespace Wnet.Json

open Foundation Config

/-- Every list of the object or of an object inside it is absent from the document, or has no
elements there. -/
def PushesNothing : Schema → Value → Prop
  | .done, _ => True
  | .int _ rest, doc => PushesNothing rest doc
  | .bool _ rest, doc => PushesNothing rest doc
  | .intList name rest, doc =>
      (∀ value ∈ doc.member? name, value.elements = []) ∧ PushesNothing rest (doc.moveOut name)
  | .boolList name _ rest, doc =>
      (∀ value ∈ doc.member? name, value.elements = []) ∧ PushesNothing rest (doc.moveOut name)
  | .object name members rest, doc =>
      (∀ value ∈ doc.member? name, PushesNothing members value) ∧
        PushesNothing rest (doc.moveOut name)
  | .objectList name _ _ rest, doc =>
      (∀ value ∈ doc.member? name, value.elements = []) ∧ PushesNothing rest (doc.moveOut name)

section Macro

variable {Member : Type} {read again : Value → Option Member} {doc : Value} {name : Bytes}
  {member result : Member}

/-- A macro that runs once more keeps its member if reading the value once more does. An absent
member is kept in any case. -/
theorem praseMember_again_iff {Keeps : Value → Prop}
    (hfirst : praseMember read doc name member = some result)
    (hagain : ∀ value, read value = some result → (again value = some result ↔ Keeps value)) :
    praseMember again doc name result = some result ↔ ∀ value ∈ doc.member? name, Keeps value := by
  obtain ⟨hobject, ⟨habsent, _⟩ | ⟨value, hfound, hread⟩⟩ := praseMember_eq_some_iff.mp hfirst
  · simp [praseMember_eq_some_iff, hobject, habsent]
  · simp [praseMember_eq_some_iff, hobject, hfound, hagain value hread]

/-- A number or a bool is assigned what it was assigned before. -/
theorem praseMember_again (hfirst : praseMember read doc name member = some result) :
    praseMember read doc name result = some result :=
  (praseMember_again_iff hfirst fun _ hread => ⟨fun _ => trivial, fun _ => hread⟩).mpr
    fun _ _ => trivial

theorem pushElements_again_iff {Element : Type} {read : Value → Option Element}
    {value : Value} {list result : List Element}
    (hfirst : pushElements read value list = some result) :
    pushElements read value result = some result ↔ value.elements = [] := by
  simp only [pushElements, Option.bind_eq_bind, Option.bind_eq_some_iff, Option.some_inj] at hfirst
  obtain ⟨values, hvalues, rfl⟩ := hfirst
  have hnil : value.elements.mapM read = some [] ↔ value.elements = [] := mapM_eq_some_nil_iff
  rw [← hnil, pushElements, hvalues]
  simp

theorem praseList_again_iff {Element : Type} {read : Value → Option Element}
    {list result : List Element}
    (hfirst : praseMember (pushElements read · list) doc name list = some result) :
    praseMember (pushElements read · result) doc name result = some result ↔
      ∀ value ∈ doc.member? name, value.elements = [] :=
  praseMember_again_iff hfirst fun _ => pushElements_again_iff

end Macro

variable {construct : Constructors}

/-- By induction on the class: a macro finds the same member in both parses, since both move out
the same members before it. -/
theorem praseMembers_again_iff (schema : Schema) {doc : Value} {start object : schema.Object}
    (hfirst : praseMembers construct schema doc start = some object) :
    praseMembers construct schema doc object = some object ↔ PushesNothing schema doc := by
  induction schema generalizing doc with
  | done => simp [praseMembers, PushesNothing]
  | int name rest ih | bool name rest ih =>
      obtain ⟨hmember, hothers⟩ := pair_eq_some_iff.mp hfirst
      exact pair_eq_some_iff.trans ((and_iff_right (praseMember_again hmember)).trans (ih hothers))
  | intList name rest ih | boolList name _ rest ih | objectList name type members rest _ ih =>
      obtain ⟨hmember, hothers⟩ := pair_eq_some_iff.mp hfirst
      exact pair_eq_some_iff.trans (and_congr (praseList_again_iff hmember) (ih hothers))
  | object name members rest ihmembers ih =>
      obtain ⟨hmember, hothers⟩ := pair_eq_some_iff.mp hfirst
      exact pair_eq_some_iff.trans
        (and_congr (praseMember_again_iff hmember fun _ => ihmembers) (ih hothers))

/-- A text that was parsed leaves the object as it is when it is parsed again exactly when it has
no element for any of its lists. -/
theorem praseJsonString_again_iff {library : Rapidjson} {schema : Schema} {jsonStr : Bytes}
    {start object : schema.Object}
    (hfirst : praseJsonString library construct schema jsonStr start = some (true, object)) :
    praseJsonString library construct schema jsonStr object = some (true, object) ↔
      ∀ doc ∈ library.parse (cString jsonStr), PushesNothing schema doc := by
  unfold praseJsonString at hfirst ⊢
  cases hparse : library.parse (cString jsonStr) with
  | none => simp [hparse] at hfirst
  | some doc =>
      simp only [hparse, Option.map_eq_some_iff, Prod.mk.injEq, true_and, exists_eq_right]
        at hfirst
      simp [praseMembers_again_iff schema hfirst]

/-- A number and a list of numbers. -/
abbrev numberAndList : Schema := .int (ascii "a") (.intList (ascii "b") .done)

/-- The library on the document with the number 5 and the given list, in its text. -/
def numberAndListLibrary (numbers : List Int) (text : String) : Rapidjson :=
  .ofText (ascii text)
    (.object [(ascii "a", .integer 5), (ascii "b", .array (numbers.map .integer))])

theorem emptyList_parsed (number : Int32) :
    praseJsonString (numberAndListLibrary [] "\x7b\"a\":5,\"b\":[]\x7d") (fun _ => Schema.zero)
      numberAndList (ascii "\x7b\"a\":5,\"b\":[]\x7d") (number, [7], ()) =
      some (true, 5, [7], ()) := rfl

theorem emptyList_parsed_again :
    praseJsonString (numberAndListLibrary [] "\x7b\"a\":5,\"b\":[]\x7d") (fun _ => Schema.zero)
      numberAndList (ascii "\x7b\"a\":5,\"b\":[]\x7d") (5, [7], ()) =
      some (true, 5, [7], ()) :=
  (praseJsonString_again_iff (emptyList_parsed 0)).mpr (by
    rintro doc ⟨⟩
    refine ⟨?_, trivial⟩
    rintro value ⟨⟩
    rfl)

/-- A list with one number has that number twice after a second parse. -/
theorem list_pushed_twice :
    praseJsonString (numberAndListLibrary [7] "\x7b\"a\":5,\"b\":[7]\x7d")
        (fun _ => Schema.zero) numberAndList (ascii "\x7b\"a\":5,\"b\":[7]\x7d") (0, [], ()) =
        some (true, 5, [7], ()) ∧
      praseJsonString (numberAndListLibrary [7] "\x7b\"a\":5,\"b\":[7]\x7d")
        (fun _ => Schema.zero) numberAndList (ascii "\x7b\"a\":5,\"b\":[7]\x7d") (5, [7], ()) =
        some (true, 5, [7, 7], ()) :=
  ⟨rfl, rfl⟩

end Wnet.Json
