import Mathlib.Data.List.Induction

/-!
# Runs of partial step functions

A component is driven by a list of labels. Each label either has a unique
successor state or is not possible in the current state. Nondeterminism of the
environment is carried by the labels, so a run is determined by its labels and
every claim about all interleavings is a claim about all label lists.
-/

namespace Wnet.Foundation

variable {State Label : Type*} {step : State → Label → Option State}

/-- Execute a list of labels; `none` when some label is not possible. -/
def run (step : State → Label → Option State) : State → List Label → Option State
  | state, [] => some state
  | state, label :: rest => (step state label).bind fun next => run step next rest

@[simp] theorem run_nil (state : State) : run step state [] = some state := rfl

theorem run_cons (state : State) (label : Label) (rest : List Label) :
    run step state (label :: rest) =
      (step state label).bind fun next => run step next rest := rfl

theorem run_append (state : State) (first second : List Label) :
    run step state (first ++ second) =
      (run step state first).bind fun middle => run step middle second := by
  induction first generalizing state with
  | nil => rfl
  | cons label rest ih =>
      rw [List.cons_append, run_cons, run_cons]
      cases hstep : step state label with
      | none => rfl
      | some next => exact ih next

theorem run_concat {state middle final : State} {labels : List Label} {label : Label}
    (hrun : run step state labels = some middle) (hstep : step middle label = some final) :
    run step state (labels ++ [label]) = some final := by
  rw [run_append, hrun]
  simp [run_cons, hstep]

theorem exists_of_run_concat {state final : State} {labels : List Label} {label : Label}
    (hrun : run step state (labels ++ [label]) = some final) :
    ∃ middle, run step state labels = some middle ∧ step middle label = some final := by
  rw [run_append] at hrun
  obtain ⟨middle, hmiddle, hrest⟩ := Option.bind_eq_some_iff.mp hrun
  rw [run_cons] at hrest
  obtain ⟨next, hnext, hfinal⟩ := Option.bind_eq_some_iff.mp hrest
  obtain rfl : next = final := by simpa using hfinal
  exact ⟨middle, hmiddle, hnext⟩

/-- Every prefix of a possible run is possible. -/
theorem exists_run_of_append {state final : State} {first second : List Label}
    (hrun : run step state (first ++ second) = some final) :
    ∃ middle, run step state first = some middle ∧ run step middle second = some final := by
  rw [run_append] at hrun
  exact Option.bind_eq_some_iff.mp hrun

/-- A predicate preserved by every step that the run takes holds at its end.
The step premise may use the whole run leading to the step. -/
theorem run_invariant (invariant : State → Prop) {start final : State} {labels : List Label}
    (hstart : invariant start)
    (hstep : ∀ before label after middle next, labels = before ++ label :: after →
      run step start before = some middle → invariant middle →
      step middle label = some next → invariant next)
    (hrun : run step start labels = some final) : invariant final := by
  induction labels using List.reverseRecOn generalizing final with
  | nil =>
      obtain rfl : start = final := by simpa using hrun
      exact hstart
  | append_singleton labels label ih =>
      obtain ⟨middle, hmiddle, hlast⟩ := exists_of_run_concat hrun
      have hinvariant : invariant middle := by
        refine ih ?_ hmiddle
        intro before label' after current next hsplit hcurrent hholds hnext
        exact hstep before label' (after ++ [label]) current next
          (by rw [hsplit, List.append_assoc, List.cons_append]) hcurrent hholds hnext
      exact hstep labels label [] middle final rfl hmiddle hinvariant hlast

/-- Every step that a list of labels takes meets a condition on the state before it. -/
def Along (step : State → Label → Option State) (condition : State → Label → Prop) :
    State → List Label → Prop
  | _, [] => True
  | state, label :: rest =>
      condition state label ∧ ∀ next ∈ step state label, Along step condition next rest

instance decidableAlong {condition : State → Label → Prop}
    [∀ state label, Decidable (condition state label)] :
    ∀ state labels, Decidable (Along step condition state labels)
  | _, [] => inferInstanceAs (Decidable True)
  | state, label :: rest =>
      letI : DecidablePred fun next => Along step condition next rest :=
        fun next => decidableAlong next rest
      inferInstanceAs (Decidable (condition state label ∧
        ∀ next ∈ step state label, Along step condition next rest))

/-- A predicate preserved by the steps that meet a condition holds at the end of
a run all of whose steps meet it. -/
theorem run_invariant_along (invariant : State → Prop) {condition : State → Label → Prop}
    (hstep : ∀ state label next, invariant state → condition state label →
      step state label = some next → invariant next)
    {labels : List Label} {start final : State} (hstart : invariant start)
    (halong : Along step condition start labels)
    (hrun : run step start labels = some final) : invariant final := by
  induction labels generalizing start with
  | nil =>
      obtain rfl : start = final := by simpa using hrun
      exact hstart
  | cons label rest ih =>
      rw [run_cons] at hrun
      obtain ⟨next, hnext, hrest⟩ := Option.bind_eq_some_iff.mp hrun
      exact ih (hstep start label next hstart halong.1 hnext) (halong.2 next hnext) hrest

/-- The same for steps that are taken where they are possible. -/
theorem run_invariant_possible (invariant : State → Prop)
    {condition possible : State → Label → Prop}
    [∀ state label, Decidable (possible state label)] {act : State → Label → Option State}
    (hdef : ∀ state label,
      step state label = if possible state label then act state label else none)
    (hact : ∀ state label, invariant state → possible state label → condition state label →
      ∀ next ∈ act state label, invariant next)
    {labels : List Label} {start final : State} (hstart : invariant start)
    (halong : Along step condition start labels)
    (hrun : run step start labels = some final) : invariant final := by
  refine run_invariant_along invariant ?_ hstart halong hrun
  intro state label next hinvariant hcondition hstep
  rw [hdef] at hstep
  split at hstep
  next hpossible => exact hact state label hinvariant hpossible hcondition next hstep
  next => cases hstep

/-- What holds of some result of a partial function holds of its result. -/
theorem forall_mem_of_exists_mem {Value : Type*} {result : Option Value} {holds : Value → Prop}
    (hresult : ∃ value ∈ result, holds value) : ∀ value ∈ result, holds value := by
  obtain ⟨value, hvalue, hholds⟩ := hresult
  intro other hother
  obtain rfl := Option.mem_unique hvalue hother
  exact hholds

/-- A condition that implies another one in all states that satisfy an invariant. -/
theorem Along.imp_of_invariant (invariant : State → Prop)
    {condition condition' : State → Label → Prop}
    (hstep : ∀ state label next, invariant state → condition state label →
      step state label = some next → invariant next)
    (himp : ∀ state label, invariant state → condition state label → condition' state label)
    {labels : List Label} {start : State} (hstart : invariant start)
    (halong : Along step condition start labels) : Along step condition' start labels := by
  induction labels generalizing start with
  | nil => trivial
  | cons label rest ih =>
      refine ⟨himp start label hstart halong.1, fun next hnext => ?_⟩
      exact ih (hstep start label next hstart halong.1 hnext) (halong.2 next hnext)

/-- What holds of all labels of a run may be added to a condition on its steps. -/
theorem Along.and_mem {condition : State → Label → Prop} {good : Label → Prop}
    {labels : List Label} {start : State} (halong : Along step condition start labels)
    (hgood : ∀ label ∈ labels, good label) :
    Along step (fun state label => condition state label ∧ good label) start labels := by
  induction labels generalizing start with
  | nil => trivial
  | cons label rest ih =>
      refine ⟨⟨halong.1, hgood label List.mem_cons_self⟩, fun next hnext => ?_⟩
      exact ih (halong.2 next hnext) fun other hother => hgood other (List.mem_cons_of_mem _ hother)

/-- A condition on all steps of a run is one on all steps of a part of it. -/
theorem Along.of_append {condition : State → Label → Prop} {first second : List Label}
    {start : State} (halong : Along step condition start (first ++ second)) :
    Along step condition start first := by
  induction first generalizing start with
  | nil => trivial
  | cons label rest ih => exact ⟨halong.1, fun next hnext => ih (halong.2 next hnext)⟩

/-! ## Histories -/

section History

variable {Event : Type*}

/-- One event occurs in a history before another. -/
def Precedes (history : List Event) (first second : Event) : Prop :=
  [first, second].Sublist history

instance [DecidableEq Event] (history : List Event) (first second : Event) :
    Decidable (Precedes history first second) :=
  inferInstanceAs (Decidable ([first, second].Sublist history))

theorem Precedes.mem {history : List Event} {first second : Event}
    (hprecedes : Precedes history first second) : first ∈ history ∧ second ∈ history :=
  ⟨hprecedes.subset (by simp), hprecedes.subset (by simp)⟩

/-- A new event comes after everything that happened. -/
theorem precedes_concat {history : List Event} {event first second : Event} :
    Precedes (history ++ [event]) first second ↔
      Precedes history first second ∨ first ∈ history ∧ second = event := by
  constructor
  · intro hprecedes
    obtain ⟨before, last, hsplit, hbefore, hlast⟩ := List.sublist_append_iff.mp hprecedes
    rcases List.sublist_cons_iff.mp hlast with hnil | ⟨rest, rfl, hrest⟩
    · rw [List.sublist_nil.mp hnil, List.append_nil] at hsplit
      subst hsplit
      exact Or.inl hbefore
    · rw [List.sublist_nil.mp hrest] at hsplit
      obtain ⟨rfl, hevent⟩ := List.append_inj' (show [first] ++ [second] = _ from hsplit) rfl
      exact Or.inr ⟨List.singleton_sublist.mp hbefore, by simpa using hevent⟩
  · rintro (hprecedes | ⟨hfirst, rfl⟩)
    · exact hprecedes.trans (List.sublist_append_left _ _)
    · exact (List.singleton_sublist.mpr hfirst).append (List.Sublist.refl [second])

end History

end Wnet.Foundation
