import Wnet.Foundation.Run

/-!
# Simulation

A concrete component follows an abstract one when every step of the abstract one is a step
of the concrete one that leads to related states. Where the steps also return something,
what was returned is recorded with the state.
-/

namespace Wnet.Foundation

variable {Abstract Concrete State Label Result : Type*}

/-- The steps of a component together with a record of what they returned. -/
def recording (step : State → Label → Option (State × Result)) (state : State × List Result)
    (label : Label) : Option (State × List Result) :=
  (step state.1 label).map fun (next, result) => (next, state.2 ++ [result])

theorem recording_eq_some_iff {step : State → Label → Option (State × Result)}
    {state next : State × List Result} {label : Label} :
    recording step state label = some next ↔
      ∃ result, step state.1 label = some (next.1, result) ∧ next.2 = state.2 ++ [result] := by
  rw [recording, Option.map_eq_some_iff]
  constructor
  · rintro ⟨⟨after, result⟩, hstep, rfl⟩
    exact ⟨result, hstep, rfl⟩
  · rintro ⟨result, hstep, hresults⟩
    exact ⟨(next.1, result), hstep, Prod.ext rfl hresults.symm⟩

/-- A relation that steps keep is kept by runs. -/
theorem run_simulates (related : Abstract → Concrete → Prop)
    {abstractStep : Abstract → Label → Option Abstract}
    {concreteStep : Concrete → Label → Option Concrete}
    (hstep : ∀ abstract concrete label next, related abstract concrete →
      abstractStep abstract label = some next →
      ∃ after, concreteStep concrete label = some after ∧ related next after)
    {abstract final : Abstract} {concrete : Concrete} {labels : List Label}
    (hrelated : related abstract concrete) (hrun : run abstractStep abstract labels = some final) :
    ∃ after, run concreteStep concrete labels = some after ∧ related final after := by
  induction labels generalizing abstract concrete with
  | nil =>
      obtain rfl : abstract = final := by simpa using hrun
      exact ⟨concrete, rfl, hrelated⟩
  | cons label rest ih =>
      rw [run_cons] at hrun
      obtain ⟨next, hnext, hrest⟩ := Option.bind_eq_some_iff.mp hrun
      obtain ⟨middle, hmiddle, hkept⟩ := hstep abstract concrete label next hrelated hnext
      obtain ⟨after, hafter, hfinal⟩ := ih hkept hrest
      exact ⟨after, by rw [run_cons, hmiddle, Option.bind_some, hafter], hfinal⟩

end Wnet.Foundation
