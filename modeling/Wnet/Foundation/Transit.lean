import Wnet.Foundation.Feeding

/-!
# Frames on their way

A writer puts whole frames into a stream and a reader takes the stream in
arbitrary pieces. What the reader has not taken yet is split between its unread
elements and the elements in transit; together, and with the header it waits on,
they parse to frames that the writer wrote.
-/

namespace Wnet.Foundation.Framing

variable {β H : Type*} {framing : Framing β H}

/-- The unread elements of a reader and the elements in transit carry these frames, and
nothing besides. -/
def Carries (framing : Framing β H) (state : Option H × List β) (transit : List β)
    (frames : List (H × List β)) : Prop :=
  framing.parse state.1 (state.2 ++ transit) = (frames, .short [])

namespace Carries

variable {state : Option H × List β} {transit : List β} {frames : List (H × List β)}
  {encodeHeader : H → List β}

theorem nothing : framing.Carries (none, []) [] [] :=
  scan_short framing.headerSize_pos

/-- Frames that are written come after those that are on their way. -/
theorem write (hcarries : framing.Carries state transit frames)
    {written : List (H × List β)}
    (hwritten : ∀ frame ∈ written, framing.WellFormed encodeHeader frame) :
    framing.Carries state (transit ++ written.flatMap (frameBytes encodeHeader))
      (frames ++ written) := by
  have hparse : framing.parse state.1 (state.2 ++ transit) = (frames, .short []) := hcarries
  rw [Carries, ← List.append_assoc, parse_append_parse, hparse, resume, List.nil_append,
    parse_stream hwritten]

/-- A chunk leaves the transit and is unread. -/
theorem arrive (hcarries : framing.Carries state transit frames) (count : Nat) :
    framing.Carries (state.1, state.2 ++ transit.take count) (transit.drop count) frames := by
  have hall : state.2 ++ transit.take count ++ transit.drop count = state.2 ++ transit := by
    rw [List.append_assoc, List.take_append_drop]
  rw [Carries, hall]
  exact hcarries

/-- A reader that never takes an incomplete body takes the first of the frames. -/
theorem scan {fits : Nat → H → Bool} (hsound : ∀ available header, fits available header →
      framing.bodyLength header ≤ available)
    (hcarries : framing.Carries state transit frames) :
    ∃ later, frames = (framing.scan fits state.1 state.2).1 ++ later ∧
      framing.Carries ((framing.scan fits state.1 state.2).2.pending,
        (framing.scan fits state.1 state.2).2.rest) transit later := by
  have hparse : framing.parse state.1 (state.2 ++ transit) = (frames, .short []) := hcarries
  rw [parse_append hsound] at hparse
  obtain ⟨hframes, hstop⟩ := Prod.mk.inj hparse
  refine ⟨_, hframes.symm, ?_⟩
  have hnotBroken : ∀ rest, (framing.scan fits state.1 state.2).2 ≠ .broken rest := by
    intro rest hbroken
    rw [hbroken] at hstop
    cases hstop
  rw [Carries, ← resume_of_not_broken hnotBroken]
  exact Prod.ext rfl hstop

/-- One call of such a reader. -/
theorem feed {fits : Nat → H → Bool} (hsound : ∀ available header, fits available header →
      framing.bodyLength header ≤ available)
    (hcarries : framing.Carries state transit frames) (count : Nat) :
    ∃ later, frames = (framing.feed fits state (transit.take count)).1 ++ later ∧
      framing.Carries (framing.feed fits state (transit.take count)).2 (transit.drop count)
        later :=
  (hcarries.arrive count).scan hsound

/-- A reader with a pending header whose body is there takes the body. -/
theorem body {header : H} {input : List β}
    (hcarries : framing.Carries (some header, input) transit frames)
    (hbody : framing.bodyLength header ≤ input.length) :
    ∃ later, frames = (header, input.take (framing.bodyLength header)) :: later ∧
      framing.Carries (none, input.drop (framing.bodyLength header)) transit later := by
  have hcomplete : framing.complete (input ++ transit).length header := by
    simp only [complete, List.length_append, decide_eq_true_eq]
    omega
  obtain ⟨htake, hdrop⟩ := take_append_of_not_lt (Nat.not_lt.mpr hbody) transit
  have hparse : framing.parse (some header) (input ++ transit) = (frames, .short []) := hcarries
  rw [parse, scan_fits hcomplete, htake, hdrop] at hparse
  obtain ⟨hframes, hstop⟩ := Prod.mk.inj hparse
  exact ⟨_, hframes.symm, Prod.ext rfl hstop⟩

/-- A reader without a pending header finds a well-formed one. -/
theorem header {input : List β} (hcarries : framing.Carries (none, input) transit frames)
    (hlong : ¬ input.length < framing.headerSize) :
    ∃ header, framing.header (input.take framing.headerSize) = some header ∧
      framing.Carries (some header, input.drop framing.headerSize) transit frames := by
  obtain ⟨htake, hdrop⟩ := take_append_of_not_lt hlong transit
  have hlong' : ¬ (input ++ transit).length < framing.headerSize := by
    rw [List.length_append]
    omega
  have hparse : framing.parse none (input ++ transit) = (frames, .short []) := hcarries
  cases hheader : framing.header (input.take framing.headerSize) with
  | none =>
      rw [parse, scan_broken hlong' (htake ▸ hheader)] at hparse
      cases hparse
  | some header =>
      rw [parse, scan_header hlong' (htake ▸ hheader), hdrop] at hparse
      exact ⟨header, rfl, hparse⟩

end Carries

end Wnet.Foundation.Framing
