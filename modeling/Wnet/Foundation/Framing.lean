import Mathlib.Data.List.Basic
import Mathlib.Algebra.BigOperators.Group.List.Basic
import Mathlib.Algebra.GroupWithZero.Nat

/-!
# Incremental framing

A stream of frames: a header of fixed size, then a body whose length the header
gives. A reader keeps the unread elements and, between header and body, the
header it already took. `scan` is what one call of such a reader takes from its
unread elements when it decides by `fits` whether a body is complete; `parse` is
the scan with the exact decision. A scan that never takes an incomplete body is
a prefix of the parse of any longer input, which is what makes framing
independent of segmentation.
-/

namespace Wnet.Foundation

variable {β H : Type*}

structure Framing (β H : Type*) where
  headerSize : Nat
  headerSize_pos : 0 < headerSize
  /-- The header in the first `headerSize` elements; `none` when it is malformed. -/
  header : List β → Option H
  bodyLength : H → Nat

/-- Where a scan stops. -/
inductive Stop (β H : Type*)
  | short (rest : List β)
  | waiting (header : H) (rest : List β)
  | broken (rest : List β)

namespace Stop

def pending : Stop β H → Option H
  | short _ => none
  | waiting header _ => some header
  | broken _ => none

def rest : Stop β H → List β
  | short rest => rest
  | waiting _ rest => rest
  | broken rest => rest

end Stop

namespace Framing

variable (framing : Framing β H) (fits : Nat → H → Bool)

/-- Take frames from the unread elements until one is incomplete or malformed. -/
def scan : Option H → List β → List (H × List β) × Stop β H
  | some header, input =>
      if fits input.length header then
        let later := scan none (input.drop (framing.bodyLength header))
        ((header, input.take (framing.bodyLength header)) :: later.1, later.2)
      else ([], .waiting header input)
  | none, input =>
      if input.length < framing.headerSize then ([], .short input)
      else match framing.header (input.take framing.headerSize) with
        | none => ([], .broken (input.drop framing.headerSize))
        | some header => scan (some header) (input.drop framing.headerSize)
  termination_by pending input => 2 * input.length + pending.toList.length
  decreasing_by
    · simp only [List.length_drop, Option.toList_none, Option.toList_some, List.length_nil,
        List.length_singleton]
      omega
    · have := framing.headerSize_pos
      simp only [List.length_drop, Option.toList_none, Option.toList_some, List.length_nil,
        List.length_singleton]
      omega

/-- The exact decision: the body is there. -/
def complete (available : Nat) (header : H) : Bool := framing.bodyLength header ≤ available

/-- The scan that takes a body exactly when it is complete. -/
def parse : Option H → List β → List (H × List β) × Stop β H := framing.scan framing.complete

/-- What the elements after a stop add to the parse. -/
def resume : Stop β H → List β → List (H × List β) × Stop β H
  | .short rest, future => framing.parse none (rest ++ future)
  | .waiting header rest, future => framing.parse (some header) (rest ++ future)
  | .broken rest, future => ([], .broken (rest ++ future))

variable {framing fits}

theorem scan_fits {header : H} {input : List β} (hfits : fits input.length header) :
    framing.scan fits (some header) input =
      ((header, input.take (framing.bodyLength header)) ::
        (framing.scan fits none (input.drop (framing.bodyLength header))).1,
      (framing.scan fits none (input.drop (framing.bodyLength header))).2) := by
  rw [scan, if_pos hfits]

theorem scan_waiting {header : H} {input : List β} (hfits : ¬ fits input.length header) :
    framing.scan fits (some header) input = ([], .waiting header input) := by
  rw [scan, if_neg hfits]

theorem scan_short {input : List β} (hshort : input.length < framing.headerSize) :
    framing.scan fits none input = ([], .short input) := by
  rw [scan, if_pos hshort]

theorem scan_broken {input : List β} (hlong : ¬ input.length < framing.headerSize)
    (hheader : framing.header (input.take framing.headerSize) = none) :
    framing.scan fits none input = ([], .broken (input.drop framing.headerSize)) := by
  rw [scan, if_neg hlong, hheader]

theorem scan_header {input : List β} (hlong : ¬ input.length < framing.headerSize) {header : H}
    (hheader : framing.header (input.take framing.headerSize) = some header) :
    framing.scan fits none input =
      framing.scan fits (some header) (input.drop framing.headerSize) := by
  conv_lhs => rw [scan]
  rw [if_neg hlong, hheader]

theorem take_append_of_not_lt {size : Nat} {input : List β} (hlong : ¬ input.length < size)
    (future : List β) : (input ++ future).take size = input.take size ∧
      (input ++ future).drop size = input.drop size ++ future :=
  ⟨List.take_append_of_le_length (Nat.not_lt.mp hlong),
    List.drop_append_of_le_length (Nat.not_lt.mp hlong)⟩

/-- A scan that takes only complete bodies is the beginning of the parse of every
longer input. -/
theorem parse_append (hsound : ∀ available header, fits available header →
      framing.bodyLength header ≤ available)
    (pending : Option H) (input future : List β) :
    framing.parse pending (input ++ future) =
      ((framing.scan fits pending input).1 ++
        (framing.resume (framing.scan fits pending input).2 future).1,
      (framing.resume (framing.scan fits pending input).2 future).2) := by
  induction pending, input using scan.induct framing fits with
  | case1 header input hfits ih =>
      have hbody := hsound _ _ hfits
      obtain ⟨htake, hdrop⟩ := take_append_of_not_lt (Nat.not_lt.mpr hbody) future
      have hcomplete : framing.complete (input ++ future).length header := by
        simp only [complete, List.length_append, decide_eq_true_eq]
        omega
      rw [scan_fits hfits, parse, scan_fits hcomplete, htake, hdrop]
      rw [parse] at ih
      rw [ih, List.cons_append]
  | case2 header input hfits => simp [scan_waiting hfits, resume]
  | case3 input hshort => simp [scan_short hshort, resume]
  | case4 input hlong hheader =>
      obtain ⟨htake, hdrop⟩ := take_append_of_not_lt hlong future
      have hlong' : ¬ (input ++ future).length < framing.headerSize := by
        simp only [List.length_append]
        omega
      rw [scan_broken hlong hheader, parse, scan_broken hlong' (htake ▸ hheader), hdrop]
      rfl
  | case5 input hlong header hheader ih =>
      obtain ⟨htake, hdrop⟩ := take_append_of_not_lt hlong future
      have hlong' : ¬ (input ++ future).length < framing.headerSize := by
        simp only [List.length_append]
        omega
      rw [scan_header hlong hheader, parse, scan_header hlong' (htake ▸ hheader), hdrop]
      exact ih

/-- What a scan waits for did not fit, and satisfies what all headers satisfy. -/
theorem scan_pending (good : H → Prop) (hgood : ∀ input header,
      framing.header input = some header → good header)
    (pending : Option H) (input : List β) (hpending : ∀ header ∈ pending, good header) :
    ∀ header ∈ (framing.scan fits pending input).2.pending, good header ∧
      ¬ fits (framing.scan fits pending input).2.rest.length header := by
  induction pending, input using scan.induct framing fits with
  | case1 header input hfits ih =>
      rw [scan_fits hfits]
      exact ih (by simp)
  | case2 header input hfits =>
      rw [scan_waiting hfits]
      rintro other ⟨⟩
      exact ⟨hpending header rfl, hfits⟩
  | case3 input hshort => simp [scan_short hshort, Stop.pending]
  | case4 input hlong hheader => simp [scan_broken hlong hheader, Stop.pending]
  | case5 input hlong header hheader ih =>
      rw [scan_header hlong hheader]
      apply ih
      rintro other ⟨⟩
      exact hgood _ header hheader

/-- A scan leaves no more elements than it was given. -/
theorem scan_rest_length_le (pending : Option H) (input : List β) :
    (framing.scan fits pending input).2.rest.length ≤ input.length := by
  induction pending, input using scan.induct framing fits with
  | case1 header input hfits ih =>
      rw [scan_fits hfits]
      rw [List.length_drop] at ih
      exact Nat.le_trans ih (Nat.sub_le ..)
  | case2 header input hfits => simp [scan_waiting hfits, Stop.rest]
  | case3 input hshort => simp [scan_short hshort, Stop.rest]
  | case4 input hlong hheader =>
      rw [scan_broken hlong hheader, Stop.rest, List.length_drop]
      exact Nat.sub_le ..
  | case5 input hlong header hheader ih =>
      rw [scan_header hlong hheader]
      rw [List.length_drop] at ih
      exact Nat.le_trans ih (Nat.sub_le ..)

/-- The frames of a scan are as long as their headers say, and their headers satisfy
what all headers satisfy. -/
theorem scan_frames (hsound : ∀ available header, fits available header →
      framing.bodyLength header ≤ available)
    (good : H → Prop) (hgood : ∀ input header, framing.header input = some header → good header)
    (pending : Option H) (input : List β) (hpending : ∀ header ∈ pending, good header) :
    ∀ frame ∈ (framing.scan fits pending input).1, good frame.1 ∧
      frame.2.length = framing.bodyLength frame.1 := by
  induction pending, input using scan.induct framing fits with
  | case1 header input hfits ih =>
      rw [scan_fits hfits]
      intro frame hframe
      rcases List.mem_cons.mp hframe with rfl | hlater
      · exact ⟨hpending header rfl, List.length_take_of_le (hsound _ _ hfits)⟩
      · exact ih (by simp) frame hlater
  | case2 header input hfits => simp [scan_waiting hfits]
  | case3 input hshort => simp [scan_short hshort]
  | case4 input hlong hheader => simp [scan_broken hlong hheader]
  | case5 input hlong header hheader ih =>
      rw [scan_header hlong hheader]
      apply ih
      rintro other ⟨⟩
      exact hgood _ header hheader

variable (framing) in
/-- The number of elements of a list of frames. -/
def framesSize (frames : List (H × List β)) : Nat :=
  (frames.map fun frame => framing.headerSize + frame.2.length).sum

variable (framing) in
/-- The number of elements that a stop leaves outside of frames. -/
def stopSize : Stop β H → Nat
  | .short rest => rest.length
  | .waiting _ rest => framing.headerSize + rest.length
  | .broken rest => framing.headerSize + rest.length

variable (framing fits) in
/-- Every frame of a parse passes the check `fits` against the number of
elements behind its header. -/
def AllFit : List (H × List β) → Nat → Prop
  | [], _ => True
  | frame :: later, tail =>
      fits (frame.2.length + framing.framesSize later + tail) frame.1 ∧ AllFit later tail

variable (framing fits) in
/-- The parse of an input, from a pending header, passes every check and leaves
less than a header behind a malformed one. -/
def Clean (pending : Option H) (input : List β) : Prop :=
  framing.AllFit fits (framing.parse pending input).1
      (framing.stopSize (framing.parse pending input).2) ∧
    ∀ rest, (framing.parse pending input).2 = .broken rest → rest.length < framing.headerSize

theorem AllFit.append {first second : List (H × List β)} {tail : Nat}
    (hfit : framing.AllFit fits (first ++ second) tail) : framing.AllFit fits second tail := by
  induction first with
  | nil => exact hfit
  | cons frame first ih => exact ih hfit.2

/-- A parse accounts for every element of its input. -/
theorem parse_size (framing : Framing β H) (pending : Option H) (input : List β) :
    match pending with
    | none => framing.framesSize (framing.parse none input).1 +
        framing.stopSize (framing.parse none input).2 = input.length
    | some header => framing.framesSize (framing.parse (some header) input).1 +
        framing.stopSize (framing.parse (some header) input).2 =
          framing.headerSize + input.length := by
  induction pending, input using scan.induct framing framing.complete with
  | case1 header input hfits ih =>
      have hbody : framing.bodyLength header ≤ input.length := by
        simpa [complete] using hfits
      simp only [parse] at ih ⊢
      rw [scan_fits hfits]
      simp only [framesSize, List.map_cons, List.sum_cons, List.length_take,
        List.length_drop] at ih ⊢
      omega
  | case2 header input hfits =>
      simp [parse, scan_waiting hfits, framesSize, stopSize]
  | case3 input hshort => simp [parse, scan_short hshort, framesSize, stopSize]
  | case4 input hlong hheader =>
      simp only [parse, scan_broken hlong hheader, framesSize, stopSize, List.map_nil,
        List.sum_nil, List.length_drop]
      omega
  | case5 input hlong header hheader ih =>
      simp only [parse, scan_header hlong hheader, List.length_drop] at ih ⊢
      omega

/-- With all checks passed, the scan takes every complete frame. -/
theorem scan_eq_parse (hsound : ∀ available header, fits available header →
      framing.bodyLength header ≤ available)
    {pending : Option H} {input : List β}
    (hfit : framing.AllFit fits (framing.parse pending input).1
      (framing.stopSize (framing.parse pending input).2)) :
    framing.scan fits pending input = framing.parse pending input := by
  induction pending, input using scan.induct framing framing.complete with
  | case1 header input hcomplete ih =>
      have hsize := parse_size framing none (input.drop (framing.bodyLength header))
      simp only [parse] at hsize hfit ih ⊢
      rw [scan_fits hcomplete] at hfit ⊢
      obtain ⟨hfirst, hlater⟩ := hfit
      have hbody : framing.bodyLength header ≤ input.length := by
        simpa [complete] using hcomplete
      have hall : fits input.length header := by
        convert hfirst using 2
        simp only [List.length_take, List.length_drop] at hsize ⊢
        omega
      rw [scan_fits hall, ih hlater]
  | case2 header input hcomplete =>
      have hnot : ¬ fits input.length header := by
        intro hfits
        exact hcomplete (by simpa [complete] using hsound _ _ hfits)
      rw [parse, scan_waiting hcomplete, scan_waiting hnot]
  | case3 input hshort => rw [parse, scan_short hshort, scan_short hshort]
  | case4 input hlong hheader =>
      rw [parse, scan_broken hlong hheader, scan_broken hlong hheader]
  | case5 input hlong header hheader ih =>
      rw [parse, scan_header hlong hheader] at hfit ⊢
      rw [scan_header hlong hheader]
      exact ih hfit

/-- The first check that fails on a complete body leaves the reader waiting for it. -/
theorem scan_of_not_allFit {pending : Option H} {input : List β}
    (hfit : ¬ framing.AllFit fits (framing.parse pending input).1
      (framing.stopSize (framing.parse pending input).2)) :
    ∃ header rest, (framing.scan fits pending input).2 = .waiting header rest ∧
      framing.bodyLength header ≤ rest.length ∧ ¬ fits rest.length header := by
  induction pending, input using scan.induct framing framing.complete with
  | case1 header input hcomplete ih =>
      have hsize := parse_size framing none (input.drop (framing.bodyLength header))
      have hbody : framing.bodyLength header ≤ input.length := by
        simpa [complete] using hcomplete
      by_cases hall : fits input.length header
      · simp only [parse] at hsize hfit ih ⊢
        rw [scan_fits hcomplete] at hfit
        rw [scan_fits hall]
        refine ih fun hlater => hfit ⟨?_, hlater⟩
        convert hall using 2
        simp only [List.length_take, List.length_drop] at hsize ⊢
        omega
      · exact ⟨header, input, by rw [scan_waiting hall], hbody, hall⟩
  | case2 header input hcomplete => simp [parse, scan_waiting hcomplete, AllFit] at hfit
  | case3 input hshort => simp [parse, scan_short hshort, AllFit] at hfit
  | case4 input hlong hheader => simp [parse, scan_broken hlong hheader, AllFit] at hfit
  | case5 input hlong header hheader ih =>
      rw [parse, scan_header hlong hheader] at hfit
      rw [scan_header hlong hheader]
      exact ih hfit

variable (framing) in
/-- Less than a header is unread, or less than the body of the pending header. -/
def Bounded : Option H → List β → Prop
  | none, rest => rest.length < framing.headerSize
  | some header, rest => rest.length < framing.bodyLength header

theorem parse_stop (framing : Framing β H) (pending : Option H) (input : List β) :
    (∃ rest, (framing.parse pending input).2 = .broken rest) ∨
      framing.Bounded (framing.parse pending input).2.pending
        (framing.parse pending input).2.rest := by
  induction pending, input using scan.induct framing framing.complete with
  | case1 header input hcomplete ih =>
      rw [parse, scan_fits hcomplete]
      exact ih
  | case2 header input hcomplete =>
      refine Or.inr ?_
      rw [parse, scan_waiting hcomplete]
      simpa [complete, Bounded, Stop.pending, Stop.rest] using hcomplete
  | case3 input hshort =>
      refine Or.inr ?_
      rw [parse, scan_short hshort]
      exact hshort
  | case4 input hlong hheader =>
      refine Or.inl ⟨input.drop framing.headerSize, ?_⟩
      rw [parse, scan_broken hlong hheader]
  | case5 input hlong header hheader ih =>
      rw [parse, scan_header hlong hheader]
      exact ih

/-- A scan leaves a bounded rest exactly on a clean input. -/
theorem clean_iff_bounded (hsound : ∀ available header, fits available header →
      framing.bodyLength header ≤ available) (pending : Option H) (input : List β) :
    framing.Clean fits pending input ↔
      framing.Bounded (framing.scan fits pending input).2.pending
        (framing.scan fits pending input).2.rest := by
  constructor
  · rintro ⟨hfit, hbroken⟩
    rw [scan_eq_parse hsound hfit]
    rcases parse_stop framing pending input with ⟨rest, hstop⟩ | hbounded
    · rw [hstop]
      exact hbroken rest hstop
    · exact hbounded
  · intro hbounded
    by_cases hfit : framing.AllFit fits (framing.parse pending input).1
        (framing.stopSize (framing.parse pending input).2)
    · refine ⟨hfit, fun rest hstop => ?_⟩
      rw [scan_eq_parse hsound hfit, hstop] at hbounded
      exact hbounded
    · obtain ⟨header, rest, hstop, hbody, -⟩ := scan_of_not_allFit hfit
      rw [hstop] at hbounded
      exact absurd hbounded (Nat.not_lt.mpr hbody)

end Framing

end Wnet.Foundation
