import Wnet.Foundation.Framing
import Mathlib.Data.List.Induction

/-!
# Feeding a framed stream in chunks

The reader appends each chunk to its unread elements and scans. If the check
passes in every step, the frames taken so far are those of the parse of
everything received so far. If it passes on the whole input in one piece,
segmentation still makes no difference at the end.
-/

namespace Wnet.Foundation.Framing

variable {β H : Type*} (framing : Framing β H) (fits : Nat → H → Bool)

/-- Append a chunk to the unread elements and scan. -/
def feed (state : Option H × List β) (chunk : List β) :
    List (H × List β) × Option H × List β :=
  let taken := framing.scan fits state.1 (state.2 ++ chunk)
  (taken.1, taken.2.pending, taken.2.rest)

/-- Feed chunks in turn and collect the frames. -/
def feedAll : Option H × List β → List (List β) → List (H × List β) × Option H × List β
  | state, [] => ([], state)
  | state, chunk :: chunks =>
      let first := framing.feed fits state chunk
      let later := feedAll first.2 chunks
      (first.1 ++ later.1, later.2)

/-- Every complete frame of the unread elements and a chunk passes the check. -/
def StepFits (state : Option H × List β) (chunk : List β) : Prop :=
  framing.AllFit fits (framing.parse state.1 (state.2 ++ chunk)).1
    (framing.stopSize (framing.parse state.1 (state.2 ++ chunk)).2)

variable {framing fits}

theorem feedAll_append (state : Option H × List β) (first second : List (List β)) :
    framing.feedAll fits state (first ++ second) =
      ((framing.feedAll fits state first).1 ++
        (framing.feedAll fits (framing.feedAll fits state first).2 second).1,
      (framing.feedAll fits (framing.feedAll fits state first).2 second).2) := by
  induction first generalizing state with
  | nil => rfl
  | cons chunk chunks ih => simp only [List.cons_append, feedAll, ih, List.append_assoc]

/-- The frames of a run are as long as their headers say, and their headers satisfy
what all headers satisfy. -/
theorem feedAll_mem (hsound : ∀ available header, fits available header →
      framing.bodyLength header ≤ available)
    (good : H → Prop) (hgood : ∀ input header, framing.header input = some header → good header)
    (state : Option H × List β) (chunks : List (List β))
    (hpending : ∀ header ∈ state.1, good header) :
    ∀ frame ∈ (framing.feedAll fits state chunks).1, good frame.1 ∧
      frame.2.length = framing.bodyLength frame.1 := by
  induction chunks generalizing state with
  | nil => simp [feedAll]
  | cons chunk chunks ih =>
      intro frame hframe
      rcases List.mem_append.mp hframe with hfirst | hlater
      · exact scan_frames hsound good hgood state.1 (state.2 ++ chunk) hpending frame hfirst
      · apply ih (framing.feed fits state chunk).2 _ frame hlater
        intro header hheader
        exact (scan_pending good hgood state.1 (state.2 ++ chunk) hpending header hheader).1

/-- What is unread is no longer than what was received. -/
theorem feedAll_rest_length_le (state : Option H × List β) (chunks : List (List β)) :
    (framing.feedAll fits state chunks).2.2.length ≤ state.2.length + chunks.flatten.length := by
  induction chunks generalizing state with
  | nil => simp [feedAll]
  | cons chunk chunks ih =>
      have hscan : (framing.feed fits state chunk).2.2.length ≤ (state.2 ++ chunk).length :=
        scan_rest_length_le state.1 (state.2 ++ chunk)
      have hlater := ih (framing.feed fits state chunk).2
      rw [List.length_append] at hscan
      rw [feedAll, List.flatten_cons, List.length_append]
      dsimp only
      omega

theorem resume_of_not_broken {stop : Stop β H} (hstop : ∀ rest, stop ≠ .broken rest)
    (future : List β) :
    framing.resume stop future = framing.parse stop.pending (stop.rest ++ future) := by
  cases stop with
  | short rest => rfl
  | waiting header rest => rfl
  | broken rest => exact absurd rfl (hstop rest)

theorem parse_append_parse (pending : Option H) (input future : List β) :
    framing.parse pending (input ++ future) =
      ((framing.parse pending input).1 ++
        (framing.resume (framing.parse pending input).2 future).1,
      (framing.resume (framing.parse pending input).2 future).2) := by
  refine parse_append ?_ pending input future
  intro available header hcomplete
  simpa [complete] using hcomplete

/-- A prefix of an input in which nothing is malformed. -/
theorem parse_not_broken_of_append {pending : Option H} {input future : List β}
    (hstop : ∀ rest, (framing.parse pending (input ++ future)).2 ≠ .broken rest) :
    ∀ rest, (framing.parse pending input).2 ≠ .broken rest := by
  intro rest hbroken
  rw [parse_append_parse, hbroken] at hstop
  exact hstop _ rfl

theorem parse_of_bounded {pending : Option H} {rest : List β}
    (hbounded : framing.Bounded pending rest) :
    (framing.parse pending rest).1 = [] ∧ (framing.parse pending rest).2.pending = pending ∧
      (framing.parse pending rest).2.rest = rest ∧
      ∀ other, (framing.parse pending rest).2 ≠ .broken other := by
  cases pending with
  | none => simp [parse, scan_short hbounded, Stop.pending, Stop.rest]
  | some header =>
      have hwait : ¬ framing.complete rest.length header := by
        simpa [complete, Bounded] using hbounded
      simp [parse, scan_waiting hwait, Stop.pending, Stop.rest]

theorem clean_of_short {input : List β} (hshort : input.length < framing.headerSize) :
    framing.Clean fits none input := by
  simp [Clean, parse, scan_short hshort, AllFit]

section Sound

variable (hsound : ∀ available header, fits available header →
  framing.bodyLength header ≤ available)
include hsound

/-- On a clean input the last call of any segmentation completes the parse. -/
theorem feedAll_of_clean {chunks : List (List β)} {pending : Option H} {unread : List β}
    (hchunks : chunks ≠ []) (hclean : framing.Clean fits pending (unread ++ chunks.flatten)) :
    framing.feedAll fits (pending, unread) chunks =
      ((framing.parse pending (unread ++ chunks.flatten)).1,
        (framing.parse pending (unread ++ chunks.flatten)).2.pending,
        (framing.parse pending (unread ++ chunks.flatten)).2.rest) := by
  induction chunks generalizing pending unread with
  | nil => exact absurd rfl hchunks
  | cons chunk chunks ih =>
      cases chunks with
      | nil =>
          simp only [List.flatten_cons, List.flatten_nil, List.append_nil] at hclean ⊢
          simp only [feedAll, feed, List.append_nil, scan_eq_parse hsound hclean.1]
      | cons chunk' chunks =>
          have happend := parse_append hsound pending (unread ++ chunk) (chunk' :: chunks).flatten
          rw [List.append_assoc, ← List.flatten_cons] at happend
          rw [Clean, happend] at hclean
          rw [happend, feedAll]
          simp only [feed]
          by_cases hbroken : ∃ rest, (framing.scan fits pending (unread ++ chunk)).2 = .broken rest
          · obtain ⟨rest, hstop⟩ := hbroken
            rw [hstop] at hclean ⊢
            have hshort := hclean.2 _ rfl
            have hparse : framing.parse none (rest ++ (chunk' :: chunks).flatten) =
                ([], .short (rest ++ (chunk' :: chunks).flatten)) := scan_short hshort
            have hrest := ih (by simp) (clean_of_short hshort)
            rw [hparse] at hrest
            simp only [Stop.pending, Stop.rest] at hrest ⊢
            rw [hrest]
            rfl
          · have hstop : ∀ rest, (framing.scan fits pending (unread ++ chunk)).2 ≠ .broken rest :=
              fun rest hrest => hbroken ⟨rest, hrest⟩
            rw [resume_of_not_broken hstop] at hclean ⊢
            rw [ih (by simp) ⟨hclean.1.append, hclean.2⟩]

/-- On a clean input a new reader ends where the parse ends, whatever the segmentation. -/
theorem feedAll_new_of_clean {chunks : List (List β)}
    (hclean : framing.Clean fits none chunks.flatten) :
    framing.feedAll fits (none, []) chunks =
      ((framing.parse none chunks.flatten).1, (framing.parse none chunks.flatten).2.pending,
        (framing.parse none chunks.flatten).2.rest) := by
  cases chunks with
  | nil =>
      have hshort : ([] : List β).length < framing.headerSize := framing.headerSize_pos
      rw [List.flatten_nil, parse, scan_short hshort]
      rfl
  | cons chunk chunks =>
      have hfed := @feedAll_of_clean β H framing fits hsound (chunk :: chunks) none []
        (List.cons_ne_nil chunk chunks) hclean
      rwa [List.nil_append] at hfed

/-- If every check passes, and nothing malformed was received, the reader is
where the parse of everything received is. -/
theorem feedAll_of_allFit {chunks : List (List β)} {pending : Option H} {unread : List β}
    (hbounded : framing.Bounded pending unread)
    (hsteps : ∀ before chunk later, chunks = before ++ chunk :: later →
      framing.StepFits fits (framing.feedAll fits (pending, unread) before).2 chunk)
    (hstop : ∀ rest, (framing.parse pending (unread ++ chunks.flatten)).2 ≠ .broken rest) :
    framing.feedAll fits (pending, unread) chunks =
      ((framing.parse pending (unread ++ chunks.flatten)).1,
        (framing.parse pending (unread ++ chunks.flatten)).2.pending,
        (framing.parse pending (unread ++ chunks.flatten)).2.rest) := by
  induction chunks generalizing pending unread with
  | nil =>
      obtain ⟨hframes, hpending, hrest, -⟩ := parse_of_bounded hbounded
      simp [feedAll, hframes, hpending, hrest]
  | cons chunk chunks ih =>
      have hscan := scan_eq_parse hsound (hsteps [] chunk chunks rfl)
      simp only [feedAll] at hscan
      have happend := parse_append hsound pending (unread ++ chunk) chunks.flatten
      rw [List.append_assoc, ← List.flatten_cons] at happend
      rw [happend] at hstop ⊢
      have hrest : ∀ rest, (framing.scan fits pending (unread ++ chunk)).2 ≠ .broken rest := by
        intro rest hbroken
        rw [hbroken] at hstop
        exact hstop _ rfl
      have hbounded' : framing.Bounded (framing.scan fits pending (unread ++ chunk)).2.pending
          (framing.scan fits pending (unread ++ chunk)).2.rest := by
        rw [hscan] at hrest ⊢
        exact (parse_stop framing _ _).resolve_left fun ⟨rest, hbroken⟩ => hrest rest hbroken
      rw [resume_of_not_broken hrest] at hstop ⊢
      rw [feedAll]
      simp only [feed]
      rw [ih hbounded' ?_ hstop]
      intro before chunk' later hsplit
      exact hsteps (chunk :: before) chunk' later (by rw [hsplit, List.cons_append])

/-- A failing check makes the scan take fewer frames than are complete. -/
theorem length_scan_lt_of_not_allFit {pending : Option H} {input : List β}
    (hfit : ¬ framing.AllFit fits (framing.parse pending input).1
      (framing.stopSize (framing.parse pending input).2)) :
    (framing.scan fits pending input).1.length < (framing.parse pending input).1.length := by
  obtain ⟨header, rest, hstop, hbody, -⟩ := scan_of_not_allFit hfit
  have happend := parse_append hsound pending input []
  rw [List.append_nil, hstop] at happend
  have hcomplete : framing.complete (rest ++ []).length header := by
    simpa [complete] using hbody
  rw [happend, resume, parse, scan_fits hcomplete]
  simp

/-- If after every chunk as many frames were taken as are complete, every check passed. -/
theorem stepFits_of_length {pending : Option H} {unread : List β}
    (hbounded : framing.Bounded pending unread) {chunks : List (List β)}
    (hstop : ∀ rest, (framing.parse pending (unread ++ chunks.flatten)).2 ≠ .broken rest)
    (hlength : ∀ before later, chunks = before ++ later →
      (framing.feedAll fits (pending, unread) before).1.length =
        (framing.parse pending (unread ++ before.flatten)).1.length)
    (before : List (List β)) {chunk : List β} {later : List (List β)}
    (hsplit : chunks = before ++ chunk :: later) :
    framing.StepFits fits (framing.feedAll fits (pending, unread) before).2 chunk := by
  induction chunks using List.reverseRecOn generalizing before chunk later with
  | nil => simp at hsplit
  | append_singleton chunks last ih =>
      have hstop' : ∀ rest,
          (framing.parse pending (unread ++ chunks.flatten)).2 ≠ .broken rest := by
        rw [List.flatten_append, ← List.append_assoc] at hstop
        exact parse_not_broken_of_append hstop
      have hearlier : ∀ before chunk later, chunks = before ++ chunk :: later →
          framing.StepFits fits (framing.feedAll fits (pending, unread) before).2 chunk := by
        intro before chunk later hsplit
        refine ih hstop' ?_ before hsplit
        intro before later hinitial
        exact hlength before (later ++ [last]) (by rw [hinitial, List.append_assoc])
      rcases List.eq_nil_or_concat later with rfl | ⟨later, final, rfl⟩
      · obtain ⟨rfl, hlast⟩ := List.append_inj' hsplit rfl
        obtain rfl : last = chunk := by simpa using hlast
        have hfed := feedAll_of_allFit hsound hbounded hearlier hstop'
        by_contra hfit
        rw [StepFits] at hfit
        have hshort := length_scan_lt_of_not_allFit hsound hfit
        have hall := hlength (chunks ++ [last]) [] (by simp)
        rw [feedAll_append, List.flatten_append, ← List.append_assoc,
          parse_append_parse pending (unread ++ chunks.flatten), resume_of_not_broken hstop',
          hfed] at hall
        rw [hfed] at hshort
        simp only [feedAll, feed, List.append_nil, List.flatten_cons, List.flatten_nil,
          List.length_append] at hall hshort
        omega
      · refine hearlier before chunk later ?_
        rw [List.concat_eq_append, ← List.cons_append, ← List.append_assoc] at hsplit
        exact (List.append_inj' hsplit rfl).1

end Sound

/-- A check that is exact below a limit passes on every input below the limit. -/
theorem allFit_of_lt {limit : Nat} (hexact : ∀ available header, available < limit →
      framing.bodyLength header ≤ available → fits available header)
    {pending : Option H} {input : List β} (hlimit : input.length < limit) :
    framing.AllFit fits (framing.parse pending input).1
      (framing.stopSize (framing.parse pending input).2) := by
  induction pending, input using scan.induct framing framing.complete with
  | case1 header input hcomplete ih =>
      have hsize := parse_size framing none (input.drop (framing.bodyLength header))
      have hbody : framing.bodyLength header ≤ input.length := by
        simpa [complete] using hcomplete
      simp only [parse] at hsize ih ⊢
      rw [scan_fits hcomplete]
      refine ⟨?_, ih (by simp only [List.length_drop]; omega)⟩
      simp only [List.length_take, List.length_drop] at hsize ⊢
      apply hexact <;> omega
  | case2 header input hcomplete => simp [parse, scan_waiting hcomplete, AllFit]
  | case3 input hshort => simp [parse, scan_short hshort, AllFit]
  | case4 input hlong hheader => simp [parse, scan_broken hlong hheader, AllFit]
  | case5 input hlong header hheader ih =>
      rw [parse, scan_header hlong hheader]
      exact ih (by simp only [List.length_drop]; omega)

/-- Such a check passes in every step while less than the limit is received in all. -/
theorem stepFits_of_lt {limit : Nat} (hexact : ∀ available header, available < limit →
      framing.bodyLength header ≤ available → fits available header)
    {state : Option H × List β} {chunks : List (List β)}
    (hlimit : state.2.length + chunks.flatten.length < limit) {before : List (List β)}
    {chunk : List β} {later : List (List β)} (hsplit : chunks = before ++ chunk :: later) :
    framing.StepFits fits (framing.feedAll fits state before).2 chunk := by
  have hunread := @feedAll_rest_length_le _ _ framing fits state before
  apply allFit_of_lt hexact
  rw [hsplit, List.flatten_append, List.flatten_cons, List.length_append, List.length_append]
    at hlimit
  rw [List.length_append]
  omega

/-! ## One element at a time -/

section Limit

variable {limit : Nat} (hexact : ∀ available header, available < limit →
    framing.bodyLength header ≤ available → fits available header)
  (hheader : framing.headerSize < limit) (hbody : ∀ header, framing.bodyLength header < limit)
include hexact hheader hbody

theorem clean_singleton {pending : Option H} {unread : List β}
    (hbounded : framing.Bounded pending unread) (element : β) :
    framing.Clean fits pending (unread ++ [element]) := by
  cases pending with
  | none =>
      have hle : (unread ++ [element]).length ≤ framing.headerSize := by
        rw [List.length_append, List.length_singleton]
        exact Nat.succ_le_of_lt hbounded
      refine ⟨allFit_of_lt hexact (by omega), fun rest hstop => ?_⟩
      by_cases hshort : (unread ++ [element]).length < framing.headerSize
      · simp [parse, scan_short hshort] at hstop
      · have hsize := parse_size framing none (unread ++ [element])
        simp only [hstop, stopSize] at hsize
        have := framing.headerSize_pos
        omega
  | some header =>
      have hle : (unread ++ [element]).length ≤ framing.bodyLength header := by
        rw [List.length_append, List.length_singleton]
        exact Nat.succ_le_of_lt hbounded
      have hlt := hbody header
      refine ⟨allFit_of_lt hexact (by omega), fun rest hstop => ?_⟩
      by_cases hcomplete : framing.complete (unread ++ [element]).length header
      · have hempty : (unread ++ [element]).drop (framing.bodyLength header) = [] :=
          List.drop_eq_nil_of_le hle
        have hshort : ([] : List β).length < framing.headerSize := framing.headerSize_pos
        rw [parse, scan_fits hcomplete, hempty, scan_short hshort] at hstop
        cases hstop
      · simp [parse, scan_waiting hcomplete] at hstop

theorem feedAll_singletons_bounded
    (hsound : ∀ available header, fits available header →
      framing.bodyLength header ≤ available)
    (input : List β) (pending : Option H) (unread : List β)
    (hbounded : framing.Bounded pending unread) :
    framing.Bounded (framing.feedAll fits (pending, unread) (input.map ([·]))).2.1
      (framing.feedAll fits (pending, unread) (input.map ([·]))).2.2 := by
  induction input generalizing pending unread with
  | nil => exact hbounded
  | cons element input ih =>
      rw [List.map_cons, feedAll]
      apply ih
      have hclean := clean_singleton hexact hheader hbody hbounded element
      exact (clean_iff_bounded hsound _ _).mp hclean

/-- If the input in one piece and the input element by element leave the same
unread elements, the input is clean. -/
theorem clean_of_same_rest
    (hsound : ∀ available header, fits available header →
      framing.bodyLength header ≤ available)
    {input : List β}
    (hpending : (framing.feedAll fits (none, []) [input]).2.1.isSome =
      (framing.feedAll fits (none, []) (input.map ([·]))).2.1.isSome)
    (hrest : (framing.feedAll fits (none, []) [input]).2.2 =
      (framing.feedAll fits (none, []) (input.map ([·]))).2.2) :
    framing.Clean fits none input := by
  have hbounded := feedAll_singletons_bounded hexact hheader hbody hsound input none []
    framing.headerSize_pos
  rw [← hrest] at hbounded
  simp only [feedAll, feed, List.nil_append] at hbounded hpending
  by_cases hfit : framing.AllFit fits (framing.parse none input).1
      (framing.stopSize (framing.parse none input).2)
  · refine ⟨hfit, fun rest hstop => ?_⟩
    rw [scan_eq_parse hsound hfit, hstop] at hbounded hpending
    simp only [Stop.pending, Stop.rest, Option.isSome_none] at hbounded hpending
    rw [Option.isNone_iff_eq_none.mp (Option.isSome_eq_false_iff.mp hpending.symm)] at hbounded
    exact hbounded
  · obtain ⟨header, rest, hstop, hle, hnot⟩ := scan_of_not_allFit hfit
    have hlong : limit ≤ rest.length := by
      by_contra hlt
      exact hnot (hexact _ _ (Nat.not_le.mp hlt) hle)
    rw [hstop] at hbounded
    cases hstate : (framing.feedAll fits (none, []) (input.map ([·]))).2.1 with
    | none =>
        rw [hstate] at hbounded
        simp only [Bounded, Stop.rest] at hbounded
        omega
    | some other =>
        rw [hstate] at hbounded
        have := hbody other
        simp only [Bounded, Stop.rest] at hbounded
        omega

end Limit

/-! ## Streams of well-formed frames -/

section Wire

variable (framing) in
/-- How a frame stands on the wire. -/
def frameBytes (encodeHeader : H → List β) (frame : H × List β) : List β :=
  encodeHeader frame.1 ++ frame.2

variable (framing) in
/-- A frame whose header is read back and whose body has the announced length. -/
structure WellFormed (encodeHeader : H → List β) (frame : H × List β) : Prop where
  size : (encodeHeader frame.1).length = framing.headerSize
  header : framing.header (encodeHeader frame.1) = some frame.1
  body : frame.2.length = framing.bodyLength frame.1

variable (framing) in
/-- The frames that are complete within the first elements of their stream. -/
def received : List (H × List β) → Nat → List (H × List β)
  | [], _ => []
  | frame :: later, available =>
      if framing.headerSize + frame.2.length ≤ available then
        frame :: received later (available - (framing.headerSize + frame.2.length))
      else []

variable {encodeHeader : H → List β}

theorem received_isPrefix (frames : List (H × List β)) (available : Nat) :
    framing.received frames available <+: frames := by
  induction frames generalizing available with
  | nil => exact List.prefix_rfl
  | cons frame later ih =>
      rw [received]
      split
      · exact List.prefix_cons_inj frame |>.mpr (ih _)
      · exact List.nil_prefix

/-- Reading the header of a frame whose header is complete. -/
theorem scan_encodeHeader {frame : H × List β} (hframe : framing.WellFormed encodeHeader frame)
    (future : List β) :
    framing.scan fits none (encodeHeader frame.1 ++ future) =
      framing.scan fits (some frame.1) future := by
  have hlong : ¬ (encodeHeader frame.1 ++ future).length < framing.headerSize := by
    rw [List.length_append, hframe.size]
    omega
  have htake : (encodeHeader frame.1 ++ future).take framing.headerSize = encodeHeader frame.1 := by
    rw [← hframe.size, List.take_left]
  have hdrop : (encodeHeader frame.1 ++ future).drop framing.headerSize = future := by
    rw [← hframe.size, List.drop_left]
  rw [scan_header hlong (htake ▸ hframe.header), hdrop]

theorem parse_frame {frame : H × List β} (hframe : framing.WellFormed encodeHeader frame)
    (future : List β) :
    framing.parse none (frameBytes encodeHeader frame ++ future) =
      (frame :: (framing.parse none future).1, (framing.parse none future).2) := by
  have hcomplete : framing.complete (frame.2 ++ future).length frame.1 := by
    simp only [complete, List.length_append, hframe.body, decide_eq_true_eq]
    omega
  rw [frameBytes, List.append_assoc, parse, scan_encodeHeader hframe, scan_fits hcomplete,
    ← hframe.body, List.take_left, List.drop_left]

/-- A frame that is cut before its end is not taken. -/
theorem parse_cut_frame {frame : H × List β} (hframe : framing.WellFormed encodeHeader frame)
    {available : Nat} (hcut : available < framing.headerSize + frame.2.length) :
    (framing.parse none ((frameBytes encodeHeader frame).take available)).1 = [] ∧
      ∀ rest, (framing.parse none
        ((frameBytes encodeHeader frame).take available)).2 ≠ .broken rest := by
  by_cases hheader : available < framing.headerSize
  · have hshort : ((frameBytes encodeHeader frame).take available).length <
        framing.headerSize := by
      rw [List.length_take]
      omega
    simp [parse, scan_short hshort]
  · obtain ⟨more, rfl⟩ := Nat.exists_eq_add_of_le (Nat.not_lt.mp hheader)
    have hwait : ¬ framing.complete (frame.2.take more).length frame.1 := by
      simp only [complete, List.length_take, ← hframe.body, decide_eq_true_eq]
      omega
    rw [frameBytes, ← hframe.size, List.take_length_add_append, parse, scan_encodeHeader hframe,
      scan_waiting hwait]
    simp

/-- The parse of a cut stream of well-formed frames. -/
theorem parse_take {frames : List (H × List β)}
    (hframes : ∀ frame ∈ frames, framing.WellFormed encodeHeader frame) (available : Nat) :
    (framing.parse none ((frames.flatMap (frameBytes encodeHeader)).take available)).1 =
        framing.received frames available ∧
      ∀ rest, (framing.parse none
        ((frames.flatMap (frameBytes encodeHeader)).take available)).2 ≠ .broken rest := by
  induction frames generalizing available with
  | nil =>
      have hshort : ([] : List β).length < framing.headerSize := framing.headerSize_pos
      simp [parse, scan_short hshort, received]
  | cons frame frames ih =>
      have hframe := hframes frame List.mem_cons_self
      have hlength : (frameBytes encodeHeader frame).length =
          framing.headerSize + frame.2.length := by
        rw [frameBytes, List.length_append, hframe.size]
      rw [List.flatMap_cons, received]
      split
      next hle =>
        obtain ⟨more, rfl⟩ := Nat.exists_eq_add_of_le hle
        rw [Nat.add_sub_cancel_left, ← hlength, List.take_length_add_append, parse_frame hframe]
        obtain ⟨hfirst, hstop⟩ := ih (fun other hother =>
          hframes other (List.mem_cons_of_mem _ hother)) more
        exact ⟨by rw [hfirst], hstop⟩
      next hlt =>
        rw [List.take_append_of_le_length (by omega)]
        exact parse_cut_frame hframe (by omega)

/-- A check that is exact below a limit takes the complete frames of a stream that is
shorter, and no others. -/
theorem feedAll_received (hsound : ∀ available header, fits available header →
      framing.bodyLength header ≤ available)
    {limit : Nat} (hexact : ∀ available header, available < limit →
      framing.bodyLength header ≤ available → fits available header)
    {frames : List (H × List β)}
    (hframes : ∀ frame ∈ frames, framing.WellFormed encodeHeader frame) {chunks : List (List β)}
    (hstream : chunks.flatten <+: frames.flatMap (frameBytes encodeHeader))
    (hlimit : chunks.flatten.length < limit) :
    (framing.feedAll fits (none, []) chunks).1 =
      framing.received frames chunks.flatten.length := by
  obtain ⟨hreceived, hstop⟩ := parse_take hframes chunks.flatten.length
  rw [← List.prefix_iff_eq_take.mp hstream] at hreceived hstop
  have hempty : ([] : List β).length + chunks.flatten.length < limit := by simpa using hlimit
  have hbounded : framing.Bounded none [] := framing.headerSize_pos
  rw [feedAll_of_allFit hsound hbounded (fun _ _ _ => stepFits_of_lt hexact hempty)
    (by simpa using hstop), List.nil_append, hreceived]

theorem parse_stream {frames : List (H × List β)}
    (hframes : ∀ frame ∈ frames, framing.WellFormed encodeHeader frame) :
    framing.parse none (frames.flatMap (frameBytes encodeHeader)) = (frames, .short []) := by
  induction frames with
  | nil =>
      have hshort : ([] : List β).length < framing.headerSize := framing.headerSize_pos
      rw [List.flatMap_nil, parse, scan_short hshort]
  | cons frame frames ih =>
      rw [List.flatMap_cons, parse_frame (hframes frame List.mem_cons_self),
        ih fun other hother => hframes other (List.mem_cons_of_mem _ hother)]

end Wire

/-- A reader waits for a body exactly if a whole header is left outside of frames. -/
theorem parse_pending_eq_none {input : List β}
    (hstop : ∀ rest, (framing.parse none input).2 ≠ .broken rest) :
    (framing.parse none input).2.pending = none ↔
      input.length - framing.framesSize (framing.parse none input).1 < framing.headerSize := by
  have hsize := parse_size framing none input
  have hcases := parse_stop framing none input
  generalize framing.parse none input = parsed at *
  obtain ⟨frames, stop⟩ := parsed
  cases stop with
  | short rest =>
      have hshort : rest.length < framing.headerSize := by
        simpa [Bounded, Stop.pending, Stop.rest] using hcases
      simp only [stopSize, Stop.pending, true_iff] at hsize ⊢
      omega
  | waiting header rest =>
      simp only [stopSize, Stop.pending, reduceCtorEq, false_iff] at hsize ⊢
      omega
  | broken rest => exact absurd rfl (hstop rest)

end Wnet.Foundation.Framing
