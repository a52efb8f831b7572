import Wnet.Channel.Process
import Wnet.Session.Traffic

/-!
# The order of posted packets

`outputQueue_` is first in, first out, and a packet that finds the session
connected is encoded at once. The connection is assigned before the mutex is
taken to flush the queue, so that a packet posted in between overtakes the
queued ones. As long as no packet does so, packets are encoded in the order in
which they were posted.
-/

namespace Wnet

open Foundation

variable {Body : Type*}

/-- A packet whose post returned before another was called is encoded before it. -/
def PostedInOrder (history : List Event) : Prop :=
  ∀ first second, Precedes history (.returned first true) (.called second) →
    .encoded first ∈ history → .encoded second ∈ history →
    Precedes history (.encoded first) (.encoded second)

/-- The next piece of the call queues its packet or sends it. -/
def Activity.dispatches : Activity Body → Bool
  | .postPacket _ (.filled _) => true
  | _ => false

namespace Traffic

/-- The invariant of runs in which no packet overtakes a queued one. -/
structure Orderly (traffic : Traffic) : Prop where
  /-- A new call has left no trace. -/
  new : ∀ call, traffic.progress call = .new → .called call ∉ traffic.history ∧
    .encoded call ∉ traffic.history ∧ call ∉ traffic.queue
  /-- A packet that is not placed yet is neither encoded nor queued. -/
  pending : ∀ call, traffic.progress call = .pending →
    .encoded call ∉ traffic.history ∧ call ∉ traffic.queue
  /-- Only a closed call has returned. -/
  returned : ∀ call result, .returned call result ∈ traffic.history →
    traffic.progress call = .closed
  nodup : traffic.queue.Nodup
  queued : ∀ call ∈ traffic.queue, .encoded call ∉ traffic.history
  once : ∀ call result, ¬ Precedes traffic.history (.returned call result) (.called call)
  /-- No packet is behind one that was called after it had returned. -/
  queue : traffic.queue.Pairwise fun ahead behind =>
    ¬ Precedes traffic.history (.returned behind true) (.called ahead)
  /-- What was to be encoded before an encoded packet was, or never will be. -/
  encoded : ∀ first second, Precedes traffic.history (.returned first true) (.called second) →
    .encoded second ∈ traffic.history →
    Precedes traffic.history (.encoded first) (.encoded second) ∨
      .encoded first ∉ traffic.history ∧ first ∉ traffic.queue

variable {traffic next : Traffic} {call : Nat}

theorem Orderly.inOrder (horderly : traffic.Orderly) : PostedInOrder traffic.history := by
  intro first second hprecedes hfirst hsecond
  rcases horderly.encoded first second hprecedes hsecond with hdone | ⟨hnot, -⟩
  · exact hdone
  · exact absurd hfirst hnot

/-- An event other than a call, a return and an encoding changes nothing. -/
theorem Orderly.record (horderly : traffic.Orderly) {event : Event}
    (hcalled : ∀ call, event ≠ .called call) (hencoded : ∀ call, event ≠ .encoded call)
    (hreturned : ∀ call result, event = .returned call result →
      traffic.progress call = .closed) :
    Orderly { traffic with history := traffic.history ++ [event] } := by
  have hmem : ∀ other, Event.encoded other ∈ traffic.history ++ [event] ↔
      .encoded other ∈ traffic.history := by
    intro other
    simp [(hencoded other).symm]
  have hprecedes : ∀ first other, Precedes (traffic.history ++ [event]) first (.called other) ↔
      Precedes traffic.history first (.called other) := by
    intro first other
    simp [precedes_concat, (hcalled other).symm]
  refine ⟨?_, ?_, ?_, horderly.nodup, ?_, ?_, ?_, ?_⟩
  · intro other hnew
    simpa [hmem, (hcalled other).symm] using horderly.new other hnew
  · intro other hpending
    simpa [hmem] using horderly.pending other hpending
  · intro other result hother
    rcases List.mem_append.mp hother with hother | hother
    · exact horderly.returned other result hother
    · exact hreturned other result (List.mem_singleton.mp hother).symm
  · intro other hother
    simpa [hmem] using horderly.queued other hother
  · intro other result
    rw [hprecedes]
    exact horderly.once other result
  · simpa only [hprecedes] using horderly.queue
  · intro first second hbefore hsecond
    rw [hprecedes] at hbefore
    rw [hmem] at hsecond ⊢
    rcases horderly.encoded first second hbefore hsecond with hdone | hnever
    · exact Or.inl (precedes_concat.mpr (Or.inl hdone))
    · exact Or.inr hnever

/-- A call that has not returned goes on. -/
theorem Orderly.turn (horderly : traffic.Orderly) {progress : Progress}
    (hopen : traffic.progress call ≠ .closed) (hnew : progress ≠ .new)
    (hpending : progress ≠ .pending) :
    Orderly { traffic with progress := Function.update traffic.progress call progress } := by
  refine ⟨?_, ?_, ?_, horderly.nodup, horderly.queued, horderly.once, horderly.queue,
    horderly.encoded⟩
  · intro other hother
    by_cases hsame : other = call
    · subst hsame
      simp only [Function.update_self] at hother
      exact absurd hother hnew
    · simp only [Function.update_of_ne hsame] at hother
      exact horderly.new other hother
  · intro other hother
    by_cases hsame : other = call
    · subst hsame
      simp only [Function.update_self] at hother
      exact absurd hother hpending
    · simp only [Function.update_of_ne hsame] at hother
      exact horderly.pending other hother
  · intro other result hother
    have hclosed := horderly.returned other result hother
    have hne : other ≠ call := fun hsame => hopen (hsame ▸ hclosed)
    exact (Function.update_of_ne hne ..).trans hclosed

/-- A call of `PostPacket` begins: from now on it comes after all that have returned. -/
theorem Orderly.begin (horderly : traffic.Orderly) {progress : Progress}
    (hbefore : traffic.progress call = .new) (hnew : progress ≠ .new) :
    Orderly
      { traffic with
        progress := Function.update traffic.progress call progress
        history := traffic.history ++ [.called call] } := by
  obtain ⟨hcalled, hencoded, hqueued⟩ := horderly.new call hbefore
  have hreturned : ∀ result, Event.returned call result ∉ traffic.history := by
    intro result hmem
    have hclosed := horderly.returned call result hmem
    rw [hbefore] at hclosed
    cases hclosed
  have hold : ∀ first second, second ≠ call →
      Precedes (traffic.history ++ [.called call]) first (.called second) →
      Precedes traffic.history first (.called second) := by
    intro first second hne hprecedes
    rcases precedes_concat.mp hprecedes with hprecedes | ⟨-, hsame⟩
    · exact hprecedes
    · exact absurd (Event.called.inj hsame) hne
  refine ⟨?_, ?_, ?_, horderly.nodup, ?_, ?_, ?_, ?_⟩
  · intro other hother
    by_cases hsame : other = call
    · subst hsame
      simp only [Function.update_self] at hother
      exact absurd hother hnew
    · simp only [Function.update_of_ne hsame] at hother
      simpa [hsame] using horderly.new other hother
  · intro other hother
    by_cases hsame : other = call
    · subst hsame
      simpa using ⟨hencoded, hqueued⟩
    · simp only [Function.update_of_ne hsame] at hother
      simpa using horderly.pending other hother
  · intro other result hother
    have hold : .returned other result ∈ traffic.history := by simpa using hother
    have hne : other ≠ call := fun hsame => hreturned result (hsame ▸ hold)
    exact (Function.update_of_ne hne ..).trans (horderly.returned other result hold)
  · intro other hother
    simpa using horderly.queued other hother
  · intro other result hprecedes
    rcases precedes_concat.mp hprecedes with hprecedes | ⟨hmem, hsame⟩
    · exact horderly.once other result hprecedes
    · exact hreturned result (Event.called.inj hsame ▸ hmem)
  · apply horderly.queue.imp_of_mem
    intro ahead behind hahead _ hnot hprecedes
    have hne : ahead ≠ call := fun hsame => hqueued (hsame ▸ hahead)
    exact hnot (hold _ ahead hne hprecedes)
  · intro first second hprecedes hsecond
    have hmem : .encoded second ∈ traffic.history := by simpa using hsecond
    have hne : second ≠ call := fun hsame => hencoded (hsame ▸ hmem)
    rcases horderly.encoded first second (hold _ second hne hprecedes) hmem with hdone | hnever
    · exact Or.inl (precedes_concat.mpr (Or.inl hdone))
    · exact Or.inr (by simpa using hnever)

theorem Orderly.push (horderly : traffic.Orderly) (hplaced : traffic.progress call = .placed)
    (hencoded : .encoded call ∉ traffic.history) (hqueued : call ∉ traffic.queue) :
    Orderly { traffic with queue := traffic.queue ++ [call] } := by
  have hreturned : ∀ result, Event.returned call result ∉ traffic.history := by
    intro result hmem
    have hclosed := horderly.returned call result hmem
    rw [hplaced] at hclosed
    cases hclosed
  have hne : ∀ other, traffic.progress other ≠ .placed → other ≠ call := by
    rintro other hother rfl
    exact hother hplaced
  refine ⟨?_, ?_, horderly.returned, ?_, ?_, horderly.once, ?_, ?_⟩
  · intro other (hnew : traffic.progress other = .new)
    obtain ⟨hcalled, hnot, hqueue⟩ := horderly.new other hnew
    have hother : other ≠ call := hne other fun hsame => by simp [hnew] at hsame
    exact ⟨hcalled, hnot, by simp [hqueue, hother]⟩
  · intro other (hpending : traffic.progress other = .pending)
    obtain ⟨hnot, hqueue⟩ := horderly.pending other hpending
    have hother : other ≠ call := hne other fun hsame => by simp [hpending] at hsame
    exact ⟨hnot, by simp [hqueue, hother]⟩
  · exact List.nodup_append.mpr ⟨horderly.nodup, by simp, by
      rintro other hother behind hbehind rfl
      exact hqueued (List.mem_singleton.mp hbehind ▸ hother)⟩
  · intro other hother
    rcases List.mem_append.mp hother with hother | hother
    · exact horderly.queued other hother
    · exact List.mem_singleton.mp hother ▸ hencoded
  · refine List.pairwise_append.mpr ⟨horderly.queue, by simp, ?_⟩
    intro ahead _ behind hbehind hprecedes
    exact hreturned true (List.mem_singleton.mp hbehind ▸ hprecedes.mem.1)
  · intro first second hprecedes hsecond
    rcases horderly.encoded first second hprecedes hsecond with hdone | ⟨hnot, hqueue⟩
    · exact Or.inl hdone
    · refine Or.inr ⟨hnot, ?_⟩
      have hfirst : first ≠ call := fun hsame => hreturned true (hsame ▸ hprecedes.mem.1)
      simp [hqueue, hfirst]

theorem Orderly.keep (horderly : traffic.Orderly) {kept : List Nat}
    (hkept : kept.Sublist traffic.queue) : Orderly { traffic with queue := kept } := by
  refine ⟨?_, ?_, horderly.returned, horderly.nodup.sublist hkept, ?_, horderly.once,
    horderly.queue.sublist hkept, ?_⟩
  · intro other hnew
    obtain ⟨hcalled, hnot, hqueue⟩ := horderly.new other hnew
    exact ⟨hcalled, hnot, fun hmem => hqueue (hkept.subset hmem)⟩
  · intro other hpending
    obtain ⟨hnot, hqueue⟩ := horderly.pending other hpending
    exact ⟨hnot, fun hmem => hqueue (hkept.subset hmem)⟩
  · exact fun other hother => horderly.queued other (hkept.subset hother)
  · intro first second hprecedes hsecond
    rcases horderly.encoded first second hprecedes hsecond with hdone | ⟨hnot, hqueue⟩
    · exact Or.inl hdone
    · exact Or.inr ⟨hnot, fun hmem => hqueue (hkept.subset hmem)⟩

/-- A packet is encoded while no queued packet should go before it and nothing
that should go after it was encoded. -/
theorem Orderly.encode (horderly : traffic.Orderly) (hnew : traffic.progress call ≠ .new)
    (hpending : traffic.progress call ≠ .pending) (hqueued : call ∉ traffic.queue)
    (hahead : ∀ other ∈ traffic.queue,
      ¬ Precedes traffic.history (.returned other true) (.called call))
    (hbehind : ∀ other, Precedes traffic.history (.returned call true) (.called other) →
      .encoded other ∉ traffic.history) :
    Orderly { traffic with history := traffic.history ++ [.encoded call] } := by
  have hprecedes : ∀ first other,
      Precedes (traffic.history ++ [.encoded call]) first (.called other) ↔
      Precedes traffic.history first (.called other) := by
    intro first other
    simp [precedes_concat]
  have hmem : ∀ other, Event.encoded other ∈ traffic.history ++ [.encoded call] ↔
      .encoded other ∈ traffic.history ∨ other = call := by
    intro other
    simp
  refine ⟨?_, ?_, ?_, horderly.nodup, ?_, ?_, ?_, ?_⟩
  · intro other hother
    have hne : other ≠ call := fun hsame => hnew (hsame ▸ hother)
    simpa [hne] using horderly.new other hother
  · intro other hother
    have hne : other ≠ call := fun hsame => hpending (hsame ▸ hother)
    simpa [hne] using horderly.pending other hother
  · intro other result hother
    exact horderly.returned other result (by simpa using hother)
  · intro other hother
    have hne : other ≠ call := fun hsame => hqueued (hsame ▸ hother)
    simpa [hne] using horderly.queued other hother
  · intro other result
    rw [hprecedes]
    exact horderly.once other result
  · simpa only [hprecedes] using horderly.queue
  · intro first second hbefore hsecond
    rw [hprecedes] at hbefore
    rw [hmem] at hsecond ⊢
    rw [precedes_concat]
    -- `second` is either encoded now, or was before `first` had its turn.
    by_cases hnow : second = call
    · subst hnow
      by_cases hfirst : .encoded first ∈ traffic.history
      · exact Or.inl (Or.inr ⟨hfirst, rfl⟩)
      · refine Or.inr ⟨?_, fun hqueue => hahead first hqueue hbefore⟩
        rintro (hold | rfl)
        · exact hfirst hold
        · exact horderly.once first true hbefore
    · have hold := hsecond.resolve_right hnow
      have hne : first ≠ call := by
        rintro rfl
        exact hbehind second hbefore hold
      rcases horderly.encoded first second hbefore hold with hdone | ⟨hnot, hqueue⟩
      · exact Or.inl (Or.inl hdone)
      · exact Or.inr ⟨by simp [hnot, hne], hqueue⟩

/-- A move keeps the order, unless a packet sent directly overtakes a queued one. -/
theorem Orderly.move {sender : Option Nat} (horderly : traffic.Orderly)
    (hmove : Move traffic sender next)
    (hsender : ∀ call ∈ sender, ∀ other ∈ traffic.queue,
      ¬ Precedes traffic.history (.returned other true) (.called call)) : next.Orderly := by
  cases hmove with
  | quiet => exact horderly
  | otherCall call hnew => exact horderly.turn (by simp [hnew]) (by simp) (by simp)
  | call call hnew => exact horderly.begin hnew (by simp)
  | reject call hnew =>
      apply (horderly.begin hnew (by simp)).record (by simp) (by simp)
      intro other result hevent
      cases hevent
      exact Function.update_self ..
  | refuse call hpending =>
      apply (horderly.turn (by simp [hpending]) (by simp) (by simp)).record (by simp) (by simp)
      intro other result hevent
      cases hevent
      exact Function.update_self ..
  | push call hpending =>
      obtain ⟨hencoded, hqueued⟩ := horderly.pending call hpending
      exact (horderly.turn (by simp [hpending]) (by simp) (by simp)).push
        (Function.update_self ..) hencoded hqueued
  | direct call events hpending hevents =>
      obtain ⟨hencoded, hqueued⟩ := horderly.pending call hpending
      have hturn : Orderly
          { traffic with progress := Function.update traffic.progress call .placed } :=
        horderly.turn (by simp [hpending]) (by simp) (by simp)
      rcases hevents with rfl | rfl
      · simpa using hturn
      -- The one move that could overtake; `hsender` excludes it.
      · apply hturn.encode (by simp) (by simp) hqueued (hsender call rfl)
        intro other hprecedes
        have hclosed := horderly.returned call true hprecedes.mem.1
        rw [hpending] at hclosed
        cases hclosed
  | flush call rest events hqueue hevents =>
      have hkeep : Orderly { traffic with queue := rest } :=
        horderly.keep (hqueue ▸ List.sublist_cons_self call rest)
      have hmem : call ∈ traffic.queue := by simp [hqueue]
      rcases hevents with rfl | rfl
      · simpa using hkeep
      -- The head of the queue was accepted before all that stay behind it.
      · have hnodup := horderly.nodup
        have hpairwise := horderly.queue
        rw [hqueue] at hnodup hpairwise
        refine hkeep.encode ?_ ?_ (List.nodup_cons.mp hnodup).1
          (List.pairwise_cons.mp hpairwise).1 ?_
        · exact fun hnew => (horderly.new call hnew).2.2 hmem
        · exact fun hpending => (horderly.pending call hpending).2 hmem
        · intro other hprecedes hencoded
          rcases horderly.encoded call other hprecedes hencoded with hdone | ⟨-, hnot⟩
          · exact horderly.queued call hmem hdone.mem.1
          · exact hnot hmem
  | expire kept hkept => exact horderly.keep hkept.sublist
  | free call => exact horderly.record (by simp) (by simp) (by simp)
  | accept call hplaced =>
      apply (horderly.turn (by simp [hplaced]) (by simp) (by simp)).record (by simp) (by simp)
      intro other result hevent
      cases hevent
      exact Function.update_self ..

theorem orderly_new (mem : Ref → Channel) : (Session.new mem : Session Body).traffic.Orderly where
  new := by simp [Session.traffic, Session.new]
  pending := by simp [Session.traffic, Session.new]
  returned := by simp [Session.traffic, Session.new]
  nodup := by simp [Session.traffic, Session.new]
  queued := by simp [Session.traffic, Session.new]
  once := by simp [Session.traffic, Session.new, Precedes]
  queue := by simp [Session.traffic, Session.new]
  encoded := by simp [Session.traffic, Session.new]

end Traffic

namespace Session

/-- The next step sends a packet directly while the queue holds a packet whose
post had returned before this one was called. -/
def Overtakes (session : Session Body) : Label Body → Prop
  | .proceed call => (session.calls call).dispatches ∧ session.connected ∧
      ∃ queued ∈ session.outputQueue,
        Precedes session.history (.returned queued.call true) (.called call)
  | _ => False

instance (session : Session Body) (label : Label Body) : Decidable (session.Overtakes label) :=
  match label with
  | .proceed call => inferInstanceAs (Decidable ((session.calls call).dispatches ∧
      session.connected ∧ ∃ queued ∈ session.outputQueue,
        Precedes session.history (.returned queued.call true) (.called call)))
  | .start _ _ | .connectionLost | .loopStop | .setClock _ | .allocElsewhere _ =>
      inferInstanceAs (Decidable False)

/-- In every run in which no step overtakes, packets are encoded in the order in
which they were posted. -/
theorem posted_in_order {config : Config Body} {mem : Ref → Channel}
    {labels : List (Label Body)} {session : Session Body}
    (hrun : run (step config) (new mem) labels = some session)
    (halong : Along (step config) (fun session label => ¬ session.Overtakes label) (new mem)
      labels) :
    PostedInOrder session.history := by
  have hinvariant : session.Attributed ∧ session.traffic.Orderly := by
    refine run_invariant_along (fun session => session.Attributed ∧ session.traffic.Orderly) ?_
      ⟨attributed_new mem, Traffic.orderly_new mem⟩ halong hrun
    rintro session label next ⟨hattributed, horderly⟩ hcondition hstep
    obtain ⟨hattributed', sender, hmove, hsender⟩ := step_move hattributed hstep
    refine ⟨hattributed', horderly.move hmove ?_⟩
    intro call hcall other hother hprecedes
    obtain ⟨rfl, hconnected, request, packet, hfilled⟩ := hsender call hcall
    obtain ⟨queued, hqueued, rfl⟩ := List.mem_map.mp hother
    apply hcondition
    exact ⟨by rw [hfilled]; rfl, hconnected, queued, hqueued, hprecedes⟩
  exact hinvariant.2.inOrder

/-- A session with the default settings that reconnects by itself. -/
def byteConfig : Config Bytes where
  streamer := byteStreamer
  defaultPacketHandler := some 0
  autoReconnect := true
  queueTimeout := 5000
  queueLimit := 50

def byteRequest (code : UInt8) : Request Bytes := ⟨⟨⟨0, 1, 0⟩, [code]⟩, none, none, true⟩

/-- Packet 0 is posted without a connection, the connection is made and the queue
flushed, and packet 2 is posted. -/
def flushedFirst : List (Label Bytes) :=
  .start 0 (.postPacket (byteRequest 1)) :: List.replicate 5 (.proceed 0) ++
  .start 1 .onConnection :: List.replicate 6 (.proceed 1) ++
  .start 2 (.postPacket (byteRequest 2)) :: List.replicate 7 (.proceed 2)

theorem posted_in_order_flushed : ∃ session,
    run (step byteConfig) (new (Process.zeroMemory 0)) flushedFirst = some session ∧
    Along (step byteConfig) (fun session label => ¬ session.Overtakes label)
      (new (Process.zeroMemory 0)) flushedFirst ∧
    .encoded 0 ∈ session.history ∧ .encoded 2 ∈ session.history ∧
    PostedInOrder session.history := by
  have halong : Along (step byteConfig) (fun session label => ¬ session.Overtakes label)
      (new (Process.zeroMemory 0)) flushedFirst := by decide
  have hevents : (run (step byteConfig) (new (Process.zeroMemory 0)) flushedFirst).map history =
      some [.called 0, .returned 0 true, .encoded 0, .freed 0, .called 2, .encoded 2, .freed 2,
        .returned 2 true] := by decide
  obtain ⟨session, hrun, hhistory⟩ := Option.map_eq_some_iff.mp hevents
  exact ⟨session, hrun, halong, by rw [hhistory]; decide, by rw [hhistory]; decide,
    posted_in_order hrun halong⟩

/-- The same posts, with the second one between the assignment of the connection
and the flush. -/
def overtaken : List (Label Bytes) :=
  .start 0 (.postPacket (byteRequest 1)) :: List.replicate 5 (.proceed 0) ++
  .start 1 .onConnection ::
  .start 2 (.postPacket (byteRequest 2)) :: List.replicate 7 (.proceed 2) ++
  List.replicate 3 (.proceed 1)

/-- Packet 2 is encoded before packet 0, which was accepted before it was posted. -/
theorem not_posted_in_order : ∃ session,
    run (step byteConfig) (new (Process.zeroMemory 0)) overtaken = some session ∧
    ¬ PostedInOrder session.history := by
  have hevents : (run (step byteConfig) (new (Process.zeroMemory 0)) overtaken).map history =
      some [.called 0, .returned 0 true, .called 2, .encoded 2, .freed 2, .returned 2 true,
        .encoded 0] := by decide
  obtain ⟨session, hrun, hhistory⟩ := Option.map_eq_some_iff.mp hevents
  refine ⟨session, hrun, fun horder => ?_⟩
  rw [hhistory] at horder
  have hfirst := horder 0 2 (by decide) (by decide) (by decide)
  revert hfirst
  decide

end Session

end Wnet
