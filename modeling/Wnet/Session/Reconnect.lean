import Wnet.Session.Receive

/-!
# Reconnecting sessions

A session lives through any number of TCP connections. Each carries a stream of
frames that is cut at some byte. If a connection is lost while the session waits
for a payload, `gotHeader_` stays set and the first bytes of the next connection
are taken for that payload. If no connection is lost there, the frames passed to
`HandlePacket` during a connection are those that arrived on it.
-/

namespace Wnet

open Foundation

namespace ClientSession

/-- What one connection carries: its frames, the number of bytes that arrive
before it is lost, and the chunks in which they arrive, each with the pool as it
is at that time. -/
structure Carried where
  frames : List (PacketHeader × Bytes)
  cut : Nat
  arrivals : List (ChannelPool × Bytes)

namespace Carried

def events (carried : Carried) : List Event :=
  .connect :: carried.arrivals.map fun arrival => .receive arrival.1 arrival.2

/-- The bytes that arrive. -/
def bytes (carried : Carried) : Bytes := (carried.arrivals.map Prod.snd).flatten

/-- The connection carries valid frames, cut at `cut`. -/
structure Genuine {Body : Type*} (streamer : Streamer Body) (carried : Carried) : Prop where
  valid : ∀ frame ∈ carried.frames, frame.1.Valid ∧ frame.2.length = frame.1.bodyLength
  bytes : carried.bytes = (carried.frames.flatMap
    (Framing.frameBytes streamer.encodeHeader)).take carried.cut

/-- The frames that arrive completely. -/
def complete {Body : Type*} (streamer : Streamer Body) (carried : Carried) :
    List (PacketHeader × Bytes) :=
  streamer.framing.received carried.frames carried.cut

/-- The connection is not lost inside a payload: less than a header arrives
behind the last complete frame. -/
def EndsOutsidePayload {Body : Type*} (streamer : Streamer Body) (carried : Carried) : Prop :=
  carried.bytes.length - streamer.framing.framesSize (carried.complete streamer) < 16

/-- In every call of `OnMessage` on a connection that starts afresh, each complete
payload passes the length check; so it is when fewer than `2 ^ 31` bytes are unread. -/
def PassesChecks {Body : Type*} (streamer : Streamer Body) (carried : Carried) : Prop :=
  ∀ before chunk later, carried.arrivals.map Prod.snd = before ++ chunk :: later →
    streamer.framing.StepFits lengthCheck
      (streamer.framing.feedAll lengthCheck (none, []) before).2 chunk

end Carried

variable {Body : Type*} {streamer : Streamer Body} {defaultPacketHandler : Option Nat}
  {callback : Invocation Body → ChannelPool → ChannelPool}

/-- The chunks of a connection are fed to the framing in turn. -/
theorem run_arrivals (hmode : streamer.existPacketHeader) (hexact : streamer.ExactDecode)
    {session : Receiver (ClientState Body)} (hsettled : Settled session.reader session.input)
    (arrivals : List (ChannelPool × Bytes)) :
    ∃ final, run (step streamer defaultPacketHandler callback) session
        (arrivals.map fun arrival => .receive arrival.1 arrival.2) = some final ∧
      final.state.passed = session.state.passed ++ (streamer.framing.feedAll lengthCheck
        (session.reader.pending, session.input) (arrivals.map Prod.snd)).1 ∧
      (final.reader.pending, final.input) = (streamer.framing.feedAll lengthCheck
        (session.reader.pending, session.input) (arrivals.map Prod.snd)).2 ∧
      Settled final.reader final.input := by
  induction arrivals generalizing session with
  | nil => exact ⟨session, rfl, by simp [Framing.feedAll], rfl, hsettled⟩
  | cons arrival arrivals ih =>
      obtain ⟨pool, chunk⟩ := arrival
      have hsettled' : Settled
          ({ session with state := { session.state with pool := pool } } : Receiver _).reader
          ({ session with state := { session.state with pool := pool } } : Receiver _).input :=
        hsettled
      obtain ⟨middle, hstep, hstate, hrest, hmiddle⟩ := onMessage_eq_feed hmode hsettled' chunk
        ((takesPayload defaultPacketHandler callback hexact).feed hsettled' _ chunk)
      obtain ⟨final, hrun, hpassed, hfinal, hend⟩ := ih hmiddle
      refine ⟨final, ?_, ?_, ?_, hend⟩
      · rw [List.map_cons, run_cons]
        change (onMessage streamer defaultPacketHandler callback _ chunk).bind _ = some final
        rw [onMessage, hstep]
        exact hrun
      · have hmoved := congrArg ClientState.passed hstate
        rw [passed_foldl_handleFrame] at hmoved
        rw [List.map_cons, Framing.feedAll, hpassed, hmoved, hrest, List.append_assoc]
      · rw [List.map_cons, Framing.feedAll, hfinal, hrest]

/-- A connection that finds the session between two frames. -/
theorem run_connection (hmode : streamer.existPacketHeader) (hexact : streamer.ExactDecode)
    {session : Receiver (ClientState Body)} (hpending : session.reader.pending = none)
    {carried : Carried} (hgenuine : carried.Genuine streamer)
    (hchecks : carried.PassesChecks streamer) :
    ∃ final, run (step streamer defaultPacketHandler callback) session carried.events =
        some final ∧
      final.state.passed = carried.complete streamer ∧
      (carried.EndsOutsidePayload streamer → final.reader.pending = none) := by
  have hwellFormed : ∀ frame ∈ carried.frames,
      streamer.framing.WellFormed streamer.encodeHeader frame := by
    intro frame hframe
    exact streamer.wellFormed (hgenuine.valid frame hframe).1 (hgenuine.valid frame hframe).2
  obtain ⟨hframes, hstop⟩ := Framing.parse_take hwellFormed carried.cut
  rw [← hgenuine.bytes] at hframes hstop
  have hfed : streamer.framing.feedAll lengthCheck (none, []) (carried.arrivals.map Prod.snd) =
      ((streamer.framing.parse none carried.bytes).1,
        (streamer.framing.parse none carried.bytes).2.pending,
        (streamer.framing.parse none carried.bytes).2.rest) :=
    Framing.feedAll_of_allFit lengthCheck_sound streamer.framing.headerSize_pos hchecks hstop
  have hsettled : Settled
      ({ session with input := [], state := { session.state with passed := [] } } :
        Receiver _).reader
      ({ session with input := [], state := { session.state with passed := [] } } :
        Receiver _).input := by
    intro header hheader
    rw [hpending] at hheader
    cases hheader
  obtain ⟨final, hrun, hpassed, hrest, -⟩ := run_arrivals hmode hexact hsettled carried.arrivals
  simp only [hpending, hfed, List.nil_append] at hpassed hrest
  refine ⟨final, hrun, hpassed.trans hframes, fun hends => ?_⟩
  rw [(Prod.mk.inj hrest).1, Framing.parse_pending_eq_none hstop, hframes]
  exact hends

/-- In every run in which no connection is lost inside a payload and every length
check passes, the frames passed to `HandlePacket` since the current connection was
made are the frames that arrived completely on it. The current connection may
have got to any chunk. -/
theorem reconnect_passes_own_frames (hmode : streamer.existPacketHeader)
    (hexact : streamer.ExactDecode) (pool : ChannelPool) {earlier : List Carried}
    {current : Carried} (hgenuine : ∀ carried ∈ earlier ++ [current], carried.Genuine streamer)
    (hchecks : ∀ carried ∈ earlier ++ [current], carried.PassesChecks streamer)
    (hends : ∀ carried ∈ earlier, carried.EndsOutsidePayload streamer) :
    ∃ session, run (step streamer defaultPacketHandler callback) (new pool)
        ((earlier ++ [current]).flatMap Carried.events) = some session ∧
      session.state.passed = current.complete streamer := by
  suffices hall : ∀ start : Receiver (ClientState Body), start.reader.pending = none →
      ∃ session, run (step streamer defaultPacketHandler callback) start
        ((earlier ++ [current]).flatMap Carried.events) = some session ∧
      session.state.passed = current.complete streamer from hall (new pool) rfl
  induction earlier with
  | nil =>
      intro start hpending
      obtain ⟨final, hrun, hpassed, -⟩ := run_connection hmode hexact hpending
        (hgenuine current (by simp)) (hchecks current (by simp))
      exact ⟨final, by simpa using hrun, hpassed⟩
  | cons first earlier ih =>
      intro start hpending
      obtain ⟨middle, hrun, -, hmiddle⟩ := run_connection hmode hexact hpending
        (hgenuine first (by simp)) (hchecks first (by simp))
      obtain ⟨final, hfinal, hpassed⟩ := ih
        (fun carried hcarried => hgenuine carried (List.mem_cons_of_mem _ hcarried))
        (fun carried hcarried => hchecks carried (List.mem_cons_of_mem _ hcarried))
        (fun carried hcarried => hends carried (List.mem_cons_of_mem _ hcarried))
        middle (hmiddle (hends first List.mem_cons_self))
      refine ⟨final, ?_, hpassed⟩
      rw [List.cons_append, List.flatMap_cons, run_append, hrun]
      exact hfinal

/-- A pool before its first channel. -/
def emptyPool : ChannelPool := .new fun _ => ⟨0, none, none, 0, none, none⟩

/-- A connection that carries one packet without payload. -/
def onePacket : Carried where
  frames := [(⟨2, 7, 0⟩, [])]
  cut := 16
  arrivals := [(emptyPool, byteStreamer.encodeHeader ⟨2, 7, 0⟩)]

/-- A connection that is lost after two of the four bytes of a payload. -/
def lostInPayload : Carried where
  frames := [(⟨1, 7, 4⟩, [1, 2, 3, 4])]
  cut := 18
  arrivals := [(emptyPool, byteStreamer.encodeHeader ⟨1, 7, 4⟩ ++ [1, 2])]

theorem onePacket_genuine : onePacket.Genuine byteStreamer := ⟨by decide, by decide⟩

theorem lostInPayload_genuine : lostInPayload.Genuine byteStreamer := ⟨by decide, by decide⟩

theorem onePacket_passesChecks : onePacket.PassesChecks byteStreamer := by
  intro before chunk later hsplit
  cases before with
  | nil =>
      obtain ⟨rfl, -⟩ := List.cons.inj hsplit
      exact stepFits_of_lt byteStreamer (by decide)
  | cons first before => simp [onePacket] at hsplit

theorem reconnect_passes_own_frames_twice :
    byteStreamer.existPacketHeader ∧ byteStreamer.ExactDecode ∧
    (∀ carried ∈ [onePacket] ++ [onePacket], carried.Genuine byteStreamer) ∧
    (∀ carried ∈ [onePacket] ++ [onePacket], carried.PassesChecks byteStreamer) ∧
    (∀ carried ∈ [onePacket], carried.EndsOutsidePayload byteStreamer) ∧
    ∃ session, run (step byteStreamer none fun _ pool => pool) (new emptyPool)
        (([onePacket] ++ [onePacket]).flatMap Carried.events) = some session ∧
      session.state.passed = onePacket.complete byteStreamer := by
  have hgenuine : ∀ carried ∈ [onePacket] ++ [onePacket], carried.Genuine byteStreamer := by
    intro carried hcarried
    obtain rfl : carried = onePacket := by simpa using hcarried
    exact onePacket_genuine
  have hchecks : ∀ carried ∈ [onePacket] ++ [onePacket],
      carried.PassesChecks byteStreamer := by
    intro carried hcarried
    obtain rfl : carried = onePacket := by simpa using hcarried
    exact onePacket_passesChecks
  have hends : ∀ carried ∈ [onePacket], carried.EndsOutsidePayload byteStreamer := by
    intro carried hcarried
    obtain rfl := List.mem_singleton.mp hcarried
    change 16 - 16 < 16
    decide
  exact ⟨rfl, byteStreamer_exactDecode, hgenuine, hchecks, hends,
    reconnect_passes_own_frames rfl byteStreamer_exactDecode emptyPool hgenuine hchecks hends⟩

/-- After a connection lost inside a payload the packet that arrives on the next
connection is not passed on; its first bytes complete the old payload. -/
theorem reconnect_mixes_streams :
    lostInPayload.Genuine byteStreamer ∧ onePacket.Genuine byteStreamer ∧
    ∃ session, run (step byteStreamer none fun _ pool => pool) (new emptyPool)
        ([lostInPayload, onePacket].flatMap Carried.events) = some session ∧
      session.state.passed ≠ onePacket.complete byteStreamer := by
  refine ⟨lostInPayload_genuine, onePacket_genuine, _, rfl, ?_⟩
  decide

end ClientSession

end Wnet
