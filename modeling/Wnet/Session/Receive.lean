import Wnet.Channel.Pool
import Wnet.Server.Segmentation

/-!
# The receiving side of a client session

`ClientSession::HandlePacket` looks up the channel of a response, decodes the
packet, calls the handler of the channel and gives the channel back. The parser
state lives in the session, the unread bytes live in the TCP connection: a new
connection starts with an empty buffer, but `OnConnection` leaves `gotHeader_`
as the last connection left it.
-/

namespace Wnet

open Foundation

variable {Body : Type*}

/-- A call of `IPacketHandler::HandlePacket`. -/
structure Invocation (Body : Type*) where
  handler : Option Nat
  packet : Delivery Body
  args : Option Nat

/-- The session's members that `HandlePacket` changes, with the frames that were
passed to it since the connection was made. -/
structure ClientState (Body : Type*) where
  pool : ChannelPool
  invocations : List (Invocation Body)
  passed : List (PacketHeader × Bytes)

namespace ClientSession

section Receive

-- The handler runs outside of all locks and may use the session itself;
-- `callback` is what it does to the pool.
variable (streamer : Streamer Body) (defaultPacketHandler : Option Nat)
  (callback : Invocation Body → ChannelPool → ChannelPool)

def handlePacket (state : ClientState Body) (input : Bytes) (header : PacketHeader) :
    ClientState Body × Bytes :=
  let passed := state.passed ++ [(header, input.take header.bodyLength)]
  if streamer.existPacketHeader then
    let chid := header.chid &&& 0xFFFFFFF
    match state.pool.offerChannel chid with
    | (pool, none) =>
        ({ state with pool := pool, passed := passed },
          Buffer.skip input (sizeOfInt header.dataLen))
    | (pool, some channel) =>
        let packetHandler := (pool.mem channel).handler
        let args := (pool.mem channel).args
        let (body, input) := streamer.decode input header
        let invocation : Invocation Body :=
          ⟨packetHandler.or defaultPacketHandler, .ofDecoded header body, args⟩
        let pool := callback invocation pool
        let pool := pool.modify channel fun fields => { fields with args := none }
        (⟨(pool.appendChannel channel).1, state.invocations ++ [invocation], passed⟩, input)
  else
    let (body, input) := streamer.decode input header
    let invocation : Invocation Body := ⟨defaultPacketHandler, .ofDecoded header body, none⟩
    (⟨callback invocation state.pool, state.invocations ++ [invocation], passed⟩, input)

/-- `ClientSession::OnMessage`, after a chunk was appended to the buffer. -/
def onMessage : Receiver (ClientState Body) → Bytes → Option (Receiver (ClientState Body)) :=
  Wnet.onMessage streamer (handlePacket streamer defaultPacketHandler callback)

/-- A new session. -/
def new (pool : ChannelPool) : Receiver (ClientState Body) :=
  ⟨⟨false, ⟨0, 0, 0⟩⟩, ⟨pool, [], []⟩, []⟩

/-- What the loop thread does with a session: a connection is made, or a chunk
arrives. Whatever happened to the pool in between is part of the label. -/
inductive Event
  | connect
  | receive (pool : ChannelPool) (chunk : Bytes)

/-- A new connection brings its own empty buffer; nothing else changes. -/
def step (session : Receiver (ClientState Body)) : Event → Option (Receiver (ClientState Body))
  | .connect => some { session with input := [], state := { session.state with passed := [] } }
  | .receive pool chunk =>
      onMessage streamer defaultPacketHandler callback
        { session with state := { session.state with pool := pool } } chunk

/-- What one frame does to the session. -/
def handleFrame (state : ClientState Body) (frame : PacketHeader × Bytes) : ClientState Body :=
  { (handlePacket streamer defaultPacketHandler callback state frame.2 frame.1).1 with
    passed := state.passed ++ [frame] }

variable {streamer}

theorem takesPayload (hexact : streamer.ExactDecode) :
    TakesPayload (handlePacket streamer defaultPacketHandler callback)
      (handleFrame streamer defaultPacketHandler callback) := by
  intro state input header hvalid hlength
  simp only [handleFrame, handlePacket]
  split
  · cases hoffer : state.pool.offerChannel (header.chid &&& 0xFFFFFFF) with
    | mk pool channel =>
        cases channel with
        | none => simp only [Buffer.skip_eq_drop, sizeOfInt_dataLen hvalid]
        | some channel => simp only [hexact.decode_eq hvalid hlength]
  · simp only [hexact.decode_eq hvalid hlength]

theorem passed_foldl_handleFrame (frames : List (PacketHeader × Bytes))
    (state : ClientState Body) :
    (frames.foldl (handleFrame streamer defaultPacketHandler callback) state).passed =
      state.passed ++ frames := by
  induction frames generalizing state with
  | nil => simp
  | cons frame frames ih => simp [ih, handleFrame]

end Receive

theorem settled_new (pool : ChannelPool) :
    Settled (new pool : Receiver (ClientState Body)).reader [] := by
  intro header hheader
  cases hheader

end ClientSession

/-- On a new server connection, and on the first connection of a session, the
unread bytes stay bounded if and only if every call of `OnMessage` finds clean
bytes. -/
theorem unread_bounded_iff {streamer : Streamer Body} (hmode : streamer.existPacketHeader)
    (hexact : streamer.ExactDecode) (chunks : List Bytes) :
    (∀ batchPushPacket packetHeader,
      StaysBounded (ServerConnection.onMessage streamer batchPushPacket)
          (ServerConnection.new packetHeader) chunks ↔
        StaysClean streamer (ServerConnection.onMessage streamer batchPushPacket)
          (ServerConnection.new packetHeader) chunks) ∧
    ∀ defaultPacketHandler callback pool,
      StaysBounded (ClientSession.onMessage streamer defaultPacketHandler callback)
          (ClientSession.new pool) chunks ↔
        StaysClean streamer (ClientSession.onMessage streamer defaultPacketHandler callback)
          (ClientSession.new pool) chunks := by
  refine ⟨fun batchPushPacket packetHeader => ?_, fun defaultPacketHandler callback pool => ?_⟩
  · exact staysBounded_iff_staysClean hmode (ServerConnection.takesPayload hexact)
      (ServerConnection.settled_new packetHeader) chunks
  · exact staysBounded_iff_staysClean hmode
      (ClientSession.takesPayload defaultPacketHandler callback hexact)
      (ClientSession.settled_new pool) chunks

/-- Every chunk of the cut packets is clean where it arrives, for whoever reads them. -/
theorem staysClean_cutFrames {State : Type*}
    {step : Receiver State → Bytes → Option (Receiver State)} {start first second : Receiver State}
    (hstart : start.reader.pending = none ∧ start.input = [])
    (hfirst : run step start (ServerConnection.cutFrames.take 1) = some first ∧
      first.reader.pending = some ⟨2, 7, 2⟩ ∧ first.input = [1])
    (hsecond : run step start (ServerConnection.cutFrames.take 2) = some second ∧
      second.reader.pending = none ∧ second.input = []) :
    StaysClean byteStreamer step start ServerConnection.cutFrames := by
  intro before chunk later receiver hsplit hrun
  obtain ⟨hpending, hinput⟩ := hstart
  obtain ⟨hrunFirst, hpendingFirst, hinputFirst⟩ := hfirst
  obtain ⟨hrunSecond, hpendingSecond, hinputSecond⟩ := hsecond
  rcases before with _ | ⟨head, _ | ⟨head', _ | ⟨head'', rest⟩⟩⟩
  all_goals simp only [ServerConnection.cutFrames, List.nil_append, List.cons_append,
    List.cons.injEq, List.nil_eq, List.append_eq_nil_iff, reduceCtorEq, and_false] at hsplit
  · obtain ⟨rfl, -⟩ := hsplit
    obtain rfl : start = receiver := by simpa using hrun
    rw [hpending, hinput]
    refine ⟨Framing.allFit_of_lt lengthCheck_exact (by decide), ?_⟩
    intro rest hstop
    rw [List.nil_append, ServerConnection.parse_cutInPayload] at hstop
    cases hstop
  · obtain ⟨rfl, rfl, -⟩ := hsplit
    obtain rfl : first = receiver := Option.some.inj (hrunFirst.symm.trans hrun)
    rw [hpendingFirst, hinputFirst]
    refine ⟨Framing.allFit_of_lt lengthCheck_exact (by decide), ?_⟩
    intro rest hstop
    rw [ServerConnection.parse_restOfPayload] at hstop
    cases hstop
  · obtain ⟨rfl, rfl, rfl, -⟩ := hsplit
    obtain rfl : second = receiver := Option.some.inj (hrunSecond.symm.trans hrun)
    rw [hpendingSecond, hinputSecond]
    refine ⟨Framing.allFit_of_lt lengthCheck_exact (by decide), ?_⟩
    intro rest hstop
    rw [List.nil_append, ServerConnection.parse_malformedHeader] at hstop
    obtain rfl : [9] = rest := by simpa using hstop
    decide

/-- The cut packets stay bounded on a server connection in batch mode and on a session. -/
theorem unread_bounded_cutFrames :
    StaysBounded (ServerConnection.onMessage byteStreamer true)
      (ServerConnection.new ⟨0, 0, 0⟩) ServerConnection.cutFrames ∧
    StaysBounded (ClientSession.onMessage byteStreamer (some 3) fun _ pool => pool)
      (ClientSession.new (.new fun _ => ⟨0, none, none, 0, none, none⟩))
      ServerConnection.cutFrames := by
  obtain ⟨hserver, hclient⟩ :=
    unread_bounded_iff rfl byteStreamer_exactDecode ServerConnection.cutFrames
  refine ⟨(hserver true ⟨0, 0, 0⟩).mpr ?_, (hclient (some 3) _ _).mpr ?_⟩
  · exact staysClean_cutFrames ⟨rfl, rfl⟩ ⟨rfl, rfl, rfl⟩ ⟨rfl, rfl, rfl⟩
  · exact staysClean_cutFrames ⟨rfl, rfl⟩ ⟨rfl, rfl, rfl⟩ ⟨rfl, rfl, rfl⟩

/-- Thirty-two zero bytes in one chunk: the first half is a malformed header and
the second half stays in the buffer. -/
theorem unread_unbounded : ∃ receiver,
    run (ServerConnection.onMessage byteStreamer false) (ServerConnection.new ⟨0, 0, 0⟩)
      [List.replicate 32 0] = some receiver ∧ ¬ UnreadBounded receiver := by
  refine ⟨_, rfl, ?_⟩
  rintro (⟨hgot, -⟩ | ⟨-, hshort⟩)
  · cases hgot
  · exact absurd hshort (by decide)

end Wnet
