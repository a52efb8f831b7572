import Wnet.Foundation.Transit
import Wnet.Server.Connection
import Wnet.Session.Requests
import Wnet.Session.Routing

/-!
# A session and its server

The two ends of a connection with what is in transit between them. The session
is that of any number of threads; its loop thread runs `OnMessage` turn by turn,
so that other threads go on while a response is handled. The server's adapter
answers the packets it was handed when it likes and in any order, or not at all.
Bytes arrive in arbitrary chunks, a connection may be lost at any time, and the
session may connect again.
-/

namespace Wnet

open Foundation

/-! ## The turns of the receiving loop -/

/-- What a turn of the loop of `OnMessage` decides: it leaves the loop, or it has a packet
handled. -/
inductive LoopTurn
  | leave (reader : Reader) (input : Bytes)
  | handle (header : PacketHeader) (input : Bytes)

section Turn

variable {Body State : Type*} {streamer : Streamer Body}
  {handlePacket : State → Bytes → PacketHeader → State × Bytes}

/-- The body of the loop up to `HandlePacket`. -/
def Streamer.turn (streamer : Streamer Body) (reader : Reader) (input : Bytes) : LoopTurn :=
  if input.length > 0 then
    let info : Streamer.Info := if reader.gotHeader
      then ⟨true, false, reader.packetHeader, input⟩
      else streamer.getPacketInfo input reader.packetHeader
    if info.broken then .leave ⟨false, info.header⟩ info.input
    else if info.got ∧ lengthCheck info.input.length info.header
      then .handle info.header info.input
    else .leave ⟨info.got, info.header⟩ info.input
  else .leave reader input

/-- The receiving loop takes these turns. -/
theorem messageLoop_turn (fuel : Nat) (reader : Reader) (state : State) (input : Bytes) :
    messageLoop streamer handlePacket (fuel + 1) reader state input =
      match streamer.turn reader input with
      | .leave reader input => some (reader, state, input)
      | .handle header input =>
          messageLoop streamer handlePacket fuel ⟨false, { header with dataLen := 0 }⟩
            (handlePacket state input header).1 (handlePacket state input header).2 := by
  rw [messageLoop, Streamer.turn]
  by_cases hpos : input.length > 0
  · rw [if_pos hpos, if_pos hpos]
    generalize (if reader.gotHeader then _ else _ : Streamer.Info) = info
    by_cases hbroken : info.broken
    · simp only [hbroken, if_true]
    · by_cases hcheck : info.got ∧ lengthCheck info.input.length info.header
      · simp only [hbroken, hcheck, if_true, and_self, Bool.false_eq_true, if_false]
      · simp only [hbroken, hcheck, Bool.false_eq_true, if_false]
  · rw [if_neg hpos, if_neg hpos]

/-- A turn takes the first of the frames on their way, or nothing. -/
theorem Streamer.turn_carries (hmode : streamer.existPacketHeader) {reader : Reader}
    {input transit : Bytes} {frames : List (PacketHeader × Bytes)}
    (hvalid : ∀ header ∈ reader.pending, header.Valid)
    (hcarries : streamer.framing.Carries (reader.pending, input) transit frames) :
    match streamer.turn reader input with
    | .leave reader' input' =>
        (∀ header ∈ reader'.pending, header.Valid) ∧
          streamer.framing.Carries (reader'.pending, input') transit frames
    | .handle header body =>
        header.Valid ∧ header.bodyLength ≤ body.length ∧ ∃ later,
          frames = (header, body.take header.bodyLength) :: later ∧
            streamer.framing.Carries (none, body.drop header.bodyLength) transit later := by
  -- A turn with a header in hand, read in this turn or before.
  have hwait : ∀ (header : PacketHeader) (body : Bytes), header.Valid →
      streamer.framing.Carries (some header, body) transit frames →
      match (if lengthCheck body.length header then LoopTurn.handle header body
        else .leave ⟨true, header⟩ body) with
      | .leave reader' input' =>
          (∀ header ∈ reader'.pending, header.Valid) ∧
            streamer.framing.Carries (reader'.pending, input') transit frames
      | .handle header body =>
          header.Valid ∧ header.bodyLength ≤ body.length ∧ ∃ later,
            frames = (header, body.take header.bodyLength) :: later ∧
              streamer.framing.Carries (none, body.drop header.bodyLength) transit later := by
    intro header body hheader hbody
    by_cases hcheck : lengthCheck body.length header
    · rw [if_pos hcheck]
      have hle := lengthCheck_sound _ _ hcheck
      exact ⟨hheader, hle, hbody.body hle⟩
    · rw [if_neg hcheck]
      refine ⟨?_, hbody⟩
      rintro other ⟨⟩
      exact hheader
  obtain ⟨gotHeader, packetHeader⟩ := reader
  rw [Streamer.turn]
  by_cases hpos : input.length > 0
  · rw [if_pos hpos]
    cases gotHeader with
    | true =>
        simpa using hwait packetHeader input (hvalid packetHeader rfl) hcarries
    | false =>
        by_cases hshort : input.length < 16
        · simp only [Bool.false_eq_true, if_false, streamer.getPacketInfo_short hmode hshort,
            false_and]
          exact ⟨by simp [Reader.pending], hcarries⟩
        · obtain ⟨header, hheader, hbody⟩ := hcarries.header hshort
          have hwire : wireHeader input = header := by
            rw [streamer.framing_headerSize, streamer.framing_header_take,
              streamer.framing_header] at hheader
            split at hheader
            next => exact Option.some.inj hheader
            next => cases hheader
          rw [streamer.framing_headerSize] at hheader hbody
          simpa [streamer.getPacketInfo_long hmode hshort, hheader, hwire] using
            hwait header (input.drop 16) (streamer.framing_header_valid hheader) hbody
  · rw [if_neg hpos]
    exact ⟨hvalid, hcarries⟩

end Turn

/-! ## The exchange -/

/-- How the two ends are set up. -/
structure Setup (C S : Type*) where
  config : Config C
  streamer : Streamer S
  batchPushPacket : Bool

/-- A session, the server's end of its connection and the bytes between them. The
last three fields are records. -/
structure Exchange (C S : Type*) where
  client : Session C
  reader : Reader
  /-- The unread bytes of the client's connection. -/
  input : Bytes
  /-- Whether the loop thread is in `OnMessage`. -/
  looping : Bool
  /-- The call of `HandlePacket` that the loop made last. -/
  response : Option Nat
  upstream : Bytes
  server : Receiver (ServerState S)
  serverOutput : Bytes
  serverConnected : Bool
  downstream : Bytes
  /-- The requests and the answers to them that were sent on this connection. -/
  answers : List (Packet S × Packet S)
  /-- Those that were sent on connections before. -/
  earlier : List (Packet S × Packet S)
  /-- The number of request frames that were transmitted on connections before. -/
  settled : Nat

/-- What happens next: a thread of the client goes on, a connection is made, bytes arrive
at the client, its loop takes a turn, bytes arrive at the server, the server's adapter
answers a packet it was handed, or the server's end is closed. -/
inductive ExchangeLabel (C S : Type*)
  | client (label : Label C)
  | connect (call : Nat) (packetHeader : PacketHeader)
  | arrive (count : Nat)
  | turn (call : Nat)
  | deliver (count : Nat)
  | answer (index : Nat) (pcode : Int32) (body : S)
  | serverLost

/-- The call of the session that a label begins. -/
def ExchangeLabel.begins {C S : Type*} : ExchangeLabel C S → Option Nat
  | .client (.start call _) | .connect call _ | .turn call => some call
  | _ => none

/-- Whether a label of the session is left to its threads: connections and packets come
from the event loop. -/
def Label.isLocal {Body : Type*} : Label Body → Bool
  | .start _ .onConnection | .start _ (.handlePacket _ _) => false
  | _ => true

/-- `HandlePacket` has returned. -/
def Activity.handled {Body : Type*} : Activity Body → Bool
  | .handlePacket (.returned _) => true
  | _ => false

namespace Exchange

variable {C S : Type*}

/-- A new session, not connected to any server. -/
def new (mem : Ref → Channel) : Exchange C S where
  client := .new mem
  reader := ⟨false, ⟨0, 0, 0⟩⟩
  input := []
  looping := false
  response := none
  upstream := []
  server := ServerConnection.new ⟨0, 0, 0⟩
  serverOutput := []
  serverConnected := false
  downstream := []
  answers := []
  earlier := []
  settled := 0

variable (setup : Setup C S) (state : Exchange C S)

/-- No call of `HandlePacket` is in progress. -/
def responded : Bool :=
  match state.response with
  | none => true
  | some call => (state.client.calls call).handled

/-- The bytes that `HandlePacket` leaves unread: it skips the response to a channel that is
not in use. -/
def unreadAfter (header : PacketHeader) (input : Bytes) : Bytes :=
  if setup.config.streamer.existPacketHeader ∧
      (state.client.pool.offerChannel (header.chid &&& 0xFFFFFFF)).2 = none
  then Buffer.skip input (sizeOfInt header.dataLen)
  else (setup.config.streamer.decode input header).2

def step : ExchangeLabel C S → Option (Exchange C S)
  | .client label =>
      if label.isLocal then
        (state.client.step setup.config label).map fun client =>
          { state with
            client := client
            upstream := state.upstream ++ Session.handedOver state.client client }
      else none
  | .connect call packetHeader =>
      -- The loop thread makes connections, so that `OnMessage` has returned.
      if state.client.connected = false ∧ state.looping = false then
        (state.client.step setup.config (.start call .onConnection)).map fun client =>
          { state with
            client := client
            -- `gotHeader_` and `packetHeader_` belong to the session and stay.
            input := []
            upstream := []
            -- What the server does with an earlier connection reaches nobody.
            server := ServerConnection.new packetHeader
            serverOutput := []
            serverConnected := true
            downstream := []
            answers := []
            earlier := state.earlier ++ state.answers
            settled := state.client.transmitted.length }
      else none
  | .arrive count =>
      if state.client.connected ∧ state.looping = false then
        some { state with
          input := state.input ++ state.downstream.take count
          downstream := state.downstream.drop count
          looping := true }
      else none
  | .turn call =>
      if state.looping ∧ state.responded then
        match setup.config.streamer.turn state.reader state.input with
        | .leave reader input =>
            some { state with reader := reader, input := input, looping := false }
        | .handle header input =>
            (state.client.step setup.config (.start call (.handlePacket header input))).map
              fun client =>
                { state with
                  client := client
                  -- These are reset when `HandlePacket` returns; nobody reads them before.
                  reader := ⟨false, { header with dataLen := 0 }⟩
                  input := state.unreadAfter setup header input
                  response := some call }
      else none
  | .deliver count =>
      if state.serverConnected then
        (ServerConnection.onMessage setup.streamer setup.batchPushPacket state.server
          (state.upstream.take count)).map fun server =>
            { state with server := server, upstream := state.upstream.drop count }
      else none
  | .answer index pcode body =>
      match state.server.state.handed[index]? with
      | some (.regular request) =>
          let reply : Packet S := ⟨⟨request.header.chid, pcode, 0⟩, body⟩
          (ServerConnection.postPacket setup.streamer state.serverConnected reply
            state.serverOutput).map fun (result, serverOutput, sent) =>
              { state with
                serverOutput := serverOutput
                downstream := state.downstream ++ sent
                answers := if result then state.answers ++ [(request, reply)]
                  else state.answers }
      -- A packet that could not be decoded has no channel to answer to.
      | _ => none
  | .serverLost => some { state with serverConnected := false }

end Exchange

end Wnet
