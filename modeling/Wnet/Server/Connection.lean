import Wnet.Packet.MessageLoop

/-!
# Server connections

A `ServerConnection` decodes the frames that the receiving loop takes and hands
them to its adapter: each packet at once, or, in batch mode, collected in
`inputQueue_` and handed over in batches of 15. A packet that cannot be decoded
is replaced by `ControlPacket::BadPacket`, which is never queued.
-/

namespace Wnet

open Foundation

variable {Body : Type*}

/-- A call of the adapter. -/
inductive AdapterCall (Body : Type*)
  | handlePacket (packet : Delivery Body)
  | handleBatchPacket (queue : List (Packet Body))

/-- The packets that one call hands over. -/
def AdapterCall.packets : AdapterCall Body → List (Delivery Body)
  | handlePacket packet => [packet]
  | handleBatchPacket queue => queue.map .regular

/-- The members that `HandlePacket` changes, with the calls of the adapter so far. -/
structure ServerState (Body : Type*) where
  inputQueue : List (Packet Body)
  calls : List (AdapterCall Body)

/-- All packets handed to the adapter, through either function. -/
def ServerState.handed (state : ServerState Body) : List (Delivery Body) :=
  state.calls.flatMap AdapterCall.packets

namespace ServerConnection

variable (streamer : Streamer Body) (batchPushPacket : Bool)

def handlePacket (state : ServerState Body) (input : Bytes) (header : PacketHeader) :
    ServerState Body × Bytes :=
  match streamer.decode input header with
  | (none, input) => ({ state with calls := state.calls ++ [.handlePacket .bad] }, input)
  | (some body, input) =>
      let packet : Packet Body := ⟨header, body⟩
      if batchPushPacket then
        let inputQueue := state.inputQueue ++ [packet]
        -- Below fifteen the packets wait for the next one, without a deadline.
        if inputQueue.length ≥ 15 then
          (⟨[], state.calls ++ [.handleBatchPacket inputQueue]⟩, input)
        else ({ state with inputQueue := inputQueue }, input)
      else ({ state with calls := state.calls ++ [.handlePacket (.regular packet)] }, input)

/-- `ServerConnection::OnMessage`, after a chunk was appended to the buffer. -/
def onMessage : Receiver (ServerState Body) → Bytes → Option (Receiver (ServerState Body)) :=
  Wnet.onMessage streamer (handlePacket streamer batchPushPacket)

/-- `ServerConnection::PostPacket`: its result, `output_` and the bytes handed to the connection,
which takes all of them while it is open. Without a channel the assertion fails. -/
def postPacket (connected : Bool) (packet : Packet Body) (output : Bytes) :
    Option (Bool × Bytes × Bytes) :=
  if connected = false then some (false, output, [])
  else if streamer.existPacketHeader ∧ packet.header.chid = 0 then none
  else
    -- The result of `Encode` is not looked at.
    let output := (streamer.encode packet output).2.2
    some (if output.length > 0 then (true, [], output) else (true, output, []))

/-- A new connection. The constructor leaves the header as the memory has it. -/
def new (packetHeader : PacketHeader) : Receiver (ServerState Body) :=
  ⟨⟨false, packetHeader⟩, ⟨[], []⟩, []⟩

end ServerConnection

namespace ServerConnection

variable {streamer : Streamer Body} {batchPushPacket : Bool}

/-- What a decoded frame does to the server's state. -/
def deliver (batchPushPacket : Bool) (state : ServerState Body) :
    Delivery Body → ServerState Body
  | .bad => { state with calls := state.calls ++ [.handlePacket .bad] }
  | .regular packet =>
      if batchPushPacket then
        if (state.inputQueue ++ [packet]).length ≥ 15 then
          ⟨[], state.calls ++ [.handleBatchPacket (state.inputQueue ++ [packet])]⟩
        else { state with inputQueue := state.inputQueue ++ [packet] }
      else { state with calls := state.calls ++ [.handlePacket (.regular packet)] }

def handleFrame (streamer : Streamer Body) (batchPushPacket : Bool) (state : ServerState Body)
    (frame : PacketHeader × Bytes) : ServerState Body :=
  deliver batchPushPacket state (streamer.outcome frame)

theorem takesPayload (hexact : streamer.ExactDecode) :
    TakesPayload (handlePacket streamer batchPushPacket)
      (handleFrame streamer batchPushPacket) := by
  intro state input header hvalid hlength
  rw [handlePacket, hexact.decode_eq hvalid hlength, handleFrame, Streamer.outcome]
  cases (streamer.decode (input.take header.bodyLength) header).1 with
  | none => rfl
  | some body =>
      dsimp only [deliver, Delivery.ofDecoded]
      split
      · split <;> rfl
      · rfl

theorem settled_new (packetHeader : PacketHeader) :
    Settled (new packetHeader : Receiver (ServerState Body)).reader [] := by
  intro header hheader
  cases hheader

/-- A run of `OnMessage` calls on a new connection always returns; it hands over
the frames that the framing takes from its chunks. -/
theorem run_onMessage (hmode : streamer.existPacketHeader) (hexact : streamer.ExactDecode)
    (batchPushPacket : Bool) (packetHeader : PacketHeader) (chunks : List Bytes) :
    ∃ final, run (onMessage streamer batchPushPacket) (new packetHeader) chunks = some final ∧
      final.state = ((streamer.framing.feedAll lengthCheck (none, []) chunks).1.map
        streamer.outcome).foldl (deliver batchPushPacket) ⟨[], []⟩ ∧
      (final.reader.pending, final.input) =
        (streamer.framing.feedAll lengthCheck (none, []) chunks).2 := by
  obtain ⟨final, hrun, hstate, hrest, -⟩ :=
    run_onMessage_eq_feedAll hmode (settled_new packetHeader) chunks
      ((takesPayload hexact).feedAll (settled_new packetHeader) _ chunks)
  refine ⟨final, hrun, ?_, hrest⟩
  rw [hstate, List.foldl_map]
  rfl

/-- Without batches every packet is handed over at once. -/
theorem handed_foldl_deliver (deliveries : List (Delivery Body)) (state : ServerState Body) :
    (deliveries.foldl (deliver false) state).handed = state.handed ++ deliveries := by
  induction deliveries generalizing state with
  | nil => simp
  | cons delivery deliveries ih =>
      have hstep : (deliver false state delivery).handed = state.handed ++ [delivery] := by
        cases delivery <;> simp [deliver, ServerState.handed, AdapterCall.packets]
      rw [List.foldl_cons, ih, hstep, List.append_assoc, List.singleton_append]

end ServerConnection

end Wnet
