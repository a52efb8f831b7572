import Wnet.Packet.Reception
import Wnet.Server.Connection

/-!
# The server on its buffer

A server connection decodes from the input buffer of its `TCPConn`. What its adapter is
called with is what the connection on lists of bytes calls it with.
-/

namespace Wnet.ServerConnection

open Foundation

variable {Body : Type*} (streamer : Streamer Body) (batchPushPacket : Bool)
  (decodePacket : Evpp.Buffer → PacketHeader → Option (Option Body × Evpp.Buffer))

/-- `DefaultPacketStreamer::Decode` on a buffer; `decodePacket` is the `Decode` of the packet
that the factory creates. -/
def decodeFrom (input : Evpp.Buffer) (header : PacketHeader) :
    Option (Option Body × Evpp.Buffer) :=
  match streamer.createPacket header.pcode with
  | some _ => decodePacket input header
  | none => (input.skip (sizeOfInt header.dataLen)).map fun input => (none, input)

/-- `ServerConnection::HandlePacket` on a buffer. -/
def handlePacketFrom (state : ServerState Body) (input : Evpp.Buffer) (header : PacketHeader) :
    Option (ServerState Body × Evpp.Buffer) :=
  (decodeFrom streamer decodePacket input header).map fun
    | (none, input) => ({ state with calls := state.calls ++ [.handlePacket .bad] }, input)
    | (some body, input) =>
        let packet : Packet Body := ⟨header, body⟩
        if batchPushPacket then
          let inputQueue := state.inputQueue ++ [packet]
          if inputQueue.length ≥ 15 then
            (⟨[], state.calls ++ [.handleBatchPacket inputQueue]⟩, input)
          else ({ state with inputQueue := inputQueue }, input)
        else ({ state with calls := state.calls ++ [.handlePacket (.regular packet)] }, input)

/-- On the buffer the packets decode what they decode from the unread bytes. -/
def Decodes : Prop :=
  ∀ header decode, streamer.createPacket header.pcode = some decode → ∀ input, ∃ after,
    decodePacket input header = some ((decode header input.contents).1, after) ∧
      after.contents = (decode header input.contents).2

variable {streamer batchPushPacket decodePacket}

theorem decodeFrom_spec (hdecodes : Decodes streamer decodePacket) (input : Evpp.Buffer)
    (header : PacketHeader) : ∃ after,
    decodeFrom streamer decodePacket input header =
        some ((streamer.decode input.contents header).1, after) ∧
      after.contents = (streamer.decode input.contents header).2 := by
  rw [decodeFrom, Streamer.decode]
  cases hcreate : streamer.createPacket header.pcode with
  | some decode => exact hdecodes header decode hcreate input
  | none =>
      obtain ⟨after, hskip, hcontents⟩ := input.skip_spec (sizeOfInt header.dataLen)
      exact ⟨after, by dsimp only; rw [hskip]; rfl, hcontents⟩

theorem handlePacketFrom_handlesAs (hdecodes : Decodes streamer decodePacket) :
    HandlesAs (handlePacketFrom streamer batchPushPacket decodePacket)
      (handlePacket streamer batchPushPacket) := by
  intro state input header
  obtain ⟨after, hdecode, hafter⟩ := decodeFrom_spec hdecodes input header
  rw [handlePacketFrom, hdecode, handlePacket, Option.map_some]
  cases hbody : streamer.decode input.contents header with
  | mk body rest =>
      rw [hbody] at hafter
      cases body with
      | none => exact ⟨after, rfl, hafter⟩
      | some body =>
          dsimp only
          split
          next =>
            split
            next => exact ⟨after, rfl, hafter⟩
            next => exact ⟨after, rfl, hafter⟩
          next => exact ⟨after, rfl, hafter⟩

/-- The server does not notice the array. On the input buffer of a new connection, and
whatever chunks arrive while there are less than `2 ^ 32` unread bytes, no assertion of the
buffer fails and no index leaves its array; the adapter is called with the same packets, and
the same bytes stay unread, as on a list of bytes. -/
theorem buffer_serves_as_bytes (hdecodes : Decodes streamer decodePacket)
    (memory : Nat → UInt8) (packetHeader : PacketHeader) {chunks : List Bytes}
    {final : Receiver (ServerState Body)}
    (hrun : run (onChunk streamer (handlePacket streamer batchPushPacket)) (new packetHeader)
      chunks = some final) :
    ∃ last, run (onMessageFrom streamer
        (handlePacketFrom streamer batchPushPacket decodePacket) memory)
        ⟨⟨false, packetHeader⟩, ⟨[], []⟩, Evpp.Buffer.new memory⟩ chunks = some last ∧
      last.state = final.state ∧ last.reader = final.reader ∧
      last.input.contents = final.input := by
  have hempty : (Evpp.Buffer.new memory).contents = [] := by
    rw [Evpp.Buffer.contents, Foundation.segment]
    exact List.drop_eq_nil_of_le (List.length_take_le _ _)
  have hstart : new packetHeader = (⟨⟨false, packetHeader⟩, ⟨[], []⟩,
      (Evpp.Buffer.new memory).contents⟩ : Receiver (ServerState Body)) := by rw [hempty, new]
  rw [hstart] at hrun
  obtain ⟨last, hlast, rfl⟩ := onMessageFrom_refines (handlePacketFrom_handlesAs hdecodes) memory
    ⟨⟨false, packetHeader⟩, ⟨[], []⟩, Evpp.Buffer.new memory⟩ hrun
  exact ⟨last, hlast, rfl, rfl, rfl⟩

/-- The `Decode` of a packet that carries plain bytes. -/
def decodeBytes (input : Evpp.Buffer) (header : PacketHeader) :
    Option (Option Bytes × Evpp.Buffer) :=
  (input.next header.bodyLength).map fun (input, body) => (some body, input)

theorem decodeBytes_decodes : Decodes byteStreamer decodeBytes := by
  intro header decode hcreate input
  obtain rfl := Option.some.inj hcreate
  obtain ⟨after, hnext, hcontents⟩ := input.next_spec header.bodyLength
  refine ⟨after, by rw [decodeBytes, hnext]; rfl, ?_⟩
  rw [hcontents, Buffer.skip_eq_drop]

/-- Two frames arrive in three chunks. -/
def threeChunks : List Bytes :=
  [byteStreamer.encodeHeader ⟨5, 6, 3⟩ ++ [1, 2, 3, 0x51, 0x59], [0x4b],
    (byteStreamer.encodeHeader ⟨7, 8, 1⟩ ++ [4]).drop 3]

theorem buffer_serves_as_bytes_threeChunks : ∃ last,
    run (onMessageFrom byteStreamer (handlePacketFrom byteStreamer false decodeBytes) fun _ => 0)
      ⟨⟨false, ⟨0, 0, 0⟩⟩, ⟨[], []⟩, Evpp.Buffer.new fun _ => 0⟩ threeChunks = some last ∧
    last.state.handed = [.regular ⟨⟨5, 6, 3⟩, [1, 2, 3]⟩, .regular ⟨⟨7, 8, 1⟩, [4]⟩] ∧
    last.input.contents = [] := by
  have hfacts : (run (onChunk byteStreamer (handlePacket byteStreamer false)) (new ⟨0, 0, 0⟩)
      threeChunks).map (fun final => (final.state.handed, final.input)) =
      some ([.regular ⟨⟨5, 6, 3⟩, [1, 2, 3]⟩, .regular ⟨⟨7, 8, 1⟩, [4]⟩], []) := by decide
  obtain ⟨final, hrun, hfinal⟩ := Option.map_eq_some_iff.mp hfacts
  obtain ⟨hhanded, hinput⟩ := Prod.mk.inj hfinal
  obtain ⟨last, hlast, hstate, -, hrest⟩ :=
    buffer_serves_as_bytes decodeBytes_decodes (fun _ => 0) ⟨0, 0, 0⟩ hrun
  exact ⟨last, hlast, by rw [hstate, hhanded], by rw [hrest, hinput]⟩

end Wnet.ServerConnection
