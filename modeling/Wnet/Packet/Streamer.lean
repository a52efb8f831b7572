import Mathlib.Algebra.Group.Int.Defs
import Wnet.Foundation.BigEndian

/-!
# Packets and the default packet streamer

`evpp::Buffer` is a FIFO of bytes; the model keeps its unread bytes. In header
mode a packet travels as four words, the flag, the channel, the packet code and
the length of the payload, followed by the payload. The virtual functions of
`Packet` and the packet factory are supplied by the application and are
parameters of the streamer.
-/

namespace Wnet

open Foundation

namespace Buffer

/-- `Skip`. -/
def skip (input : Bytes) (len : Nat) : Bytes := if len < input.length then input.drop len else []

/-- `Truncate`. -/
def truncate (buffer : Bytes) (len : Nat) : Bytes :=
  if len = 0 then [] else if buffer.length > len then buffer.take len else buffer

def appendInt32 (buffer : Bytes) (value : Int32) : Bytes := buffer ++ encodeWord value.toUInt32

/-- `ReadInt32`: the value and the bytes after it. -/
def readInt32 (input : Bytes) : Int32 × Bytes := ((decodeWord input).toInt32, skip input 4)

/-- `memcpy` of a word over the bytes at an offset. -/
def overwrite (buffer : Bytes) (offset : Nat) (value : Int32) : Bytes :=
  buffer.take offset ++ encodeWord value.toUInt32 ++ buffer.drop (offset + 4)

theorem skip_eq_drop (input : Bytes) (len : Nat) : skip input len = input.drop len := by
  rw [skip]
  split
  next => rfl
  next h => rw [List.drop_eq_nil_of_le (Nat.not_lt.mp h)]

end Buffer

/-- The conversion of an `int` to `size_t`. -/
def sizeOfInt (value : Int32) : Nat := (value.toInt % 2 ^ 64).toNat

structure PacketHeader where
  chid : UInt32
  pcode : Int32
  dataLen : Int32
  deriving DecidableEq, Repr

structure Packet (Body : Type*) where
  header : PacketHeader
  body : Body
  deriving DecidableEq, Repr

/-- `QYNET_PACKET_FLAG`. -/
def qynetPacketFlag : Int32 := 0x51594b4a

/-- A streamer with the factory and the packet codecs of the application.
`createPacket` returns the `Decode` of the packet that the factory creates, and
`encodePacket` is the packet's own `Encode`, acting on the output buffer. -/
structure Streamer (Body : Type*) where
  existPacketHeader : Bool
  nPacketFlag : Int32
  createPacket : Int32 → Option (PacketHeader → Bytes → Option Body × Bytes)
  encodePacket : Packet Body → Bytes → Bool × Bytes

namespace Streamer

variable {Body : Type*} (streamer : Streamer Body)

/-- What `GetPacketInfo` returns and leaves in its arguments. -/
structure Info where
  got : Bool
  broken : Bool
  header : PacketHeader
  input : Bytes

def getPacketInfo (input : Bytes) (header : PacketHeader) : Info :=
  if streamer.existPacketHeader then
    if input.length < 16 then ⟨false, false, header, input⟩
    else
      let (flag, input) := Buffer.readInt32 input
      let (chid, input) := Buffer.readInt32 input
      let (pcode, input) := Buffer.readInt32 input
      let (dataLen, input) := Buffer.readInt32 input
      -- The header is left in its argument even if it is malformed.
      let broken := flag ≠ streamer.nPacketFlag ∨ dataLen < 0 ∨ dataLen > 0x4000000
      ⟨true, broken, ⟨chid.toUInt32, pcode, dataLen⟩, input⟩
  -- Without headers everything that has arrived is one packet, of the length last seen.
  else if input.length = 0 then ⟨false, false, header, input⟩
  else ⟨true, false, header, input⟩

/-- `Decode`: the packet, unless it is unknown or rejects its payload, and the
bytes behind it. -/
def decode (input : Bytes) (header : PacketHeader) : Option Body × Bytes :=
  match streamer.createPacket header.pcode with
  | some decodePacket => decodePacket header input
  -- A packet that rejects its payload leaves the rest to the caller; an unknown one is skipped.
  | none => (none, Buffer.skip input (sizeOfInt header.dataLen))

/-- `Encode`: whether it succeeded, the packet with its data length, the output buffer. -/
def encode (packet : Packet Body) (output : Bytes) : Bool × Packet Body × Bytes :=
  let oldLen := Int32.ofNat output.length
  let (dataLenOffset, headerSize, output) :=
    if streamer.existPacketHeader then
      let output := Buffer.appendInt32 output streamer.nPacketFlag
      let output := Buffer.appendInt32 output packet.header.chid.toInt32
      let output := Buffer.appendInt32 output packet.header.pcode
      (Int32.ofNat output.length, (16 : Int32), Buffer.appendInt32 output 0)
    else (-1, 0, output)
  let (encoded, output) := streamer.encodePacket packet output
  if encoded then
    -- `int` arithmetic on lengths that are `size_t`.
    let dataLen := Int32.ofNat output.length - oldLen - headerSize
    let packet := { packet with header := { packet.header with dataLen := dataLen } }
    let output := if dataLenOffset ≥ 0
      then Buffer.overwrite output (sizeOfInt dataLenOffset) dataLen else output
    (true, packet, output)
  -- `Truncate(oldLen)` takes the header off as well.
  else (false, packet, Buffer.truncate output (sizeOfInt oldLen))

end Streamer

end Wnet
