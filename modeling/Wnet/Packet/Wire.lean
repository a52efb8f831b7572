import Wnet.Packet.Streamer
import Wnet.Foundation.Feeding

/-!
# The wire format as a framing

In header mode the streamer's byte format is a framing with 16-byte headers.
The receiving loop does not decide exactly whether a payload is complete: it
compares the payload length with the number of unread bytes converted to `int`,
which is exact below `2 ^ 31` unread bytes only.
-/

namespace Wnet

open Foundation

theorem decodeWord_take {bytes : Bytes} {size : Nat} (hsize : 4 ≤ size) :
    decodeWord (bytes.take size) = decodeWord bytes := by
  obtain ⟨more, rfl⟩ := Nat.exists_eq_add_of_le' hsize
  match bytes with
  | [] => rfl
  | [_] => rfl
  | [_, _] => rfl
  | [_, _, _] => rfl
  | _ :: _ :: _ :: _ :: _ => rfl

/-- The header fields at the front of some bytes, without the flag. -/
def wireHeader (bytes : Bytes) : PacketHeader :=
  ⟨decodeWord (bytes.drop 4), (decodeWord (bytes.drop 8)).toInt32,
    (decodeWord (bytes.drop 12)).toInt32⟩

/-- The length check of `OnMessage`: `static_cast<int>(input->length()) >= dataLen_`. -/
def lengthCheck (available : Nat) (header : PacketHeader) : Bool :=
  header.dataLen ≤ Int32.ofNat available

namespace PacketHeader

def bodyLength (header : PacketHeader) : Nat := header.dataLen.toInt.toNat

/-- A header that `GetPacketInfo` accepts. -/
def Valid (header : PacketHeader) : Prop :=
  0 ≤ header.dataLen ∧ header.dataLen ≤ 0x4000000

instance (header : PacketHeader) : Decidable header.Valid := inferInstanceAs (Decidable (_ ∧ _))

theorem Valid.toInt {header : PacketHeader} (hvalid : header.Valid) :
    0 ≤ header.dataLen.toInt ∧ header.dataLen.toInt ≤ 0x4000000 := by
  obtain ⟨hpos, hle⟩ := hvalid
  rw [Int32.le_iff_toInt_le] at hpos hle
  exact ⟨hpos, hle⟩

theorem bodyLength_lt (header : PacketHeader) : header.bodyLength < 2 ^ 31 := by
  have := header.dataLen.toInt_lt
  rw [bodyLength]
  omega

end PacketHeader

theorem toInt_ofNat_le (available : Nat) : (Int32.ofNat available).toInt ≤ available := by
  rw [Int32.toInt_ofNat', Int32.size, Int.bmod_def]
  split <;> omega

theorem toInt_ofNat_of_lt {available : Nat} (hlt : available < 2 ^ 31) :
    (Int32.ofNat available).toInt = available := by
  rw [Int32.toInt_ofNat', Int32.size, Int.bmod_def]
  split <;> omega

/-- The check never accepts an incomplete payload. -/
theorem lengthCheck_sound (available : Nat) (header : PacketHeader)
    (hcheck : lengthCheck available header) : header.bodyLength ≤ available := by
  have hle : header.dataLen.toInt ≤ (Int32.ofNat available).toInt := by
    simpa [lengthCheck, Int32.le_iff_toInt_le] using hcheck
  have := toInt_ofNat_le available
  rw [PacketHeader.bodyLength]
  omega

/-- Below `2 ^ 31` unread bytes it accepts every complete one. -/
theorem lengthCheck_exact (available : Nat) (header : PacketHeader) (hlt : available < 2 ^ 31)
    (hle : header.bodyLength ≤ available) : lengthCheck available header := by
  have hint := toInt_ofNat_of_lt hlt
  rw [PacketHeader.bodyLength] at hle
  simp only [lengthCheck, Int32.le_iff_toInt_le, hint, decide_eq_true_eq]
  omega

namespace Streamer

variable {Body : Type*} (streamer : Streamer Body)

/-- The byte format of header mode. -/
def framing : Framing UInt8 PacketHeader where
  headerSize := 16
  headerSize_pos := by decide
  header bytes :=
    if (decodeWord bytes).toInt32 = streamer.nPacketFlag ∧ (wireHeader bytes).Valid
    then some (wireHeader bytes) else none
  bodyLength := PacketHeader.bodyLength

/-- The header of a frame as `Encode` writes it. -/
def encodeHeader (header : PacketHeader) : Bytes :=
  encodeWord streamer.nPacketFlag.toUInt32 ++ encodeWord header.chid ++
    encodeWord header.pcode.toUInt32 ++ encodeWord header.dataLen.toUInt32

theorem framing_headerSize : streamer.framing.headerSize = 16 := rfl

theorem framing_bodyLength (header : PacketHeader) :
    streamer.framing.bodyLength header = header.bodyLength := rfl

theorem framing_header (bytes : Bytes) : streamer.framing.header bytes =
    if (decodeWord bytes).toInt32 = streamer.nPacketFlag ∧ (wireHeader bytes).Valid
    then some (wireHeader bytes) else none := rfl

theorem framing_header_valid {bytes : Bytes} {header : PacketHeader}
    (hheader : streamer.framing.header bytes = some header) : header.Valid := by
  rw [framing_header] at hheader
  split at hheader
  next h =>
    obtain rfl := Option.some.inj hheader
    exact h.2
  next => cases hheader

theorem framing_header_take (bytes : Bytes) :
    streamer.framing.header (bytes.take 16) = streamer.framing.header bytes := by
  have hdrop : ∀ offset ≤ 12, decodeWord ((bytes.take 16).drop offset) =
      decodeWord (bytes.drop offset) := by
    intro offset hoffset
    rw [List.drop_take]
    exact decodeWord_take (by omega)
  have hwire : wireHeader (bytes.take 16) = wireHeader bytes := by
    simp only [wireHeader]
    rw [hdrop 4 (by omega), hdrop 8 (by omega), hdrop 12 (by omega)]
  simp only [framing_header, hwire, decodeWord_take (show 4 ≤ 16 by omega)]

/-- `GetPacketInfo` on a complete header. -/
theorem getPacketInfo_long (hmode : streamer.existPacketHeader) {input : Bytes}
    (hlong : ¬ input.length < 16) (header : PacketHeader) :
    streamer.getPacketInfo input header =
      ⟨true, (streamer.framing.header (input.take 16)).isNone, wireHeader input,
        input.drop 16⟩ := by
  rw [framing_header_take streamer input]
  have hbroken : ((decodeWord input).toInt32 ≠ streamer.nPacketFlag ∨
      (wireHeader input).dataLen < 0 ∨ (wireHeader input).dataLen > 0x4000000) ↔
        ¬ ((decodeWord input).toInt32 = streamer.nPacketFlag ∧ (wireHeader input).Valid) := by
    rw [PacketHeader.Valid, not_and_or, not_and_or, Int32.not_le, Int32.not_le]
  have hinfo : streamer.getPacketInfo input header =
      ⟨true, decide ((decodeWord input).toInt32 ≠ streamer.nPacketFlag ∨
        (wireHeader input).dataLen < 0 ∨ (wireHeader input).dataLen > 0x4000000),
        wireHeader input, input.drop 16⟩ := by
    simp [getPacketInfo, hmode, hlong, Buffer.readInt32, Buffer.skip_eq_drop, wireHeader]
  rw [hinfo, framing_header]
  by_cases hvalid : (decodeWord input).toInt32 = streamer.nPacketFlag ∧ (wireHeader input).Valid
  · rw [if_pos hvalid, decide_eq_false (by rwa [hbroken, not_not])]
    rfl
  · rw [if_neg hvalid, decide_eq_true (hbroken.mpr hvalid)]
    rfl

theorem getPacketInfo_short (hmode : streamer.existPacketHeader) {input : Bytes}
    (hshort : input.length < 16) (header : PacketHeader) :
    streamer.getPacketInfo input header = ⟨false, false, header, input⟩ := by
  simp [getPacketInfo, hmode, hshort]

@[simp] theorem length_encodeHeader (header : PacketHeader) :
    (streamer.encodeHeader header).length = 16 := by
  simp [encodeHeader]

theorem wireHeader_encodeHeader (header : PacketHeader) (rest : Bytes) :
    wireHeader (streamer.encodeHeader header ++ rest) = header ∧
      (decodeWord (streamer.encodeHeader header ++ rest)).toInt32 = streamer.nPacketFlag := by
  have hfirst : ∀ first second : UInt32, ∀ rest : Bytes,
      (encodeWord first ++ (encodeWord second ++ rest)).drop 4 = encodeWord second ++ rest :=
    fun first second rest => rfl
  simp only [encodeHeader, List.append_assoc]
  refine ⟨?_, ?_⟩
  · rw [wireHeader, show 8 = 4 + 4 from rfl, show 12 = 4 + 4 + 4 from rfl, ← List.drop_drop,
      ← List.drop_drop, ← List.drop_drop, hfirst, hfirst, hfirst]
    simp
  · simp

/-- A valid header and a payload of its length are a well-formed frame. -/
theorem wellFormed {header : PacketHeader} (hvalid : header.Valid) {payload : Bytes}
    (hlength : payload.length = header.bodyLength) :
    streamer.framing.WellFormed streamer.encodeHeader (header, payload) where
  size := streamer.length_encodeHeader header
  header := by
    obtain ⟨hwire, hflag⟩ := streamer.wireHeader_encodeHeader header []
    rw [List.append_nil] at hwire hflag
    simp [framing_header, hwire, hflag, hvalid]
  body := hlength

end Streamer

/-! ## Decoding a frame -/

section Decode

variable {Body : Type*}

/-- A packet as a handler receives it; `bad` is `ControlPacket::BadPacket`. -/
inductive Delivery (Body : Type*)
  | regular (packet : Packet Body)
  | bad
  deriving DecidableEq, Repr

/-- What a handler receives for the result of `Decode`. -/
def Delivery.ofDecoded (header : PacketHeader) : Option Body → Delivery Body
  | some body => regular ⟨header, body⟩
  | none => bad

/-- Every packet's `Decode` reads and consumes exactly the announced payload. -/
def Streamer.ExactDecode (streamer : Streamer Body) : Prop :=
  ∀ header decodePacket payload rest, streamer.createPacket header.pcode = some decodePacket →
    header.Valid → payload.length = header.bodyLength →
    decodePacket header (payload ++ rest) = ((decodePacket header payload).1, rest)

/-- An application whose packets carry plain bytes. -/
def byteStreamer : Streamer Bytes where
  existPacketHeader := true
  nPacketFlag := qynetPacketFlag
  createPacket := fun _ => some fun header input =>
    (some (input.take header.bodyLength), input.drop header.bodyLength)
  encodePacket := fun packet output => (true, output ++ packet.body)

theorem byteStreamer_exactDecode : byteStreamer.ExactDecode := by
  intro header decodePacket payload rest hcreate _ hlength
  obtain rfl := Option.some.inj hcreate
  simp [← hlength]

/-- What becomes of a frame when it is decoded. -/
def Streamer.outcome (streamer : Streamer Body) (frame : PacketHeader × Bytes) :
    Delivery Body :=
  .ofDecoded frame.1 (streamer.decode frame.2 frame.1).1

variable {streamer : Streamer Body}

theorem sizeOfInt_dataLen {header : PacketHeader} (hvalid : header.Valid) :
    sizeOfInt header.dataLen = header.bodyLength := by
  have hint := hvalid.toInt
  rw [sizeOfInt, PacketHeader.bodyLength]
  omega

/-- `Decode` depends on the payload only and leaves what is behind it. -/
theorem Streamer.ExactDecode.decode_eq (hexact : streamer.ExactDecode) {header : PacketHeader}
    (hvalid : header.Valid) {input : Bytes} (hlength : header.bodyLength ≤ input.length) :
    streamer.decode input header =
      ((streamer.decode (input.take header.bodyLength) header).1,
        input.drop header.bodyLength) := by
  rw [Streamer.decode, Streamer.decode]
  cases hcreate : streamer.createPacket header.pcode with
  | none => simp only [Buffer.skip_eq_drop, sizeOfInt_dataLen hvalid]
  | some decodePacket =>
      have hpayload : (input.take header.bodyLength).length = header.bodyLength := by
        rw [List.length_take]
        omega
      have hdecode := hexact header decodePacket _ (input.drop header.bodyLength) hcreate hvalid
        hpayload
      rw [List.take_append_drop] at hdecode
      exact hdecode

end Decode

end Wnet
