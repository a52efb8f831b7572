import Wnet.Packet.Buffer
import Wnet.Packet.Wire

/-!
# Encoding on the buffer

`Encode` as it runs on `evpp::Buffer`, where every append may move the unread
bytes and the length of the payload is written over its place at the end. While
the buffer stays below `2 ^ 31` bytes it refines the streamer's encoding of byte
lists; a packet is appended as one whole frame or not at all. What is encoded is
accepted by `GetPacketInfo` only up to the size that the receiver allows.
-/

namespace Wnet

open Foundation

theorem Buffer.overwrite_append (front : Bytes) (word : UInt32) (rest : Bytes) (value : Int32) :
    Buffer.overwrite (front ++ encodeWord word ++ rest) front.length value =
      front ++ encodeWord value.toUInt32 ++ rest := by
  have hlength : front.length + 4 = (front ++ encodeWord word).length := by simp
  rw [overwrite, hlength, List.drop_left, List.append_assoc front, List.take_left]

@[simp] theorem Buffer.length_appendInt32 (buffer : Bytes) (value : Int32) :
    (Buffer.appendInt32 buffer value).length = buffer.length + 4 := by
  simp [appendInt32]

theorem Buffer.truncate_eq_take (buffer : Bytes) (len : Nat) :
    Buffer.truncate buffer len = buffer.take len := by
  rw [truncate]
  split
  next hzero => rw [hzero, List.take_zero]
  next =>
    split
    next => rfl
    next hlong => rw [List.take_of_length_le (Nat.not_lt.mp hlong)]

/-- A length below `2 ^ 31` as an `int` converted back to `size_t`. -/
theorem sizeOfInt_ofNat {length : Nat} (hlt : length < 2 ^ 31) :
    sizeOfInt (Int32.ofNat length) = length := by
  rw [sizeOfInt, toInt_ofNat_of_lt hlt]
  omega

namespace Streamer

variable {Body : Type*} (streamer : Streamer Body)

/-- A packet on the wire: its header, in header mode, and its payload. -/
def frame (header : PacketHeader) (payload : Bytes) : Bytes :=
  if streamer.existPacketHeader then streamer.encodeHeader header ++ payload else payload

/-- What `Encode` appends before it calls the packet's own `Encode`. -/
def preamble (header : PacketHeader) : Bytes := streamer.frame { header with dataLen := 0 } []

theorem length_preamble (header : PacketHeader) (payload : Bytes) :
    (streamer.preamble header).length + payload.length =
      (streamer.frame header payload).length := by
  rw [preamble, frame, frame]
  split <;> simp

/-- The bytes in front of the place for the payload length. -/
def lead (header : PacketHeader) (output : Bytes) : Bytes :=
  output ++ encodeWord streamer.nPacketFlag.toUInt32 ++ encodeWord header.chid ++
    encodeWord header.pcode.toUInt32

theorem length_lead (header : PacketHeader) (output : Bytes) :
    (streamer.lead header output).length = output.length + 12 := by
  simp [lead]

theorem lead_append (header : PacketHeader) (output payload : Bytes) :
    streamer.lead header output ++ encodeWord header.dataLen.toUInt32 ++ payload =
      output ++ (streamer.encodeHeader header ++ payload) := by
  simp [lead, encodeHeader]

/-- `headerSize` in `Encode`. -/
def headerSize : Int32 := if streamer.existPacketHeader then 16 else 0

theorem headerSize_eq (header : PacketHeader) :
    streamer.headerSize = Int32.ofNat (streamer.preamble header).length := by
  rw [headerSize, preamble, frame]
  split <;> simp

/-- `dataLenOffset` in `Encode`. -/
def dataLenOffset (header : PacketHeader) (output : Bytes) : Int32 :=
  if streamer.existPacketHeader then Int32.ofNat (streamer.lead header output).length else -1

/-- The payload length written over its place, if it has one. -/
def patch (header : PacketHeader) (output encoded : Bytes) (dataLen : Int32) : Bytes :=
  if streamer.dataLenOffset header output ≥ 0
  then Buffer.overwrite encoded (sizeOfInt (streamer.dataLenOffset header output)) dataLen
  else encoded

/-- `encode` in both modes, with its steps named. -/
theorem encode_eq (packet : Packet Body) (output : Bytes) :
    streamer.encode packet output =
      let encoded := streamer.encodePacket packet (output ++ streamer.preamble packet.header)
      if encoded.1 then
        let dataLen := Int32.ofNat encoded.2.length - Int32.ofNat output.length -
          streamer.headerSize
        (true, { packet with header := { packet.header with dataLen := dataLen } },
          streamer.patch packet.header output encoded.2 dataLen)
      else
        (false, packet, Buffer.truncate encoded.2 (sizeOfInt (Int32.ofNat output.length))) := by
  by_cases hmode : streamer.existPacketHeader
  · have hpreamble : streamer.lead packet.header output ++ encodeWord (Int32.toUInt32 0) =
        output ++ streamer.preamble packet.header := by
      have hlead := streamer.lead_append { packet.header with dataLen := 0 } output []
      simpa [preamble, frame, hmode, lead] using hlead
    simp only [encode, patch, headerSize, dataLenOffset, hmode, if_true, Buffer.appendInt32,
      UInt32.toUInt32_toInt32]
    rw [← lead, hpreamble]
  · simp only [encode, patch, headerSize, dataLenOffset, preamble, frame, hmode, if_false,
      Bool.false_eq_true, List.append_nil]

/-- `header->dataLen_ = output->length() - oldLen - headerSize`. -/
theorem ofNat_payload (old header payload : Nat) :
    Int32.ofNat (old + header + payload) - Int32.ofNat old - Int32.ofNat header =
      Int32.ofNat payload := by
  rw [← Int32.ofNat_sub _ _ (by omega), ← Int32.ofNat_sub _ _ (by omega)]
  congr 1
  omega

theorem ofNat_nonneg {length : Nat} (hlt : length < 2 ^ 31) : Int32.ofNat length ≥ 0 := by
  rw [ge_iff_le, Int32.le_iff_toInt_le, toInt_ofNat_of_lt hlt]
  exact Int.natCast_nonneg _

/-- The place of the payload length lies in the preamble. -/
theorem dataLenOffset_inside {header : PacketHeader} {output : Bytes}
    (hbound : output.length + (streamer.preamble header).length < 2 ^ 31)
    (hoffset : streamer.dataLenOffset header output ≥ 0) :
    sizeOfInt (streamer.dataLenOffset header output) + 4 ≤
      output.length + (streamer.preamble header).length := by
  by_cases hmode : streamer.existPacketHeader
  · have hlength : (streamer.preamble header).length = 16 := by simp [preamble, frame, hmode]
    have hlead := streamer.length_lead header output
    rw [dataLenOffset, if_pos hmode, sizeOfInt_ofNat (by omega)]
    omega
  · rw [dataLenOffset, if_neg hmode] at hoffset
    exact absurd hoffset (by decide)

/-- Writing the payload length into the preamble makes the frame. -/
theorem patch_preamble {header : PacketHeader} {output : Bytes} (payload : Bytes)
    (dataLen : Int32) (hplace : streamer.existPacketHeader → output.length + 12 < 2 ^ 31) :
    streamer.patch header output (output ++ streamer.preamble header ++ payload) dataLen =
      output ++ streamer.frame { header with dataLen := dataLen } payload := by
  by_cases hmode : streamer.existPacketHeader
  · have hlead : (streamer.lead header output).length < 2 ^ 31 := by
      rw [length_lead]
      exact hplace hmode
    have hblank := streamer.lead_append { header with dataLen := 0 } output payload
    have hframe := streamer.lead_append { header with dataLen := dataLen } output payload
    simp only [patch, dataLenOffset, preamble, frame, hmode, if_true, ofNat_nonneg hlead,
      sizeOfInt_ofNat hlead, List.append_nil]
    rw [List.append_assoc, ← hblank, ← hframe]
    exact Buffer.overwrite_append _ _ _ _
  · have hneg : ¬ (-1 : Int32) ≥ 0 := by decide
    simp [patch, dataLenOffset, preamble, frame, hmode, hneg]

/-- A packet whose own `Encode` succeeds is appended as one frame. The length of the payload
is not bounded, but beyond `2 ^ 31` bytes the frame states another length. The place of
that length in the buffer is kept as an `int`. -/
theorem encode_frame {packet : Packet Body} {output payload : Bytes}
    (hencode : streamer.encodePacket packet (output ++ streamer.preamble packet.header) =
      (true, output ++ streamer.preamble packet.header ++ payload))
    (hplace : streamer.existPacketHeader → output.length + 12 < 2 ^ 31) :
    streamer.encode packet output =
      let header := { packet.header with dataLen := Int32.ofNat payload.length }
      (true, { packet with header := header }, output ++ streamer.frame header payload) := by
  have hdata : Int32.ofNat (output ++ streamer.preamble packet.header ++ payload).length -
      Int32.ofNat output.length - streamer.headerSize = Int32.ofNat payload.length := by
    rw [List.length_append, List.length_append, streamer.headerSize_eq packet.header]
    exact ofNat_payload _ _ _
  rw [encode_eq, hencode]
  simp only [if_true, hdata, streamer.patch_preamble payload _ hplace]

/-- A packet whose own `Encode` fails leaves nothing, however much it appended. -/
theorem encode_rollback {packet : Packet Body} {output payload : Bytes}
    (hencode : streamer.encodePacket packet (output ++ streamer.preamble packet.header) =
      (false, output ++ streamer.preamble packet.header ++ payload))
    (hbound : output.length < 2 ^ 31) :
    streamer.encode packet output = (false, packet, output) := by
  rw [encode_eq, hencode]
  simp only [Bool.false_eq_true, if_false, sizeOfInt_ofNat hbound, List.append_assoc,
    Buffer.truncate_eq_take, List.take_left]

/-! ## On the buffer -/

/-- What a packet's own `Encode` does when it is called: the bytes that it appends,
one `Append` after another, and its result. -/
structure EncodeCall where
  appended : List Bytes
  result : Bool

variable (memory : Nat → UInt8)

/-- The header that `Encode` appends, with `dataLenOffset` and `headerSize`. -/
def appendPreamble (header : PacketHeader) (output : Evpp.Buffer) :
    Option (Int32 × Int32 × Evpp.Buffer) :=
  if streamer.existPacketHeader then do
    let output ← output.appendInt32 memory streamer.nPacketFlag
    let output ← output.appendInt32 memory header.chid.toInt32
    let output ← output.appendInt32 memory header.pcode
    let dataLenOffset := Int32.ofNat output.length
    let output ← output.appendInt32 memory 0
    return (dataLenOffset, 16, output)
  else return (-1, 0, output)

/-- `Encode` into a buffer, for a packet with this header whose own `Encode` does `call`:
the result, the header and the buffer. -/
def encodeInto (header : PacketHeader) (call : EncodeCall) (output : Evpp.Buffer) :
    Option (Bool × PacketHeader × Evpp.Buffer) := do
  let oldLen := Int32.ofNat output.length
  let (dataLenOffset, headerSize, output) ← streamer.appendPreamble memory header output
  let output ← call.appended.foldlM (fun output bytes => output.write memory bytes) output
  if call.result then
    let header := { header with dataLen := Int32.ofNat output.length - oldLen - headerSize }
    let output ← if dataLenOffset ≥ 0
      then output.overwrite (sizeOfInt dataLenOffset) header.dataLen else some output
    return (true, header, output)
  else
    let output ← output.truncate (sizeOfInt oldLen)
    return (false, header, output)

/-- On the buffer, the packet's own `Encode` is the call and nothing else of the streamer. -/
theorem encodeInto_call {Other : Type*}
    (createPacket : Int32 → Option (PacketHeader → Bytes → Option Other × Bytes))
    (encodePacket : Packet Other → Bytes → Bool × Bytes) :
    (Streamer.mk streamer.existPacketHeader streamer.nPacketFlag createPacket
      encodePacket).encodeInto memory = streamer.encodeInto memory := rfl

theorem appendPreamble_spec {header : PacketHeader} {output : Evpp.Buffer}
    (hbound : output.contents.length + (streamer.preamble header).length < 2 ^ 32) :
    ∃ written, streamer.appendPreamble memory header output =
        some (streamer.dataLenOffset header output.contents, streamer.headerSize, written) ∧
      written.contents = output.contents ++ streamer.preamble header := by
  by_cases hmode : streamer.existPacketHeader
  · have hlength : (streamer.preamble header).length = 16 := by simp [preamble, frame, hmode]
    rw [hlength] at hbound
    obtain ⟨first, hfirst, hflag⟩ :=
      output.appendInt32_spec memory streamer.nPacketFlag (by omega)
    obtain ⟨second, hsecond, hchid⟩ := first.appendInt32_spec memory header.chid.toInt32
      (by simp only [hflag, Buffer.length_appendInt32]; omega)
    obtain ⟨third, hthird, hpcode⟩ := second.appendInt32_spec memory header.pcode
      (by simp only [hchid, hflag, Buffer.length_appendInt32]; omega)
    obtain ⟨written, hwritten, hzero⟩ := third.appendInt32_spec memory 0
      (by simp only [hpcode, hchid, hflag, Buffer.length_appendInt32]; omega)
    have hlead : third.contents = streamer.lead header output.contents := by
      rw [hpcode, hchid, hflag]
      simp [Buffer.appendInt32, lead]
    refine ⟨written, ?_, ?_⟩
    · simp only [appendPreamble, dataLenOffset, headerSize, hmode, if_true, hfirst, hsecond,
        hthird, hwritten, Option.bind_eq_bind, Option.bind_some, Option.pure_def,
        ← third.length_contents, hlead]
    · have happend := streamer.lead_append { header with dataLen := 0 } output.contents []
      rw [List.append_nil, List.append_nil] at happend
      rw [hzero, hlead, preamble, frame, if_pos hmode, List.append_nil]
      exact happend
  · exact ⟨output, by simp [appendPreamble, dataLenOffset, headerSize, hmode],
      by simp [preamble, frame, hmode]⟩

/-- Below `2 ^ 31` bytes `Encode` does to the buffer what `encode` does to its unread bytes. -/
theorem encodeInto_refines (packet : Packet Body) (call : EncodeCall) (output : Evpp.Buffer)
    (hcall : streamer.encodePacket packet (output.contents ++ streamer.preamble packet.header) =
      (call.result, output.contents ++ streamer.preamble packet.header ++ call.appended.flatten))
    (hbound : output.contents.length +
      (streamer.frame packet.header call.appended.flatten).length < 2 ^ 31) :
    ∃ header written, streamer.encodeInto memory packet.header call output =
        some (call.result, header, written) ∧
      streamer.encode packet output.contents =
        (call.result, { packet with header := header }, written.contents) := by
  have hlength := streamer.length_preamble packet.header call.appended.flatten
  obtain ⟨prepared, hprepared, hpreamble⟩ :
      ∃ written, streamer.appendPreamble memory packet.header output = _ ∧ _ :=
    streamer.appendPreamble_spec memory (by omega)
  obtain ⟨written, hwritten, hcontents⟩ : ∃ written, call.appended.foldlM
      (fun output bytes => output.write memory bytes) prepared = some written ∧ _ :=
    prepared.writes_spec memory (by rw [hpreamble, List.length_append]; omega)
  rw [hpreamble] at hcontents
  have hold : sizeOfInt (Int32.ofNat output.length) = output.contents.length := by
    rw [← output.length_contents]
    exact sizeOfInt_ofNat (by omega)
  rw [encode_eq, hcall, ← hcontents]
  simp only [encodeInto, hprepared, hwritten, Option.bind_eq_bind, Option.bind_some,
    Option.pure_def, ← written.length_contents]
  -- A failure takes the frame back with `Truncate`; a success patches the length in.
  cases call.result with
  | false =>
      obtain ⟨truncated, htruncated, hkept⟩ := written.truncate_spec
        (show output.contents.length ≤ written.contents.length by
          rw [hcontents, List.append_assoc, List.length_append]
          omega)
      refine ⟨packet.header, truncated, ?_, ?_⟩
      · simp only [Bool.false_eq_true, if_false, hold, htruncated, Option.bind_some]
      · rw [output.length_contents]
        simp only [Bool.false_eq_true, if_false, hold, hkept, Buffer.truncate_eq_take]
  | true =>
      simp only [if_true, output.length_contents, patch]
      split
      next hoffset =>
        have hinside := streamer.dataLenOffset_inside (by omega) hoffset
        obtain ⟨patched, hpatched, hpatch⟩ := written.overwrite_spec
          (show _ + 4 ≤ written.contents.length by
            rw [hcontents, List.length_append, List.length_append]
            exact Nat.le_add_right_of_le hinside)
        exact ⟨_, patched, by rw [hpatched, Option.bind_some], by rw [hpatch]⟩
      next => exact ⟨_, written, rfl, rfl⟩

/-- `Encode` is all or nothing, on a buffer with any unread bytes: it appends one frame and
stores the length of its payload in the header, or it leaves both as they were. -/
theorem encodeInto_all_or_nothing (header : PacketHeader) (call : EncodeCall)
    (output : Evpp.Buffer) (hbound : output.contents.length +
      (streamer.frame header call.appended.flatten).length < 2 ^ 31) :
    ∃ left written, streamer.encodeInto memory header call output =
        some (call.result, left, written) ∧
      (call.result = true →
        left = { header with dataLen := left.dataLen } ∧
        left.dataLen.toInt = call.appended.flatten.length ∧
        written.contents = output.contents ++ streamer.frame left call.appended.flatten) ∧
      (call.result = false → left = header ∧ written.contents = output.contents) := by
  -- the packet's own `Encode` as a function on bytes, as the streamer has it
  let abstracted : Streamer Unit := ⟨streamer.existPacketHeader, streamer.nPacketFlag,
    fun _ => none, fun _ bytes => (call.result, bytes ++ call.appended.flatten)⟩
  obtain ⟨left, written, hinto, hencode⟩ : ∃ left written,
      streamer.encodeInto memory header call output = some (call.result, left, written) ∧
      abstracted.encode ⟨header, ()⟩ output.contents =
        (call.result, ⟨left, ()⟩, written.contents) := by
    rw [← streamer.encodeInto_call memory abstracted.createPacket abstracted.encodePacket]
    exact abstracted.encodeInto_refines memory ⟨header, ()⟩ call output rfl hbound
  have hlength := streamer.length_preamble header call.appended.flatten
  have hplace : abstracted.existPacketHeader → output.contents.length + 12 < 2 ^ 31 := by
    intro hmode
    have hsixteen : (streamer.frame header call.appended.flatten).length =
        16 + call.appended.flatten.length := by
      rw [frame, if_pos hmode, List.length_append, length_encodeHeader]
    omega
  refine ⟨left, written, hinto, ?_, ?_⟩
  · intro hresult
    have hcall : abstracted.encodePacket ⟨header, ()⟩
        (output.contents ++ abstracted.preamble header) = (true, _) := Prod.ext hresult rfl
    rw [abstracted.encode_frame hcall hplace] at hencode
    obtain ⟨-, hencode⟩ := Prod.mk.inj hencode
    obtain ⟨hpacket, hcontents⟩ := Prod.mk.inj hencode
    obtain rfl := congrArg Packet.header hpacket
    exact ⟨rfl, toInt_ofNat_of_lt (by omega), hcontents.symm⟩
  · intro hresult
    have hcall : abstracted.encodePacket ⟨header, ()⟩
        (output.contents ++ abstracted.preamble header) = (false, _) := Prod.ext hresult rfl
    rw [abstracted.encode_rollback hcall (by omega)] at hencode
    obtain ⟨-, hencode⟩ := Prod.mk.inj hencode
    obtain ⟨hpacket, hcontents⟩ := Prod.mk.inj hencode
    exact ⟨(congrArg Packet.header hpacket).symm, hcontents.symm⟩

/-- A buffer with two unread bytes and no room behind them. -/
def crowded : Evpp.Buffer where
  buffer := [9, 9, 7, 8]
  readIndex := 2
  writeIndex := 4
  reservedPrependSize := 1
  read_le_write := by decide
  write_le_capacity := by decide
  reserved_le_capacity := by decide
  reserved_lt := by decide
  capacity_lt := by decide

/-- A packet that appends three bytes and then fails, and one that succeeds. -/
theorem encodeInto_all_or_nothing_crowded :
    (∃ written, byteStreamer.encodeInto (fun _ => 0) ⟨5, 6, 0⟩ ⟨[[1], [2, 3]], false⟩ crowded =
      some (false, ⟨5, 6, 0⟩, written) ∧ written.contents = [7, 8]) ∧
    ∃ written, byteStreamer.encodeInto (fun _ => 0) ⟨5, 6, 0⟩ ⟨[[1], [2, 3]], true⟩ crowded =
      some (true, ⟨5, 6, 3⟩, written) ∧
      written.contents = [7, 8] ++ byteStreamer.frame ⟨5, 6, 3⟩ [1, 2, 3] := by
  have hbound : crowded.contents.length +
      (byteStreamer.frame ⟨5, 6, 0⟩ [[1], [2, 3]].flatten).length < 2 ^ 31 := by decide
  constructor
  · obtain ⟨left, written, hinto, -, hfails⟩ := byteStreamer.encodeInto_all_or_nothing (fun _ => 0)
      ⟨5, 6, 0⟩ ⟨[[1], [2, 3]], false⟩ crowded hbound
    obtain ⟨rfl, hcontents⟩ := hfails rfl
    exact ⟨written, hinto, hcontents⟩
  · obtain ⟨left, written, hinto, hencodes, -⟩ := byteStreamer.encodeInto_all_or_nothing
      (fun _ => 0) ⟨5, 6, 0⟩ ⟨[[1], [2, 3]], true⟩ crowded hbound
    obtain ⟨hleft, hdataLen, hcontents⟩ := hencodes rfl
    have hthree : left.dataLen = 3 := Int32.toInt_inj.mp hdataLen
    rw [hthree] at hleft
    subst hleft
    exact ⟨written, hinto, hcontents⟩

/-! ## What the receiver accepts -/

/-- `GetPacketInfo` takes some bytes for a whole packet with the channel and the packet code
of `header`, whatever its header argument held before. -/
def Accepts (bytes : Bytes) (header : PacketHeader) : Prop :=
  ∀ scratch, let info := streamer.getPacketInfo bytes scratch
    info.got = true ∧ info.broken = false ∧ info.header.chid = header.chid ∧
      info.header.pcode = header.pcode ∧ info.header.dataLen.toInt = info.input.length

theorem accepts_frame_iff (hmode : streamer.existPacketHeader) (header : PacketHeader)
    (dataLen : Int32) (payload : Bytes) :
    streamer.Accepts (streamer.encodeHeader { header with dataLen := dataLen } ++ payload)
        header ↔
      ({ header with dataLen := dataLen } : PacketHeader).Valid ∧
        dataLen.toInt = payload.length := by
  obtain ⟨hwire, hflag⟩ :=
    streamer.wireHeader_encodeHeader { header with dataLen := dataLen } payload
  generalize hbytes : streamer.encodeHeader { header with dataLen := dataLen } ++ payload = bytes
    at hwire hflag
  have hlong : ¬ bytes.length < 16 := by simp [← hbytes]
  have hrest : bytes.drop 16 = payload := by
    rw [← hbytes]
    exact List.drop_left' (streamer.length_encodeHeader _)
  have hbroken : (streamer.framing.header (bytes.take 16)).isNone = false ↔
      ({ header with dataLen := dataLen } : PacketHeader).Valid := by
    rw [framing_header_take, framing_header, hwire, hflag]
    simp
  simp only [Accepts, streamer.getPacketInfo_long hmode hlong, hwire, hrest, hbroken, true_and]
  exact ⟨fun haccepts => haccepts header, fun haccepts _ => haccepts⟩

/-- What `Encode` leaves on an empty buffer in header mode. -/
theorem encode_empty_frame (hmode : streamer.existPacketHeader) {packet : Packet Body}
    {payload : Bytes} (hencode : streamer.encodePacket packet (streamer.preamble packet.header) =
      (true, streamer.preamble packet.header ++ payload)) :
    streamer.encode packet [] =
      let header := { packet.header with dataLen := Int32.ofNat payload.length }
      (true, { packet with header := header }, streamer.encodeHeader header ++ payload) := by
  have hframe := streamer.encode_frame hencode fun _ => (by decide : ([] : Bytes).length + 12 < _)
  simpa [frame, hmode] using hframe

/-- The receiver takes what `Encode` makes of a packet on an empty buffer exactly when the
payload has at most `0x4000000` bytes. -/
theorem accepts_encode_iff (hmode : streamer.existPacketHeader) (packet : Packet Body)
    (payload : Bytes) (hencode : streamer.encodePacket packet (streamer.preamble packet.header) =
      (true, streamer.preamble packet.header ++ payload)) :
    (streamer.encode packet []).1 = true ∧
      (streamer.Accepts (streamer.encode packet []).2.2 packet.header ↔
        payload.length ≤ 0x4000000) := by
  rw [streamer.encode_empty_frame hmode hencode]
  refine ⟨rfl, ?_⟩
  dsimp only
  rw [streamer.accepts_frame_iff hmode]
  constructor
  · rintro ⟨hvalid, hlength⟩
    have hle : (Int32.ofNat payload.length).toInt ≤ 0x4000000 := hvalid.toInt.2
    omega
  · intro hle
    have hint : (Int32.ofNat payload.length).toInt = payload.length :=
      toInt_ofNat_of_lt (by omega)
    have hmax : (0x4000000 : Int32).toInt = 0x4000000 := by decide
    refine ⟨⟨?_, ?_⟩, hint⟩
    · exact ofNat_nonneg (by omega)
    · rw [Int32.le_iff_toInt_le, hint, hmax]
      omega

theorem accepts_encode_iff_short :
    byteStreamer.Accepts (byteStreamer.encode ⟨⟨5, 6, 0⟩, [1, 2, 3]⟩ []).2.2 ⟨5, 6, 0⟩ :=
  (byteStreamer.accepts_encode_iff rfl ⟨⟨5, 6, 0⟩, [1, 2, 3]⟩ [1, 2, 3] rfl).2.mpr (by decide)

/-- One byte more than the receiver allows is encoded all the same. -/
theorem oversized_not_accepted :
    (byteStreamer.encode ⟨⟨5, 6, 0⟩, List.replicate 0x4000001 0⟩ []).1 = true ∧
      ¬ byteStreamer.Accepts
        (byteStreamer.encode ⟨⟨5, 6, 0⟩, List.replicate 0x4000001 0⟩ []).2.2 ⟨5, 6, 0⟩ := by
  have hencode : byteStreamer.encodePacket ⟨⟨5, 6, 0⟩, List.replicate 0x4000001 0⟩
      (byteStreamer.preamble ⟨5, 6, 0⟩) =
        (true, byteStreamer.preamble ⟨5, 6, 0⟩ ++ List.replicate 0x4000001 0) := rfl
  rw [byteStreamer.encode_empty_frame rfl hencode]
  refine ⟨rfl, ?_⟩
  intro haccepts
  obtain ⟨hvalid, hlength⟩ := (byteStreamer.accepts_frame_iff rfl _ _ _).mp haccepts
  have hle := hvalid.toInt.2
  rw [hlength, List.length_replicate] at hle
  omega

end Streamer

end Wnet
