import Wnet.Packet.Encoding
import Wnet.Server.Connection

/-!
# Encoding, segmentation and delivery

Packets are encoded one after another into one output buffer. Its bytes arrive in
arbitrary chunks, with one call of `OnMessage` for each. The adapter then receives
every packet as soon as its last byte has arrived, provided that the places in the
output buffer and the lengths on the other side are not too large for an `int`.
-/

namespace Wnet

open Foundation

variable {Body : Type*}

namespace Streamer

variable (streamer : Streamer Body)

/-- `Encode` for one packet after another: the packets as it leaves them, with their
data lengths, and the output buffer. -/
def encodeAll : List (Packet Body) → Bytes → List (Packet Body) × Bytes
  | [], output => ([], output)
  | packet :: later, output =>
      let (_, packet, output) := streamer.encode packet output
      let (later, output) := encodeAll later output
      (packet :: later, output)

/-- The packets whose bytes are complete within the first bytes of the buffer that they
are encoded into one after another. -/
def arrived (available : Nat) : List (Packet Body) → Bytes → List (Packet Body)
  | [], _ => []
  | packet :: later, output =>
      let (_, packet, output) := streamer.encode packet output
      if output.length ≤ available then packet :: arrived available later output else []

/-- A packet after `Encode` into an empty buffer. -/
def sent (packet : Packet Body) : Packet Body := (streamer.encode packet []).2.1

/-- The bytes of a packet. -/
def wire (packet : Packet Body) : Bytes := (streamer.encode packet []).2.2

/-- The application's side of the agreement: `Encode` appends the payload, the
factory knows the packet code and `Decode` recovers the packet. -/
structure Codec (payload : Packet Body → Bytes) (packet : Packet Body) : Prop where
  encode : ∀ output, streamer.encodePacket packet output = (true, output ++ payload packet)
  decode : ∃ decodePacket, streamer.createPacket packet.header.pcode = some decodePacket ∧
    ∀ header, header.chid = packet.header.chid → header.pcode = packet.header.pcode →
      header.bodyLength = (payload packet).length →
      (decodePacket header (payload packet)).1 = some packet.body
  size : (payload packet).length ≤ 0x4000000

variable {streamer} {payload : Packet Body → Bytes} {packet : Packet Body}

/-- The length of every packet has its place below `2 ^ 31` in a buffer that already has
some bytes: `Encode` keeps that place as an `int`. -/
def Placed (payload : Packet Body → Bytes) (packets : List (Packet Body)) (filled : Nat) : Prop :=
  ∀ before packet after, packets = before ++ packet :: after →
    filled + (16 * before.length + (before.flatMap payload).length) + 12 < 2 ^ 31

theorem Placed.tail {packets : List (Packet Body)} {filled : Nat}
    (hplaced : Placed payload (packet :: packets) filled) :
    Placed payload packets (filled + (16 + (payload packet).length)) := by
  intro before other after hsplit
  have hrest := hplaced (packet :: before) other after (by rw [hsplit, List.cons_append])
  rw [List.length_cons, List.flatMap_cons, List.length_append] at hrest
  omega

theorem Placed.output {packets : List (Packet Body)} {output : Bytes}
    (hplaced : Placed payload (packet :: packets) output.length) :
    output.length + 12 < 2 ^ 31 := by
  simpa using hplaced [] packet packets rfl

/-- Nothing is misplaced in a buffer that stays below `2 ^ 31` bytes. -/
theorem placed_of_short {packets : List (Packet Body)}
    (hshort : 16 * packets.length + (packets.flatMap payload).length < 2 ^ 31) :
    Placed payload packets 0 := by
  rintro before packet after rfl
  simp only [List.length_append, List.length_cons, List.flatMap_append] at hshort
  omega

theorem Codec.encode_eq (hmode : streamer.existPacketHeader)
    (hcodec : streamer.Codec payload packet) {output : Bytes}
    (hplace : output.length + 12 < 2 ^ 31) :
    streamer.encode packet output =
      let header := { packet.header with dataLen := Int32.ofNat (payload packet).length }
      (true, ⟨header, packet.body⟩,
        output ++ Framing.frameBytes streamer.encodeHeader (header, payload packet)) := by
  rw [encode_frame streamer (hcodec.encode _) fun _ => hplace]
  simp only [frame, hmode, if_true, Framing.frameBytes]

theorem Codec.sent_eq (hmode : streamer.existPacketHeader)
    (hcodec : streamer.Codec payload packet) :
    streamer.sent packet =
      ⟨{ packet.header with dataLen := Int32.ofNat (payload packet).length }, packet.body⟩ := by
  rw [sent, hcodec.encode_eq hmode (by decide)]

theorem Codec.wire_eq (hmode : streamer.existPacketHeader)
    (hcodec : streamer.Codec payload packet) :
    streamer.wire packet = Framing.frameBytes streamer.encodeHeader
      ((streamer.sent packet).header, payload packet) := by
  rw [hcodec.sent_eq hmode, wire, hcodec.encode_eq hmode (by decide)]
  rfl

theorem Codec.length_wire (hmode : streamer.existPacketHeader)
    (hcodec : streamer.Codec payload packet) :
    (streamer.wire packet).length = 16 + (payload packet).length := by
  rw [hcodec.wire_eq hmode, Framing.frameBytes, List.length_append, length_encodeHeader]

/-- A packet is appended as it would be to an empty buffer. -/
theorem Codec.encode_append (hmode : streamer.existPacketHeader)
    (hcodec : streamer.Codec payload packet) {output : Bytes}
    (hplace : output.length + 12 < 2 ^ 31) :
    streamer.encode packet output =
      (true, streamer.sent packet, output ++ streamer.wire packet) := by
  rw [hcodec.encode_eq hmode hplace, hcodec.wire_eq hmode, hcodec.sent_eq hmode]

theorem Codec.bodyLength_eq (hmode : streamer.existPacketHeader)
    (hcodec : streamer.Codec payload packet) :
    (streamer.sent packet).header.Valid ∧
      (streamer.sent packet).header.bodyLength = (payload packet).length := by
  have hsize := hcodec.size
  have hint : (Int32.ofNat (payload packet).length).toInt = (payload packet).length :=
    toInt_ofNat_of_lt (by omega)
  rw [hcodec.sent_eq hmode]
  refine ⟨⟨?_, ?_⟩, ?_⟩
  · rw [Int32.le_iff_toInt_le, hint]
    simp
  · rw [Int32.le_iff_toInt_le, hint]
    change ((payload packet).length : Int) ≤ 0x4000000
    omega
  · simp only [PacketHeader.bodyLength, hint]
    omega

theorem Codec.wellFormed (hmode : streamer.existPacketHeader)
    (hcodec : streamer.Codec payload packet) :
    streamer.framing.WellFormed streamer.encodeHeader
      ((streamer.sent packet).header, payload packet) :=
  streamer.wellFormed (hcodec.bodyLength_eq hmode).1 (hcodec.bodyLength_eq hmode).2.symm

theorem Codec.outcome_eq (hmode : streamer.existPacketHeader)
    (hcodec : streamer.Codec payload packet) :
    streamer.outcome ((streamer.sent packet).header, payload packet) =
      .regular (streamer.sent packet) := by
  obtain ⟨decodePacket, hcreate, hdecode⟩ := hcodec.decode
  have hbody := (hcodec.bodyLength_eq hmode).2
  rw [hcodec.sent_eq hmode] at hbody ⊢
  have hrecovered := hdecode
    { packet.header with dataLen := Int32.ofNat (payload packet).length } rfl rfl hbody
  simp only [outcome, Streamer.decode, hcreate, hrecovered, Delivery.ofDecoded]

/-- The frames of a list of packets. -/
def frames (streamer : Streamer Body) (payload : Packet Body → Bytes)
    (packets : List (Packet Body)) : List (PacketHeader × Bytes) :=
  packets.map fun packet => ((streamer.sent packet).header, payload packet)

variable {packets : List (Packet Body)}

theorem flatMap_wire (hmode : streamer.existPacketHeader)
    (hcodec : ∀ packet ∈ packets, streamer.Codec payload packet) :
    packets.flatMap streamer.wire =
      (streamer.frames payload packets).flatMap (Framing.frameBytes streamer.encodeHeader) := by
  rw [frames, List.flatMap_map]
  exact List.flatMap_congr fun packet hpacket => (hcodec packet hpacket).wire_eq hmode

theorem frames_wellFormed (hmode : streamer.existPacketHeader)
    (hcodec : ∀ packet ∈ packets, streamer.Codec payload packet) :
    ∀ frame ∈ streamer.frames payload packets,
      streamer.framing.WellFormed streamer.encodeHeader frame := by
  intro frame hframe
  obtain ⟨packet, hpacket, rfl⟩ := List.mem_map.mp hframe
  exact (hcodec packet hpacket).wellFormed hmode

theorem outcome_frames (hmode : streamer.existPacketHeader)
    (hcodec : ∀ packet ∈ packets, streamer.Codec payload packet) :
    (streamer.frames payload packets).map streamer.outcome =
      (packets.map streamer.sent).map .regular := by
  rw [frames, List.map_map, List.map_map]
  exact List.map_congr_left fun packet hpacket => (hcodec packet hpacket).outcome_eq hmode

theorem encodeAll_eq (hmode : streamer.existPacketHeader)
    (hcodec : ∀ packet ∈ packets, streamer.Codec payload packet) {output : Bytes}
    (hplaced : Placed payload packets output.length) :
    streamer.encodeAll packets output =
      (packets.map streamer.sent, output ++ packets.flatMap streamer.wire) := by
  induction packets generalizing output with
  | nil => simp [encodeAll]
  | cons packet packets ih =>
      have hpacket := hcodec packet List.mem_cons_self
      have htail : Placed payload packets (output ++ streamer.wire packet).length := by
        rw [List.length_append, hpacket.length_wire hmode]
        exact hplaced.tail
      have hrest := ih (fun other hother => hcodec other (List.mem_cons_of_mem _ hother)) htail
      rw [encodeAll, hpacket.encode_append hmode hplaced.output]
      simp only [hrest, List.map_cons, List.flatMap_cons, List.append_assoc]

theorem received_frames (hmode : streamer.existPacketHeader)
    (hcodec : ∀ packet ∈ packets, streamer.Codec payload packet) {output : Bytes}
    (hplaced : Placed payload packets output.length) (available : Nat) :
    (streamer.framing.received (streamer.frames payload packets)
        (available - output.length)).map streamer.outcome =
      (streamer.arrived available packets output).map .regular := by
  induction packets generalizing output with
  | nil => rfl
  | cons packet packets ih =>
      have hpacket := hcodec packet List.mem_cons_self
      have hlength : (output ++ streamer.wire packet).length =
          output.length + (16 + (payload packet).length) := by
        rw [List.length_append, hpacket.length_wire hmode]
      have hrest := ih (fun other hother => hcodec other (List.mem_cons_of_mem _ hother))
        (hlength ▸ hplaced.tail)
      have hleft : available - (output ++ streamer.wire packet).length =
          available - output.length - (16 + (payload packet).length) := by
        rw [hlength, Nat.sub_add_eq]
      have hfits : (output ++ streamer.wire packet).length ≤ available ↔
          16 + (payload packet).length ≤ available - output.length := by
        rw [hlength]
        omega
      rw [hleft] at hrest
      rw [frames] at hrest ⊢
      rw [List.map_cons, Framing.received, arrived, hpacket.encode_append hmode hplaced.output,
        framing_headerSize]
      simp only [hfits]
      split
      next => rw [List.map_cons, List.map_cons, hpacket.outcome_eq hmode, hrest]
      next => rfl

end Streamer

namespace ServerConnection

variable {streamer : Streamer Body} {payload : Packet Body → Bytes}
  {packets : List (Packet Body)} {chunks : List Bytes}

/-- The parse of the first chunks of an encoded list of packets. -/
theorem parse_chunks (hmode : streamer.existPacketHeader)
    (hcodec : ∀ packet ∈ packets, streamer.Codec payload packet)
    (hplaced : Streamer.Placed payload packets 0)
    (hchunks : chunks.flatten = (streamer.encodeAll packets []).2) {before later : List Bytes}
    (hsplit : chunks = before ++ later) :
    ((streamer.framing.parse none before.flatten).1.map streamer.outcome =
      (streamer.arrived before.flatten.length packets []).map .regular) ∧
    ∀ rest, (streamer.framing.parse none before.flatten).2 ≠ .broken rest := by
  have hempty : Streamer.Placed payload packets ([] : Bytes).length := hplaced
  have hstream : chunks.flatten = packets.flatMap streamer.wire := by
    rw [hchunks, Streamer.encodeAll_eq hmode hcodec hempty, List.nil_append]
  have htake : before.flatten = ((streamer.frames payload packets).flatMap
      (Framing.frameBytes streamer.encodeHeader)).take before.flatten.length := by
    rw [← Streamer.flatMap_wire hmode hcodec, ← hstream, hsplit, List.flatten_append,
      List.take_left]
  obtain ⟨hframes, hstop⟩ := Framing.parse_take
    (Streamer.frames_wellFormed hmode hcodec) before.flatten.length
  rw [← htake] at hframes hstop
  refine ⟨?_, hstop⟩
  rw [hframes]
  exact Streamer.received_frames hmode hcodec hempty before.flatten.length

/-- After every chunk the adapter has received exactly the packets whose bytes
are complete, and at the end all of them and nothing is left over, if and only if
in every call of `OnMessage` each complete payload passes the length check. -/
theorem delivers_arrived_iff (hmode : streamer.existPacketHeader)
    (hexact : streamer.ExactDecode)
    (hcodec : ∀ packet ∈ packets, streamer.Codec payload packet)
    (hplaced : Streamer.Placed payload packets 0)
    (hchunks : chunks.flatten = (streamer.encodeAll packets []).2) (packetHeader : PacketHeader) :
    (∀ before later, chunks = before ++ later → ∃ receiver,
      run (onMessage streamer false) (new packetHeader) before = some receiver ∧
      receiver.state.handed =
        (streamer.arrived before.flatten.length packets []).map .regular ∧
      (later = [] → receiver.state.handed = (streamer.encodeAll packets []).1.map .regular ∧
        receiver.reader.gotHeader = false ∧ receiver.input = [])) ↔
    ∀ before chunk later receiver, chunks = before ++ chunk :: later →
      run (onMessage streamer false) (new packetHeader) before = some receiver →
      streamer.framing.StepFits lengthCheck (receiver.reader.pending, receiver.input) chunk := by
  have hbounded : streamer.framing.Bounded none [] := streamer.framing.headerSize_pos
  have hstop : ∀ rest, (streamer.framing.parse none ([] ++ chunks.flatten)).2 ≠ .broken rest :=
    (parse_chunks hmode hcodec hplaced hchunks (List.append_nil chunks).symm).2
  constructor
  · intro hdelivers before chunk later receiver hsplit hrun
    obtain ⟨final, hfinal, -, hrest⟩ := run_onMessage hmode hexact false packetHeader before
    obtain rfl : receiver = final := Option.some.inj (hrun.symm.trans hfinal)
    rw [hrest]
    refine Framing.stepFits_of_length lengthCheck_sound hbounded hstop ?_ before hsplit
    intro before later hsplit
    obtain ⟨receiver, hrun, hhanded, -⟩ := hdelivers before later hsplit
    obtain ⟨final, hfinal, hstate, -⟩ := run_onMessage hmode hexact false packetHeader before
    obtain rfl : receiver = final := Option.some.inj (hrun.symm.trans hfinal)
    -- If a payload had failed the check, fewer packets than complete ones would be handed over.
    have hlength := congrArg List.length
      (hhanded.trans (parse_chunks hmode hcodec hplaced hchunks hsplit).1.symm)
    rw [hstate, handed_foldl_deliver] at hlength
    simpa [ServerState.handed] using hlength
  · intro hfits before later hsplit
    obtain ⟨receiver, hrun, hstate, hrest⟩ := run_onMessage hmode hexact false packetHeader before
    have hparse := parse_chunks hmode hcodec hplaced hchunks hsplit
    have hsteps : ∀ first chunk second, before = first ++ chunk :: second →
        streamer.framing.StepFits lengthCheck
          (streamer.framing.feedAll lengthCheck (none, []) first).2 chunk := by
      intro first chunk second hfirst
      obtain ⟨middle, hmiddle, -, hunread⟩ :=
        run_onMessage hmode hexact false packetHeader first
      rw [← hunread]
      exact hfits first chunk (second ++ later) middle (by rw [hsplit, hfirst]; simp) hmiddle
    have hfed := Framing.feedAll_of_allFit lengthCheck_sound hbounded hsteps
      (by simpa using hparse.2)
    rw [List.nil_append] at hfed
    refine ⟨receiver, hrun, ?_, ?_⟩
    · rw [hstate, handed_foldl_deliver, hfed]
      simpa [ServerState.handed] using hparse.1
    · rintro rfl
      rw [List.append_nil] at hsplit
      subst hsplit
      have hsent := Streamer.encodeAll_eq hmode hcodec (show Streamer.Placed payload packets
        ([] : Bytes).length from hplaced)
      rw [hchunks, hsent, List.nil_append, Streamer.flatMap_wire hmode hcodec,
        Framing.parse_stream (Streamer.frames_wellFormed hmode hcodec)] at hfed
      rw [hfed] at hrest
      obtain ⟨hpending, hinput⟩ := Prod.mk.inj hrest
      refine ⟨?_, ?_, hinput⟩
      · rw [hstate, handed_foldl_deliver, hfed, hsent]
        exact Streamer.outcome_frames hmode hcodec
      by_contra hgot
      simp [Reader.pending, hgot, Stop.pending] at hpending

/-- The length check is never wrong while fewer than `2 ^ 31` bytes are received in all. -/
theorem stepFits_of_short (hmode : streamer.existPacketHeader) (hexact : streamer.ExactDecode)
    (packetHeader : PacketHeader) (hshort : chunks.flatten.length < 2 ^ 31) :
    ∀ before chunk later receiver, chunks = before ++ chunk :: later →
      run (onMessage streamer false) (new packetHeader) before = some receiver →
      streamer.framing.StepFits lengthCheck (receiver.reader.pending, receiver.input) chunk := by
  intro before chunk later receiver hsplit hrun
  obtain ⟨final, hfinal, -, hrest⟩ := run_onMessage hmode hexact false packetHeader before
  obtain rfl : receiver = final := Option.some.inj (hrun.symm.trans hfinal)
  rw [hrest]
  refine Framing.stepFits_of_lt lengthCheck_exact ?_ hsplit
  simpa using hshort

theorem byteStreamer_codec (packet : Packet Bytes) (hsize : packet.body.length ≤ 0x4000000) :
    byteStreamer.Codec Packet.body packet where
  encode := fun _ => rfl
  decode := ⟨_, rfl, fun header _ _ hlength => by simp [hlength]⟩
  size := hsize

def threePackets : List (Packet Bytes) :=
  [⟨⟨1, 7, 0⟩, [10, 20, 30]⟩, ⟨⟨2, 8, 0⟩, []⟩, ⟨⟨3, 7, 0⟩, [5, 6]⟩]

/-- The bytes of three packets, cut in the first header, in the first body and in the
third header. -/
def threeCut : List Bytes :=
  let stream := (byteStreamer.encodeAll threePackets []).2
  [stream.take 7, (stream.drop 7).take 10, (stream.drop 17).take 20, stream.drop 37]

theorem delivers_arrived_threePackets :
    let received := run (onMessage byteStreamer false) (new ⟨0, 0, 0⟩)
    (∃ receiver, received (threeCut.take 2) = some receiver ∧
      receiver.state.handed = []) ∧
    (∃ receiver, received (threeCut.take 3) = some receiver ∧
      receiver.state.handed =
        [.regular ⟨⟨1, 7, 3⟩, [10, 20, 30]⟩, .regular ⟨⟨2, 8, 0⟩, []⟩]) ∧
    ∃ receiver, received threeCut = some receiver ∧
      receiver.state.handed = [.regular ⟨⟨1, 7, 3⟩, [10, 20, 30]⟩, .regular ⟨⟨2, 8, 0⟩, []⟩,
        .regular ⟨⟨3, 7, 2⟩, [5, 6]⟩] ∧
      receiver.reader.gotHeader = false ∧ receiver.input = [] := by
  have hsizes : ∀ packet ∈ threePackets, packet.body.length ≤ 0x4000000 := by decide
  have hcodec : ∀ packet ∈ threePackets, byteStreamer.Codec Packet.body packet :=
    fun packet hpacket => byteStreamer_codec packet (hsizes packet hpacket)
  have hplaced : Streamer.Placed Packet.body threePackets 0 := Streamer.placed_of_short (by decide)
  have hchunks : threeCut.flatten = (byteStreamer.encodeAll threePackets []).2 := by
    decide
  have hdelivers := (delivers_arrived_iff rfl byteStreamer_exactDecode hcodec hplaced hchunks
    ⟨0, 0, 0⟩).mpr (stepFits_of_short rfl byteStreamer_exactDecode _ (by decide))
  intro received
  refine ⟨?_, ?_, ?_⟩
  · obtain ⟨receiver, hrun, hhanded, -⟩ := hdelivers _ _ (List.take_append_drop 2 _).symm
    exact ⟨receiver, hrun, hhanded⟩
  · obtain ⟨receiver, hrun, hhanded, -⟩ := hdelivers _ _ (List.take_append_drop 3 _).symm
    exact ⟨receiver, hrun, hhanded⟩
  · obtain ⟨receiver, hrun, hhanded, hend⟩ := hdelivers _ [] (List.append_nil _).symm
    exact ⟨receiver, hrun, hhanded, (hend rfl).2⟩

/-- Thirty-two packets of 64 MiB in one chunk: the number of unread bytes
behind the first header is negative as an `int`, and nothing is delivered. -/
theorem not_delivered_of_large {packet : Packet Bytes} (hsize : packet.body.length = 0x4000000) :
    ¬ ∃ receiver,
      run (onMessage byteStreamer false) (new ⟨0, 0, 0⟩)
        [(byteStreamer.encodeAll (List.replicate 32 packet) []).2] = some receiver ∧
      receiver.state.handed =
        (byteStreamer.encodeAll (List.replicate 32 packet) []).1.map .regular := by
  rintro ⟨receiver, hrun, hhanded⟩
  have hcodec := byteStreamer_codec packet (Nat.le_of_eq hsize)
  have hall : ∀ other ∈ List.replicate 32 packet, byteStreamer.Codec Packet.body other := by
    intro other hother
    obtain rfl := (List.mem_replicate.mp hother).2
    exact hcodec
  have hplaced : Streamer.Placed Packet.body (List.replicate 32 packet) ([] : Bytes).length := by
    intro before other after hsplit
    have hlength := congrArg List.length hsplit
    have hbefore : before = List.replicate before.length packet := by
      rw [List.eq_replicate_iff]
      refine ⟨rfl, fun member hmember => ?_⟩
      apply List.eq_of_mem_replicate
      rw [hsplit]
      exact List.mem_append_left _ hmember
    have hbodies : (before.flatMap Packet.body).length = before.length * 0x4000000 := by
      rw [hbefore]
      simp [hsize]
    simp only [List.length_replicate, List.length_append, List.length_cons] at hlength
    rw [hbodies, List.length_nil]
    omega
  have hencoded := Streamer.encodeAll_eq rfl hall hplaced
  rw [List.nil_append] at hencoded
  rw [hencoded] at hrun hhanded
  obtain ⟨final, hfinal, hstate, -⟩ :=
    run_onMessage rfl byteStreamer_exactDecode false ⟨0, 0, 0⟩
      [(List.replicate 32 packet).flatMap byteStreamer.wire]
  obtain rfl : receiver = final := Option.some.inj (hrun.symm.trans hfinal)
  have hrest : ((List.replicate 31 packet).flatMap byteStreamer.wire).length =
      31 * (16 + 0x4000000) := by
    simp [hcodec.length_wire rfl, hsize]
  have hwait : ¬ lengthCheck
      (packet.body ++ (List.replicate 31 packet).flatMap byteStreamer.wire).length
      (byteStreamer.sent packet).header := by
    rw [List.length_append, hrest, hsize, hcodec.sent_eq rfl, hsize]
    change ¬ decide (Int32.ofNat 0x4000000 ≤ Int32.ofNat (0x4000000 + 31 * (16 + 0x4000000)))
    decide
  have htaken : (byteStreamer.framing.feedAll lengthCheck (none, [])
      [(List.replicate 32 packet).flatMap byteStreamer.wire]).1 = [] := by
    rw [Framing.feedAll, Framing.feed, List.nil_append, List.replicate_succ, List.flatMap_cons,
      hcodec.wire_eq rfl, Framing.frameBytes, List.append_assoc,
      Framing.scan_encodeHeader (hcodec.wellFormed rfl), Framing.scan_waiting hwait]
    rfl
  rw [hstate, handed_foldl_deliver, htaken, List.replicate_succ, List.map_cons] at hhanded
  simp [ServerState.handed] at hhanded

theorem large_packets_not_delivered : ¬ ∃ receiver,
    run (onMessage byteStreamer false) (new ⟨0, 0, 0⟩)
      [(byteStreamer.encodeAll
        (List.replicate 32 ⟨⟨1, 7, 0⟩, List.replicate 0x4000000 0⟩) []).2] = some receiver ∧
    receiver.state.handed =
      (byteStreamer.encodeAll
        (List.replicate 32 ⟨⟨1, 7, 0⟩, List.replicate 0x4000000 0⟩) []).1.map .regular :=
  not_delivered_of_large List.length_replicate

end ServerConnection

end Wnet
