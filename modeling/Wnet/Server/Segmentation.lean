import Wnet.Server.Connection

/-!
# Independence of segmentation

A malformed header ends the call of `OnMessage` that reads it, and only that
call: the bytes behind it stay in the buffer and are parsed from there when the
next chunk arrives. How many of them there are depends on the segmentation. The
result is independent of it exactly on clean streams: less than a header stands
behind a malformed one, and every complete payload passes the length check when
the whole stream is in the buffer.
-/

namespace Wnet

open Foundation

namespace ServerConnection

variable {Body : Type*} {streamer : Streamer Body} {batchPushPacket : Bool}

theorem gotHeader_eq_isSome (reader : Reader) : reader.gotHeader = reader.pending.isSome := by
  obtain ⟨gotHeader, header⟩ := reader
  cases gotHeader <;> rfl

/-- Any two ways of cutting a byte string into nonempty chunks end with the same
packets handed to the adapter, the same `gotHeader_` and the same unread bytes,
if and only if the byte string is clean. -/
theorem segmentation_independent_iff (hmode : streamer.existPacketHeader)
    (hexact : streamer.ExactDecode) (batchPushPacket : Bool) (packetHeader : PacketHeader)
    (bytes : Bytes) :
    (∀ chunks chunks' : List Bytes, (∀ chunk ∈ chunks, chunk ≠ []) →
      (∀ chunk ∈ chunks', chunk ≠ []) →
      chunks.flatten = bytes → chunks'.flatten = bytes → ∃ final final',
        run (onMessage streamer batchPushPacket) (new packetHeader) chunks = some final ∧
        run (onMessage streamer batchPushPacket) (new packetHeader) chunks' = some final' ∧
        final.state.handed = final'.state.handed ∧
        final.reader.gotHeader = final'.reader.gotHeader ∧ final.input = final'.input) ↔
    streamer.framing.Clean lengthCheck none bytes := by
  constructor
  · intro hsame
    by_cases hempty : bytes = []
    · subst hempty
      exact Framing.clean_of_short streamer.framing.headerSize_pos
    -- The two extreme cuts, one chunk and single bytes, already tell a clean string apart.
    obtain ⟨final, final', hrun, hrun', -, hgot, hinput⟩ :=
      hsame [bytes] (bytes.map ([·])) (by simpa using hempty) (by simp) (by simp)
        (by rw [← List.flatMap_def, List.flatMap_singleton'])
    obtain ⟨whole, hwhole, -, hrest⟩ :=
      run_onMessage hmode hexact batchPushPacket packetHeader [bytes]
    obtain rfl : final = whole := Option.some.inj (hrun.symm.trans hwhole)
    obtain ⟨single, hsingle, -, hrest'⟩ :=
      run_onMessage hmode hexact batchPushPacket packetHeader (bytes.map ([·]))
    obtain rfl : final' = single := Option.some.inj (hrun'.symm.trans hsingle)
    rw [gotHeader_eq_isSome, gotHeader_eq_isSome] at hgot
    refine Framing.clean_of_same_rest lengthCheck_exact (show 16 < 2 ^ 31 by decide)
      PacketHeader.bodyLength_lt lengthCheck_sound ?_ ?_
    · rw [← hrest, ← hrest']
      exact hgot
    · rw [← hrest, ← hrest']
      exact hinput
  · rintro hclean chunks chunks' - - hflat hflat'
    obtain ⟨final, hrun, hstate, hrest⟩ :=
      run_onMessage hmode hexact batchPushPacket packetHeader chunks
    obtain ⟨final', hrun', hstate', hrest'⟩ :=
      run_onMessage hmode hexact batchPushPacket packetHeader chunks'
    have hfed : streamer.framing.feedAll lengthCheck (none, []) chunks =
        streamer.framing.feedAll lengthCheck (none, []) chunks' := by
      rw [Framing.feedAll_new_of_clean lengthCheck_sound (hflat ▸ hclean),
        Framing.feedAll_new_of_clean lengthCheck_sound (hflat' ▸ hclean), hflat, hflat']
    refine ⟨final, final', hrun, hrun', by rw [hstate, hstate', hfed], ?_, ?_⟩
    · rw [gotHeader_eq_isSome, gotHeader_eq_isSome]
      rw [hfed, ← hrest'] at hrest
      rw [(Prod.mk.inj hrest).1]
    · rw [hfed, ← hrest'] at hrest
      exact (Prod.mk.inj hrest).2

/-- A packet, the next header and the first half of its payload. -/
def cutInPayload : Bytes :=
  Framing.frameBytes byteStreamer.encodeHeader (⟨1, 7, 0⟩, []) ++
    (byteStreamer.encodeHeader ⟨2, 7, 2⟩ ++ [1])

/-- The other half and a third packet. -/
def restOfPayload : Bytes :=
  [2] ++ Framing.frameBytes byteStreamer.encodeHeader (⟨3, 8, 1⟩, [5])

/-- A malformed header and one byte behind it. -/
def malformedHeader : Bytes := List.replicate 16 0 ++ [9]

def cutFrames : List Bytes := [cutInPayload, restOfPayload, malformedHeader]

theorem byteStreamer_wellFormed {header : PacketHeader} {payload : Bytes}
    (hvalid : header.Valid) (hlength : payload.length = header.bodyLength) :
    byteStreamer.framing.WellFormed byteStreamer.encodeHeader (header, payload) :=
  byteStreamer.wellFormed hvalid hlength

theorem parse_cutInPayload : byteStreamer.framing.parse none cutInPayload =
    ([(⟨1, 7, 0⟩, [])], .waiting ⟨2, 7, 2⟩ [1]) := by
  have hsecond : byteStreamer.framing.WellFormed byteStreamer.encodeHeader
      (⟨2, 7, 2⟩, [1, 2]) := byteStreamer_wellFormed (by decide) (by decide)
  rw [cutInPayload, Framing.parse_frame (byteStreamer_wellFormed (by decide) (by decide)),
    Framing.parse, Framing.scan_encodeHeader hsecond, Framing.scan_waiting (by decide)]

theorem parse_restOfPayload :
    byteStreamer.framing.parse (some ⟨2, 7, 2⟩) ([1] ++ restOfPayload) =
      ([(⟨2, 7, 2⟩, [1, 2]), (⟨3, 8, 1⟩, [5])], .short []) := by
  have hthird : byteStreamer.framing.parse none
      (Framing.frameBytes byteStreamer.encodeHeader (⟨3, 8, 1⟩, [5]) ++ []) =
        ([(⟨3, 8, 1⟩, [5])], .short []) := by
    rw [Framing.parse_frame (byteStreamer_wellFormed (by decide) (by decide)), Framing.parse,
      Framing.scan_short (by decide)]
  rw [Framing.parse, Framing.scan_fits (by decide)]
  exact congrArg (fun later => ((⟨2, 7, 2⟩, [1, 2]) :: later.1, later.2)) hthird

theorem parse_malformedHeader :
    byteStreamer.framing.parse none malformedHeader = ([], .broken [9]) :=
  Framing.scan_broken (by decide) (by decide)

theorem cutFrames_clean : byteStreamer.framing.Clean lengthCheck none cutFrames.flatten := by
  have hsplit : cutFrames.flatten = cutInPayload ++ (restOfPayload ++ malformedHeader) := by
    simp [cutFrames]
  refine ⟨Framing.allFit_of_lt lengthCheck_exact (by decide), ?_⟩
  intro rest hstop
  rw [hsplit, Framing.parse_append_parse, parse_cutInPayload, Framing.resume, ← List.append_assoc,
    Framing.parse_append_parse, parse_restOfPayload, Framing.resume, List.nil_append,
    parse_malformedHeader] at hstop
  obtain rfl : [9] = rest := by simpa using hstop
  decide

/-- The packets arrive in three chunks as they do in one. -/
theorem segmentation_independent_cutFrames : ∃ final final',
    run (onMessage byteStreamer false) (new ⟨0, 0, 0⟩) cutFrames = some final ∧
    run (onMessage byteStreamer false) (new ⟨0, 0, 0⟩) [cutFrames.flatten] = some final' ∧
    final.state.handed = final'.state.handed ∧
    final.state.handed = [.regular ⟨⟨1, 7, 0⟩, []⟩, .regular ⟨⟨2, 7, 2⟩, [1, 2]⟩,
      .regular ⟨⟨3, 8, 1⟩, [5]⟩] ∧
    final.reader.gotHeader = final'.reader.gotHeader ∧ final.input = final'.input ∧
    final.input = [9] := by
  obtain ⟨final, final', hrun, hrun', hhanded, hgot, hinput⟩ :=
    (segmentation_independent_iff rfl byteStreamer_exactDecode false ⟨0, 0, 0⟩ _).mpr
      cutFrames_clean cutFrames [cutFrames.flatten] (by decide) (by decide) rfl (by simp)
  obtain ⟨whole, hwhole, hfinal⟩ : ∃ whole,
      run (onMessage byteStreamer false) (new ⟨0, 0, 0⟩) cutFrames = some whole ∧
      whole.state.handed = [.regular ⟨⟨1, 7, 0⟩, []⟩, .regular ⟨⟨2, 7, 2⟩, [1, 2]⟩,
        .regular ⟨⟨3, 8, 1⟩, [5]⟩] ∧ whole.input = [9] := ⟨_, rfl, by decide, by decide⟩
  obtain rfl : final = whole := Option.some.inj (hrun.symm.trans hwhole)
  exact ⟨final, final', hrun, hrun', hhanded, hfinal.1, hgot, hinput, hfinal.2⟩

/-- A malformed header and a packet: in one chunk the packet stays unread, in
two chunks it is delivered. -/
theorem segmentation_dependent : ∃ final final',
    run (onMessage byteStreamer false) (new ⟨0, 0, 0⟩)
      [List.replicate 16 0 ++ byteStreamer.encodeHeader ⟨1, 7, 0⟩] = some final ∧
    run (onMessage byteStreamer false) (new ⟨0, 0, 0⟩)
      [List.replicate 16 0, byteStreamer.encodeHeader ⟨1, 7, 0⟩] = some final' ∧
    final.state.handed ≠ final'.state.handed ∧ final.input ≠ final'.input := by
  refine ⟨_, _, rfl, rfl, ?_⟩
  decide

end ServerConnection

end Wnet
