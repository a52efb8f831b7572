import Wnet.Server.Connection

/-!
# Frames that cannot be decoded

A frame fails if the factory does not know its packet code, or if the packet
rejects its payload. The payload of an unknown packet is skipped. What a packet
leaves of a payload that it rejects is not: it is read as the next header. If
every rejected payload was consumed whole, a server hands over one bad packet
for each failing frame and treats the other frames as if it had received only
them.
-/

namespace Wnet

open Foundation

variable {Body : Type*}

def Delivery.isBad : Delivery Body → Bool
  | regular _ => false
  | bad => true

namespace Streamer

variable (streamer : Streamer Body)

/-- The frame cannot be decoded. -/
def fails (frame : PacketHeader × Bytes) : Bool := (streamer.decode frame.2 frame.1).1.isNone

/-- The packet's own `Decode` reads within its payload: it does not depend on
what follows and leaves an end of the payload, which is empty on success. -/
def DecodesWithin (frame : PacketHeader × Bytes) : Prop :=
  ∀ decodePacket, streamer.createPacket frame.1.pcode = some decodePacket →
    ∃ consumed ≤ frame.2.length,
      (∀ rest, decodePacket frame.1 (frame.2 ++ rest) =
        ((decodePacket frame.1 frame.2).1, frame.2.drop consumed ++ rest)) ∧
      ((decodePacket frame.1 frame.2).1 ≠ none → consumed = frame.2.length)

/-- A packet that rejects its payload has consumed all of it. -/
def RejectsWhole (frame : PacketHeader × Bytes) : Prop :=
  ∀ decodePacket, streamer.createPacket frame.1.pcode = some decodePacket →
    (decodePacket frame.1 frame.2).1 = none → (decodePacket frame.1 frame.2).2 = []

/-- A stream of valid frames that arrives in chunks, where each complete payload
passes the length check; so it is when fewer than `2 ^ 31` bytes are unread. -/
structure Arrives (frames : List (PacketHeader × Bytes)) (chunks : List Bytes) : Prop where
  valid : ∀ frame ∈ frames, frame.1.Valid ∧ frame.2.length = frame.1.bodyLength
  bytes : chunks.flatten = frames.flatMap (Framing.frameBytes streamer.encodeHeader)
  checks : ∀ before chunk later, chunks = before ++ chunk :: later →
    streamer.framing.StepFits lengthCheck
      (streamer.framing.feedAll lengthCheck (none, []) before).2 chunk

/-- The frames that are complete after some chunks. -/
def complete (frames : List (PacketHeader × Bytes)) (chunks : List Bytes) :
    List (PacketHeader × Bytes) :=
  streamer.framing.received frames chunks.flatten.length

/-- The frames without the failing ones. -/
def withoutFailing (frames : List (PacketHeader × Bytes)) : List (PacketHeader × Bytes) :=
  frames.filter fun frame => !streamer.fails frame

variable {streamer} {frames : List (PacketHeader × Bytes)} {chunks : List Bytes}

theorem isBad_outcome (frame : PacketHeader × Bytes) :
    (streamer.outcome frame).isBad = streamer.fails frame := by
  rw [outcome, fails]
  cases (streamer.decode frame.2 frame.1).1 <;> rfl

theorem rejectsWhole_of_not_fails {frame : PacketHeader × Bytes} (hgood : ¬ streamer.fails frame) :
    streamer.RejectsWhole frame := by
  intro decodePacket hcreate hnone
  simp [fails, decode, hcreate, hnone] at hgood

/-- A frame that is consumed whole leaves exactly what follows it. -/
theorem decode_frame {frame : PacketHeader × Bytes} (hvalid : frame.1.Valid)
    (hlength : frame.2.length = frame.1.bodyLength) (hwithin : streamer.DecodesWithin frame)
    (hwhole : streamer.RejectsWhole frame) (rest : Bytes) :
    streamer.decode (frame.2 ++ rest) frame.1 =
      ((streamer.decode frame.2 frame.1).1, rest) := by
  rw [decode, decode]
  cases hcreate : streamer.createPacket frame.1.pcode with
  | none =>
      simp only [Buffer.skip_eq_drop, sizeOfInt_dataLen hvalid, ← hlength, List.drop_left]
  | some decodePacket =>
      obtain ⟨consumed, hle, hdecode, hsuccess⟩ := hwithin decodePacket hcreate
      have hend : frame.2.drop consumed = [] := by
        apply List.drop_eq_nil_of_le
        by_cases hnone : (decodePacket frame.1 frame.2).1 = none
        · have hrest := hdecode []
          have hempty := hwhole decodePacket hcreate hnone
          rw [List.append_nil, List.append_nil] at hrest
          rw [hrest] at hempty
          exact List.drop_eq_nil_iff.mp hempty
        · exact Nat.le_of_eq (hsuccess hnone).symm
      simp only [hdecode rest, hend, List.nil_append]

namespace Arrives

variable (harrives : streamer.Arrives frames chunks)
include harrives

theorem wellFormed : ∀ frame ∈ frames,
    streamer.framing.WellFormed streamer.encodeHeader frame := by
  intro frame hframe
  obtain ⟨hvalid, hlength⟩ := harrives.valid frame hframe
  exact streamer.wellFormed hvalid hlength

/-- The reader takes the frames that are complete. -/
theorem feedAll_eq {before later : List Bytes} (hsplit : chunks = before ++ later) :
    (streamer.framing.feedAll lengthCheck (none, []) before).1 =
      streamer.complete frames before := by
  have htake : before.flatten =
      (frames.flatMap (Framing.frameBytes streamer.encodeHeader)).take
        before.flatten.length := by
    rw [← harrives.bytes, hsplit, List.flatten_append, List.take_left]
  obtain ⟨hframes, hstop⟩ := Framing.parse_take harrives.wellFormed before.flatten.length
  rw [← htake] at hframes hstop
  have hsteps : ∀ first chunk second, before = first ++ chunk :: second →
      streamer.framing.StepFits lengthCheck
        (streamer.framing.feedAll lengthCheck (none, []) first).2 chunk := by
    intro first chunk second hfirst
    apply harrives.checks first chunk (second ++ later)
    rw [hsplit, hfirst, List.append_assoc, List.cons_append]
  have hbounded : streamer.framing.Bounded none [] := streamer.framing.headerSize_pos
  have hfed := Framing.feedAll_of_allFit lengthCheck_sound hbounded hsteps hstop
  rw [List.nil_append] at hfed
  rw [hfed, complete, hframes]

/-- At the end all frames are complete. -/
theorem complete_eq : streamer.complete frames chunks = frames := by
  obtain ⟨hframes, -⟩ := Framing.parse_take harrives.wellFormed chunks.flatten.length
  rw [← harrives.bytes, List.take_length, harrives.bytes,
    Framing.parse_stream harrives.wellFormed] at hframes
  rw [complete, harrives.bytes]
  exact hframes.symm

end Arrives

theorem complete_isPrefix (streamer : Streamer Body) (frames : List (PacketHeader × Bytes))
    (chunks : List Bytes) :
    streamer.complete frames chunks <+: frames := by
  rw [complete]
  exact Framing.received_isPrefix frames _

end Streamer

namespace ServerConnection

variable {streamer : Streamer Body} {batchPushPacket : Bool}
  {frames : List (PacketHeader × Bytes)} {chunks : List Bytes}

theorem takesFrames (hframes : ∀ frame ∈ frames, frame.1.Valid ∧
      frame.2.length = frame.1.bodyLength)
    (hwithin : ∀ frame ∈ frames, streamer.DecodesWithin frame)
    (hwhole : ∀ frame ∈ frames, streamer.RejectsWhole frame) (state : ServerState Body) :
    TakesFrames (handlePacket streamer batchPushPacket) (handleFrame streamer batchPushPacket)
      state frames := by
  induction frames generalizing state with
  | nil => trivial
  | cons frame frames ih =>
      obtain ⟨hvalid, hlength⟩ := hframes frame List.mem_cons_self
      refine ⟨fun rest => ?_, ?_⟩
      · have hdecode := Streamer.decode_frame hvalid hlength
          (hwithin frame List.mem_cons_self) (hwhole frame List.mem_cons_self) rest
        rw [handlePacket, hdecode, handleFrame, Streamer.outcome]
        cases (streamer.decode frame.2 frame.1).1 with
        | none => rfl
        | some body =>
            dsimp only [deliver, Delivery.ofDecoded]
            split
            · split <;> rfl
            · rfl
      · exact ih (fun other hother => hframes other (List.mem_cons_of_mem _ hother))
          (fun other hother => hwithin other (List.mem_cons_of_mem _ hother))
          (fun other hother => hwhole other (List.mem_cons_of_mem _ hother)) _

/-- The server treats each complete frame by itself. -/
theorem run_arrives (hmode : streamer.existPacketHeader)
    (harrives : streamer.Arrives frames chunks)
    (hwithin : ∀ frame ∈ frames, streamer.DecodesWithin frame)
    (hwhole : ∀ frame ∈ frames, streamer.RejectsWhole frame) (batchPushPacket : Bool)
    (packetHeader : PacketHeader) {before later : List Bytes}
    (hsplit : chunks = before ++ later) :
    ∃ receiver, run (onMessage streamer batchPushPacket) (new packetHeader) before =
        some receiver ∧
      receiver.state = ((streamer.complete frames before).map streamer.outcome).foldl
        (deliver batchPushPacket) ⟨[], []⟩ := by
  have hsub : ∀ frame ∈ streamer.complete frames before, frame ∈ frames :=
    fun frame hframe => (streamer.complete_isPrefix frames before).subset hframe
  have htakes := @takesFrames Body streamer batchPushPacket (streamer.complete frames before)
    (fun frame hframe => harrives.valid frame (hsub frame hframe))
    (fun frame hframe => hwithin frame (hsub frame hframe))
    (fun frame hframe => hwhole frame (hsub frame hframe)) ⟨[], []⟩
  rw [← harrives.feedAll_eq hsplit] at htakes
  obtain ⟨receiver, hrun, hstate, -⟩ :=
    run_onMessage_eq_feedAll hmode (settled_new packetHeader) before htakes
  refine ⟨receiver, hrun, ?_⟩
  rw [hstate, List.foldl_map, ← harrives.feedAll_eq hsplit]
  rfl

end ServerConnection

/-- The adapter is called with the bad packet. -/
def AdapterCall.isBad : AdapterCall Body → Bool
  | handlePacket packet => packet.isBad
  | handleBatchPacket _ => false

namespace ServerConnection

/-- The same packets are queued and the same calls made, apart from bad packets. -/
def AgreeApartFromBad (state other : ServerState Body) : Prop :=
  state.inputQueue = other.inputQueue ∧
    state.calls.filter (fun call => !call.isBad) = other.calls

theorem AgreeApartFromBad.deliver_bad {state other : ServerState Body}
    (hagree : AgreeApartFromBad state other) (batchPushPacket : Bool) :
    AgreeApartFromBad (deliver batchPushPacket state .bad) other := by
  refine ⟨hagree.1, ?_⟩
  rw [← hagree.2]
  simp [deliver, AdapterCall.isBad, Delivery.isBad]

theorem AgreeApartFromBad.deliver_regular {state other : ServerState Body}
    (hagree : AgreeApartFromBad state other) (batchPushPacket : Bool) (packet : Packet Body) :
    AgreeApartFromBad (deliver batchPushPacket state (.regular packet))
      (deliver batchPushPacket other (.regular packet)) := by
  obtain ⟨hqueue, hcalls⟩ := hagree
  simp only [deliver, hqueue]
  split
  · split
    · refine ⟨rfl, ?_⟩
      rw [List.filter_append, hcalls]
      rfl
    · exact ⟨rfl, hcalls⟩
  · refine ⟨rfl, ?_⟩
    rw [List.filter_append, hcalls]
    rfl

/-- Bad packets make no difference to the others. -/
theorem AgreeApartFromBad.foldl_deliver (batchPushPacket : Bool)
    (deliveries : List (Delivery Body)) {state other : ServerState Body}
    (hagree : AgreeApartFromBad state other) :
    AgreeApartFromBad (deliveries.foldl (deliver batchPushPacket) state)
      ((deliveries.filter fun delivery => !delivery.isBad).foldl (deliver batchPushPacket)
        other) := by
  induction deliveries generalizing state other with
  | nil => exact hagree
  | cons delivery deliveries ih =>
      cases delivery with
      | bad => exact ih (hagree.deliver_bad batchPushPacket)
      | regular packet => exact ih (hagree.deliver_regular batchPushPacket packet)

/-- Bad packets are handed over one by one. -/
theorem countP_isBad_foldl_deliver (batchPushPacket : Bool)
    (deliveries : List (Delivery Body)) (state : ServerState Body) :
    (deliveries.foldl (deliver batchPushPacket) state).calls.countP AdapterCall.isBad =
      state.calls.countP AdapterCall.isBad + deliveries.countP Delivery.isBad := by
  induction deliveries generalizing state with
  | nil => rfl
  | cons delivery deliveries ih =>
      have hstep : (deliver batchPushPacket state delivery).calls.countP AdapterCall.isBad =
          state.calls.countP AdapterCall.isBad + [delivery].countP Delivery.isBad := by
        cases delivery with
        | bad => simp [deliver, AdapterCall.isBad, Delivery.isBad]
        | regular packet =>
            simp only [deliver]
            split
            · split <;> simp [AdapterCall.isBad, Delivery.isBad]
            · simp [AdapterCall.isBad, Delivery.isBad]
      rw [List.foldl_cons, ih, hstep, Nat.add_assoc, ← List.countP_append,
        List.singleton_append]

variable {streamer : Streamer Body} {frames : List (PacketHeader × Bytes)} {chunks : List Bytes}

theorem filter_map_outcome (frames : List (PacketHeader × Bytes)) :
    (frames.map streamer.outcome).filter (fun delivery => !delivery.isBad) =
      (streamer.withoutFailing frames).map streamer.outcome := by
  rw [List.filter_map, Streamer.withoutFailing]
  simp only [Function.comp_def, Streamer.isBad_outcome]

/-- After every chunk the server has handed over one bad packet for each failing
frame; apart from that it did what it would have done had it received only the
other frames. -/
def FailingCostThemselves (streamer : Streamer Body) (batchPushPacket : Bool)
    (packetHeader : PacketHeader) (frames : List (PacketHeader × Bytes))
    (chunks : List Bytes) : Prop :=
  ∀ before later, chunks = before ++ later → ∃ receiver,
    run (onMessage streamer batchPushPacket) (new packetHeader) before = some receiver ∧
    receiver.state.calls.countP AdapterCall.isBad =
      (streamer.complete frames before).countP streamer.fails ∧
    ∀ others, streamer.Arrives (streamer.withoutFailing (streamer.complete frames before))
      others → ∃ other,
        run (onMessage streamer batchPushPacket) (new packetHeader) others = some other ∧
        AgreeApartFromBad receiver.state other.state

theorem failingCostThemselves (hmode : streamer.existPacketHeader)
    (harrives : streamer.Arrives frames chunks)
    (hwithin : ∀ frame ∈ frames, streamer.DecodesWithin frame)
    (hwhole : ∀ frame ∈ frames, streamer.RejectsWhole frame) (batchPushPacket : Bool)
    (packetHeader : PacketHeader) :
    FailingCostThemselves streamer batchPushPacket packetHeader frames chunks := by
  intro before later hsplit
  obtain ⟨receiver, hrun, hstate⟩ :=
    run_arrives hmode harrives hwithin hwhole batchPushPacket packetHeader hsplit
  refine ⟨receiver, hrun, ?_, fun others harrives' => ?_⟩
  · rw [hstate, countP_isBad_foldl_deliver, List.countP_map]
    simp only [Function.comp_def, Streamer.isBad_outcome, List.countP_nil, Nat.zero_add]
  · have hsub : ∀ frame ∈ streamer.withoutFailing (streamer.complete frames before),
        frame ∈ frames := fun frame hframe =>
      (streamer.complete_isPrefix frames before).subset (List.mem_of_mem_filter hframe)
    obtain ⟨other, hother, hstate'⟩ := run_arrives hmode harrives'
      (fun frame hframe => hwithin frame (hsub frame hframe))
      (fun frame hframe => hwhole frame (hsub frame hframe)) batchPushPacket packetHeader
      (List.append_nil others).symm
    refine ⟨other, hother, ?_⟩
    rw [hstate, hstate', harrives'.complete_eq, ← filter_map_outcome]
    exact AgreeApartFromBad.foldl_deliver batchPushPacket _ ⟨rfl, rfl⟩

end ServerConnection

end Wnet
