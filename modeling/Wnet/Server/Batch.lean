import Wnet.Server.RoundTrip
import Mathlib.Data.List.Induction

/-!
# Batch delivery

In batch mode decoded packets wait in `inputQueue_` until there are 15 of them.
Nothing flushes a shorter queue when `OnMessage` returns, and a packet that
cannot be decoded is handed over ahead of the queued ones. Batch delivery
therefore equals single delivery exactly at multiples of 15.
-/

namespace Wnet

open Foundation

variable {Body : Type*}

def Delivery.isRegular : Delivery Body → Bool
  | regular _ => true
  | bad => false

/-- Every bad packet comes after a multiple of 15 good ones. -/
def NoneOvertakes (deliveries : List (Delivery Body)) : Prop :=
  ∀ first rest, deliveries = first ++ .bad :: rest → first.countP Delivery.isRegular % 15 = 0

/-- The queue is empty after the last packet, and at every bad packet. -/
def Aligned (deliveries : List (Delivery Body)) : Prop :=
  NoneOvertakes deliveries ∧ deliveries.countP Delivery.isRegular % 15 = 0

namespace ServerConnection

/-- The state of a new connection in batch mode after some packets. -/
def batched (deliveries : List (Delivery Body)) : ServerState Body :=
  deliveries.foldl (deliver true) ⟨[], []⟩

theorem batched_concat (deliveries : List (Delivery Body)) (delivery : Delivery Body) :
    batched (deliveries ++ [delivery]) = deliver true (batched deliveries) delivery := by
  rw [batched, List.foldl_append]
  rfl

theorem length_inputQueue_batched (deliveries : List (Delivery Body)) :
    (batched deliveries).inputQueue.length = deliveries.countP Delivery.isRegular % 15 := by
  induction deliveries using List.reverseRecOn with
  | nil => rfl
  | append_singleton deliveries delivery ih =>
      rw [batched_concat, List.countP_append]
      cases delivery with
      | bad => simpa [deliver, Delivery.isRegular] using ih
      | regular packet =>
          have hcount : [Delivery.regular packet].countP Delivery.isRegular = 1 := rfl
          rw [hcount, deliver, if_pos rfl]
          split
          next hfull =>
            simp only [List.length_append, List.length_singleton] at hfull
            simp only [List.length_nil]
            omega
          next hroom =>
            simp only [List.length_append, List.length_singleton] at hroom ⊢
            omega

theorem batched_concat_bad (deliveries : List (Delivery Body)) :
    (batched (deliveries ++ [.bad])).handed = (batched deliveries).handed ++ [.bad] ∧
      (batched (deliveries ++ [.bad])).inputQueue = (batched deliveries).inputQueue := by
  rw [batched_concat]
  simp [deliver, ServerState.handed, AdapterCall.packets]

/-- A good packet goes to the end of what was handed over and what is queued. -/
theorem batched_concat_regular (deliveries : List (Delivery Body)) (packet : Packet Body) :
    (∃ more, (batched (deliveries ++ [.regular packet])).handed =
      (batched deliveries).handed ++ more) ∧
    (batched (deliveries ++ [.regular packet])).handed ++
        (batched (deliveries ++ [.regular packet])).inputQueue.map .regular =
      (batched deliveries).handed ++ (batched deliveries).inputQueue.map .regular ++
        [.regular packet] := by
  rw [batched_concat, deliver, if_pos rfl]
  split
  · refine ⟨⟨((batched deliveries).inputQueue ++ [packet]).map .regular, ?_⟩, ?_⟩
    · simp [ServerState.handed, AdapterCall.packets]
    · simp [ServerState.handed, AdapterCall.packets]
  · refine ⟨⟨[], ?_⟩, ?_⟩
    · simp [ServerState.handed]
    · simp [ServerState.handed]

theorem noneOvertakes_concat {deliveries : List (Delivery Body)} {delivery : Delivery Body} :
    NoneOvertakes (deliveries ++ [delivery]) ↔ NoneOvertakes deliveries ∧
      (delivery = .bad → deliveries.countP Delivery.isRegular % 15 = 0) := by
  constructor
  · intro hnone
    refine ⟨fun first rest hsplit => ?_, ?_⟩
    · exact hnone first (rest ++ [delivery]) (by rw [hsplit]; simp)
    · rintro rfl
      exact hnone deliveries [] rfl
  · rintro ⟨hnone, hlast⟩ first rest hsplit
    rcases List.eq_nil_or_concat rest with rfl | ⟨rest, last, rfl⟩
    · obtain ⟨rfl, hbad⟩ := List.append_inj' hsplit rfl
      exact hlast (by simpa using hbad)
    · rw [List.concat_eq_append, ← List.cons_append, ← List.append_assoc] at hsplit
      exact hnone first rest (List.append_inj' hsplit rfl).1

/-- Two sequences that differ at a place where one has a bad packet and the
other a good one. -/
def Diverge (handed deliveries : List (Delivery Body)) : Prop :=
  ∃ common packet rest rest', handed = common ++ .bad :: rest ∧
    deliveries = common ++ .regular packet :: rest'

theorem Diverge.append {handed deliveries : List (Delivery Body)}
    (hdiverge : Diverge handed deliveries) (more more' : List (Delivery Body)) :
    Diverge (handed ++ more) (deliveries ++ more') := by
  obtain ⟨common, packet, rest, rest', rfl, rfl⟩ := hdiverge
  exact ⟨common, packet, rest ++ more, rest' ++ more', by simp, by simp⟩

theorem Diverge.ne {handed deliveries : List (Delivery Body)}
    (hdiverge : Diverge handed deliveries) : handed ≠ deliveries := by
  obtain ⟨common, packet, rest, rest', rfl, rfl⟩ := hdiverge
  simp

/-- Either the queue holds the end of the sequence, or a bad packet was handed
over ahead of a queued one. -/
theorem batched_cases (deliveries : List (Delivery Body)) :
    (NoneOvertakes deliveries ∧ (batched deliveries).handed ++
        (batched deliveries).inputQueue.map .regular = deliveries) ∨
      (¬ NoneOvertakes deliveries ∧ Diverge (batched deliveries).handed deliveries) := by
  -- From the end: once a packet was overtaken, nothing that follows can mend the order.
  induction deliveries using List.reverseRecOn with
  | nil =>
      refine Or.inl ⟨?_, rfl⟩
      intro first rest hsplit
      simp at hsplit
  | append_singleton deliveries delivery ih =>
      have hlength := length_inputQueue_batched deliveries
      rw [noneOvertakes_concat]
      rcases ih with ⟨hnone, hqueue⟩ | ⟨hovertakes, hdiverge⟩
      · cases delivery with
        | bad =>
            obtain ⟨hhanded, hsame⟩ := batched_concat_bad deliveries
            rw [hhanded, hsame]
            cases hinput : (batched deliveries).inputQueue with
            | nil =>
                rw [hinput] at hlength hqueue
                refine Or.inl ⟨⟨hnone, fun _ => hlength.symm⟩, ?_⟩
                simpa using hqueue
            | cons packet more =>
                rw [hinput] at hlength hqueue
                refine Or.inr ⟨fun h => ?_, ?_⟩
                · rw [h.2 rfl] at hlength
                  cases hlength
                · exact ⟨(batched deliveries).handed, packet, [],
                    more.map .regular ++ [.bad], rfl,
                    by simpa using congrArg (· ++ [Delivery.bad]) hqueue.symm⟩
        | regular packet =>
            refine Or.inl ⟨⟨hnone, by simp⟩, ?_⟩
            rw [(batched_concat_regular deliveries packet).2, hqueue]
      · refine Or.inr ⟨fun h => hovertakes h.1, ?_⟩
        cases delivery with
        | bad =>
            rw [(batched_concat_bad deliveries).1]
            exact hdiverge.append _ _
        | regular packet =>
            obtain ⟨more, hmore⟩ := (batched_concat_regular deliveries packet).1
            rw [hmore]
            exact hdiverge.append _ _

theorem handed_batched_eq_iff (deliveries : List (Delivery Body)) :
    (batched deliveries).handed = deliveries ↔ Aligned deliveries := by
  have hlength := length_inputQueue_batched deliveries
  rw [Aligned]
  rcases batched_cases deliveries with ⟨hnone, hqueue⟩ | ⟨hovertakes, hdiverge⟩
  · rw [← hlength, List.length_eq_zero_iff]
    constructor
    · intro hhanded
      have hcount := congrArg List.length hqueue
      rw [hhanded, List.length_append, List.length_map] at hcount
      exact ⟨hnone, List.length_eq_zero_iff.mp (by omega)⟩
    · rintro ⟨-, hempty⟩
      simpa [hempty] using hqueue
  · exact ⟨fun hhanded => absurd hhanded hdiverge.ne, fun h => absurd h.1 hovertakes⟩

variable {streamer : Streamer Body}

/-- After every call of `OnMessage` the adapter in batch mode has been handed
the packets that it would have been handed one by one, if and only if by then
the number of good packets is a multiple of 15 and so is the number of good
packets before each bad one. -/
theorem batch_delivers_same_iff (hmode : streamer.existPacketHeader)
    (hexact : streamer.ExactDecode) (packetHeader : PacketHeader) (chunks : List Bytes) :
    (∀ before later, chunks = before ++ later → ∃ batch single,
      run (onMessage streamer true) (new packetHeader) before = some batch ∧
      run (onMessage streamer false) (new packetHeader) before = some single ∧
      batch.state.handed = single.state.handed) ↔
    ∀ before later, chunks = before ++ later →
      Aligned ((streamer.framing.feedAll lengthCheck (none, []) before).1.map
        streamer.outcome) := by
  have hequal : ∀ before, (∃ batch single,
      run (onMessage streamer true) (new packetHeader) before = some batch ∧
      run (onMessage streamer false) (new packetHeader) before = some single ∧
      batch.state.handed = single.state.handed) ↔
      Aligned ((streamer.framing.feedAll lengthCheck (none, []) before).1.map
        streamer.outcome) := by
    intro before
    obtain ⟨batch, hbatch, hstate, -⟩ := run_onMessage hmode hexact true packetHeader before
    obtain ⟨single, hsingle, hstate', -⟩ := run_onMessage hmode hexact false packetHeader before
    rw [← handed_batched_eq_iff, batched, ← hstate]
    have hsame := congrArg ServerState.handed hstate'
    rw [handed_foldl_deliver] at hsame
    constructor
    · rintro ⟨batch', single', hbatch', hsingle', hhanded⟩
      obtain rfl : batch = batch' := Option.some.inj (hbatch.symm.trans hbatch')
      obtain rfl : single = single' := Option.some.inj (hsingle.symm.trans hsingle')
      rw [hhanded, hsame]
      rfl
    · intro hhanded
      refine ⟨batch, single, hbatch, hsingle, ?_⟩
      rw [hhanded, hsame]
      rfl
  exact ⟨fun h before later hsplit => (hequal before).mp (h before later hsplit),
    fun h before later hsplit => (hequal before).mpr (h before later hsplit)⟩

/-- An application that knows one kind of packet. -/
def sevenStreamer : Streamer Bytes :=
  { byteStreamer with
    createPacket := fun pcode => if pcode = 7 then byteStreamer.createPacket pcode else none }

theorem sevenStreamer_exactDecode : sevenStreamer.ExactDecode := by
  intro header decodePacket payload rest hcreate hvalid hlength
  simp only [sevenStreamer] at hcreate
  split at hcreate
  · exact byteStreamer_exactDecode header decodePacket payload rest hcreate hvalid hlength
  · cases hcreate

/-- Fifteen packets with a payload of one byte, and one of a kind that is not known. -/
def fifteenAndOne : List (PacketHeader × Bytes) :=
  (List.range 15).map (fun number => (⟨number.toUInt32, 7, 1⟩, [number.toUInt8])) ++
    [(⟨15, 8, 2⟩, [1, 2])]

/-- Cut in the first header, and in the payload of the last packet. -/
def fifteenCut : List Bytes :=
  let stream := fifteenAndOne.flatMap (Framing.frameBytes sevenStreamer.encodeHeader)
  [stream.take 5, (stream.drop 5).take 267, stream.drop 272]

theorem fifteenAndOne_wellFormed : ∀ frame ∈ fifteenAndOne,
    sevenStreamer.framing.WellFormed sevenStreamer.encodeHeader frame := by
  have hframes : ∀ frame ∈ fifteenAndOne, frame.1.Valid ∧ frame.2.length = frame.1.bodyLength := by
    decide +kernel
  rintro ⟨header, payload⟩ hframe
  obtain ⟨hvalid, hlength⟩ := hframes _ hframe
  exact sevenStreamer.wellFormed hvalid hlength

theorem fifteenCut_aligned (before later : List Bytes) (hsplit : fifteenCut = before ++ later) :
    Aligned ((sevenStreamer.framing.feedAll lengthCheck (none, []) before).1.map
      sevenStreamer.outcome) := by
  have hflatten : fifteenCut.flatten =
      fifteenAndOne.flatMap (Framing.frameBytes sevenStreamer.encodeHeader) := by
    decide +kernel
  have hprefix : before.flatten <+: fifteenCut.flatten :=
    ⟨later.flatten, by rw [hsplit, List.flatten_append]⟩
  have hshort : fifteenCut.flatten.length < 2 ^ 31 := by decide +kernel
  rw [Framing.feedAll_received lengthCheck_sound lengthCheck_exact fifteenAndOne_wellFormed
    (hflatten ▸ hprefix) (Nat.lt_of_le_of_lt hprefix.length_le hshort),
    ← handed_batched_eq_iff]
  have hprefixes : ∀ count ≤ 3, (batched ((sevenStreamer.framing.received fifteenAndOne
      (fifteenCut.take count).flatten.length).map sevenStreamer.outcome)).handed =
      (sevenStreamer.framing.received fifteenAndOne
        (fifteenCut.take count).flatten.length).map sevenStreamer.outcome := by
    decide +kernel
  have hcount : before = fifteenCut.take before.length := by rw [hsplit, List.take_left]
  rw [hcount]
  refine hprefixes _ ?_
  have hlength := congrArg List.length hsplit
  rw [List.length_append] at hlength
  have hthree : fifteenCut.length = 3 := rfl
  omega

/-- The batch of fifteen packets is handed over before the packet that is not known. -/
theorem batch_delivers_same_fifteenCut :
    ∃ batch single, run (onMessage sevenStreamer true) (new ⟨0, 0, 0⟩) fifteenCut = some batch ∧
      run (onMessage sevenStreamer false) (new ⟨0, 0, 0⟩) fifteenCut = some single ∧
      batch.state.handed = single.state.handed ∧ batch.state.handed.length = 16 := by
  obtain ⟨batch, single, hbatch, hsingle, hhanded⟩ :=
    (batch_delivers_same_iff rfl sevenStreamer_exactDecode ⟨0, 0, 0⟩ fifteenCut).mpr
      fifteenCut_aligned fifteenCut [] (List.append_nil _).symm
  have hsixteen : (run (onMessage sevenStreamer false) (new ⟨0, 0, 0⟩) fifteenCut).map
      (fun receiver => receiver.state.handed.length) = some 16 := by
    decide +kernel
  rw [hsingle] at hsixteen
  exact ⟨batch, single, hbatch, hsingle, hhanded, by rw [hhanded]; simpa using hsixteen⟩

/-- One packet is not handed over in batch mode. -/
theorem batch_holds_back_packet : ∃ batch single,
    run (onMessage byteStreamer true) (new ⟨0, 0, 0⟩) [byteStreamer.wire ⟨⟨1, 7, 0⟩, []⟩] =
      some batch ∧
    run (onMessage byteStreamer false) (new ⟨0, 0, 0⟩) [byteStreamer.wire ⟨⟨1, 7, 0⟩, []⟩] =
      some single ∧
    batch.state.handed ≠ single.state.handed := by
  refine ⟨_, _, rfl, rfl, ?_⟩
  decide

end ServerConnection

end Wnet
