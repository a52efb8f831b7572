import Wnet.Server.Connection

/-!
# The header that the constructor leaves open

The constructor of `ServerConnection` sets `gotHeader_` and leaves `packetHeader_` as
the memory has it. In header mode the fields are written before they are read.
Without headers `GetPacketInfo` returns true and writes nothing, so that the length
check, the packet factory and `Decode` see what the memory held. A loop need not end
there, so calls are compared after any number of iterations.
-/

namespace Wnet

open Foundation

variable {Body State : Type*}

section Loop

variable (streamer : Streamer Body)
  (handlePacket : State → Bytes → PacketHeader → State × Bytes)

/-- The loop of `OnMessage` cut off after so many iterations: whether it has ended, and what
it has done by then. -/
def messageSteps : Nat → Reader → State → Bytes → Bool × Reader × State × Bytes
  | 0, reader, state, input => (false, reader, state, input)
  | limit + 1, reader, state, input =>
      if input.length > 0 then
        let info : Streamer.Info := if reader.gotHeader
          then ⟨true, false, reader.packetHeader, input⟩
          else streamer.getPacketInfo input reader.packetHeader
        if info.broken then (true, ⟨false, info.header⟩, state, info.input)
        else if info.got ∧ lengthCheck info.input.length info.header then
          let (state, input) := handlePacket state info.input info.header
          messageSteps limit ⟨false, { info.header with dataLen := 0 }⟩ state input
        else (true, ⟨info.got, info.header⟩, state, info.input)
      else (true, reader, state, input)

/-- Chunks arrive one after another, and no call of `OnMessage` is followed for more than
`limit` iterations. A call that has not ended by then is the last one. -/
def receiveSteps (limit : Nat) : Receiver State → List Bytes → Bool × Receiver State
  | receiver, [] => (true, receiver)
  | receiver, chunk :: chunks =>
      match messageSteps streamer handlePacket limit receiver.reader receiver.state
          (receiver.input ++ chunk) with
      | (true, reader, state, input) => receiveSteps limit ⟨reader, state, input⟩ chunks
      | (false, reader, state, input) => (false, ⟨reader, state, input⟩)

variable {streamer handlePacket}

/-- The loop is its cut-off versions that have ended. -/
theorem messageLoop_eq_steps (fuel : Nat) (reader : Reader) (state : State) (input : Bytes) :
    messageLoop streamer handlePacket fuel reader state input =
      if (messageSteps streamer handlePacket fuel reader state input).1
      then some (messageSteps streamer handlePacket fuel reader state input).2 else none := by
  induction fuel generalizing reader state input with
  | zero => rfl
  | succ fuel ih =>
      simp only [messageLoop, messageSteps]
      generalize (if reader.gotHeader = true
        then (⟨true, false, reader.packetHeader, input⟩ : Streamer.Info)
        else streamer.getPacketInfo input reader.packetHeader) = info
      by_cases hinput : input.length > 0
      · by_cases hbroken : info.broken
        · simp [hinput, hbroken]
        · by_cases hgot : info.got ∧ lengthCheck info.input.length info.header
          · simp only [hinput, hbroken, hgot, if_true, and_self, if_false, Bool.false_eq_true]
            exact ih _ _ _
          · simp [hinput, hbroken, hgot]
      · simp [hinput]

/-- Two parser states that differ at most in a header that was not read from the input. -/
def Reader.Agrees (reader other : Reader) : Prop :=
  reader.gotHeader = other.gotHeader ∧
    (reader.gotHeader = true → reader.packetHeader = other.packetHeader)

/-- In header mode a header that was not read from the input has no effect. -/
theorem messageSteps_agrees (hmode : streamer.existPacketHeader) {reader other : Reader}
    (hagrees : reader.Agrees other) (limit : Nat) (state : State) (input : Bytes) :
    (messageSteps streamer handlePacket limit reader state input).1 =
        (messageSteps streamer handlePacket limit other state input).1 ∧
      (messageSteps streamer handlePacket limit reader state input).2.1.Agrees
        (messageSteps streamer handlePacket limit other state input).2.1 ∧
      (messageSteps streamer handlePacket limit reader state input).2.2 =
        (messageSteps streamer handlePacket limit other state input).2.2 := by
  obtain ⟨gotHeader, header⟩ := reader
  obtain ⟨gotOther, otherHeader⟩ := other
  obtain ⟨hgot, hheader⟩ := hagrees
  obtain rfl : gotHeader = gotOther := hgot
  cases gotHeader with
  | true =>
      obtain rfl : header = otherHeader := hheader rfl
      exact ⟨rfl, ⟨rfl, fun _ => rfl⟩, rfl⟩
  | false =>
      cases limit with
      | zero => exact ⟨rfl, ⟨rfl, fun h => by cases h⟩, rfl⟩
      | succ limit =>
          by_cases hshort : input.length < 16
          · have hstop : ∀ header, messageSteps streamer handlePacket (limit + 1) ⟨false, header⟩
                state input = (true, ⟨false, header⟩, state, input) := by
              intro header
              simp [messageSteps, streamer.getPacketInfo_short hmode hshort]
            rw [hstop, hstop]
            exact ⟨rfl, ⟨rfl, fun h => by cases h⟩, rfl⟩
          · -- both headers are overwritten before anything reads them
            have hsame : messageSteps streamer handlePacket (limit + 1) ⟨false, header⟩ state
                input = messageSteps streamer handlePacket (limit + 1) ⟨false, otherHeader⟩ state
                  input := by
              have hpos : input.length > 0 := by omega
              simp [messageSteps, hpos, streamer.getPacketInfo_long hmode hshort]
            rw [hsame]
            exact ⟨rfl, ⟨rfl, fun _ => rfl⟩, rfl⟩

theorem receiveSteps_agrees (hmode : streamer.existPacketHeader) {limit : Nat}
    {reader other : Reader} (hagrees : reader.Agrees other) (state : State) (input : Bytes)
    (chunks : List Bytes) :
    (receiveSteps streamer handlePacket limit ⟨reader, state, input⟩ chunks).1 =
        (receiveSteps streamer handlePacket limit ⟨other, state, input⟩ chunks).1 ∧
      (receiveSteps streamer handlePacket limit ⟨reader, state, input⟩ chunks).2.state =
        (receiveSteps streamer handlePacket limit ⟨other, state, input⟩ chunks).2.state ∧
      (receiveSteps streamer handlePacket limit ⟨reader, state, input⟩ chunks).2.input =
        (receiveSteps streamer handlePacket limit ⟨other, state, input⟩ chunks).2.input := by
  induction chunks generalizing reader other state input with
  | nil => exact ⟨rfl, rfl, rfl⟩
  | cons chunk chunks ih =>
      obtain ⟨hended, hnext, hrest⟩ :=
        messageSteps_agrees hmode hagrees limit state (input ++ chunk)
      simp only [receiveSteps]
      generalize messageSteps streamer handlePacket limit reader state (input ++ chunk) = done
        at hended hnext hrest ⊢
      generalize messageSteps streamer handlePacket limit other state (input ++ chunk) = otherDone
        at hended hnext hrest ⊢
      obtain ⟨ended, reader, state, input⟩ := done
      obtain ⟨otherEnded, other, otherState, otherInput⟩ := otherDone
      obtain rfl : ended = otherEnded := hended
      obtain ⟨rfl, rfl⟩ := Prod.mk.inj hrest
      cases ended with
      | true => exact ih hnext state input
      | false => exact ⟨rfl, rfl, rfl⟩

/-- A call without a byte does nothing. -/
theorem receiveSteps_skip {limit : Nat} (reader : Reader) (state : State) {before : List Bytes}
    (hempty : ∀ chunk ∈ before, chunk = []) (later : List Bytes) :
    receiveSteps streamer handlePacket (limit + 1) ⟨reader, state, []⟩ (before ++ later) =
      receiveSteps streamer handlePacket (limit + 1) ⟨reader, state, []⟩ later := by
  induction before with
  | nil => rfl
  | cons chunk before ih =>
      obtain rfl := hempty chunk List.mem_cons_self
      simp only [List.cons_append, receiveSteps, messageSteps, List.append_nil, List.length_nil,
        gt_iff_lt, Nat.lt_irrefl, if_false]
      exact ih fun other hother => hempty other (List.mem_cons_of_mem _ hother)

end Loop

namespace ServerConnection

variable (streamer : Streamer Body) (batchPushPacket : Bool)

/-- The members that `HandlePacket` changes, with the calls of `Decode` so far. -/
abbrev Observed (Body : Type*) := ServerState Body × List (PacketHeader × Bytes)

/-- `HandlePacket`, with the header and the bytes that it passes to `Decode` recorded. -/
def observePacket (state : Observed Body) (input : Bytes) (header : PacketHeader) :
    Observed Body × Bytes :=
  let (next, rest) := handlePacket streamer batchPushPacket state.1 input header
  ((next, state.2 ++ [(header, input)]), rest)

/-- What a new connection has done after so many iterations in each call of `OnMessage`. -/
def observe (limit : Nat) (packetHeader : PacketHeader) (chunks : List Bytes) :
    Bool × Receiver (Observed Body) :=
  receiveSteps streamer (observePacket streamer batchPushPacket) limit
    ⟨⟨false, packetHeader⟩, (⟨[], []⟩, []), []⟩ chunks

/-- Two new connections, with these contents of their memory, call `Decode` and the adapter
alike and leave the same bytes unread. -/
def SameDispatch (packetHeader other : PacketHeader) (chunks : List Bytes) : Prop :=
  ∀ limit,
    (observe streamer batchPushPacket limit packetHeader chunks).1 =
        (observe streamer batchPushPacket limit other chunks).1 ∧
      (observe streamer batchPushPacket limit packetHeader chunks).2.state =
        (observe streamer batchPushPacket limit other chunks).2.state ∧
      (observe streamer batchPushPacket limit packetHeader chunks).2.input =
        (observe streamer batchPushPacket limit other chunks).2.input

variable {streamer}

/-- The least `int`, which every length passes. -/
theorem lengthCheck_minValue (available : Nat) (chid : UInt32) (pcode : Int32) :
    lengthCheck available ⟨chid, pcode, Int32.minValue⟩ := by
  rw [lengthCheck]
  exact decide_eq_true (Int32.minValue_le _)

/-- Without headers, the first byte that arrives is decoded with the header of the memory. -/
theorem observe_first (hmode : streamer.existPacketHeader = false) (chid : UInt32)
    (pcode : Int32) {before : List Bytes} {chunk : Bytes} (hbefore : ∀ chunk ∈ before, chunk = [])
    (hchunk : chunk ≠ []) (later : List Bytes) :
    (observe streamer batchPushPacket 1 ⟨chid, pcode, Int32.minValue⟩
      (before ++ chunk :: later)).2.state.2 = [(⟨chid, pcode, Int32.minValue⟩, chunk)] := by
  have hpos : 0 < chunk.length := List.length_pos_iff.mpr hchunk
  have hinfo : streamer.getPacketInfo chunk ⟨chid, pcode, Int32.minValue⟩ =
      ⟨true, false, ⟨chid, pcode, Int32.minValue⟩, chunk⟩ := by
    rw [Streamer.getPacketInfo, if_neg (by simp [hmode]), if_neg (by omega)]
  rw [observe, receiveSteps_skip _ _ hbefore]
  simp [receiveSteps, messageSteps, hpos, hinfo, lengthCheck_minValue, observePacket]

/-- What a new connection does is independent of the memory it was made in if and only if
there are headers or no byte ever arrives. -/
theorem sameDispatch_iff (streamer : Streamer Body) (batchPushPacket : Bool)
    (chunks : List Bytes) :
    (∀ packetHeader other, SameDispatch streamer batchPushPacket packetHeader other chunks) ↔
      streamer.existPacketHeader = true ∨ ∀ chunk ∈ chunks, chunk = [] := by
  constructor
  · intro hsame
    by_contra hneither
    obtain ⟨hmode, harrives⟩ := not_or.mp hneither
    obtain ⟨before, chunk, later, rfl, hbefore, hchunk⟩ :
        ∃ before chunk later, chunks = before ++ chunk :: later ∧
          (∀ chunk ∈ before, chunk = []) ∧ chunk ≠ [] := by
      obtain ⟨chunk, hfound⟩ := Option.isSome_iff_exists.mp
        (List.find?_isSome.mpr (show ∃ chunk ∈ chunks, !chunk.isEmpty by simpa using harrives))
      obtain ⟨hchunk, before, later, hsplit, hbefore⟩ := List.find?_eq_some_iff_append.mp hfound
      exact ⟨before, chunk, later, hsplit, by simpa using hbefore, by simpa using hchunk⟩
    have hdiffer := (hsame ⟨0, 0, Int32.minValue⟩ ⟨0, 1, Int32.minValue⟩ 1).2.1
    have hcalls := congrArg Prod.snd hdiffer
    rw [observe_first batchPushPacket (by simpa using hmode) 0 0 hbefore hchunk,
      observe_first batchPushPacket (by simpa using hmode) 0 1 hbefore hchunk] at hcalls
    simp at hcalls
  · rintro (hmode | hempty) packetHeader other limit
    · have hagrees : Reader.Agrees ⟨false, packetHeader⟩ ⟨false, other⟩ :=
        ⟨rfl, fun hgot => Bool.noConfusion hgot⟩
      exact receiveSteps_agrees hmode hagrees _ _ _
    · cases limit with
      | zero => cases chunks <;> exact ⟨rfl, rfl, rfl⟩
      | succ limit =>
          have hidle : ∀ header, observe streamer batchPushPacket (limit + 1) header chunks =
              (true, ⟨⟨false, header⟩, (⟨[], []⟩, []), []⟩) := by
            intro header
            have hskip := @receiveSteps_skip _ _ streamer (observePacket streamer batchPushPacket)
              limit ⟨false, header⟩ (⟨[], []⟩, []) chunks hempty []
            rw [List.append_nil] at hskip
            exact hskip
          rw [hidle, hidle]
          exact ⟨rfl, rfl, rfl⟩

/-- An application without headers that knows one packet code. -/
def plainStreamer : Streamer Bytes :=
  { byteStreamer with
    existPacketHeader := false
    createPacket := fun pcode => if pcode = 1 then some fun _ input => (some input, []) else none }

/-- The same byte is decoded as a packet of code 0 or of code 1. -/
theorem sameDispatch_fails :
    ¬ SameDispatch plainStreamer false ⟨0, 0, 0⟩ ⟨0, 1, 0⟩ [[7]] := by
  intro hsame
  have hcalls := congrArg Prod.snd (hsame 1).2.1
  exact absurd hcalls (by decide)

end ServerConnection

end Wnet
