import Wnet.Channel.Process
import Wnet.Session.Receive

/-!
# When the receiving loop ends

In header mode an iteration of `OnMessage` takes a header or uses up the header
that was left from the call before, so the loop ends, whatever the packets do with
their payloads. Without headers progress is left to the packets: the loop ends if
every `Decode` takes a byte, and it does not end on bytes that a `Decode` leaves to
wait for the rest of a message.
-/

namespace Wnet

open Foundation

variable {Body State : Type*}

namespace Streamer

/-- No packet's `Decode` lengthens the buffer. -/
def Shrinks (streamer : Streamer Body) : Prop :=
  ∀ pcode decodePacket header input, streamer.createPacket pcode = some decodePacket →
    (decodePacket header input).2.length ≤ input.length

/-- Every packet's `Decode` takes bytes off the front of the buffer and does no more to it. -/
def Consumes (streamer : Streamer Body) : Prop :=
  ∀ pcode decodePacket header input, streamer.createPacket pcode = some decodePacket →
    (decodePacket header input).2 <:+ input

variable {streamer : Streamer Body}

theorem Shrinks.decode (hshrinks : streamer.Shrinks) (input : Bytes) (header : PacketHeader) :
    (streamer.decode input header).2.length ≤ input.length := by
  rw [Streamer.decode]
  cases hcreate : streamer.createPacket header.pcode with
  | none =>
      rw [Buffer.skip_eq_drop, List.length_drop]
      exact Nat.sub_le _ _
  | some decodePacket => exact hshrinks header.pcode decodePacket header input hcreate

theorem Consumes.decode (hconsumes : streamer.Consumes) (input : Bytes) (header : PacketHeader) :
    (streamer.decode input header).2 <:+ input := by
  rw [Streamer.decode]
  cases hcreate : streamer.createPacket header.pcode with
  | none =>
      rw [Buffer.skip_eq_drop]
      exact List.drop_suffix _ _
  | some decodePacket => exact hconsumes header.pcode decodePacket header input hcreate

end Streamer

/-- The header as `OnMessage` leaves it after a packet. -/
def PacketHeader.blank (header : PacketHeader) : PacketHeader := { header with dataLen := 0 }

/-- Without headers, the loop goes on with these unread bytes. -/
def GoesOn (header : PacketHeader) (input : Bytes) : Prop :=
  input ≠ [] ∧ lengthCheck input.length header

/-- Given a header without a data length, `Decode` takes at least one byte of any unread
bytes that are not too many. -/
def Streamer.TakesBytes (streamer : Streamer Body) (header : PacketHeader) (bound : Nat) : Prop :=
  ∀ input : Bytes, input.length ≤ bound → GoesOn header.blank input →
    (streamer.decode input header.blank).2.length < input.length

section Loop

variable {streamer : Streamer Body}
  {handlePacket : State → Bytes → PacketHeader → State × Bytes}

/-- In header mode each iteration but the first takes a header. -/
theorem messageLoop_ends (hmode : streamer.existPacketHeader)
    (hshrinks : ∀ state input header, (handlePacket state input header).2.length ≤ input.length)
    {fuel : Nat} (header : PacketHeader) (state : State) {input : Bytes}
    (hfuel : input.length < fuel) :
    (messageLoop streamer handlePacket fuel ⟨false, header⟩ state input).isSome := by
  induction fuel generalizing header state input with
  | zero => omega
  | succ fuel ih =>
      by_cases hshort : input.length < 16
      · rw [messageLoop_short hmode fuel header state hshort]
        rfl
      · rw [messageLoop_long hmode fuel header state hshort]
        cases streamer.framing.header (input.take 16) with
        | none => rfl
        | some found =>
            dsimp only
            split
            next =>
              have hle := hshrinks state (input.drop 16) found
              rw [List.length_drop] at hle
              exact ih _ _ (by omega)
            next => rfl

theorem messageLoop_ends_of_header (hmode : streamer.existPacketHeader)
    (hshrinks : ∀ state input header, (handlePacket state input header).2.length ≤ input.length)
    (reader : Reader) (state : State) (input : Bytes) :
    (messageLoop streamer handlePacket (input.length + 2) reader state input).isSome := by
  obtain ⟨gotHeader, header⟩ := reader
  cases gotHeader with
  | false => exact messageLoop_ends hmode hshrinks header state (by omega)
  | true =>
      by_cases hinput : input = []
      · subst hinput
        rw [messageLoop_empty]
        rfl
      · rw [messageLoop_pending _ header state hinput]
        split
        next =>
          have hle := hshrinks state input header
          exact messageLoop_ends hmode hshrinks _ _ (by omega)
        next => rfl

/-- An iteration without headers. -/
theorem messageLoop_plain (hmode : streamer.existPacketHeader = false) (fuel : Nat)
    (reader : Reader) (state : State) {input : Bytes} (hinput : input ≠ []) :
    messageLoop streamer handlePacket (fuel + 1) reader state input =
      if lengthCheck input.length reader.packetHeader then
        messageLoop streamer handlePacket fuel ⟨false, reader.packetHeader.blank⟩
          (handlePacket state input reader.packetHeader).1
          (handlePacket state input reader.packetHeader).2
      else some (⟨true, reader.packetHeader⟩, state, input) := by
  have hpos : 0 < input.length := List.length_pos_iff.mpr hinput
  obtain ⟨gotHeader, header⟩ := reader
  cases gotHeader with
  | true => exact messageLoop_pending fuel header state hinput
  | false =>
      have hinfo : streamer.getPacketInfo input header = ⟨true, false, header, input⟩ := by
        rw [Streamer.getPacketInfo, if_neg (by simp [hmode]), if_neg (by omega)]
      simp [messageLoop, hpos, hinfo, PacketHeader.blank]

theorem messageLoop_plain_goesOn (hmode : streamer.existPacketHeader = false) (fuel : Nat)
    (reader : Reader) (state : State) {input : Bytes}
    (hgoesOn : GoesOn reader.packetHeader input) :
    messageLoop streamer handlePacket (fuel + 1) reader state input =
      messageLoop streamer handlePacket fuel ⟨false, reader.packetHeader.blank⟩
        (handlePacket state input reader.packetHeader).1
        (handlePacket state input reader.packetHeader).2 := by
  rw [messageLoop_plain hmode fuel reader state hgoesOn.1, if_pos hgoesOn.2]

theorem messageLoop_plain_ends (hmode : streamer.existPacketHeader = false) (fuel : Nat)
    (reader : Reader) (state : State) {input : Bytes}
    (hends : ¬ GoesOn reader.packetHeader input) :
    (messageLoop streamer handlePacket (fuel + 1) reader state input).isSome := by
  by_cases hinput : input = []
  · subst hinput
    rw [messageLoop_empty]
    rfl
  · rw [messageLoop_plain hmode fuel reader state hinput,
      if_neg fun hcheck => hends ⟨hinput, hcheck⟩]
    rfl

/-- Without headers, the loop ends with a blank header as the unread bytes become fewer. -/
theorem messageLoop_blank_ends (hmode : streamer.existPacketHeader = false)
    (hdecodes : ∀ state input header,
      (handlePacket state input header).2 = (streamer.decode input header).2)
    (header : PacketHeader) {bound : Nat} (htakes : streamer.TakesBytes header bound)
    {fuel : Nat} (state : State) {input : Bytes} (hbound : input.length ≤ bound)
    (hfuel : input.length < fuel) :
    (messageLoop streamer handlePacket fuel ⟨false, header.blank⟩ state input).isSome := by
  induction fuel generalizing state input with
  | zero => omega
  | succ fuel ih =>
      by_cases hgoesOn : GoesOn header.blank input
      · rw [messageLoop_plain_goesOn hmode fuel ⟨false, header.blank⟩ state hgoesOn]
        have hshorter := htakes input hbound hgoesOn
        rw [← hdecodes state] at hshorter
        dsimp only
        exact ih _ (by omega) (by omega)
      · exact messageLoop_plain_ends hmode fuel ⟨false, header.blank⟩ state hgoesOn

/-- The first `Decode` may be given a data length that was left in the header. -/
theorem messageLoop_plain_ends_of_takes (hmode : streamer.existPacketHeader = false)
    (hshrinks : streamer.Shrinks)
    (hdecodes : ∀ state input header,
      (handlePacket state input header).2 = (streamer.decode input header).2)
    (reader : Reader) (state : State) {input : Bytes}
    (htakes : streamer.TakesBytes reader.packetHeader input.length) :
    (messageLoop streamer handlePacket (input.length + 2) reader state input).isSome := by
  by_cases hgoesOn : GoesOn reader.packetHeader input
  · rw [messageLoop_plain_goesOn hmode _ reader state hgoesOn]
    have hle := hshrinks.decode input reader.packetHeader
    rw [← hdecodes state] at hle
    exact messageLoop_blank_ends hmode hdecodes reader.packetHeader htakes _ hle (by omega)
  · exact messageLoop_plain_ends hmode _ reader state hgoesOn

/-- Without headers, the loop never ends on bytes that `Decode` leaves as they are. -/
theorem messageLoop_stuck (hmode : streamer.existPacketHeader = false)
    (hdecodes : ∀ state input header,
      (handlePacket state input header).2 = (streamer.decode input header).2)
    {header : PacketHeader} {input : Bytes} (hgoesOn : GoesOn header.blank input)
    (hstuck : (streamer.decode input header.blank).2 = input) (fuel : Nat) (state : State) :
    messageLoop streamer handlePacket fuel ⟨false, header.blank⟩ state input = none := by
  induction fuel generalizing state with
  | zero => rfl
  | succ fuel ih =>
      rw [messageLoop_plain_goesOn hmode fuel ⟨false, header.blank⟩ state hgoesOn]
      dsimp only
      rw [hdecodes, hstuck]
      exact ih _

end Loop

theorem ServerConnection.handlePacket_rest (streamer : Streamer Body) (batchPushPacket : Bool)
    (state : ServerState Body) (input : Bytes) (header : PacketHeader) :
    (handlePacket streamer batchPushPacket state input header).2 =
      (streamer.decode input header).2 := by
  rw [handlePacket]
  split
  next hdecode => rw [hdecode]
  next hdecode =>
    rw [hdecode]
    dsimp only
    split
    · split <;> rfl
    · rfl

theorem ServerConnection.handlePacket_shrinks {streamer : Streamer Body}
    (hshrinks : streamer.Shrinks) (batchPushPacket : Bool) (state : ServerState Body)
    (input : Bytes) (header : PacketHeader) :
    (handlePacket streamer batchPushPacket state input header).2.length ≤ input.length := by
  rw [handlePacket_rest]
  exact hshrinks.decode input header

theorem ClientSession.handlePacket_rest {streamer : Streamer Body}
    (hmode : streamer.existPacketHeader = false) (defaultPacketHandler : Option Nat)
    (callback : Invocation Body → ChannelPool → ChannelPool) (state : ClientState Body)
    (input : Bytes) (header : PacketHeader) :
    (handlePacket streamer defaultPacketHandler callback state input header).2 =
      (streamer.decode input header).2 := by
  simp [handlePacket, hmode]

theorem ClientSession.handlePacket_shrinks {streamer : Streamer Body}
    (hshrinks : streamer.Shrinks) (defaultPacketHandler : Option Nat)
    (callback : Invocation Body → ChannelPool → ChannelPool) (state : ClientState Body)
    (input : Bytes) (header : PacketHeader) :
    (handlePacket streamer defaultPacketHandler callback state input header).2.length ≤
      input.length := by
  simp only [handlePacket]
  split
  · split
    · rw [Buffer.skip_eq_drop, List.length_drop]
      exact Nat.sub_le _ _
    · exact hshrinks.decode input header
  · exact hshrinks.decode input header

/-- The loops of both sides end, whatever the rest of the connection or session holds. -/
def LoopsEnd (streamer : Streamer Body) (reader : Reader) (input : Bytes) : Prop :=
  (∀ batchPushPacket state, ∃ fuel,
    (messageLoop streamer (ServerConnection.handlePacket streamer batchPushPacket)
      fuel reader state input).isSome) ∧
  ∀ defaultPacketHandler callback state, ∃ fuel,
    (messageLoop streamer (ClientSession.handlePacket streamer defaultPacketHandler callback)
      fuel reader state input).isSome

theorem loopsEnd_of_header {streamer : Streamer Body} (hmode : streamer.existPacketHeader)
    (hshrinks : streamer.Shrinks) (reader : Reader) (input : Bytes) :
    LoopsEnd streamer reader input := by
  constructor
  · intro batchPushPacket state
    exact ⟨_, messageLoop_ends_of_header hmode
      (ServerConnection.handlePacket_shrinks hshrinks batchPushPacket) reader state input⟩
  · intro defaultPacketHandler callback state
    exact ⟨_, messageLoop_ends_of_header hmode
      (ClientSession.handlePacket_shrinks hshrinks defaultPacketHandler callback) reader state
      input⟩

theorem loopsEnd_of_takesBytes {streamer : Streamer Body}
    (hmode : streamer.existPacketHeader = false) (hshrinks : streamer.Shrinks) {reader : Reader}
    {input : Bytes} (htakes : streamer.TakesBytes reader.packetHeader input.length) :
    LoopsEnd streamer reader input := by
  constructor
  · intro batchPushPacket state
    exact ⟨_, messageLoop_plain_ends_of_takes hmode hshrinks
      (ServerConnection.handlePacket_rest streamer batchPushPacket) reader state htakes⟩
  · intro defaultPacketHandler callback state
    exact ⟨_, messageLoop_plain_ends_of_takes hmode hshrinks
      (ClientSession.handlePacket_rest hmode defaultPacketHandler callback) reader state htakes⟩

/-- The loops of both sides end on any unread bytes up to some number, from any parser state
with this channel and packet code, if there are headers or every `Decode` takes a byte. If
`Decode` only takes bytes off the front they end only then. -/
theorem messageLoop_ends_iff_takesBytes {streamer : Streamer Body}
    (hshrinks : streamer.Shrinks) (header : PacketHeader) (bound : Nat) :
    (streamer.existPacketHeader = true ∨ streamer.TakesBytes header bound →
      ∀ reader input, reader.packetHeader.blank = header.blank → input.length ≤ bound →
        LoopsEnd streamer reader input) ∧
    (streamer.Consumes →
      (∀ reader input, reader.packetHeader.blank = header.blank → input.length ≤ bound →
        LoopsEnd streamer reader input) →
      streamer.existPacketHeader = true ∨ streamer.TakesBytes header bound) := by
  cases hmode : streamer.existPacketHeader with
  | true =>
      exact ⟨fun _ reader input _ _ => loopsEnd_of_header hmode hshrinks reader input,
        fun _ _ => .inl rfl⟩
  | false =>
      constructor
      · rintro (hheader | htakes) reader input hblank hbound
        · cases hheader
        · refine loopsEnd_of_takesBytes hmode hshrinks fun other hother hgoesOn => ?_
          rw [hblank] at hgoesOn ⊢
          exact htakes other (hother.trans hbound) hgoesOn
      · intro hconsumes hends
        refine .inr fun input hbound hgoesOn => ?_
        by_contra hnot
        -- Bytes of which nothing is taken are left as they are.
        have hstuck := (hconsumes.decode input header.blank).eq_of_length_le (Nat.not_lt.mp hnot)
        obtain ⟨fuel, hsome⟩ := (hends ⟨false, header.blank⟩ input rfl hbound).1 false ⟨[], []⟩
        rw [messageLoop_stuck hmode (ServerConnection.handlePacket_rest streamer false) hgoesOn
          hstuck] at hsome
        cases hsome

/-- Messages of four bytes without headers; a shorter rest is left to wait for more. -/
def quadStreamer : Streamer Bytes where
  existPacketHeader := false
  nPacketFlag := qynetPacketFlag
  createPacket := fun _ => some fun _ input =>
    if input.length < 4 then (none, input) else (some (input.take 4), input.drop 4)
  encodePacket := fun packet output => (true, output ++ packet.body)

/-- The same, but a shorter rest is thrown away. -/
def quadDropStreamer : Streamer Bytes :=
  { quadStreamer with
    createPacket := fun _ => some fun _ input =>
      (if input.length < 4 then none else some (input.take 4), input.drop 4) }

theorem quadStreamer_consumes : quadStreamer.Consumes := by
  intro pcode decodePacket header input hcreate
  obtain rfl := Option.some.inj hcreate
  dsimp only
  split
  · exact List.suffix_refl _
  · exact List.drop_suffix _ _

theorem quadDropStreamer_consumes : quadDropStreamer.Consumes := by
  intro pcode decodePacket header input hcreate
  obtain rfl := Option.some.inj hcreate
  exact List.drop_suffix _ _

theorem Streamer.Consumes.shrinks {streamer : Streamer Body} (hconsumes : streamer.Consumes) :
    streamer.Shrinks :=
  fun pcode decodePacket header input hcreate =>
    (hconsumes pcode decodePacket header input hcreate).length_le

/-- Six bytes are taken as a message and a rest, and left for ever where the rest waits. -/
theorem messageLoop_ends_iff_takesBytes_quad :
    LoopsEnd quadDropStreamer ⟨true, ⟨0, 7, 5⟩⟩ [1, 2, 3, 4, 5, 6] ∧
    ¬ ∀ reader input, reader.packetHeader.blank = ⟨0, 7, 0⟩ → input.length ≤ 6 →
      LoopsEnd quadStreamer reader input := by
  have htakes : quadDropStreamer.TakesBytes ⟨0, 7, 0⟩ 6 := by
    intro input _ hgoesOn
    have hpos : 0 < input.length := List.length_pos_iff.mpr hgoesOn.1
    change (input.drop 4).length < input.length
    rw [List.length_drop]
    omega
  refine ⟨(messageLoop_ends_iff_takesBytes quadDropStreamer_consumes.shrinks ⟨0, 7, 0⟩ 6).1
    (.inr htakes) _ _ rfl (by decide), ?_⟩
  intro hends
  rcases (messageLoop_ends_iff_takesBytes quadStreamer_consumes.shrinks ⟨0, 7, 0⟩ 6).2
    quadStreamer_consumes hends with hmode | hquad
  · cases hmode
  · exact absurd (hquad [5, 6] (by decide) ⟨by decide, by decide⟩) (by decide)

/-- With half a message unread neither loop ends. -/
theorem messageLoop_never_ends :
    quadStreamer.Shrinks ∧
    (∀ fuel, messageLoop quadStreamer (ServerConnection.handlePacket quadStreamer false) fuel
      ⟨false, ⟨0, 0, 0⟩⟩ ⟨[], []⟩ [1, 2] = none) ∧
    ∀ fuel, messageLoop quadStreamer
      (ClientSession.handlePacket quadStreamer (some 0) fun _ pool => pool) fuel
      ⟨false, ⟨0, 0, 0⟩⟩ ⟨.new (Process.zeroMemory 0), [], []⟩ [1, 2] = none := by
  have hgoesOn : GoesOn (PacketHeader.blank ⟨0, 0, 0⟩) [1, 2] := ⟨by decide, by decide⟩
  exact ⟨quadStreamer_consumes.shrinks,
    fun fuel => messageLoop_stuck rfl (ServerConnection.handlePacket_rest quadStreamer false)
      hgoesOn rfl fuel _,
    fun fuel => messageLoop_stuck rfl
      (ClientSession.handlePacket_rest rfl (some 0) fun _ pool => pool) hgoesOn rfl fuel _⟩

end Wnet
