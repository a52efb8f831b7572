import Wnet.Packet.Wire
import Wnet.Foundation.Run

/-!
# The receiving loop

`ServerConnection::OnMessage` and `ClientSession::OnMessage` have the same text;
they differ in the `HandlePacket` that they call. The loop is stated once, with
the handler and its state as parameters. In header mode, with a handler that
takes exactly the announced payload, a call takes the frames that the framing
scans from the unread bytes.
-/

namespace Wnet

open Foundation

/-- The parser state that a connection keeps between two calls of `OnMessage`. -/
structure Reader where
  gotHeader : Bool
  packetHeader : PacketHeader

/-- The header that was read and whose payload is still to come. -/
def Reader.pending (reader : Reader) : Option PacketHeader :=
  if reader.gotHeader then some reader.packetHeader else none

section Loop

variable {Body State : Type*} (streamer : Streamer Body)
  (handlePacket : State → Bytes → PacketHeader → State × Bytes)

/-- The loop of `OnMessage`. `none` when the fuel does not suffice. -/
def messageLoop : Nat → Reader → State → Bytes → Option (Reader × State × Bytes)
  | 0, _, _, _ => none
  | fuel + 1, reader, state, input =>
      if input.length > 0 then
        let info : Streamer.Info := if reader.gotHeader
          then ⟨true, false, reader.packetHeader, input⟩
          else streamer.getPacketInfo input reader.packetHeader
        if info.broken then some (⟨false, info.header⟩, state, info.input)
        else if info.got ∧ lengthCheck info.input.length info.header then
          let (state, input) := handlePacket state info.input info.header
          messageLoop fuel ⟨false, { info.header with dataLen := 0 }⟩ state input
        else some (⟨info.got, info.header⟩, state, info.input)
      else some (reader, state, input)

/-- One side of a connection: parser state, handler state, unread bytes. -/
structure Receiver (State : Type*) where
  reader : Reader
  state : State
  input : Bytes

/-- A chunk arrives and `OnMessage` is called. In header mode only the first
iteration can leave the number of unread bytes as it is. -/
def onMessage (receiver : Receiver State) (chunk : Bytes) : Option (Receiver State) :=
  let input := receiver.input ++ chunk
  (messageLoop streamer handlePacket (input.length + 2) receiver.reader receiver.state
    input).map fun (reader, state, input) => ⟨reader, state, input⟩

/-- A handler that takes exactly the payload that a header announces. -/
def TakesPayload (handleFrame : State → PacketHeader × Bytes → State) : Prop :=
  ∀ state input header, header.Valid → header.bodyLength ≤ input.length →
    handlePacket state input header =
      (handleFrame state (header, input.take header.bodyLength), input.drop header.bodyLength)

/-- From a state on, the handler takes exactly the payload of each frame, whatever
follows it. -/
def TakesFrames (handleFrame : State → PacketHeader × Bytes → State) :
    State → List (PacketHeader × Bytes) → Prop
  | _, [] => True
  | state, frame :: frames =>
      (∀ rest, handlePacket state (frame.2 ++ rest) frame.1 = (handleFrame state frame, rest)) ∧
        TakesFrames handleFrame (handleFrame state frame) frames

variable {streamer handlePacket}

theorem takesFrames_append {handleFrame : State → PacketHeader × Bytes → State}
    (first second : List (PacketHeader × Bytes)) (state : State) :
    TakesFrames handlePacket handleFrame state (first ++ second) ↔
      TakesFrames handlePacket handleFrame state first ∧
        TakesFrames handlePacket handleFrame (first.foldl handleFrame state) second := by
  induction first generalizing state with
  | nil => simp [TakesFrames]
  | cons frame first ih => simp only [List.cons_append, TakesFrames, ih, and_assoc,
      List.foldl_cons]

theorem TakesPayload.takesFrames {handleFrame : State → PacketHeader × Bytes → State}
    (htakes : TakesPayload handlePacket handleFrame) {frames : List (PacketHeader × Bytes)}
    (hframes : ∀ frame ∈ frames, frame.1.Valid ∧ frame.2.length = frame.1.bodyLength)
    (state : State) : TakesFrames handlePacket handleFrame state frames := by
  induction frames generalizing state with
  | nil => trivial
  | cons frame frames ih =>
      obtain ⟨hvalid, hlength⟩ := hframes frame List.mem_cons_self
      refine ⟨fun rest => ?_, ih (fun other hother =>
        hframes other (List.mem_cons_of_mem _ hother)) _⟩
      have hle : frame.1.bodyLength ≤ (frame.2 ++ rest).length := by
        rw [List.length_append]
        omega
      rw [htakes state _ _ hvalid hle, ← hlength, List.take_left, List.drop_left]

theorem messageLoop_empty (fuel : Nat) (reader : Reader) (state : State) :
    messageLoop streamer handlePacket (fuel + 1) reader state [] = some (reader, state, []) := by
  simp [messageLoop]

/-- An iteration that starts with a header already read. -/
theorem messageLoop_pending (fuel : Nat) (header : PacketHeader) (state : State) {input : Bytes}
    (hinput : input ≠ []) :
    messageLoop streamer handlePacket (fuel + 1) ⟨true, header⟩ state input =
      if lengthCheck input.length header then
        messageLoop streamer handlePacket fuel ⟨false, { header with dataLen := 0 }⟩
          (handlePacket state input header).1 (handlePacket state input header).2
      else some (⟨true, header⟩, state, input) := by
  simp [messageLoop, List.length_pos_iff.mpr hinput]

theorem messageLoop_short (hmode : streamer.existPacketHeader) (fuel : Nat)
    (header : PacketHeader) (state : State) {input : Bytes} (hshort : input.length < 16) :
    messageLoop streamer handlePacket (fuel + 1) ⟨false, header⟩ state input =
      some (⟨false, header⟩, state, input) := by
  simp [messageLoop, streamer.getPacketInfo_short hmode hshort]

/-- An iteration that starts by reading a header. -/
theorem messageLoop_long (hmode : streamer.existPacketHeader) (fuel : Nat)
    (header : PacketHeader) (state : State) {input : Bytes} (hlong : ¬ input.length < 16) :
    messageLoop streamer handlePacket (fuel + 1) ⟨false, header⟩ state input =
      match streamer.framing.header (input.take 16) with
      | none => some (⟨false, wireHeader input⟩, state, input.drop 16)
      | some header =>
          if lengthCheck (input.drop 16).length header then
            messageLoop streamer handlePacket fuel ⟨false, { header with dataLen := 0 }⟩
              (handlePacket state (input.drop 16) header).1
              (handlePacket state (input.drop 16) header).2
          else some (⟨true, header⟩, state, input.drop 16) := by
  have hpos : 0 < input.length := by omega
  rw [messageLoop, if_pos hpos, streamer.getPacketInfo_long hmode hlong]
  cases hheader : streamer.framing.header (input.take 16) with
  | none => simp
  | some found =>
      have hwire : wireHeader input = found := by
        rw [streamer.framing_header_take, streamer.framing_header] at hheader
        split at hheader
        next => exact Option.some.inj hheader
        next => cases hheader
      simp [hwire]

theorem Reader.pending_false (header : PacketHeader) :
    Reader.pending ⟨false, header⟩ = none := rfl

theorem Reader.pending_true (header : PacketHeader) :
    Reader.pending ⟨true, header⟩ = some header := rfl

/-- A reader that waits for a payload waits for a valid one that is not yet there. -/
def Settled (reader : Reader) (input : Bytes) : Prop :=
  ∀ header ∈ reader.pending, header.Valid ∧ ¬ lengthCheck input.length header

variable {handleFrame : State → PacketHeader × Bytes → State}

/-- The loop takes the frames of the scan, in order, and stops where it stops. -/
theorem messageLoop_eq_scan (hmode : streamer.existPacketHeader) (fuel : Nat) (reader : Reader)
    (state : State) (input : Bytes)
    (htakes : TakesFrames handlePacket handleFrame state
      (streamer.framing.scan lengthCheck reader.pending input).1)
    (hfuel : input.length + (if reader.gotHeader then 1 else 0) < fuel)
    (hready : ∀ header ∈ reader.pending, input = [] → ¬ lengthCheck 0 header) :
    ∃ reader', messageLoop streamer handlePacket fuel reader state input =
        some (reader',
          (streamer.framing.scan lengthCheck reader.pending input).1.foldl handleFrame state,
          (streamer.framing.scan lengthCheck reader.pending input).2.rest) ∧
      reader'.pending = (streamer.framing.scan lengthCheck reader.pending input).2.pending := by
  induction fuel generalizing reader state input with
  | zero => omega
  | succ fuel ih =>
      -- The rest of the loop after a payload was taken, for either kind of iteration.
      have hnext : ∀ header : PacketHeader, ∀ body : Bytes,
          TakesFrames handlePacket handleFrame state
            (streamer.framing.scan lengthCheck (some header) body).1 →
          lengthCheck body.length header → body.length < fuel → ∃ reader',
          messageLoop streamer handlePacket fuel ⟨false, { header with dataLen := 0 }⟩
              (handlePacket state body header).1 (handlePacket state body header).2 =
            some (reader',
              (streamer.framing.scan lengthCheck (some header) body).1.foldl handleFrame state,
              (streamer.framing.scan lengthCheck (some header) body).2.rest) ∧
          reader'.pending =
            (streamer.framing.scan lengthCheck (some header) body).2.pending := by
        intro header body hframes hcheck hlt
        rw [Framing.scan_fits hcheck] at hframes ⊢
        have hfirst := hframes.1 (body.drop header.bodyLength)
        rw [streamer.framing_bodyLength, List.take_append_drop] at hfirst
        rw [hfirst, List.foldl_cons]
        apply ih ⟨false, { header with dataLen := 0 }⟩
        · exact hframes.2
        · simp only [List.length_drop, Bool.false_eq_true, if_false]
          omega
        · simp [Reader.pending_false]
      obtain ⟨gotHeader, header⟩ := reader
      cases gotHeader with
      | false =>
          rw [Reader.pending_false] at htakes ⊢
          by_cases hshort : input.length < 16
          · rw [messageLoop_short hmode fuel header state hshort, Framing.scan_short hshort]
            exact ⟨_, rfl, rfl⟩
          rw [messageLoop_long hmode fuel header state hshort]
          cases hheader : streamer.framing.header (input.take 16) with
          | none =>
              rw [Framing.scan_broken hshort hheader]
              exact ⟨_, rfl, rfl⟩
          | some found =>
              rw [Framing.scan_header hshort hheader, streamer.framing_headerSize] at htakes ⊢
              dsimp only
              split
              next hcheck =>
                refine hnext found (input.drop 16) htakes hcheck ?_
                simp only [List.length_drop, Bool.false_eq_true, if_false] at hfuel ⊢
                omega
              next hcheck =>
                rw [Framing.scan_waiting hcheck]
                exact ⟨_, rfl, rfl⟩
      | true =>
          rw [Reader.pending_true] at htakes hready ⊢
          by_cases hinput : input = []
          · subst hinput
            rw [messageLoop_empty, Framing.scan_waiting (hready header rfl rfl)]
            exact ⟨_, rfl, rfl⟩
          rw [messageLoop_pending fuel header state hinput]
          split
          next hcheck =>
            refine hnext header input htakes hcheck ?_
            simp only [if_true] at hfuel
            omega
          next hcheck =>
            rw [Framing.scan_waiting hcheck]
            exact ⟨_, rfl, rfl⟩

/-- A handler that takes every announced payload takes the frames of every chunk. -/
theorem TakesPayload.feed (htakes : TakesPayload handlePacket handleFrame) {reader : Reader}
    {input : Bytes} (hsettled : Settled reader input) (state : State) (chunk : Bytes) :
    TakesFrames handlePacket handleFrame state
      (streamer.framing.feed lengthCheck (reader.pending, input) chunk).1 := by
  apply htakes.takesFrames
  apply Framing.scan_frames lengthCheck_sound PacketHeader.Valid
  · exact fun input header => streamer.framing_header_valid
  · exact fun header hheader => (hsettled header hheader).1

theorem TakesPayload.feedAll (htakes : TakesPayload handlePacket handleFrame) {reader : Reader}
    {input : Bytes} (hsettled : Settled reader input) (state : State) (chunks : List Bytes) :
    TakesFrames handlePacket handleFrame state
      (streamer.framing.feedAll lengthCheck (reader.pending, input) chunks).1 := by
  apply htakes.takesFrames
  apply Framing.feedAll_mem lengthCheck_sound PacketHeader.Valid
  · exact fun input header => streamer.framing_header_valid
  · exact fun header hheader => (hsettled header hheader).1

/-- One call of `OnMessage` feeds one chunk to the framing. -/
theorem onMessage_eq_feed (hmode : streamer.existPacketHeader) {receiver : Receiver State}
    (hsettled : Settled receiver.reader receiver.input) (chunk : Bytes)
    (htakes : TakesFrames handlePacket handleFrame receiver.state (streamer.framing.feed
      lengthCheck (receiver.reader.pending, receiver.input) chunk).1) :
    ∃ receiver', onMessage streamer handlePacket receiver chunk = some receiver' ∧
      receiver'.state = (streamer.framing.feed lengthCheck
        (receiver.reader.pending, receiver.input) chunk).1.foldl handleFrame receiver.state ∧
      (receiver'.reader.pending, receiver'.input) = (streamer.framing.feed lengthCheck
        (receiver.reader.pending, receiver.input) chunk).2 ∧
      Settled receiver'.reader receiver'.input := by
  obtain ⟨reader', hloop, hpending⟩ := messageLoop_eq_scan hmode
    ((receiver.input ++ chunk).length + 2) receiver.reader receiver.state
    (receiver.input ++ chunk) htakes (by split <;> omega)
    (by
      intro header hheader hempty
      have hnot := (hsettled header hheader).2
      rwa [(List.append_eq_nil_iff.mp hempty).1] at hnot)
  refine ⟨_, by rw [onMessage, hloop]; rfl, rfl, by simp only [Framing.feed, hpending], ?_⟩
  intro header hheader
  simp only [hpending] at hheader
  exact Framing.scan_pending PacketHeader.Valid
    (fun input header => streamer.framing_header_valid) _ _
    (fun header hheader => (hsettled header hheader).1) header hheader

/-- A run of `OnMessage` calls feeds its chunks in turn. -/
theorem run_onMessage_eq_feedAll (hmode : streamer.existPacketHeader)
    {receiver : Receiver State} (hsettled : Settled receiver.reader receiver.input)
    (chunks : List Bytes)
    (htakes : TakesFrames handlePacket handleFrame receiver.state (streamer.framing.feedAll
      lengthCheck (receiver.reader.pending, receiver.input) chunks).1) :
    ∃ final, run (onMessage streamer handlePacket) receiver chunks = some final ∧
      final.state = (streamer.framing.feedAll lengthCheck
        (receiver.reader.pending, receiver.input) chunks).1.foldl handleFrame receiver.state ∧
      (final.reader.pending, final.input) = (streamer.framing.feedAll lengthCheck
        (receiver.reader.pending, receiver.input) chunks).2 ∧
      Settled final.reader final.input := by
  induction chunks generalizing receiver with
  | nil => exact ⟨receiver, rfl, rfl, rfl, hsettled⟩
  | cons chunk chunks ih =>
      rw [Framing.feedAll, takesFrames_append] at htakes
      obtain ⟨middle, hstep, hstate, hnext, hmiddle⟩ :=
        onMessage_eq_feed hmode hsettled chunk htakes.1
      rw [← hstate, ← hnext] at htakes
      obtain ⟨final, hrun, hfinal, hrest, hend⟩ := ih hmiddle htakes.2
      refine ⟨final, by rw [run_cons, hstep]; exact hrun, ?_, ?_, hend⟩
      · rw [Framing.feedAll, List.foldl_append, ← hstate, ← hnext]
        exact hfinal
      · rw [Framing.feedAll, ← hnext]
        exact hrest

/-! ## Bounds on the unread bytes -/

/-- Less than a payload of at most 64 MiB is unread behind a header, or less than a header. -/
def UnreadBounded (receiver : Receiver State) : Prop :=
  (receiver.reader.gotHeader = true ∧
    (receiver.input.length : Int) < receiver.reader.packetHeader.dataLen.toInt ∧
    receiver.reader.packetHeader.dataLen ≤ 0x4000000) ∨
  (receiver.reader.gotHeader = false ∧ receiver.input.length < 16)

theorem unreadBounded_iff (streamer : Streamer Body) {receiver : Receiver State}
    (hsettled : Settled receiver.reader receiver.input) :
    UnreadBounded receiver ↔
      streamer.framing.Bounded receiver.reader.pending receiver.input := by
  obtain ⟨⟨gotHeader, header⟩, state, input⟩ := receiver
  cases gotHeader with
  | false => simp [UnreadBounded, Reader.pending, Framing.Bounded, streamer.framing_headerSize]
  | true =>
      have hvalid := (hsettled header rfl).1
      have hint := hvalid.toInt
      simp only [UnreadBounded, Reader.pending, if_true, Framing.Bounded,
        streamer.framing_bodyLength, PacketHeader.bodyLength, Bool.true_eq_false, false_and,
        or_false, true_and, hvalid.2, and_true]
      omega

/-- After every return of `OnMessage` the unread bytes are bounded. -/
def StaysBounded (step : Receiver State → Bytes → Option (Receiver State))
    (start : Receiver State) (chunks : List Bytes) : Prop :=
  ∀ before chunk later, chunks = before ++ chunk :: later → ∃ receiver,
    run step start (before ++ [chunk]) = some receiver ∧ UnreadBounded receiver

/-- Every call of `OnMessage` finds clean bytes: each complete payload passes
the length check, and less than a header stands behind a malformed header. -/
def StaysClean (streamer : Streamer Body)
    (step : Receiver State → Bytes → Option (Receiver State)) (start : Receiver State)
    (chunks : List Bytes) : Prop :=
  ∀ before chunk later receiver, chunks = before ++ chunk :: later →
    run step start before = some receiver →
    streamer.framing.Clean lengthCheck receiver.reader.pending (receiver.input ++ chunk)

theorem staysBounded_iff_staysClean (hmode : streamer.existPacketHeader)
    (htakes : TakesPayload handlePacket handleFrame) {start : Receiver State}
    (hsettled : Settled start.reader start.input) (chunks : List Bytes) :
    StaysBounded (onMessage streamer handlePacket) start chunks ↔
      StaysClean streamer (onMessage streamer handlePacket) start chunks := by
  have hstep : ∀ before chunk receiver,
      run (onMessage streamer handlePacket) start before = some receiver →
      ((∃ next, run (onMessage streamer handlePacket) start (before ++ [chunk]) = some next ∧
        UnreadBounded next) ↔
      streamer.framing.Clean lengthCheck receiver.reader.pending (receiver.input ++ chunk)) := by
    intro before chunk receiver hrun
    obtain ⟨reached, hreached, -, -, hsettled'⟩ :=
      run_onMessage_eq_feedAll hmode hsettled before (htakes.feedAll hsettled _ before)
    obtain rfl : receiver = reached := Option.some.inj (hrun.symm.trans hreached)
    obtain ⟨next, hnext, -, hrest, hsettled''⟩ :=
      onMessage_eq_feed hmode hsettled' chunk (htakes.feed hsettled' _ chunk)
    have hconcat := run_concat hrun hnext
    rw [Framing.clean_iff_bounded lengthCheck_sound]
    have hbounded := unreadBounded_iff streamer hsettled''
    rw [(Prod.mk.inj hrest).1, (Prod.mk.inj hrest).2] at hbounded
    rw [← hbounded]
    constructor
    · rintro ⟨other, hother, hunread⟩
      obtain rfl : next = other := Option.some.inj (hconcat.symm.trans hother)
      exact hunread
    · exact fun hunread => ⟨next, hconcat, hunread⟩
  constructor
  · intro hbounded before chunk later receiver hsplit hrun
    exact (hstep before chunk receiver hrun).mp (hbounded before chunk later hsplit)
  · intro hclean before chunk later hsplit
    obtain ⟨receiver, hrun, -⟩ :=
      run_onMessage_eq_feedAll hmode hsettled before (htakes.feedAll hsettled _ before)
    exact (hstep before chunk receiver hrun).mpr
      (hclean before chunk later receiver hsplit hrun)

/-- Below `2 ^ 31` unread bytes the length check is exact. -/
theorem stepFits_of_lt (streamer : Streamer Body) {state : Option PacketHeader × Bytes}
    {chunk : Bytes} (hlt : (state.2 ++ chunk).length < 2 ^ 31) :
    streamer.framing.StepFits lengthCheck state chunk :=
  Framing.allFit_of_lt lengthCheck_exact hlt

end Loop

end Wnet
