import Wnet.Evpp.ByteQueue
import Wnet.Packet.MessageLoop

/-!
# Receiving into a buffer

`OnMessage` works on an `evpp::Buffer` that `ReadFromFD` has filled. Its loop does to the
buffer what the loop on lists of bytes does to the unread bytes, call after call, as long as
a connection has less than `2 ^ 32` unread bytes.
-/

namespace Wnet

open Foundation

/-! ## Reading -/

theorem Evpp.ByteQueue.drain_contents (queue : Evpp.ByteQueue) (len : Nat) :
    (queue.drain len).contents = Wnet.Buffer.skip queue.contents len := by
  rw [Evpp.ByteQueue.drain, Wnet.Buffer.skip]
  split <;> rfl

namespace Evpp.Buffer

/-- The queue that is in a buffer. -/
def queue (buffer : Evpp.Buffer) : Evpp.ByteQueue where
  contents := buffer.contents
  reserved := buffer.reservedPrependSize
  room := 0
  behind := []

variable (buffer : Evpp.Buffer)

theorem follows_queue : Evpp.Follows buffer.queue buffer :=
  ⟨rfl, Nat.zero_le _, Nat.zero_le _, rfl⟩

/-- On the unread bytes `Skip` is the function on lists. -/
theorem skip_spec (len : Nat) : ∃ after,
    buffer.skip len = some after ∧ after.contents = Wnet.Buffer.skip buffer.contents len := by
  obtain ⟨after, hskip, -, hfollows⟩ := buffer.follows_queue.drain len
  exact ⟨after, hskip, hfollows.contents.trans (buffer.queue.drain_contents len)⟩

theorem next_spec (len : Nat) : ∃ after,
    buffer.next len = some (after, buffer.contents.take len) ∧
      after.contents = Wnet.Buffer.skip buffer.contents len := by
  obtain ⟨after, -, hnext, hfollows⟩ := buffer.follows_queue.drain len
  exact ⟨after, hnext, hfollows.contents.trans (buffer.queue.drain_contents len)⟩

theorem readInt32_spec (hlong : 4 ≤ buffer.contents.length) : ∃ after,
    buffer.readInt32 = some (after, (Wnet.Buffer.readInt32 buffer.contents).1) ∧
      after.contents = (Wnet.Buffer.readInt32 buffer.contents).2 := by
  obtain ⟨after, hskip, hcontents⟩ := buffer.skip_spec 4
  refine ⟨after, ?_, hcontents⟩
  rw [readInt32, peekInt32, if_pos (buffer.length_contents ▸ hlong), Option.bind_eq_bind,
    Option.bind_some, hskip]
  rfl

theorem readFromFD_spec {memory : Nat → UInt8} {bytes : Bytes}
    (hbound : buffer.contents.length + bytes.length < 2 ^ 32) : ∃ after,
    buffer.readFromFD memory bytes = some after ∧ after.contents = buffer.contents ++ bytes := by
  obtain ⟨after, hread, hfollows⟩ : ∃ after, buffer.readFromFD memory bytes = some after ∧
      Evpp.Follows (buffer.queue.put (buffer.contents ++ bytes)) after :=
    buffer.follows_queue.readFromFD (if_pos hbound)
  exact ⟨after, hread, hfollows.contents⟩

end Evpp.Buffer

/-! ## The loop -/

section Loop

variable {Body State : Type*} (streamer : Streamer Body)

/-- `GetPacketInfo` on a buffer: what it returns, `broken`, the header and the buffer. -/
def Streamer.getPacketInfoFrom (input : Evpp.Buffer) (header : PacketHeader) :
    Option (Bool × Bool × PacketHeader × Evpp.Buffer) :=
  if streamer.existPacketHeader then
    if input.length < 16 then some (false, false, header, input)
    else do
      let (input, flag) ← input.readInt32
      let (input, chid) ← input.readInt32
      let (input, pcode) ← input.readInt32
      let (input, dataLen) ← input.readInt32
      let broken := flag ≠ streamer.nPacketFlag ∨ dataLen < 0 ∨ dataLen > 0x4000000
      some (true, broken, ⟨chid.toUInt32, pcode, dataLen⟩, input)
  else if input.length = 0 then some (false, false, header, input)
  else some (true, false, header, input)

theorem Streamer.getPacketInfoFrom_spec (input : Evpp.Buffer) (header : PacketHeader) :
    ∃ after, streamer.getPacketInfoFrom input header =
        some ((streamer.getPacketInfo input.contents header).got,
          (streamer.getPacketInfo input.contents header).broken,
          (streamer.getPacketInfo input.contents header).header, after) ∧
      after.contents = (streamer.getPacketInfo input.contents header).input := by
  have hlength := input.length_contents
  rw [getPacketInfoFrom, getPacketInfo, hlength]
  by_cases hmode : streamer.existPacketHeader
  · rw [if_pos hmode, if_pos hmode]
    by_cases hshort : input.length < 16
    · rw [if_pos hshort, if_pos hshort]
      exact ⟨input, rfl, rfl⟩
    · have hleft : ∀ bytes : Bytes, (Buffer.readInt32 bytes).2.length = bytes.length - 4 := by
        intro bytes
        rw [Buffer.readInt32, Buffer.skip_eq_drop, List.length_drop]
      rw [← hlength] at hshort
      obtain ⟨first, hfirst, hflag⟩ := input.readInt32_spec (by omega)
      obtain ⟨second, hsecond, hchid⟩ := first.readInt32_spec (by rw [hflag, hleft]; omega)
      rw [hflag] at hsecond hchid
      obtain ⟨third, hthird, hpcode⟩ := second.readInt32_spec (by rw [hchid, hleft, hleft]; omega)
      rw [hchid] at hthird hpcode
      obtain ⟨fourth, hfourth, hdataLen⟩ := third.readInt32_spec
        (by rw [hpcode, hleft, hleft, hleft]; omega)
      rw [hpcode] at hfourth hdataLen
      rw [← hlength, if_neg hshort, if_neg hshort, hfirst]
      simp only [Option.bind_eq_bind, Option.bind_some, hsecond, hthird, hfourth]
      exact ⟨fourth, rfl, hdataLen⟩
  · rw [if_neg hmode, if_neg hmode]
    by_cases hempty : input.length = 0
    · rw [if_pos hempty, if_pos hempty]
      exact ⟨input, rfl, rfl⟩
    · rw [if_neg hempty, if_neg hempty]
      exact ⟨input, rfl, rfl⟩

variable (handlePacket : State → Evpp.Buffer → PacketHeader → Option (State × Evpp.Buffer))

/-- The loop of `OnMessage` on a buffer. -/
def messageLoopFrom : Nat → Reader → State → Evpp.Buffer → Option (Reader × State × Evpp.Buffer)
  | 0, _, _, _ => none
  | fuel + 1, reader, state, input =>
      if input.length > 0 then
        (if reader.gotHeader then some (true, false, reader.packetHeader, input)
          else streamer.getPacketInfoFrom input reader.packetHeader).bind
          fun (got, broken, header, input) =>
            if broken then some (⟨false, header⟩, state, input)
            else if got ∧ lengthCheck input.length header then
              (handlePacket state input header).bind fun (state, input) =>
                messageLoopFrom fuel ⟨false, { header with dataLen := 0 }⟩ state input
            else some (⟨got, header⟩, state, input)
      else some (reader, state, input)

/-- What an iteration of the loop knows about the next packet. -/
def Streamer.infoOf (reader : Reader) (input : Bytes) : Streamer.Info :=
  if reader.gotHeader then ⟨true, false, reader.packetHeader, input⟩
  else streamer.getPacketInfo input reader.packetHeader

/-- The handler does to the buffer what a handler on lists does to the unread bytes. -/
def HandlesAs (handleBytes : State → Bytes → PacketHeader → State × Bytes) : Prop :=
  ∀ state input header, ∃ after,
    handlePacket state input header = some ((handleBytes state input.contents header).1, after) ∧
      after.contents = (handleBytes state input.contents header).2

variable {streamer handlePacket} {handleBytes : State → Bytes → PacketHeader → State × Bytes}

theorem messageLoop_infoOf (fuel : Nat) (reader : Reader) (state : State) (input : Bytes) :
    messageLoop streamer handleBytes (fuel + 1) reader state input =
      if input.length > 0 then
        if (streamer.infoOf reader input).broken then
          some (⟨false, (streamer.infoOf reader input).header⟩, state,
            (streamer.infoOf reader input).input)
        else if (streamer.infoOf reader input).got ∧ lengthCheck
            (streamer.infoOf reader input).input.length (streamer.infoOf reader input).header then
          messageLoop streamer handleBytes fuel
            ⟨false, { (streamer.infoOf reader input).header with dataLen := 0 }⟩
            (handleBytes state (streamer.infoOf reader input).input
              (streamer.infoOf reader input).header).1
            (handleBytes state (streamer.infoOf reader input).input
              (streamer.infoOf reader input).header).2
        else
          some (⟨(streamer.infoOf reader input).got, (streamer.infoOf reader input).header⟩, state,
            (streamer.infoOf reader input).input)
      else some (reader, state, input) := rfl

theorem messageLoopFrom_refines (hhandles : HandlesAs handlePacket handleBytes) {fuel : Nat}
    {reader last : Reader} {state final : State} {input : Evpp.Buffer} {rest : Bytes}
    (hloop : messageLoop streamer handleBytes fuel reader state input.contents =
      some (last, final, rest)) :
    ∃ after, messageLoopFrom streamer handlePacket fuel reader state input =
      some (last, final, after) ∧ after.contents = rest := by
  induction fuel generalizing reader state input with
  | zero => cases hloop
  | succ fuel ih =>
      rw [messageLoop_infoOf, input.length_contents] at hloop
      rw [messageLoopFrom]
      by_cases hunread : input.length > 0
      · rw [if_pos hunread] at hloop ⊢
        -- What the header says, whether it was read before or is read now.
        obtain ⟨middle, hmiddle, hcontents⟩ : ∃ middle,
            (if reader.gotHeader then some (true, false, reader.packetHeader, input)
              else streamer.getPacketInfoFrom input reader.packetHeader) =
              some ((streamer.infoOf reader input.contents).got,
                (streamer.infoOf reader input.contents).broken,
                (streamer.infoOf reader input.contents).header, middle) ∧
            middle.contents = (streamer.infoOf reader input.contents).input := by
          rw [Streamer.infoOf]
          split
          next => exact ⟨input, rfl, rfl⟩
          next => exact streamer.getPacketInfoFrom_spec input reader.packetHeader
        generalize streamer.infoOf reader input.contents = info at hloop hmiddle hcontents
        rw [hmiddle, Option.bind_some]
        dsimp only
        rw [← hcontents] at hloop
        split
        next hbroken =>
          rw [if_pos hbroken] at hloop
          obtain ⟨rfl, hrest⟩ := Prod.mk.inj (Option.some.inj hloop)
          obtain ⟨rfl, rfl⟩ := Prod.mk.inj hrest
          exact ⟨middle, rfl, rfl⟩
        next hbroken =>
          rw [if_neg hbroken, middle.length_contents] at hloop
          split
          next harrived =>
            rw [if_pos harrived] at hloop
            obtain ⟨after, hhandled, hafter⟩ := hhandles state middle info.header
            rw [hhandled, Option.bind_some]
            rw [← hafter] at hloop
            exact ih hloop
          next harrived =>
            rw [if_neg harrived] at hloop
            obtain ⟨rfl, hrest⟩ := Prod.mk.inj (Option.some.inj hloop)
            obtain ⟨rfl, rfl⟩ := Prod.mk.inj hrest
            exact ⟨middle, rfl, rfl⟩
      · rw [if_neg hunread] at hloop ⊢
        obtain ⟨rfl, hrest⟩ := Prod.mk.inj (Option.some.inj hloop)
        obtain ⟨rfl, rfl⟩ := Prod.mk.inj hrest
        exact ⟨input, rfl, rfl⟩

/-! ## Chunk after chunk -/

/-- One side of a connection with its buffer. -/
structure BufferReceiver (State : Type*) where
  reader : Reader
  state : State
  input : Evpp.Buffer

variable (streamer handlePacket)

/-- `ReadFromFD` reads a chunk and `OnMessage` is called. -/
def onMessageFrom (memory : Nat → UInt8) (receiver : BufferReceiver State) (chunk : Bytes) :
    Option (BufferReceiver State) :=
  (receiver.input.readFromFD memory chunk).bind fun input =>
    (messageLoopFrom streamer handlePacket (input.length + 2) receiver.reader receiver.state
      input).map fun (reader, state, input) => ⟨reader, state, input⟩

variable (handleBytes)

/-- A chunk arrives while there are less than `2 ^ 32` unread bytes. -/
def onChunk (receiver : Receiver State) (chunk : Bytes) : Option (Receiver State) :=
  if receiver.input.length + chunk.length < 2 ^ 32 then
    onMessage streamer handleBytes receiver chunk
  else none

variable {streamer handlePacket handleBytes}

theorem onMessageFrom_refines (hhandles : HandlesAs handlePacket handleBytes)
    (memory : Nat → UInt8) (start : BufferReceiver State) {chunks : List Bytes}
    {final : Receiver State} (hrun : run (onChunk streamer handleBytes)
      ⟨start.reader, start.state, start.input.contents⟩ chunks = some final) :
    ∃ last, run (onMessageFrom streamer handlePacket memory) start chunks = some last ∧
      final = ⟨last.reader, last.state, last.input.contents⟩ := by
  refine run_simulates (fun (receiver : Receiver State) (concrete : BufferReceiver State) =>
    receiver = ⟨concrete.reader, concrete.state, concrete.input.contents⟩) ?_ rfl hrun
  rintro receiver concrete chunk next rfl hnext
  rw [onChunk] at hnext
  split at hnext
  next hbound =>
    obtain ⟨filled, hread, hfilled⟩ : ∃ filled,
        concrete.input.readFromFD memory chunk = some filled ∧
          filled.contents = concrete.input.contents ++ chunk :=
      concrete.input.readFromFD_spec hbound
    rw [onMessage, Option.map_eq_some_iff] at hnext
    obtain ⟨⟨reader, state, rest⟩, hloop, rfl⟩ := hnext
    dsimp only at hloop
    rw [← hfilled] at hloop
    obtain ⟨after, hafter, hrest⟩ := messageLoopFrom_refines hhandles hloop
    refine ⟨⟨reader, state, after⟩, ?_, by rw [hrest]⟩
    rw [onMessageFrom, hread, Option.bind_some, ← filled.length_contents, hafter]
    rfl
  next => cases hnext

end Loop

end Wnet
