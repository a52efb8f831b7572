import Wnet.Packet.Encoding
import Wnet.Session.Completion

/-!
# What a session sends

The bytes in `output_` are whole frames, each of a packet that some call of
`PostPacket` was given, under the identifier of the channel that was allocated
for it. Whatever is handed to the connection is handed over with all of them, so
that the connection carries nothing but whole request frames.
-/

namespace Wnet

open Foundation

variable {Body : Type*}

namespace Streamer

/-- A packet whose own `Encode` appends its payload, of a size that receivers accept. -/
structure Appends (streamer : Streamer Body) (payload : Packet Body → Bytes)
    (packet : Packet Body) : Prop where
  encode : ∀ output, streamer.encodePacket packet output = (true, output ++ payload packet)
  size : (payload packet).length ≤ 0x4000000

/-- The frame of a packet: its header, with the length of the payload, and the payload. -/
def frameOf (payload : Packet Body → Bytes) (packet : Packet Body) : PacketHeader × Bytes :=
  ({ packet.header with dataLen := Int32.ofNat (payload packet).length }, payload packet)

variable {streamer : Streamer Body} {payload : Packet Body → Bytes} {packet : Packet Body}

theorem Appends.wellFormed (happends : streamer.Appends payload packet) :
    streamer.framing.WellFormed streamer.encodeHeader (frameOf payload packet) := by
  have hsize := happends.size
  have hint : (Int32.ofNat (payload packet).length).toInt = (payload packet).length :=
    toInt_ofNat_of_lt (by omega)
  refine streamer.wellFormed ⟨?_, ?_⟩ ?_
  · rw [Int32.le_iff_toInt_le]
    dsimp only [frameOf]
    rw [hint]
    exact Int.natCast_nonneg _
  · rw [Int32.le_iff_toInt_le]
    dsimp only [frameOf]
    rw [hint]
    change ((payload packet).length : Int) ≤ 0x4000000
    omega
  · simp only [PacketHeader.bodyLength, hint, Int.toNat_natCast]

/-- `Encode` appends the frame. -/
theorem Appends.encode_eq (happends : streamer.Appends payload packet)
    (hmode : streamer.existPacketHeader) {output : Bytes} (hroom : output.length + 16 < 2 ^ 31) :
    ∃ sent, streamer.encode packet output =
      (true, sent, output ++
        Framing.frameBytes streamer.encodeHeader (frameOf payload packet)) := by
  rw [encode_frame streamer (happends.encode _) fun _ => by omega]
  simp only [frame, hmode, if_true]
  exact ⟨_, rfl⟩

end Streamer

/-- The packet of a request under the identifier of a channel. -/
def Request.addressed (request : Request Body) (chid : UInt32) : Packet Body :=
  { request.packet with header := { request.packet.header with chid := chid } }

variable {config : Config Body} {session session' : Session Body} {call : Nat}

namespace Session

/-- A packet that some call of `PostPacket` was given, under the identifier of the channel
allocated for that call. -/
def Posts (session : Session Body) (packet : Packet Body) : Prop :=
  ∃ call request channel, (session.calls call).request = some request ∧
    session.allocated call = some (channel, packet.header.chid) ∧
    packet = request.addressed packet.header.chid

/-! ## What a piece does with packets and bytes -/

/-- A packet that is about to be encoded: its own call has it, or the queue. -/
def InHand (session : Session Body) (packet : Posted Body) : Prop :=
  (∃ call request, session.calls call = .postPacket request (.filled packet)) ∨
    packet ∈ session.outputQueue

/-- What happens to the output buffer: nothing, a packet is encoded, or all is sent. -/
inductive Flow (config : Config Body) (session next : Session Body) : Prop
  | keep (houtput : next.output = session.output) (hframes : next.frames = session.frames)
      (htransmitted : next.transmitted = session.transmitted)
  | encode (packet : Posted Body) (hpacket : session.InHand packet)
      (houtput : next.output = (session.encode config packet).output)
      (hframes : next.frames = (session.encode config packet).frames)
      (htransmitted : next.transmitted = session.transmitted)
  | send (houtput : next.output = []) (hframes : next.frames = [])
      (htransmitted : next.transmitted = session.transmitted ++ session.frames)

/-- What the piece of a call does with the requests: the call keeps its own, a packet is
filled in by its own call, and only such a packet comes into the queue. -/
structure Carries (config : Config Body) (session next : Session Body) (call : Nat) : Prop where
  calls : ∃ activity, next.calls = Function.update session.calls call activity ∧
    (session.calls call = .idle ∨ activity.request = (session.calls call).request) ∧
    (∀ request packet channel, activity = .postPacket request (.allocated packet channel) →
      packet.packet = request.packet) ∧
    ∀ request packet, activity = .postPacket request (.filled packet) →
      ∃ before channel, session.calls call = .postPacket request (.allocated before channel) ∧
        packet.packet = { before.packet with
          header := { before.packet.header with chid := packet.packet.header.chid } }
  queue : ∀ packet ∈ next.outputQueue, packet ∈ session.outputQueue ∨
    ∃ request, session.calls call = .postPacket request (.filled packet)
  allocated : next.allocated = session.allocated ∨
    (session.calls call).allocates = false ∧
      ∃ entry, next.allocated = Function.update session.allocated call entry
  flow : Flow config session next

theorem encode_congr (config : Config Body) (session session' : Session Body)
    (packet : Posted Body) (houtput : session'.output = session.output)
    (hframes : session'.frames = session.frames) :
    (session'.encode config packet).output = (session.encode config packet).output ∧
      (session'.encode config packet).frames = (session.encode config packet).frames := by
  unfold encode
  rw [houtput, hframes]
  split <;> exact ⟨rfl, rfl⟩

theorem send_flow (session : Session Body) (packet : Posted Body) {next : Session Body}
    (houtput : next.output = (session.send packet).output)
    (hframes : next.frames = (session.send packet).frames)
    (htransmitted : next.transmitted = (session.send packet).transmitted) :
    Flow config session next := by
  by_cases hsend : session.output ≠ [] ∧ session.connected
  · have hsent : session.send packet =
        { session.free packet with
          output := []
          frames := []
          transmitted := session.transmitted ++ session.frames } := if_pos hsend
    rw [hsent] at houtput hframes htransmitted
    exact .send houtput hframes htransmitted
  · have hkept : session.send packet = session.free packet := if_neg hsend
    rw [hkept] at houtput hframes htransmitted
    exact .keep houtput hframes htransmitted

section Pieces

/-- A call goes on with neither a packet nor the output buffer touched. -/
theorem Carries.stage {middle : Session Body} {before activity : Activity Body}
    (hcall : session.calls call = before) (hcalls : middle.calls = session.calls)
    (hrequest : before = .idle ∨ activity.request = before.request)
    (hplain : ∀ request stage, activity = .postPacket request stage →
      (∀ packet channel, stage ≠ .allocated packet channel) ∧ ∀ packet, stage ≠ .filled packet)
    (hqueue : ∀ packet ∈ middle.outputQueue, packet ∈ session.outputQueue ∨
      ∃ request, session.calls call = .postPacket request (.filled packet))
    (hallocated : middle.allocated = session.allocated) (hflow : Flow config session middle) :
    Carries config session (middle.become call activity) call where
  calls := by
    refine ⟨activity, by rw [become, hcalls], hcall ▸ hrequest, ?_, ?_⟩
    · exact fun request packet channel hactivity =>
        absurd rfl ((hplain request _ hactivity).1 packet channel)
    · exact fun request packet hactivity =>
        absurd rfl ((hplain request _ hactivity).2 packet)
  queue := hqueue
  allocated := Or.inl hallocated
  flow := by
    cases hflow with
    | keep houtput hframes htransmitted => exact .keep houtput hframes htransmitted
    | encode packet hpacket houtput hframes htransmitted =>
        exact .encode packet hpacket houtput hframes htransmitted
    | send houtput hframes htransmitted => exact .send houtput hframes htransmitted

theorem postPacket_carries {request : Request Body} {stage : PostStage Body}
    (hmode : config.streamer.existPacketHeader = true)
    (hcall : session.calls call = .postPacket request stage)
    (hnext : session.postPacket config call request stage = some session') :
    Carries config session session' call := by
  have hold : ∀ packet ∈ session.outputQueue, packet ∈ session.outputQueue ∨
      ∃ request, session.calls call = .postPacket request (.filled packet) :=
    fun packet hpacket => Or.inl hpacket
  cases postPacket_cases hnext with
  | allocate hheader halloc =>
      refine ⟨⟨_, rfl, ?_, ?_, ?_⟩, hold, Or.inr ⟨?_, _, rfl⟩, .keep rfl rfl rfl⟩
      · exact Or.inr (hcall ▸ rfl)
      · intro other packet channel hactivity
        obtain ⟨rfl, hstage⟩ := Activity.postPacket.inj hactivity
        obtain ⟨rfl, -⟩ := PostStage.allocated.inj hstage
        rfl
      · intro other packet hactivity
        cases hactivity
      · rw [hcall]
        rfl
  | withoutChannel hheader => exact absurd (hmode.symm.trans hheader) (by simp)
  | @fill packet channel =>
      refine ⟨⟨_, rfl, ?_, ?_, ?_⟩, hold, Or.inl rfl, .keep rfl rfl rfl⟩
      · exact Or.inr (hcall ▸ rfl)
      · intro other own channel' hactivity
        cases hactivity
      · intro other own hactivity
        obtain ⟨rfl, hstage⟩ := Activity.postPacket.inj hactivity
        obtain rfl := PostStage.filled.inj hstage
        exact ⟨packet, channel, hcall, rfl⟩
  | @encode packet hmutex hconnected =>
      have hspec := encode_spec config { session with mutex := some call } packet
      obtain ⟨houtput, hframes⟩ := encode_congr config session
        { session with mutex := some call } packet rfl rfl
      refine .stage hcall (encode_calls _ config packet) (Or.inr rfl) (by simp) ?_
        hspec.allocated
        (.encode packet (Or.inl ⟨call, request, hcall⟩) houtput hframes hspec.transmitted)
      rw [hspec.outputQueue]
      exact hold
  | @push packet hmutex hconnected =>
      refine .stage hcall rfl (Or.inr rfl) (by simp) ?_ rfl (.keep rfl rfl rfl)
      intro other hother
      rcases List.mem_append.mp hother with hqueued | hpushed
      · exact Or.inl hqueued
      · exact Or.inr ⟨request, by rw [List.mem_singleton.mp hpushed, hcall]⟩
  | @send packet =>
      refine .stage hcall (send_calls session packet) (Or.inr rfl) (by simp) ?_
        (send_spec session packet).allocated (send_flow session packet rfl rfl rfl)
      change ∀ other ∈ (session.send packet).outputQueue, _
      rw [(send_spec session packet).outputQueue]
      exact hold
  | wait =>
      refine ⟨⟨.postPacket request .posted, ?_, ?_, by simp, by simp⟩, hold, Or.inl rfl,
        .keep rfl rfl rfl⟩
      · rw [← hcall, Function.update_eq_self]
      · exact Or.inr (hcall ▸ rfl)
  | _ => exact .stage hcall rfl (Or.inr rfl) (by simp) hold rfl (.keep rfl rfl rfl)

theorem onConnection_carries {stage : FlushStage Body}
    (hcall : session.calls call = .onConnection stage)
    (hnext : session.onConnection config call stage = some session') :
    Carries config session session' call := by
  have hold : ∀ packet ∈ session.outputQueue, packet ∈ session.outputQueue ∨
      ∃ request, session.calls call = .postPacket request (.filled packet) :=
    fun packet hpacket => Or.inl hpacket
  cases onConnection_cases hnext with
  | @encode packet outputQueue hqueue =>
      have hspec := encode_spec config (session.pop packet outputQueue) packet
      obtain ⟨houtput, hframes⟩ := encode_congr config session
        (session.pop packet outputQueue) packet rfl rfl
      refine .stage hcall (encode_calls _ config packet) (Or.inr rfl) (by simp) ?_
        hspec.allocated
        (.encode packet (Or.inr (hqueue ▸ List.mem_cons_self)) houtput hframes hspec.transmitted)
      rw [hspec.outputQueue]
      exact fun other hother => Or.inl (hqueue ▸ List.mem_cons_of_mem _ hother)
  | unlock hqueue =>
      obtain ⟨total, htotal⟩ := recount_eq config session
      rw [htotal]
      exact .stage hcall rfl (Or.inr rfl) (by simp) hold rfl (.keep rfl rfl rfl)
  | @send packet =>
      refine .stage hcall (send_calls session packet) (Or.inr rfl) (by simp) ?_
        (send_spec session packet).allocated (send_flow session packet rfl rfl rfl)
      rw [(send_spec session packet).outputQueue]
      exact hold
  | _ => exact .stage hcall rfl (Or.inr rfl) (by simp) hold rfl (.keep rfl rfl rfl)

theorem handlePacket_carries {stage : ResponseStage Body}
    (hcall : session.calls call = .handlePacket stage)
    (hnext : session.handlePacket config call stage = some session') :
    Carries config session session' call := by
  cases handlePacket_cases hnext with
  | _ =>
      exact .stage hcall rfl (Or.inr rfl) (by simp)
        (fun packet hpacket => Or.inl hpacket) rfl (.keep rfl rfl rfl)

theorem checkTimeout_carries {now : Int} {stage : TimeoutStage Body}
    (hcall : session.calls call = .checkTimeout now stage)
    (hnext : session.checkTimeout config call now stage = some session') :
    Carries config session session' call := by
  cases checkTimeout_cases hnext with
  | detach hmutex =>
      exact .stage hcall rfl (Or.inr rfl) (by simp)
        (fun packet hpacket => Or.inl ((List.dropWhile_suffix _).subset hpacket))
        rfl (.keep rfl rfl rfl)
  | recount hmutex hover =>
      obtain ⟨total, htotal⟩ := recount_eq config session
      rw [htotal]
      exact .stage hcall rfl (Or.inr rfl) (by simp)
        (fun packet hpacket => Or.inl hpacket) rfl (.keep rfl rfl rfl)
  | _ =>
      exact .stage hcall rfl (Or.inr rfl) (by simp)
        (fun packet hpacket => Or.inl hpacket) rfl (.keep rfl rfl rfl)

theorem start_carries {operation : Operation Body} (hidle : session.calls call = .idle)
    (hnext : session.start config call operation = some session') :
    Carries config session session' call := by
  cases start_cases hnext with
  | _ =>
      exact .stage hidle rfl (Or.inl rfl) (by simp)
        (fun packet hpacket => Or.inl hpacket) rfl (.keep rfl rfl rfl)

end Pieces

/-! ## What a session keeps -/

section Step

variable {payload : Packet Body → Bytes}

/-- The bytes that a step hands to the connection: `Send` empties the buffer, and nothing
else does. -/
def handedOver (session next : Session Body) : Bytes :=
  if next.output = [] then session.output else []

/-- Every packet on its way to the connection is that of a request, the bytes in `output_` are
frames of such packets, and no request is framed twice. -/
structure Outgoing (config : Config Body) (payload : Packet Body → Bytes)
    (session : Session Body) : Prop where
  appends : ∀ call request, (session.calls call).request = some request →
    ∀ chid, config.streamer.Appends payload (request.addressed chid)
  allocated : ∀ call request packet channel,
    session.calls call = .postPacket request (.allocated packet channel) →
    packet.packet = request.packet
  filled : ∀ call request packet, session.calls call = .postPacket request (.filled packet) →
    packet.packet = request.addressed packet.packet.header.chid
  queued : ∀ packet ∈ session.outputQueue, ∃ request,
    (session.calls packet.call).request = some request ∧
      packet.packet = request.addressed packet.packet.header.chid
  output : ∃ packets : List (Packet Body),
    session.output = (packets.map (Streamer.frameOf payload)).flatMap
      (Framing.frameBytes config.streamer.encodeHeader) ∧
    session.frames = packets.map (fun packet => packet.header.chid) ∧
    ∀ packet ∈ packets, session.Posts packet
  distinct : (session.transmitted ++ session.frames).Nodup

theorem outgoing_new (config : Config Body) (payload : Packet Body → Bytes)
    (mem : Ref → Channel) : (new mem : Session Body).Outgoing config payload where
  appends call request hrequest := by cases hrequest
  allocated call request packet channel hcall := by cases hcall
  filled call request packet hcall := by cases hcall
  queued packet hpacket := by cases hpacket
  output := ⟨[], rfl, rfl, by simp⟩
  distinct := List.nodup_nil

theorem Outgoing.appends_of_posts (houtgoing : session.Outgoing config payload)
    {packet : Packet Body} (hposts : session.Posts packet) :
    config.streamer.Appends payload packet := by
  obtain ⟨call, request, channel, hrequest, -, hpacket⟩ := hposts
  rw [hpacket]
  exact houtgoing.appends call request hrequest _

/-- A packet that is about to be encoded carries the channel allocated for its request. -/
theorem Outgoing.posts_of_inHand (houtgoing : session.Outgoing config payload)
    (hattributed : session.Attributed) (hkept : session.Kept config) {packet : Posted Body}
    (hpacket : session.InHand packet) : session.Posts packet.packet := by
  obtain ⟨tokens, use, detached, hledger⟩ := hkept
  rcases hpacket with ⟨call, request, hcall⟩ | hqueued
  · obtain ⟨channel, -, hallocated⟩ := hledger.filled call request packet hcall
    have hown : packet.call = call := hattributed call request _ hcall
    rw [hown] at hallocated
    refine ⟨call, request, channel, ?_, hallocated, houtgoing.filled call request packet hcall⟩
    rw [hcall]
    rfl
  · obtain ⟨channel, -, hallocated⟩ := hledger.addressed packet hqueued
    obtain ⟨request, hrequest, hsame⟩ := houtgoing.queued packet hqueued
    exact ⟨packet.call, request, channel, hrequest, hallocated, hsame⟩

/-- The identifier of a packet that is about to be encoded was not framed before. -/
theorem Kept.unsent_of_inHand (hkept : session.Kept config) (hattributed : session.Attributed)
    {packet : Posted Body} (hpacket : session.InHand packet) :
    packet.packet.header.chid ∉ session.transmitted ++ session.frames := by
  obtain ⟨tokens, use, detached, hledger⟩ := hkept
  -- The token of its channel, which belongs to the call that posted it.
  have htoken : ∃ channel token, tokens channel = some token ∧
      session.allocated token.owner = some (channel, packet.packet.header.chid) ∧
      ((∃ call, token.place = .filled call) ∨ token.place = .queued) := by
    rcases hpacket with ⟨call, request, hcall⟩ | hqueued
    · obtain ⟨channel, hchannel, hallocated⟩ := hledger.filled call request packet hcall
      obtain ⟨held, hholds, -, hheld⟩ := hledger.accounts call
      rw [hcall] at hholds
      obtain ⟨channel', hchannel', rfl⟩ := hholds
      obtain rfl := Option.some.inj (hchannel'.symm.trans hchannel)
      obtain ⟨owner, htoken⟩ :=
        (hheld channel' (.filled call) false rfl).mpr (List.mem_singleton.mpr rfl)
      have howner := (hledger.fits _ _ htoken).own call (Or.inr rfl)
      have hown : packet.call = call := hattributed call request _ hcall
      refine ⟨channel', _, htoken, ?_, Or.inl ⟨call, rfl⟩⟩
      rw [howner, ← hown]
      exact hallocated
    · obtain ⟨channel, hchannel, hallocated⟩ := hledger.addressed packet hqueued
      obtain ⟨token, htoken, hplace⟩ :=
        (hledger.queue channel).mpr ⟨packet, hqueued, hchannel⟩
      refine ⟨channel, token, htoken, ?_, Or.inr hplace⟩
      rw [hledger.queueOwner packet hqueued channel hchannel token htoken]
      exact hallocated
  obtain ⟨channel, token, htoken, hallocated, hplace⟩ := htoken
  have hfits := hledger.fits channel token htoken
  have hunsent : token.place.unsent = true := by
    rcases hplace with ⟨call, hplace⟩ | hplace <;> rw [hplace] <;> rfl
  have hid := (Prod.mk.inj (Option.some.inj (hallocated.symm.trans hfits.allocated))).2
  obtain ⟨-, htransmitted, hframes⟩ := hfits.unsent hunsent
  rw [hid]
  intro hmem
  rcases List.mem_append.mp hmem with hold | hframed
  · exact htransmitted hold
  · obtain ⟨call, hencoded⟩ := hframes hframed
    rcases hplace with ⟨other, hplace⟩ | hplace <;> rw [hplace] at hencoded <;> cases hencoded

section Carried

variable (hcarries : Carries config session session' call)
include hcarries

theorem Carries.request (other : Nat) (request : Request Body)
    (hother : (session.calls other).request = some request) :
    (session'.calls other).request = some request := by
  obtain ⟨activity, hcalls, hrequest, -, -⟩ := hcarries.calls
  rw [hcalls]
  by_cases hsame : other = call
  · subst hsame
    rw [Function.update_self]
    rcases hrequest with hidle | hrequest
    · rw [hidle] at hother
      cases hother
    · exact hrequest.trans hother
  · rwa [Function.update_of_ne hsame]

/-- What was posted stays posted. -/
theorem Carries.posts (hkept : session.Kept config) {packet : Packet Body}
    (hposts : session.Posts packet) : session'.Posts packet := by
  obtain ⟨tokens, use, detached, hledger⟩ := hkept
  obtain ⟨other, request, channel, hrequest, hallocated, hpacket⟩ := hposts
  refine ⟨other, request, channel, hcarries.request other request hrequest, ?_, hpacket⟩
  rcases hcarries.allocated with hsame | ⟨hbefore, entry, hupdate⟩
  · rw [hsame, hallocated]
  · have hne : other ≠ call := by
      rintro rfl
      have hnumbered := hledger.books.numbered other
      rw [hallocated, hbefore] at hnumbered
      cases hnumbered
    rw [hupdate, Function.update_of_ne hne, hallocated]

/-- The frames that a step hands over are those of posted packets, and are recorded in order. -/
theorem Outgoing.carries (houtgoing : session.Outgoing config payload)
    (hmode : config.streamer.existPacketHeader = true) (hattributed : session.Attributed)
    (hkept : session.Kept config) (hroom : session.output.length + 16 < 2 ^ 31)
    (happends : ∀ call request, (session'.calls call).request = some request →
      ∀ chid, config.streamer.Appends payload (request.addressed chid)) :
    session'.Outgoing config payload ∧ ∃ handed : List (Packet Body),
      handedOver session session' = (handed.map (Streamer.frameOf payload)).flatMap
        (Framing.frameBytes config.streamer.encodeHeader) ∧
      session'.transmitted =
        session.transmitted ++ handed.map (fun packet => packet.header.chid) ∧
      ∀ packet ∈ handed, session'.Posts packet := by
  obtain ⟨packets, houtput, hframes, hposts⟩ := houtgoing.output
  obtain ⟨activity, hcalls, -, hfresh, hfilled⟩ := hcarries.calls
  have hkeeps : ∀ packet ∈ packets, session'.Posts packet :=
    fun packet hpacket => hcarries.posts hkept (hposts packet hpacket)
  have hbuffer : (∃ packets : List (Packet Body),
      session'.output = (packets.map (Streamer.frameOf payload)).flatMap
        (Framing.frameBytes config.streamer.encodeHeader) ∧
      session'.frames = packets.map (fun packet => packet.header.chid) ∧
      ∀ packet ∈ packets, session'.Posts packet) ∧ ∃ handed : List (Packet Body),
      handedOver session session' = (handed.map (Streamer.frameOf payload)).flatMap
        (Framing.frameBytes config.streamer.encodeHeader) ∧
      session'.transmitted =
        session.transmitted ++ handed.map (fun packet => packet.header.chid) ∧
      ∀ packet ∈ handed, session'.Posts packet := by
    cases hcarries.flow with
    | keep hsame hsameFrames htransmitted =>
        refine ⟨⟨packets, hsame.trans houtput, hsameFrames.trans hframes, hkeeps⟩, [], ?_,
          by simp [htransmitted], by simp⟩
        rw [handedOver, hsame]
        split
        next hempty => exact hempty
        next => rfl
    | encode packet hpacket hencoded hencodedFrames htransmitted =>
        have hposted := houtgoing.posts_of_inHand hattributed hkept hpacket
        obtain ⟨sent, hencode⟩ :=
          (houtgoing.appends_of_posts hposted).encode_eq hmode hroom
        simp only [encode, hencode, hmode, if_true] at hencoded hencodedFrames
        refine ⟨⟨packets ++ [packet.packet], ?_, ?_, ?_⟩, [], ?_, by simp [htransmitted], by simp⟩
        · rw [hencoded, houtput, List.map_append, List.flatMap_append]
          simp
        · rw [hencodedFrames, hframes]
          simp
        · intro other hother
          rcases List.mem_append.mp hother with hold | hnew
          · exact hkeeps other hold
          · rw [List.mem_singleton.mp hnew]
            exact hcarries.posts hkept hposted
        · rw [handedOver, if_neg]
          · rfl
          · rw [hencoded]
            intro hempty
            have hlength := congrArg List.length hempty
            simp [Framing.frameBytes] at hlength
    | send hempty hnoFrames htransmitted =>
        refine ⟨⟨[], hempty, hnoFrames, by simp⟩, packets, ?_, ?_, hkeeps⟩
        · rw [handedOver, if_pos hempty, houtput]
        · rw [htransmitted, hframes]
  have hdistinct : (session'.transmitted ++ session'.frames).Nodup := by
    cases hcarries.flow with
    | keep hsame hsameFrames htransmitted =>
        rw [htransmitted, hsameFrames]
        exact houtgoing.distinct
    | encode packet hpacket hencoded hencodedFrames htransmitted =>
        obtain ⟨sent, hencode⟩ := (houtgoing.appends_of_posts
          (houtgoing.posts_of_inHand hattributed hkept hpacket)).encode_eq hmode hroom
        simp only [encode, hencode, hmode, if_true] at hencodedFrames
        rw [htransmitted, hencodedFrames, ← List.append_assoc]
        exact houtgoing.distinct.append (List.nodup_singleton _)
          (List.disjoint_singleton.mpr (hkept.unsent_of_inHand hattributed hpacket))
    | send hempty hnoFrames htransmitted =>
        rw [htransmitted, hnoFrames, List.append_nil]
        exact houtgoing.distinct
  refine ⟨⟨happends, ?_, ?_, ?_, hbuffer.1, hdistinct⟩, hbuffer.2⟩
  · intro other request packet channel hother
    rw [hcalls] at hother
    by_cases hsame : other = call
    · rw [hsame, Function.update_self] at hother
      exact hfresh request packet channel hother
    · rw [Function.update_of_ne hsame] at hother
      exact houtgoing.allocated other request packet channel hother
  · intro other request packet hother
    rw [hcalls] at hother
    by_cases hsame : other = call
    · rw [hsame, Function.update_self] at hother
      obtain ⟨before, channel, hcall, hpacket⟩ := hfilled request packet hother
      rw [hpacket, houtgoing.allocated call request before channel hcall]
      rfl
    · rw [Function.update_of_ne hsame] at hother
      exact houtgoing.filled other request packet hother
  · intro packet hpacket
    rcases hcarries.queue packet hpacket with hqueued | ⟨request, hcall⟩
    · obtain ⟨request, hrequest, hsame⟩ := houtgoing.queued packet hqueued
      exact ⟨request, hcarries.request packet.call request hrequest, hsame⟩
    · have hown : packet.call = call := hattributed call request _ hcall
      refine ⟨request, hcarries.request packet.call request ?_,
        houtgoing.filled call request packet hcall⟩
      rw [hown, hcall]
      rfl

end Carried

/-- What moves neither calls nor packets nor the output buffer. -/
theorem Outgoing.ignore (houtgoing : session.Outgoing config payload)
    (hcalls : session'.calls = session.calls) (hallocated : session'.allocated = session.allocated)
    (hqueue : session'.outputQueue = session.outputQueue)
    (houtput : session'.output = session.output) (hframes : session'.frames = session.frames)
    (htransmitted : session'.transmitted = session.transmitted) :
    session'.Outgoing config payload := by
  refine ⟨?_, ?_, ?_, ?_, ?_, by rw [htransmitted, hframes]; exact houtgoing.distinct⟩
  · rw [hcalls]
    exact houtgoing.appends
  · rw [hcalls]
    exact houtgoing.allocated
  · rw [hcalls]
    exact houtgoing.filled
  · rw [hqueue, hcalls]
    exact houtgoing.queued
  · obtain ⟨packets, hpackets, hchids, hposts⟩ := houtgoing.output
    refine ⟨packets, houtput.trans hpackets, hframes.trans hchids, fun packet hpacket => ?_⟩
    obtain ⟨call, request, channel, hrequest, hentry, hpacket⟩ := hposts packet hpacket
    exact ⟨call, request, channel, hcalls ▸ hrequest, hallocated ▸ hentry, hpacket⟩

/-- The requests that a label brings can be encoded. -/
def Encodable (config : Config Body) (payload : Packet Body → Bytes) : Label Body → Prop
  | .start _ (.postPacket request) =>
      ∀ chid, config.streamer.Appends payload (request.addressed chid)
  | _ => True

/-- What a step does to the requests on their way, and what it hands to the connection. -/
structure Sent (config : Config Body) (payload : Packet Body → Bytes)
    (session next : Session Body) : Prop where
  outgoing : next.Outgoing config payload
  posts : ∀ packet, session.Posts packet → next.Posts packet
  handed : ∃ handed : List (Packet Body),
    handedOver session next = (handed.map (Streamer.frameOf payload)).flatMap
      (Framing.frameBytes config.streamer.encodeHeader) ∧
    next.transmitted = session.transmitted ++ handed.map (fun packet => packet.header.chid) ∧
    ∀ packet ∈ handed, next.Posts packet

theorem handedOver_self {session next : Session Body} (houtput : next.output = session.output) :
    handedOver session next = [] := by
  rw [handedOver, houtput]
  split
  next hempty => exact hempty
  next => rfl

theorem Outgoing.sent (houtgoing : session.Outgoing config payload)
    (hmode : config.streamer.existPacketHeader = true) (hattributed : session.Attributed)
    (hkept : session.Kept config) (hroom : session.output.length + 16 < 2 ^ 31)
    (hcarries : Carries config session session' call)
    (happends : ∀ request, (session'.calls call).request = some request →
      ∀ chid, config.streamer.Appends payload (request.addressed chid)) :
    Sent config payload session session' := by
  have hall : ∀ other request, (session'.calls other).request = some request →
      ∀ chid, config.streamer.Appends payload (request.addressed chid) := by
    intro other request hrequest
    by_cases hsame : other = call
    · exact happends request (hsame ▸ hrequest)
    · obtain ⟨activity, hcalls, -, -, -⟩ := hcarries.calls
      rw [hcalls, Function.update_of_ne hsame] at hrequest
      exact houtgoing.appends other request hrequest
  obtain ⟨hnext, hhanded⟩ :=
    houtgoing.carries hcarries hmode hattributed hkept hroom hall
  exact ⟨hnext, fun packet hposts => hcarries.posts hkept hposts, hhanded⟩

/-- Every step of a session hands whole request frames to the connection, or nothing. -/
theorem step_sent {label : Label Body} (hmode : config.streamer.existPacketHeader = true)
    (houtgoing : session.Outgoing config payload) (hattributed : session.Attributed)
    (hkept : session.Kept config) (hroom : session.output.length + 16 < 2 ^ 31)
    (hencodable : Encodable config payload label)
    (hstep : session.step config label = some session') :
    Sent config payload session session' := by
  -- A call that goes on has the request that it had.
  have hgoesOn : ∀ {call : Nat}, session.calls call ≠ .idle →
      Carries config session session' call → Sent config payload session session' := by
    intro call hbusy hcarries
    refine houtgoing.sent hmode hattributed hkept hroom hcarries fun request hrequest => ?_
    obtain ⟨activity, hcalls, hsame, -, -⟩ := hcarries.calls
    rw [hcalls, Function.update_self, hsame.resolve_left hbusy] at hrequest
    exact houtgoing.appends call request hrequest
  cases step_cases hstep with
  | @start call operation next hidle hnext =>
      refine houtgoing.sent hmode hattributed hkept hroom (start_carries hidle hnext) ?_
      intro request hrequest
      cases start_cases hnext with
      | reject | enter =>
          simp only [become, returnPost, Function.update_self, Activity.request,
            Option.some.injEq] at hrequest
          exact hrequest ▸ hencodable
      | _ => simp [become, Activity.request] at hrequest
  | postPacket hcall hnext => exact hgoesOn (by simp [hcall]) (postPacket_carries hmode hcall hnext)
  | onConnection hcall hnext => exact hgoesOn (by simp [hcall]) (onConnection_carries hcall hnext)
  | handlePacket hcall hnext => exact hgoesOn (by simp [hcall]) (handlePacket_carries hcall hnext)
  | checkTimeout hcall hnext => exact hgoesOn (by simp [hcall]) (checkTimeout_carries hcall hnext)
  | connectionLost | loopStop | setClock | allocElsewhere =>
      refine ⟨houtgoing.ignore rfl rfl rfl rfl rfl rfl, fun packet hposts => hposts, [],
        handedOver_self rfl, by simp, by simp⟩

theorem Carries.idle (hcarries : Carries config session session' call) {other : Nat}
    (hidle : session.calls other = .idle) (hne : other ≠ call) : session'.calls other = .idle := by
  obtain ⟨activity, hcalls, -⟩ := hcarries.calls
  rw [hcalls, Function.update_of_ne hne, hidle]

/-- A call that is not begun stays idle. -/
theorem step_idle {label : Label Body} (hmode : config.streamer.existPacketHeader = true)
    {other : Nat} (hidle : session.calls other = .idle)
    (hbegins : ∀ operation, label ≠ .start other operation)
    (hstep : session.step config label = some session') : session'.calls other = .idle := by
  -- A call that goes on is not the idle one.
  have hgoesOn : ∀ {call : Nat}, session.calls call ≠ .idle → Carries config session session' call →
      session'.calls other = .idle := by
    intro call hbusy hcarries
    exact hcarries.idle hidle fun hsame => hbusy (hsame ▸ hidle)
  cases step_cases hstep with
  | @start call operation next hfree hnext =>
      exact (start_carries hfree hnext).idle hidle fun hsame => hbegins operation (hsame ▸ rfl)
  | postPacket hcall hnext => exact hgoesOn (by simp [hcall]) (postPacket_carries hmode hcall hnext)
  | onConnection hcall hnext => exact hgoesOn (by simp [hcall]) (onConnection_carries hcall hnext)
  | handlePacket hcall hnext => exact hgoesOn (by simp [hcall]) (handlePacket_carries hcall hnext)
  | checkTimeout hcall hnext => exact hgoesOn (by simp [hcall]) (checkTimeout_carries hcall hnext)
  | connectionLost | loopStop | setClock | allocElsewhere => exact hidle

/-- The first piece of a call hands nothing to the connection. -/
theorem step_start_sent {operation : Operation Body}
    (hstep : session.step config (.start call operation) = some session') :
    session'.output = session.output ∧ session'.transmitted = session.transmitted := by
  cases step_cases hstep with
  | start hidle hnext =>
      cases start_cases hnext with
      | _ => exact ⟨rfl, rfl⟩

end Step

end Session

end Wnet
