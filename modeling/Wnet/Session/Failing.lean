import Wnet.Channel.Operations
import Wnet.Server.Failing
import Wnet.Session.Receive

/-!
# Failing responses

A session takes the channel of a response out of use before it decodes the
packet, so a failing response uses up its channel: the handler of the request
gets the bad packet and a later frame for that channel finds nobody. A failing
frame for a channel that is not in use is skipped. Apart from its own channel a
failing response costs nothing if the payload that it rejects was consumed whole.
-/

namespace Wnet

open Foundation

variable {Body : Type*}

/-- The handler and the argument that a response to `id` finds. -/
def ChannelPool.awaits (pool : ChannelPool) (id : UInt32) : Option (Option Nat × Option Nat) :=
  (pool.useMap.lookup id).map fun channel =>
    ((pool.mem channel).handler, (pool.mem channel).args)

/-- The channel that a frame answers. -/
def channelId (frame : PacketHeader × Bytes) : UInt32 := frame.1.chid &&& 0xFFFFFFF

namespace ChannelPool

variable {pool : ChannelPool} {use free : List Ref} {detached : List (List Ref)}
  {loose : List Ref}

theorem awaits_congr {pool' : ChannelPool} {id : UInt32}
    (hlookup : pool'.useMap.lookup id = pool.useMap.lookup id)
    (hcontent : ∀ channel, pool.useMap.lookup id = some channel →
      pool'.content channel = pool.content channel) : pool'.awaits id = pool.awaits id := by
  rw [awaits, awaits, hlookup]
  cases hfound : pool.useMap.lookup id with
  | none => rfl
  | some channel =>
      have hhandler := congrArg Channel.handler (hcontent channel hfound)
      have hargs := congrArg Channel.args (hcontent channel hfound)
      simp only [content, Channel.content] at hhandler hargs
      rw [Option.map_some, Option.map_some, hhandler, hargs]

theorem awaits_offered (id other : UInt32) (channel : Ref) :
    (pool.offered id channel).awaits other = if other = id then none else pool.awaits other := by
  split
  next heq =>
    rw [awaits, offered_useMap, heq, AList.lookup_erase]
    rfl
  next hne =>
    apply awaits_congr
    · rw [offered_useMap, AList.lookup_erase_ne hne]
    · exact fun found _ => offered_content pool id channel found

/-- The last steps of `HandlePacket`: clear the argument of a channel and give it back. -/
def giveBack (pool : ChannelPool) (channel : Ref) : ChannelPool :=
  ((pool.modify channel fun fields => { fields with args := none }).appendChannel channel).1

theorem giveBack_content {channel other : Ref} (hne : other ≠ channel) :
    (pool.giveBack channel).content other = pool.content other := by
  rw [giveBack, appendChannel, pushFree_content, if_neg hne]
  simp [content, modify, hne]

theorem giveBack_useMap (channel : Ref) : (pool.giveBack channel).useMap = pool.useMap := by
  rw [giveBack, appendChannel, (pushFree_frame _ _).1]
  rfl

theorem Layout.giveBack {channel : Ref} (hlayout : pool.Layout use free detached loose)
    (hheld : [channel] ∈ detached) :
    (pool.giveBack channel).Layout use (pool.keptFree free ++ [channel])
      (detached.erase [channel]) (pool.droppedFree free ++ loose) := by
  have hwritten : (pool.modify channel fun fields =>
      { fields with args := none }).Layout use free detached loose := by
    apply hlayout.rewrite
    intro other
    by_cases heq : other = channel <;> simp [heq, next, prev, id]
  exact hwritten.appendChannel hheld

/-- A channel that is held by a call is not in use, so giving it back does not
change what responses find. -/
theorem Layout.awaits_giveBack {channel : Ref} (hlayout : pool.Layout use free detached loose)
    (hheld : [channel] ∈ detached) (id : UInt32) :
    (pool.giveBack channel).awaits id = pool.awaits id := by
  apply awaits_congr
  · rw [giveBack_useMap]
  · intro other hlookup
    apply giveBack_content
    rintro rfl
    have huse := (hlayout.mapSound id other hlookup).1
    exact (hlayout.apart_use huse).2.1 [other] hheld List.mem_cons_self

end ChannelPool

namespace ClientSession

section Failing

variable (streamer : Streamer Body) (defaultPacketHandler : Option Nat)
  (callback : Invocation Body → ChannelPool → ChannelPool)

/-- What is assumed of the handlers where two runs are compared: they use the
pool as its operations do, they treat each channel by itself, and a handler that
gets the bad packet starts nothing new. -/
structure Transparent : Prop where
  layout : ∀ invocation pool use free detached loose,
    ChannelPool.Layout pool use free detached loose → ∃ use' free' loose',
      (callback invocation pool).Layout use' free' detached loose'
  apart : ∀ invocation pool pool' id, pool.awaits id = pool'.awaits id →
    (callback invocation pool).awaits id = (callback invocation pool').awaits id
  bad : ∀ invocation pool id, invocation.packet.isBad →
    (callback invocation pool).awaits id = pool.awaits id

/-- The pool is in order. -/
def HasLayout (pool : ChannelPool) : Prop :=
  ∃ use free detached loose, pool.Layout use free detached loose

/-- Two sessions in which responses find the same, apart from some channels, and
which made the same calls, apart from bad packets. -/
structure AgreeApartFrom (spent : UInt32 → Prop) (state other : ClientState Body) : Prop where
  layout : HasLayout state.pool
  layout' : HasLayout other.pool
  awaits : ∀ id, ¬ spent id → state.pool.awaits id = other.pool.awaits id
  calls : state.invocations.filter (fun invocation => !invocation.packet.isBad) =
    other.invocations

/-- The call that a frame leads to if its channel awaits a response. -/
def invocationOf (awaited : Option Nat × Option Nat) (frame : PacketHeader × Bytes) :
    Invocation Body :=
  ⟨awaited.1.or defaultPacketHandler, streamer.outcome frame, awaited.2⟩

/-- The failing frames of a list whose channel is in use when they are reached. -/
def failingInUse : ClientState Body → List (PacketHeader × Bytes) → Nat
  | _, [] => 0
  | state, frame :: later =>
      (if streamer.fails frame ∧ (state.pool.awaits (channelId frame)).isSome then 1 else 0) +
        failingInUse (handleFrame streamer defaultPacketHandler callback state frame) later

/-- Each failing frame whose channel is in use when it is reached was consumed
whole, and no other frame answers that channel later. -/
def EachWhole : ClientState Body → List (PacketHeader × Bytes) → Prop
  | _, [] => True
  | state, frame :: later =>
      (streamer.fails frame → (state.pool.awaits (channelId frame)).isSome →
        streamer.RejectsWhole frame ∧
          ∀ other ∈ streamer.withoutFailing later, channelId other ≠ channelId frame) ∧
      EachWhole (handleFrame streamer defaultPacketHandler callback state frame) later

variable {streamer defaultPacketHandler callback}

theorem EachWhole.of_isPrefix {first frames : List (PacketHeader × Bytes)}
    {state : ClientState Body} (hstart : first <+: frames)
    (heach : EachWhole streamer defaultPacketHandler callback state frames) :
    EachWhole streamer defaultPacketHandler callback state first := by
  induction first generalizing frames state with
  | nil => trivial
  | cons frame first ih =>
      obtain ⟨later, rfl⟩ := hstart
      rw [List.cons_append] at heach
      refine ⟨fun hfails huse => ?_, ih (List.prefix_append first later) heach.2⟩
      obtain ⟨hwhole, hothers⟩ := heach.1 hfails huse
      refine ⟨hwhole, fun other hother => hothers other ?_⟩
      rw [Streamer.withoutFailing, List.filter_append]
      exact List.mem_append_left _ hother

variable (hmode : streamer.existPacketHeader)
include hmode

theorem handlePacket_unused {state : ClientState Body} {header : PacketHeader}
    (hunused : state.pool.useMap.lookup (header.chid &&& 0xFFFFFFF) = none) (input : Bytes) :
    handlePacket streamer defaultPacketHandler callback state input header =
      ({ state with passed := state.passed ++ [(header, input.take header.bodyLength)] },
        Buffer.skip input (sizeOfInt header.dataLen)) := by
  rw [handlePacket, if_pos hmode]
  dsimp only
  rw [ChannelPool.offerChannel_unmapped hunused]

theorem handlePacket_used {state : ClientState Body} {header : PacketHeader} {channel : Ref}
    (hused : state.pool.useMap.lookup (header.chid &&& 0xFFFFFFF) = some channel)
    (input : Bytes) :
    handlePacket streamer defaultPacketHandler callback state input header =
      (⟨(callback ⟨(state.pool.mem channel).handler.or defaultPacketHandler,
            .ofDecoded header (streamer.decode input header).1, (state.pool.mem channel).args⟩
          (state.pool.offered (header.chid &&& 0xFFFFFFF) channel)).giveBack channel,
        state.invocations ++ [⟨(state.pool.mem channel).handler.or defaultPacketHandler,
          .ofDecoded header (streamer.decode input header).1, (state.pool.mem channel).args⟩],
        state.passed ++ [(header, input.take header.bodyLength)]⟩,
      (streamer.decode input header).2) := by
  have hcontent := state.pool.offered_content (header.chid &&& 0xFFFFFFF) channel channel
  have hhandler := congrArg Channel.handler hcontent
  have hargs := congrArg Channel.args hcontent
  simp only [ChannelPool.content, Channel.content] at hhandler hargs
  rw [handlePacket, if_pos hmode]
  dsimp only
  rw [ChannelPool.offerChannel_mapped hused]
  dsimp only
  rw [hhandler, hargs]
  rfl

theorem handleFrame_unused {state : ClientState Body} {frame : PacketHeader × Bytes}
    (hunused : state.pool.useMap.lookup (channelId frame) = none) :
    handleFrame streamer defaultPacketHandler callback state frame =
      { state with passed := state.passed ++ [frame] } := by
  rw [handleFrame, handlePacket_unused hmode hunused]

theorem handleFrame_used {state : ClientState Body} {frame : PacketHeader × Bytes}
    {channel : Ref} (hused : state.pool.useMap.lookup (channelId frame) = some channel) :
    handleFrame streamer defaultPacketHandler callback state frame =
      ⟨(callback (invocationOf streamer defaultPacketHandler
            ((state.pool.mem channel).handler, (state.pool.mem channel).args) frame)
          (state.pool.offered (channelId frame) channel)).giveBack channel,
        state.invocations ++ [invocationOf streamer defaultPacketHandler
          ((state.pool.mem channel).handler, (state.pool.mem channel).args) frame],
        state.passed ++ [frame]⟩ := by
  rw [handleFrame, handlePacket_used hmode hused]
  rfl

/-- A frame leads to one call if its channel awaits a response, and to none otherwise. -/
theorem invocations_handleFrame (state : ClientState Body) (frame : PacketHeader × Bytes) :
    (handleFrame streamer defaultPacketHandler callback state frame).invocations =
      state.invocations ++ ((state.pool.awaits (channelId frame)).map fun awaited =>
        invocationOf streamer defaultPacketHandler awaited frame).toList := by
  rw [ChannelPool.awaits]
  cases hlookup : state.pool.useMap.lookup (channelId frame) with
  | none =>
      rw [handleFrame_unused hmode hlookup]
      exact (List.append_nil _).symm
  | some channel =>
      rw [handleFrame_used hmode hlookup]
      rfl

/-- The session takes exactly the payload of each frame. -/
theorem takesFrames {frames : List (PacketHeader × Bytes)}
    (hframes : ∀ frame ∈ frames, frame.1.Valid ∧ frame.2.length = frame.1.bodyLength)
    (hwithin : ∀ frame ∈ frames, streamer.DecodesWithin frame) (state : ClientState Body)
    (heach : EachWhole streamer defaultPacketHandler callback state frames) :
    TakesFrames (handlePacket streamer defaultPacketHandler callback)
      (handleFrame streamer defaultPacketHandler callback) state frames := by
  induction frames generalizing state with
  | nil => trivial
  | cons frame frames ih =>
      obtain ⟨hvalid, hlength⟩ := hframes frame List.mem_cons_self
      refine ⟨fun rest => ?_, ?_⟩
      · have htake : (frame.2 ++ rest).take frame.1.bodyLength = frame.2 := by
          rw [← hlength, List.take_left]
        cases hlookup : state.pool.useMap.lookup (channelId frame) with
        | none =>
            rw [handlePacket_unused hmode hlookup, handleFrame_unused hmode hlookup, htake,
              Buffer.skip_eq_drop, sizeOfInt_dataLen hvalid, ← hlength, List.drop_left]
        | some channel =>
            have hwhole : streamer.RejectsWhole frame := by
              by_cases hfails : streamer.fails frame
              · have hused : (state.pool.awaits (channelId frame)).isSome := by
                  rw [ChannelPool.awaits, hlookup]
                  rfl
                exact (heach.1 hfails hused).1
              · exact Streamer.rejectsWhole_of_not_fails hfails
            rw [handlePacket_used hmode hlookup, handleFrame_used hmode hlookup, htake,
              Streamer.decode_frame hvalid hlength (hwithin frame List.mem_cons_self) hwhole]
            rfl
      · exact ih (fun other hother => hframes other (List.mem_cons_of_mem _ hother))
          (fun other hother => hwithin other (List.mem_cons_of_mem _ hother)) _ heach.2

/-- One bad packet for each failing frame whose channel is in use. -/
theorem countP_isBad_foldl_handleFrame (frames : List (PacketHeader × Bytes))
    (state : ClientState Body) :
    (frames.foldl (handleFrame streamer defaultPacketHandler callback) state).invocations.countP
        (fun invocation => invocation.packet.isBad) =
      state.invocations.countP (fun invocation => invocation.packet.isBad) +
        failingInUse streamer defaultPacketHandler callback state frames := by
  induction frames generalizing state with
  | nil => rfl
  | cons frame frames ih =>
      rw [List.foldl_cons, ih, invocations_handleFrame hmode, List.countP_append, failingInUse,
        Nat.add_assoc]
      congr 2
      cases state.pool.awaits (channelId frame) with
      | none => simp
      | some awaited => simp [invocationOf, Streamer.isBad_outcome, List.countP_cons]

/-- What a response finds after another one was handled. -/
theorem awaits_handleFrame (htransparent : Transparent callback) {state : ClientState Body}
    (hlayout : HasLayout state.pool) {frame : PacketHeader × Bytes} {channel : Ref}
    (hused : state.pool.useMap.lookup (channelId frame) = some channel) :
    HasLayout (handleFrame streamer defaultPacketHandler callback state frame).pool ∧
      ∀ id, (handleFrame streamer defaultPacketHandler callback state frame).pool.awaits id =
        (callback (invocationOf streamer defaultPacketHandler
            ((state.pool.mem channel).handler, (state.pool.mem channel).args) frame)
          (state.pool.offered (channelId frame) channel)).awaits id := by
  obtain ⟨use, free, detached, loose, hlayout⟩ := hlayout
  obtain ⟨hmem, hid, -⟩ := hlayout.mapSound _ channel hused
  obtain ⟨before, after, rfl⟩ := List.append_of_mem hmem
  obtain ⟨use', free', loose', hcalled⟩ := htransparent.layout
    (invocationOf streamer defaultPacketHandler
      ((state.pool.mem channel).handler, (state.pool.mem channel).args) frame)
    _ _ _ _ _ (hlayout.offered hid)
  rw [handleFrame_used hmode hused]
  exact ⟨⟨_, _, _, _, hcalled.giveBack List.mem_cons_self⟩,
    hcalled.awaits_giveBack List.mem_cons_self⟩

/-- A failing frame that only the first session receives spends at most its own channel. -/
theorem AgreeApartFrom.failing (htransparent : Transparent callback) {spent : UInt32 → Prop}
    {state other : ClientState Body} (hagree : AgreeApartFrom spent state other)
    {frame : PacketHeader × Bytes} (hfails : streamer.fails frame) :
    AgreeApartFrom
      (fun id => spent id ∨
        (id = channelId frame ∧ (state.pool.awaits (channelId frame)).isSome))
      (handleFrame streamer defaultPacketHandler callback state frame) other := by
  have hcalls : (handleFrame streamer defaultPacketHandler callback state
      frame).invocations.filter (fun invocation => !invocation.packet.isBad) =
        other.invocations := by
    rw [invocations_handleFrame hmode, List.filter_append, hagree.calls]
    cases state.pool.awaits (channelId frame) with
    | none => simp
    | some awaited => simp [invocationOf, Streamer.isBad_outcome, hfails]
  cases hlookup : state.pool.useMap.lookup (channelId frame) with
  | none =>
      rw [handleFrame_unused hmode hlookup] at hcalls ⊢
      exact ⟨hagree.layout, hagree.layout', fun id hid =>
        hagree.awaits id fun hspent => hid (Or.inl hspent), hcalls⟩
  | some channel =>
      obtain ⟨hkept, hafter⟩ := awaits_handleFrame hmode htransparent hagree.layout hlookup
      refine ⟨hkept, hagree.layout', fun id hid => ?_, hcalls⟩
      have hused : (state.pool.awaits (channelId frame)).isSome := by
        rw [ChannelPool.awaits, hlookup]
        rfl
      have hbad : (invocationOf streamer defaultPacketHandler ((state.pool.mem channel).handler,
          (state.pool.mem channel).args) frame).packet.isBad := by
        rw [invocationOf, Streamer.isBad_outcome, hfails]
      rw [not_or] at hid
      rw [hafter, htransparent.bad _ _ id hbad, ChannelPool.awaits_offered,
        if_neg fun heq => hid.2 ⟨heq, hused⟩, hagree.awaits id hid.1]

/-- A frame that both sessions receive leads to the same call. -/
theorem AgreeApartFrom.good (htransparent : Transparent callback) {spent : UInt32 → Prop}
    {state other : ClientState Body} (hagree : AgreeApartFrom spent state other)
    {frame : PacketHeader × Bytes} (hgood : ¬ streamer.fails frame)
    (hunspent : ¬ spent (channelId frame)) :
    AgreeApartFrom spent (handleFrame streamer defaultPacketHandler callback state frame)
      (handleFrame streamer defaultPacketHandler callback other frame) := by
  have hsame := hagree.awaits _ hunspent
  have hcalls : (handleFrame streamer defaultPacketHandler callback state
      frame).invocations.filter (fun invocation => !invocation.packet.isBad) =
        (handleFrame streamer defaultPacketHandler callback other frame).invocations := by
    rw [invocations_handleFrame hmode, invocations_handleFrame hmode, List.filter_append,
      hagree.calls, ← hsame]
    cases state.pool.awaits (channelId frame) with
    | none => simp
    | some awaited => simp [invocationOf, Streamer.isBad_outcome, hgood]
  cases hlookup : state.pool.useMap.lookup (channelId frame) with
  | none =>
      have hlookup' : other.pool.useMap.lookup (channelId frame) = none := by
        simpa [ChannelPool.awaits, hlookup] using hsame.symm
      rw [handleFrame_unused hmode hlookup] at hcalls ⊢
      rw [handleFrame_unused hmode hlookup'] at hcalls ⊢
      exact ⟨hagree.layout, hagree.layout', hagree.awaits, hcalls⟩
  | some channel =>
      obtain ⟨channel', hlookup'⟩ : ∃ channel',
          other.pool.useMap.lookup (channelId frame) = some channel' := by
        cases hfound : other.pool.useMap.lookup (channelId frame) with
        | none => simp [ChannelPool.awaits, hlookup, hfound] at hsame
        | some channel' => exact ⟨channel', rfl⟩
      obtain ⟨hkept, hafter⟩ := awaits_handleFrame hmode htransparent hagree.layout hlookup
      obtain ⟨hkept', hafter'⟩ := awaits_handleFrame hmode htransparent hagree.layout' hlookup'
      refine ⟨hkept, hkept', fun id hid => ?_, hcalls⟩
      simp only [ChannelPool.awaits, hlookup, hlookup', Option.map_some,
        Option.some.injEq] at hsame
      rw [hafter, hafter', hsame]
      apply htransparent.apart
      rw [ChannelPool.awaits_offered, ChannelPool.awaits_offered, hagree.awaits id hid]

/-- Failing frames make no difference to the calls for the others. -/
theorem AgreeApartFrom.foldl (htransparent : Transparent callback)
    (frames : List (PacketHeader × Bytes)) {spent : UInt32 → Prop}
    {state other : ClientState Body} (hagree : AgreeApartFrom spent state other)
    (hunspent : ∀ frame ∈ streamer.withoutFailing frames, ¬ spent (channelId frame))
    (heach : EachWhole streamer defaultPacketHandler callback state frames) :
    (frames.foldl (handleFrame streamer defaultPacketHandler callback) state).invocations.filter
        (fun invocation => !invocation.packet.isBad) =
      ((streamer.withoutFailing frames).foldl
        (handleFrame streamer defaultPacketHandler callback) other).invocations := by
  induction frames generalizing state other spent with
  | nil => exact hagree.calls
  | cons frame frames ih =>
      rw [List.foldl_cons]
      by_cases hfails : streamer.fails frame
      · have hdrop : streamer.withoutFailing (frame :: frames) =
            streamer.withoutFailing frames := by
          apply List.filter_cons_of_neg
          simp [hfails]
        rw [hdrop] at hunspent ⊢
        apply ih (hagree.failing hmode htransparent hfails) _ heach.2
        rintro later hlater (hspent | ⟨heq, hused⟩)
        · exact hunspent later hlater hspent
        · exact (heach.1 hfails hused).2 later hlater heq
      · have hkeep : streamer.withoutFailing (frame :: frames) =
            frame :: streamer.withoutFailing frames := by
          apply List.filter_cons_of_pos
          simp [hfails]
        rw [hkeep] at hunspent ⊢
        rw [List.foldl_cons]
        apply ih (hagree.good hmode htransparent hfails (hunspent frame List.mem_cons_self)) _
          heach.2
        exact fun later hlater => hunspent later (List.mem_cons_of_mem _ hlater)

/-- The session treats each complete frame by itself. -/
theorem run_arrives {frames : List (PacketHeader × Bytes)} {chunks : List Bytes}
    (harrives : streamer.Arrives frames chunks)
    (hwithin : ∀ frame ∈ frames, streamer.DecodesWithin frame) {pool : ChannelPool}
    (heach : EachWhole streamer defaultPacketHandler callback ⟨pool, [], []⟩ frames)
    {before later : List Bytes} (hsplit : chunks = before ++ later) :
    ∃ receiver, run (onMessage streamer defaultPacketHandler callback) (new pool) before =
        some receiver ∧
      receiver.state = (streamer.complete frames before).foldl
        (handleFrame streamer defaultPacketHandler callback) ⟨pool, [], []⟩ := by
  have hstart := streamer.complete_isPrefix frames before
  have htakes := takesFrames hmode
    (fun frame hframe => harrives.valid frame (hstart.subset hframe))
    (fun frame hframe => hwithin frame (hstart.subset hframe)) ⟨pool, [], []⟩
    (heach.of_isPrefix hstart)
  rw [← harrives.feedAll_eq hsplit] at htakes ⊢
  obtain ⟨receiver, hrun, hstate, -⟩ :=
    run_onMessage_eq_feedAll hmode (settled_new pool) before htakes
  exact ⟨receiver, hrun, hstate⟩

omit hmode in
/-- Rejected payloads are consumed whole, and no frame answers the channel of an
earlier failing one. -/
theorem eachWhole_of_pairwise {frames : List (PacketHeader × Bytes)}
    (hwhole : ∀ frame ∈ frames, streamer.RejectsWhole frame)
    (hpairwise : frames.Pairwise fun frame later =>
      streamer.fails frame → channelId later ≠ channelId frame) (state : ClientState Body) :
    EachWhole streamer defaultPacketHandler callback state frames := by
  induction frames generalizing state with
  | nil => trivial
  | cons frame frames ih =>
      rw [List.pairwise_cons] at hpairwise
      refine ⟨fun hfails _ => ⟨hwhole frame List.mem_cons_self, fun other hother => ?_⟩,
        ih (fun other hother => hwhole other (List.mem_cons_of_mem _ hother)) hpairwise.2 _⟩
      exact hpairwise.1 other (List.mem_of_mem_filter hother) hfails

end Failing

/-- After every chunk the session has dispatched one bad packet for each failing
frame whose channel was in use, and, with transparent handlers, the packets that
it would have dispatched had it received only the other frames. -/
def FailingCostThemselves (streamer : Streamer Body) (defaultPacketHandler : Option Nat)
    (callback : Invocation Body → ChannelPool → ChannelPool) (pool : ChannelPool)
    (frames : List (PacketHeader × Bytes)) (chunks : List Bytes) : Prop :=
  ∀ before later, chunks = before ++ later → ∃ receiver,
    run (onMessage streamer defaultPacketHandler callback) (new pool) before = some receiver ∧
    receiver.state.invocations.countP (fun invocation => invocation.packet.isBad) =
      failingInUse streamer defaultPacketHandler callback ⟨pool, [], []⟩
        (streamer.complete frames before) ∧
    (HasLayout pool → Transparent callback → ∀ others,
      streamer.Arrives (streamer.withoutFailing (streamer.complete frames before)) others →
      ∃ other,
        run (onMessage streamer defaultPacketHandler callback) (new pool) others = some other ∧
        receiver.state.invocations.filter (fun invocation => !invocation.packet.isBad) =
          other.state.invocations)

theorem failingCostThemselves {streamer : Streamer Body} {defaultPacketHandler : Option Nat}
    {callback : Invocation Body → ChannelPool → ChannelPool}
    (hmode : streamer.existPacketHeader) {frames : List (PacketHeader × Bytes)}
    {chunks : List Bytes} (harrives : streamer.Arrives frames chunks)
    (hwithin : ∀ frame ∈ frames, streamer.DecodesWithin frame) {pool : ChannelPool}
    (heach : EachWhole streamer defaultPacketHandler callback ⟨pool, [], []⟩ frames) :
    FailingCostThemselves streamer defaultPacketHandler callback pool frames chunks := by
  intro before later hsplit
  have hstart := streamer.complete_isPrefix frames before
  obtain ⟨receiver, hrun, hstate⟩ := run_arrives hmode harrives hwithin heach hsplit
  refine ⟨receiver, hrun, ?_, fun hlayout htransparent others harrives' => ?_⟩
  · rw [hstate, countP_isBad_foldl_handleFrame hmode]
    exact Nat.zero_add _
  · have hgood : ∀ frame ∈ streamer.withoutFailing (streamer.complete frames before),
        ¬ streamer.fails frame := by
      intro frame hframe
      simpa using (List.mem_filter.mp hframe).2
    have hsub : ∀ frame ∈ streamer.withoutFailing (streamer.complete frames before),
        frame ∈ frames := fun frame hframe =>
      hstart.subset (List.mem_of_mem_filter hframe)
    have hothers : EachWhole streamer defaultPacketHandler callback ⟨pool, [], []⟩
        (streamer.withoutFailing (streamer.complete frames before)) := by
      apply eachWhole_of_pairwise
      · exact fun frame hframe => Streamer.rejectsWhole_of_not_fails (hgood frame hframe)
      · exact List.pairwise_of_forall_mem_list fun frame hframe later _ hfails =>
          absurd hfails (hgood frame hframe)
    obtain ⟨other, hother, hstate'⟩ := run_arrives hmode harrives'
      (fun frame hframe => hwithin frame (hsub frame hframe)) hothers
      (List.append_nil others).symm
    refine ⟨other, hother, ?_⟩
    have hagree : AgreeApartFrom (fun _ => False) (⟨pool, [], []⟩ : ClientState Body)
        ⟨pool, [], []⟩ := ⟨hlayout, hlayout, fun _ _ => rfl, rfl⟩
    rw [hstate, hstate', harrives'.complete_eq]
    exact hagree.foldl hmode htransparent _ (fun _ _ => id) (heach.of_isPrefix hstart)

end ClientSession

/-- On a new server connection and on a new session, failing frames cost only
themselves if every rejected payload was consumed whole. On the session this
matters for frames whose channel is in use, and no later frame may answer the
channel that such a frame used up. -/
theorem failing_frames_cost_themselves {streamer : Streamer Body}
    (hmode : streamer.existPacketHeader) {frames : List (PacketHeader × Bytes)}
    {chunks : List Bytes} (harrives : streamer.Arrives frames chunks)
    (hwithin : ∀ frame ∈ frames, streamer.DecodesWithin frame) :
    ((∀ frame ∈ frames, streamer.RejectsWhole frame) → ∀ batchPushPacket packetHeader,
      ServerConnection.FailingCostThemselves streamer batchPushPacket packetHeader frames
        chunks) ∧
    ∀ defaultPacketHandler callback pool,
      ClientSession.EachWhole streamer defaultPacketHandler callback ⟨pool, [], []⟩ frames →
      ClientSession.FailingCostThemselves streamer defaultPacketHandler callback pool frames
        chunks := by
  refine ⟨fun hwhole batchPushPacket packetHeader => ?_,
    fun defaultPacketHandler callback pool heach => ?_⟩
  · exact ServerConnection.failingCostThemselves hmode harrives hwithin hwhole batchPushPacket
      packetHeader
  · exact ClientSession.failingCostThemselves hmode harrives hwithin heach

/-- An application with one kind of packet, which reads a first byte and rejects
the packet if it is zero. -/
def versionedStreamer : Streamer Bytes where
  existPacketHeader := true
  nPacketFlag := qynetPacketFlag
  createPacket := fun pcode => if pcode = 7 then
    some fun header input =>
      if 0 < header.bodyLength ∧ input.head? = some 0 then (none, input.drop 1)
      else (some (input.take header.bodyLength), input.drop header.bodyLength)
    else none
  encodePacket := fun packet output => (true, output ++ packet.body)

theorem versionedStreamer_decodesWithin {frame : PacketHeader × Bytes}
    (hlength : frame.2.length = frame.1.bodyLength) :
    versionedStreamer.DecodesWithin frame := by
  intro decodePacket hcreate
  obtain ⟨header, payload⟩ := frame
  dsimp only at hlength hcreate ⊢
  simp only [versionedStreamer, Option.ite_none_right_eq_some, Option.some.injEq] at hcreate
  obtain ⟨-, rfl⟩ := hcreate
  simp only [← hlength]
  cases payload with
  | nil => exact ⟨0, Nat.le_refl 0, by simp, fun _ => rfl⟩
  | cons first payload =>
      by_cases hzero : first = 0
      · exact ⟨1, by simp, by simp [hzero], by simp [hzero]⟩
      · exact ⟨_, Nat.le_refl _, by simp [hzero], by simp [hzero]⟩

/-- There is nothing left of a payload of at most one byte. -/
theorem versionedStreamer_rejectsWhole {frame : PacketHeader × Bytes}
    (hshort : frame.2.length ≤ 1) : versionedStreamer.RejectsWhole frame := by
  intro decodePacket hcreate hnone
  simp only [versionedStreamer, Option.ite_none_right_eq_some, Option.some.injEq] at hcreate
  obtain ⟨-, rfl⟩ := hcreate
  dsimp only at hnone ⊢
  split at hnone
  next hzero =>
    rw [if_pos hzero]
    exact List.drop_eq_nil_of_le hshort
  next => cases hnone

theorem arrives_singleton {streamer : Streamer Body} {frames : List (PacketHeader × Bytes)}
    (hvalid : ∀ frame ∈ frames, frame.1.Valid ∧ frame.2.length = frame.1.bodyLength)
    (hlt : (frames.flatMap (Framing.frameBytes streamer.encodeHeader)).length < 2 ^ 31) :
    streamer.Arrives frames [frames.flatMap (Framing.frameBytes streamer.encodeHeader)] where
  valid := hvalid
  bytes := by simp
  checks := by
    intro before chunk later hsplit
    cases before with
    | nil =>
        obtain ⟨rfl, -⟩ := List.cons.inj hsplit
        exact stepFits_of_lt streamer hlt
    | cons first before => simp at hsplit

/-- An unknown packet, a packet that is rejected after its only byte, and a good one. -/
def mixedFrames : List (PacketHeader × Bytes) :=
  [(⟨1, 9, 1⟩, [5]), (⟨2, 7, 1⟩, [0]), (⟨3, 7, 0⟩, [])]

/-- A packet that is rejected after the first of its two bytes, and a good one. -/
def desynchronizing : List (PacketHeader × Bytes) :=
  [(⟨1, 7, 2⟩, [0, 5]), (⟨2, 7, 0⟩, [])]

/-- A pool with two channels in use. -/
def twoInUse : ChannelPool :=
  let first := ChannelPool.allocChannel .initial (.new fun _ => ⟨0, none, none, 0, none, none⟩)
  (ChannelPool.allocChannel first.1 first.2.1).2.1

theorem twoInUse_hasLayout : ClientSession.HasLayout twoInUse := by
  obtain ⟨free, hfirst, -⟩ := (ChannelPool.allocChannel_spec .initial (ChannelPool.layout_new
    fun _ => ⟨0, none, none, 0, none, none⟩)).layout
  obtain ⟨free', hsecond, -⟩ := (ChannelPool.allocChannel_spec _ hfirst).layout
  exact ⟨_, _, _, _, hsecond⟩

/-- Handlers that leave the pool alone. -/
theorem transparent_id :
    ClientSession.Transparent (fun (_ : Invocation Body) (pool : ChannelPool) => pool) where
  layout := fun _ _ use free _ loose hlayout => ⟨use, free, loose, hlayout⟩
  apart := fun _ _ _ _ hsame => hsame
  bad := fun _ _ _ _ => rfl

theorem failing_frames_cost_themselves_mixed :
    versionedStreamer.existPacketHeader ∧
    versionedStreamer.Arrives mixedFrames
      [mixedFrames.flatMap (Framing.frameBytes versionedStreamer.encodeHeader)] ∧
    (∀ frame ∈ mixedFrames, versionedStreamer.DecodesWithin frame) ∧
    (∀ frame ∈ mixedFrames, versionedStreamer.RejectsWhole frame) ∧
    ClientSession.EachWhole versionedStreamer (some 0) (fun _ pool => pool) ⟨twoInUse, [], []⟩
      mixedFrames ∧
    (∀ batchPushPacket packetHeader, ServerConnection.FailingCostThemselves versionedStreamer
      batchPushPacket packetHeader mixedFrames
      [mixedFrames.flatMap (Framing.frameBytes versionedStreamer.encodeHeader)]) ∧
    ClientSession.FailingCostThemselves versionedStreamer (some 0) (fun _ pool => pool) twoInUse
      mixedFrames [mixedFrames.flatMap (Framing.frameBytes versionedStreamer.encodeHeader)] := by
  have harrives : versionedStreamer.Arrives mixedFrames
      [mixedFrames.flatMap (Framing.frameBytes versionedStreamer.encodeHeader)] :=
    arrives_singleton (by decide) (by decide)
  have hwithin : ∀ frame ∈ mixedFrames, versionedStreamer.DecodesWithin frame :=
    fun frame hframe => versionedStreamer_decodesWithin (harrives.valid frame hframe).2
  have hshort : ∀ frame ∈ mixedFrames, frame.2.length ≤ 1 := by decide
  have hwhole : ∀ frame ∈ mixedFrames, versionedStreamer.RejectsWhole frame :=
    fun frame hframe => versionedStreamer_rejectsWhole (hshort frame hframe)
  have heach : ClientSession.EachWhole versionedStreamer (some 0) (fun _ pool => pool)
      ⟨twoInUse, [], []⟩ mixedFrames :=
    ClientSession.eachWhole_of_pairwise hwhole (by decide) _
  obtain ⟨hserver, hclient⟩ := failing_frames_cost_themselves rfl harrives hwithin
  exact ⟨rfl, harrives, hwithin, hwhole, heach, hserver hwhole, hclient _ _ _ heach⟩

/-- The byte that a rejected packet leaves is read as the beginning of the next
header, and the good packet behind it is lost. -/
theorem rejected_payload_desynchronizes :
    versionedStreamer.Arrives desynchronizing
      [desynchronizing.flatMap (Framing.frameBytes versionedStreamer.encodeHeader)] ∧
    (∀ frame ∈ desynchronizing, versionedStreamer.DecodesWithin frame) ∧
    (¬ ServerConnection.FailingCostThemselves versionedStreamer false ⟨0, 0, 0⟩ desynchronizing
      [desynchronizing.flatMap (Framing.frameBytes versionedStreamer.encodeHeader)]) ∧
    ¬ ClientSession.FailingCostThemselves versionedStreamer (some 0) (fun _ pool => pool) twoInUse
      desynchronizing
      [desynchronizing.flatMap (Framing.frameBytes versionedStreamer.encodeHeader)] := by
  have harrives : versionedStreamer.Arrives desynchronizing
      [desynchronizing.flatMap (Framing.frameBytes versionedStreamer.encodeHeader)] :=
    arrives_singleton (by decide) (by decide)
  have hgood : versionedStreamer.withoutFailing (versionedStreamer.complete desynchronizing
      [desynchronizing.flatMap (Framing.frameBytes versionedStreamer.encodeHeader)]) =
        [(⟨2, 7, 0⟩, [])] := by
    rw [harrives.complete_eq]
    decide
  have halone : versionedStreamer.Arrives [(⟨2, 7, 0⟩, [])]
      [[(⟨2, 7, 0⟩, [])].flatMap (Framing.frameBytes versionedStreamer.encodeHeader)] :=
    arrives_singleton (by decide) (by decide)
  refine ⟨harrives, ?_, fun hcost => ?_, fun hcost => ?_⟩
  · exact fun frame hframe => versionedStreamer_decodesWithin (harrives.valid frame hframe).2
  · obtain ⟨receiver, hrun, -, hothers⟩ := hcost _ [] (List.append_nil _).symm
    rw [hgood] at hothers
    obtain ⟨other, hother, -, hcalls⟩ := hothers _ halone
    -- Both runs are evaluated: behind the rejected packet no good call is left, alone there is one.
    have hlost : (run (ServerConnection.onMessage versionedStreamer false)
        (ServerConnection.new ⟨0, 0, 0⟩)
        [desynchronizing.flatMap (Framing.frameBytes versionedStreamer.encodeHeader)]).map
          (fun receiver => (receiver.state.calls.filter fun call => !call.isBad).length) =
            some 0 := by decide
    have hserved : (run (ServerConnection.onMessage versionedStreamer false)
        (ServerConnection.new ⟨0, 0, 0⟩)
        [[(⟨2, 7, 0⟩, [])].flatMap (Framing.frameBytes versionedStreamer.encodeHeader)]).map
          (fun receiver => receiver.state.calls.length) = some 1 := by decide
    rw [hrun, Option.map_some, hcalls] at hlost
    rw [hother, Option.map_some] at hserved
    exact absurd (hlost.symm.trans hserved) (by decide)
  · obtain ⟨receiver, hrun, -, hothers⟩ := hcost _ [] (List.append_nil _).symm
    rw [hgood] at hothers
    obtain ⟨other, hother, hcalls⟩ := hothers twoInUse_hasLayout transparent_id _ halone
    have hlost : (run (ClientSession.onMessage versionedStreamer (some 0) fun _ pool => pool)
        (ClientSession.new twoInUse)
        [desynchronizing.flatMap (Framing.frameBytes versionedStreamer.encodeHeader)]).map
          (fun receiver => (receiver.state.invocations.filter fun invocation =>
            !invocation.packet.isBad).length) = some 0 := by decide
    have hserved : (run (ClientSession.onMessage versionedStreamer (some 0) fun _ pool => pool)
        (ClientSession.new twoInUse)
        [[(⟨2, 7, 0⟩, [])].flatMap (Framing.frameBytes versionedStreamer.encodeHeader)]).map
          (fun receiver => receiver.state.invocations.length) = some 1 := by decide
    rw [hrun, Option.map_some, hcalls] at hlost
    rw [hother, Option.map_some] at hserved
    exact absurd (hlost.symm.trans hserved) (by decide)

end Wnet
