import Wnet.Session.Completion

/-!
# A response goes to the request whose channel it carries

Between `OfferChannel` and the call of the handler other calls go on, and the
channel of the response is not protected by a mutex. Nobody else touches it: a
channel that is offered is with the call that handles the response, so that the
handler is still found under the identifier that the response carried.
-/

namespace Wnet

open Foundation

variable {Body : Type*} {config : Config Body} {session session' : Session Body}
  {tokens : Tokens} {use : List Ref} {detached : List (List Ref)}

theorem ChannelPool.offerChannel_content (pool : ChannelPool) (id : UInt32) (other : Ref) :
    (pool.offerChannel id).1.content other = pool.content other := by
  cases hlookup : pool.useMap.lookup id with
  | none => rw [offerChannel_unmapped hlookup]
  | some channel => rw [offerChannel_mapped hlookup, offered_content]

theorem ChannelPool.id_of_content {pool pool' : ChannelPool} {channel : Ref}
    (hcontent : pool'.content channel = pool.content channel) :
    pool'.id channel = pool.id channel := by
  rw [id_eq_content, id_eq_content, hcontent]

theorem setHandlerArgs_id (session : Session Body) (channel other : Ref)
    (handler args : Option Nat) :
    (session.setHandlerArgs channel handler args).pool.id other = session.pool.id other := by
  rw [ChannelPool.id_eq_content, ChannelPool.id_eq_content, setHandlerArgs_content]
  split <;> rfl

theorem setArgsNull_id (session : Session Body) (channel other : Ref) :
    (session.setArgsNull channel).pool.id other = session.pool.id other := by
  rw [ChannelPool.id_eq_content, ChannelPool.id_eq_content, setArgsNull_content]
  split <;> rfl

theorem stamp_id (session : Session Body) (packet : Posted Body) (other : Ref) :
    (session.stamp packet).pool.id other = session.pool.id other :=
  (ChannelPool.setExpireTime_links session.pool packet.channel other packet.expireTime).2.2

/-- Starting a call changes no identifier. -/
theorem Ledger.start_id (hledger : Ledger config session tokens use detached) {call : Nat}
    {operation : Operation Body} (channel : Ref) (hcount : session.allocations ≤ 2 ^ 28 - 1)
    (hnext : session.start config call operation = some session') :
    session'.pool.id channel = session.pool.id channel := by
  cases Session.start_cases hnext with
  | reject | enter | connect | deliver => rfl
  | @offer header input pool other hheader hoffer =>
      have hcontent := session.pool.offerChannel_content (header.chid &&& 0xFFFFFFF) channel
      rw [hoffer] at hcontent
      exact ChannelPool.id_of_content hcontent
  | @miss header input pool hheader hoffer =>
      have hcontent := session.pool.offerChannel_content (header.chid &&& 0xFFFFFFF) channel
      rw [hoffer] at hcontent
      exact ChannelPool.id_of_content hcontent
  | @detach now pool list hlist | @noneExpired now pool hlist =>
      obtain ⟨pool', hlist', -, hcontent⟩ := hledger.serving.getTimeoutList hcount now
      obtain rfl := (Prod.mk.inj (Option.some.inj (hlist'.symm.trans hlist))).1
      exact ChannelPool.id_of_content (hcontent channel)

/-- Nor does `OnConnection`. -/
theorem onConnection_id {call : Nat} {stage : FlushStage Body} (channel : Ref)
    (hnext : session.onConnection config call stage = some session') :
    session'.pool.id channel = session.pool.id channel := by
  cases Session.onConnection_cases hnext with
  | enter | lost | nothing | lock => rfl
  | @encode packet outputQueue hqueue =>
      have hpool := (encode_spec config (session.pop packet outputQueue) packet).pool
      exact congrArg (fun pool => ChannelPool.id pool channel) hpool
  | unlock =>
      obtain ⟨total, htotal⟩ := recount_eq config session
      rw [htotal]
      rfl
  | @stamp packet => exact stamp_id session packet channel
  | @send packet =>
      exact congrArg (fun pool => ChannelPool.id pool channel) (send_spec session packet).pool

section Offered

variable {holder : Nat} {channel : Ref} {packet : Delivery Body}
  (hledger : Ledger config session tokens use detached)
  (hholder : session.calls holder = .handlePacket (.offered channel packet))
include hledger hholder

/-- The token of a channel that was offered for a response. -/
theorem Ledger.offered_token :
    (∃ owner, tokens channel = some ⟨owner, .response holder, false⟩) ∧ [channel] ∈ detached := by
  obtain ⟨held, hholds, -, hheld⟩ := hledger.accounts holder
  rw [hholder] at hholds
  obtain ⟨hchain, rfl⟩ := hholds
  exact ⟨(hheld channel (.response holder) false rfl).mpr (List.mem_singleton.mpr rfl), hchain⟩

/-- Another call does not hold that channel. -/
theorem Ledger.ne_offered {call : Nat} (hne : call ≠ holder) {other : Ref} {place : Place}
    {invoked : Bool} {held : List (Ref × Place × Bool)}
    (hheld : ∀ channel place invoked, place.holder = some call →
      ((∃ owner, tokens channel = some ⟨owner, place, invoked⟩) ↔
        (channel, place, invoked) ∈ held))
    (hmem : (other, place, invoked) ∈ held) (hplace : place.holder = some call) :
    channel ≠ other := by
  rintro rfl
  obtain ⟨⟨owner, htoken⟩, -⟩ := hledger.offered_token hholder
  obtain ⟨owner', htoken'⟩ := (hheld channel place invoked hplace).mpr hmem
  obtain ⟨-, rfl, -⟩ := Token.mk.inj (Option.some.inj (htoken.symm.trans htoken'))
  exact hne (Option.some.inj hplace).symm

/-- A piece of `PostPacket` does not allocate this channel. -/
theorem Ledger.postPacket_id {call : Nat} {request : Request Body} {stage : PostStage Body}
    (hcount : session'.allocations ≤ 2 ^ 28 - 1)
    (hnext : session.postPacket config call request stage = some session') :
    session'.pool.id channel = session.pool.id channel := by
  obtain ⟨-, hchain⟩ := hledger.offered_token hholder
  cases Session.postPacket_cases hnext with
  | refuse | admitted | withoutChannel | push | wake | wait | leave => rfl
  | @allocate globals pool fresh hheader halloc =>
      have hspec := hledger.serving.allocChannel hledger.books.counter hcount
      rw [halloc] at hspec
      exact ChannelPool.id_of_content
        (hspec.others channel (Or.inr ⟨_, hchain, List.mem_singleton.mpr rfl⟩))
  | fill => exact setHandlerArgs_id session _ channel _ _
  | @encode packet hmutex hconnected =>
      have hpool := (encode_spec config { session with mutex := some call } packet).pool
      exact congrArg (fun pool => ChannelPool.id pool channel) hpool
  | @stamp packet => exact stamp_id session packet channel
  | @send packet =>
      exact congrArg (fun pool => ChannelPool.id pool channel) (send_spec session packet).pool

/-- The channel that another response gives back is not this one. -/
theorem Ledger.handlePacket_id {call : Nat} {stage : ResponseStage Body}
    (hcall : session.calls call = .handlePacket stage)
    (hnext : session.handlePacket config call stage = some session') :
    session'.pool.id channel = session.pool.id channel := by
  cases Session.handlePacket_cases hnext with
  | answer => rfl
  | @append other =>
      obtain ⟨held, hholds, -, hheld⟩ := hledger.accounts call
      rw [hcall] at hholds
      obtain ⟨-, rfl⟩ := hholds
      have hdifferent : call ≠ holder := by
        rintro rfl
        rw [hcall] at hholder
        cases hholder
      have hne := hledger.ne_offered hholder hdifferent hheld (List.mem_singleton.mpr rfl) rfl
      change ((session.setArgsNull other).pool.pushFree other).id channel = _
      rw [ChannelPool.id_eq_content, ChannelPool.pushFree_content, if_neg hne,
        ← ChannelPool.id_eq_content]
      exact setArgsNull_id session other channel

/-- Neither are the channels that a timeout check gives back. -/
theorem Ledger.checkTimeout_id {call : Nat} {now : Int} {stage : TimeoutStage Body}
    {handler : Nat} (hdefault : config.defaultPacketHandler = some handler)
    (hcount : session.allocations ≤ 2 ^ 28 - 1)
    (hcall : session.calls call = .checkTimeout now stage)
    (hnext : session.checkTimeout config call now stage = some session') :
    session'.pool.id channel = session.pool.id channel := by
  have hdifferent : call ≠ holder := by
    rintro rfl
    rw [hcall] at hholder
    cases hholder
  obtain ⟨held, hholds, -, hheld⟩ := hledger.accounts call
  rw [hcall] at hholds
  cases Session.checkTimeout_cases hnext with
  | notify | skip | detach | dropPacket | notifyQueued | leave => rfl
  | @advance list other => exact setArgsNull_id session other channel
  | @appendFreeList list pool result happend =>
      obtain ⟨chain, after, hchain, hlist, hcursor, rfl⟩ := hholds
      obtain rfl : after = [] := List.head?_eq_none_iff.mp hcursor.symm
      rw [List.append_nil] at hchain hlist
      obtain ⟨rest, rfl⟩ := List.head?_eq_some_iff.mp hlist
      obtain ⟨pool', happend', -, hcontent⟩ := hledger.serving.appendFreeList hcount hchain
      obtain rfl := (Prod.mk.inj (Option.some.inj (happend'.symm.trans happend))).1
      refine ChannelPool.id_of_content ((hcontent channel).trans (if_neg fun hmem => ?_))
      have hentry : (channel, Place.scan call, true) ∈
          (list :: rest).map (·, Place.scan call, true) ++
            ([] : List Ref).map (·, Place.scan call, false) := by
        simpa using hmem
      exact hledger.ne_offered hholder hdifferent hheld hentry rfl rfl
  | @skipQueued packet packetList other hchannel hhandler =>
      obtain ⟨own, hown⟩ := exists_handlerOf hdefault (session.release packet) other
      exact absurd (hown.symm.trans hhandler) (by simp)
  | @freeChannel other packetList =>
      obtain ⟨channels, hchannels, rfl⟩ := hholds
      obtain ⟨owner, htoken⟩ := (hheld other (.drain call) true rfl).mpr List.mem_cons_self
      have hmem : other ∈ use := (hledger.inUse other).mpr ⟨_, htoken, rfl⟩
      obtain ⟨hfree, -⟩ := (hledger.serving.setArgsNull other).freeChannel hcount hmem
      have hne := hledger.ne_offered hholder hdifferent hheld List.mem_cons_self rfl
      change (((session.setArgsNull other).pool.freeChannel (some other)).1).id channel = _
      rw [hfree, ChannelPool.id_eq_content, ChannelPool.freed_content, if_neg hne,
        ← ChannelPool.id_eq_content]
      exact setArgsNull_id session other channel
  | recount =>
      obtain ⟨total, htotal⟩ := recount_eq config session
      rw [htotal]
      rfl

/-- While a response is on its way to its handler, its channel keeps its identifier,
whatever the other calls do. -/
theorem Ledger.step_id {label : Label Body} {handler : Nat}
    (hdefault : config.defaultPacketHandler = some handler)
    (hcount : session'.allocations ≤ 2 ^ 28 - 1)
    (hstep : session.step config label = some session') :
    session'.pool.id channel = session.pool.id channel := by
  have hbefore : session.allocations ≤ 2 ^ 28 - 1 :=
    le_trans (Session.step_allocations hstep) hcount
  cases Session.step_cases hstep with
  | start hidle hnext => exact hledger.start_id channel hbefore hnext
  | postPacket hcall hnext => exact hledger.postPacket_id hholder hcount hnext
  | onConnection hcall hnext => exact onConnection_id channel hnext
  | handlePacket hcall hnext => exact hledger.handlePacket_id hholder hcall hnext
  | checkTimeout hcall hnext =>
      exact hledger.checkTimeout_id hholder hdefault hbefore hcall hnext
  | connectionLost | loopStop | setClock | allocElsewhere => rfl

end Offered

/-! ## Identifiers that are no longer in use -/

/-- No identifier comes back into the use map. -/
def ChannelPool.Unmaps (pool pool' : ChannelPool) : Prop :=
  ∀ id, pool.useMap.lookup id = none → pool'.useMap.lookup id = none

theorem ChannelPool.unmaps_of_eq {pool pool' : ChannelPool} (hmap : pool'.useMap = pool.useMap) :
    pool.Unmaps pool' := fun _ hnone => hmap ▸ hnone

theorem ChannelPool.unmaps_of_erase {pool pool' : ChannelPool} (erased : UInt32)
    (hmap : pool'.useMap = pool.useMap.erase erased) : pool.Unmaps pool' := by
  intro id hnone
  cases hlookup : pool'.useMap.lookup id with
  | none => rfl
  | some channel =>
      rw [hmap] at hlookup
      exact absurd ((lookup_erase_sub hlookup).2.symm.trans hnone) (by simp)

theorem ChannelPool.offerChannel_unmaps (pool : ChannelPool) (id : UInt32) :
    pool.Unmaps (pool.offerChannel id).1 := by
  cases hlookup : pool.useMap.lookup id with
  | none => exact unmaps_of_eq (by rw [offerChannel_unmapped hlookup])
  | some channel =>
      refine unmaps_of_erase id ?_
      rw [offerChannel_mapped hlookup, offered_useMap]

/-- A channel that was offered is not found a second time. -/
theorem ChannelPool.offerChannel_lookup (pool : ChannelPool) (id : UInt32) :
    (pool.offerChannel id).1.useMap.lookup id = none := by
  cases hlookup : pool.useMap.lookup id with
  | none => rw [offerChannel_unmapped hlookup, hlookup]
  | some channel =>
      rw [offerChannel_mapped hlookup, offered_useMap]
      exact AList.lookup_erase _ _

theorem ChannelPool.freeChannel_unmaps (pool : ChannelPool) (channel : Ref) :
    pool.Unmaps (pool.freeChannel (some channel)).1 := by
  cases hlookup : pool.useMap.lookup (pool.id channel) with
  | none => exact unmaps_of_eq (by rw [freeChannel_unmapped hlookup])
  | some owner =>
      refine unmaps_of_erase (pool.id channel) ?_
      rw [freeChannel_mapped hlookup, freed_useMap]

theorem ChannelPool.setExpireTime_useMap (pool : ChannelPool) (channel : Option Ref) (now : Int) :
    (pool.setExpireTime channel now).useMap = pool.useMap := by
  cases channel <;> rfl

/-- Nothing comes into use under an identifier that was not in use. -/
theorem Serving.unmaps {pool pool' : ChannelPool} {allocations allocations' : Nat}
    {use' : List Ref} {detached' : List (List Ref)}
    (hserving : Serving pool allocations use detached)
    (hserving' : Serving pool' allocations' use' detached')
    (hids : ∀ channel ∈ use', channel ∈ use ∧ pool'.id channel = pool.id channel) :
    pool.Unmaps pool' := by
  intro id hnone
  cases hlookup : pool'.useMap.lookup id with
  | none => rfl
  | some channel =>
      obtain ⟨huse', hid⟩ := hserving'.lookup_iff.mp hlookup
      obtain ⟨huse, hsame⟩ := hids channel huse'
      have hmapped := hserving.lookup_iff.mpr ⟨huse, hsame.symm.trans hid⟩
      exact absurd (hmapped.symm.trans hnone) (by simp)

theorem onConnection_unmaps {call : Nat} {stage : FlushStage Body}
    (hnext : session.onConnection config call stage = some session') :
    session.pool.Unmaps session'.pool := by
  cases Session.onConnection_cases hnext with
  | enter | lost | nothing | lock => exact ChannelPool.unmaps_of_eq rfl
  | @encode packet outputQueue hqueue =>
      have hpool := (encode_spec config (session.pop packet outputQueue) packet).pool
      exact ChannelPool.unmaps_of_eq (congrArg ChannelPool.useMap hpool)
  | unlock =>
      obtain ⟨total, htotal⟩ := recount_eq config session
      rw [htotal]
      exact ChannelPool.unmaps_of_eq rfl
  | @stamp packet =>
      exact ChannelPool.unmaps_of_eq
        (session.pool.setExpireTime_useMap packet.channel packet.expireTime)
  | @send packet =>
      exact ChannelPool.unmaps_of_eq
        (congrArg ChannelPool.useMap (send_spec session packet).pool)

theorem handlePacket_unmaps {call : Nat} {stage : ResponseStage Body}
    (hnext : session.handlePacket config call stage = some session') :
    session.pool.Unmaps session'.pool := by
  cases Session.handlePacket_cases hnext with
  | answer => exact ChannelPool.unmaps_of_eq rfl
  | @append other =>
      exact ChannelPool.unmaps_of_eq
        (ChannelPool.pushFree_frame (session.setArgsNull other).pool other).1

/-- The channel that a response is for is not in use any more when the response is being
handled. -/
theorem step_handlePacket_unmapped {call : Nat} {header : PacketHeader} {input : Bytes}
    (hmode : config.streamer.existPacketHeader = true)
    (hissued : Issued session.allocations header.chid)
    (hstep : session.step config (.start call (.handlePacket header input)) = some session') :
    session'.pool.useMap.lookup header.chid = none := by
  have hlookup := session.pool.offerChannel_lookup (header.chid &&& 0xFFFFFFF)
  cases Session.step_cases hstep with
  | start hidle hnext =>
      cases Session.start_cases hnext with
      | offer hheader hoffer | miss hheader hoffer =>
          rw [hoffer, hissued.mask] at hlookup
          exact hlookup
      | deliver hheader => exact absurd (hmode.symm.trans hheader) (by simp)

section Unmapped

variable {call : Nat} (hledger : Ledger config session tokens use detached)
include hledger

theorem Ledger.start_unmaps {operation : Operation Body}
    (hcount : session.allocations ≤ 2 ^ 28 - 1)
    (hnext : session.start config call operation = some session') :
    session.pool.Unmaps session'.pool := by
  -- The channels that a timeout check leaves in use are as they were.
  have htimeout : ∀ {now pool list},
      session.pool.getTimeoutList now = some (pool, list) → session.pool.Unmaps pool := by
    intro now pool list hlist
    obtain ⟨pool', hlist', hserving, hcontent⟩ := hledger.serving.getTimeoutList hcount now
    obtain rfl := (Prod.mk.inj (Option.some.inj (hlist'.symm.trans hlist))).1
    exact hledger.serving.unmaps hserving fun channel hmem =>
      ⟨(List.dropWhile_suffix _).subset hmem, ChannelPool.id_of_content (hcontent channel)⟩
  cases Session.start_cases hnext with
  | reject | enter | connect | deliver => exact ChannelPool.unmaps_of_eq rfl
  | @offer header input pool channel hheader hoffer =>
      have hunmaps := session.pool.offerChannel_unmaps (header.chid &&& 0xFFFFFFF)
      rwa [hoffer] at hunmaps
  | @miss header input pool hheader hoffer =>
      have hunmaps := session.pool.offerChannel_unmaps (header.chid &&& 0xFFFFFFF)
      rwa [hoffer] at hunmaps
  | detach hlist => exact htimeout hlist
  | noneExpired hlist => exact htimeout hlist

/-- The identifier of an allocation was not issued before. -/
theorem Ledger.postPacket_unmapped {request : Request Body} {stage : PostStage Body}
    (hcount : session'.allocations ≤ 2 ^ 28 - 1) {chid : UInt32}
    (hissued : Issued session.allocations chid)
    (hnone : session.pool.useMap.lookup chid = none)
    (hnext : session.postPacket config call request stage = some session') :
    session'.pool.useMap.lookup chid = none := by
  cases Session.postPacket_cases hnext with
  | refuse | admitted | withoutChannel | push | wake | wait | leave | fill => exact hnone
  | @allocate globals pool fresh hheader halloc =>
      have hspec := hledger.serving.allocChannel hledger.books.counter hcount
      rw [halloc] at hspec
      cases hlookup : pool.useMap.lookup chid with
      | none => exact hlookup
      | some channel =>
          obtain ⟨huse, hid⟩ := hspec.serving.lookup_iff.mp hlookup
          rcases List.mem_append.mp huse with hold | hnew
          · have hsame := ChannelPool.id_of_content (hspec.others channel (Or.inl hold))
            have hmapped := hledger.serving.lookup_iff.mpr ⟨hold, hsame.symm.trans hid⟩
            exact absurd (hmapped.symm.trans hnone) (by simp)
          · rw [List.mem_singleton.mp hnew, ChannelPool.id_eq_content, hspec.content] at hid
            have hnext : idAt session.allocations = chid := hid
            exact absurd (hnext ▸ hissued) (not_issued_idAt hcount)
  | @encode packet hmutex hconnected =>
      have hpool := (encode_spec config { session with mutex := some call } packet).pool
      exact (congrArg (fun pool => pool.useMap.lookup chid) hpool).trans hnone
  | @stamp packet =>
      change (session.pool.setExpireTime packet.channel packet.expireTime).useMap.lookup chid = _
      rw [ChannelPool.setExpireTime_useMap]
      exact hnone
  | @send packet =>
      exact (congrArg (fun pool => pool.useMap.lookup chid) (send_spec session packet).pool).trans
        hnone

theorem Ledger.checkTimeout_unmaps {now : Int} {stage : TimeoutStage Body}
    (hcount : session.allocations ≤ 2 ^ 28 - 1)
    (hcall : session.calls call = .checkTimeout now stage)
    (hnext : session.checkTimeout config call now stage = some session') :
    session.pool.Unmaps session'.pool := by
  obtain ⟨held, hholds, -, -⟩ := hledger.accounts call
  rw [hcall] at hholds
  cases Session.checkTimeout_cases hnext with
  | notify | skip | detach | dropPacket | notifyQueued | leave | advance =>
      exact ChannelPool.unmaps_of_eq rfl
  | @appendFreeList list pool result happend =>
      obtain ⟨chain, after, hchain, hlist, hcursor, rfl⟩ := hholds
      obtain rfl : after = [] := List.head?_eq_none_iff.mp hcursor.symm
      rw [List.append_nil] at hchain hlist
      obtain ⟨rest, rfl⟩ := List.head?_eq_some_iff.mp hlist
      obtain ⟨pool', happend', hserving, hcontent⟩ :=
        hledger.serving.appendFreeList hcount hchain
      obtain rfl := (Prod.mk.inj (Option.some.inj (happend'.symm.trans happend))).1
      refine hledger.serving.unmaps hserving fun channel hmem => ⟨hmem, ?_⟩
      have houtside := hledger.serving.not_mem_chain hmem hchain
      exact ChannelPool.id_of_content ((hcontent channel).trans (if_neg houtside))
  | @skipQueued packet packetList other => exact session.pool.freeChannel_unmaps other
  | @freeChannel other packetList =>
      exact (session.setArgsNull other).pool.freeChannel_unmaps other
  | recount =>
      obtain ⟨total, htotal⟩ := recount_eq config session
      rw [htotal]
      exact ChannelPool.unmaps_of_eq rfl

/-- An identifier that was issued and is not in use any more stays so, whatever the calls
do. -/
theorem Ledger.step_unmapped {label : Label Body} (hcount : session'.allocations ≤ 2 ^ 28 - 1)
    (hstep : session.step config label = some session') {chid : UInt32}
    (hissued : Issued session.allocations chid)
    (hnone : session.pool.useMap.lookup chid = none) :
    session'.pool.useMap.lookup chid = none := by
  have hbefore : session.allocations ≤ 2 ^ 28 - 1 :=
    le_trans (Session.step_allocations hstep) hcount
  cases Session.step_cases hstep with
  | start hidle hnext => exact hledger.start_unmaps hbefore hnext chid hnone
  | postPacket hcall hnext => exact hledger.postPacket_unmapped hcount hissued hnone hnext
  | onConnection hcall hnext => exact onConnection_unmaps hnext chid hnone
  | handlePacket hcall hnext => exact handlePacket_unmaps hnext chid hnone
  | checkTimeout hcall hnext =>
      exact hledger.checkTimeout_unmaps hbefore hcall hnext chid hnone
  | connectionLost | loopStop | setClock | allocElsewhere => exact hnone

end Unmapped

/-! ## Responses in progress and responses handed over -/

/-- The packet of a response that was decoded. -/
def HandlerCall.response (invocation : HandlerCall Body) : Option (Packet Body) :=
  match invocation.packet with
  | .response (.regular packet) => some packet
  | _ => none

namespace Session

/-- Every response, on its way to a handler or handed over, is good for the identifier
of the channel it is handed over for. -/
structure Routed (good : UInt32 → Delivery Body → Prop) (session : Session Body) : Prop where
  offered : ∀ call channel packet, session.calls call = .handlePacket (.offered channel packet) →
    good (session.pool.id channel) packet
  called : ∀ invocation ∈ session.handlerCalls, ∀ packet, invocation.packet = .response packet →
    ∃ chid, invocation.chid = some chid ∧ good chid packet

theorem Routed.mono {good good' : UInt32 → Delivery Body → Prop} (hrouted : session.Routed good)
    (hgood : ∀ chid packet, good chid packet → good' chid packet) : session.Routed good' where
  offered call channel packet hcall := hgood _ _ (hrouted.offered call channel packet hcall)
  called invocation hmem packet hpacket := by
    obtain ⟨chid, hchid, hold⟩ := hrouted.called invocation hmem packet hpacket
    exact ⟨chid, hchid, hgood chid packet hold⟩

theorem routed_new (good : UInt32 → Delivery Body → Prop) (mem : Ref → Channel) :
    (new mem : Session Body).Routed good where
  offered call channel packet hcall := by cases hcall
  called invocation hmem := by cases hmem

/-! ### What a piece does to them -/

/-- What the piece of a call does to the responses: the call may begin one, and it may
hand over the one that it has begun. -/
structure Responds (session next : Session Body) (call : Nat)
    (begun : Option (Ref × Delivery Body)) : Prop where
  calls : ∃ activity, next.calls = Function.update session.calls call activity ∧
    ∀ channel packet, activity = .handlePacket (.offered channel packet) →
      begun = some (channel, packet)
  called : ∀ invocation ∈ next.handlerCalls, invocation ∈ session.handlerCalls ∨
    invocation.packet = .timeout ∨
    ∃ channel packet, session.calls call = .handlePacket (.offered channel packet) ∧
      invocation.chid = some (session.pool.id channel) ∧ invocation.packet = .response packet

section Pieces

variable {call : Nat}

/-- A call goes on with nothing to do with responses. -/
theorem Responds.stage {middle : Session Body} {activity : Activity Body}
    (hcalls : middle.calls = session.calls)
    (hactivity : ∀ channel packet, activity ≠ .handlePacket (.offered channel packet))
    (hcalled : middle.handlerCalls = session.handlerCalls) :
    Responds session (middle.become call activity) call none where
  calls := ⟨activity, by rw [become, hcalls], fun channel packet hoffered =>
    absurd hoffered (hactivity channel packet)⟩
  called invocation hmem := Or.inl (hcalled ▸ hmem)

/-- A call has the handler of a channel called because of a timeout. -/
theorem Responds.timeout {middle : Session Body} {activity : Activity Body} {channel : Ref}
    {handler : Nat} (hcalls : middle.calls = session.calls)
    (hactivity : ∀ channel packet, activity ≠ .handlePacket (.offered channel packet))
    (hcalled : middle.handlerCalls = session.handlerCalls) :
    Responds session ((middle.invoke channel handler .timeout).become call activity) call none where
  calls := ⟨activity, by rw [become, invoke, hcalls], fun channel packet hoffered =>
    absurd hoffered (hactivity channel packet)⟩
  called invocation hmem := by
    rcases List.mem_append.mp hmem with hold | hnew
    · exact Or.inl (hcalled ▸ hold)
    · rw [List.mem_singleton.mp hnew]
      exact Or.inr (Or.inl rfl)

theorem postPacket_responds {request : Request Body} {stage : PostStage Body}
    (hcall : session.calls call = .postPacket request stage)
    (hnext : session.postPacket config call request stage = some session') :
    Responds session session' call none := by
  cases postPacket_cases hnext with
  | wait =>
      refine ⟨⟨.postPacket request .posted, ?_, by simp⟩, fun invocation hmem => Or.inl hmem⟩
      rw [← hcall, Function.update_eq_self]
  | @encode packet =>
      exact .stage (encode_calls _ config packet) (by simp)
        (encode_spec config { session with mutex := some call } packet).handlerCalls
  | @send packet =>
      exact .stage (send_calls session packet) (by simp) (send_spec session packet).handlerCalls
  | _ => exact .stage rfl (by simp) rfl

theorem onConnection_responds {stage : FlushStage Body}
    (hnext : session.onConnection config call stage = some session') :
    Responds session session' call none := by
  cases onConnection_cases hnext with
  | @encode packet outputQueue =>
      exact .stage (encode_calls _ config packet) (by simp)
        (encode_spec config (session.pop packet outputQueue) packet).handlerCalls
  | unlock =>
      obtain ⟨total, htotal⟩ := recount_eq config session
      rw [htotal]
      exact .stage rfl (by simp) rfl
  | @send packet =>
      exact .stage (send_calls session packet) (by simp) (send_spec session packet).handlerCalls
  | _ => exact .stage rfl (by simp) rfl

theorem handlePacket_responds {stage : ResponseStage Body}
    (hcall : session.calls call = .handlePacket stage)
    (hnext : session.handlePacket config call stage = some session') :
    Responds session session' call none := by
  cases handlePacket_cases hnext with
  | @answer channel packet handler hhandler =>
      refine ⟨⟨.handlePacket (.answered channel), rfl, by simp⟩, fun invocation hmem => ?_⟩
      rcases List.mem_append.mp hmem with hold | hnew
      · exact Or.inl hold
      · rw [List.mem_singleton.mp hnew]
        exact Or.inr (Or.inr ⟨channel, packet, hcall, rfl, rfl⟩)
  | append => exact .stage rfl (by simp) rfl

theorem checkTimeout_responds {now : Int} {stage : TimeoutStage Body}
    (hnext : session.checkTimeout config call now stage = some session') :
    Responds session session' call none := by
  cases checkTimeout_cases hnext with
  | notify | notifyQueued => exact .timeout rfl (by simp) rfl
  | recount =>
      obtain ⟨total, htotal⟩ := recount_eq config session
      rw [htotal]
      exact .stage rfl (by simp) rfl
  | _ => exact .stage rfl (by simp) rfl

/-- With packet headers only `HandlePacket` begins a response, on the channel that it is
offered for the identifier of the frame. -/
theorem start_responds {operation : Operation Body}
    (hmode : config.streamer.existPacketHeader = true)
    (hnext : session.start config call operation = some session') :
    ∃ begun, Responds session session' call begun ∧ ∀ entry ∈ begun,
      ∃ header input, operation = .handlePacket header input ∧
        session.pool.offerChannel (header.chid &&& 0xFFFFFFF) = (session'.pool, some entry.1) ∧
        entry.2 = Delivery.ofDecoded header (config.streamer.decode input header).1 := by
  cases start_cases hnext with
  | @offer header input pool channel hheader hoffer =>
      refine ⟨some (channel, Delivery.ofDecoded header (config.streamer.decode input header).1),
        ⟨⟨_, rfl, ?_⟩, fun invocation hmem => Or.inl hmem⟩, ?_⟩
      · intro other packet hoffered
        obtain ⟨rfl, rfl⟩ := ResponseStage.offered.inj (Activity.handlePacket.inj hoffered)
        rfl
      · rintro entry ⟨⟩
        exact ⟨header, input, rfl, hoffer, rfl⟩
  | deliver hheader => exact absurd (hmode.symm.trans hheader) (by simp)
  | _ => exact ⟨none, .stage rfl (by simp) rfl, by simp⟩

end Pieces

/-! ### What a step does to them -/

section Step

variable {good : UInt32 → Delivery Body → Prop} {call : Nat}

/-- A response that was offered before a piece of some call is still on its channel. -/
theorem Routed.responds (hrouted : session.Routed good)
    {begun : Option (Ref × Delivery Body)} (hresponds : Responds session session' call begun)
    (hid : ∀ holder channel packet,
      session.calls holder = .handlePacket (.offered channel packet) →
      session'.pool.id channel = session.pool.id channel)
    (hbegun : ∀ entry ∈ begun, good (session'.pool.id entry.1) entry.2) :
    session'.Routed good := by
  obtain ⟨activity, hcalls, hactivity⟩ := hresponds.calls
  constructor
  · intro holder channel packet hholder
    rw [hcalls] at hholder
    by_cases hsame : holder = call
    · rw [hsame, Function.update_self] at hholder
      exact hbegun _ (hactivity channel packet hholder)
    · rw [Function.update_of_ne hsame] at hholder
      rw [hid holder channel packet hholder]
      exact hrouted.offered holder channel packet hholder
  · intro invocation hmem packet hpacket
    rcases hresponds.called invocation hmem with
      hold | htimeout | ⟨channel, begun', hholder, hchid, hresponse⟩
    · exact hrouted.called invocation hold packet hpacket
    · rw [htimeout] at hpacket
      cases hpacket
    · obtain rfl := Notice.response.inj (hresponse.symm.trans hpacket)
      exact ⟨_, hchid, hrouted.offered call channel begun' hholder⟩

/-- Every step keeps the responses with the identifiers they came for, as long as the
responses that arrive are good. -/
theorem Routed.step {label : Label Body} {handler : Nat} (hrouted : session.Routed good)
    (hmode : config.streamer.existPacketHeader = true)
    (hdefault : config.defaultPacketHandler = some handler) (hkept : session.Kept config)
    (hcount : session'.allocations ≤ 2 ^ 28 - 1)
    (hgood : ∀ call header input, label = .start call (.handlePacket header input) →
      header.chid ∈ session.transmitted ∧
        good header.chid (Delivery.ofDecoded header (config.streamer.decode input header).1))
    (hstep : session.step config label = some session') : session'.Routed good := by
  obtain ⟨tokens, use, detached, hledger⟩ := hkept
  have hid : ∀ holder channel packet,
      session.calls holder = .handlePacket (.offered channel packet) →
      session'.pool.id channel = session.pool.id channel :=
    fun holder channel packet hholder => hledger.step_id hholder hdefault hcount hstep
  cases step_cases hstep with
  | @start call operation next hidle hnext =>
      obtain ⟨begun, hresponds, hbegun⟩ := start_responds hmode hnext
      refine hrouted.responds hresponds hid fun entry hentry => ?_
      obtain ⟨header, input, rfl, hoffer, hpacket⟩ := hbegun entry hentry
      obtain ⟨hsent, harrived⟩ := hgood call header input rfl
      -- The identifier was issued, so that the mask leaves it as it is.
      rw [(hledger.books.transmitted _ hsent).mask] at hoffer
      have hlookup : session.pool.useMap.lookup header.chid = some entry.1 := by
        cases hfound : session.pool.useMap.lookup header.chid with
        | none =>
            rw [ChannelPool.offerChannel_unmapped hfound] at hoffer
            cases (Prod.mk.inj hoffer).2
        | some channel =>
            rw [ChannelPool.offerChannel_mapped hfound] at hoffer
            exact (Prod.mk.inj hoffer).2
      have hcontent := session.pool.offerChannel_content header.chid entry.1
      rw [hoffer] at hcontent
      rw [ChannelPool.id_of_content hcontent, (hledger.serving.lookup_iff.mp hlookup).2, hpacket]
      exact harrived
  | postPacket hcall hnext =>
      exact hrouted.responds (postPacket_responds hcall hnext) hid (by simp)
  | onConnection hcall hnext =>
      exact hrouted.responds (onConnection_responds hnext) hid (by simp)
  | handlePacket hcall hnext =>
      exact hrouted.responds (handlePacket_responds hcall hnext) hid (by simp)
  | checkTimeout hcall hnext =>
      exact hrouted.responds (checkTimeout_responds hnext) hid (by simp)
  | connectionLost | loopStop | setClock | allocElsewhere =>
      exact ⟨hrouted.offered, hrouted.called⟩

end Step

/-! ### Runs -/

/-- What `step_kept` and `Routed.step` keep together along a run. -/
theorem run_kept_routed (good : Session Body → UInt32 → Delivery Body → Prop)
    {condition : Session Body → Label Body → Prop} {mem : Ref → Channel}
    {labels : List (Label Body)} {handler : Nat}
    (hmode : config.streamer.existPacketHeader = true)
    (hdefault : config.defaultPacketHandler = some handler)
    (hgrows : ∀ session label next, session.step config label = some next →
      ∀ chid packet, good session chid packet → good next chid packet)
    (hcondition : ∀ session label, condition session label → session.Honest label ∧
      ∀ call header input, label = .start call (.handlePacket header input) →
        good session header.chid
          (Delivery.ofDecoded header (config.streamer.decode input header).1))
    (hrun : run (Session.step config) (new mem) labels = some session)
    (halong : Along (Session.step config) condition (new mem) labels)
    (hcount : session.allocations ≤ 2 ^ 28 - 1) :
    session.Kept config ∧ session.Routed (good session) := by
  have hinvariant : session.Attributed ∧ (session.allocations ≤ 2 ^ 28 - 1 →
      session.Kept config ∧ session.Routed (good session)) := by
    refine run_invariant_along (fun session : Session Body => session.Attributed ∧
      (session.allocations ≤ 2 ^ 28 - 1 →
        session.Kept config ∧ session.Routed (good session))) ?_
      ⟨attributed_new mem, fun _ => ⟨kept_new mem, routed_new _ mem⟩⟩ halong hrun
    rintro session label next ⟨hattributed, hholds⟩ hcond hstep
    obtain ⟨hhonest, harrives⟩ := hcondition session label hcond
    refine ⟨(step_move hattributed hstep).1, fun hcount => ?_⟩
    obtain ⟨hkept, hrouted⟩ := hholds (le_trans (step_allocations hstep) hcount)
    refine ⟨step_kept hmode hdefault hattributed hkept hhonest hcount hstep, ?_⟩
    refine (hrouted.step hmode hdefault hkept hcount ?_ hstep).mono (hgrows _ _ _ hstep)
    rintro call header input rfl
    exact ⟨hhonest, harrives call header input rfl⟩
  exact hinvariant.2 hcount

/-- Whose response it is: the call of `PostPacket` that was given this channel identifier
and whose handler and arguments these are. -/
def Answers (config : Config Body) (session : Session Body) (chid : UInt32)
    (invocation : HandlerCall Body) : Prop :=
  ∃ call request channel, (session.calls call).request = some request ∧
    session.allocated call = some (channel, chid) ∧ invocation.chid = some chid ∧
    some invocation.handler = request.packetHandler.or config.defaultPacketHandler ∧
    invocation.args = request.args

theorem Kept.answers (hkept : session.Kept config) {invocation : HandlerCall Body}
    (hmem : invocation ∈ session.handlerCalls) {chid : UInt32}
    (hchid : invocation.chid = some chid) : Answers config session chid invocation := by
  obtain ⟨tokens, use, detached, hledger⟩ := hkept
  obtain ⟨call, channel, own, hallocated, hown⟩ := hledger.books.handlerCalls invocation hmem
  obtain rfl := Option.some.inj (hown.symm.trans hchid)
  obtain ⟨request, hrequest⟩ := hledger.request_of_allocated hallocated
  have hcalled : invocation ∈ session.callsFor own :=
    List.mem_filter.mpr ⟨hmem, by simpa using hchid⟩
  rcases hledger.waiting_or_reported hallocated hrequest with
    ⟨hnone, -⟩ | ⟨handler, packet, hhandler, honly⟩
  · rw [hnone] at hcalled
    cases hcalled
  · rw [honly] at hcalled
    obtain rfl := List.mem_singleton.mp hcalled
    exact ⟨call, request, channel, hrequest, hallocated, rfl, hhandler.symm, rfl⟩

theorem packet_of_response {invocation : HandlerCall Body} {packet : Packet Body}
    (hresponse : invocation.response = some packet) :
    invocation.packet = .response (.regular packet) := by
  unfold HandlerCall.response at hresponse
  split at hresponse
  next own hpacket => rw [hpacket, Option.some.inj hresponse]
  next => cases hresponse

/-- The packet that a frame decodes to carries the channel identifier of the frame. -/
theorem chid_of_regular {streamer : Streamer Body} {header : PacketHeader} {input : Bytes}
    {packet : Packet Body}
    (hpacket : Delivery.ofDecoded header (streamer.decode input header).1 = .regular packet) :
    packet.header.chid = header.chid := by
  cases hdecode : (streamer.decode input header).1 with
  | none =>
      rw [hdecode] at hpacket
      cases hpacket
  | some body =>
      rw [hdecode] at hpacket
      rw [← Delivery.regular.inj hpacket]

/-- In every run with an honest environment, as long as identifiers are not used again, a
response is handed to the handler, and with the arguments, of the request that was given the
channel identifier that the response carries. -/
theorem responses_reach_own_request {mem : Ref → Channel} {labels : List (Label Body)}
    {handler : Nat} (hmode : config.streamer.existPacketHeader = true)
    (hdefault : config.defaultPacketHandler = some handler)
    (hrun : run (Session.step config) (new mem) labels = some session)
    (halong : Along (Session.step config) Honest (new mem) labels)
    (hcount : session.allocations ≤ 2 ^ 28 - 1) {invocation : HandlerCall Body}
    (hmem : invocation ∈ session.handlerCalls) {packet : Packet Body}
    (hresponse : invocation.response = some packet) :
    Answers config session packet.header.chid invocation := by
  obtain ⟨hkept, hrouted⟩ := run_kept_routed
    (fun _ chid response => ∀ packet, response = .regular packet → packet.header.chid = chid)
    hmode hdefault (fun _ _ _ _ _ _ hgood => hgood)
    (fun session label hhonest =>
      ⟨hhonest, fun call header input _ packet hpacket => chid_of_regular hpacket⟩)
    hrun halong hcount
  obtain ⟨chid, hchid, hown⟩ := hrouted.called invocation hmem _ (packet_of_response hresponse)
  rw [hown packet rfl]
  exact hkept.answers hmem hchid

theorem responses_reach_own_request_answeredAndExpired : ∃ session invocation,
    run (Session.step byteConfig) (new (Process.zeroMemory 0)) answeredAndExpired =
      some session ∧ invocation ∈ session.handlerCalls ∧
    invocation.response = some ⟨⟨1, 1, 1⟩, [1]⟩ ∧ invocation.handler = 7 ∧
    Answers byteConfig session 1 invocation := by
  have halong : Along (Session.step byteConfig) Honest (new (Process.zeroMemory 0))
      answeredAndExpired := by decide
  have hallocations : (run (Session.step byteConfig) (new (Process.zeroMemory 0))
      answeredAndExpired).map Session.allocations = some 2 := by decide
  have hfirst : ((run (Session.step byteConfig) (new (Process.zeroMemory 0))
      answeredAndExpired).bind fun session => session.handlerCalls.head?).map
        (fun invocation => (invocation.response, invocation.handler)) =
      some (some ⟨⟨1, 1, 1⟩, [1]⟩, 7) := by decide
  obtain ⟨session, hrun, hcount⟩ := Option.map_eq_some_iff.mp hallocations
  rw [hrun, Option.bind_some] at hfirst
  obtain ⟨invocation, hhead, hinvocation⟩ := Option.map_eq_some_iff.mp hfirst
  obtain ⟨hresponse, hhandler⟩ := Prod.mk.inj hinvocation
  have hmem := List.mem_of_mem_head? hhead
  exact ⟨session, invocation, hrun, hmem, hresponse, hhandler,
    responses_reach_own_request rfl rfl hrun halong (by rw [hcount]; decide) hmem hresponse⟩

end Session

end Wnet
