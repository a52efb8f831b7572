import Wnet.Session.Locking
import Wnet.Session.Tokens

/-!
# The ledger of a session

The invariant from which follows that every request is answered once. It says
of every token where its channel is, who holds it, what the channel contains and
whether its handler was called, and of every request that was given a channel
that it has a token or was reported.
-/

namespace Wnet

open Foundation

variable {Body : Type*}

/-- The arguments of a call of `PostPacket`. -/
def Activity.request : Activity Body → Option (Request Body)
  | .postPacket request _ => some request
  | _ => none

/-- Whether a call of `PostPacket`, with packet headers, was given a channel. -/
def Activity.allocates : Activity Body → Bool
  | .postPacket _ stage =>
      match stage with
      | .entered | .admitted | .returned false => false
      | .allocated _ _ | .filled _ | .encoded _ | .stamped _ | .posted | .returned true => true
  | _ => false

/-- The identifiers handed out so far. -/
def Issued (allocations : Nat) (chid : UInt32) : Prop := ∃ count < allocations, chid = idAt count

theorem Issued.mono {allocations later : Nat} {chid : UInt32} (hissued : Issued allocations chid)
    (hle : allocations ≤ later) : Issued later chid := by
  obtain ⟨count, hlt, hchid⟩ := hissued
  exact ⟨count, lt_of_lt_of_le hlt hle, hchid⟩

/-- An identifier that is about to be handed out is new. -/
theorem not_issued_idAt {allocations : Nat} (hcount : allocations + 1 ≤ 2 ^ 28 - 1) :
    ¬ Issued allocations (idAt allocations) := by
  rintro ⟨count, hlt, hchid⟩
  have hsame : allocations = count :=
    idAt_injective_of_lt hcount (lt_trans hlt hcount) hchid
  omega

/-- The packet carries the channel that was allocated for its call. -/
def Posted.Addressed (packet : Posted Body) (allocated : Nat → Option (Ref × UInt32)) : Prop :=
  ∃ channel, packet.channel = some channel ∧
    allocated packet.call = some (channel, packet.packet.header.chid)

/-- A handler was called for the channel of some call of `PostPacket`. -/
def HandlerCall.OnBehalf (invocation : HandlerCall Body)
    (allocated : Nat → Option (Ref × UInt32)) : Prop :=
  ∃ call channel chid, allocated call = some (channel, chid) ∧ invocation.chid = some chid

namespace Session

/-- The calls of handlers on behalf of a channel identifier. -/
def callsFor (session : Session Body) (chid : UInt32) : List (HandlerCall Body) :=
  session.handlerCalls.filter fun invocation => invocation.chid = some chid

/-- The handler of a request was not called, or it was called once, with the
arguments of the request. -/
def Reported (config : Config Body) (session : Session Body) (chid : UInt32)
    (request : Request Body) : Bool → Prop
  | false => session.callsFor chid = []
  | true => ∃ handler packet,
      request.packetHandler.or config.defaultPacketHandler = some handler ∧
      session.callsFor chid = [⟨some chid, handler, packet, request.args⟩]

/-- The records of a session are about identifiers that were handed out. -/
structure Books (session : Session Body) : Prop where
  counter : session.globals.globalChannelId = counterAt session.allocations
  issued : ∀ call channel chid, session.allocated call = some (channel, chid) →
    Issued session.allocations chid
  injective : ∀ call call' channel channel' chid, session.allocated call = some (channel, chid) →
    session.allocated call' = some (channel', chid) → call = call'
  frames : ∀ chid ∈ session.frames, Issued session.allocations chid
  transmitted : ∀ chid ∈ session.transmitted, Issued session.allocations chid
  handlerCalls : ∀ invocation ∈ session.handlerCalls, invocation.OnBehalf session.allocated
  numbered : ∀ call, (session.allocated call).isSome = (session.calls call).allocates
  locked : ∀ call, (session.calls call).locks → session.mutex = some call

end Session

/-- What a token says of its channel. -/
structure Token.Fits (config : Config Body) (session : Session Body) (channel : Ref)
    (token : Token) : Prop where
  allocated : session.allocated token.owner = some (channel, (session.pool.content channel).id)
  own : ∀ call, token.place = .allocated call ∨ token.place = .filled call → token.owner = call
  prepared : ∀ request, (session.calls token.owner).request = some request →
    (∀ call, token.place ≠ .allocated call) →
    (session.pool.content channel).handler = request.packetHandler ∧
    (token.invoked = false → (session.pool.content channel).args = request.args)
  reported : ∀ request, (session.calls token.owner).request = some request →
    session.Reported config (session.pool.content channel).id request token.invoked
  reporting : token.invoked = true → token.place.reporting = true
  unsent : token.place.unsent = true →
    (session.pool.content channel).expireTime = qynetMaxTime + 1 ∧
    (session.pool.content channel).id ∉ session.transmitted ∧
    ((session.pool.content channel).id ∈ session.frames → ∃ call, token.place = .encoded call)

structure Ledger (config : Config Body) (session : Session Body) (tokens : Tokens)
    (use : List Ref) (detached : List (List Ref)) : Prop where
  serving : Serving session.pool session.allocations use detached
  books : session.Books
  inUse : ∀ channel, channel ∈ use ↔
    ∃ token, tokens channel = some token ∧ token.place.inUse = true
  held : ∀ channel token, tokens channel = some token → token.place.inUse = false →
    ∃ chain ∈ detached, channel ∈ chain
  fits : ∀ channel token, tokens channel = some token → token.Fits config session channel
  accounts : ∀ call, Accounts tokens detached call (session.calls call)
  queue : ∀ channel, (∃ token, tokens channel = some token ∧ token.place = .queued) ↔
    ∃ packet ∈ session.outputQueue, packet.channel = some channel
  queueNodup : (session.outputQueue.map Posted.channel).Nodup
  queueOwner : ∀ packet ∈ session.outputQueue, ∀ channel ∈ packet.channel, ∀ token,
    tokens channel = some token → token.owner = packet.call
  addressed : ∀ packet ∈ session.outputQueue, packet.Addressed session.allocated
  filled : ∀ call request packet, session.calls call = .postPacket request (.filled packet) →
    packet.Addressed session.allocated
  settled : ∀ call channel chid, session.allocated call = some (channel, chid) →
    (∃ token, tokens channel = some token ∧ token.owner = call) ∨
    ∀ request, (session.calls call).request = some request →
      session.Reported config chid request true

variable {config : Config Body} {session session' : Session Body} {tokens : Tokens}
  {use : List Ref} {detached : List (List Ref)} {call : Nat} {activity : Activity Body}

theorem Token.Fits.frame {token : Token} {channel : Ref}
    (hfits : token.Fits config session channel)
    (hcontent : session'.pool.content channel = session.pool.content channel)
    (hallocated : session'.allocated token.owner = session.allocated token.owner)
    (hrequest : (session'.calls token.owner).request = (session.calls token.owner).request)
    (hcalls : session'.callsFor (session.pool.content channel).id =
      session.callsFor (session.pool.content channel).id)
    (htransmitted : token.place.unsent = true →
      (session.pool.content channel).id ∈ session'.transmitted →
      (session.pool.content channel).id ∈ session.transmitted)
    (hframes : (session.pool.content channel).id ∈ session'.frames →
      (session.pool.content channel).id ∈ session.frames) :
    token.Fits config session' channel := by
  refine ⟨?_, hfits.own, ?_, ?_, hfits.reporting, ?_⟩
  · rw [hallocated, hcontent]
    exact hfits.allocated
  · rw [hrequest, hcontent]
    exact hfits.prepared
  · rw [hrequest, hcontent]
    intro request hrequest'
    have hreported := hfits.reported request hrequest'
    cases hinvoked : token.invoked with
    | false =>
        rw [hinvoked] at hreported
        exact hcalls.trans hreported
    | true =>
        rw [hinvoked] at hreported
        obtain ⟨handler, packet, hhandler, hcall⟩ := hreported
        exact ⟨handler, packet, hhandler, hcalls.trans hcall⟩
  · intro hunsent
    obtain ⟨hexpire, hnot, hframe⟩ := hfits.unsent hunsent
    rw [hcontent]
    exact ⟨hexpire, fun hmem => hnot (htransmitted hunsent hmem),
      fun hmem => hframe (hframes hmem)⟩

/-! ## The mutex -/

section Mutex

variable (hlocked : ∀ call, (session.calls call).locks → session.mutex = some call)
include hlocked

/-- Others do not notice a call that neither takes nor releases the mutex. -/
theorem locked_same (hactivity : activity.locks → (session.calls call).locks) (other : Nat)
    (hother : (Function.update session.calls call activity other).locks) :
    session.mutex = some other := by
  by_cases hsame : other = call
  · subst hsame
    rw [Function.update_self] at hother
    exact hlocked other (hactivity hother)
  · rw [Function.update_of_ne hsame] at hother
    exact hlocked other hother

theorem locked_acquire (hfree : session.mutex = none) (other : Nat)
    (hother : (Function.update session.calls call activity other).locks) :
    some call = some other := by
  by_cases hsame : other = call
  · rw [hsame]
  · rw [Function.update_of_ne hsame] at hother
    have hholder := hlocked other hother
    rw [hfree] at hholder
    cases hholder

theorem locked_release (hholds : (session.calls call).locks) (hactivity : activity.locks = false)
    (other : Nat) (hother : (Function.update session.calls call activity other).locks) :
    none = some other := by
  by_cases hsame : other = call
  · subst hsame
    rw [Function.update_self, hactivity] at hother
    cases hother
  · rw [Function.update_of_ne hsame] at hother
    have hholder := (hlocked other hother).symm.trans (hlocked call hholds)
    exact absurd (Option.some.inj hholder) hsame

end Mutex

/-! ## Steps that leave the tokens alone -/

theorem Session.Books.turn (hbooks : session.Books)
    (hcounter : session'.globals.globalChannelId = counterAt session'.allocations)
    (hallocations : session.allocations ≤ session'.allocations)
    (hallocated : session'.allocated = session.allocated)
    (hframes : ∀ chid ∈ session'.frames, chid ∈ session.frames ∨ Issued session.allocations chid)
    (htransmitted : ∀ chid ∈ session'.transmitted,
      chid ∈ session.transmitted ∨ Issued session.allocations chid)
    (hhandlerCalls : ∀ invocation ∈ session'.handlerCalls, invocation ∈ session.handlerCalls ∨
      invocation.OnBehalf session.allocated)
    (hcalls : session'.calls = Function.update session.calls call activity)
    (hallocates : activity.allocates = (session.calls call).allocates)
    (hlocked : ∀ other, (Function.update session.calls call activity other).locks →
      session'.mutex = some other) : session'.Books := by
  refine ⟨hcounter, ?_, ?_, ?_, ?_, ?_, ?_, ?_⟩
  · intro other channel chid hother
    rw [hallocated] at hother
    exact (hbooks.issued other channel chid hother).mono hallocations
  · rw [hallocated]
    exact hbooks.injective
  · intro chid hchid
    rcases hframes chid hchid with hold | hissued
    · exact (hbooks.frames chid hold).mono hallocations
    · exact hissued.mono hallocations
  · intro chid hchid
    rcases htransmitted chid hchid with hold | hissued
    · exact (hbooks.transmitted chid hold).mono hallocations
    · exact hissued.mono hallocations
  · intro invocation hinvocation
    rw [hallocated]
    rcases hhandlerCalls invocation hinvocation with hold | hnew
    · exact hbooks.handlerCalls invocation hold
    · exact hnew
  · intro other
    rw [hallocated, hcalls, hbooks.numbered]
    by_cases hsame : other = call
    · rw [hsame, Function.update_self, hallocates]
    · rw [Function.update_of_ne hsame]
  · rw [hcalls]
    exact hlocked

/-- The request of a call that was given a channel does not change. -/
theorem request_update (hcalls : session'.calls = Function.update session.calls call activity)
    (hrequest : (session.allocated call).isSome → activity.request = (session.calls call).request)
    (owner : Nat) (howner : (session.allocated owner).isSome) :
    (session'.calls owner).request = (session.calls owner).request := by
  rw [hcalls]
  by_cases hsame : owner = call
  · subst hsame
    rw [Function.update_self]
    exact hrequest howner
  · rw [Function.update_of_ne hsame]

/-- Calls other than the acting one stay as they are and hold what they held. -/
theorem accounts_update {tokens' : Tokens} {detached' : List (List Ref)}
    (haccounts : ∀ call, Accounts tokens detached call (session.calls call))
    (hcalls : session'.calls = Function.update session.calls call activity)
    (hacting : Accounts tokens' detached' call activity)
    (htokens : ∀ other ≠ call, ∀ channel token, token.place.holder = some other →
      (tokens' channel = some token ↔ tokens channel = some token))
    (hkeep : ∀ other ≠ call, ∀ chain ∈ detached, chain ≠ [] →
      (∀ channel ∈ chain, ∃ token, tokens channel = some token ∧
        token.place.holder = some other) → chain ∈ detached') (other : Nat) :
    Accounts tokens' detached' other (session'.calls other) := by
  rw [hcalls]
  by_cases hsame : other = call
  · subst hsame
    rw [Function.update_self]
    exact hacting
  · rw [Function.update_of_ne hsame]
    exact (haccounts other).frame (htokens other hsame) (hkeep other hsame)

/-- A packet before it is placed keeps its address. -/
theorem filled_update
    (hfilled : ∀ call request packet, session.calls call = .postPacket request (.filled packet) →
      packet.Addressed session.allocated)
    (hcalls : session'.calls = Function.update session.calls call activity)
    (hallocated : session'.allocated = session.allocated)
    (hactivity : ∀ request packet, activity = .postPacket request (.filled packet) →
      packet.Addressed session.allocated) (other : Nat) (request : Request Body)
    (packet : Posted Body) (hother : session'.calls other = .postPacket request (.filled packet)) :
    packet.Addressed session'.allocated := by
  rw [hcalls] at hother
  rw [hallocated]
  by_cases hsame : other = call
  · subst hsame
    rw [Function.update_self] at hother
    exact hactivity request packet hother
  · rw [Function.update_of_ne hsame] at hother
    exact hfilled other request packet hother

/-- A request that has a token keeps one, and one that was reported stays so. -/
theorem settled_update {tokens' : Tokens}
    (hsettled : ∀ call channel chid, session.allocated call = some (channel, chid) →
      (∃ token, tokens channel = some token ∧ token.owner = call) ∨
      ∀ request, (session.calls call).request = some request →
        session.Reported config chid request true)
    (hcalls : session'.calls = Function.update session.calls call activity)
    (hrequest : (session.allocated call).isSome → activity.request = (session.calls call).request)
    (hallocated : session'.allocated = session.allocated)
    (hhandlerCalls : session'.handlerCalls = session.handlerCalls)
    (htokens : ∀ channel token, tokens channel = some token →
      ∃ token', tokens' channel = some token' ∧ token'.owner = token.owner)
    (other : Nat) (channel : Ref) (chid : UInt32)
    (hother : session'.allocated other = some (channel, chid)) :
    (∃ token, tokens' channel = some token ∧ token.owner = other) ∨
      ∀ request, (session'.calls other).request = some request →
        session'.Reported config chid request true := by
  rw [hallocated] at hother
  rcases hsettled other channel chid hother with ⟨token, htoken, rfl⟩ | hreported
  · exact Or.inl (htokens channel token htoken)
  · refine Or.inr fun request hrequest' => ?_
    rw [request_update hcalls hrequest _ (by rw [hother]; rfl)] at hrequest'
    obtain ⟨handler, packet, hhandler, hcall⟩ := hreported request hrequest'
    refine ⟨handler, packet, hhandler, ?_⟩
    rw [Session.callsFor, hhandlerCalls]
    exact hcall

/-- A step after which nothing but the records of sent frames is different for any channel. -/
theorem Ledger.quiet (hledger : Ledger config session tokens use detached)
    (hbooks : session'.Books) (hpool : session'.pool = session.pool)
    (hallocations : session.allocations ≤ session'.allocations)
    (hqueue : session'.outputQueue = session.outputQueue)
    (hallocated : session'.allocated = session.allocated)
    (hhandlerCalls : session'.handlerCalls = session.handlerCalls)
    (hframes : ∀ chid ∈ session'.frames, chid ∈ session.frames)
    (htransmitted : ∀ channel token, tokens channel = some token → token.place.unsent = true →
      (session.pool.content channel).id ∈ session'.transmitted →
      (session.pool.content channel).id ∈ session.transmitted)
    (hcalls : session'.calls = Function.update session.calls call activity)
    (hrequest : (session.allocated call).isSome → activity.request = (session.calls call).request)
    (hholds : ∀ held, Holds detached call (session.calls call) held →
      Holds detached call activity held)
    (hfilled : ∀ request packet, activity = .postPacket request (.filled packet) →
      packet.Addressed session.allocated) :
    Ledger config session' tokens use detached := by
  refine ⟨?_, hbooks, hledger.inUse, hledger.held, ?_, ?_, ?_, ?_, ?_, ?_, ?_, ?_⟩
  · rw [hpool]
    exact hledger.serving.mono hallocations
  · intro channel token htoken
    have hfits := hledger.fits channel token htoken
    apply hfits.frame
    · rw [hpool]
    · rw [hallocated]
    · exact request_update hcalls hrequest _ (by rw [hfits.allocated]; rfl)
    · rw [Session.callsFor, Session.callsFor, hhandlerCalls]
    · exact htransmitted channel token htoken
    · exact hframes _
  · exact accounts_update hledger.accounts hcalls ((hledger.accounts call).turn hholds)
      (fun _ _ _ _ _ => Iff.rfl) (fun _ _ _ hchain _ _ => hchain)
  · rw [hqueue]
    exact hledger.queue
  · rw [hqueue]
    exact hledger.queueNodup
  · rw [hqueue]
    exact hledger.queueOwner
  · rw [hqueue, hallocated]
    exact hledger.addressed
  · exact filled_update hledger.filled hcalls hallocated hfilled
  · exact settled_update hledger.settled hcalls hrequest hallocated hhandlerCalls
      fun channel token htoken => ⟨token, htoken, rfl⟩

/-- Two states with the same records. -/
structure SameBooks (session session' : Session Body) : Prop where
  globals : session'.globals = session.globals
  allocations : session'.allocations = session.allocations
  allocated : session'.allocated = session.allocated
  frames : session'.frames = session.frames
  transmitted : session'.transmitted = session.transmitted
  handlerCalls : session'.handlerCalls = session.handlerCalls

theorem Session.Books.same (hbooks : session.Books) (hsame : SameBooks session session')
    (hcalls : session'.calls = Function.update session.calls call activity)
    (hallocates : activity.allocates = (session.calls call).allocates)
    (hlocked : ∀ other, (Function.update session.calls call activity other).locks →
      session'.mutex = some other) : session'.Books := by
  refine hbooks.turn ?_ hsame.allocations.ge hsame.allocated ?_ ?_ ?_ hcalls hallocates hlocked
  · rw [hsame.globals, hsame.allocations]
    exact hbooks.counter
  · rw [hsame.frames]
    exact fun chid hmem => Or.inl hmem
  · rw [hsame.transmitted]
    exact fun chid hmem => Or.inl hmem
  · rw [hsame.handlerCalls]
    exact fun invocation hmem => Or.inl hmem

/-- A call goes on without touching anything but its own stage. -/
theorem Ledger.turn (hledger : Ledger config session tokens use detached)
    (hsame : SameBooks session session') (hpool : session'.pool = session.pool)
    (hqueue : session'.outputQueue = session.outputQueue)
    (hcalls : session'.calls = Function.update session.calls call activity)
    (hlocked : ∀ other, (Function.update session.calls call activity other).locks →
      session'.mutex = some other)
    (hallocates : activity.allocates = (session.calls call).allocates)
    (hrequest : (session.allocated call).isSome → activity.request = (session.calls call).request)
    (hholds : ∀ held, Holds detached call (session.calls call) held →
      Holds detached call activity held)
    (hfilled : ∀ request packet, activity = .postPacket request (.filled packet) →
      packet.Addressed session.allocated) :
    Ledger config session' tokens use detached := by
  refine hledger.quiet (hledger.books.same hsame hcalls hallocates hlocked) hpool
    hsame.allocations.ge hqueue hsame.allocated hsame.handlerCalls ?_ ?_ hcalls hrequest hholds
    hfilled
  · rw [hsame.frames]
    exact fun chid hmem => hmem
  · rw [hsame.transmitted]
    exact fun channel token _ _ hmem => hmem

/-! ## Steps that move channels -/

theorem relocate_some {moved : List Ref} {place : Place} {channel : Ref} {token : Token}
    (htoken : tokens channel = some token) :
    tokens.relocate moved place channel =
      some (if channel ∈ moved then { token with place := place } else token) := by
  unfold Tokens.relocate
  split <;> simp [htoken]

theorem relocate_cases {moved : List Ref} {place : Place} {channel : Ref} {token : Token}
    (htoken : tokens.relocate moved place channel = some token) :
    (channel ∈ moved ∧ ∃ old, tokens channel = some old ∧ token = { old with place := place }) ∨
      channel ∉ moved ∧ tokens channel = some token := by
  unfold Tokens.relocate at htoken
  split at htoken
  next hmem =>
    obtain ⟨old, hold, rfl⟩ := Option.map_eq_some_iff.mp htoken
    exact Or.inl ⟨hmem, old, hold, rfl⟩
  next hmem => exact Or.inr ⟨hmem, htoken⟩

/-- The queue is not touched when channels that are not queued move elsewhere. -/
theorem queue_relocate {moved : List Ref} {place : Place} (hplace : place ≠ .queued)
    (hmoved : ∀ channel ∈ moved, ∀ token, tokens channel = some token → token.place ≠ .queued)
    (channel : Ref) :
    (∃ token, tokens.relocate moved place channel = some token ∧ token.place = .queued) ↔
      ∃ token, tokens channel = some token ∧ token.place = .queued := by
  constructor
  · rintro ⟨token, htoken, hqueued⟩
    rcases relocate_cases htoken with ⟨-, old, -, rfl⟩ | ⟨-, hold⟩
    · exact absurd hqueued hplace
    · exact ⟨token, hold, hqueued⟩
  · rintro ⟨token, htoken, hqueued⟩
    refine ⟨token, ?_, hqueued⟩
    rw [relocate_some htoken, if_neg]
    exact fun hmem => hmoved channel hmem token htoken hqueued

/-- A call takes channels from where nobody or itself holds them, and puts them
where nobody or itself holds them. -/
theorem Ledger.relocate {moved : List Ref} {place : Place} {use' : List Ref}
    {detached' : List (List Ref)} (hledger : Ledger config session tokens use detached)
    (hserving : Serving session'.pool session'.allocations use' detached')
    (hbooks : session'.Books) (hallocated : session'.allocated = session.allocated)
    (htransmitted : session'.transmitted = session.transmitted)
    (hhandlerCalls : session'.handlerCalls = session.handlerCalls)
    (hcalls : session'.calls = Function.update session.calls call activity)
    (hrequest : (session.allocated call).isSome → activity.request = (session.calls call).request)
    (hfilled : ∀ request packet, activity = .postPacket request (.filled packet) →
      packet.Addressed session.allocated)
    (hcontent : ∀ channel ∉ moved, session'.pool.content channel = session.pool.content channel)
    (hframes : ∀ channel ∉ moved, ∀ token, tokens channel = some token →
      (session.pool.content channel).id ∈ session'.frames →
      (session.pool.content channel).id ∈ session.frames)
    (hmoved : ∀ channel ∈ moved, ∃ token, tokens channel = some token ∧
      (token.place.holder = none ∨ token.place.holder = some call) ∧
      Token.Fits config session' channel { token with place := place })
    (hplace : place.holder = none ∨ place.holder = some call)
    (huse : ∀ channel, channel ∈ use' ↔
      channel ∈ moved ∧ place.inUse = true ∨ channel ∉ moved ∧ channel ∈ use)
    (hdetached : ∀ chain ∈ detached, chain ∈ detached')
    (hheld : place.inUse = false → ∀ channel ∈ moved, ∃ chain ∈ detached', channel ∈ chain)
    (hacting : Accounts (tokens.relocate moved place) detached' call activity)
    (hqueue : ∀ channel,
      (∃ token, tokens.relocate moved place channel = some token ∧ token.place = .queued) ↔
        ∃ packet ∈ session'.outputQueue, packet.channel = some channel)
    (hnodup : (session'.outputQueue.map Posted.channel).Nodup)
    (howner : ∀ packet ∈ session'.outputQueue, ∀ channel ∈ packet.channel, ∀ token,
      tokens channel = some token → token.owner = packet.call)
    (haddressed : ∀ packet ∈ session'.outputQueue, packet.Addressed session.allocated) :
    Ledger config session' (tokens.relocate moved place) use' detached' := by
  constructor
  case serving => exact hserving
  case books => exact hbooks
  case inUse =>
    intro channel
    rw [huse]
    by_cases hmem : channel ∈ moved
    · obtain ⟨token, htoken, -⟩ := hmoved channel hmem
      simp [relocate_some htoken, hmem]
    · rw [hledger.inUse channel]
      simp [Tokens.relocate, hmem]
  case held =>
    intro channel token htoken hinUse
    rcases relocate_cases htoken with ⟨hmem, old, -, rfl⟩ | ⟨-, hold⟩
    · exact hheld hinUse channel hmem
    · obtain ⟨chain, hchain, hmem⟩ := hledger.held channel token hold hinUse
      exact ⟨chain, hdetached chain hchain, hmem⟩
  case fits =>
    intro channel token htoken
    rcases relocate_cases htoken with ⟨hmem, old, hold, rfl⟩ | ⟨hmem, hold⟩
    · obtain ⟨token, htoken', -, hfits⟩ := hmoved channel hmem
      rw [hold] at htoken'
      exact Option.some.inj htoken' ▸ hfits
    · have hfits := hledger.fits channel token hold
      apply hfits.frame (hcontent channel hmem)
      · rw [hallocated]
      · exact request_update hcalls hrequest _ (by rw [hfits.allocated]; rfl)
      · rw [Session.callsFor, Session.callsFor, hhandlerCalls]
      · rw [htransmitted]
        exact fun _ hsent => hsent
      · exact hframes channel hmem token hold
  case accounts =>
    refine accounts_update hledger.accounts hcalls hacting ?_
      (fun _ _ chain hchain _ _ => hdetached chain hchain)
    -- Moved tokens are with nobody or with the acting call, before and after.
    intro other hother channel token hholder
    by_cases hmem : channel ∈ moved
    · obtain ⟨old, hold, hbefore, -⟩ := hmoved channel hmem
      rw [relocate_some hold, hold, if_pos hmem]
      constructor
      · intro hsame
        obtain rfl := Option.some.inj hsame
        rcases hplace with hnone | hcall
        · exact absurd (hnone.symm.trans hholder) (by simp)
        · exact absurd (Option.some.inj (hholder.symm.trans hcall)) hother
      · intro hsame
        obtain rfl := Option.some.inj hsame
        rcases hbefore with hnone | hcall
        · exact absurd (hnone.symm.trans hholder) (by simp)
        · exact absurd (Option.some.inj (hholder.symm.trans hcall)) hother
    · simp [Tokens.relocate, hmem]
  case queue => exact hqueue
  case queueNodup => exact hnodup
  case queueOwner =>
    intro packet hpacket channel hchannel token htoken
    rcases relocate_cases htoken with ⟨-, old, hold, rfl⟩ | ⟨-, hold⟩
    · exact howner packet hpacket channel hchannel old hold
    · exact howner packet hpacket channel hchannel token hold
  case addressed =>
    rw [hallocated]
    exact haddressed
  case filled => exact filled_update hledger.filled hcalls hallocated hfilled
  case settled =>
    refine settled_update hledger.settled hcalls hrequest hallocated hhandlerCalls ?_
    intro channel token htoken
    refine ⟨_, relocate_some htoken, ?_⟩
    split <;> rfl

/-- Moving a channel to where it is changes nothing. -/
theorem relocate_self {channel : Ref} {token : Token} (htoken : tokens channel = some token) :
    tokens.relocate [channel] token.place = tokens := by
  funext other
  by_cases hsame : other = channel
  · subst hsame
    rw [relocate_some htoken, htoken]
    simp
  · simp [Tokens.relocate, hsame]

/-! ## Handlers are called -/

theorem report_some {reported channel : Ref} {token : Token}
    (htoken : tokens channel = some token) :
    tokens.report reported channel =
      some (if channel = reported then { token with invoked := true } else token) := by
  unfold Tokens.report
  split <;> simp [htoken]

theorem report_cases {reported channel : Ref} {token : Token}
    (htoken : tokens.report reported channel = some token) :
    ∃ old, tokens channel = some old ∧ token.owner = old.owner ∧ token.place = old.place ∧
      (channel = reported ∧ token.invoked = true ∨ channel ≠ reported ∧ token = old) := by
  unfold Tokens.report at htoken
  split at htoken
  next hsame =>
    obtain ⟨old, hold, rfl⟩ := Option.map_eq_some_iff.mp htoken
    exact ⟨old, hold, rfl, rfl, Or.inl ⟨hsame, rfl⟩⟩
  next hne => exact ⟨token, htoken, rfl, rfl, Or.inr ⟨hne, rfl⟩⟩

theorem callsFor_concat_of_ne {invocation : HandlerCall Body} {chid : UInt32}
    (hhandlerCalls : session'.handlerCalls = session.handlerCalls ++ [invocation])
    (hne : invocation.chid ≠ some chid) : session'.callsFor chid = session.callsFor chid := by
  rw [Session.callsFor, Session.callsFor, hhandlerCalls, List.filter_append]
  simp [hne]

/-- The token of a channel whose handler is called. -/
theorem Token.Fits.report {channel : Ref} {token new : Token} {handler : Nat}
    {packet : Notice Body} (hfits : token.Fits config session channel)
    (howner : new.owner = token.owner) (hplace : new.place = token.place)
    (hbefore : token.invoked = false) (hnow : new.invoked = true)
    (hreporting : token.place.reporting = true)
    (hhandler : (session.pool.content channel).handler.or config.defaultPacketHandler =
      some handler)
    (hpool : session'.pool = session.pool) (hallocated : session'.allocated = session.allocated)
    (hframes : session'.frames = session.frames)
    (htransmitted : session'.transmitted = session.transmitted)
    (hhandlerCalls : session'.handlerCalls = session.handlerCalls ++
      [⟨some (session.pool.content channel).id, handler, packet,
        (session.pool.content channel).args⟩])
    (hrequests : (session'.calls token.owner).request = (session.calls token.owner).request) :
    new.Fits config session' channel := by
  have hprepared : ∀ call, token.place ≠ .allocated call := by
    intro call hallocated
    rw [hallocated] at hreporting
    cases hreporting
  constructor
  case allocated =>
    rw [howner, hallocated, hpool]
    exact hfits.allocated
  case own =>
    rw [howner, hplace]
    exact hfits.own
  case prepared =>
    rw [howner, hplace, hpool, hrequests]
    intro request hrequest _
    exact ⟨(hfits.prepared request hrequest hprepared).1,
      fun hfalse => absurd (hnow.symm.trans hfalse) (by simp)⟩
  case reported =>
    rw [howner, hnow, hpool, hrequests]
    intro request hrequest
    obtain ⟨hsameHandler, hsameArgs⟩ := hfits.prepared request hrequest hprepared
    have hnone := hfits.reported request hrequest
    rw [hbefore] at hnone
    have hfilter : session.handlerCalls.filter (fun invocation =>
        invocation.chid = some (session.pool.content channel).id) = [] := hnone
    refine ⟨handler, packet, hsameHandler ▸ hhandler, ?_⟩
    rw [Session.callsFor, hhandlerCalls, List.filter_append, hfilter, ← hsameArgs hbefore]
    simp
  case reporting => exact fun _ => hplace ▸ hreporting
  case unsent =>
    rw [hplace, hpool, htransmitted, hframes]
    exact hfits.unsent

/-- The handler of a channel is called by the call that holds the channel for that purpose. -/
theorem Ledger.report {channel : Ref} {token : Token} {handler : Nat} {packet : Notice Body}
    (hledger : Ledger config session tokens use detached)
    (htoken : tokens channel = some token) (hinvoked : token.invoked = false)
    (hplace : token.place.reporting = true) (hholder : token.place.holder = some call)
    (hhandler : (session.pool.content channel).handler.or config.defaultPacketHandler =
      some handler)
    (hbooks : session'.Books) (hpool : session'.pool = session.pool)
    (hallocations : session'.allocations = session.allocations)
    (hqueue : session'.outputQueue = session.outputQueue)
    (hallocated : session'.allocated = session.allocated)
    (hframes : session'.frames = session.frames)
    (htransmitted : session'.transmitted = session.transmitted)
    (hhandlerCalls : session'.handlerCalls = session.handlerCalls ++
      [⟨some (session.pool.content channel).id, handler, packet,
        (session.pool.content channel).args⟩])
    (hcalls : session'.calls = Function.update session.calls call activity)
    (hrequest : (session.allocated call).isSome → activity.request = (session.calls call).request)
    (hfilled : ∀ request packet, activity ≠ .postPacket request (.filled packet))
    (hacting : Accounts (tokens.report channel) detached call activity) :
    Ledger config session' (tokens.report channel) use detached := by
  have hfits := hledger.fits channel token htoken
  -- Another owner has another identifier, whose handler calls do not change.
  have hothers : ∀ owner other chid, session.allocated owner = some (other, chid) →
      owner ≠ token.owner → session'.callsFor chid = session.callsFor chid := by
    intro owner other chid howner hne
    apply callsFor_concat_of_ne hhandlerCalls
    intro hsame
    obtain rfl := Option.some.inj hsame
    exact hne (hledger.books.injective owner token.owner other channel _ howner hfits.allocated)
  have hrequests : ∀ owner, (session.allocated owner).isSome →
      (session'.calls owner).request = (session.calls owner).request :=
    request_update hcalls hrequest
  constructor
  case serving =>
    rw [hpool, hallocations]
    exact hledger.serving
  case books => exact hbooks
  case inUse =>
    intro other
    rw [hledger.inUse other]
    constructor
    · rintro ⟨old, hold, hinUse⟩
      refine ⟨_, report_some hold, ?_⟩
      split <;> exact hinUse
    · rintro ⟨new, hnew, hinUse⟩
      obtain ⟨old, hold, -, hsame, -⟩ := report_cases hnew
      exact ⟨old, hold, hsame ▸ hinUse⟩
  case held =>
    intro other new hnew hinUse
    obtain ⟨old, hold, -, hsame, -⟩ := report_cases hnew
    exact hledger.held other old hold (hsame ▸ hinUse)
  case fits =>
    intro other new hnew
    obtain ⟨old, hold, howner, hsame, ⟨rfl, hnow⟩ | ⟨hne, rfl⟩⟩ := report_cases hnew
    · obtain rfl : old = token := Option.some.inj (hold.symm.trans htoken)
      exact hfits.report howner hsame hinvoked hnow hplace hhandler hpool hallocated hframes
        htransmitted hhandlerCalls (hrequests _ (by rw [hfits.allocated]; rfl))
    · have hfits' := hledger.fits other new hold
      apply hfits'.frame
      · rw [hpool]
      · rw [hallocated]
      · exact hrequests _ (by rw [hfits'.allocated]; rfl)
      · apply hothers new.owner other _ hfits'.allocated
        intro hsameOwner
        have hsameChannel := hfits'.allocated
        rw [hsameOwner, hfits.allocated, Option.some.injEq, Prod.mk.injEq] at hsameChannel
        exact hne hsameChannel.1.symm
      · rw [htransmitted]
        exact fun _ hmem => hmem
      · rw [hframes]
        exact fun hmem => hmem
  case accounts =>
    refine accounts_update hledger.accounts hcalls hacting ?_ (fun _ _ _ hchain _ _ => hchain)
    intro other hother other' new hnew
    by_cases hsame : other' = channel
    · subst hsame
      rw [report_some htoken, htoken]
      constructor
      · intro heq
        obtain rfl := Option.some.inj heq
        rw [if_pos rfl] at hnew
        exact absurd (Option.some.inj (hnew.symm.trans hholder)) hother
      · intro heq
        obtain rfl := Option.some.inj heq
        exact absurd (Option.some.inj (hnew.symm.trans hholder)) hother
    · simp [Tokens.report, hsame]
  case queue =>
    intro other
    rw [hqueue, ← hledger.queue other]
    constructor
    · rintro ⟨new, hnew, hqueued⟩
      obtain ⟨old, hold, -, hsame, -⟩ := report_cases hnew
      exact ⟨old, hold, hsame ▸ hqueued⟩
    · rintro ⟨old, hold, hqueued⟩
      refine ⟨_, report_some hold, ?_⟩
      split <;> exact hqueued
  case queueNodup =>
    rw [hqueue]
    exact hledger.queueNodup
  case queueOwner =>
    rw [hqueue]
    intro packet hpacket other hother new hnew
    obtain ⟨old, hold, howner, -⟩ := report_cases hnew
    exact howner.trans (hledger.queueOwner packet hpacket other hother old hold)
  case addressed =>
    rw [hqueue, hallocated]
    exact hledger.addressed
  case filled =>
    exact filled_update hledger.filled hcalls hallocated
      fun request packet hactivity => absurd hactivity (hfilled request packet)
  case settled =>
    intro owner other chid howner
    rw [hallocated] at howner
    by_cases hsame : owner = token.owner
    · subst hsame
      rw [hfits.allocated, Option.some.injEq, Prod.mk.injEq] at howner
      refine Or.inl ⟨{ token with invoked := true }, ?_, rfl⟩
      rw [← howner.1, report_some htoken, if_pos rfl]
    · rcases hledger.settled owner other chid howner with ⟨old, hold, hown⟩ | hreported
      · refine Or.inl ⟨_, report_some hold, ?_⟩
        split <;> exact hown
      · refine Or.inr fun request hrequest' => ?_
        rw [hrequests owner (by rw [howner]; rfl)] at hrequest'
        obtain ⟨handler', packet', hhandler', hcall⟩ := hreported request hrequest'
        exact ⟨handler', packet', hhandler', (hothers owner other chid howner hsame).trans hcall⟩

/-! ## Channels go back to the pool -/

theorem release_cases {gone : List Ref} {channel : Ref} {token : Token}
    (htoken : tokens.release gone channel = some token) :
    channel ∉ gone ∧ tokens channel = some token := by
  unfold Tokens.release at htoken
  split at htoken
  next => cases htoken
  next hmem => exact ⟨hmem, htoken⟩

theorem release_some {gone : List Ref} {channel : Ref} {token : Token}
    (htoken : tokens channel = some token) (hmem : channel ∉ gone) :
    tokens.release gone channel = some token := by
  rw [Tokens.release, if_neg hmem, htoken]

/-- A call gives channels back whose handlers it has called. -/
theorem Ledger.release {gone : List Ref} {use' : List Ref} {detached' : List (List Ref)}
    (hledger : Ledger config session tokens use detached)
    (hgone : ∀ channel ∈ gone, ∃ token, tokens channel = some token ∧ token.invoked = true ∧
      token.place.holder = some call)
    (hserving : Serving session'.pool session'.allocations use' detached')
    (hbooks : session'.Books) (hqueue : session'.outputQueue = session.outputQueue)
    (hallocated : session'.allocated = session.allocated)
    (hframes : session'.frames = session.frames)
    (htransmitted : session'.transmitted = session.transmitted)
    (hhandlerCalls : session'.handlerCalls = session.handlerCalls)
    (hcalls : session'.calls = Function.update session.calls call activity)
    (hrequest : (session.allocated call).isSome → activity.request = (session.calls call).request)
    (hfilled : ∀ request packet, activity ≠ .postPacket request (.filled packet))
    (hcontent : ∀ channel ∉ gone, session'.pool.content channel = session.pool.content channel)
    (huse : ∀ channel, channel ∈ use' ↔ channel ∈ use ∧ channel ∉ gone)
    (hdetached : ∀ chain ∈ detached, chain ∉ detached' → ∀ channel ∈ chain, channel ∈ gone)
    (hacting : Accounts (tokens.release gone) detached' call activity) :
    Ledger config session' (tokens.release gone) use' detached' := by
  -- A channel that goes back is held by the acting call.
  have hholder : ∀ {channel token}, channel ∈ gone → tokens channel = some token →
      token.place.holder = some call := by
    intro channel token hmem htoken
    obtain ⟨old, hold, -, hcall⟩ := hgone channel hmem
    obtain rfl := Option.some.inj (hold.symm.trans htoken)
    exact hcall
  constructor
  case serving => exact hserving
  case books => exact hbooks
  case inUse =>
    intro channel
    rw [huse, hledger.inUse channel]
    constructor
    · rintro ⟨⟨token, htoken, hinUse⟩, hmem⟩
      exact ⟨token, release_some htoken hmem, hinUse⟩
    · rintro ⟨token, htoken, hinUse⟩
      obtain ⟨hmem, hold⟩ := release_cases htoken
      exact ⟨⟨token, hold, hinUse⟩, hmem⟩
  case held =>
    intro channel token htoken hinUse
    obtain ⟨hmem, hold⟩ := release_cases htoken
    obtain ⟨chain, hchain, hin⟩ := hledger.held channel token hold hinUse
    refine ⟨chain, ?_, hin⟩
    by_contra hnot
    exact hmem (hdetached chain hchain hnot channel hin)
  case fits =>
    intro channel token htoken
    obtain ⟨hmem, hold⟩ := release_cases htoken
    have hfits := hledger.fits channel token hold
    apply hfits.frame (hcontent channel hmem)
    · rw [hallocated]
    · exact request_update hcalls hrequest _ (by rw [hfits.allocated]; rfl)
    · rw [Session.callsFor, Session.callsFor, hhandlerCalls]
    · rw [htransmitted]
      exact fun _ hsent => hsent
    · rw [hframes]
      exact fun hframe => hframe
  case accounts =>
    refine accounts_update hledger.accounts hcalls hacting ?_ ?_
    · intro other hother channel token hheld
      refine ⟨fun htoken => (release_cases htoken).2, fun htoken => release_some htoken ?_⟩
      intro hmem
      exact hother (Option.some.inj (hheld.symm.trans (hholder hmem htoken)))
    · intro other hother chain hchain hne hall
      by_contra hnot
      obtain ⟨channel, hin⟩ := List.exists_mem_of_ne_nil chain hne
      obtain ⟨token, htoken, hheld⟩ := hall channel hin
      have hmem := hdetached chain hchain hnot channel hin
      exact hother (Option.some.inj (hheld.symm.trans (hholder hmem htoken)))
  case queue =>
    intro channel
    rw [hqueue, ← hledger.queue channel]
    constructor
    · rintro ⟨token, htoken, hqueued⟩
      exact ⟨token, (release_cases htoken).2, hqueued⟩
    · rintro ⟨token, htoken, hqueued⟩
      refine ⟨token, release_some htoken fun hmem => ?_, hqueued⟩
      have hheld := hholder hmem htoken
      rw [hqueued] at hheld
      cases hheld
  case queueNodup =>
    rw [hqueue]
    exact hledger.queueNodup
  case queueOwner =>
    rw [hqueue]
    exact fun packet hpacket other hother token htoken =>
      hledger.queueOwner packet hpacket other hother token (release_cases htoken).2
  case addressed =>
    rw [hqueue, hallocated]
    exact hledger.addressed
  case filled =>
    exact filled_update hledger.filled hcalls hallocated
      fun request packet hactivity => absurd hactivity (hfilled request packet)
  case settled =>
    intro owner channel chid howner
    rw [hallocated] at howner
    have hrequests := request_update hcalls hrequest owner (by rw [howner]; rfl)
    have hcallsFor : session'.callsFor chid = session.callsFor chid := by
      rw [Session.callsFor, Session.callsFor, hhandlerCalls]
    rcases hledger.settled owner channel chid howner with ⟨token, htoken, rfl⟩ | hreported
    · by_cases hmem : channel ∈ gone
      · -- The handler was called, and so the request is settled without its token.
        obtain ⟨old, hold, hinvoked, -⟩ := hgone channel hmem
        obtain rfl := Option.some.inj (hold.symm.trans htoken)
        have hfits := hledger.fits channel old htoken
        have hid := hfits.allocated
        rw [howner, Option.some.injEq, Prod.mk.injEq] at hid
        refine Or.inr fun request hrequest' => ?_
        have hreported := hfits.reported request (hrequests ▸ hrequest')
        rw [hinvoked, ← hid.2] at hreported
        obtain ⟨handler, packet, hhandler, hcall⟩ := hreported
        exact ⟨handler, packet, hhandler, hcallsFor.trans hcall⟩
      · exact Or.inl ⟨token, release_some htoken hmem, rfl⟩
    · refine Or.inr fun request hrequest' => ?_
      obtain ⟨handler, packet, hhandler, hcall⟩ := hreported request (hrequests ▸ hrequest')
      exact ⟨handler, packet, hhandler, hcallsFor.trans hcall⟩

/-! ## A channel is allocated -/

theorem Session.Books.allocate {channel : Ref} (hbooks : session.Books)
    (hbefore : session.allocated call = none)
    (hcount : session.allocations + 1 ≤ 2 ^ 28 - 1)
    (hcounter : session'.globals.globalChannelId = counterAt (session.allocations + 1))
    (hallocations : session'.allocations = session.allocations + 1)
    (hallocated : session'.allocated =
      Function.update session.allocated call (some (channel, idAt session.allocations)))
    (hframes : session'.frames = session.frames)
    (htransmitted : session'.transmitted = session.transmitted)
    (hhandlerCalls : session'.handlerCalls = session.handlerCalls)
    (hcalls : session'.calls = Function.update session.calls call activity)
    (hmutex : session'.mutex = session.mutex) (hallocates : activity.allocates = true)
    (hlocks : activity.locks = false) : session'.Books := by
  have hnew := not_issued_idAt hcount
  have hle : session.allocations ≤ session'.allocations := by
    rw [hallocations]
    exact Nat.le_succ _
  have hunchanged : ∀ {owner}, owner ≠ call →
      session'.allocated owner = session.allocated owner ∧
      session'.calls owner = session.calls owner := by
    intro owner hne
    rw [hallocated, hcalls]
    exact ⟨Function.update_of_ne hne .., Function.update_of_ne hne ..⟩
  refine ⟨hallocations ▸ hcounter, ?_, ?_, ?_, ?_, ?_, ?_, ?_⟩
  · intro owner other chid howner
    by_cases hsame : owner = call
    · rw [hsame, hallocated, Function.update_self, Option.some.injEq, Prod.mk.injEq] at howner
      exact ⟨session.allocations, by omega, howner.2.symm⟩
    · rw [(hunchanged hsame).1] at howner
      exact (hbooks.issued owner other chid howner).mono hle
  · -- The new identifier was not issued before.
    intro owner owner' other other' chid howner howner'
    by_cases hsame : owner = call <;> by_cases hsame' : owner' = call
    · rw [hsame, hsame']
    · rw [hsame, hallocated, Function.update_self, Option.some.injEq, Prod.mk.injEq] at howner
      rw [(hunchanged hsame').1, ← howner.2] at howner'
      exact absurd (hbooks.issued owner' other' _ howner') hnew
    · rw [hsame', hallocated, Function.update_self, Option.some.injEq, Prod.mk.injEq] at howner'
      rw [(hunchanged hsame).1, ← howner'.2] at howner
      exact absurd (hbooks.issued owner other _ howner) hnew
    · rw [(hunchanged hsame).1] at howner
      rw [(hunchanged hsame').1] at howner'
      exact hbooks.injective owner owner' other other' chid howner howner'
  · rw [hframes]
    exact fun chid hmem => (hbooks.frames chid hmem).mono hle
  · rw [htransmitted]
    exact fun chid hmem => (hbooks.transmitted chid hmem).mono hle
  · rw [hhandlerCalls]
    intro invocation hmem
    obtain ⟨owner, other, chid, howner, hchid⟩ := hbooks.handlerCalls invocation hmem
    have hne : owner ≠ call := by
      rintro rfl
      cases hbefore.symm.trans howner
    exact ⟨owner, other, chid, (hunchanged hne).1.trans howner, hchid⟩
  · intro owner
    by_cases hsame : owner = call
    · rw [hsame, hallocated, hcalls, Function.update_self, Function.update_self, hallocates]
      rfl
    · rw [(hunchanged hsame).1, (hunchanged hsame).2]
      exact hbooks.numbered owner
  · rw [hcalls, hmutex]
    exact locked_same hbooks.locked (by simp [hlocks])

/-- A channel with a token is in use or in a chain that some call holds. -/
theorem Ledger.inUse_or_held (hledger : Ledger config session tokens use detached)
    {channel : Ref} {token : Token} (htoken : tokens channel = some token) :
    channel ∈ use ∨ ∃ chain ∈ detached, channel ∈ chain := by
  cases hinUse : token.place.inUse with
  | true => exact Or.inl ((hledger.inUse channel).mpr ⟨token, htoken, hinUse⟩)
  | false => exact Or.inr (hledger.held channel token htoken hinUse)

theorem Ledger.token_eq_none (hledger : Ledger config session tokens use detached)
    {channel : Ref} (hnotUsed : channel ∉ use) (hnotHeld : ∀ chain ∈ detached, channel ∉ chain) :
    tokens channel = none := by
  by_contra htoken
  obtain ⟨token, htoken⟩ := Option.ne_none_iff_exists'.mp htoken
  rcases hledger.inUse_or_held htoken with huse | ⟨chain, hchain, hmem⟩
  · exact hnotUsed huse
  · exact hnotHeld chain hchain hmem

theorem issue_cases {channel other : Ref} {issued token : Token}
    (htoken : Function.update tokens channel (some issued) other = some token) :
    other = channel ∧ token = issued ∨ other ≠ channel ∧ tokens other = some token := by
  by_cases hsame : other = channel
  · subst hsame
    rw [Function.update_self] at htoken
    exact Or.inl ⟨rfl, (Option.some.inj htoken).symm⟩
  · rw [Function.update_of_ne hsame] at htoken
    exact Or.inr ⟨hsame, htoken⟩

theorem issue_some {channel other : Ref} {issued token : Token} (hempty : tokens channel = none)
    (htoken : tokens other = some token) :
    Function.update tokens channel (some issued) other = some token := by
  have hne : other ≠ channel := by
    rintro rfl
    rw [hempty] at htoken
    cases htoken
  rw [Function.update_of_ne hne]
  exact htoken

/-- Nothing has happened under an identifier that is new. -/
theorem Token.Fits.issue {channel : Ref} (hbooks : session.Books)
    (hcount : session.allocations + 1 ≤ 2 ^ 28 - 1)
    (hcontent : session'.pool.content channel =
      ChannelPool.allocatedContent (idAt session.allocations))
    (hallocated : session'.allocated call = some (channel, idAt session.allocations))
    (hframes : session'.frames = session.frames)
    (htransmitted : session'.transmitted = session.transmitted)
    (hhandlerCalls : session'.handlerCalls = session.handlerCalls) :
    Token.Fits config session' channel ⟨call, .allocated call, false⟩ := by
  have hnew := not_issued_idAt hcount
  constructor
  case allocated =>
    rw [hcontent, hallocated]
    rfl
  case own =>
    rintro other (hsame | hsame)
    · exact Place.allocated.inj hsame
    · cases hsame
  case prepared => exact fun request _ hprepared => absurd rfl (hprepared call)
  case reported =>
    intro request _
    rw [hcontent]
    change session'.callsFor (idAt session.allocations) = []
    rw [Session.callsFor, hhandlerCalls, List.filter_eq_nil_iff]
    intro invocation hmem hchid
    obtain ⟨owner, other, chid, howner, hown⟩ := hbooks.handlerCalls invocation hmem
    rw [hown, decide_eq_true_eq, Option.some.injEq] at hchid
    exact hnew (hchid ▸ hbooks.issued owner other chid howner)
  case reporting => simp
  case unsent =>
    intro _
    rw [hcontent, htransmitted, hframes]
    exact ⟨rfl, fun hmem => hnew (hbooks.transmitted _ hmem),
      fun hmem => absurd (hbooks.frames _ hmem) hnew⟩

/-- The new token is all that its call holds. -/
theorem accounts_issue {channel : Ref}
    (haccounts : Accounts tokens detached call (session.calls call))
    (hnone : ∀ held, Holds detached call (session.calls call) held → held = [])
    (hholds : Holds detached call activity [(channel, .allocated call, false)]) :
    Accounts (Function.update tokens channel (some ⟨call, .allocated call, false⟩)) detached call
      activity := by
  obtain ⟨held, hheldNow, -, hheld⟩ := haccounts
  obtain rfl := hnone held hheldNow
  refine ⟨_, hholds, by simp, ?_⟩
  intro other place invoked hholder
  constructor
  · rintro ⟨owner, htoken⟩
    rcases issue_cases htoken with ⟨rfl, hsame⟩ | ⟨-, htoken⟩
    · cases hsame
      exact List.mem_singleton.mpr rfl
    · exact absurd ((hheld other place invoked hholder).mp ⟨owner, htoken⟩) (by simp)
  · intro hmem
    cases List.mem_singleton.mp hmem
    exact ⟨call, Function.update_self ..⟩

/-- A request is given a channel that no token speaks of, under a new identifier. -/
theorem Ledger.allocate {channel : Ref} (hledger : Ledger config session tokens use detached)
    (hcount : session.allocations + 1 ≤ 2 ^ 28 - 1)
    (hallocatedSpec : Serving.Allocated session.pool session.globals session.allocations use
      detached session'.globals session'.pool channel)
    (hbefore : session.allocated call = none)
    (hallocations : session'.allocations = session.allocations + 1)
    (hallocated : session'.allocated =
      Function.update session.allocated call (some (channel, idAt session.allocations)))
    (hqueue : session'.outputQueue = session.outputQueue)
    (hframes : session'.frames = session.frames)
    (htransmitted : session'.transmitted = session.transmitted)
    (hhandlerCalls : session'.handlerCalls = session.handlerCalls)
    (hcalls : session'.calls = Function.update session.calls call activity)
    (hmutex : session'.mutex = session.mutex) (hallocates : activity.allocates = true)
    (hlocks : activity.locks = false)
    (hfilled : ∀ request packet, activity ≠ .postPacket request (.filled packet))
    (hnone : ∀ held, Holds detached call (session.calls call) held → held = [])
    (hholds : Holds detached call activity [(channel, .allocated call, false)]) :
    Ledger config session'
      (Function.update tokens channel (some ⟨call, .allocated call, false⟩))
      (use ++ [channel]) detached := by
  have hbooks := hledger.books
  have hempty := hledger.token_eq_none hallocatedSpec.notUsed hallocatedSpec.notHeld
  have hunchanged : ∀ {owner}, owner ≠ call →
      session'.allocated owner = session.allocated owner ∧
      session'.calls owner = session.calls owner := by
    intro owner hne
    rw [hallocated, hcalls]
    exact ⟨Function.update_of_ne hne .., Function.update_of_ne hne ..⟩
  have howners : ∀ {owner entry}, session.allocated owner = some entry → owner ≠ call := by
    rintro owner entry howner rfl
    rw [hbefore] at howner
    cases howner
  have haddressed : ∀ {packet : Posted Body}, packet.Addressed session.allocated →
      packet.Addressed session'.allocated := by
    rintro packet ⟨other, hchannel, howner⟩
    exact ⟨other, hchannel, (hunchanged (howners howner)).1.trans howner⟩
  constructor
  case serving => exact hallocations ▸ hallocatedSpec.serving
  case books =>
    exact hbooks.allocate hbefore hcount hallocatedSpec.counter hallocations hallocated hframes
      htransmitted hhandlerCalls hcalls hmutex hallocates hlocks
  case inUse =>
    intro other
    rw [List.mem_append, List.mem_singleton, hledger.inUse other]
    constructor
    · rintro (⟨token, htoken, hinUse⟩ | rfl)
      · exact ⟨token, issue_some hempty htoken, hinUse⟩
      · exact ⟨_, Function.update_self .., rfl⟩
    · rintro ⟨token, htoken, hinUse⟩
      rcases issue_cases htoken with ⟨rfl, -⟩ | ⟨-, htoken⟩
      · exact Or.inr rfl
      · exact Or.inl ⟨token, htoken, hinUse⟩
  case held =>
    intro other token htoken hinUse
    rcases issue_cases htoken with ⟨-, rfl⟩ | ⟨-, htoken⟩
    · cases hinUse
    · exact hledger.held other token htoken hinUse
  case fits =>
    intro other token htoken
    rcases issue_cases htoken with ⟨rfl, rfl⟩ | ⟨-, htoken⟩
    · exact Token.Fits.issue hbooks hcount hallocatedSpec.content
        (by rw [hallocated, Function.update_self]) hframes htransmitted hhandlerCalls
    · have hfits := hledger.fits other token htoken
      have hother := hunchanged (howners hfits.allocated)
      apply hfits.frame
      · exact hallocatedSpec.others other (hledger.inUse_or_held htoken)
      · exact hother.1
      · rw [hother.2]
      · rw [Session.callsFor, Session.callsFor, hhandlerCalls]
      · rw [htransmitted]
        exact fun _ hmem => hmem
      · rw [hframes]
        exact fun hmem => hmem
  case accounts =>
    refine accounts_update hledger.accounts hcalls ?_ ?_ (fun _ _ _ hchain _ _ => hchain)
    · exact accounts_issue (hledger.accounts call) hnone hholds
    · intro other hother other' token hholder
      refine ⟨fun htoken => ?_, issue_some hempty⟩
      rcases issue_cases htoken with ⟨-, rfl⟩ | ⟨-, htoken⟩
      · exact absurd (Option.some.inj hholder).symm hother
      · exact htoken
  case queue =>
    intro other
    rw [hqueue, ← hledger.queue other]
    constructor
    · rintro ⟨token, htoken, hqueued⟩
      rcases issue_cases htoken with ⟨-, rfl⟩ | ⟨-, htoken⟩
      · cases hqueued
      · exact ⟨token, htoken, hqueued⟩
    · rintro ⟨token, htoken, hqueued⟩
      exact ⟨token, issue_some hempty htoken, hqueued⟩
  case queueNodup =>
    rw [hqueue]
    exact hledger.queueNodup
  case queueOwner =>
    rw [hqueue]
    intro packet hpacket other hother token htoken
    rcases issue_cases htoken with ⟨rfl, -⟩ | ⟨-, htoken⟩
    · obtain ⟨token, htoken, -⟩ := (hledger.queue other).mpr ⟨packet, hpacket, hother⟩
      rw [hempty] at htoken
      cases htoken
    · exact hledger.queueOwner packet hpacket other hother token htoken
  case addressed =>
    rw [hqueue]
    exact fun packet hpacket => haddressed (hledger.addressed packet hpacket)
  case filled =>
    intro owner request packet howner
    have hne : owner ≠ call := by
      rintro rfl
      rw [hcalls, Function.update_self] at howner
      exact hfilled request packet howner
    rw [(hunchanged hne).2] at howner
    exact haddressed (hledger.filled owner request packet howner)
  case settled =>
    intro owner other chid howner
    by_cases hsame : owner = call
    · rw [hsame, hallocated, Function.update_self, Option.some.injEq, Prod.mk.injEq] at howner
      exact Or.inl ⟨⟨call, .allocated call, false⟩, howner.1 ▸ Function.update_self .., hsame.symm⟩
    · rw [(hunchanged hsame).1] at howner
      rw [(hunchanged hsame).2]
      rcases hledger.settled owner other chid howner with ⟨token, htoken, hown⟩ | hreported
      · exact Or.inl ⟨token, issue_some hempty htoken, hown⟩
      · refine Or.inr fun request hrequest => ?_
        obtain ⟨handler, packet, hhandler, hcall⟩ := hreported request hrequest
        refine ⟨handler, packet, hhandler, ?_⟩
        rw [Session.callsFor, hhandlerCalls]
        exact hcall

end Wnet
