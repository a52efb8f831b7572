import Wnet.Session.Ledger
import Wnet.Session.Traffic

/-!
# A request on its way out

The pieces of `PostPacket` and of the flush keep the ledger. They take a channel
from its allocation, through the queue if there is no connection, to the encoder
and to the requests that wait for an answer.
-/

namespace Wnet

open Foundation

variable {Body : Type*} {config : Config Body} {session : Session Body} {tokens : Tokens}
  {use : List Ref} {detached : List (List Ref)} {call : Nat}

/-- A session with a ledger. -/
def Session.Kept (config : Config Body) (session : Session Body) : Prop :=
  ∃ tokens use detached, Ledger config session tokens use detached

theorem Ledger.kept (hledger : Ledger config session tokens use detached) :
    session.Kept config := ⟨tokens, use, detached, hledger⟩

/-- A token changes its place and nothing else. -/
theorem Token.Fits.move {channel : Ref} {token : Token} {place : Place}
    (hfits : token.Fits config session channel)
    (hown : ∀ call, place ≠ .allocated call ∧ place ≠ .filled call)
    (hprepared : ∀ call, token.place ≠ .allocated call) (hinvoked : token.invoked = false)
    (hunsent : place.unsent = true →
      token.place.unsent = true ∧ ∀ call, token.place ≠ .encoded call) :
    Token.Fits config session channel { token with place := place } := by
  refine ⟨hfits.allocated, ?_, ?_, hfits.reported, ?_, ?_⟩
  · rintro call (hsame | hsame)
    · exact absurd hsame (hown call).1
    · exact absurd hsame (hown call).2
  · exact fun request hrequest _ => hfits.prepared request hrequest hprepared
  · exact fun htrue => absurd (hinvoked.symm.trans htrue) (by simp)
  · intro hplace
    obtain ⟨hold, hnot⟩ := hunsent hplace
    obtain ⟨hexpire, hsent, hframe⟩ := hfits.unsent hold
    refine ⟨hexpire, hsent, fun hmem => ?_⟩
    obtain ⟨call, hencoded⟩ := hframe hmem
    exact absurd hencoded (hnot call)

section Fields

variable (session : Session Body) (channel other : Ref)

theorem setHandlerArgs_content (handler args : Option Nat) :
    (session.setHandlerArgs channel handler args).pool.content other =
      if other = channel then { session.pool.content other with handler := handler, args := args }
      else session.pool.content other := by
  rw [Session.setHandlerArgs, ChannelPool.modify_content]
  rfl

theorem setArgsNull_content :
    (session.setArgsNull channel).pool.content other =
      if other = channel then { session.pool.content other with args := none }
      else session.pool.content other := by
  rw [Session.setArgsNull, ChannelPool.modify_content]
  rfl

theorem Serving.setHandlerArgs {session : Session Body} {allocations : Nat}
    (hserving : Serving session.pool allocations use detached) (channel : Ref)
    (handler args : Option Nat) :
    Serving (session.setHandlerArgs channel handler args).pool allocations use detached := by
  dsimp only [Session.setHandlerArgs]
  apply hserving.modify
  exact fun fields => ⟨rfl, rfl, rfl⟩

theorem Serving.setArgsNull {session : Session Body} {allocations : Nat}
    (hserving : Serving session.pool allocations use detached) (channel : Ref) :
    Serving (session.setArgsNull channel).pool allocations use detached := by
  dsimp only [Session.setArgsNull]
  apply hserving.modify
  exact fun fields => ⟨rfl, rfl, rfl⟩

end Fields

/-! ## Stages without tokens -/

theorem locks_of_holds_encoded {activity : Activity Body} {held : List (Ref × Place × Bool)}
    {channel : Ref} {other : Nat} {invoked : Bool} (hholds : Holds detached call activity held)
    (hmem : (channel, .encoded other, invoked) ∈ held) : activity.locks = true := by
  cases activity with
  | idle => simp_all [Holds]
  | postPacket request stage =>
      cases stage with
      | encoded packet => rfl
      | filled packet =>
          obtain ⟨own, hown, rfl⟩ := hholds
          simp at hmem
      | _ => simp_all [Holds]
  | onConnection stage =>
      cases stage with
      | encoded packet => rfl
      | _ => simp_all [Holds]
  | handlePacket stage => cases stage <;> simp_all [Holds]
  | checkTimeout now stage =>
      cases stage with
      | walking list cursor =>
          obtain ⟨before, after, -, -, -, rfl⟩ := hholds
          simp at hmem
      | notified list channel =>
          obtain ⟨before, after, -, -, rfl⟩ := hholds
          simp at hmem
      | draining packetList =>
          obtain ⟨channels, -, rfl⟩ := hholds
          simp at hmem
      | drained channel packetList =>
          obtain ⟨channels, -, rfl⟩ := hholds
          simp at hmem
      | _ => simp_all [Holds]

/-- Only the call that has the mutex can be encoding. -/
theorem Ledger.mutex_of_encoded (hledger : Ledger config session tokens use detached)
    {channel : Ref} {token : Token} {other : Nat} (htoken : tokens channel = some token)
    (hplace : token.place = .encoded other) : session.mutex = some other := by
  obtain ⟨held, hholds, -, hheld⟩ := hledger.accounts other
  apply hledger.books.locked
  have hentry := (hheld channel (.encoded other) token.invoked rfl).mp
    ⟨token.owner, by rw [htoken, ← hplace]⟩
  exact locks_of_holds_encoded hholds hentry

/-- A call whose stage holds nothing has no token. -/
theorem Ledger.request_of_idle (hledger : Ledger config session tokens use detached)
    (hfalse : (session.calls call).allocates = false) {activity : Activity Body}
    (hisSome : (session.allocated call).isSome) :
    activity.request = (session.calls call).request := by
  rw [hledger.books.numbered call, hfalse] at hisSome
  cases hisSome

/-- A call moves the one channel it holds within the use list. -/
theorem Ledger.hand {session' : Session Body} {activity : Activity Body} {channel : Ref}
    {owner : Nat} {before place : Place} (hledger : Ledger config session tokens use detached)
    (htoken : tokens channel = some ⟨owner, before, false⟩)
    (hbefore : before.inUse = true ∧ before.holder = some call)
    (hplace : place.inUse = true ∧ place ≠ .queued ∧
      (place.holder = none ∨ place.holder = some call))
    (hserving : Serving session'.pool session'.allocations use detached)
    (hbooks : session'.Books) (hqueue : session'.outputQueue = session.outputQueue)
    (hallocated : session'.allocated = session.allocated)
    (htransmitted : session'.transmitted = session.transmitted)
    (hhandlerCalls : session'.handlerCalls = session.handlerCalls)
    (hcalls : session'.calls = Function.update session.calls call activity)
    (hrequest : (session.allocated call).isSome → activity.request = (session.calls call).request)
    (hfilled : ∀ request packet, activity = .postPacket request (.filled packet) →
      packet.Addressed session.allocated)
    (hcontent : ∀ other ≠ channel, session'.pool.content other = session.pool.content other)
    (hframes : ∀ other ≠ channel, ∀ token, tokens other = some token →
      (session.pool.content other).id ∈ session'.frames →
      (session.pool.content other).id ∈ session.frames)
    (hfits : Token.Fits config session' channel ⟨owner, place, false⟩)
    (hhad : ∀ held, Holds detached call (session.calls call) held →
      held = [(channel, before, false)])
    (hhas : Holds detached call activity
      (if place.holder = none then [] else [(channel, place, false)])) :
    Ledger config session' (tokens.relocate [channel] place) use detached := by
  obtain ⟨held, hholds, -, hheld⟩ := hledger.accounts call
  obtain rfl := hhad held hholds
  have hmember : ∀ {other}, other ∈ [channel] → other = channel := List.mem_singleton.mp
  refine hledger.relocate hserving hbooks hallocated htransmitted hhandlerCalls hcalls hrequest
    hfilled ?_ ?_ ?_ hplace.2.2 ?_ (fun _ hchain => hchain) ?_ ?_ ?_ ?_ ?_ ?_
  · exact fun other hother => hcontent other (by simpa using hother)
  · exact fun other hother => hframes other (by simpa using hother)
  · intro other hother
    obtain rfl := hmember hother
    exact ⟨_, htoken, Or.inr hbefore.2, hfits⟩
  · intro other
    by_cases hsame : other = channel
    · subst hsame
      simp [hplace.1, (hledger.inUse other).mpr ⟨_, htoken, hbefore.1⟩]
    · simp [hsame]
  · intro hnot
    rw [hplace.1] at hnot
    cases hnot
  · rcases hplace.2.2 with hnone | hcall
    · rw [if_pos hnone] at hhas
      exact Accounts.relocate_from hheld hnone (by simp) hhas
    · rw [if_neg (by simp [hcall])] at hhas
      exact Accounts.relocate_to hheld (by simp) (by simp) (by simpa using ⟨_, htoken, rfl⟩) hhas
  · intro other
    rw [queue_relocate hplace.2.1, hqueue]
    · exact hledger.queue other
    · intro moved hmoved token htoken' hqueued
      obtain rfl := hmember hmoved
      obtain rfl := Option.some.inj (htoken.symm.trans htoken')
      obtain rfl : before = .queued := hqueued
      cases hbefore.2
  · rw [hqueue]
    exact hledger.queueNodup
  · rw [hqueue]
    exact hledger.queueOwner
  · rw [hqueue]
    exact hledger.addressed

/-! ## Posting -/

/-- The token of a channel whose handler and arguments were stored. -/
theorem Token.Fits.fill {session' : Session Body} {request : Request Body} {channel : Ref}
    (hfits : Token.Fits config session channel ⟨call, .allocated call, false⟩)
    (hcontent : session'.pool.content channel = { session.pool.content channel with
      handler := request.packetHandler, args := request.args })
    (hallocated : session'.allocated = session.allocated)
    (htransmitted : session'.transmitted = session.transmitted)
    (hframes : session'.frames = session.frames)
    (hhandlerCalls : session'.handlerCalls = session.handlerCalls)
    (hbefore : (session.calls call).request = some request)
    (hafter : (session'.calls call).request = some request) :
    Token.Fits config session' channel ⟨call, .filled call, false⟩ := by
  refine ⟨?_, ?_, ?_, ?_, by simp, ?_⟩
  · rw [hallocated, hcontent]
    exact hfits.allocated
  · rintro other (hsame | hsame)
    · cases hsame
    · exact Place.filled.inj hsame
  · intro request' hrequest _
    obtain rfl := Option.some.inj (hafter.symm.trans hrequest)
    rw [hcontent]
    exact ⟨rfl, fun _ => rfl⟩
  · intro request' hrequest
    obtain rfl := Option.some.inj (hafter.symm.trans hrequest)
    have hnone : session.callsFor (session.pool.content channel).id = [] :=
      hfits.reported request hbefore
    rw [hcontent]
    change session'.callsFor _ = []
    rw [Session.callsFor, hhandlerCalls]
    exact hnone
  · intro _
    obtain ⟨hexpire, hsent, hframe⟩ := hfits.unsent rfl
    rw [hcontent, htransmitted, hframes]
    refine ⟨hexpire, hsent, fun hmem => ?_⟩
    obtain ⟨other, hencoded⟩ := hframe hmem
    cases hencoded

section Post

variable (hledger : Ledger config session tokens use detached)
include hledger

theorem Ledger.fill {request : Request Body} {packet : Posted Body} {channel : Ref}
    {session' : Session Body}
    (hcall : session.calls call = .postPacket request (.allocated packet channel))
    (hown : packet.call = call)
    (hnext : session.postPacket config call request (.allocated packet channel) =
      some session') : session'.Kept config := by
  obtain ⟨held, hholds, -, hheld⟩ := hledger.accounts call
  rw [hcall] at hholds
  obtain rfl : held = [(channel, .allocated call, false)] := hholds
  obtain ⟨owner, htoken⟩ := (hheld channel (.allocated call) false rfl).mpr (by simp)
  have hfits := hledger.fits channel _ htoken
  obtain rfl : owner = call := hfits.own call (Or.inl rfl)
  have hcontent := fun other =>
    setHandlerArgs_content session channel other request.packetHandler request.args
  have hself := (hcontent channel).trans (if_pos rfl)
  obtain rfl := Option.some.inj hnext
  have hplace : (Place.filled owner).inUse = true ∧ Place.filled owner ≠ .queued ∧
      ((Place.filled owner).holder = none ∨ (Place.filled owner).holder = some owner) :=
    ⟨rfl, by simp, Or.inr rfl⟩
  refine ⟨tokens.relocate [channel] (.filled owner), use, detached, ?_⟩
  refine hledger.hand htoken ⟨rfl, rfl⟩ hplace ?_ ?_ rfl rfl rfl rfl rfl ?_ ?_
    (fun other hne => (hcontent other).trans (if_neg hne)) (fun _ _ _ _ hmem => hmem) ?_ ?_
    ⟨channel, rfl, rfl⟩
  · exact hledger.serving.setHandlerArgs channel _ _
  · refine hledger.books.same ⟨rfl, rfl, rfl, rfl, rfl, rfl⟩ rfl (by rw [hcall]; rfl) ?_
    exact locked_same hledger.books.locked (by simp [Activity.locks])
  · rw [hcall]
    exact fun _ => rfl
  · intro request' packet' hactivity
    cases hactivity
    refine ⟨channel, rfl, ?_⟩
    change session.allocated packet.call = some (channel, ((session.setHandlerArgs channel
      request.packetHandler request.args).pool.content channel).id)
    rw [hown, hself]
    exact hfits.allocated
  · refine hfits.fill hself rfl rfl rfl rfl ?_ ?_
    · rw [hcall]
      rfl
    · simp [Session.become, Activity.request]
  · rw [hcall]
    exact fun held hheld => hheld

/-- A packet without a connection is queued. -/
theorem Ledger.push {request : Request Body} {packet : Posted Body}
    (hcall : session.calls call = .postPacket request (.filled packet))
    (hown : packet.call = call) :
    ((session.push packet).become call
      (.postPacket request .posted)).Kept config := by
  obtain ⟨held, hholds, -, hheld⟩ := hledger.accounts call
  rw [hcall] at hholds
  obtain ⟨channel, hchannel, rfl⟩ := hholds
  obtain ⟨owner, htoken⟩ := (hheld channel (.filled call) false rfl).mpr (by simp)
  have hfits := hledger.fits channel _ htoken
  have haddressed := hledger.filled call request packet hcall
  have hnotQueued : ∀ queued ∈ session.outputQueue, queued.channel ≠ some channel := by
    intro queued hqueued hsame
    obtain ⟨token, htoken', hplace⟩ := (hledger.queue channel).mpr ⟨queued, hqueued, hsame⟩
    obtain rfl := Option.some.inj (htoken.symm.trans htoken')
    cases hplace
  refine ⟨tokens.relocate [channel] .queued, use, detached, ?_⟩
  refine hledger.relocate hledger.serving ?_ rfl rfl rfl rfl ?_ ?_ (fun _ _ => rfl)
    (fun _ _ _ _ hmem => hmem) ?_ (Or.inl rfl) ?_ (fun _ hchain => hchain) (by simp [Place.inUse])
    (Accounts.relocate_from hheld rfl (by simp) rfl) ?_ ?_ ?_ ?_
  · refine hledger.books.same ⟨rfl, rfl, rfl, rfl, rfl, rfl⟩ rfl (by rw [hcall]; rfl) ?_
    exact locked_same hledger.books.locked (by simp [Activity.locks])
  · rw [hcall]
    exact fun _ => rfl
  · simp
  · intro other hother
    obtain rfl := List.mem_singleton.mp hother
    refine ⟨_, htoken, Or.inr rfl, ?_⟩
    refine (hfits.move (by simp) (by simp) rfl (by simp [Place.unsent])).frame rfl rfl ?_ rfl
      (fun _ hmem => hmem) (fun hmem => hmem)
    refine request_update rfl ?_ _ (by rw [hfits.allocated]; rfl)
    rw [hcall]
    exact fun _ => rfl
  · intro other
    by_cases hsame : other = channel
    · subst hsame
      simp [Place.inUse, (hledger.inUse other).mpr ⟨_, htoken, rfl⟩]
    · simp [hsame]
  · intro other
    by_cases hsame : other = channel
    · subst hsame
      rw [relocate_some htoken]
      simp [Session.become, hchannel]
    · have hold := hledger.queue other
      simp only [Tokens.relocate, List.mem_singleton, if_neg hsame, hold, Session.become,
        Session.push_outputQueue, List.mem_append]
      constructor
      · rintro ⟨queued, hqueued, hqueue⟩
        exact ⟨queued, Or.inl hqueued, hqueue⟩
      · rintro ⟨queued, hqueued | rfl, hqueue⟩
        · exact ⟨queued, hqueued, hqueue⟩
        · rw [hchannel] at hqueue
          exact absurd (Option.some.inj hqueue).symm hsame
  · simp only [Session.become, Session.push_outputQueue, List.map_append, List.map_cons,
      List.map_nil]
    refine List.nodup_append.mpr ⟨hledger.queueNodup, by simp, ?_⟩
    rintro queued hqueued last hlast rfl
    rw [List.mem_singleton.mp hlast, hchannel] at hqueued
    obtain ⟨other, hother, hsame⟩ := List.mem_map.mp hqueued
    exact hnotQueued other hother hsame
  · intro queued hqueued other hother token htoken'
    rcases List.mem_append.mp hqueued with hqueued | hqueued
    · exact hledger.queueOwner queued hqueued other hother token htoken'
    · obtain rfl := List.mem_singleton.mp hqueued
      obtain rfl := Option.some.inj (hchannel.symm.trans hother)
      obtain rfl := Option.some.inj (htoken.symm.trans htoken')
      exact (hfits.own call (Or.inr rfl)).trans hown.symm
  · intro queued hqueued
    rcases List.mem_append.mp hqueued with hqueued | hqueued
    · exact hledger.addressed queued hqueued
    · rw [List.mem_singleton.mp hqueued]
      exact haddressed

end Post

/-! ## Sending -/

/-- The records after an encoding: the frame has an identifier that was handed out. -/
theorem Session.Books.encode {base encoded : Session Body} {chid : UInt32}
    {activity : Activity Body} (hbooks : session.Books) (hspec : Encodes base encoded chid)
    (hbase : SameBooks session base) (hbaseCalls : base.calls = session.calls)
    (hissued : Issued session.allocations chid)
    (hallocates : activity.allocates = (session.calls call).allocates)
    (hlocked : ∀ other, (Function.update session.calls call activity other).locks →
      base.mutex = some other) : (encoded.become call activity).Books := by
  refine hbooks.turn ?_ (hspec.allocations.trans hbase.allocations).ge
    (hspec.allocated.trans hbase.allocated) ?_ ?_ ?_ ?_ hallocates ?_
  · change encoded.globals.globalChannelId = counterAt encoded.allocations
    rw [hspec.globals, hspec.allocations, hbase.globals, hbase.allocations]
    exact hbooks.counter
  · intro other hother
    rcases hspec.frames other hother with hold | rfl
    · exact Or.inl (hbase.frames ▸ hold)
    · exact Or.inr hissued
  · intro other hother
    exact Or.inl ((hspec.transmitted.trans hbase.transmitted) ▸ hother)
  · intro invocation hinvocation
    exact Or.inl ((hspec.handlerCalls.trans hbase.handlerCalls) ▸ hinvocation)
  · rw [Session.become, hspec.calls, hbaseCalls]
  · intro other hother
    change encoded.mutex = some other
    rw [hspec.mutex]
    exact hlocked other hother

/-- The token of a channel whose packet was encoded, with its frame in the buffer. -/
theorem Token.Fits.encode {session' : Session Body} {channel : Ref} {owner : Nat} {before : Place}
    (hfits : Token.Fits config session channel ⟨owner, before, false⟩)
    (hunsent : before.unsent = true) (hprepared : ∀ call, before ≠ .allocated call)
    (hcontent : session'.pool.content channel = session.pool.content channel)
    (hallocated : session'.allocated = session.allocated)
    (htransmitted : session'.transmitted = session.transmitted)
    (hhandlerCalls : session'.handlerCalls = session.handlerCalls)
    (hrequest : (session'.calls owner).request = (session.calls owner).request) :
    Token.Fits config session' channel ⟨owner, .encoded call, false⟩ := by
  refine ⟨?_, by simp, ?_, ?_, by simp, ?_⟩
  · rw [hallocated, hcontent]
    exact hfits.allocated
  · rw [hrequest, hcontent]
    exact fun request hrequest' _ => hfits.prepared request hrequest' hprepared
  · rw [hrequest, hcontent]
    intro request hrequest'
    have hnone : session.callsFor (session.pool.content channel).id = [] :=
      hfits.reported request hrequest'
    change session'.callsFor _ = []
    rw [Session.callsFor, hhandlerCalls]
    exact hnone
  · intro _
    obtain ⟨hexpire, hsent, -⟩ := hfits.unsent hunsent
    rw [hcontent, htransmitted]
    exact ⟨hexpire, hsent, fun _ => ⟨call, rfl⟩⟩

/-- The token of a channel that waits for its answer. -/
theorem Token.Fits.stamp {session' : Session Body} {channel : Ref} {owner : Nat} {time : Int}
    (hfits : Token.Fits config session channel ⟨owner, .encoded call, false⟩)
    (hcontent : session'.pool.content channel =
      { session.pool.content channel with expireTime := time })
    (hallocated : session'.allocated = session.allocated)
    (hhandlerCalls : session'.handlerCalls = session.handlerCalls)
    (hrequest : (session'.calls owner).request = (session.calls owner).request) :
    Token.Fits config session' channel ⟨owner, .sent, false⟩ := by
  refine ⟨?_, by simp, ?_, ?_, by simp, fun hunsent => by cases hunsent⟩
  · rw [hallocated, hcontent]
    exact hfits.allocated
  · rw [hrequest, hcontent]
    exact fun request hrequest' _ => hfits.prepared request hrequest' (by simp)
  · rw [hrequest, hcontent]
    intro request hrequest'
    have hnone : session.callsFor (session.pool.content channel).id = [] :=
      hfits.reported request hrequest'
    change session'.callsFor _ = []
    rw [Session.callsFor, hhandlerCalls]
    exact hnone

section Send

variable (hledger : Ledger config session tokens use detached)
include hledger

/-- Two channels with tokens have different identifiers. -/
theorem Ledger.eq_of_id {channel other : Ref} {token token' : Token}
    (htoken : tokens channel = some token) (htoken' : tokens other = some token')
    (hid : (session.pool.content other).id = (session.pool.content channel).id) :
    other = channel := by
  have hallocated := (hledger.fits channel token htoken).allocated
  have hallocated' := (hledger.fits other token' htoken').allocated
  rw [hid] at hallocated'
  have howner := hledger.books.injective _ _ _ _ _ hallocated' hallocated
  rw [howner, hallocated, Option.some.injEq, Prod.mk.injEq] at hallocated'
  exact hallocated'.1.symm

/-- A packet that finds the session connected is encoded by its own call. -/
theorem Ledger.encodeDirect {request : Request Body} {packet : Posted Body}
    (hcall : session.calls call = .postPacket request (.filled packet))
    (hown : packet.call = call) (hmutex : session.mutex = none) :
    (({ session with mutex := some call }.encode config packet).become call
      (.postPacket request (.encoded packet))).Kept config := by
  obtain ⟨held, hholds, -, hheld⟩ := hledger.accounts call
  rw [hcall] at hholds
  obtain ⟨channel, hchannel, rfl⟩ := hholds
  obtain ⟨owner, htoken⟩ := (hheld channel (.filled call) false rfl).mpr (by simp)
  have hfits := hledger.fits channel _ htoken
  obtain rfl : owner = call := hfits.own call (Or.inr rfl)
  obtain ⟨channel', hchannel', hallocated⟩ := hledger.filled owner request packet hcall
  obtain rfl := Option.some.inj (hchannel'.symm.trans hchannel)
  have hchid : packet.packet.header.chid = (session.pool.content channel').id := by
    have hsame := hfits.allocated
    rw [← hown, hallocated, Option.some.injEq, Prod.mk.injEq] at hsame
    exact hsame.2
  have hspec := encode_spec config { session with mutex := some owner } packet
  rw [hchid] at hspec
  generalize ({ session with mutex := some owner } : Session Body).encode config packet = session'
    at hspec ⊢
  have hcalls : (session'.become owner (.postPacket request (.encoded packet))).calls =
      Function.update session.calls owner (.postPacket request (.encoded packet)) := by
    rw [Session.become, hspec.calls]
  have hplace : (Place.encoded owner).inUse = true ∧ Place.encoded owner ≠ .queued ∧
      ((Place.encoded owner).holder = none ∨ (Place.encoded owner).holder = some owner) :=
    ⟨rfl, by simp, Or.inr rfl⟩
  refine ⟨tokens.relocate [channel'] (.encoded owner), use, detached, ?_⟩
  refine hledger.hand htoken ⟨rfl, rfl⟩ hplace ?_ ?_ hspec.outputQueue hspec.allocated
    hspec.transmitted hspec.handlerCalls hcalls ?_ (by simp) ?_ ?_ ?_ ?_ ⟨channel', hchannel, rfl⟩
  · change Serving session'.pool session'.allocations use detached
    rw [hspec.pool, hspec.allocations]
    exact hledger.serving
  · apply hledger.books.encode hspec ⟨rfl, rfl, rfl, rfl, rfl, rfl⟩ rfl
    · exact hledger.books.issued _ _ _ hfits.allocated
    · rw [hcall]
      rfl
    · exact locked_acquire hledger.books.locked hmutex
  · rw [hcall]
    exact fun _ => rfl
  · intro other _
    change session'.pool.content other = _
    rw [hspec.pool]
  · intro other hne token htoken' hmem
    rcases hspec.frames _ hmem with hold | hid
    · exact hold
    · exact absurd (hledger.eq_of_id htoken htoken' hid) hne
  · refine hfits.encode rfl (by simp) ?_ hspec.allocated hspec.transmitted hspec.handlerCalls ?_
    · change session'.pool.content channel' = _
      rw [hspec.pool]
    · rw [hcalls, Function.update_self, hcall]
      rfl
  · rw [hcall]
    rintro held ⟨other, hother, rfl⟩
    rw [Option.some.inj (hother.symm.trans hchannel)]

/-- A packet in the queue is the one that its channel waits for. -/
theorem Ledger.queued_token {packet : Posted Body} {channel : Ref}
    (hmem : packet ∈ session.outputQueue) (hchannel : packet.channel = some channel) :
    tokens channel = some ⟨packet.call, .queued, false⟩ := by
  obtain ⟨token, htoken, hplace⟩ := (hledger.queue channel).mpr ⟨packet, hmem, hchannel⟩
  have howner := hledger.queueOwner packet hmem channel hchannel token htoken
  have hinvoked : token.invoked = false := by
    by_contra hinvoked
    have hreporting := (hledger.fits channel token htoken).reporting (by simpa using hinvoked)
    rw [hplace] at hreporting
    cases hreporting
  rw [htoken, ← howner, ← hplace, ← hinvoked]

/-- A call takes the packets at the head of the queue. -/
theorem Ledger.dequeue {session' : Session Body} {activity : Activity Body}
    {taken rest : List (Posted Body)} {channels : List Ref} {place : Place}
    (hqueue : session.outputQueue = taken ++ rest)
    (hchannels : taken.map Posted.channel = channels.map some)
    (hplace : place.inUse = true ∧ place ≠ .queued ∧ place.holder = some call)
    (hbooks : session'.Books) (hpool : session'.pool = session.pool)
    (hallocations : session'.allocations = session.allocations)
    (hrest : session'.outputQueue = rest) (hallocated : session'.allocated = session.allocated)
    (htransmitted : session'.transmitted = session.transmitted)
    (hhandlerCalls : session'.handlerCalls = session.handlerCalls)
    (hcalls : session'.calls = Function.update session.calls call activity)
    (hrequest : (session.allocated call).isSome → activity.request = (session.calls call).request)
    (hfilled : ∀ request packet, activity ≠ .postPacket request (.filled packet))
    (hframes : ∀ channel ∉ channels, ∀ token, tokens channel = some token →
      (session.pool.content channel).id ∈ session'.frames →
      (session.pool.content channel).id ∈ session.frames)
    (hfits : ∀ packet ∈ taken, ∀ channel, packet.channel = some channel →
      Token.Fits config session' channel ⟨packet.call, place, false⟩)
    (hnone : ∀ held, Holds detached call (session.calls call) held → held = [])
    (hholds : Holds detached call activity (channels.map (·, place, false))) :
    Ledger config session' (tokens.relocate channels place) use detached := by
  -- The taken packets and the given channels are the same list up to `Posted.channel`.
  have hmember : ∀ {channel}, channel ∈ channels ↔
      ∃ packet ∈ taken, packet.channel = some channel := by
    intro channel
    have hsome : some channel ∈ channels.map some ↔ channel ∈ channels := by simp
    rw [← hsome, ← hchannels, List.mem_map]
  have htaken : ∀ {packet}, packet ∈ taken → packet ∈ session.outputQueue :=
    fun hpacket => hqueue ▸ List.mem_append_left _ hpacket
  have hkept : ∀ {packet}, packet ∈ rest → packet ∈ session.outputQueue :=
    fun hpacket => hqueue ▸ List.mem_append_right _ hpacket
  have hnodup := hledger.queueNodup
  rw [hqueue, List.map_append] at hnodup
  obtain ⟨hnodupTaken, hnodupRest, hapart⟩ := List.nodup_append.mp hnodup
  have htokens : ∀ channel ∈ channels, ∃ packet ∈ taken, packet.channel = some channel ∧
      tokens channel = some ⟨packet.call, .queued, false⟩ := by
    intro channel hchannel
    obtain ⟨packet, hpacket, hsome⟩ := hmember.mp hchannel
    exact ⟨packet, hpacket, hsome, hledger.queued_token (htaken hpacket) hsome⟩
  obtain ⟨held, hheldNow, -, hheld⟩ := hledger.accounts call
  obtain rfl := hnone held hheldNow
  refine hledger.relocate ?_ hbooks hallocated htransmitted hhandlerCalls hcalls hrequest
    (fun request packet hactivity => absurd hactivity (hfilled request packet))
    (fun channel _ => by rw [hpool]) hframes ?_ (Or.inr hplace.2.2) ?_ (fun _ hchain => hchain)
    ?_ ?_ ?_ ?_ ?_ ?_
  · rw [hpool, hallocations]
    exact hledger.serving
  · intro channel hchannel
    obtain ⟨packet, hpacket, hsome, htoken⟩ := htokens channel hchannel
    exact ⟨_, htoken, Or.inl rfl, hfits packet hpacket channel hsome⟩
  · intro channel
    by_cases hmem : channel ∈ channels
    · obtain ⟨packet, -, -, htoken⟩ := htokens channel hmem
      simp [hmem, hplace.1, (hledger.inUse channel).mpr ⟨_, htoken, rfl⟩]
    · simp [hmem]
  · exact fun hnot => absurd (hnot.symm.trans hplace.1) (by simp)
  · apply Accounts.relocate_to hheld (by simp) ?_ ?_ hholds
    · rw [hchannels] at hnodupTaken
      exact hnodupTaken.of_map
    · intro channel hchannel
      obtain ⟨packet, -, -, htoken⟩ := htokens channel hchannel
      exact ⟨_, htoken, rfl⟩
  · intro channel
    rw [hrest]
    constructor
    · rintro ⟨token, htoken, hqueued⟩
      rcases relocate_cases htoken with ⟨-, old, -, rfl⟩ | ⟨hmem, hold⟩
      · exact absurd hqueued hplace.2.1
      · obtain ⟨packet, hpacket, hsome⟩ := (hledger.queue channel).mp ⟨token, hold, hqueued⟩
        rw [hqueue] at hpacket
        rcases List.mem_append.mp hpacket with hpacket | hpacket
        · exact absurd (hmember.mpr ⟨packet, hpacket, hsome⟩) hmem
        · exact ⟨packet, hpacket, hsome⟩
    · rintro ⟨packet, hpacket, hsome⟩
      have htoken := hledger.queued_token (hkept hpacket) hsome
      refine ⟨_, relocate_some htoken, ?_⟩
      rw [if_neg]
      intro hmem
      -- No packet that stays shares its channel with one that was taken.
      obtain ⟨other, hother, hsame⟩ := hmember.mp hmem
      exact hapart _ (List.mem_map_of_mem hother) _ (List.mem_map_of_mem hpacket)
        (hsame.trans hsome.symm)
  · rw [hrest]
    exact hnodupRest
  · rw [hrest]
    exact fun packet hpacket => hledger.queueOwner packet (hkept hpacket)
  · rw [hrest]
    exact fun packet hpacket => hledger.addressed packet (hkept hpacket)

/-- The packet at the head of the queue is encoded by the flush. -/
theorem Ledger.encodeQueued {packet : Posted Body} {outputQueue : List (Posted Body)}
    (hcall : session.calls call = .onConnection .looping)
    (hqueue : session.outputQueue = packet :: outputQueue) :
    (((session.pop packet outputQueue).encode config packet).become call
      (.onConnection (.encoded packet))).Kept config := by
  have hhead : packet ∈ session.outputQueue := hqueue ▸ List.mem_cons_self
  obtain ⟨channel, hchannel, hallocated⟩ := hledger.addressed packet hhead
  have htoken := hledger.queued_token hhead hchannel
  have hfits := hledger.fits channel _ htoken
  have hchid : packet.packet.header.chid = (session.pool.content channel).id := by
    have hsame := hfits.allocated
    rw [hallocated, Option.some.injEq, Prod.mk.injEq] at hsame
    exact hsame.2
  have hspec := encode_spec config (session.pop packet outputQueue) packet
  rw [hchid] at hspec
  generalize (session.pop packet outputQueue).encode config packet =
    session' at hspec ⊢
  have hcalls : (session'.become call (.onConnection (.encoded packet))).calls =
      Function.update session.calls call (.onConnection (.encoded packet)) := by
    rw [Session.become, hspec.calls]
    rfl
  have hrequest : (session.allocated call).isSome →
      (Activity.onConnection (.encoded packet)).request = (session.calls call).request := by
    rw [hcall]
    exact fun _ => rfl
  refine ⟨tokens.relocate [channel] (.encoded call), use, detached, ?_⟩
  refine hledger.dequeue (show session.outputQueue = [packet] ++ outputQueue from hqueue)
    (by simp [hchannel]) ⟨rfl, by simp, rfl⟩ ?_ hspec.pool hspec.allocations hspec.outputQueue
    hspec.allocated hspec.transmitted hspec.handlerCalls hcalls hrequest (by simp) ?_ ?_ ?_
    ⟨channel, hchannel, rfl⟩
  · apply hledger.books.encode hspec ⟨rfl, rfl, rfl, rfl, rfl, rfl⟩ rfl
    · exact hledger.books.issued _ _ _ hfits.allocated
    · rw [hcall]
      rfl
    · apply locked_same hledger.books.locked
      rw [hcall]
      exact fun _ => rfl
  · intro other hother token htoken' hmem
    rcases hspec.frames _ hmem with hold | hid
    · exact hold
    · exact absurd (hledger.eq_of_id htoken htoken' hid) (by simpa using hother)
  · intro queued hqueued other hother
    obtain rfl := List.mem_singleton.mp hqueued
    obtain rfl := Option.some.inj (hchannel.symm.trans hother)
    refine hfits.encode rfl (by simp) ?_ hspec.allocated hspec.transmitted hspec.handlerCalls ?_
    · change session'.pool.content channel = _
      rw [hspec.pool]
      rfl
    · exact request_update hcalls hrequest _ (by rw [hallocated]; rfl)
  · rw [hcall]
    exact fun held hheld => hheld

/-- The channel of an encoded packet gets the expire time of the packet. -/
theorem Ledger.stamp {packet : Posted Body} {activity : Activity Body}
    (hrequest : activity.request = (session.calls call).request)
    (hallocates : activity.allocates = (session.calls call).allocates)
    (hlocks : activity.locks → (session.calls call).locks)
    (hhad : ∀ held, Holds detached call (session.calls call) held →
      ∃ channel, packet.channel = some channel ∧ held = [(channel, .encoded call, false)])
    (hfilled : ∀ request packet, activity ≠ .postPacket request (.filled packet))
    (hhas : Holds detached call activity []) :
    ((session.stamp packet).become call activity).Kept config := by
  obtain ⟨held, hholds, -, hheld⟩ := hledger.accounts call
  obtain ⟨channel, hchannel, rfl⟩ := hhad held hholds
  obtain ⟨owner, htoken⟩ := (hheld channel (.encoded call) false rfl).mpr (by simp)
  have hfits := hledger.fits channel _ htoken
  have hcontent : ∀ other, (session.stamp packet).pool.content other =
      if other = channel then { session.pool.content other with expireTime := packet.expireTime }
      else session.pool.content other := by
    intro other
    rw [Session.stamp, hchannel, ChannelPool.setExpireTime_content]
  refine ⟨tokens.relocate [channel] .sent, use, detached, ?_⟩
  refine hledger.hand htoken ⟨rfl, rfl⟩ ⟨rfl, by simp, Or.inl rfl⟩ ?_ ?_ rfl rfl rfl rfl rfl
    (fun _ => hrequest) (fun request packet hactivity => absurd hactivity (hfilled request packet))
    (fun other hne => (hcontent other).trans (if_neg hne)) (fun _ _ _ _ hmem => hmem) ?_ ?_ hhas
  · change Serving (session.pool.setExpireTime packet.channel packet.expireTime)
      session.allocations use detached
    rw [hchannel, ChannelPool.setExpireTime]
    apply hledger.serving.modify
    exact fun fields => ⟨rfl, rfl, rfl⟩
  · exact hledger.books.same ⟨rfl, rfl, rfl, rfl, rfl, rfl⟩ rfl hallocates
      (locked_same hledger.books.locked hlocks)
  · refine hfits.stamp ((hcontent channel).trans (if_pos rfl)) rfl rfl ?_
    exact request_update rfl (fun _ => hrequest) _ (by rw [hfits.allocated]; rfl)
  · intro held hheld
    obtain ⟨other, hother, rfl⟩ := hhad held hheld
    rw [Option.some.inj (hother.symm.trans hchannel)]

/-- The frames of the buffer are transmitted by a call that holds the mutex and no token. -/
theorem Ledger.send {packet : Posted Body} {activity : Activity Body} (mutex : Option Nat)
    (hlocks : (session.calls call).locks = true)
    (hrequest : activity.request = (session.calls call).request)
    (hallocates : activity.allocates = (session.calls call).allocates)
    (hlocked : ∀ other, (Function.update session.calls call activity other).locks →
      mutex = some other)
    (hhad : ∀ held, Holds detached call (session.calls call) held → held = [])
    (hfilled : ∀ request packet, activity ≠ .postPacket request (.filled packet))
    (hhas : Holds detached call activity []) :
    ({ session.send packet with mutex := mutex }.become call activity).Kept config := by
  have hspec := send_spec session packet
  generalize session.send packet = session' at hspec ⊢
  have hcalls : ({ session' with mutex := mutex }.become call activity).calls =
      Function.update session.calls call activity := by
    rw [Session.become, hspec.calls]
  -- No token is being encoded: its call would have the mutex, which this call has.
  have hnot : ∀ channel token, tokens channel = some token → ∀ other,
      token.place ≠ .encoded other := by
    intro channel token htoken other hplace
    have hother := hledger.mutex_of_encoded htoken hplace
    rw [hledger.books.locked call hlocks] at hother
    obtain rfl := Option.some.inj hother
    obtain ⟨held, hholds, -, hheld⟩ := hledger.accounts call
    obtain rfl := hhad held hholds
    have hentry := (hheld channel (.encoded call) token.invoked rfl).mp
      ⟨token.owner, by rw [htoken, ← hplace]⟩
    cases hentry
  refine ⟨tokens, use, detached, ?_⟩
  refine hledger.quiet ?_ hspec.pool hspec.allocations.ge hspec.outputQueue hspec.allocated
    hspec.handlerCalls hspec.frames ?_ hcalls (fun _ => hrequest) ?_
    (fun request packet hactivity => absurd hactivity (hfilled request packet))
  · refine hledger.books.turn ?_ hspec.allocations.ge hspec.allocated
      (fun chid hmem => Or.inl (hspec.frames chid hmem)) ?_
      (fun invocation hmem => Or.inl (hspec.handlerCalls ▸ hmem)) hcalls hallocates hlocked
    · change session'.globals.globalChannelId = counterAt session'.allocations
      rw [hspec.globals, hspec.allocations]
      exact hledger.books.counter
    · intro chid hmem
      rcases hspec.transmitted chid hmem with hold | hframe
      · exact Or.inl hold
      · exact Or.inr (hledger.books.frames chid hframe)
  · intro channel token htoken hunsent hmem
    rcases hspec.transmitted _ hmem with hold | hframe
    · exact hold
    · obtain ⟨other, hplace⟩ := ((hledger.fits channel token htoken).unsent hunsent).2.2 hframe
      exact absurd hplace (hnot channel token htoken other)
  · intro held hholds
    rw [hhad held hholds]
    exact hhas

end Send

end Wnet
