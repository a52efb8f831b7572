import Wnet.Session.Sending

/-!
# A request on its way back

The pieces of `HandlePacket` and `CheckTimeout` keep the ledger. A channel that
waits for an answer, or whose packet waits in the queue, is taken by one call,
which has its handler called and then gives the channel back.
-/

namespace Wnet

open Foundation

variable {Body : Type*} {config : Config Body} {session : Session Body} {tokens : Tokens}
  {use : List Ref} {detached : List (List Ref)} {call : Nat}

/-- Whether a call is one that sends requests. -/
def Activity.sends : Activity Body → Bool
  | .postPacket _ _ | .onConnection _ => true
  | .idle | .handlePacket _ | .checkTimeout _ _ => false

section NotSending

variable {activity : Activity Body} (hsends : activity.sends = false)
include hsends

theorem Activity.request_of_not_sends : activity.request = none := by
  cases activity with
  | postPacket request stage => cases hsends
  | _ => rfl

theorem Activity.allocates_of_not_sends : activity.allocates = false := by
  cases activity with
  | postPacket request stage => cases hsends
  | _ => rfl

theorem Activity.locks_of_not_sends : activity.locks = false := by
  cases activity with
  | postPacket request stage => cases hsends
  | onConnection stage => cases hsends
  | _ => rfl

theorem Activity.ne_filled_of_not_sends (request : Request Body) (packet : Posted Body) :
    activity ≠ .postPacket request (.filled packet) := by
  rintro rfl
  cases hsends

end NotSending

/-- The records of a step of a call that sends nothing. -/
theorem Session.Books.aside {session' : Session Body} {activity : Activity Body}
    (hbooks : session.Books) (hsame : SameBooks session session')
    (hmutex : session'.mutex = session.mutex)
    (hcalls : session'.calls = Function.update session.calls call activity)
    (hbefore : (session.calls call).sends = false) (hafter : activity.sends = false) :
    session'.Books := by
  refine hbooks.same hsame hcalls ?_ ?_
  · rw [Activity.allocates_of_not_sends hbefore, Activity.allocates_of_not_sends hafter]
  · rw [hmutex]
    apply locked_same hbooks.locked
    simp [Activity.locks_of_not_sends hafter]

theorem request_aside {activity : Activity Body} (hbefore : (session.calls call).sends = false)
    (hafter : activity.sends = false) :
    (session.allocated call).isSome → activity.request = (session.calls call).request := by
  rw [Activity.request_of_not_sends hbefore, Activity.request_of_not_sends hafter]
  exact fun _ => rfl

/-- The channels a call holds after the handler of one of them was called. -/
def markInvoked (channel : Ref) (held : List (Ref × Place × Bool)) : List (Ref × Place × Bool) :=
  held.map fun entry => if entry.1 = channel then (entry.1, entry.2.1, true) else entry

theorem markInvoked_fst (channel : Ref) (held : List (Ref × Place × Bool)) :
    (markInvoked channel held).map Prod.fst = held.map Prod.fst := by
  rw [markInvoked, List.map_map]
  apply List.map_congr_left
  intro entry _
  rw [Function.comp_apply]
  split <;> rfl

theorem mem_markInvoked {channel : Ref} {place : Place} {held : List (Ref × Place × Bool)}
    (hnodup : (held.map Prod.fst).Nodup) (hmem : (channel, place, false) ∈ held)
    (entry : Ref × Place × Bool) :
    entry ∈ markInvoked channel held ↔
      entry ∈ held ∧ entry.1 ≠ channel ∨ entry = (channel, place, true) := by
  rw [markInvoked, List.mem_map]
  constructor
  · rintro ⟨old, hold, rfl⟩
    by_cases hsame : old.1 = channel
    · obtain rfl := List.inj_on_of_nodup_map hnodup hold hmem hsame
      exact Or.inr (if_pos rfl)
    · rw [if_neg hsame]
      exact Or.inl ⟨hold, hsame⟩
  · rintro (⟨hentry, hne⟩ | rfl)
    · exact ⟨entry, hentry, if_neg hne⟩
    · exact ⟨_, hmem, if_pos rfl⟩

theorem markInvoked_split {channel : Ref} {place : Place} {invoked : Bool}
    {before after : List (Ref × Place × Bool)}
    (hnodup : ((before ++ (channel, place, invoked) :: after).map Prod.fst).Nodup) :
    markInvoked channel (before ++ (channel, place, invoked) :: after) =
      before ++ (channel, place, true) :: after := by
  rw [List.map_append, List.map_cons, List.nodup_append, List.nodup_cons] at hnodup
  obtain ⟨-, ⟨hafter, -⟩, hbefore⟩ := hnodup
  have hothers : ∀ {held : List (Ref × Place × Bool)}, channel ∉ held.map Prod.fst →
      markInvoked channel held = held := by
    intro held hnot
    refine (List.map_congr_left fun entry hentry => ?_).trans (List.map_id held)
    apply if_neg
    rintro rfl
    exact hnot (List.mem_map_of_mem hentry)
  have hsplit : markInvoked channel (before ++ (channel, place, invoked) :: after) =
      markInvoked channel before ++ (channel, place, true) :: markInvoked channel after := by
    simp [markInvoked]
  rw [hsplit, hothers hafter, hothers]
  exact fun hmem => hbefore channel hmem channel List.mem_cons_self rfl

section Reports

variable {activity : Activity Body} (hledger : Ledger config session tokens use detached)
  (hbefore : (session.calls call).sends = false) (hafter : activity.sends = false)
include hledger hbefore hafter

/-- A call goes on with what it holds. -/
theorem Ledger.stay {session' : Session Body} (hsame : SameBooks session session')
    (hpool : session'.pool = session.pool) (hqueue : session'.outputQueue = session.outputQueue)
    (hmutex : session'.mutex = session.mutex)
    (hcalls : session'.calls = Function.update session.calls call activity)
    (hholds : ∀ held, Holds detached call (session.calls call) held →
      Holds detached call activity held) : Ledger config session' tokens use detached := by
  refine hledger.turn hsame hpool hqueue hcalls ?_ ?_ (request_aside hbefore hafter) hholds ?_
  · rw [hmutex]
    apply locked_same hledger.books.locked
    simp [Activity.locks_of_not_sends hafter]
  · rw [Activity.allocates_of_not_sends hbefore, Activity.allocates_of_not_sends hafter]
  · exact fun request packet hactivity =>
      absurd hactivity (Activity.ne_filled_of_not_sends hafter request packet)

/-- A call takes channels that wait for an answer off the use list. -/
theorem Ledger.detach (place : Place) {pool : ChannelPool} {taken use' : List Ref}
    (hplace : place.inUse = false ∧ place.holder = some call)
    (hnone : ∀ held, Holds detached call (session.calls call) held → held = [])
    (hsent : ∀ channel ∈ taken, ∃ owner, tokens channel = some ⟨owner, .sent, false⟩)
    (hserving : Serving pool session.allocations use' (taken :: detached))
    (hcontent : ∀ channel, pool.content channel = session.pool.content channel)
    (huse : ∀ channel, channel ∈ use' ↔ channel ∉ taken ∧ channel ∈ use)
    (hholds : Holds (taken :: detached) call activity (taken.map (·, place, false))) :
    ({ session with pool := pool }.become call activity).Kept config := by
  obtain ⟨held, hheldNow, -, hheld⟩ := hledger.accounts call
  obtain rfl := hnone held hheldNow
  have hrequest := request_aside hbefore hafter
  have hqueued : place ≠ .queued := by
    rintro rfl
    cases hplace.1
  refine ⟨tokens.relocate taken place, use', taken :: detached, ?_⟩
  refine hledger.relocate hserving ?_ rfl rfl rfl rfl hrequest ?_
    (fun channel _ => hcontent channel) (fun _ _ _ _ hmem => hmem) ?_ (Or.inr hplace.2) ?_
    (fun _ hchain => List.mem_cons_of_mem _ hchain)
    (fun _ channel hmem => ⟨taken, List.mem_cons_self, hmem⟩) ?_ ?_ hledger.queueNodup
    hledger.queueOwner hledger.addressed
  · exact hledger.books.aside ⟨rfl, rfl, rfl, rfl, rfl, rfl⟩ rfl rfl hbefore hafter
  · exact fun request packet hactivity =>
      absurd hactivity (Activity.ne_filled_of_not_sends hafter request packet)
  · intro channel hmem
    obtain ⟨owner, htoken⟩ := hsent channel hmem
    have hfits := hledger.fits channel _ htoken
    have hmoved : Token.Fits config session channel ⟨owner, place, false⟩ := by
      refine hfits.move ?_ (by simp) rfl ?_
      · rintro other
        constructor
        · rintro rfl
          cases hplace.1
        · rintro rfl
          cases hplace.1
      · intro hunsent
        exact absurd (hplace.1.symm.trans (Place.inUse_of_unsent hunsent)) (by simp)
    refine ⟨_, htoken, Or.inl rfl, ?_⟩
    refine hmoved.frame (hcontent channel) rfl ?_ rfl (fun _ hmem => hmem) (fun hmem => hmem)
    exact request_update rfl hrequest _ (by rw [hfits.allocated]; rfl)
  · intro channel
    rw [huse channel]
    simp [hplace.1]
  · refine Accounts.relocate_to hheld (by simp) (hserving.nodup_chain List.mem_cons_self) ?_ hholds
    intro channel hmem
    obtain ⟨owner, htoken⟩ := hsent channel hmem
    exact ⟨_, htoken, rfl⟩
  · intro channel
    rw [queue_relocate hqueued]
    · exact hledger.queue channel
    · intro other hmem token htoken' hplace'
      obtain ⟨owner, htoken⟩ := hsent other hmem
      obtain rfl := Option.some.inj (htoken.symm.trans htoken')
      cases hplace'

/-- A call has the handler of a channel called that it holds for this purpose. -/
theorem Ledger.invoke {channel : Ref} (place : Place) {handler : Nat} {notice : Notice Body}
    (hplace : place.reporting = true ∧ place.holder = some call)
    (hhandler : session.handlerOf config channel = some handler)
    (hholds : ∀ held, Holds detached call (session.calls call) held →
      (held.map Prod.fst).Nodup →
      (channel, place, false) ∈ held ∧ Holds detached call activity (markInvoked channel held)) :
    ((session.invoke channel handler notice).become call activity).Kept config := by
  obtain ⟨held, hheldNow, hnodup, hheld⟩ := hledger.accounts call
  obtain ⟨hmem, hnext⟩ := hholds held hheldNow hnodup
  obtain ⟨owner, htoken⟩ := (hheld channel place false hplace.2).mpr hmem
  have hallocated := (hledger.fits channel _ htoken).allocated
  refine ⟨tokens.report channel, use, detached, ?_⟩
  refine hledger.report htoken rfl hplace.1 hplace.2 hhandler ?_ rfl rfl rfl rfl rfl rfl rfl rfl
    (request_aside hbefore hafter) (Activity.ne_filled_of_not_sends hafter) ?_
  · refine hledger.books.turn hledger.books.counter le_rfl rfl (fun _ hmem => Or.inl hmem)
      (fun _ hmem => Or.inl hmem) ?_ rfl ?_ ?_
    · intro invocation hinvocation
      rcases List.mem_append.mp hinvocation with hold | hnew
      · exact Or.inl hold
      · rw [List.mem_singleton.mp hnew]
        exact Or.inr ⟨owner, channel, _, hallocated, rfl⟩
    · rw [Activity.allocates_of_not_sends hbefore, Activity.allocates_of_not_sends hafter]
    · apply locked_same hledger.books.locked
      simp [Activity.locks_of_not_sends hafter]
  · refine Accounts.report hheld hplace.2 hmem ?_ (mem_markInvoked hnodup hmem) hnext
    rw [markInvoked_fst]
    exact hnodup

/-- A call gives channels back whose handlers were called. -/
theorem Ledger.restore (gone : List Ref) {use' : List Ref} {pool : ChannelPool}
    {detached' : List (List Ref)} {held : List (Ref × Place × Bool)}
    (hnodup : (held.map Prod.fst).Nodup)
    (hheld : ∀ channel place invoked, place.holder = some call →
      ((∃ owner, tokens channel = some ⟨owner, place, invoked⟩) ↔
        (channel, place, invoked) ∈ held))
    (hgone : ∀ channel ∈ gone, ∃ place, place.holder = some call ∧ (channel, place, true) ∈ held)
    (hholds : Holds detached' call activity (held.filter fun entry => entry.1 ∉ gone))
    (hserving : Serving pool session.allocations use' detached')
    (hcontent : ∀ channel ∉ gone, pool.content channel = session.pool.content channel)
    (huse : ∀ channel, channel ∈ use' ↔ channel ∈ use ∧ channel ∉ gone)
    (hdetached : ∀ chain ∈ detached, chain ∉ detached' → ∀ channel ∈ chain, channel ∈ gone) :
    ({ session with pool := pool }.become call activity).Kept config := by
  refine ⟨tokens.release gone, use', detached', ?_⟩
  refine hledger.release ?_ hserving ?_ rfl rfl rfl rfl rfl rfl (request_aside hbefore hafter)
    (Activity.ne_filled_of_not_sends hafter) hcontent huse hdetached ?_
  · intro channel hmem
    obtain ⟨place, hplace, hentry⟩ := hgone channel hmem
    obtain ⟨owner, htoken⟩ := (hheld channel place true hplace).mpr hentry
    exact ⟨_, htoken, rfl, hplace⟩
  · exact hledger.books.aside ⟨rfl, rfl, rfl, rfl, rfl, rfl⟩ rfl rfl hbefore hafter
  · refine Accounts.release hheld ?_ (by simp) hholds
    exact hnodup.sublist (List.filter_sublist.map Prod.fst)

end Reports

/-! ## Answers -/

/-- The identifiers fit in the bits that `HandlePacket` keeps. -/
theorem Issued.mask {allocations : Nat} {chid : UInt32} (hissued : Issued allocations chid) :
    chid &&& 0xFFFFFFF = chid := by
  obtain ⟨count, -, rfl⟩ := hissued
  apply UInt32.toNat_inj.mp
  have hmask : (0xFFFFFFF : UInt32).toNat = 2 ^ 28 - 1 := rfl
  rw [UInt32.toNat_and, hmask, Nat.and_two_pow_sub_one_eq_mod]
  apply Nat.mod_eq_of_lt
  have hbound := (idAt_bounds count).2
  omega

/-- The token of a channel whose arguments were forgotten after its handler was called. -/
theorem Token.Fits.setArgsNull {session' : Session Body} {channel : Ref} {token : Token}
    (hfits : token.Fits config session channel) (hinvoked : token.invoked = true)
    (hcontent : session'.pool.content channel = { session.pool.content channel with args := none })
    (hallocated : session'.allocated = session.allocated)
    (htransmitted : session'.transmitted = session.transmitted)
    (hframes : session'.frames = session.frames)
    (hhandlerCalls : session'.handlerCalls = session.handlerCalls)
    (hrequest : (session'.calls token.owner).request = (session.calls token.owner).request) :
    token.Fits config session' channel := by
  refine ⟨?_, hfits.own, ?_, ?_, hfits.reporting, ?_⟩
  · rw [hallocated, hcontent]
    exact hfits.allocated
  · rw [hrequest, hcontent]
    exact fun request hrequest' hprepared => ⟨(hfits.prepared request hrequest' hprepared).1,
      fun hfalse => absurd (hinvoked.symm.trans hfalse) (by simp)⟩
  · rw [hrequest, hcontent]
    intro request hrequest'
    have hreported := hfits.reported request hrequest'
    rw [hinvoked] at hreported ⊢
    obtain ⟨handler, packet, hhandler, hcall⟩ := hreported
    refine ⟨handler, packet, hhandler, ?_⟩
    rw [Session.callsFor, hhandlerCalls]
    exact hcall
  · rw [hcontent, htransmitted, hframes]
    exact hfits.unsent

section Calls

variable (hledger : Ledger config session tokens use detached)
include hledger

/-- A channel on the use list whose request was sent waits for its answer. -/
theorem Ledger.sent_token {channel : Ref} (hmem : channel ∈ use)
    (hsent : ∀ token, tokens channel = some token → token.place.unsent ≠ true) :
    ∃ owner, tokens channel = some ⟨owner, .sent, false⟩ := by
  obtain ⟨⟨owner, place, invoked⟩, htoken, hinUse⟩ := (hledger.inUse channel).mp hmem
  have hunsent := hsent _ htoken
  have hreporting := (hledger.fits channel _ htoken).reporting
  cases place with
  | sent =>
      cases invoked with
      | false => exact ⟨owner, htoken⟩
      | true => cases hreporting rfl
  | response other => cases hinUse
  | scan other => cases hinUse
  | _ => exact absurd rfl hunsent

/-- An answer to a request that was transmitted takes its channel, if it is still there. -/
theorem Ledger.offer {header : PacketHeader} {input : Bytes} {session' : Session Body}
    (hmode : config.streamer.existPacketHeader = true)
    (hcount : session.allocations ≤ 2 ^ 28 - 1)
    (hidle : session.calls call = .idle) (hchid : header.chid ∈ session.transmitted)
    (hnext : session.start config call (.handlePacket header input) = some session') :
    session'.Kept config := by
  have hmask := (hledger.books.transmitted _ hchid).mask
  have hbefore : (session.calls call).sends = false := by
    rw [hidle]
    rfl
  have hnone : ∀ held, Holds detached call (session.calls call) held → held = [] := by
    rw [hidle]
    exact fun held hheld => hheld
  simp only [Session.start, hmode, if_true, hmask] at hnext
  cases hlookup : session.pool.useMap.lookup header.chid with
  | none =>
      have hoffer : session.pool.offerChannel header.chid = (session.pool, none) := by
        rw [ChannelPool.offerChannel, hlookup]
      rw [hoffer] at hnext
      obtain rfl := Option.some.inj hnext
      refine ⟨tokens, use, detached, ?_⟩
      refine hledger.stay hbefore rfl ⟨rfl, rfl, rfl, rfl, rfl, rfl⟩ rfl rfl rfl rfl ?_
      exact fun held hheld => hnone held hheld
  | some channel =>
      obtain ⟨hmem, hid⟩ := hledger.serving.lookup_iff.mp hlookup
      obtain ⟨hoffer, hserving⟩ := hledger.serving.offerChannel hcount hmem
      rw [hid] at hoffer
      rw [hoffer] at hnext
      obtain rfl := Option.some.inj hnext
      refine hledger.detach hbefore rfl (.response call) ⟨rfl, rfl⟩ hnone ?_ (hid ▸ hserving) ?_ ?_
        ⟨List.mem_cons_self, rfl⟩
      · intro other hother
        obtain rfl := List.mem_singleton.mp hother
        apply hledger.sent_token hmem
        intro token htoken hunsent
        have hnot := ((hledger.fits other token htoken).unsent hunsent).2.1
        rw [← ChannelPool.id_eq_content, hid] at hnot
        exact hnot hchid
      · exact fun other => session.pool.offered_content _ channel other
      · intro other
        rw [hledger.serving.nodup.mem_erase_iff]
        simp

/-- The handler of an answered request is called with the answer. -/
theorem Ledger.answer {channel : Ref} {packet : Delivery Body} {session' : Session Body}
    (hcall : session.calls call = .handlePacket (.offered channel packet))
    (hnext : session.handlePacket config call (.offered channel packet) = some session') :
    session'.Kept config := by
  obtain ⟨handler, hhandler, rfl⟩ := Option.map_eq_some_iff.mp hnext
  refine hledger.invoke (by rw [hcall]; rfl) rfl (.response call) ⟨rfl, rfl⟩ hhandler ?_
  rw [hcall]
  rintro held ⟨hchain, rfl⟩ -
  refine ⟨List.mem_singleton.mpr rfl, hchain, ?_⟩
  simp [markInvoked]

/-- The channel of an answered request goes to the free list. -/
theorem Ledger.answered {channel : Ref} {session' : Session Body}
    (hcount : session.allocations ≤ 2 ^ 28 - 1)
    (hcall : session.calls call = .handlePacket (.answered channel))
    (hnext : session.handlePacket config call (.answered channel) = some session') :
    session'.Kept config := by
  have hbefore : (session.calls call).sends = false := by
    rw [hcall]
    rfl
  obtain ⟨held, hholds, hnodup, hheld⟩ := hledger.accounts call
  rw [hcall] at hholds
  obtain ⟨hchain, rfl⟩ := hholds
  have hserving := (hledger.serving.setArgsNull channel).appendChannel hcount hchain
  obtain rfl := Option.some.inj hnext
  refine hledger.restore hbefore rfl [channel] hnodup hheld ?_ (by simp [Holds]) hserving ?_ ?_ ?_
  · intro other hother
    obtain rfl := List.mem_singleton.mp hother
    exact ⟨.response call, rfl, List.mem_singleton.mpr rfl⟩
  · intro other hother
    have hne : other ≠ channel := by simpa using hother
    change ((session.setArgsNull channel).pool.pushFree channel).content other = _
    rw [ChannelPool.pushFree_content, if_neg hne, setArgsNull_content, if_neg hne]
  · intro other
    refine ⟨fun hmem => ⟨hmem, ?_⟩, And.left⟩
    exact hledger.serving.not_mem_chain hmem hchain
  · intro chain hchain' hgone other hother
    have hsame : chain = [channel] := by
      by_contra hne
      exact hgone ((List.mem_erase_of_ne hne).mpr hchain')
    exact hsame ▸ hother

/-! ## Timeouts -/

/-- The channels whose time is over are detached; those that were not sent never are. -/
theorem Ledger.getTimeoutList {now : Int} {session' : Session Body}
    (hcount : session.allocations ≤ 2 ^ 28 - 1) (hnow : now ≤ qynetMaxTime)
    (hidle : session.calls call = .idle)
    (hnext : session.start config call (.checkTimeout now) = some session') :
    session'.Kept config := by
  have hbefore : (session.calls call).sends = false := by
    rw [hidle]
    rfl
  have hnone : ∀ held, Holds detached call (session.calls call) held → held = [] := by
    rw [hidle]
    exact fun held hheld => hheld
  obtain ⟨pool, hlist, hserving, hcontent⟩ := hledger.serving.getTimeoutList hcount now
  have hsplit := session.pool.expired_append_unexpired now use
  have hnodup := hledger.serving.nodup
  rw [← hsplit] at hnodup
  have hsent : ∀ channel ∈ session.pool.expired now use,
      ∃ owner, tokens channel = some ⟨owner, .sent, false⟩ := by
    intro channel hmem
    apply hledger.sent_token
    · rw [← hsplit]
      exact List.mem_append_left _ hmem
    · intro token htoken hunsent
      have hexpire := ((hledger.fits channel token htoken).unsent hunsent).1
      have hlt := session.pool.expireTime_lt_of_mem_expired hmem
      rw [ChannelPool.expireTime_eq_content, hexpire] at hlt
      omega
  have huse : ∀ channel, channel ∈ session.pool.unexpired now use ↔
      channel ∉ session.pool.expired now use ∧ channel ∈ use := by
    intro channel
    have hmem : channel ∈ use ↔ channel ∈ session.pool.expired now use ∨
        channel ∈ session.pool.unexpired now use := by
      rw [← List.mem_append, hsplit]
    have hapart := (List.nodup_append.mp hnodup).2.2
    rw [hmem]
    constructor
    · exact fun hin => ⟨fun hout => hapart channel hout channel hin rfl, Or.inr hin⟩
    · rintro ⟨hout, hin | hin⟩
      · exact absurd hin hout
      · exact hin
  simp only [Session.start, hlist, Option.map_some, Option.some.injEq] at hnext
  cases hexpired : session.pool.expired now use with
  | nil =>
      rw [hexpired] at hnext hserving hsent huse
      subst hnext
      exact hledger.detach hbefore rfl (.scan call) ⟨rfl, rfl⟩ hnone hsent hserving hcontent huse
        rfl
  | cons list rest =>
      rw [hexpired] at hnext hserving hsent huse
      subst hnext
      exact hledger.detach hbefore rfl (.scan call) ⟨rfl, rfl⟩ hnone hsent hserving hcontent huse
        ⟨[], list :: rest, List.mem_cons_self, rfl, rfl, rfl⟩

/-- A timed-out request is reported. -/
theorem Ledger.notify {now : Int} {list channel : Ref} {handler : Nat}
    (hcall : session.calls call = .checkTimeout now (.walking list (some channel)))
    (hhandler : session.handlerOf config channel = some handler) :
    ((session.invoke channel handler .timeout).become call
      (.checkTimeout now (.notified list channel))).Kept config := by
  refine hledger.invoke (by rw [hcall]; rfl) rfl (.scan call) ⟨rfl, rfl⟩ hhandler ?_
  rw [hcall]
  rintro held ⟨before, after, hchain, hlist, hcursor, rfl⟩ hnodup
  obtain ⟨rest, rfl⟩ : ∃ rest, after = channel :: rest := by
    cases after with
    | nil => cases hcursor
    | cons first rest => exact ⟨rest, by rw [Option.some.inj hcursor]⟩
  refine ⟨by simp, before, rest, hchain, hlist, ?_⟩
  rw [List.map_cons] at hnodup ⊢
  rw [markInvoked_split hnodup]
  simp

/-- The walk along the detached list goes on behind a reported channel. -/
theorem Ledger.notified {now : Int} {list channel : Ref} {session' : Session Body}
    (hcall : session.calls call = .checkTimeout now (.notified list channel))
    (hnext : session.checkTimeout config call now (.notified list channel) = some session') :
    session'.Kept config := by
  have hbefore : (session.calls call).sends = false := by
    rw [hcall]
    rfl
  obtain ⟨held, hholds, hnodup, hheld⟩ := hledger.accounts call
  rw [hcall] at hholds
  obtain ⟨before, after, hchain, hlist, rfl⟩ := hholds
  obtain ⟨owner, htoken⟩ := (hheld channel (.scan call) true rfl).mpr (by simp)
  have hfits := hledger.fits channel _ htoken
  have hcursor : (session.setArgsNull channel).pool.next channel = after.head? := by
    have hserving := hledger.serving.setArgsNull channel
    exact (hserving.chain_next hchain).next_of_split
  have hcontent := setArgsNull_content session channel
  have hmem : channel ∈ before ++ channel :: after := by simp
  have hnotUsed : channel ∉ use := fun hused => hledger.serving.not_mem_chain hused hchain hmem
  obtain rfl := Option.some.inj hnext
  rw [hcursor]
  have hacting : Accounts tokens detached call
      (.checkTimeout now (.walking list after.head?) : Activity Body) :=
    ⟨_, ⟨before ++ [channel], after, by simpa using hchain, by simpa using hlist, rfl, rfl⟩,
      hnodup, hheld⟩
  have hself : tokens.relocate [channel] (.scan call) = tokens := relocate_self htoken
  refine ⟨tokens.relocate [channel] (.scan call), use, detached, ?_⟩
  refine hledger.relocate (hledger.serving.setArgsNull channel) ?_ rfl rfl rfl rfl
    (request_aside hbefore rfl) (by simp) ?_ (fun _ _ _ _ hmem => hmem) ?_ (Or.inr rfl) ?_
    (fun _ hchain => hchain) ?_ (hself.symm ▸ hacting) (hself.symm ▸ hledger.queue)
    hledger.queueNodup hledger.queueOwner hledger.addressed
  · exact hledger.books.aside ⟨rfl, rfl, rfl, rfl, rfl, rfl⟩ rfl rfl hbefore rfl
  · exact fun other hother => (hcontent other).trans (if_neg (by simpa using hother))
  · intro other hother
    obtain rfl := List.mem_singleton.mp hother
    refine ⟨_, htoken, Or.inr rfl, ?_⟩
    refine hfits.setArgsNull rfl ((hcontent other).trans (if_pos rfl)) rfl rfl rfl rfl ?_
    exact request_update rfl (request_aside hbefore rfl) _ (by rw [hfits.allocated]; rfl)
  · intro other
    by_cases hsame : other = channel
    · subst hsame
      simp [Place.inUse, hnotUsed]
    · simp [hsame]
  · intro _ other hother
    rw [List.mem_singleton.mp hother]
    exact ⟨_, hchain, hmem⟩

/-- At the end of the detached list all its channels go to the free list. -/
theorem Ledger.appendFreeList {now : Int} {list : Ref} {session' : Session Body}
    (hcount : session.allocations ≤ 2 ^ 28 - 1)
    (hcall : session.calls call = .checkTimeout now (.walking list none))
    (hnext : session.checkTimeout config call now (.walking list none) = some session') :
    session'.Kept config := by
  have hbefore : (session.calls call).sends = false := by
    rw [hcall]
    rfl
  obtain ⟨held, hholds, hnodup, hheld⟩ := hledger.accounts call
  rw [hcall] at hholds
  obtain ⟨chain, after, hchain, hlist, hcursor, rfl⟩ := hholds
  obtain rfl : after = [] := List.head?_eq_none_iff.mp hcursor.symm
  rw [List.append_nil] at hchain hlist
  obtain ⟨rest, rfl⟩ := List.head?_eq_some_iff.mp hlist
  obtain ⟨pool, happend, hserving, hcontent⟩ := hledger.serving.appendFreeList hcount hchain
  have hkept := congrArg (Option.map fun outcome => ({ session with pool := outcome.1 }.become call
    (.checkTimeout now .walked) : Session Body)) happend
  obtain rfl := Option.some.inj (hkept.symm.trans hnext)
  refine hledger.restore hbefore rfl (list :: rest) hnodup hheld ?_ ?_ hserving ?_ ?_ ?_
  · exact fun channel hmem => ⟨.scan call, rfl, by simpa using hmem⟩
  · refine List.filter_eq_nil_iff.mpr fun entry hentry => ?_
    rw [List.map_nil, List.append_nil] at hentry
    obtain ⟨channel, hmem, rfl⟩ := List.mem_map.mp hentry
    exact fun hnot => of_decide_eq_true hnot hmem
  · exact fun channel hmem => (hcontent channel).trans (if_neg hmem)
  · intro channel
    refine ⟨fun hmem => ⟨hmem, ?_⟩, And.left⟩
    exact hledger.serving.not_mem_chain hmem hchain
  · intro chain hchain' hgone
    have hsame : chain = list :: rest := by
      by_contra hne
      exact hgone ((List.mem_erase_of_ne hne).mpr hchain')
    exact hsame ▸ fun channel hmem => hmem

/-- The packets of the queue whose time is over are taken by the call. -/
theorem Ledger.drain {now : Int} {session' : Session Body}
    (hcall : session.calls call = .checkTimeout now .walked)
    (hnext : session.checkTimeout config call now .walked = some session') :
    session'.Kept config := by
  have hbefore : (session.calls call).sends = false := by
    rw [hcall]
    rfl
  have hsplit : session.outputQueue.takeWhile (Session.timedOut now) ++
      session.outputQueue.dropWhile (Session.timedOut now) = session.outputQueue :=
    List.takeWhile_append_dropWhile
  cases Session.checkTimeout_cases hnext with
  | detach hmutex =>
      generalize session.outputQueue.takeWhile (Session.timedOut now) = taken at hsplit ⊢
      have hqueued : ∀ {packet}, packet ∈ taken → packet ∈ session.outputQueue :=
        fun hpacket => hsplit ▸ List.mem_append_left _ hpacket
      have hall : ∀ channel ∈ taken.map Posted.channel, channel.isSome := by
        intro channel hmem
        obtain ⟨packet, hpacket, rfl⟩ := List.mem_map.mp hmem
        obtain ⟨own, hown, -⟩ := hledger.addressed packet (hqueued hpacket)
        rw [hown]
        rfl
      obtain ⟨channels, hchannels⟩ : ∃ channels : List Ref, channels.map some =
          taken.map Posted.channel := by
        refine ⟨taken.filterMap Posted.channel, ?_⟩
        rw [List.map_filterMap_some_eq_filter_map_isSome, List.filter_eq_self]
        exact hall
      refine ⟨tokens.relocate channels (.drain call), use, detached, ?_⟩
      refine hledger.dequeue hsplit.symm hchannels.symm ⟨rfl, by simp, rfl⟩ ?_ rfl rfl rfl rfl rfl
        rfl rfl (request_aside hbefore rfl) (by simp) (fun _ _ _ _ hmem => hmem) ?_ ?_
        ⟨channels, hchannels.symm, rfl⟩
      · exact hledger.books.aside ⟨rfl, rfl, rfl, rfl, rfl, rfl⟩ rfl rfl hbefore rfl
      · intro packet hpacket channel hchannel
        have hfits := hledger.fits channel _ (hledger.queued_token (hqueued hpacket) hchannel)
        have hmoved : Token.Fits config session channel ⟨packet.call, .drain call, false⟩ :=
          hfits.move (by simp) (by simp) rfl (by simp [Place.unsent])
        refine hmoved.frame rfl rfl ?_ rfl (fun _ hmem => hmem) (fun hmem => hmem)
        exact request_update rfl (request_aside hbefore rfl) _ (by rw [hfits.allocated]; rfl)
      · rw [hcall]
        exact fun held hheld => hheld

/-- A packet that timed out in the queue is reported. -/
theorem Ledger.notifyQueued {now : Int} {packet : Posted Body} {packetList : List (Posted Body)}
    {channel : Ref} {handler : Nat}
    (hcall : session.calls call = .checkTimeout now (.draining (packet :: packetList)))
    (hchannel : packet.channel = some channel)
    (hhandler : session.handlerOf config channel = some handler) :
    ((session.invoke channel handler .timeout).become call
      (.checkTimeout now (.drained channel packetList))).Kept config := by
  refine hledger.invoke (by rw [hcall]; rfl) rfl (.drain call) ⟨rfl, rfl⟩ hhandler ?_
  rw [hcall]
  rintro held ⟨channels, hchannels, rfl⟩ hnodup
  cases channels with
  | nil => cases hchannels
  | cons first rest =>
      rw [List.map_cons, List.map_cons, hchannel, List.cons.injEq] at hchannels
      obtain rfl := Option.some.inj hchannels.1
      refine ⟨by simp, rest, hchannels.2, ?_⟩
      rw [List.map_cons] at hnodup ⊢
      exact @markInvoked_split _ _ _ [] _ hnodup

/-- The channel of a packet that timed out in the queue goes to the free list. -/
theorem Ledger.drained {now : Int} {channel : Ref} {packetList : List (Posted Body)}
    {session' : Session Body} (hcount : session.allocations ≤ 2 ^ 28 - 1)
    (hcall : session.calls call = .checkTimeout now (.drained channel packetList))
    (hnext : session.checkTimeout config call now (.drained channel packetList) =
      some session') : session'.Kept config := by
  have hbefore : (session.calls call).sends = false := by
    rw [hcall]
    rfl
  obtain ⟨held, hholds, hnodup, hheld⟩ := hledger.accounts call
  rw [hcall] at hholds
  obtain ⟨channels, hchannels, rfl⟩ := hholds
  obtain ⟨owner, htoken⟩ := (hheld channel (.drain call) true rfl).mpr (by simp)
  have hmem : channel ∈ use := (hledger.inUse channel).mpr ⟨_, htoken, rfl⟩
  obtain ⟨hfree, hserving⟩ := (hledger.serving.setArgsNull channel).freeChannel hcount hmem
  have hkept := congrArg (fun outcome => some ({ session.setArgsNull channel with
    pool := outcome.1 }.become call
      (.checkTimeout now (.draining packetList)) : Session Body)) hfree
  obtain rfl := Option.some.inj (hkept.symm.trans hnext)
  refine hledger.restore hbefore rfl [channel] hnodup hheld ?_ ?_ hserving ?_ ?_
    (fun chain hchain hnot => absurd hchain hnot)
  · intro other hother
    obtain rfl := List.mem_singleton.mp hother
    exact ⟨.drain call, rfl, List.mem_cons_self⟩
  · have hfresh : channel ∉ channels := by
      rw [List.map_cons, List.map_map] at hnodup
      simpa [Function.comp_def] using (List.nodup_cons.mp hnodup).1
    refine ⟨channels, hchannels, ?_⟩
    rw [List.filter_cons_of_neg (by simp), List.filter_eq_self]
    intro entry hentry
    obtain ⟨other, hother, rfl⟩ := List.mem_map.mp hentry
    have hne : other ≠ channel := fun hsame => hfresh (hsame ▸ hother)
    simpa using hne
  · intro other hother
    have hne : other ≠ channel := by simpa using hother
    change ((session.setArgsNull channel).pool.freed channel).content other = _
    rw [ChannelPool.freed_content, if_neg hne, setArgsNull_content, if_neg hne]
  · intro other
    rw [hledger.serving.nodup.mem_erase_iff]
    simp [and_comm]

end Calls

end Wnet
