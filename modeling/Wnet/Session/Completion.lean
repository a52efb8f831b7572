import Wnet.Session.Shares
import Wnet.Session.Reporting

/-!
# Every request completes at most once

Whatever the threads do, and in whatever order, the handler of a request is
called at most once, for that request, and as long as it was not called the
request is to be found: in the map of the channels in use, or with a call that is
about to report it.
-/

namespace Wnet

open Foundation

variable {Body : Type*} {config : Config Body} {session session' : Session Body}
  {tokens : Tokens} {use : List Ref} {detached : List (List Ref)} {call : Nat}

theorem exists_handlerOf {handler : Nat} (hdefault : config.defaultPacketHandler = some handler)
    (session : Session Body) (channel : Ref) :
    ∃ handler, session.handlerOf config channel = some handler := by
  rw [Session.handlerOf, hdefault]
  cases (session.pool.mem channel).handler with
  | none => exact ⟨handler, rfl⟩
  | some own => exact ⟨own, rfl⟩

section Pieces

variable (hledger : Ledger config session tokens use detached)
include hledger

/-- The ledger does not notice what it does not mention. -/
theorem Ledger.ignore (hsame : SameBooks session session') (hpool : session'.pool = session.pool)
    (hqueue : session'.outputQueue = session.outputQueue)
    (hmutex : session'.mutex = session.mutex) (hcalls : session'.calls = session.calls) :
    Ledger config session' tokens use detached := by
  refine hledger.turn hsame hpool hqueue
    (hcalls.trans (Function.update_eq_self 0 session.calls).symm) ?_ rfl (fun _ => rfl)
    (fun _ hholds => hholds) (hledger.filled 0)
  rw [hmutex]
  exact locked_same hledger.books.locked id

/-- A call goes on that was given no channel so far. -/
theorem Ledger.pass {activity : Activity Body} (hsame : SameBooks session session')
    (hpool : session'.pool = session.pool) (hqueue : session'.outputQueue = session.outputQueue)
    (hcalls : session'.calls = Function.update session.calls call activity)
    (hlocked : ∀ other, (Function.update session.calls call activity other).locks →
      session'.mutex = some other)
    (hbefore : (session.calls call).allocates = false) (hafter : activity.allocates = false)
    (hholds : ∀ held, Holds detached call (session.calls call) held →
      Holds detached call activity held) : Ledger config session' tokens use detached := by
  refine hledger.turn hsame hpool hqueue hcalls hlocked (hafter.trans hbefore.symm)
    (hledger.request_of_idle hbefore) hholds ?_
  rintro request packet rfl
  cases hafter

theorem Ledger.unlocked {activity : Activity Body} (hlocks : activity.locks = false) (other : Nat)
    (hother : (Function.update session.calls call activity other).locks) :
    session.mutex = some other :=
  locked_same hledger.books.locked (by simp [hlocks]) other hother

/-! ## `PostPacket` -/

theorem Ledger.startPost {request : Request Body} (hidle : session.calls call = .idle)
    (hnext : session.start config call (.postPacket request) = some session') :
    session'.Kept config := by
  have hbefore : (session.calls call).allocates = false := by
    rw [hidle]
    rfl
  have hnone : ∀ held, Holds detached call (session.calls call) held → held = [] := by
    rw [hidle]
    exact fun held hheld => hheld
  refine ⟨tokens, use, detached, ?_⟩
  cases Session.start_cases hnext with
  | reject | enter =>
      exact hledger.pass ⟨rfl, rfl, rfl, rfl, rfl, rfl⟩ rfl rfl rfl (hledger.unlocked rfl) hbefore
        rfl hnone

theorem Ledger.enter {request : Request Body}
    (hcall : session.calls call = .postPacket request .entered)
    (hnext : session.postPacket config call request .entered = some session') :
    session'.Kept config := by
  have hbefore : (session.calls call).allocates = false := by
    rw [hcall]
    rfl
  have hnone : ∀ held, Holds detached call (session.calls call) held → held = [] := by
    rw [hcall]
    exact fun held hheld => hheld
  refine ⟨tokens, use, detached, ?_⟩
  cases Session.postPacket_cases hnext with
  | refuse | admitted =>
      exact hledger.pass ⟨rfl, rfl, rfl, rfl, rfl, rfl⟩ rfl rfl rfl (hledger.unlocked rfl) hbefore
        rfl hnone

/-- An admitted request is given its channel. -/
theorem Ledger.admit {request : Request Body}
    (hmode : config.streamer.existPacketHeader = true)
    (hcount : session'.allocations ≤ 2 ^ 28 - 1)
    (hcall : session.calls call = .postPacket request .admitted)
    (hnext : session.postPacket config call request .admitted = some session') :
    session'.Kept config := by
  simp only [Session.postPacket, hmode, if_true] at hnext
  obtain rfl := Option.some.inj hnext
  have hspec := hledger.serving.allocChannel hledger.books.counter hcount
  have hid : (session.pool.allocChannel session.globals).2.1.id
      (session.pool.allocChannel session.globals).2.2 = idAt session.allocations := by
    rw [ChannelPool.id_eq_content, hspec.content]
    rfl
  have hbefore : session.allocated call = none := by
    have hnumbered := hledger.books.numbered call
    rw [hcall] at hnumbered
    exact Option.isNone_iff_eq_none.mp (Option.isSome_eq_false_iff.mp hnumbered)
  apply Ledger.kept
  refine hledger.allocate hcount hspec hbefore rfl ?_ rfl rfl rfl rfl rfl rfl rfl rfl (by simp) ?_
    rfl
  · rw [← hid]
    rfl
  · rw [hcall]
    exact fun held hheld => hheld

theorem Ledger.accept {request : Request Body}
    (hcall : session.calls call = .postPacket request .posted)
    (hnext : session.postPacket config call request .posted = some session') :
    session'.Kept config := by
  have hreturn : ∀ session' : Session Body, SameBooks session session' →
      session'.pool = session.pool → session'.outputQueue = session.outputQueue →
      session'.mutex = session.mutex → session'.calls = Function.update session.calls call
        (.postPacket request (.returned true)) → Ledger config session' tokens use detached := by
    intro session' hsame hpool hqueue hmutex hcalls
    refine hledger.turn hsame hpool hqueue hcalls (hmutex ▸ hledger.unlocked rfl)
      (by rw [hcall]; rfl) (by rw [hcall]; exact fun _ => rfl) ?_ (by simp)
    rw [hcall]
    exact fun held hheld => hheld
  refine ⟨tokens, use, detached, ?_⟩
  cases Session.postPacket_cases hnext with
  | wake hmutex hblocking hover => exact hreturn _ ⟨rfl, rfl, rfl, rfl, rfl, rfl⟩ rfl rfl rfl rfl
  | wait hmutex hblocking hfull =>
      exact hledger.ignore ⟨rfl, rfl, rfl, rfl, rfl, rfl⟩ rfl rfl rfl rfl
  | leave hfree => exact hreturn _ ⟨rfl, rfl, rfl, rfl, rfl, rfl⟩ rfl rfl rfl rfl

/-- Every piece of `PostPacket` keeps a ledger. -/
theorem Ledger.postPacket {request : Request Body} {stage : PostStage Body}
    (hmode : config.streamer.existPacketHeader = true)
    (hcount : session'.allocations ≤ 2 ^ 28 - 1)
    (hcall : session.calls call = .postPacket request stage) (hown : stage.Own call)
    (hnext : session.postPacket config call request stage = some session') :
    session'.Kept config := by
  cases stage with
  | entered => exact hledger.enter hcall hnext
  | admitted => exact hledger.admit hmode hcount hcall hnext
  | allocated packet channel => exact hledger.fill hcall hown hnext
  | filled packet =>
      cases Session.postPacket_cases hnext with
      | encode hmutex hconnected => exact hledger.encodeDirect hcall hown hmutex
      | push hmutex hconnected => exact hledger.push hcall hown
  | encoded packet =>
      obtain rfl := Option.some.inj hnext
      refine hledger.stamp ?_ ?_ ?_ ?_ (by simp) rfl <;> rw [hcall]
      · rfl
      · rfl
      · exact fun _ => rfl
      · exact fun held hheld => hheld
  | stamped packet =>
      obtain rfl := Option.some.inj hnext
      have hlocks : (session.calls call).locks = true := by
        rw [hcall]
        rfl
      refine hledger.send none hlocks ?_ ?_ (locked_release hledger.books.locked hlocks rfl) ?_
        (by simp) rfl <;> rw [hcall]
      · rfl
      · rfl
      · exact fun held hheld => hheld
  | posted => exact hledger.accept hcall hnext
  | returned result => cases hnext

/-! ## The flush -/

theorem Ledger.startFlush (hidle : session.calls call = .idle)
    (hnext : session.start config call .onConnection = some session') : session'.Kept config := by
  obtain rfl := Option.some.inj hnext
  refine ⟨tokens, use, detached, ?_⟩
  refine hledger.pass ⟨rfl, rfl, rfl, rfl, rfl, rfl⟩ rfl rfl rfl (hledger.unlocked rfl) ?_ rfl ?_
  · rw [hidle]
    rfl
  · rw [hidle]
    exact fun held hheld => hheld

/-- Every piece of `OnConnection` keeps a ledger. -/
theorem Ledger.onConnection {stage : FlushStage Body}
    (hcall : session.calls call = .onConnection stage)
    (hnext : session.onConnection config call stage = some session') : session'.Kept config := by
  have hallocates : (session.calls call).allocates = false := by
    rw [hcall]
    rfl
  cases Session.onConnection_cases hnext with
  | enter | lost | nothing =>
      refine ⟨tokens, use, detached, ?_⟩
      exact hledger.pass ⟨rfl, rfl, rfl, rfl, rfl, rfl⟩ rfl rfl rfl (hledger.unlocked rfl)
        hallocates rfl (by rw [hcall]; exact fun held hheld => hheld)
  | lock hmutex hqueue =>
      refine ⟨tokens, use, detached, ?_⟩
      exact hledger.pass ⟨rfl, rfl, rfl, rfl, rfl, rfl⟩ rfl rfl rfl
        (locked_acquire hledger.books.locked hmutex) hallocates rfl
        (by rw [hcall]; exact fun held hheld => hheld)
  | encode hqueue =>
      -- The token of the packet moves from the queue to this call.
      exact hledger.encodeQueued hcall hqueue
  | unlock hqueue =>
      have hlocks : (session.calls call).locks = true := by
        rw [hcall]
        rfl
      obtain ⟨total, htotal⟩ := recount_eq config session
      rw [htotal]
      refine ⟨tokens, use, detached, ?_⟩
      exact hledger.pass ⟨rfl, rfl, rfl, rfl, rfl, rfl⟩ rfl rfl rfl
        (locked_release hledger.books.locked hlocks rfl) hallocates rfl
        (by rw [hcall]; exact fun held hheld => hheld)
  | stamp =>
      refine hledger.stamp ?_ ?_ ?_ ?_ (by simp) rfl <;> rw [hcall]
      · rfl
      · rfl
      · exact fun _ => rfl
      · exact fun held hheld => hheld
  | @send packet =>
      have hlocks : (session.calls call).locks = true := by
        rw [hcall]
        rfl
      have hmutex := (send_spec session packet).mutex
      refine hledger.send (session.send packet).mutex hlocks ?_ ?_ ?_ ?_ (by simp) rfl
      · rw [hcall]
        rfl
      · rw [hcall]
        rfl
      · rw [hmutex]
        exact locked_same hledger.books.locked fun _ => hlocks
      · rw [hcall]
        exact fun held hheld => hheld

/-! ## Reports -/

/-- Every piece of `HandlePacket` keeps a ledger. -/
theorem Ledger.handlePacket {stage : ResponseStage Body}
    (hcount : session.allocations ≤ 2 ^ 28 - 1)
    (hcall : session.calls call = .handlePacket stage)
    (hnext : session.handlePacket config call stage = some session') : session'.Kept config := by
  cases stage with
  | offered channel packet => exact hledger.answer hcall hnext
  | answered channel => exact hledger.answered hcount hcall hnext
  | returned result => cases hnext

/-- Every piece of `CheckTimeout` keeps a ledger. With a default handler none of
its channels is passed over. -/
theorem Ledger.checkTimeout {now : Int} {stage : TimeoutStage Body} {handler : Nat}
    (hdefault : config.defaultPacketHandler = some handler)
    (hcount : session.allocations ≤ 2 ^ 28 - 1)
    (hcall : session.calls call = .checkTimeout now stage)
    (hnext : session.checkTimeout config call now stage = some session') :
    session'.Kept config := by
  have hbefore : (session.calls call).sends = false := by
    rw [hcall]
    rfl
  -- A loop over no packets holds no channel.
  have hdrained : stage = .draining [] →
      ∀ held, Holds detached call (session.calls call) held → held = [] := by
    rintro rfl
    rw [hcall]
    rintro held ⟨channels, hchannels, rfl⟩
    cases channels with
    | nil => rfl
    | cons channel others => cases hchannels
  cases Session.checkTimeout_cases hnext with
  | notify hhandler => exact hledger.notify hcall hhandler
  | @skip list channel hhandler =>
      obtain ⟨own, hown⟩ := exists_handlerOf hdefault session channel
      exact absurd (hown.symm.trans hhandler) nofun
  | advance => exact hledger.notified hcall hnext
  | appendFreeList happend => exact hledger.appendFreeList hcount hcall hnext
  | detach hmutex => exact hledger.drain hcall hnext
  | dropPacket hchannel =>
      obtain ⟨held, hholds, -⟩ := hledger.accounts call
      rw [hcall] at hholds
      obtain ⟨channels, hchannels, -⟩ := hholds
      rw [List.map_cons, hchannel] at hchannels
      cases channels with
      | nil => cases hchannels
      | cons channel others => cases hchannels
  | @notifyQueued packet packetList channel own hchannel hhandler =>
      have hrecorded : Ledger config (session.release packet) tokens use detached :=
        hledger.ignore ⟨rfl, rfl, rfl, rfl, rfl, rfl⟩ rfl rfl rfl rfl
      exact hrecorded.notifyQueued hcall hchannel hhandler
  | @skipQueued packet packetList channel hchannel hhandler =>
      obtain ⟨own, hown⟩ := exists_handlerOf hdefault (session.release packet) channel
      exact absurd (hown.symm.trans hhandler) nofun
  | freeChannel => exact hledger.drained hcount hcall hnext
  | recount hmutex hover =>
      refine ⟨tokens, use, detached, ?_⟩
      obtain ⟨total, htotal⟩ := recount_eq config session
      rw [htotal]
      exact hledger.stay hbefore rfl ⟨rfl, rfl, rfl, rfl, rfl, rfl⟩ rfl rfl rfl rfl (hdrained rfl)
  | leave hbelow =>
      refine ⟨tokens, use, detached, ?_⟩
      exact hledger.stay hbefore rfl ⟨rfl, rfl, rfl, rfl, rfl, rfl⟩ rfl rfl rfl rfl (hdrained rfl)

end Pieces

/-! ## Runs -/

namespace Session

/-- The peer answers only identifiers that were transmitted to it, and the time of
a timeout check is in range. -/
def Honest (session : Session Body) : Label Body → Prop
  | .start _ (.handlePacket header _) => header.chid ∈ session.transmitted
  | .start _ (.checkTimeout now) => now ≤ qynetMaxTime
  | _ => True

instance (session : Session Body) (label : Label Body) : Decidable (session.Honest label) :=
  match label with
  | .start _ (.handlePacket header _) =>
      inferInstanceAs (Decidable (header.chid ∈ session.transmitted))
  | .start _ (.checkTimeout now) => inferInstanceAs (Decidable (now ≤ qynetMaxTime))
  | .start _ (.postPacket _) | .start _ .onConnection | .proceed _ | .connectionLost | .loopStop
  | .setClock _ | .allocElsewhere _ => inferInstanceAs (Decidable True)

theorem kept_new (mem : Ref → Channel) : (new mem : Session Body).Kept config := by
  refine ⟨fun _ => none, [], [], Serving.new mem, ?_, by simp, by simp, by simp, ?_,
    by simp [new], by simp [new], by simp [new], by simp [new], by simp [new], by simp [new]⟩
  · exact ⟨rfl, by simp [new], by simp [new], by simp [new], by simp [new], by simp [new],
      fun _ => rfl, by simp [new, Activity.locks]⟩
  · exact fun call => ⟨[], rfl, List.nodup_nil, by simp⟩

/-- Every step with an honest environment keeps a ledger, until the identifiers wrap. -/
theorem step_kept {label : Label Body} {handler : Nat}
    (hmode : config.streamer.existPacketHeader = true)
    (hdefault : config.defaultPacketHandler = some handler)
    (hattributed : session.Attributed) (hkept : session.Kept config)
    (hhonest : session.Honest label) (hcount : session'.allocations ≤ 2 ^ 28 - 1)
    (hstep : session.step config label = some session') : session'.Kept config := by
  obtain ⟨tokens, use, detached, hledger⟩ := hkept
  have hbefore : session.allocations ≤ 2 ^ 28 - 1 := le_trans (step_allocations hstep) hcount
  cases step_cases hstep with
  | @start call operation session' hidle hnext =>
      cases operation with
      | postPacket request => exact hledger.startPost hidle hnext
      | onConnection => exact hledger.startFlush hidle hnext
      | handlePacket header input => exact hledger.offer hmode hbefore hidle hhonest hnext
      | checkTimeout now => exact hledger.getTimeoutList hbefore hhonest hidle hnext
  | @postPacket call request stage session' hcall hnext =>
      exact hledger.postPacket hmode hcount hcall (hattributed call request stage hcall) hnext
  | onConnection hcall hnext => exact hledger.onConnection hcall hnext
  | handlePacket hcall hnext => exact hledger.handlePacket hbefore hcall hnext
  | checkTimeout hcall hnext => exact hledger.checkTimeout hdefault hbefore hcall hnext
  | connectionLost | loopStop | setClock =>
      exact ⟨tokens, use, detached, hledger.ignore ⟨rfl, rfl, rfl, rfl, rfl, rfl⟩ rfl rfl rfl rfl⟩
  | @allocElsewhere pool =>
      refine ⟨tokens, use, detached, ?_⟩
      have hsame := (Function.update_eq_self 0 session.calls).symm
      refine hledger.quiet ?_ rfl (Nat.le_succ _) rfl rfl rfl (fun _ hmem => hmem)
        (fun _ _ _ _ hmem => hmem) hsame (fun _ => rfl) (fun _ hholds => hholds) (hledger.filled 0)
      refine hledger.books.turn ?_ (Nat.le_succ _) rfl (fun _ hmem => Or.inl hmem)
        (fun _ hmem => Or.inl hmem) (fun _ hmem => Or.inl hmem) hsame rfl
        (locked_same hledger.books.locked id)
      change (pool.allocChannel session.globals).1.globalChannelId = _
      rw [ChannelPool.allocChannel_counter, hledger.books.counter, nextChannelId_counterAt]

end Session

/-! ## Completion -/

/-- The channels that a call has detached and not reported yet. -/
def Activity.unreported (pool : ChannelPool) : Activity Body → List Ref
  | .handlePacket (.offered channel _) => [channel]
  | .checkTimeout _ (.walking _ channel) => follow pool.next pool.channelCount channel
  | .checkTimeout _ (.notified _ channel) =>
      follow pool.next pool.channelCount (pool.next channel)
  | _ => []

/-- Whether a call of `HandlePacket` or `CheckTimeout` is in progress. -/
def Activity.reports : Activity Body → Bool
  | .handlePacket (.returned _) | .checkTimeout _ .returned => false
  | .handlePacket _ | .checkTimeout _ _ => true
  | .idle | .postPacket _ _ | .onConnection _ => false

/-- Every request completes at most once, with its own handler and arguments, and
is not lost before it does. -/
structure Session.CompletesOnce (config : Config Body) (session : Session Body) : Prop where
  distinct : ∀ call call' channel channel' chid, session.allocated call = some (channel, chid) →
    session.allocated call' = some (channel', chid) → call = call'
  onBehalf : ∀ invocation ∈ session.handlerCalls, invocation.OnBehalf session.allocated
  once : ∀ call request, session.calls call = .postPacket request (.returned true) →
    ∃ channel chid, session.allocated call = some (channel, chid) ∧
      (session.callsFor chid).length ≤ 1 ∧
      (∀ invocation ∈ session.callsFor chid,
        some invocation.handler = request.packetHandler.or config.defaultPacketHandler ∧
        invocation.args = request.args) ∧
      (session.callsFor chid = [] → session.pool.useMap.lookup chid = some channel ∨
        session.pool.id channel = chid ∧
          ∃ other, channel ∈ (session.calls other).unreported session.pool)
  outstanding : (∀ call, (session.calls call).reports = false) → ∀ chid channel,
    session.pool.useMap.lookup chid = some channel ↔
      ∃ call, session.allocated call = some (channel, chid) ∧ session.callsFor chid = []

/-- A call that holds a channel to report it is in progress. -/
theorem reports_of_holds {activity : Activity Body} {held : List (Ref × Place × Bool)}
    {entry : Ref × Place × Bool} (hholds : Holds detached call activity held)
    (hmem : entry ∈ held) (hplace : entry.2.1.reporting = true) : activity.reports = true := by
  cases activity with
  | idle =>
      obtain rfl : held = [] := hholds
      cases hmem
  | postPacket request stage =>
      cases stage with
      | filled packet =>
          obtain ⟨own, -, rfl⟩ := hholds
          cases List.mem_singleton.mp hmem
          cases hplace
      | encoded packet =>
          obtain ⟨own, -, rfl⟩ := hholds
          cases List.mem_singleton.mp hmem
          cases hplace
      | allocated packet own =>
          obtain rfl := hholds
          cases List.mem_singleton.mp hmem
          cases hplace
      | _ =>
          obtain rfl : held = [] := hholds
          cases hmem
  | onConnection stage =>
      cases stage with
      | encoded packet =>
          obtain ⟨own, -, rfl⟩ := hholds
          cases List.mem_singleton.mp hmem
          cases hplace
      | _ =>
          obtain rfl : held = [] := hholds
          cases hmem
  | handlePacket stage =>
      cases stage with
      | returned result =>
          obtain rfl : held = [] := hholds
          cases hmem
      | _ => rfl
  | checkTimeout now stage =>
      cases stage with
      | returned =>
          obtain rfl : held = [] := hholds
          cases hmem
      | _ => rfl

section Completion

variable (hledger : Ledger config session tokens use detached)
include hledger

/-- A channel that is with a call off the use list and was not reported is among
those that the call has yet to report. -/
theorem Ledger.mem_unreported {activity : Activity Body} {held : List (Ref × Place × Bool)}
    {channel : Ref} {place : Place} (hholds : Holds detached call activity held)
    (hmem : (channel, place, false) ∈ held) (hplace : place.inUse = false) :
    channel ∈ activity.unreported session.pool := by
  have hserving := hledger.serving
  have hreports := reports_of_holds hholds hmem (Place.reporting_of_not_inUse hplace)
  cases activity with
  | idle => cases hreports
  | postPacket request stage => cases hreports
  | onConnection stage => cases hreports
  | handlePacket stage =>
      cases stage with
      | offered own packet =>
          obtain ⟨-, rfl⟩ := hholds
          cases List.mem_singleton.mp hmem
          exact List.mem_singleton.mpr rfl
      | answered own =>
          obtain ⟨-, rfl⟩ := hholds
          cases List.mem_singleton.mp hmem
      | returned result => cases hreports
  | checkTimeout now stage =>
      cases stage with
      | walking list cursor =>
          obtain ⟨before, after, hchain, -, rfl, rfl⟩ := hholds
          rw [Activity.unreported, hserving.follow_chain hchain]
          exact (show channel ∈ after ∧ Place.scan call = place by simpa using hmem).1
      | notified list reported =>
          obtain ⟨before, after, hchain, -, rfl⟩ := hholds
          have hnext : session.pool.next reported = after.head? :=
            (hserving.chain_next hchain).next_of_split
          have hsplit : (before ++ [reported]) ++ after ∈ detached := by simpa using hchain
          rw [Activity.unreported, hnext, hserving.follow_chain hsplit]
          exact (show channel ∈ after ∧ Place.scan call = place by simpa using hmem).1
      | draining packetList =>
          obtain ⟨channels, -, rfl⟩ := hholds
          obtain ⟨own, -, hsame⟩ := List.mem_map.mp hmem
          cases hsame
          cases hplace
      | drained own packetList =>
          obtain ⟨channels, -, rfl⟩ := hholds
          rcases List.mem_cons.mp hmem with hsame | hmem
          · cases hsame
          · obtain ⟨own, -, hsame⟩ := List.mem_map.mp hmem
            cases hsame
            cases hplace
      | walked =>
          obtain rfl : held = [] := hholds
          cases hmem
      | returned => cases hreports

theorem Ledger.reports_of_reporting {channel : Ref} {token : Token}
    (htoken : tokens channel = some token) (hplace : token.place.reporting = true) :
    ∃ other, (session.calls other).reports = true := by
  obtain ⟨other, hholder⟩ := Place.exists_holder_of_reporting hplace
  obtain ⟨held, hholds, -, hheld⟩ := hledger.accounts other
  have hentry := (hheld channel token.place token.invoked hholder).mp ⟨token.owner, htoken⟩
  exact ⟨other, reports_of_holds hholds hentry hplace⟩

/-- The request of a call that was given a channel. -/
theorem Ledger.request_of_allocated {entry : Ref × UInt32}
    (hallocated : session.allocated call = some entry) :
    ∃ request, (session.calls call).request = some request := by
  have hnumbered := hledger.books.numbered call
  rw [hallocated] at hnumbered
  cases hcall : session.calls call with
  | postPacket request stage => exact ⟨request, rfl⟩
  | _ =>
      rw [hcall] at hnumbered
      cases hnumbered

/-- A request waits, with a token, for its handler to be called, or it was called. -/
theorem Ledger.waiting_or_reported {channel : Ref} {chid : UInt32} {request : Request Body}
    (hallocated : session.allocated call = some (channel, chid))
    (hrequest : (session.calls call).request = some request) :
    (session.callsFor chid = [] ∧ session.pool.id channel = chid ∧
      ∃ place, tokens channel = some ⟨call, place, false⟩) ∨
    session.Reported config chid request true := by
  rcases hledger.settled call channel chid hallocated with ⟨token, htoken, rfl⟩ | hreported
  · have hfits := hledger.fits channel token htoken
    have hid : (session.pool.content channel).id = chid := by
      have hsame := hfits.allocated
      rw [hallocated, Option.some.injEq, Prod.mk.injEq] at hsame
      exact hsame.2.symm
    have hreported := hfits.reported request hrequest
    rw [hid] at hreported
    cases hinvoked : token.invoked with
    | false =>
        rw [hinvoked] at hreported
        exact Or.inl ⟨hreported, hid, token.place, by rw [htoken, ← hinvoked]⟩
    | true =>
        rw [hinvoked] at hreported
        exact Or.inr hreported
  · exact Or.inr (hreported request hrequest)

theorem Ledger.completesOnce : session.CompletesOnce config := by
  refine ⟨hledger.books.injective, hledger.books.handlerCalls, ?_, ?_⟩
  · intro call request hcall
    have hnumbered := hledger.books.numbered call
    rw [hcall] at hnumbered
    obtain ⟨⟨channel, chid⟩, hallocated⟩ := Option.isSome_iff_exists.mp hnumbered
    have hrequest : (session.calls call).request = some request := by
      rw [hcall]
      rfl
    refine ⟨channel, chid, hallocated, ?_⟩
    rcases hledger.waiting_or_reported hallocated hrequest with
      ⟨hnone, hid, place, htoken⟩ | ⟨handler, packet, hhandler, hcalls⟩
    · refine ⟨by simp [hnone], by simp [hnone], fun _ => ?_⟩
      cases hinUse : place.inUse with
      | true =>
          have huse := (hledger.inUse channel).mpr ⟨_, htoken, hinUse⟩
          exact Or.inl (hledger.serving.lookup_iff.mpr ⟨huse, hid⟩)
      | false =>
          -- Taken out of the use list but not reported yet: some call has it in hand.
          obtain ⟨other, hholder⟩ :=
            Place.exists_holder_of_reporting (Place.reporting_of_not_inUse hinUse)
          obtain ⟨held, hholds, -, hheld⟩ := hledger.accounts other
          have hentry := (hheld channel place false hholder).mp ⟨call, htoken⟩
          exact Or.inr ⟨hid, other, hledger.mem_unreported hholds hentry hinUse⟩
    · refine ⟨by simp [hcalls], ?_, by simp [hcalls]⟩
      intro invocation hmem
      rw [hcalls] at hmem
      cases List.mem_singleton.mp hmem
      exact ⟨hhandler.symm, rfl⟩
  · intro hquiet chid channel
    -- While nobody reports, a token is in the use list or in the queue and was not invoked.
    have hnotReporting : ∀ {other token}, tokens other = some token →
        token.place.reporting = false := by
      intro other token htoken
      by_contra hreporting
      obtain ⟨call, hreports⟩ := hledger.reports_of_reporting htoken (by simpa using hreporting)
      exact absurd (hreports.symm.trans (hquiet call)) (by simp)
    rw [hledger.serving.lookup_iff]
    constructor
    · rintro ⟨huse, rfl⟩
      obtain ⟨token, htoken, hinUse⟩ := (hledger.inUse channel).mp huse
      have hallocated := (hledger.fits channel token htoken).allocated
      obtain ⟨request, hrequest⟩ := hledger.request_of_allocated hallocated
      have hinvoked : token.invoked = false := by
        by_contra hinvoked
        have hreporting :=
          (hledger.fits channel token htoken).reporting (by simpa using hinvoked)
        exact absurd ((hnotReporting htoken).symm.trans hreporting) (by simp)
      have hnone := (hledger.fits channel token htoken).reported request hrequest
      rw [hinvoked] at hnone
      exact ⟨token.owner, hallocated, hnone⟩
    · rintro ⟨call, hallocated, hnone⟩
      obtain ⟨request, hrequest⟩ := hledger.request_of_allocated hallocated
      rcases hledger.waiting_or_reported hallocated hrequest with
        ⟨-, hid, place, htoken⟩ | ⟨handler, packet, -, hcalls⟩
      · refine ⟨(hledger.inUse channel).mpr ⟨_, htoken, ?_⟩, hid⟩
        by_contra hinUse
        have hreporting := Place.reporting_of_not_inUse (by simpa using hinUse)
        exact absurd ((hnotReporting htoken).symm.trans hreporting) (by simp)
      · rw [hnone] at hcalls
        cases hcalls

end Completion

namespace Session

/-- In every run with an honest environment, as long as identifiers are not used
again, every request completes at most once and none is lost. -/
theorem request_completes_once {mem : Ref → Channel} {labels : List (Label Body)} {handler : Nat}
    (hmode : config.streamer.existPacketHeader = true)
    (hdefault : config.defaultPacketHandler = some handler)
    (hrun : run (step config) (new mem) labels = some session)
    (halong : Along (step config) Honest (new mem) labels)
    (hcount : session.allocations ≤ 2 ^ 28 - 1) : session.CompletesOnce config := by
  have hinvariant : session.Attributed ∧
      (session.allocations ≤ 2 ^ 28 - 1 → session.Kept config) := by
    refine run_invariant_along (fun session => session.Attributed ∧
      (session.allocations ≤ 2 ^ 28 - 1 → session.Kept config)) ?_
      ⟨attributed_new mem, fun _ => kept_new mem⟩ halong hrun
    rintro session label next ⟨hattributed, hkept⟩ hhonest hstep
    refine ⟨(step_move hattributed hstep).1, fun hcount => ?_⟩
    have hbefore := le_trans (step_allocations hstep) hcount
    exact step_kept hmode hdefault hattributed (hkept hbefore) hhonest hcount hstep
  obtain ⟨tokens, use, detached, hledger⟩ := hinvariant.2 hcount
  exact hledger.completesOnce

/-- Two requests are sent. The first is answered twice, the second times out and
is answered afterwards. -/
def answeredAndExpired : List (Label Bytes) :=
  .start 0 .onConnection :: List.replicate 2 (.proceed 0) ++
  .start 1 (.postPacket { byteRequest 1 with packetHandler := some 7, args := some 11 }) ::
    List.replicate 7 (.proceed 1) ++
  .start 2 (.postPacket { byteRequest 2 with args := some 12 }) ::
    List.replicate 7 (.proceed 2) ++
  .start 3 (.handlePacket ⟨1, 1, 1⟩ [1]) :: List.replicate 2 (.proceed 3) ++
  .start 4 (.handlePacket ⟨1, 1, 1⟩ [1]) ::
  .start 5 (.checkTimeout 6000000) :: List.replicate 5 (.proceed 5) ++
  [.start 6 (.handlePacket ⟨2, 1, 1⟩ [1])]

theorem request_completes_once_answeredAndExpired : ∃ session,
    run (step byteConfig) (new (Process.zeroMemory 0)) answeredAndExpired = some session ∧
    Along (step byteConfig) Honest (new (Process.zeroMemory 0)) answeredAndExpired ∧
    session.handlerCalls.map (fun invocation => (invocation.chid, invocation.handler,
      invocation.args)) = [(some 1, 7, some 11), (some 2, 0, some 12)] ∧
    session.CompletesOnce byteConfig := by
  have halong : Along (step byteConfig) Honest (new (Process.zeroMemory 0))
      answeredAndExpired := by decide
  have hrecords : (run (step byteConfig) (new (Process.zeroMemory 0)) answeredAndExpired).map
      (fun session => (session.handlerCalls.map fun invocation =>
        (invocation.chid, invocation.handler, invocation.args), session.allocations)) =
      some ([(some 1, 7, some 11), (some 2, 0, some 12)], 2) := by decide
  obtain ⟨session, hrun, hrecord⟩ := Option.map_eq_some_iff.mp hrecords
  obtain ⟨hhandlerCalls, hallocations⟩ := Prod.mk.inj hrecord
  exact ⟨session, hrun, halong, hhandlerCalls,
    request_completes_once rfl rfl hrun halong (by rw [hallocations]; decide)⟩

end Session

end Wnet
