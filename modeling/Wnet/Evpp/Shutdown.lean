import Mathlib.Data.List.Count
import Wnet.Evpp.Lifetime
import Wnet.Evpp.TCPServer

/-!
# Stopping a server

A server that is stopped calls back once, when the last of its connections has been removed.
It comes to this unless a connection was accepted whose loop had not attached it when
`StopInLoop` came to it: such a connection is not closed.
-/

namespace Wnet.Evpp

open Foundation

/-! ## What a step of a connection reports -/

namespace TCPConn

/-- What a connection reports, and what is in its input buffer then. -/
inductive Reports (conn next : TCPConn) : Prop
  | nothing (hnotices : next.notices = conn.notices)
      (hinput : next.inputBuffer = conn.inputBuffer) (hreceived : next.received = conn.received)
  | message (bytes : Bytes) (hstack : .message ∈ next.stack)
      (hnotices : next.notices = conn.notices ++ [.message])
      (hinput : next.inputBuffer = conn.inputBuffer ++ bytes)
      (hreceived : next.received = conn.received ++ bytes)
  | disconnected (hnotices : next.notices = conn.notices ++ [.disconnected])
      (hinput : next.inputBuffer = conn.inputBuffer) (hreceived : next.received = conn.received)

/-- The connection reports neither its beginning nor its end, and does not become
connected. -/
structure Onward (conn next : TCPConn) : Prop where
  reports : conn.Reports next
  status : next.status = .connected → conn.status = .connected

variable {conn next : TCPConn}

theorem Reports.notices (hreports : conn.Reports next) :
    ∃ more, next.notices = conn.notices ++ more ∧ .closed ∉ more := by
  cases hreports with
  | nothing hnotices => exact ⟨[], by simp [hnotices], by simp⟩
  | message bytes hstack hnotices => exact ⟨[.message], hnotices, by simp⟩
  | disconnected hnotices => exact ⟨[.disconnected], hnotices, by simp⟩

theorem Reports.congr {before : TCPConn} (hreports : before.Reports next)
    (hnotices : before.notices = conn.notices) (hinput : before.inputBuffer = conn.inputBuffer)
    (hreceived : before.received = conn.received) : conn.Reports next := by
  cases hreports with
  | nothing hafter hbuffer hread =>
      exact .nothing (hafter.trans hnotices) (hbuffer.trans hinput) (hread.trans hreceived)
  | message bytes hstack hafter hbuffer hread =>
      exact .message bytes hstack (hnotices ▸ hafter) (hinput ▸ hbuffer) (hreceived ▸ hread)
  | disconnected hafter hbuffer hread =>
      exact .disconnected (hnotices ▸ hafter) (hbuffer.trans hinput) (hread.trans hreceived)

theorem Onward.refl (conn : TCPConn) : conn.Onward conn := ⟨.nothing rfl rfl rfl, id⟩

/-- Nothing is reported or read. -/
theorem Onward.of_eq (hnotices : next.notices = conn.notices)
    (hinput : next.inputBuffer = conn.inputBuffer) (hreceived : next.received = conn.received)
    (hstatus : next.status = .connected → conn.status = .connected) : conn.Onward next :=
  ⟨.nothing hnotices hinput hreceived, hstatus⟩

theorem Onward.congr {before : TCPConn} (honward : before.Onward next)
    (hnotices : before.notices = conn.notices) (hinput : before.inputBuffer = conn.inputBuffer)
    (hreceived : before.received = conn.received) (hstatus : before.status = conn.status) :
    conn.Onward next :=
  ⟨honward.reports.congr hnotices hinput hreceived, hstatus ▸ honward.status⟩

theorem handleClose_onward (hnext : conn.handleClose = some next) : conn.Onward next := by
  rw [handleClose] at hnext
  split at hnext
  next =>
    obtain rfl := Option.some.inj hnext
    exact .refl conn
  next =>
    split at hnext
    next => cases hnext
    next =>
      obtain ⟨chan, -, hrest⟩ := Option.bind_eq_some_iff.mp hnext
      obtain ⟨closed, -, hlast⟩ := Option.bind_eq_some_iff.mp hrest
      obtain rfl := Option.some.inj hlast
      exact ⟨.disconnected rfl rfl rfl, id⟩

theorem handleError_onward (hnext : conn.handleError = some next) : conn.Onward next := by
  have honward := handleClose_onward hnext
  exact ⟨honward.reports.congr rfl rfl rfl,
    fun hstatus => absurd (honward.status hstatus) (by simp)⟩

theorem delayClose_onward (hnext : conn.delayClose = some next) : conn.Onward next := by
  have honward := handleClose_onward hnext
  exact ⟨honward.reports.congr rfl rfl rfl,
    fun hstatus => absurd (honward.status hstatus) (by simp)⟩

theorem keep_onward {held : Bytes} (hnext : conn.keep held = some next) : conn.Onward next := by
  rw [keep] at hnext
  split at hnext
  next =>
    obtain rfl := Option.some.inj hnext
    exact .refl conn
  next =>
    obtain ⟨chan, -, hrest⟩ := Option.bind_eq_some_iff.mp hnext
    obtain rfl := Option.some.inj hrest
    rw [warn]
    split <;> exact .of_eq rfl rfl rfl id

theorem sendAccepted_onward {message : Bytes} {result : SendResult}
    (hnext : conn.sendAccepted message result = some next) : conn.Onward next := by
  unfold sendAccepted at hnext
  split at hnext
  next =>
    cases result with
    | sent count => exact (keep_onward hnext).congr rfl rfl rfl rfl
    | reset => exact handleError_onward hnext
    | retriable | failed => exact keep_onward hnext
  next => exact keep_onward hnext

theorem sendInLoop_onward {queued : Bool} {message : Bytes} {result : SendResult}
    (hnext : conn.sendInLoop queued message result = some next) : conn.Onward next := by
  rw [sendInLoop] at hnext
  split at hnext
  next =>
    obtain rfl := Option.some.inj hnext
    exact .refl conn
  next => exact (sendAccepted_onward hnext).congr rfl rfl rfl rfl

theorem handleWrite_onward {result : SendResult} (hnext : conn.handleWrite result = some next) :
    conn.Onward next := by
  unfold handleWrite at hnext
  split at hnext
  next => cases hnext
  next =>
    cases result with
    | sent count =>
        obtain ⟨chan, -, hrest⟩ := Option.bind_eq_some_iff.mp hnext
        obtain rfl := Option.some.inj hrest
        exact .of_eq rfl rfl rfl id
    | retriable =>
        obtain rfl := Option.some.inj hnext
        exact .refl conn
    | reset | failed => exact handleError_onward hnext

theorem handleRead_onward {result : ReadResult} (hnext : conn.handleRead result = some next) :
    conn.Onward next := by
  cases result with
  | data bytes =>
      obtain rfl := Option.some.inj hnext
      exact ⟨.message bytes List.mem_cons_self rfl rfl rfl, id⟩
  | eof =>
      rw [handleRead] at hnext
      split at hnext
      next =>
        have honward := handleClose_onward hnext
        exact ⟨honward.reports.congr rfl rfl rfl,
          fun hstatus => absurd (honward.status hstatus) (by simp)⟩
      next =>
        obtain ⟨chan, -, hrest⟩ := Option.bind_eq_some_iff.mp hnext
        split at hrest
        next => exact (delayClose_onward hrest).congr rfl rfl rfl rfl
        next =>
          obtain rfl := Option.some.inj hrest
          exact .of_eq rfl rfl rfl id
  | retriable =>
      obtain rfl := Option.some.inj hnext
      exact .refl conn
  | failed => exact handleError_onward hnext

/-- A step that neither attaches the connection nor calls the close callback, and in which the
application takes nothing from the input buffer. -/
theorem act_onward {label : ConnLabel} (hkeeps : ∀ count, label ≠ .next count)
    (hattached : ∀ result, label = .runTask result → .onAttachedToLoop ∉ conn.tasks)
    (hcloses : conn.closes label = false) (hnext : conn.act label = some next) :
    conn.Onward next := by
  cases label with
  | send message =>
      rw [act] at hnext
      split at hnext <;> obtain rfl := Option.some.inj hnext
      · exact .of_eq rfl rfl rfl id
      · exact .refl conn
  | close =>
      obtain rfl := Option.some.inj hnext
      exact .of_eq rfl rfl rfl (by simp)
  | next count => exact absurd rfl (hkeeps count)
  | queueInLoop task =>
      obtain rfl := Option.some.inj hnext
      exact .of_eq rfl rfl rfl id
  | handleEvent read write =>
      have hentered : conn.Onward (conn.enter write) := by
        cases write <;> exact .of_eq rfl rfl rfl id
      cases read with
      | none =>
          obtain rfl := Option.some.inj hnext
          exact hentered
      | some result =>
          refine (handleRead_onward hnext).congr ?_ ?_ ?_ ?_ <;> cases write <;> rfl
  | handleWrite result =>
      rw [act] at hnext
      dsimp only at hnext
      split at hnext
      next => exact (handleWrite_onward hnext).congr rfl rfl rfl rfl
      next =>
        obtain rfl := Option.some.inj hnext
        exact .of_eq rfl rfl rfl id
  | resume =>
      rw [act] at hnext
      cases hstack : conn.stack with
      | nil =>
          rw [hstack] at hnext
          cases hnext
      | cons frame below =>
          rw [hstack] at hnext
          cases frame with
          | writing => cases hnext
          | attached | message =>
              obtain rfl := Option.some.inj hnext
              exact .of_eq rfl rfl rfl id
          | closing => simp [closes, hstack] at hcloses
          | closed =>
              obtain rfl := Option.some.inj hnext
              exact .of_eq rfl rfl rfl (by simp)
  | sendInLoop checked message result =>
      rw [act] at hnext
      split at hnext
      next =>
        obtain rfl := Option.some.inj hnext
        exact .refl conn
      next => exact sendInLoop_onward hnext
  | runTask result =>
      rw [act] at hnext
      split at hnext
      next => cases hnext
      next task tasks htasks =>
        cases task with
        | onAttachedToLoop => exact absurd (by simp [htasks]) (hattached result rfl)
        | sendStringInLoop message => exact (sendInLoop_onward hnext).congr rfl rfl rfl rfl
        | handleClose => exact (handleClose_onward hnext).congr rfl rfl rfl rfl
        | highWaterMark size | cancelTimer =>
            obtain rfl := Option.some.inj hnext
            exact .of_eq rfl rfl rfl id
  | timer => exact (delayClose_onward hnext).congr rfl rfl rfl rfl

theorem Sound.attached (hsound : conn.Sound) (hnotices : conn.notices ≠ []) :
    .onAttachedToLoop ∉ conn.tasks := by
  cases hsound.part with
  | fresh hfresh => exact absurd hfresh.notices hnotices
  | live hlive => exact hlive.tasks
  | closing hclosing => exact hclosing.tasks
  | gone hgone => exact hgone.tasks

theorem Sound.told (hsound : conn.Sound) (hstatus : conn.status ≠ .disconnected) :
    conn.notices ≠ [] := by
  cases hsound.part with
  | fresh hfresh => exact absurd hfresh.status hstatus
  | live hlive =>
      obtain ⟨count, hnotices⟩ := hlive.notices
      simp [hnotices]
  | closing hclosing =>
      obtain ⟨frame, below, count, -, -, ⟨-, hnotices⟩ | ⟨-, hnotices⟩⟩ := hclosing.stack <;>
        simp [hnotices]
  | gone hgone => exact absurd hgone.status hstatus

theorem close_sound (hsound : conn.Sound) (hstatus : conn.status ≠ .disconnected) :
    { conn with
      status := ConnStatus.disconnecting
      calling := ConnTask.handleClose :: conn.calling }.Sound := by
  have hpossible : conn.Possible .close := trivial
  obtain ⟨next, hnext, hafter⟩ := act_sound hsound hpossible hstatus
  obtain rfl := Option.some.inj hnext
  exact hafter

/-- The close callback is called once. -/
theorem act_told {label : ConnLabel} (hsound : conn.Sound) (hnext : conn.act label = some next) :
    (.closed ∈ next.notices ↔ .closed ∈ conn.notices ∨ conn.closes label = true) ∧
    (conn.closes label = true → .closed ∉ conn.notices) ∧
    (conn.notices ≠ [] → next.notices ≠ [] ∧
      (next.status = .connected → conn.status = .connected)) := by
  by_cases hcloses : conn.closes label = true
  · obtain ⟨rfl, hhead⟩ : label = .resume ∧ conn.stack.head? = some .closing := by
      simpa [closes] using hcloses
    obtain ⟨below, hstack⟩ := List.head?_eq_some_iff.mp hhead
    rw [act, hstack] at hnext
    obtain rfl := Option.some.inj hnext
    have hnot : .closed ∉ conn.notices := by
      cases hsound.part with
      | fresh hfresh => simp [hfresh.notices]
      | live hlive =>
          have hopen := hlive.stack .closing (by simp [hstack])
          cases hopen
      | closing hclosing =>
          obtain ⟨frame, rest, count, hframes, -, hframe⟩ := hclosing.stack
          rw [hstack] at hframes
          obtain ⟨rfl, -⟩ := List.cons.inj hframes
          rcases hframe with ⟨-, hnotices⟩ | ⟨hclosed, -⟩
          · simp [hnotices]
          · cases hclosed
      | gone hgone =>
          have hopen := hgone.stack .closing (by simp [hstack])
          cases hopen
    exact ⟨by simp [callback, hcloses], fun _ => hnot, fun _ => ⟨by simp [callback], id⟩⟩
  · have hother : conn.closes label = false := by simpa using hcloses
    have honward : (∀ count, label ≠ .next count) →
        (∀ result, label = .runTask result → .onAttachedToLoop ∉ conn.tasks) →
        conn.Onward next := fun hkeeps hattached => act_onward hkeeps hattached hother hnext
    have hreports : ∃ more, next.notices = conn.notices ++ more ∧ .closed ∉ more := by
      cases label with
      | next count =>
          obtain rfl := Option.some.inj hnext
          exact ⟨[], by simp, by simp⟩
      | runTask result =>
          by_cases hin : .onAttachedToLoop ∈ conn.tasks
          · cases hsound.part with
            | fresh hfresh =>
                rw [act, hfresh.tasks] at hnext
                obtain ⟨chan, -, hrest⟩ := Option.bind_eq_some_iff.mp hnext
                obtain rfl := Option.some.inj hrest
                exact ⟨[.connected], rfl, by simp⟩
            | live hlive => exact absurd hin hlive.tasks
            | closing hclosing => exact absurd hin hclosing.tasks
            | gone hgone => exact absurd hin hgone.tasks
          · exact (honward (by simp) fun _ _ => hin).reports.notices
      | _ => exact (honward (by simp) (by simp)).reports.notices
    have hstatus : conn.notices ≠ [] → next.status = .connected → conn.status = .connected := by
      intro hnotices
      cases label with
      | next count =>
          obtain rfl := Option.some.inj hnext
          exact id
      | _ => exact (honward (by simp) fun _ _ => hsound.attached hnotices).status
    obtain ⟨more, hmore, hclosed⟩ := hreports
    refine ⟨?_, fun h => absurd h hcloses, fun hnotices => ⟨?_, hstatus hnotices⟩⟩
    · simp [hother, hmore, hclosed]
    · simp [hmore, hnotices]

end TCPConn

/-! ## What holds of a server -/

namespace TCPServer

variable {server next : TCPServer}

/-- A connection is registered until its functor is called, which is queued when it calls the
close callback. -/
structure Tracked (conn : TCPConn) (registered : Prop) (functors : Nat) : Prop where
  sound : conn.Sound
  kept : .closed ∉ conn.notices → registered
  queued : .closed ∈ conn.notices → registered → functors = 1
  dequeued : .closed ∉ conn.notices ∨ ¬ registered → functors = 0

structure Registry (server : TCPServer) : Prop where
  tracked : ∀ id, 0 < id → id ≤ server.nextConnId → Tracked (server.conns id)
    (id ∈ server.connections) (server.tasks.count (.erase id))
  accepted : ∀ id, id ∈ server.connections ∨ .erase id ∈ server.tasks →
    0 < id ∧ id ≤ server.nextConnId
  nodup : server.connections.Nodup

/-- `StopInLoop` has seen to it that the connection ends, or it was not attached yet. -/
def Settled (server : TCPServer) (id : Nat) : Prop :=
  (server.conns id).notices ≠ [] ∧ (server.conns id).status ≠ .connected ∨ id ∈ server.early

/-- The server runs, or `StopInLoop` was not called yet. -/
structure Serving (server : TCPServer) : Prop where
  stop : (server.stopCall.begun = false ∧ server.status = .running ∨
      server.stopCall = .stopping ∧ server.status = .stopping) ∧
      server.substatus = .null ∧ server.tasks.count .stopInLoop = 0 ∨
    server.status = .stopping ∧ server.substatus = .stoppingListener ∧
      (server.stopCall = .stored ∧ server.tasks.count .stopInLoop = 0 ∨
        server.stopCall = .queued ∧ server.tasks.count .stopInLoop = 1)
  members : server.listener = true ∧ server.threadPool = true ∧ server.stoppedCb = false
  loop : server.loop = .idle ∨
    ∃ closeDelay, server.loop = .accepting closeDelay ∧ server.status = .running
  stoppedCalls : server.stoppedCalls = 0

/-- `StopInLoop` was called and some connections were left. -/
structure Draining (server : TCPServer) : Prop where
  status : server.status = .stopping ∧ server.substatus = .stoppingListener
  members : server.listener = false ∧ server.threadPool = true
  stopCall : server.stopCall = .queued ∧ server.tasks.count .stopInLoop = 0
  stoppedCalls : server.stoppedCalls = 0
  loop : (∃ rest, (server.loop = .closing rest ∨
      ∃ id others, server.loop = .found id others ∧ rest = id :: others) ∧
      server.connections ≠ [] ∧ rest ⊆ server.connections ∧
      ∀ id ∈ server.connections, id ∉ rest → server.Settled id) ∨
    server.loop = .idle ∧ server.stoppedCb = true ∧ server.connections ≠ [] ∧
      (∀ id ∈ server.connections, server.Settled id) ∨
    server.loop = .removedLast ∧ server.stoppedCb = true ∧ server.connections = []

/-- The callback was called. -/
structure Stopped (server : TCPServer) : Prop where
  status : server.loop = .finishing ∧ server.status = .stopping ∨
    server.loop = .idle ∧ server.status = .stopped ∧ server.stoppedCb = false
  members : server.listener = false ∧ server.threadPool = false
  stopCall : server.stopCall = .queued ∧ server.tasks.count .stopInLoop = 0
  connections : server.connections = []
  stoppedCalls : server.stoppedCalls = 1

inductive Phase (server : TCPServer) : Prop
  | serving (hserving : server.Serving)
  | draining (hdraining : server.Draining)
  | stopped (hstopped : server.Stopped)

structure Sound (server : TCPServer) : Prop where
  registry : server.Registry
  phase : server.Phase

/-- The steps that do not come between two others that belong together: `Stop` does not set the
status between the two looks that `HandleNewConn` takes at it, the last connection is not removed
after `Stop` has set the status and before `StopInLoop` is called, and no connection ends after
`StopInLoop` has found it connected and before it closes it. -/
def Proper (server : TCPServer) : ServerLabel → Prop
  | .conn id label => (server.conns id).Proper label
  | .proceedStop => server.stopCall = .asserted → ∀ closeDelay, server.loop ≠ .accepting closeDelay
  | .runTask => ∀ id, server.tasks.head? = some (.erase id) → server.status = .stopping →
      server.listener = true → server.connections.erase id ≠ []
  | .proceed => ∀ id rest, server.loop = .found id rest → (server.conns id).status ≠ .disconnected
  | _ => True

theorem new_sound : new.Sound where
  registry := by
    refine ⟨fun id hpos hle => ?_, fun id hid => ?_, List.nodup_nil⟩
    · have hzero : id ≤ 0 := hle
      omega
    · rcases hid with hid | hid <;> cases hid
  phase := .serving ⟨Or.inl ⟨Or.inl ⟨rfl, rfl⟩, rfl, rfl⟩, ⟨rfl, rfl, rfl⟩, Or.inl rfl, rfl⟩

/-! ## One step of a server -/

/-- The registry does not depend on the rest of the server. -/
theorem Registry.congr (hregistry : server.Registry) (hconns : next.conns = server.conns)
    (hconnections : next.connections = server.connections)
    (hnextConnId : next.nextConnId = server.nextConnId)
    (htasks : ∀ id, next.tasks.count (.erase id) = server.tasks.count (.erase id)) :
    next.Registry where
  tracked := by
    intro id hpos hle
    rw [hconns, hconnections, htasks]
    exact hregistry.tracked id hpos (hnextConnId ▸ hle)
  accepted := by
    intro id hid
    rw [hnextConnId]
    refine hregistry.accepted id (hid.imp (fun hmem => hconnections ▸ hmem) fun herase => ?_)
    rwa [← List.count_pos_iff, ← htasks, List.count_pos_iff]
  nodup := hconnections ▸ hregistry.nodup

/-- A connection is accepted under the next identifier. -/
theorem accept_registry {conn : TCPConn} (hregistry : server.Registry) (hsound : conn.Sound)
    (hnotices : conn.notices = []) : Registry { server with
      nextConnId := server.nextConnId + 1
      connections := server.connections ++ [server.nextConnId + 1]
      conns := Function.update server.conns (server.nextConnId + 1) conn } where
  tracked := by
    intro id hpos hle
    dsimp only at hle ⊢
    by_cases hsame : id = server.nextConnId + 1
    · subst hsame
      have hnone : .erase (server.nextConnId + 1) ∉ server.tasks := fun hmem => by
        have := (hregistry.accepted _ (Or.inr hmem)).2
        omega
      rw [Function.update_self, List.count_eq_zero_of_not_mem hnone]
      exact ⟨hsound, fun _ => by simp, by simp [hnotices], fun _ => rfl⟩
    · have hregistered : id ∈ server.connections ++ [server.nextConnId + 1] ↔
          id ∈ server.connections := by simp [hsame]
      rw [Function.update_of_ne hsame, hregistered]
      exact hregistry.tracked id hpos (by omega)
  accepted := by
    intro id hid
    change 0 < id ∧ id ≤ server.nextConnId + 1
    rcases hid with hmem | herase
    · rcases List.mem_append.mp hmem with hold | hself
      · have := hregistry.accepted id (Or.inl hold)
        omega
      · rw [List.mem_singleton.mp hself]
        omega
    · have := hregistry.accepted id (Or.inr herase)
      omega
  nodup := by
    refine List.nodup_append.mpr ⟨hregistry.nodup, List.pairwise_singleton _ _, ?_⟩
    intro id hid other hother hsame
    rw [hsame, List.mem_singleton.mp hother] at hid
    have := (hregistry.accepted _ (Or.inl hid)).2
    omega

/-- The functor of `RemoveConnection` is queued when the connection calls back. -/
theorem conn_registry {id : Nat} {label : ConnLabel} {conn : TCPConn} (hregistry : server.Registry)
    (hpos : 0 < id) (hle : id ≤ server.nextConnId) (hconn : conn.Sound)
    (hact : (server.conns id).act label = some conn) : Registry { server with
      conns := Function.update server.conns id conn
      tasks := server.tasks ++
        if (server.conns id).closes label then [ServerTask.erase id] else [] } where
  tracked := by
    obtain ⟨hbefore, hkept, hqueued, hdequeued⟩ := hregistry.tracked id hpos hle
    obtain ⟨htold, honce, -⟩ := TCPConn.act_told hbefore hact
    intro other hotherPos hotherLe
    dsimp only
    by_cases hsame : other = id
    · subst hsame
      rw [Function.update_self, List.count_append]
      cases hcloses : (server.conns other).closes label with
      | true =>
          have hopen := honce hcloses
          have hclosed : .closed ∈ conn.notices := htold.mpr (Or.inr hcloses)
          have hmem := hkept hopen
          refine ⟨hconn, fun _ => hmem, fun _ _ => ?_, fun hnot => ?_⟩
          · rw [hdequeued (Or.inl hopen)]
            simp
          · exact absurd hnot (by simp [hclosed, hmem])
      | false =>
          have hsameNotice : .closed ∈ conn.notices ↔ .closed ∈ (server.conns other).notices := by
            simp [htold, hcloses]
          exact ⟨hconn, fun hnot => hkept (mt hsameNotice.mpr hnot),
            fun hclosed => hqueued (hsameNotice.mp hclosed),
            fun hnot => hdequeued (hnot.imp_left (mt hsameNotice.mpr))⟩
    · have hcount : (if (server.conns id).closes label then [ServerTask.erase id] else []).count
          (.erase other) = 0 := by
        split <;> simp [Ne.symm hsame]
      rw [Function.update_of_ne hsame, List.count_append, hcount]
      exact hregistry.tracked other hotherPos hotherLe
  accepted := by
    intro other hother
    rcases hother with hmem | herase
    · exact hregistry.accepted other (Or.inl hmem)
    · rcases List.mem_append.mp herase with hold | hnew
      · exact hregistry.accepted other (Or.inr hold)
      · split at hnew
        next =>
          obtain rfl := ServerTask.erase.inj (List.mem_singleton.mp hnew)
          exact ⟨hpos, hle⟩
        next => cases hnew
  nodup := hregistry.nodup

/-- The functor of `RemoveConnection` is called. -/
theorem erase_registry {id : Nat} {tasks : List ServerTask} (hregistry : server.Registry)
    (htasks : server.tasks = .erase id :: tasks) :
    Registry { server with connections := server.connections.erase id, tasks } where
  tracked := by
    obtain ⟨hpos, hle⟩ := hregistry.accepted id (Or.inr (by simp [htasks]))
    intro other hotherPos hotherLe
    dsimp only
    have htracked := hregistry.tracked other hotherPos hotherLe
    rw [htasks] at htracked
    by_cases hsame : other = id
    · subst hsame
      rw [List.count_cons_self] at htracked
      obtain ⟨hconn, hkept, hqueued, hdequeued⟩ := htracked
      -- The functor was in the queue, and so the connection has called back.
      have hclosed : .closed ∈ (server.conns other).notices := by
        by_contra hopen
        exact absurd (hdequeued (Or.inl hopen)) (by omega)
      have hmem : other ∈ server.connections := by
        by_contra hgone
        exact absurd (hdequeued (Or.inr hgone)) (by omega)
      have honce := hqueued hclosed hmem
      have hremoved : other ∉ server.connections.erase other := hregistry.nodup.not_mem_erase
      exact ⟨hconn, fun hopen => absurd hclosed hopen, fun _ hmem' => absurd hmem' hremoved,
        fun _ => by omega⟩
    · rw [List.count_cons_of_ne (by simp [Ne.symm hsame])] at htracked
      rwa [List.mem_erase_of_ne hsame]
  accepted := by
    intro other hother
    refine hregistry.accepted other (hother.imp List.mem_of_mem_erase fun herase => ?_)
    rw [htasks]
    exact List.mem_cons_of_mem _ herase
  nodup := hregistry.nodup.erase id

theorem accept_sound {closeDelay : Int} (hsound : server.Sound)
    (hpossible : server.Possible (.accept closeDelay)) :
    ∃ next ∈ server.act (.accept closeDelay), next.Sound := by
  obtain ⟨hlistener, -⟩ := hpossible
  refine ⟨_, rfl, ?_⟩
  rw [handleNewConn]
  split
  next => exact hsound
  next hstatus =>
    refine ⟨hsound.registry.congr rfl rfl rfl fun _ => rfl, ?_⟩
    cases hsound.phase with
    | draining hdraining => exact absurd hdraining.status.1 hstatus
    | stopped hstopped =>
        rw [hstopped.members.1] at hlistener
        cases hlistener
    | serving hserving =>
        have hearly := hserving.stop.resolve_right fun h => hstatus h.1
        have hrunning := hearly.1.resolve_right fun h => hstatus h.2
        exact .serving { hserving with loop := Or.inr ⟨closeDelay, rfl, hrunning.2⟩ }

/-- A connection that is settled stays settled. -/
theorem Settled.conn {id other : Nat} {label : ConnLabel} {conn : TCPConn}
    (hsettled : server.Settled other) (hbefore : other = id → (server.conns id).Sound)
    (hact : (server.conns id).act label = some conn)
    (hconns : next.conns = Function.update server.conns id conn)
    (hearly : next.early = server.early) : next.Settled other := by
  refine hsettled.imp (fun ⟨hnotices, hstatus⟩ => ?_) fun hmem => hearly ▸ hmem
  rw [hconns]
  by_cases hsame : other = id
  · obtain ⟨hkept, hconnected⟩ := (TCPConn.act_told (hbefore hsame) hact).2.2 (hsame ▸ hnotices)
    rw [hsame, Function.update_self]
    exact ⟨hkept, fun hnow => hstatus (hsame ▸ hconnected hnow)⟩
  · rw [Function.update_of_ne hsame]
    exact ⟨hnotices, hstatus⟩

theorem conn_sound {id : Nat} {label : ConnLabel} (hsound : server.Sound)
    (hpossible : server.Possible (.conn id label)) (hproper : server.Proper (.conn id label)) :
    ∃ next ∈ server.act (.conn id label), next.Sound := by
  obtain ⟨hpos, hle, hconn⟩ := hpossible
  have hbefore := (hsound.registry.tracked id hpos hle).sound
  obtain ⟨conn, hact, hafter⟩ := TCPConn.act_sound hbefore hconn hproper
  have hcount : (server.tasks ++ if (server.conns id).closes label then [ServerTask.erase id]
      else []).count .stopInLoop = server.tasks.count .stopInLoop := by
    split <;> simp
  rw [act, hact, Option.map_some]
  refine ⟨_, rfl, conn_registry hsound.registry hpos hle hafter hact, ?_⟩
  cases hsound.phase with
  | serving hserving =>
      refine .serving { hserving with stop := ?_ }
      dsimp only
      rw [hcount]
      exact hserving.stop
  | draining hdraining =>
      have hsettled : ∀ {other : Nat}, server.Settled other → Settled { server with
          conns := Function.update server.conns id conn
          tasks := server.tasks ++
            if (server.conns id).closes label then [ServerTask.erase id] else [] } other :=
        fun hother => hother.conn (fun _ => hbefore) hact rfl rfl
      refine .draining { hdraining with stopCall := ?_, loop := ?_ }
      · dsimp only
        rw [hcount]
        exact hdraining.stopCall
      · rcases hdraining.loop with ⟨rest, hloop, hmore, hrest, hall⟩ | ⟨hloop, hcb, hmore, hall⟩ |
          hlast
        · exact Or.inl ⟨rest, hloop, hmore, hrest,
            fun other hmem hnot => hsettled (hall other hmem hnot)⟩
        · exact Or.inr (Or.inl ⟨hloop, hcb, hmore, fun other hmem => hsettled (hall other hmem)⟩)
        · exact Or.inr (Or.inr hlast)
  | stopped hstopped =>
      refine .stopped { hstopped with stopCall := ?_ }
      dsimp only
      rw [hcount]
      exact hstopped.stopCall

theorem stop_sound (hsound : server.Sound) (hpossible : server.Possible .stop) :
    ∃ next ∈ server.act .stop, next.Sound := by
  obtain ⟨hidle, -⟩ := hpossible
  refine ⟨_, rfl, hsound.registry.congr rfl rfl rfl fun _ => rfl, ?_⟩
  cases hsound.phase with
  | serving hserving =>
      have hstop := hserving.stop
      simp only [hidle, reduceCtorEq, false_and, and_false, or_false] at hstop
      exact .serving { hserving with stop := Or.inl ⟨Or.inl ⟨rfl, hstop.1.2⟩, hstop.2⟩ }
  | draining hdraining => simp [hdraining.stopCall.1] at hidle
  | stopped hstopped => simp [hstopped.stopCall.1] at hidle

theorem proceedStop_sound (hsound : server.Sound) (hpossible : server.Possible .proceedStop)
    (hproper : server.Proper .proceedStop) : ∃ next ∈ server.act .proceedStop, next.Sound := by
  obtain ⟨hbegun, hqueued⟩ := hpossible
  cases hsound.phase with
  | draining hdraining => exact absurd hdraining.stopCall.1 hqueued
  | stopped hstopped => exact absurd hstopped.stopCall.1 hqueued
  | serving hserving =>
      have hstop := hserving.stop
      rw [act]
      cases hstage : server.stopCall with
      | idle => exact absurd hstage hbegun
      | queued => exact absurd hstage hqueued
      | asserted =>
          simp only [hstage, StopStage.begun, reduceCtorEq, true_and, false_and, and_false,
            or_false] at hstop
          refine ⟨_, rfl, hsound.registry.congr rfl rfl rfl fun _ => rfl, .serving { hserving with
            stop := Or.inl ⟨Or.inr ⟨rfl, rfl⟩, hstop.2⟩
            loop := Or.inl (hserving.loop.resolve_right ?_) }⟩
          rintro ⟨closeDelay, hloop, -⟩
          exact hproper hstage closeDelay hloop
      | stopping =>
          simp only [hstage, StopStage.begun, reduceCtorEq, true_and, false_and, and_false,
            or_false, false_or] at hstop
          refine ⟨_, rfl, hsound.registry.congr rfl rfl rfl fun _ => rfl, .serving { hserving with
            stop := Or.inr ⟨hstop.1, rfl, Or.inl ⟨rfl, hstop.2.2⟩⟩
            loop := ?_ }⟩
          exact hserving.loop
      | stored =>
          simp only [hstage, StopStage.begun, reduceCtorEq, true_and, false_and, or_false,
            false_or] at hstop
          exact ⟨_, rfl, hsound.registry.congr rfl rfl rfl fun id => by simp,
            .serving { hserving with
              stop := Or.inr ⟨hstop.1, hstop.2.1, Or.inr ⟨rfl, by simp [hstop.2.2]⟩⟩ }⟩

/-- How far `Stop` has come in a server that still listens. -/
theorem Serving.stopping (hserving : server.Serving) (hstatus : server.status = .stopping) :
    server.stopCall.begun = true ∧
      server.substatus = if server.stopCall = .stopping then .null else .stoppingListener := by
  rcases hserving.stop with ⟨⟨-, hrunning⟩ | ⟨hstage, -⟩, hnull, -⟩ | ⟨-, hset, hstage⟩
  · simp [hrunning] at hstatus
  · simp [hstage, hnull, StopStage.begun]
  · rcases hstage with ⟨hstage, -⟩ | ⟨hstage, -⟩ <;> simp [hstage, hset, StopStage.begun]

theorem Sound.serves (hsound : server.Sound) (hlistener : server.listener = true) :
    server.Serving := by
  cases hsound.phase with
  | serving hserving => exact hserving
  | draining hdraining => simp [hdraining.members.1] at hlistener
  | stopped hstopped => simp [hstopped.members.1] at hlistener

/-- A server in `HandleNewConn` runs. -/
theorem Sound.serving (hsound : server.Sound) {closeDelay : Int}
    (hloop : server.loop = .accepting closeDelay) :
    server.Serving ∧ server.status = .running := by
  cases hsound.phase with
  | serving hserving =>
      obtain ⟨-, -, hstatus⟩ := hserving.loop.resolve_left (by simp [hloop])
      exact ⟨hserving, hstatus⟩
  | draining hdraining =>
      have hframe := hdraining.loop
      simp [hloop] at hframe
  | stopped hstopped =>
      have hframe := hstopped.status
      simp [hloop] at hframe

/-- A server in the loop of `StopInLoop` drains, and one whose last connection was removed. -/
theorem Sound.draining (hsound : server.Sound)
    (hloop : (∃ rest, server.loop = .closing rest) ∨
      (∃ id rest, server.loop = .found id rest) ∨ server.loop = .removedLast) :
    server.Draining := by
  cases hsound.phase with
  | draining hdraining => exact hdraining
  | serving hserving =>
      exfalso
      rcases hserving.loop with hframe | ⟨closeDelay, hframe, -⟩ <;> simp [hframe] at hloop
  | stopped hstopped =>
      exfalso
      rcases hstopped.status with ⟨hframe, -⟩ | ⟨hframe, -⟩ <;> simp [hframe] at hloop

/-- A connection is registered by the rest of `HandleNewConn`. -/
theorem addConnection_sound {closeDelay : Int} (hsound : server.Sound)
    (hloop : server.loop = .accepting closeDelay) :
    ∃ next ∈ server.addConnection closeDelay, next.Sound := by
  obtain ⟨hserving, hstatus⟩ := hsound.serving hloop
  have hregistry := accept_registry hsound.registry
    (TCPConn.new_sound .incoming closeDelay (128 * 1024 * 1024) false) rfl
  rw [addConnection, if_pos hstatus]
  exact ⟨_, rfl, hregistry.congr rfl rfl rfl fun _ => rfl,
    .serving { hserving with loop := Or.inl rfl }⟩

/-- What the loop of `StopInLoop` knows. -/
theorem Draining.rest (hdraining : server.Draining) {rest : List Nat}
    (hloop : server.loop = .closing rest ∨
      ∃ id others, server.loop = .found id others ∧ rest = id :: others) :
    server.connections ≠ [] ∧ rest ⊆ server.connections ∧
      ∀ id ∈ server.connections, id ∉ rest → server.Settled id := by
  rcases hdraining.loop with ⟨known, hknown, hall⟩ | ⟨hidle, -⟩ | ⟨hlast, -⟩
  · have hsame : known = rest := by
      rcases hloop with hloop | ⟨id, others, hloop, rfl⟩ <;>
        rcases hknown with hframe | ⟨id', others', hframe, rfl⟩ <;> simp_all
    exact hsame ▸ hall
  · simp [hidle] at hloop
  · simp [hlast] at hloop

theorem closing_sound {rest : List Nat} (hsound : server.Sound)
    (hloop : server.loop = .closing rest) :
    ∃ next ∈ server.proceed (.closing rest), next.Sound := by
  have hdraining := hsound.draining (Or.inl ⟨rest, hloop⟩)
  obtain ⟨hmore, hrest, hsettled⟩ := hdraining.rest (Or.inl hloop)
  cases rest with
  | nil =>
      exact ⟨_, rfl, hsound.registry.congr rfl rfl rfl fun _ => rfl, .draining { hdraining with
        loop := Or.inr (Or.inl ⟨rfl, rfl, hmore, fun id hid => hsettled id hid (by simp)⟩) }⟩
  | cons id rest =>
      rw [proceed]
      split
      next hconnected =>
        exact ⟨_, rfl, hsound.registry.congr rfl rfl rfl fun _ => rfl, .draining { hdraining with
          loop := Or.inl ⟨_, Or.inr ⟨id, rest, rfl, rfl⟩, hmore, hrest, hsettled⟩ }⟩
      next hnotConnected =>
        refine ⟨_, rfl, hsound.registry.congr rfl rfl rfl fun _ => rfl, .draining { hdraining with
          loop := Or.inl ⟨rest, Or.inl rfl, hmore, fun other h => hrest (by simp [h]), ?_⟩ }⟩
        intro other hother hnot
        by_cases hsame : other = id
        · subst hsame
          by_cases hfresh : (server.conns other).notices = []
          · exact Or.inr (by simp [hfresh])
          · exact Or.inl ⟨hfresh, hnotConnected⟩
        · refine (hsettled other hother (by simp [hsame, hnot])).imp_right fun hearly => ?_
          dsimp only
          split
          · exact List.mem_append_left _ hearly
          · exact hearly

/-- A connection that was found connected is closed. -/
theorem found_sound {id : Nat} {rest : List Nat} (hsound : server.Sound)
    (hloop : server.loop = .found id rest) (hstatus : (server.conns id).status ≠ .disconnected) :
    ∃ next ∈ server.proceed (.found id rest), next.Sound := by
  have hdraining := hsound.draining (Or.inr (Or.inl ⟨id, rest, hloop⟩))
  obtain ⟨hmore, hrest, hsettled⟩ := hdraining.rest (Or.inr ⟨id, rest, hloop, rfl⟩)
  obtain ⟨hpos, hle⟩ := hsound.registry.accepted id (Or.inl (hrest List.mem_cons_self))
  have hconn := (hsound.registry.tracked id hpos hle).sound
  have hact : (server.conns id).act .close = some { server.conns id with
      status := .disconnecting
      calling := .handleClose :: (server.conns id).calling } := rfl
  have hregistry := conn_registry hsound.registry hpos hle
    (TCPConn.close_sound hconn hstatus) hact
  refine ⟨_, rfl, hregistry.congr rfl rfl rfl fun other => ?_, .draining { hdraining with
    loop := Or.inl ⟨rest, Or.inl rfl, hmore, fun other h => hrest (by simp [h]), ?_⟩ }⟩
  · simp [TCPConn.closes]
  · intro other hother hnot
    by_cases hsame : other = id
    · subst hsame
      refine Or.inl ?_
      dsimp only
      rw [Function.update_self]
      exact ⟨hconn.told hstatus, by simp⟩
    · exact (hsettled other hother (by simp [hsame, hnot])).conn
        (fun h => absurd h hsame) hact rfl rfl

theorem removeLast_sound (hsound : server.Sound) (hloop : server.loop = .removedLast) :
    ∃ next ∈ server.removeLast, next.Sound := by
  have hdraining := hsound.draining (Or.inr (Or.inr hloop))
  have hframe := hdraining.loop
  simp only [hloop, reduceCtorEq, false_and, exists_false, or_false, true_and, false_or]
    at hframe
  obtain ⟨hcb, hempty⟩ := hframe
  obtain ⟨hstatus, hsubstatus⟩ := hdraining.status
  obtain ⟨hlistener, hpool⟩ := hdraining.members
  rw [removeLast, if_pos hsubstatus, stopThreadPool, if_pos ⟨hstatus, hpool⟩]
  refine ⟨_, rfl, hsound.registry.congr rfl rfl rfl fun _ => rfl, .stopped
    ⟨Or.inl ⟨rfl, hstatus⟩, ⟨hlistener, rfl⟩, hdraining.stopCall, hempty, ?_⟩⟩
  simp [hdraining.stoppedCalls, hcb]

theorem finishing_sound (hsound : server.Sound) (hloop : server.loop = .finishing) :
    ∃ next ∈ server.proceed .finishing, next.Sound := by
  cases hsound.phase with
  | serving hserving =>
      have hframe := hserving.loop
      simp [hloop] at hframe
  | draining hdraining =>
      have hframe := hdraining.loop
      simp [hloop] at hframe
  | stopped hstopped =>
      exact ⟨_, rfl, hsound.registry.congr rfl rfl rfl fun _ => rfl,
        .stopped { hstopped with status := Or.inr ⟨rfl, rfl, rfl⟩ }⟩

theorem proceed_sound (hsound : server.Sound) (hpossible : server.Possible .proceed)
    (hproper : server.Proper .proceed) : ∃ next ∈ server.act .proceed, next.Sound := by
  rw [act]
  cases hloop : server.loop with
  | idle => exact absurd hloop hpossible
  | accepting closeDelay => exact addConnection_sound hsound hloop
  | closing rest => exact closing_sound hsound hloop
  | found id rest => exact found_sound hsound hloop (hproper id rest hloop)
  | removedLast => exact removeLast_sound hsound hloop
  | finishing => exact finishing_sound hsound hloop

theorem stopInLoop_sound {tasks : List ServerTask} (hsound : server.Sound)
    (htasks : server.tasks = .stopInLoop :: tasks) :
    ∃ next ∈ stopInLoop { server with tasks }, next.Sound := by
  have hpositive : 0 < server.tasks.count .stopInLoop := by simp [htasks]
  have hregistry : Registry { server with tasks } :=
    hsound.registry.congr rfl rfl rfl fun id => by simp [htasks]
  cases hsound.phase with
  | draining hdraining =>
      have := hdraining.stopCall.2
      omega
  | stopped hstopped =>
      have := hstopped.stopCall.2
      omega
  | serving hserving =>
      obtain ⟨hlistener, hpool, hcb⟩ := hserving.members
      obtain ⟨hstatus, hsubstatus, hqueued, honce⟩ : server.status = .stopping ∧
          server.substatus = .stoppingListener ∧ server.stopCall = .queued ∧
          server.tasks.count .stopInLoop = 1 := by
        rcases hserving.stop with ⟨-, -, hnone⟩ |
          ⟨hstatus, hsubstatus, ⟨-, hnone⟩ | ⟨hqueued, honce⟩⟩
        · omega
        · omega
        · exact ⟨hstatus, hsubstatus, hqueued, honce⟩
      have hnone : tasks.count .stopInLoop = 0 := by simpa [htasks] using honce
      rw [stopInLoop, if_pos hlistener]
      dsimp only
      split
      next hempty =>
        rw [stopThreadPool, if_pos ⟨hstatus, hpool⟩]
        refine ⟨_, rfl, hregistry.congr rfl rfl rfl fun _ => rfl, .stopped
          ⟨Or.inl ⟨rfl, hstatus⟩, ⟨rfl, rfl⟩, ⟨hqueued, hnone⟩, hempty, ?_⟩⟩
        exact congrArg (· + 1) hserving.stoppedCalls
      next hnonempty =>
        exact ⟨_, rfl, hregistry.congr rfl rfl rfl fun _ => rfl, .draining ⟨⟨hstatus, hsubstatus⟩,
          ⟨rfl, hpool⟩, ⟨hqueued, hnone⟩, hserving.stoppedCalls,
          Or.inl ⟨_, Or.inl rfl, hnonempty, List.Subset.refl _,
            fun id hid hnot => absurd hid hnot⟩⟩⟩

theorem erase_sound {id : Nat} {tasks : List ServerTask} (hsound : server.Sound)
    (htasks : server.tasks = .erase id :: tasks) (hidle : server.loop = .idle)
    (hproper : server.status = .stopping → server.listener = true →
      server.connections.erase id ≠ []) :
    (erase { server with tasks } id).Sound := by
  have hregistry := erase_registry hsound.registry htasks
  have hcount : tasks.count .stopInLoop = server.tasks.count .stopInLoop := by simp [htasks]
  rw [erase]
  dsimp only
  cases hsound.phase with
  | serving hserving =>
      have hstays : ¬ (server.status = .stopping ∧ server.connections.erase id = []) :=
        fun ⟨hstatus, hempty⟩ => hproper hstatus hserving.members.1 hempty
      rw [if_neg hstays]
      refine ⟨hregistry, .serving { hserving with stop := ?_ }⟩
      dsimp only
      rw [hcount]
      exact hserving.stop
  | draining hdraining =>
      have hstop : server.stopCall = .queued ∧ tasks.count .stopInLoop = 0 :=
        hcount ▸ hdraining.stopCall
      have hframe := hdraining.loop
      simp only [hidle, reduceCtorEq, false_and, exists_false, or_false, true_and, false_or]
        at hframe
      obtain ⟨hcb, hmore, hsettled⟩ := hframe
      split
      next hlast =>
        exact ⟨hregistry.congr rfl rfl rfl fun _ => rfl, .draining { hdraining with
          stopCall := hstop
          loop := Or.inr (Or.inr ⟨rfl, hcb, hlast.2⟩) }⟩
      next hleft =>
        exact ⟨hregistry, .draining { hdraining with
          stopCall := hstop
          loop := Or.inr (Or.inl ⟨hidle, hcb, fun hempty => hleft ⟨hdraining.status.1, hempty⟩,
            fun other hother => hsettled other (List.mem_of_mem_erase hother)⟩) }⟩
  | stopped hstopped =>
      -- No connection is left, and so no functor of one.
      obtain ⟨hpos, hle⟩ := hsound.registry.accepted id (Or.inr (by simp [htasks]))
      have hnone := (hsound.registry.tracked id hpos hle).dequeued
        (Or.inr (by simp [hstopped.connections]))
      simp [htasks] at hnone

theorem runTask_sound (hsound : server.Sound) (hpossible : server.Possible .runTask)
    (hproper : server.Proper .runTask) : ∃ next ∈ server.act .runTask, next.Sound := by
  obtain ⟨hidle, htasks⟩ := hpossible
  rw [act]
  cases hqueue : server.tasks with
  | nil => exact absurd hqueue htasks
  | cons task tasks =>
      cases task with
      | stopInLoop => exact stopInLoop_sound hsound hqueue
      | erase id =>
          exact ⟨_, rfl, erase_sound hsound hqueue hidle (hproper id (by simp [hqueue]))⟩

/-- A proper step fails no assertion, and keeps what holds. -/
theorem act_sound {label : ServerLabel} (hsound : server.Sound)
    (hpossible : server.Possible label) (hproper : server.Proper label) :
    ∃ next ∈ server.act label, next.Sound := by
  cases label with
  | accept closeDelay => exact accept_sound hsound hpossible
  | conn id label => exact conn_sound hsound hpossible hproper
  | stop => exact stop_sound hsound hpossible
  | proceedStop => exact proceedStop_sound hsound hpossible hproper
  | runTask => exact runTask_sound hsound hpossible hproper
  | proceed => exact proceed_sound hsound hpossible hproper

/-! ## Steps that need not be proper -/

/-- `Stop` has set the status of a server that does not run. -/
def Begun (server : TCPServer) : Prop :=
  server.status ≠ .running ∨ server.loop = .finishing → server.stopCall.begun = true

/-- The last status is stored or about to be. -/
def Ended (server : TCPServer) : Prop :=
  server.stopCall.begun = true ∧ (server.loop = .finishing ∨ server.status = .stopped)

/-- What a step does to the status, to `Stop`, to the listening loop and to the calls of the
callback: nothing, or `Stop` is called or sets the status, or the pool is stopped and the
callback called, or the last status is stored. -/
inductive Passes (server next : TCPServer) : Prop
  | along (hstatus : next.status = server.status)
      (hbegun : next.stopCall.begun = server.stopCall.begun)
      (hcalls : next.stoppedCalls = server.stoppedCalls)
      (hloop : next.loop = .finishing ↔ server.loop = .finishing)
  | stops (hbefore : server.stopCall.begun = false)
      (hafter : next.status = server.status ∨ next.stopCall.begun = true)
      (hcalls : next.stoppedCalls = server.stoppedCalls) (hloop : next.loop = server.loop)
  | pool (hstatus : server.status = .stopping)
      (hbegun : next.stopCall.begun = server.stopCall.begun)
      (hcalls : server.stoppedCalls ≤ next.stoppedCalls)
      (hbefore : server.loop ≠ .finishing) (hloop : next.loop = .finishing)
  | finishes (hfinishing : server.loop = .finishing) (hstatus : next.status = .stopped)
      (hbegun : next.stopCall.begun = server.stopCall.begun)
      (hcalls : next.stoppedCalls = server.stoppedCalls)

theorem stopThreadPool_eq (hnext : server.stopThreadPool = some next) :
    server.status = .stopping ∧ next = { server with threadPool := false, substatus := .null } := by
  obtain ⟨hstopping, ⟨⟩⟩ := Option.ite_none_right_eq_some.mp hnext
  exact ⟨hstopping.1, rfl⟩

theorem runTask_passes {task : ServerTask} {tasks : List ServerTask} (hidle : server.loop = .idle)
    (hnext : runTask { server with tasks } task = some next) : server.Passes next := by
  cases task with
  | erase id =>
      obtain rfl := Option.some.inj hnext
      rw [erase]
      dsimp only
      split
      · exact .along rfl rfl rfl (by simp [hidle])
      · exact .along rfl rfl rfl Iff.rfl
  | stopInLoop =>
      obtain ⟨hlistener, hrest⟩ := Option.ite_none_right_eq_some.mp hnext
      dsimp only at hrest
      split at hrest
      next =>
        obtain ⟨pool, hpool, rfl⟩ := Option.map_eq_some_iff.mp hrest
        obtain ⟨hstopping, rfl⟩ := stopThreadPool_eq hpool
        exact .pool hstopping rfl (Nat.le_succ _) (by simp [hidle]) rfl
      next =>
        obtain rfl := Option.some.inj hrest
        exact .along rfl rfl rfl (by simp [hidle])

theorem proceed_passes {frame : ServerFrame} (hframe : server.loop = frame)
    (hnext : server.proceed frame = some next) : server.Passes next := by
  cases frame with
  | idle => cases hnext
  | accepting closeDelay =>
      obtain ⟨-, ⟨⟩⟩ := Option.ite_none_right_eq_some.mp hnext
      exact .along rfl rfl rfl (by simp [hframe])
  | closing rest =>
      cases rest with
      | nil =>
          obtain rfl := Option.some.inj hnext
          exact .along rfl rfl rfl (by simp [hframe])
      | cons id rest =>
          rw [proceed] at hnext
          split at hnext <;> obtain rfl := Option.some.inj hnext <;>
            exact .along rfl rfl rfl (by simp [hframe])
  | found id rest =>
      rw [proceed] at hnext
      obtain ⟨conn, -, rfl⟩ := Option.map_eq_some_iff.mp hnext
      exact .along rfl rfl rfl (by simp [hframe])
  | removedLast =>
      obtain ⟨-, hrest⟩ := Option.ite_none_right_eq_some.mp hnext
      obtain ⟨pool, hpool, rfl⟩ := Option.map_eq_some_iff.mp hrest
      obtain ⟨hstopping, rfl⟩ := stopThreadPool_eq hpool
      exact .pool hstopping rfl (Nat.le_add_right _ _) (by simp [hframe]) rfl
  | finishing =>
      obtain rfl := Option.some.inj hnext
      exact .finishes hframe rfl rfl rfl

theorem act_passes {label : ServerLabel} (hpossible : server.Possible label)
    (hnext : server.act label = some next) : server.Passes next := by
  cases label with
  | accept closeDelay =>
      obtain rfl := Option.some.inj hnext
      rw [handleNewConn]
      split
      · exact .along rfl rfl rfl Iff.rfl
      · exact .along rfl rfl rfl (by simp [hpossible.2])
  | conn id label =>
      obtain ⟨conn, -, rfl⟩ := Option.map_eq_some_iff.mp hnext
      exact .along rfl rfl rfl Iff.rfl
  | stop =>
      obtain rfl := Option.some.inj hnext
      exact .stops (by rw [hpossible.1]; rfl) (Or.inl rfl) rfl rfl
  | proceedStop =>
      rw [act] at hnext
      cases hstage : server.stopCall with
      | idle => exact absurd hstage hpossible.1
      | queued => exact absurd hstage hpossible.2
      | asserted =>
          rw [hstage] at hnext
          obtain rfl := Option.some.inj hnext
          exact .stops (by rw [hstage]; rfl) (Or.inr rfl) rfl rfl
      | stopping | stored =>
          rw [hstage] at hnext
          obtain rfl := Option.some.inj hnext
          exact .along rfl (by rw [hstage]; rfl) rfl Iff.rfl
  | runTask =>
      rw [act] at hnext
      split at hnext
      next => cases hnext
      next task tasks htasks => exact runTask_passes hpossible.1 hnext
  | proceed => exact proceed_passes rfl hnext

theorem Begun.passes (hbegun : server.Begun) (hpasses : server.Passes next) : next.Begun := by
  intro hends
  cases hpasses with
  | along hstatus hsame hcalls hloop =>
      rw [hsame]
      exact hbegun (hends.imp (fun h => hstatus ▸ h) hloop.mp)
  | stops hbefore hafter hcalls hloop =>
      refine hafter.resolve_left fun hstatus => ?_
      rw [hstatus, hloop] at hends
      exact absurd (hbefore.symm.trans (hbegun hends)) (by decide)
  | pool hstatus hsame hcalls hbefore hloop =>
      rw [hsame]
      exact hbegun (Or.inl (by simp [hstatus]))
  | finishes hfinishing hstatus hsame hcalls =>
      rw [hsame]
      exact hbegun (Or.inr hfinishing)

/-- In a server whose last status is stored or about to be the callback is not called again. -/
theorem Ended.passes (hended : server.Ended) (hpasses : server.Passes next) :
    next.Ended ∧ next.stoppedCalls = server.stoppedCalls := by
  obtain ⟨hbegun, hend⟩ := hended
  cases hpasses with
  | along hstatus hsame hcalls hloop =>
      exact ⟨⟨hsame.trans hbegun, hend.imp hloop.mpr fun h => hstatus.trans h⟩, hcalls⟩
  | stops hbefore => exact absurd (hbefore.symm.trans hbegun) (by decide)
  | pool hstatus hsame hcalls hbefore hloop =>
      exact absurd (hstatus.symm.trans (hend.resolve_left hbefore)) (by decide)
  | finishes hfinishing hstatus hsame hcalls =>
      exact ⟨⟨hsame.trans hbegun, Or.inr hstatus⟩, hcalls⟩

theorem Passes.mono (hpasses : server.Passes next) : server.stoppedCalls ≤ next.stoppedCalls := by
  cases hpasses with
  | along hstatus hbegun hcalls => exact hcalls.ge
  | stops hbefore hafter hcalls => exact hcalls.ge
  | pool hstatus hbegun hcalls => exact hcalls
  | finishes hfinishing hstatus hbegun hcalls => exact hcalls.ge

/-- The callback is called when the pool was stopped. -/
theorem Begun.ended (hbegun : server.Begun) (hpasses : server.Passes next)
    (hmore : server.stoppedCalls < next.stoppedCalls) : next.Ended := by
  cases hpasses with
  | along hstatus hsame hcalls => exact absurd hcalls hmore.ne'
  | stops hbefore hafter hcalls => exact absurd hcalls hmore.ne'
  | pool hstatus hsame hcalls hbefore hloop =>
      exact ⟨hsame.trans (hbegun (Or.inl (by simp [hstatus]))), Or.inl hloop⟩
  | finishes hfinishing hstatus hsame hcalls => exact absurd hcalls hmore.ne'

/-- What the listening loop finds again when it goes on with a function and `Stop` has set the
status before. -/
structure Keeps (server next : TCPServer) : Prop where
  loop : next.loop = server.loop
  status : next.status = server.status
  members : next.listener = server.listener ∧ next.threadPool = server.threadPool ∧
    next.stoppedCb = server.stoppedCb
  connections : next.connections = server.connections
  stoppedCalls : next.stoppedCalls = server.stoppedCalls
  begun : next.stopCall.begun = true
  stopping : next.stopCall = .stopping →
    server.stopCall = .stopping ∧ next.substatus = server.substatus
  stored : next.stopCall ≠ .stopping → next.substatus =
    if server.stopCall = .stopping then .stoppingListener else server.substatus

theorem Keeps.refl (hbegun : server.stopCall.begun = true) : server.Keeps server where
  loop := rfl
  status := rfl
  members := ⟨rfl, rfl, rfl⟩
  connections := rfl
  stoppedCalls := rfl
  begun := hbegun
  stopping := fun hstage => ⟨hstage, rfl⟩
  stored := fun hstage => (if_neg hstage).symm

/-- `Stop` goes on and the connections take their steps. -/
theorem Keeps.step {middle : TCPServer} {label : ServerLabel} (hkeeps : server.Keeps middle)
    (hloop : server.loop ≠ .idle) (hstatus : server.status ≠ .running) (hlabel : label ≠ .proceed)
    (hnext : step middle label = some next) : server.Keeps next := by
  obtain ⟨hpossible, hact⟩ := Option.ite_none_right_eq_some.mp hnext
  cases label with
  | accept closeDelay => exact absurd (hkeeps.loop.symm.trans hpossible.2) hloop
  | conn id label =>
      obtain ⟨conn, -, rfl⟩ := Option.map_eq_some_iff.mp hact
      exact { hkeeps with }
  | stop => exact absurd (hkeeps.status.symm.trans hpossible.2) hstatus
  | proceedStop =>
      rw [act] at hact
      cases hstage : middle.stopCall with
      | idle => exact absurd hstage hpossible.1
      | queued => exact absurd hstage hpossible.2
      | asserted => simpa [hstage, StopStage.begun] using hkeeps.begun
      | stopping =>
          rw [hstage] at hact
          obtain rfl := Option.some.inj hact
          exact { hkeeps with
            begun := rfl
            stopping := fun hstopping => absurd hstopping (by simp)
            stored := fun _ => (if_pos (hkeeps.stopping hstage).1).symm }
      | stored =>
          rw [hstage] at hact
          obtain rfl := Option.some.inj hact
          exact { hkeeps with
            begun := rfl
            stopping := fun hstopping => absurd hstopping (by simp)
            stored := fun _ => hkeeps.stored (by simp [hstage]) }
  | runTask => exact absurd (hkeeps.loop.symm.trans hpossible.1) hloop
  | proceed => exact absurd rfl hlabel

theorem keeps_of_run {labels : List ServerLabel} (hloop : server.loop ≠ .idle)
    (hstatus : server.status ≠ .running) (hbegun : server.stopCall.begun = true)
    (hlabels : .proceed ∉ labels) (hrun : run step server labels = some next) :
    server.Keeps next :=
  run_invariant server.Keeps (.refl hbegun)
    (fun _ _ _ _ _ hsplit _ hkeeps hnext => hkeeps.step hloop hstatus
      (fun hlabel => hlabels (by simp [hsplit, hlabel])) hnext) hrun

/-! ## Runs of a server -/

section Runs

variable {labels : List ServerLabel}

theorem run_sound (hproper : Along step Proper new labels)
    (hrun : run step new labels = some server) : server.Sound :=
  run_invariant_possible Sound (fun _ _ => rfl)
    (fun _ _ hsound hpossible hproper =>
      forall_mem_of_exists_mem (act_sound hsound hpossible hproper))
    new_sound hproper hrun

/-- No connection is left in a server whose pool was stopped. -/
theorem Sound.all_closed (hsound : server.Sound) (hempty : server.connections = []) {id : Nat}
    (hpos : 0 < id) (hle : id ≤ server.nextConnId) : .closed ∈ (server.conns id).notices := by
  by_contra hopen
  have hmem := (hsound.registry.tracked id hpos hle).kept hopen
  rw [hempty] at hmem
  cases hmem

theorem Sound.stoppedCalls_le (hsound : server.Sound) : server.stoppedCalls ≤ 1 := by
  cases hsound.phase with
  | serving hserving => exact hserving.stoppedCalls ▸ Nat.zero_le 1
  | draining hdraining => exact hdraining.stoppedCalls ▸ Nat.zero_le 1
  | stopped hstopped => exact hstopped.stoppedCalls.le

theorem Sound.called_iff (hsound : server.Sound) :
    server.stoppedCalls = 1 ↔ server.loop = .finishing ∨ server.status = .stopped := by
  cases hsound.phase with
  | serving hserving =>
      rw [hserving.stoppedCalls]
      refine iff_of_false (by decide) ?_
      rcases hserving.stop with ⟨⟨-, hstatus⟩ | ⟨-, hstatus⟩, -⟩ | ⟨hstatus, -⟩ <;>
        rcases hserving.loop with hloop | ⟨closeDelay, hloop, -⟩ <;> simp [hstatus, hloop]
  | draining hdraining =>
      rw [hdraining.stoppedCalls, hdraining.status.1]
      refine iff_of_false (by decide) ?_
      rcases hdraining.loop with ⟨rest, hloop | ⟨id, others, hloop, -⟩, -⟩ | ⟨hloop, -⟩ |
        ⟨hloop, -⟩ <;> simp [hloop]
  | stopped hstopped =>
      refine iff_of_true hstopped.stoppedCalls ?_
      rcases hstopped.status with ⟨hloop, -⟩ | ⟨-, hstatus, -⟩
      · exact Or.inl hloop
      · exact Or.inr hstatus

theorem Sound.stopped (hsound : server.Sound) (hcalled : server.stoppedCalls = 1) :
    server.Stopped := by
  cases hsound.phase with
  | serving hserving => simp [hserving.stoppedCalls] at hcalled
  | draining hdraining => simp [hdraining.stoppedCalls] at hcalled
  | stopped hstopped => exact hstopped

/-- The callback of `Stop` is called at most once, and it was called exactly in a server that
is stopped or about to store that it is: every connection that was accepted has then called back
that it is closed and is registered no longer, and the listener and the pool are gone. No
assertion of the server, of a connection or of a channel fails at a proper step. -/
theorem stopped_once (hproper : Along step Proper new labels)
    (hrun : run step new labels = some server) :
    server.stoppedCalls ≤ 1 ∧
    (server.stoppedCalls = 1 ↔ server.loop = .finishing ∨ server.status = .stopped) ∧
    (server.stoppedCalls = 1 → server.connections = [] ∧ server.listener = false ∧
      server.threadPool = false ∧ ∀ id, 0 < id → id ≤ server.nextConnId →
        .closed ∈ (server.conns id).notices) ∧
    ∀ label, server.Possible label → server.Proper label → (server.act label).isSome = true := by
  have hsound := run_sound hproper hrun
  refine ⟨hsound.stoppedCalls_le, hsound.called_iff, fun hcalled => ?_,
    fun label hpossible hlabel => ?_⟩
  · have hstopped := hsound.stopped hcalled
    exact ⟨hstopped.connections, hstopped.members.1, hstopped.members.2,
      fun id hpos hle => hsound.all_closed hstopped.connections hpos hle⟩
  · obtain ⟨next, hnext, -⟩ := act_sound hsound hpossible hlabel
    exact Option.isSome_of_mem hnext

/-- Nothing is left to do on the loops and in the calls that were made. -/
structure Quiet (server : TCPServer) : Prop where
  stopCall : server.stopCall = .queued
  loop : server.tasks = [] ∧ server.loop = .idle
  conns : ∀ id, 0 < id → id ≤ server.nextConnId → (server.conns id).tasks = [] ∧
    (server.conns id).calling = [] ∧ (server.conns id).stack = []

/-- A connection that is still registered then was not attached when `StopInLoop` came to
it. -/
theorem Sound.left_early (hsound : server.Sound) (hquiet : server.Quiet) {id : Nat}
    (hpos : 0 < id) (hle : id ≤ server.nextConnId) (hmem : id ∈ server.connections) :
    (server.conns id).status = .connected ∧ id ∈ server.early := by
  obtain ⟨htasks, hcalling, hstack⟩ := hquiet.conns id hpos hle
  obtain ⟨hconn, -, hqueued, -⟩ := hsound.registry.tracked id hpos hle
  have hconnected : (server.conns id).status = .connected := by
    cases hconn.part with
    | fresh hfresh =>
        rw [hfresh.tasks] at htasks
        cases htasks
    | live hlive =>
        refine (hlive.status.resolve_right fun h => ?_).1
        simp [htasks, hcalling] at h
    | closing hclosing =>
        obtain ⟨frame, below, count, hframes, -⟩ := hclosing.stack
        rw [hstack] at hframes
        cases hframes
    | gone hgone =>
        obtain ⟨count, hnotices⟩ := hgone.notices
        have hone := hqueued (by simp [hnotices]) hmem
        simp [hquiet.loop.1] at hone
  refine ⟨hconnected, ?_⟩
  cases hsound.phase with
  | serving hserving =>
      have hstop := hserving.stop
      simp [hquiet.stopCall, hquiet.loop.1, StopStage.begun] at hstop
  | draining hdraining =>
      have hframe := hdraining.loop
      simp only [hquiet.loop.2, reduceCtorEq, false_and, exists_false, or_false, true_and,
        false_or] at hframe
      exact (hframe.2.2 id hmem).resolve_left fun h => h.2 hconnected
  | stopped hstopped =>
      rw [hstopped.connections] at hmem
      cases hmem

/-- A connection that is connected has not called back, and so it is registered. -/
theorem Sound.registered (hsound : server.Sound) {id : Nat} (hpos : 0 < id)
    (hle : id ≤ server.nextConnId) (hconnected : (server.conns id).status = .connected) :
    id ∈ server.connections := by
  obtain ⟨hconn, hkept, -⟩ := hsound.registry.tracked id hpos hle
  refine hkept fun hclosed => ?_
  cases hconn.part with
  | fresh hfresh => simp [hfresh.notices] at hclosed
  | live hlive =>
      obtain ⟨count, hnotices⟩ := hlive.notices
      simp [hnotices] at hclosed
  | closing hclosing => simp [hclosing.status] at hconnected
  | gone hgone => simp [hgone.status] at hconnected

theorem Sound.stops (hsound : server.Sound) (hquiet : server.Quiet) :
    server.status = .stopped ↔
      ∀ id, 0 < id → id ≤ server.nextConnId → (server.conns id).status ≠ .connected := by
  constructor
  · intro hstatus id hpos hle hconnected
    have hmem := hsound.registered hpos hle hconnected
    rw [(hsound.stopped (hsound.called_iff.mpr (Or.inr hstatus))).connections] at hmem
    cases hmem
  · intro hnone
    cases hsound.phase with
    | serving hserving =>
        have hstop := hserving.stop
        simp [hquiet.stopCall, hquiet.loop.1, StopStage.begun] at hstop
    | draining hdraining =>
        have hframe := hdraining.loop
        simp only [hquiet.loop.2, reduceCtorEq, false_and, exists_false, or_false, true_and,
          false_or] at hframe
        obtain ⟨id, hmem⟩ := List.exists_mem_of_ne_nil _ hframe.2.1
        obtain ⟨hpos, hle⟩ := hsound.registry.accepted id (Or.inl hmem)
        exact absurd (hsound.left_early hquiet hpos hle hmem).1 (hnone id hpos hle)
    | stopped hstopped =>
        rcases hstopped.status with ⟨hframe, -⟩ | ⟨-, hstatus, -⟩
        · simp [hquiet.loop.2] at hframe
        · exact hstatus

/-- A server that was stopped and has nothing left to do is stopped unless a connection is
still connected; that is one that was accepted and not yet attached to its loop when
`StopInLoop` came to it, and the server waits for it without having closed it. -/
theorem stops_unless_early (hproper : Along step Proper new labels)
    (hrun : run step new labels = some server) (hquiet : server.Quiet) :
    (server.status = .stopped ↔
      ∀ id, 0 < id → id ≤ server.nextConnId → (server.conns id).status ≠ .connected) ∧
    ∀ id, 0 < id → id ≤ server.nextConnId → (server.conns id).status = .connected →
      id ∈ server.connections ∧ id ∈ server.early := by
  have hsound := run_sound hproper hrun
  refine ⟨hsound.stops hquiet, fun id hpos hle hconnected => ?_⟩
  have hmem := hsound.registered hpos hle hconnected
  exact ⟨hmem, (hsound.left_early hquiet hpos hle hmem).2⟩

/-- A server without a pool and connections is stopped next, and then its listener cannot be
stopped. -/
theorem stopped_listening {rest : List ServerLabel} (hrun : run step server rest = some next)
    (hrest : .proceed ∉ rest) (hloop : server.loop = .finishing)
    (hstatus : server.status = .stopping) (hbegun : server.stopCall.begun = true)
    (hlistener : server.listener = true) (hconnections : server.connections = []) :
    ∃ stopped ∈ step next .proceed, stopped.status = .stopped ∧
      stopped.stoppedCalls = server.stoppedCalls ∧ stopped.listener = true ∧
      stopped.stopInLoop = none := by
  have hkeeps := keeps_of_run (by simp [hloop]) (by simp [hstatus]) hbegun hrest hrun
  have hframe : next.loop = .finishing := hkeeps.loop.trans hloop
  have hlistens : next.listener = true := hkeeps.members.1.trans hlistener
  rw [step, if_pos (by simp [Possible, hframe]), act, hframe]
  refine ⟨_, rfl, rfl, hkeeps.stoppedCalls, hlistens, ?_⟩
  simp [stopInLoop, stopThreadPool, hlistens, hkeeps.connections, hconnections]

/-- The last connection is removed after `Stop` has set the status and before `StopInLoop` is
called. Whatever the other threads do in the meantime, the assertion of the functor fails when
`Stop` has not set `substatus_` yet; otherwise the server is stopped without a call of the
callback, it still listens, and `StopInLoop` fails. -/
theorem removed_too_early (hproper : Along step Proper new labels)
    (hrun : run step new labels = some server) (hidle : server.loop = .idle) {id : Nat}
    (herase : server.tasks.head? = some (.erase id)) (hstopping : server.status = .stopping)
    (hlistener : server.listener = true) (hlast : server.connections.erase id = []) :
    ∃ removed ∈ step server .runTask, ∀ more, .proceed ∉ more →
      ∀ later ∈ run step removed more,
        (later.stopCall = .stopping → later.act .proceed = none) ∧
        (later.stopCall ≠ .stopping → ∃ finishing ∈ step later .proceed,
          ∀ rest, .proceed ∉ rest → ∀ final ∈ run step finishing rest,
            ∃ stopped ∈ step final .proceed, stopped.status = .stopped ∧
              stopped.stoppedCalls = 0 ∧ stopped.listener = true ∧
              stopped.stopInLoop = none) := by
  have hserving := (run_sound hproper hrun).serves hlistener
  obtain ⟨-, hpool, hcb⟩ := hserving.members
  obtain ⟨hbegun, hsubstatus⟩ := hserving.stopping hstopping
  obtain ⟨tasks, htasks⟩ := List.head?_eq_some_iff.mp herase
  have hpossible : server.Possible .runTask := ⟨hidle, by simp [htasks]⟩
  rw [step, if_pos hpossible, act, htasks]
  have hremoved : erase { server with tasks } id =
      { server with tasks, connections := [], loop := .removedLast } := by
    rw [erase]
    dsimp only
    rw [if_pos ⟨hstopping, hlast⟩, hlast]
  refine ⟨_, congrArg some hremoved, fun more hmore later hlater => ?_⟩
  have hkeeps : Keeps { server with tasks, connections := [], loop := .removedLast } later :=
    keeps_of_run (by simp) (by simp [hstopping]) hbegun hmore hlater
  have hloop : later.loop = .removedLast := hkeeps.loop
  have hstatus : later.status = .stopping := hkeeps.status.trans hstopping
  rw [act, hloop, step, if_pos (by simp [Possible, hloop]), act, hloop]
  refine ⟨fun hstage => ?_, fun hstage => ?_⟩
  · obtain ⟨hbefore, hsame⟩ := hkeeps.stopping hstage
    have hnull : later.substatus = .null := hsame.trans (hsubstatus.trans (if_pos hbefore))
    rw [proceed, removeLast, if_neg (by simp [hnull])]
  · have hset : later.substatus = .stoppingListener := by
      rw [hkeeps.stored hstage]
      dsimp only
      split
      next => rfl
      next hnot => exact hsubstatus.trans (if_neg hnot)
    obtain ⟨hlistens, hpools, hcbs⟩ := hkeeps.members
    rw [proceed, removeLast, if_pos hset, stopThreadPool,
      if_pos ⟨hstatus, hpools.trans hpool⟩]
    refine ⟨_, rfl, fun rest hrest final hfinal => ?_⟩
    obtain ⟨stopped, hstopped, hend, hcalls, hfacts⟩ := stopped_listening hfinal hrest rfl hstatus
      hkeeps.begun (hlistens.trans hlistener) hkeeps.connections
    refine ⟨stopped, hstopped, hend, hcalls.trans ?_, hfacts⟩
    simp [hcbs.trans hcb, hkeeps.stoppedCalls.trans hserving.stoppedCalls]

end Runs

instance decidableProper (server : TCPServer) (label : ServerLabel) :
    Decidable (server.Proper label) :=
  match label with
  | .conn id label => inferInstanceAs (Decidable ((server.conns id).Proper label))
  | .proceedStop =>
      match h : server.loop with
      | .accepting _ => decidable_of_iff (server.stopCall ≠ .asserted) (by simp [Proper, h])
      | .idle | .closing _ | .found _ _ | .removedLast | .finishing =>
          .isTrue (by simp [Proper, h])
  | .runTask =>
      match h : server.tasks.head? with
      | some (.erase id) => decidable_of_iff (server.status = .stopping →
          server.listener = true → server.connections.erase id ≠ []) (by simp [Proper, h])
      | some .stopInLoop | none => .isTrue (by simp [Proper, h])
  | .proceed =>
      match h : server.loop with
      | .found id _ =>
          decidable_of_iff ((server.conns id).status ≠ .disconnected) (by simp [Proper, h])
      | .idle | .accepting _ | .closing _ | .removedLast | .finishing =>
          .isTrue (by simp [Proper, h])
  | .accept _ | .stop => inferInstanceAs (Decidable True)

/-- A connection is accepted and attached, the server is stopped and closes it. -/
def oneClosed : List ServerLabel :=
  [.accept 5, .proceed, .conn 1 (.runTask .retriable), .conn 1 .resume, .stop, .proceedStop,
    .proceedStop, .proceedStop, .runTask, .proceed, .proceed, .proceed,
    .conn 1 (.queueInLoop .handleClose), .conn 1 (.runTask .retriable), .conn 1 .resume,
    .conn 1 .resume, .runTask, .proceed]

theorem stopped_once_oneClosed : ∃ server, run step new oneClosed = some server ∧
    server.status = .stopping ∧ server.stoppedCalls = 1 ∧ server.connections = [] ∧
    .closed ∈ (server.conns 1).notices := by
  have hproper : Along step Proper new oneClosed := by decide
  have hfacts : (run step new oneClosed).map (fun server =>
      (server.loop, server.status, server.nextConnId)) = some (.finishing, .stopping, 1) := by
    decide
  obtain ⟨server, hrun, hserver⟩ := Option.map_eq_some_iff.mp hfacts
  simp only [Prod.mk.injEq] at hserver
  obtain ⟨hloop, hstatus, hid⟩ := hserver
  obtain ⟨-, hiff, hstopped, -⟩ := stopped_once hproper hrun
  have hcalls := hiff.mpr (Or.inl hloop)
  obtain ⟨hempty, -, -, hclosed⟩ := hstopped hcalls
  exact ⟨server, hrun, hstatus, hcalls, hempty, hclosed 1 Nat.one_pos hid.ge⟩

/-- A connection is accepted, and attached after `StopInLoop` came to it. -/
def attachedLate : List ServerLabel :=
  [.accept 5, .proceed, .stop, .proceedStop, .proceedStop, .proceedStop, .runTask, .proceed,
    .proceed, .conn 1 (.runTask .retriable), .conn 1 .resume]

theorem stops_unless_early_attachedLate : ∃ server, run step new attachedLate = some server ∧
    server.status ≠ .stopped ∧ 1 ∈ server.connections ∧ 1 ∈ server.early := by
  have hproper : Along step Proper new attachedLate := by decide
  have hserver : (run step new attachedLate).map (fun server =>
      (server.stopCall, server.tasks, server.loop, server.nextConnId)) =
      some (.queued, [], .idle, 1) := by decide
  have hconn : (run step new attachedLate).map (fun server =>
      ((server.conns 1).status, (server.conns 1).tasks, (server.conns 1).calling,
        (server.conns 1).stack)) = some (.connected, [], [], []) := by decide
  obtain ⟨server, hrun, hmembers⟩ := Option.map_eq_some_iff.mp hserver
  simp only [hrun, Option.map_some, Option.some.injEq, Prod.mk.injEq] at hmembers hconn
  obtain ⟨hcall, htasks, hloop, hid⟩ := hmembers
  obtain ⟨hstatus, hconn⟩ := hconn
  have hquiet : server.Quiet := by
    refine ⟨hcall, ⟨htasks, hloop⟩, fun id hpos hle => ?_⟩
    obtain rfl : id = 1 := by omega
    exact hconn
  obtain ⟨hiff, hleft⟩ := stops_unless_early hproper hrun hquiet
  exact ⟨server, hrun, fun hstopped => hiff.mp hstopped 1 Nat.one_pos hid.ge hstatus,
    hleft 1 Nat.one_pos hid.ge hstatus⟩

/-- The connection ends by itself, and `Stop` has set `status_` while its removal is in the
queue. -/
def endedFirst : List ServerLabel :=
  [.accept 0, .proceed, .conn 1 (.runTask .retriable), .conn 1 .resume,
    .conn 1 (.handleEvent (some .eof) false), .conn 1 .resume, .conn 1 .resume, .stop,
    .proceedStop]

/-- `Stop` sets `substatus_` after the functor has found the server stopping, or too late. -/
theorem removed_too_early_endedFirst : ∃ server, run step new endedFirst = some server ∧
    ∃ removed ∈ step server .runTask, removed.act .proceed = none ∧
      ∃ later ∈ step removed .proceedStop, ∃ finishing ∈ step later .proceed,
        ∃ stopped ∈ step finishing .proceed, stopped.status = .stopped ∧
          stopped.stoppedCalls = 0 ∧ stopped.stopInLoop = none := by
  have hproper : Along step Proper new endedFirst := by decide
  have hserver : (run step new endedFirst).map (fun server => (server.tasks.head?, server.status,
      server.listener, server.connections, server.loop)) =
      some (some (.erase 1), .stopping, true, [1], .idle) := by decide
  obtain ⟨server, hrun, hmembers⟩ := Option.map_eq_some_iff.mp hserver
  simp only [Prod.mk.injEq] at hmembers
  obtain ⟨htasks, hstatus, hlistener, hconnections, hloop⟩ := hmembers
  obtain ⟨removed, hremoved, hlater⟩ := removed_too_early hproper hrun hloop htasks hstatus
    hlistener (by simp [hconnections])
  have hstages : (run step new (endedFirst ++ [.runTask])).map (·.stopCall) = some .stopping ∧
      (run step new (endedFirst ++ [.runTask, .proceedStop])).map (·.stopCall) =
        some .stored := by decide
  rw [run_append, run_append, hrun] at hstages
  obtain ⟨hstopping, hstored⟩ := hstages
  simp only [Option.bind_some, run_cons, Option.mem_def.mp hremoved, run_nil, Option.map_some,
    Option.some.injEq] at hstopping hstored
  obtain ⟨later, hproceeds, hstage⟩ := Option.map_eq_some_iff.mp hstored
  have hstep : later ∈ step removed .proceedStop := by simpa using hproceeds
  obtain ⟨finishing, hfinishing, hend⟩ :=
    (hlater [.proceedStop] (by simp) later hproceeds).2 (by simp [hstage])
  obtain ⟨stopped, hstopped, hlast, hcalls, -, hnone⟩ := hend [] (by simp) finishing rfl
  exact ⟨server, hrun, removed, hremoved, (hlater [] (by simp) removed rfl).1 hstopping, later,
    hstep, finishing, hfinishing, stopped, hstopped, hlast, hcalls, hnone⟩

end TCPServer

end Wnet.Evpp
