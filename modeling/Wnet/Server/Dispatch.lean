import Wnet.Evpp.Shutdown
import Wnet.Server.Connection

/-!
# The connections of a server

`ServerBase` makes a `ServerConnection` for a connection that is connected and gives it
whatever is read. What its adapter is called with depends on nothing but the chunks that were
read from this one socket.
-/

namespace Wnet

open Evpp Foundation

variable {Body : Type*}

/-- A connection of a server. The last field is a record of what was read from the socket. -/
structure Served (Body : Type*) where
  conn : TCPConn
  /-- The members of the `ServerConnection` in the context of the connection. -/
  context : Option (Reader × ServerState Body)
  /-- The callback that was called and has not run. -/
  due : Option ConnNotice
  chunks : List Bytes

inductive ServedLabel
  | conn (label : ConnLabel)
  /-- The callback runs; the header is what the memory of a new `ServerConnection` holds. -/
  | callback (packetHeader : PacketHeader)

/-- The step is one of another thread. -/
def Evpp.ConnLabel.elsewhere : ConnLabel → Bool
  | .send _ | .close | .queueInLoop _ => true
  | _ => false

/-- The application takes bytes from the input buffer. -/
def Evpp.ConnLabel.takes : ConnLabel → Bool
  | .next _ => true
  | _ => false

namespace Served

def new (closeDelay : Int) : Served Body where
  conn := .new .incoming closeDelay (128 * 1024 * 1024) false
  context := none
  due := none
  chunks := []

section Steps

variable (streamer : Streamer Body) (batchPushPacket : Bool) (served : Served Body)

/-- `ServerBase::OnConnection`. -/
def onConnection (packetHeader : PacketHeader) : Served Body :=
  { served with
    context :=
      if served.conn.status = .connected then some (⟨false, packetHeader⟩, ⟨[], []⟩) else none }

/-- `ServerBase::OnMessage`. The packets are decoded from the front of the input buffer. -/
def onMessage : Option (Served Body) :=
  match served.context with
  | none => some served
  | some (reader, state) =>
      let input := served.conn.inputBuffer
      (ServerConnection.onMessage streamer batchPushPacket ⟨reader, state, input⟩ []).bind
        fun after =>
          let count := input.length - after.input.length
          if input.drop count = after.input then
            (served.conn.act (.next count)).map fun conn =>
              { served with conn, context := some (after.reader, after.state) }
          else none

def callback (packetHeader : PacketHeader) : ConnNotice → Option (Served Body)
  | .connected | .disconnected => some (served.onConnection packetHeader)
  | .message => served.onMessage streamer batchPushPacket
  | .closed => some served

/-- A step of the connection; a notice is a callback that is called. -/
def advance (conn : TCPConn) : Served Body :=
  let told := conn.notices.drop served.conn.notices.length
  { served with
    conn
    due := told.head?.or served.due
    chunks :=
      if told = [.message] then
        served.chunks ++ [conn.received.drop served.conn.received.length]
      else served.chunks }

def Possible (served : Served Body) : ServedLabel → Prop
  | .conn label =>
      served.conn.Possible label ∧ (label.elsewhere = true ∨ served.due = none) ∧
        label.takes = false
  | .callback _ => served.due ≠ none

def act (served : Served Body) : ServedLabel → Option (Served Body)
  | .conn label => (served.conn.act label).map served.advance
  | .callback packetHeader =>
      served.due.bind fun notice =>
        callback streamer batchPushPacket { served with due := none } packetHeader notice

end Steps

instance decidablePossible (served : Served Body) (label : ServedLabel) :
    Decidable (served.Possible label) :=
  match label with
  | .conn label =>
      inferInstanceAs (Decidable (served.conn.Possible label ∧
        (label.elsewhere = true ∨ served.due = none) ∧ label.takes = false))
  | .callback _ => inferInstanceAs (Decidable (served.due ≠ none))

def step (streamer : Streamer Body) (batchPushPacket : Bool) (served : Served Body)
    (label : ServedLabel) : Option (Served Body) :=
  if served.Possible label then served.act streamer batchPushPacket label else none

/-- The steps of the connection are proper. -/
def Proper (served : Served Body) : ServedLabel → Prop
  | .conn label => served.conn.Proper label
  | .callback _ => True

/-! ## What a connection reports -/

theorem notices_begin {conn : TCPConn} (hsound : conn.Sound) :
    conn.notices = [] ∨ ∃ rest, conn.notices = .connected :: rest := by
  cases hsound.part with
  | fresh hfresh => exact Or.inl hfresh.notices
  | live hlive =>
      obtain ⟨count, hnotices⟩ := hlive.notices
      exact Or.inr ⟨_, hnotices⟩
  | closing hclosing =>
      obtain ⟨frame, below, count, -, -, ⟨-, hnotices⟩ | ⟨-, hnotices⟩⟩ := hclosing.stack <;>
        exact Or.inr ⟨_, hnotices⟩
  | gone hgone =>
      obtain ⟨count, hnotices⟩ := hgone.notices
      exact Or.inr ⟨_, hnotices⟩

/-- A connection that has reported its end is not connected, and it reports that it is
disconnected before it reports that it is closed. -/
theorem notices_end {conn : TCPConn} (hsound : conn.Sound) :
    (.closed ∈ conn.notices → .disconnected ∈ conn.notices) ∧
    (.disconnected ∈ conn.notices → conn.status ≠ .connected) := by
  cases hsound.part with
  | fresh hfresh => simp [hfresh.notices]
  | live hlive =>
      obtain ⟨count, hnotices⟩ := hlive.notices
      simp [hnotices]
  | closing hclosing =>
      obtain ⟨frame, below, count, -, -, ⟨-, hnotices⟩ | ⟨-, hnotices⟩⟩ := hclosing.stack <;>
        simp [hnotices, hclosing.status]
  | gone hgone =>
      obtain ⟨count, hnotices⟩ := hgone.notices
      simp [hnotices, hgone.status]

/-- A step of another thread. -/
theorem elsewhere_keeps {conn after : TCPConn} {label : ConnLabel}
    (helsewhere : label.elsewhere = true) (hact : conn.act label = some after) :
    after.notices = conn.notices ∧ after.inputBuffer = conn.inputBuffer ∧
    after.received = conn.received ∧ after.stack = conn.stack ∧
    (after.status = .connected → conn.status = .connected) := by
  cases label with
  | send message =>
      rw [TCPConn.act] at hact
      split at hact <;> obtain rfl := Option.some.inj hact <;> exact ⟨rfl, rfl, rfl, rfl, id⟩
  | close =>
      obtain rfl := Option.some.inj hact
      exact ⟨rfl, rfl, rfl, rfl, by simp⟩
  | queueInLoop task =>
      obtain rfl := Option.some.inj hact
      exact ⟨rfl, rfl, rfl, rfl, id⟩
  | handleEvent _ _ | handleWrite _ | resume | sendInLoop _ _ _ | next _ | runTask _ | timer =>
      cases helsewhere

/-- What a step of a connection can report. -/
theorem act_reports {conn after : TCPConn} {label : ConnLabel} (hsound : conn.Sound)
    (htakes : label.takes = false) (hact : conn.act label = some after) :
    conn.Onward after ∨ conn.notices = [] ∧ after.notices = [.connected] ∧
      after.received = conn.received ∨
    after.notices = conn.notices ++ [.closed] ∧ after.received = conn.received := by
  cases hcloses : conn.closes label with
  | true =>
      obtain ⟨rfl, hhead⟩ : label = .resume ∧ conn.stack.head? = some .closing := by
        simpa [TCPConn.closes] using hcloses
      obtain ⟨below, hstack⟩ := List.head?_eq_some_iff.mp hhead
      rw [TCPConn.act, hstack] at hact
      obtain rfl := Option.some.inj hact
      exact Or.inr (Or.inr ⟨rfl, rfl⟩)
  | false =>
      have hkeeps : ∀ count, label ≠ .next count := by
        rintro count rfl
        cases htakes
      by_cases hattached : ∀ result, label = .runTask result → .onAttachedToLoop ∉ conn.tasks
      · exact Or.inl (TCPConn.act_onward hkeeps hattached hcloses hact)
      · push Not at hattached
        obtain ⟨result, rfl, hmem⟩ := hattached
        cases hsound.part with
        | fresh hfresh =>
            rw [TCPConn.act, hfresh.tasks] at hact
            obtain ⟨chan, -, hrest⟩ := Option.bind_eq_some_iff.mp hact
            obtain rfl := Option.some.inj hrest
            refine Or.inr (Or.inl ⟨hfresh.notices, ?_, rfl⟩)
            rw [TCPConn.callback, hfresh.notices]
            rfl
        | live hlive => exact absurd hmem hlive.tasks
        | closing hclosing => exact absurd hmem hclosing.tasks
        | gone hgone => exact absurd hmem hgone.tasks

/-! ## What holds of the context -/

variable {streamer : Streamer Body} {batchPushPacket : Bool} {served next : Served Body}

/-- The `ServerConnection` has handled these chunks, and these bytes are unread. -/
def Handled (streamer : Streamer Body) (batchPushPacket : Bool) (served : Served Body)
    (chunks : List Bytes) (input : Bytes) : Prop :=
  ∃ packetHeader reader state, served.context = some (reader, state) ∧
    run (ServerConnection.onMessage streamer batchPushPacket) (ServerConnection.new packetHeader)
      chunks = some ⟨reader, state, input⟩

/-- The part of its service that a connection is in. -/
inductive Phase (streamer : Streamer Body) (batchPushPacket : Bool) (served : Served Body) : Prop
  | fresh (hnotices : served.conn.notices = []) (hdue : served.due = none)
      (hcontext : served.context = none) (hchunks : served.chunks = [])
  | connecting (hnotices : served.conn.notices = [.connected])
      (hdue : served.due = some .connected) (hcontext : served.context = none)
      (hchunks : served.chunks = [])
  | serving (hnotices : .connected ∈ served.conn.notices ∧ .disconnected ∉ served.conn.notices)
      (hdue : served.due = none)
      (hhandled : Handled streamer batchPushPacket served served.chunks served.conn.inputBuffer)
  | receiving (done : List Bytes) (chunk input : Bytes)
      (hnotices : .connected ∈ served.conn.notices ∧ .disconnected ∉ served.conn.notices)
      (hdue : served.due = some .message) (hstack : .message ∈ served.conn.stack)
      (hchunks : served.chunks = done ++ [chunk])
      (hinput : served.conn.inputBuffer = input ++ chunk)
      (hhandled : Handled streamer batchPushPacket served done input)
  /-- `OnConnection` has found the connection disconnecting. -/
  | ignored (hnotices : .connected ∈ served.conn.notices)
      (hdue : served.due = none ∨ served.due = some .message) (hcontext : served.context = none)
      (hstatus : served.conn.status ≠ .connected)
      (hinput : served.conn.inputBuffer = served.conn.received)
  | ended (hnotices : .disconnected ∈ served.conn.notices)
      (hcontext : served.due = some .disconnected ∨ served.context = none)

structure Sound (streamer : Streamer Body) (batchPushPacket : Bool) (served : Served Body) :
    Prop where
  conn : served.conn.Sound
  received : served.chunks.flatten = served.conn.received
  phase : Phase streamer batchPushPacket served

theorem new_sound (closeDelay : Int) :
    (new closeDelay : Served Body).Sound streamer batchPushPacket :=
  ⟨TCPConn.new_sound _ _ _ _, rfl, .fresh rfl rfl rfl rfl⟩

/-! ## One step -/

theorem callback_sound {packetHeader : PacketHeader}
    (hsound : served.Sound streamer batchPushPacket)
    (hnext : served.act streamer batchPushPacket (.callback packetHeader) = some next) :
    next.Sound streamer batchPushPacket := by
  obtain ⟨notice, hdue, hnext⟩ := Option.bind_eq_some_iff.mp hnext
  cases hsound.phase with
  | fresh _ hnone _ _ =>
      rw [hnone] at hdue
      cases hdue
  | serving _ hnone _ =>
      rw [hnone] at hdue
      cases hdue
  | connecting hnotices hconnected hcontext hchunks =>
      obtain rfl := Option.some.inj (hconnected.symm.trans hdue)
      obtain rfl := Option.some.inj hnext
      have hreceived : served.conn.received = [] := by rw [← hsound.received, hchunks]; rfl
      have hinput : served.conn.inputBuffer = [] :=
        (List.append_eq_nil_iff.mp (hsound.conn.steady.taken.trans hreceived)).2
      refine ⟨hsound.conn, hsound.received, ?_⟩
      by_cases hstatus : served.conn.status = .connected
      · refine .serving (by simp [onConnection, hnotices]) rfl
          ⟨packetHeader, ⟨false, packetHeader⟩, ⟨[], []⟩, if_pos hstatus, ?_⟩
        rw [onConnection]
        dsimp only
        rw [hchunks, hinput]
        rfl
      · exact .ignored (by simp [onConnection, hnotices]) (Or.inl rfl) (if_neg hstatus) hstatus
          (hinput.trans hreceived.symm)
  | receiving done chunk input hnotices hmessage hstack hchunks hinput hhandled =>
      obtain rfl := Option.some.inj (hmessage.symm.trans hdue)
      obtain ⟨packetHeader, reader, state, hcontext, hrun⟩ := hhandled
      rw [callback, onMessage] at hnext
      dsimp only at hnext
      rw [hcontext] at hnext
      dsimp only at hnext
      obtain ⟨after, hafter, hnext⟩ := Option.bind_eq_some_iff.mp hnext
      split at hnext
      next hdrop =>
        have hpossible : served.conn.Possible
            (.next (served.conn.inputBuffer.length - after.input.length)) :=
          ⟨hstack, Nat.sub_le _ _⟩
        obtain ⟨conn, hact, rfl⟩ := Option.map_eq_some_iff.mp hnext
        obtain ⟨other, hother, hconn⟩ := TCPConn.act_sound hsound.conn hpossible trivial
        obtain rfl := Option.some.inj (hother.symm.trans hact)
        obtain rfl := Option.some.inj hact
        refine ⟨hconn, hsound.received, .serving hnotices rfl
          ⟨packetHeader, after.reader, after.state, rfl, ?_⟩⟩
        rw [hchunks]
        dsimp only
        refine run_concat hrun ?_
        rw [hdrop, ← hafter, hinput, ServerConnection.onMessage, Wnet.onMessage, Wnet.onMessage,
          List.append_nil]
      next => cases hnext
  | ignored hnotices hmessage hcontext hstatus hinput =>
      obtain rfl : notice = .message := by
        rcases hmessage with hnone | hmessage
        · rw [hnone] at hdue
          cases hdue
        · exact (Option.some.inj (hmessage.symm.trans hdue)).symm
      rw [callback, onMessage] at hnext
      dsimp only at hnext
      rw [hcontext] at hnext
      obtain rfl := Option.some.inj hnext
      exact ⟨hsound.conn, hsound.received, .ignored hnotices (Or.inl rfl) rfl hstatus hinput⟩
  | ended hnotices hcontext =>
      have hstatus := (notices_end hsound.conn).2 hnotices
      cases notice with
      | connected | disconnected =>
          obtain rfl := Option.some.inj hnext
          exact ⟨hsound.conn, hsound.received, .ended hnotices (Or.inr (if_neg hstatus))⟩
      | closed =>
          obtain rfl := Option.some.inj hnext
          refine ⟨hsound.conn, hsound.received, .ended hnotices (Or.inr ?_)⟩
          refine hcontext.resolve_left fun hdisconnected => ?_
          rw [hdisconnected] at hdue
          cases hdue
      | message =>
          have hnone : served.context = none := by
            refine hcontext.resolve_left fun hdisconnected => ?_
            rw [hdisconnected] at hdue
            cases hdue
          rw [callback, onMessage] at hnext
          dsimp only at hnext
          rw [hnone] at hnext
          obtain rfl := Option.some.inj hnext
          exact ⟨hsound.conn, hsound.received, .ended hnotices (Or.inr rfl)⟩

theorem advance_nothing {conn : TCPConn} (hnotices : conn.notices = served.conn.notices) :
    served.advance conn = { served with conn } := by
  simp [advance, hnotices]

theorem advance_tells {conn : TCPConn} {notice : ConnNotice}
    (hnotices : conn.notices = served.conn.notices ++ [notice]) (hnot : notice ≠ .message) :
    served.advance conn = { served with conn, due := some notice } := by
  simp [advance, hnotices, hnot]

theorem advance_message {conn : TCPConn} {bytes : Bytes}
    (hnotices : conn.notices = served.conn.notices ++ [.message])
    (hreceived : conn.received = served.conn.received ++ bytes) :
    served.advance conn =
      { served with conn, due := some .message, chunks := served.chunks ++ [bytes] } := by
  simp [advance, hnotices, hreceived]

/-- Nothing is reported or read. -/
theorem Sound.keep {conn : TCPConn} (hsound : served.Sound streamer batchPushPacket)
    (hconn : conn.Sound) (hnotices : conn.notices = served.conn.notices)
    (hinput : conn.inputBuffer = served.conn.inputBuffer)
    (hreceived : conn.received = served.conn.received)
    (hstack : served.due = some .message → .message ∈ served.conn.stack → .message ∈ conn.stack)
    (hstatus : conn.status = .connected → served.conn.status = .connected) :
    Sound streamer batchPushPacket { served with conn } := by
  refine ⟨hconn, hsound.received.trans hreceived.symm, ?_⟩
  cases hsound.phase with
  | fresh hempty hdue hcontext hchunks =>
      exact .fresh (hnotices.trans hempty) hdue hcontext hchunks
  | connecting hbefore hdue hcontext hchunks =>
      exact .connecting (hnotices.trans hbefore) hdue hcontext hchunks
  | serving hbefore hdue hhandled =>
      refine .serving (by rwa [hnotices]) hdue ?_
      dsimp only
      rw [hinput]
      exact hhandled
  | receiving done chunk input hbefore hdue hframe hchunks hread hhandled =>
      exact .receiving done chunk input (by rwa [hnotices]) hdue (hstack hdue hframe) hchunks
        (hinput.trans hread) hhandled
  | ignored hbefore hdue hcontext hother hread =>
      exact .ignored (by rwa [hnotices]) hdue hcontext (mt hstatus hother)
        (hinput.trans (hread.trans hreceived.symm))
  | ended hbefore hcontext => exact .ended (by rwa [hnotices]) hcontext

/-- A chunk was read. -/
theorem Sound.read {conn : TCPConn} {bytes : Bytes}
    (hsound : served.Sound streamer batchPushPacket) (hconn : conn.Sound)
    (hdue : served.due = none) (hstack : .message ∈ conn.stack)
    (hnotices : conn.notices = served.conn.notices ++ [.message])
    (hinput : conn.inputBuffer = served.conn.inputBuffer ++ bytes)
    (hreceived : conn.received = served.conn.received ++ bytes)
    (hstatus : conn.status = .connected → served.conn.status = .connected) :
    Sound streamer batchPushPacket
      { served with conn, due := some .message, chunks := served.chunks ++ [bytes] } := by
  refine ⟨hconn, ?_, ?_⟩
  · dsimp only
    rw [List.flatten_append, hsound.received, hreceived]
    simp
  · cases hsound.phase with
    | fresh hempty =>
        -- The first report is that the connection is connected.
        rw [hempty] at hnotices
        rcases notices_begin hconn with hnone | ⟨rest, hbegins⟩
        · rw [hnone] at hnotices
          cases hnotices
        · rw [hbegins] at hnotices
          cases hnotices
    | connecting _ hother =>
        rw [hdue] at hother
        cases hother
    | receiving done chunk input _ hother =>
        rw [hdue] at hother
        cases hother
    | serving hbefore _ hhandled =>
        exact .receiving served.chunks bytes served.conn.inputBuffer (by simp [hnotices, hbefore])
          rfl hstack rfl hinput hhandled
    | ignored hbefore _ hcontext hother hread =>
        refine .ignored (by simp [hnotices, hbefore]) (Or.inr rfl) hcontext (mt hstatus hother) ?_
        dsimp only
        rw [hinput, hreceived, hread]
    | ended hbefore hcontext =>
        refine .ended (by simp [hnotices, hbefore]) (Or.inr (hcontext.resolve_left ?_))
        simp [hdue]

theorem conn_sound {label : ConnLabel} (hsound : served.Sound streamer batchPushPacket)
    (hpossible : served.Possible (.conn label)) (hproper : served.conn.Proper label) :
    ∃ next ∈ served.act streamer batchPushPacket (.conn label),
      next.Sound streamer batchPushPacket := by
  obtain ⟨hcan, hturn, htakes⟩ := hpossible
  obtain ⟨conn, hact, hconn⟩ := TCPConn.act_sound hsound.conn hcan hproper
  rw [act, hact, Option.map_some]
  refine ⟨_, rfl, ?_⟩
  rcases hturn with helsewhere | hdue
  · obtain ⟨hnotices, hinput, hreceived, hstack, hstatus⟩ := elsewhere_keeps helsewhere hact
    rw [advance_nothing hnotices]
    exact hsound.keep hconn hnotices hinput hreceived (fun _ => hstack ▸ id) hstatus
  · rcases act_reports hsound.conn htakes hact with
      honward | ⟨hempty, hnotices, hreceived⟩ | ⟨hnotices, hreceived⟩
    · cases honward.reports with
      | nothing hnotices hinput hreceived =>
          rw [advance_nothing hnotices]
          exact hsound.keep hconn hnotices hinput hreceived (by simp [hdue]) honward.status
      | message bytes hstack hnotices hinput hreceived =>
          rw [advance_message hnotices hreceived]
          exact hsound.read hconn hdue hstack hnotices hinput hreceived honward.status
      | disconnected hnotices hinput hreceived =>
          rw [advance_tells hnotices (by decide)]
          exact ⟨hconn, hsound.received.trans hreceived.symm,
            .ended (by simp [hnotices]) (Or.inl rfl)⟩
    · rw [advance_tells (by rw [hnotices, hempty]; rfl) (by decide)]
      refine ⟨hconn, hsound.received.trans hreceived.symm, ?_⟩
      cases hsound.phase with
      | fresh _ _ hcontext hchunks => exact .connecting hnotices rfl hcontext hchunks
      | connecting hbefore | serving hbefore | receiving _ _ _ hbefore | ignored hbefore
      | ended hbefore => simp [hempty] at hbefore
    · rw [advance_tells hnotices (by decide)]
      have hended : .disconnected ∈ conn.notices :=
        (notices_end hconn).1 (by simp [hnotices])
      have hbefore : .disconnected ∈ served.conn.notices := by simpa [hnotices] using hended
      refine ⟨hconn, hsound.received.trans hreceived.symm, .ended hended (Or.inr ?_)⟩
      cases hsound.phase with
      | fresh _ _ hcontext | connecting _ _ hcontext | ignored _ _ hcontext => exact hcontext
      | serving hopen => exact absurd hbefore hopen.2
      | receiving _ _ _ hopen => exact absurd hbefore hopen.2
      | ended _ hcontext => exact hcontext.resolve_left (by simp [hdue])

/-! ## Runs -/

section Runs

variable {closeDelay : Int} {labels : List ServedLabel}

theorem run_sound (hproper : Along (step streamer batchPushPacket) Proper (new closeDelay) labels)
    (hrun : run (step streamer batchPushPacket) (new closeDelay) labels = some served) :
    served.Sound streamer batchPushPacket := by
  refine run_invariant_possible (Sound streamer batchPushPacket) (fun _ _ => rfl) ?_
    (new_sound closeDelay) hproper hrun
  intro served label hsound hpossible hproper next hnext
  cases label with
  | conn label =>
      exact forall_mem_of_exists_mem (conn_sound hsound hpossible hproper) next hnext
  | callback packetHeader => exact callback_sound hsound hnext

/-- A connection of a server that was told of and has not ended has its `ServerConnection`,
which has handled every chunk that was read from this socket, in order and nothing else; what
it has not taken is in the input buffer. The one exception is a connection that was found
disconnecting when it was told of, because another thread had closed it: it gets none, and
all that is read stays in the input buffer. Before and after, there is none. -/
theorem serves_received
    (hproper : Along (step streamer batchPushPacket) Proper (new closeDelay) labels)
    (hrun : run (step streamer batchPushPacket) (new closeDelay) labels = some served)
    (hdue : served.due = none) :
    served.chunks.flatten = served.conn.received ∧
    (.connected ∈ served.conn.notices → .disconnected ∉ served.conn.notices →
      (∃ packetHeader reader state, served.context = some (reader, state) ∧
        run (ServerConnection.onMessage streamer batchPushPacket)
          (ServerConnection.new packetHeader) served.chunks =
            some ⟨reader, state, served.conn.inputBuffer⟩) ∨
      served.context = none ∧ served.conn.status ≠ .connected ∧
        served.conn.inputBuffer = served.conn.received) ∧
    (served.conn.notices = [] ∨ .disconnected ∈ served.conn.notices → served.context = none) := by
  have hsound := run_sound hproper hrun
  refine ⟨hsound.received, fun hconnected hopen => ?_, fun hclosed => ?_⟩
  · cases hsound.phase with
    | fresh hempty => simp [hempty] at hconnected
    | connecting _ hother => simp [hdue] at hother
    | receiving _ _ _ _ hother => simp [hdue] at hother
    | serving _ _ hhandled => exact Or.inl hhandled
    | ignored _ _ hcontext hstatus hinput => exact Or.inr ⟨hcontext, hstatus, hinput⟩
    | ended hended => exact absurd hended hopen
  · cases hsound.phase with
    | fresh _ _ hcontext | connecting _ _ hcontext | ignored _ _ hcontext => exact hcontext
    | receiving _ _ _ _ hother => simp [hdue] at hother
    | serving hnotices =>
        rcases hclosed with hempty | hended
        · simp [hempty] at hnotices
        · exact absurd hended hnotices.2
    | ended _ hcontext => exact hcontext.resolve_left (by simp [hdue])

end Runs

instance decidableProper (served : Served Body) (label : ServedLabel) :
    Decidable (served.Proper label) :=
  match label with
  | .conn label => inferInstanceAs (Decidable (served.conn.Proper label))
  | .callback _ => inferInstanceAs (Decidable True)

/-- A frame arrives in two chunks. -/
def twoChunks : List ServedLabel :=
  [.conn (.runTask .retriable), .callback ⟨0, 0, 0⟩, .conn .resume,
    .conn (.handleEvent (some (.data (byteStreamer.encodeHeader ⟨5, 6, 2⟩))) false),
    .callback ⟨0, 0, 0⟩, .conn .resume, .conn (.handleEvent (some (.data [1, 2, 3])) false),
    .callback ⟨0, 0, 0⟩, .conn .resume]

theorem serves_received_twoChunks : ∃ served,
    run (step byteStreamer false) (new 5) twoChunks = some served ∧
    served.conn.inputBuffer = [3] ∧ ∃ packetHeader reader state,
      served.context = some (reader, state) ∧
      run (ServerConnection.onMessage byteStreamer false) (ServerConnection.new packetHeader)
        served.chunks = some ⟨reader, state, served.conn.inputBuffer⟩ := by
  have hproper : Along (step byteStreamer false) Proper (new 5) twoChunks := by decide
  have hfacts : (run (step byteStreamer false) (new 5) twoChunks).map (fun served =>
      (served.due, served.conn.notices, served.conn.status, served.conn.inputBuffer)) =
      some (none, [.connected, .message, .message], .connected, [3]) := by decide
  obtain ⟨served, hrun, hserved⟩ := Option.map_eq_some_iff.mp hfacts
  simp only [Prod.mk.injEq] at hserved
  obtain ⟨hdue, hnotices, hstatus, hinput⟩ := hserved
  obtain ⟨-, hserving, -⟩ := serves_received hproper hrun hdue
  have hhandled := (hserving (by simp [hnotices]) (by simp [hnotices])).resolve_right
    fun hignored => hignored.2.1 hstatus
  exact ⟨served, hrun, hinput, hhandled⟩

end Served

end Wnet
