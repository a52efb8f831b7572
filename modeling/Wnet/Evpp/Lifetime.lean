import Mathlib.Data.List.Infix
import Mathlib.Data.List.Perm.Basic
import Wnet.Evpp.TCPConn

/-!
# The lifetime of a connection

A connection is constructed, attached to its loop, live, inside of `HandleClose`, and gone.
While it is live the bytes that the socket took and the output buffer are together the
messages in the order in which they were accepted, and the loop watches for the socket to
become writable exactly while the buffer holds something.
-/

namespace Wnet.Evpp

open Foundation

/-! ## The channel -/

namespace FdChannel

/-- A channel that was not closed and watches for these events. -/
def watching (readable writable : Bool) : FdChannel where
  attached := readable || writable
  event := true
  readable
  writable

/-- A closed channel. -/
def shut : FdChannel where
  attached := false
  event := false
  readable := false
  writable := false

theorem enableReadEvent_watching (readable writable : Bool) :
    (watching readable writable).enableReadEvent = some (watching true writable) := by
  cases readable <;> cases writable <;> rfl

theorem enableWriteEvent_watching (readable writable : Bool) :
    (watching readable writable).enableWriteEvent = some (watching readable true) := by
  cases readable <;> cases writable <;> rfl

theorem disableReadEvent_watching (readable writable : Bool) :
    (watching readable writable).disableReadEvent = some (watching false writable) := by
  cases readable <;> cases writable <;> rfl

theorem disableWriteEvent_watching (readable writable : Bool) :
    (watching readable writable).disableWriteEvent = some (watching readable false) := by
  cases readable <;> cases writable <;> rfl

theorem disableAllEvent_watching (readable writable : Bool) :
    (watching readable writable).disableAllEvent = some (watching false false) := by
  cases readable <;> cases writable <;> rfl

theorem close_watching : (watching false false).close = some shut := rfl

end FdChannel

namespace TCPConn

variable {conn : TCPConn}

/-! ## What holds in each part of the lifetime -/

/-- The messages that were queued are those accepted from the queue, those given up and those
still in it. -/
def Handed (conn : TCPConn) (givenUp : List Bytes) : Prop :=
  conn.posted = conn.acceptedQueued ++ givenUp ++ conn.tasks.filterMap ConnTask.message

/-- What always holds. -/
structure Steady (conn : TCPConn) : Prop where
  bottom : .writing ∉ conn.stack.dropLast
  taken : conn.taken ++ conn.inputBuffer = conn.received
  calling : ∀ task ∈ conn.calling, task = .handleClose ∨ task.message.isSome = true

/-- The connection was not attached to its loop. -/
structure Fresh (conn : TCPConn) : Prop where
  status : conn.status = .disconnected
  chan : conn.chan = .watching false false
  buffers : conn.outputBuffer = [] ∧ conn.accepted = [] ∧ conn.written = [] ∧ conn.posted = []
  timer : conn.delayCloseTimer = false ∧ conn.waiting = false
  tasks : conn.tasks = [.onAttachedToLoop]
  calling : conn.calling = []
  stack : conn.stack = []
  notices : conn.notices = []

/-- `HandleClose` can be called. -/
structure Closable (conn : TCPConn) : Prop where
  chan : ∃ readable writable, conn.chan = .watching readable writable
  written : conn.written <+: conn.acceptedBytes
  handed : conn.Handed []
  tasks : .onAttachedToLoop ∉ conn.tasks
  stack : ∀ frame ∈ conn.stack, frame.isClosing = false
  notices : ∃ count, conn.notices = .connected :: List.replicate count .message

/-- The channel is open, and these bytes of the last message are neither written nor
buffered yet. -/
structure Live (conn : TCPConn) (held : Bytes) : Prop extends Closable conn where
  bytes : conn.written ++ conn.outputBuffer ++ held = conn.acceptedBytes
  writable : conn.chan.writable = true ↔ conn.outputBuffer ≠ []
  writing : .writing ∈ conn.stack → conn.outputBuffer ≠ []
  status : conn.status = .connected ∧ .handleClose ∉ conn.tasks ++ conn.calling ∨
    conn.status = .disconnecting ∧ .handleClose ∈ conn.tasks ++ conn.calling
  -- Only a connection that is going to be closed by the timer has stopped reading.
  reading : conn.chan.readable = true ∨ conn.waiting = true
  timer : conn.waiting = conn.delayCloseTimer
  cancel : .cancelTimer ∉ conn.tasks

/-- The channel was closed. -/
structure Shut (conn : TCPConn) : Prop where
  chan : conn.chan = .shut
  written : conn.written <+: conn.acceptedBytes
  tasks : .onAttachedToLoop ∉ conn.tasks
  timer : conn.delayCloseTimer = false

/-- `HandleClose` is calling back. -/
structure Closing (conn : TCPConn) : Prop extends Shut conn where
  status : conn.status = .disconnecting
  handed : conn.Handed []
  stack : ∃ frame below count, conn.stack = frame :: below ∧
    (∀ frame ∈ below, frame.isClosing = false) ∧
    (frame = .closing ∧
      conn.notices = .connected :: List.replicate count .message ++ [.disconnected] ∨
    frame = .closed ∧
      conn.notices = .connected :: List.replicate count .message ++ [.disconnected, .closed])

structure Gone (conn : TCPConn) : Prop extends Shut conn where
  status : conn.status = .disconnected
  handed : ∃ givenUp, conn.Handed givenUp
  stack : ∀ frame ∈ conn.stack, frame.isClosing = false
  notices : ∃ count,
    conn.notices = .connected :: List.replicate count .message ++ [.disconnected, .closed]

/-- The part of its lifetime that a connection is in. -/
inductive Part (conn : TCPConn) : Prop
  | fresh (hfresh : conn.Fresh)
  | live (hlive : conn.Live [])
  | closing (hclosing : conn.Closing)
  | gone (hgone : conn.Gone)

structure Sound (conn : TCPConn) : Prop where
  steady : conn.Steady
  part : conn.Part

/-- The steps after which the assertions hold. -/
def Proper (conn : TCPConn) : ConnLabel → Prop
  | .close | .timer => conn.status ≠ .disconnected
  | .sendInLoop checked _ _ =>
      checked = true ∨ conn.chan.event = true ∨ conn.status = .disconnected
  | _ => True

theorem new_sound (type : ConnType) (closeDelay : Int) (mark : Nat) (markFn : Bool) :
    (new type closeDelay mark markFn).Sound where
  steady := ⟨by simp [new], rfl, by simp [new]⟩
  part := .fresh ⟨rfl, rfl, ⟨rfl, rfl, rfl, rfl⟩, ⟨rfl, rfl⟩, rfl, rfl, rfl, rfl⟩

/-! ## Closing -/

/-- The connection whose channel `HandleClose` has closed. -/
def shutDown (conn : TCPConn) : TCPConn :=
  { conn with
    chan := .shut
    tasks := conn.tasks ++ if conn.delayCloseTimer then [ConnTask.cancelTimer] else []
    delayCloseTimer := false }

theorem handleClose_closable (hclosable : conn.Closable) (hstatus : conn.status = .disconnecting) :
    conn.handleClose = some (conn.shutDown.callback .closing .disconnected) := by
  obtain ⟨readable, writable, hchan⟩ := hclosable.chan
  rw [handleClose, if_neg (by simp [hstatus]), if_neg (by simp [hstatus]), hchan,
    FdChannel.disableAllEvent_watching]
  cases htimer : conn.delayCloseTimer <;>
    simp [FdChannel.close_watching, shutDown, htimer]

theorem Closable.closing (hclosable : conn.Closable) (hstatus : conn.status = .disconnecting) :
    (conn.shutDown.callback .closing .disconnected).Closing where
  chan := rfl
  written := hclosable.written
  tasks := by
    have htasks := hclosable.tasks
    cases htimer : conn.delayCloseTimer <;> simp [shutDown, callback, htimer, htasks]
  timer := rfl
  status := hstatus
  handed := by
    have hhanded : conn.Handed [] := hclosable.handed
    have hmessages : conn.shutDown.tasks.filterMap ConnTask.message =
        conn.tasks.filterMap ConnTask.message := by
      cases htimer : conn.delayCloseTimer <;> simp [shutDown, htimer, ConnTask.message]
    change conn.posted = _ ++ conn.shutDown.tasks.filterMap ConnTask.message
    rw [hmessages]
    exact hhanded
  stack := by
    obtain ⟨count, hnotices⟩ := hclosable.notices
    refine ⟨.closing, conn.stack, count, rfl, hclosable.stack, Or.inl ⟨rfl, ?_⟩⟩
    exact congrArg (· ++ [ConnNotice.disconnected]) hnotices

theorem Steady.callback (hsteady : conn.Steady) {frame : ConnFrame} (hframe : frame ≠ .writing)
    (notice : ConnNotice) : (conn.callback frame notice).Steady where
  bottom := by
    have hbottom := hsteady.bottom
    change .writing ∉ (frame :: conn.stack).dropLast
    cases hstack : conn.stack with
    | nil => simp
    | cons top below =>
        rw [hstack] at hbottom
        rw [List.dropLast_cons_cons, List.mem_cons, not_or]
        exact ⟨hframe.symm, hbottom⟩
  taken := hsteady.taken
  calling := hsteady.calling

/-- `HandleClose` on a connection whose channel is open. -/
theorem handleClose_sound (hsteady : conn.Steady) (hclosable : conn.Closable)
    (hstatus : conn.status = .disconnecting) : ∃ next ∈ conn.handleClose, next.Sound := by
  have hshutDown : conn.shutDown.Steady := ⟨hsteady.bottom, hsteady.taken, hsteady.calling⟩
  exact ⟨_, handleClose_closable hclosable hstatus, hshutDown.callback (by decide) _,
    .closing (hclosable.closing hstatus)⟩

theorem handleError_sound (hsteady : conn.Steady) (hclosable : conn.Closable) :
    ∃ next ∈ conn.handleError, next.Sound :=
  handleClose_sound ⟨hsteady.bottom, hsteady.taken, hsteady.calling⟩
    { hclosable with } rfl

theorem delayClose_sound (hsteady : conn.Steady) (hclosable : conn.Closable) :
    ∃ next ∈ conn.delayClose, next.Sound :=
  handleClose_sound ⟨hsteady.bottom, hsteady.taken, hsteady.calling⟩
    { hclosable with } rfl

/-! ## Sending -/

theorem Live.warn {held : Bytes} (hlive : conn.Live held) (size : Nat) :
    (conn.warn size).Live held := by
  unfold TCPConn.warn
  split
  next =>
    refine { hlive with handed := ?_, tasks := ?_, status := ?_, cancel := ?_ }
    · have hhanded : conn.Handed [] := hlive.handed
      simpa [Handed, acceptedQueued, List.filterMap_cons, ConnTask.message] using hhanded
    · simpa using hlive.tasks
    · simpa using hlive.status
    · simpa using hlive.cancel
  next => exact hlive

theorem Steady.warn (hsteady : conn.Steady) (size : Nat) : (conn.warn size).Steady := by
  unfold TCPConn.warn
  split <;> exact ⟨hsteady.bottom, hsteady.taken, hsteady.calling⟩

/-- The rest of a message goes to the output buffer, and the channel watches for the socket to
become writable. -/
theorem buffer_live {held : Bytes} (hheld : held ≠ []) (hlive : conn.Live held) :
    ∃ chan, (if conn.chan.writable then some conn.chan else conn.chan.enableWriteEvent) =
      some chan ∧ { conn with chan, outputBuffer := conn.outputBuffer ++ held }.Live [] := by
  obtain ⟨readable, writable, hchan⟩ := hlive.chan
  have hreading := hlive.reading
  rw [hchan] at hreading
  refine ⟨.watching readable true, ?_, { hlive with
    chan := ⟨readable, true, rfl⟩
    bytes := ?_
    writable := by simp [FdChannel.watching, hheld]
    writing := fun _ => by simp [hheld]
    reading := hreading }⟩
  · rw [hchan, FdChannel.enableWriteEvent_watching]
    cases writable <;> rfl
  · rw [List.append_nil, ← List.append_assoc]
    exact hlive.bytes

theorem keep_sound {held : Bytes} (hsteady : conn.Steady) (hlive : conn.Live held) :
    ∃ next ∈ conn.keep held, next.Sound := by
  by_cases hheld : held = []
  · subst hheld
    exact ⟨conn, by rw [keep, if_pos rfl]; rfl, hsteady, .live hlive⟩
  · have hwarned := hsteady.warn (conn.outputBuffer.length + held.length)
    obtain ⟨chan, hchan, hbuffered⟩ :=
      buffer_live hheld (hlive.warn (conn.outputBuffer.length + held.length))
    rw [keep, if_neg hheld]
    simp only [hchan]
    exact ⟨_, rfl, ⟨hwarned.bottom, hwarned.taken, hwarned.calling⟩, .live hbuffered⟩

/-- A connection with an open channel is not disconnected. -/
theorem Live.status_ne {held : Bytes} (hlive : conn.Live held) : conn.status ≠ .disconnected := by
  rcases hlive.status with ⟨hstatus, -⟩ | ⟨hstatus, -⟩ <;> simp [hstatus]

theorem Closable.event (hclosable : conn.Closable) : conn.chan.event = true := by
  obtain ⟨readable, writable, hchan⟩ := hclosable.chan
  rw [hchan]
  rfl

theorem sendAccepted_sound {message : Bytes} {result : SendResult} (hsteady : conn.Steady)
    (hlive : conn.Live message) : ∃ next ∈ conn.sendAccepted message result, next.Sound := by
  unfold sendAccepted
  split
  next hdirect =>
    have hempty : conn.outputBuffer = [] := hdirect.2
    cases result with
    | sent count =>
        have hbytes : conn.written ++ message = conn.acceptedBytes := by
          simpa [hempty] using hlive.bytes
        have hsplit : conn.written ++ message.take count ++ message.drop count =
            conn.acceptedBytes := by
          rw [List.append_assoc, List.take_append_drop, hbytes]
        refine keep_sound ⟨hsteady.bottom, hsteady.taken, hsteady.calling⟩ { hlive with
          written := ⟨_, hsplit⟩
          bytes := ?_ }
        rw [hempty, List.append_nil]
        exact hsplit
    | reset => exact handleError_sound hsteady hlive.toClosable
    | retriable | failed => exact keep_sound hsteady hlive
  next => exact keep_sound hsteady hlive

/-- A message from the application is accepted. -/
theorem Live.accept (hlive : conn.Live []) (message : Bytes) :
    (conn.accept false message).Live message := by
  have hall : (conn.accept false message).acceptedBytes = conn.acceptedBytes ++ message := by
    simp [acceptedBytes, TCPConn.accept]
  refine { hlive with written := ?_, handed := ?_, bytes := ?_ }
  · rw [hall]
    exact hlive.written.trans (List.prefix_append _ _)
  · have hhanded : conn.Handed [] := hlive.handed
    simpa [Handed, acceptedQueued, TCPConn.accept] using hhanded
  · rw [hall, ← hlive.bytes, List.append_nil]
    rfl

/-- The loop takes a functor other than `HandleClose` from the queue. -/
theorem Live.rest {task : ConnTask} {tasks : List ConnTask} (hlive : conn.Live [])
    (htasks : conn.tasks = task :: tasks) (hother : task ≠ .handleClose) :
    .onAttachedToLoop ∉ tasks ∧ .cancelTimer ∉ tasks ∧
      (conn.status = .connected ∧ .handleClose ∉ tasks ++ conn.calling ∨
        conn.status = .disconnecting ∧ .handleClose ∈ tasks ++ conn.calling) := by
  have hattached := hlive.tasks
  have hcancel := hlive.cancel
  have hstatus := hlive.status
  rw [htasks] at hattached hcancel hstatus
  refine ⟨fun hmem => hattached (List.mem_cons_of_mem _ hmem),
    fun hmem => hcancel (List.mem_cons_of_mem _ hmem), ?_⟩
  simpa [hother.symm] using hstatus

/-- A message from the task queue is accepted. -/
theorem Live.acceptQueued {message : Bytes} {tasks : List ConnTask} (hlive : conn.Live [])
    (htasks : conn.tasks = .sendStringInLoop message :: tasks) :
    (TCPConn.accept { conn with tasks } true message).Live message := by
  have hall : (TCPConn.accept { conn with tasks } true message).acceptedBytes =
      conn.acceptedBytes ++ message := by simp [acceptedBytes, TCPConn.accept]
  obtain ⟨hattached, hcancel, hstatus⟩ := hlive.rest htasks (by simp)
  refine { hlive with
    written := ?_
    handed := ?_
    tasks := hattached
    bytes := ?_
    status := hstatus
    cancel := hcancel }
  · rw [hall]
    exact hlive.written.trans (List.prefix_append _ _)
  · have hhanded : conn.Handed [] := hlive.handed
    rw [Handed, htasks] at hhanded
    simpa [Handed, acceptedQueued, List.filterMap_cons, ConnTask.message, TCPConn.accept] using
      hhanded
  · rw [hall, ← hlive.bytes, List.append_nil]
    rfl

/-- `HandleWrite` of an open channel with a full socket. -/
theorem handleWrite_sound {result : SendResult} (hsteady : conn.Steady) (hlive : conn.Live [])
    (hbuffered : conn.outputBuffer ≠ []) (hwriting : .writing ∉ conn.stack) :
    ∃ next ∈ conn.handleWrite result, next.Sound := by
  have hwritable : conn.chan.writable = true := hlive.writable.mpr hbuffered
  unfold handleWrite
  rw [if_neg (by simp [hwritable])]
  cases result with
  | sent count =>
      obtain ⟨readable, writable, hchan⟩ := hlive.chan
      have hreading := hlive.reading
      rw [hchan] at hreading
      have hbytes : conn.written ++ conn.outputBuffer = conn.acceptedBytes := by
        simpa using hlive.bytes
      have hsplit : conn.written ++ conn.outputBuffer.take count ++
          conn.outputBuffer.drop count = conn.acceptedBytes := by
        rw [List.append_assoc, List.take_append_drop, hbytes]
      have hchannel : (if conn.outputBuffer.drop count = [] then conn.chan.disableWriteEvent
          else some conn.chan) =
          some (.watching readable (decide (conn.outputBuffer.drop count ≠ []))) := by
        rw [hchan] at hwritable ⊢
        obtain rfl : writable = true := hwritable
        rw [FdChannel.disableWriteEvent_watching]
        split <;> simp [*]
      simp only [hchannel]
      exact ⟨_, rfl, ⟨hsteady.bottom, hsteady.taken, hsteady.calling⟩, .live { hlive with
        chan := ⟨_, _, rfl⟩
        written := ⟨_, hsplit⟩
        bytes := by rw [List.append_nil]; exact hsplit
        writable := by simp [FdChannel.watching]
        writing := fun hmem => absurd hmem hwriting
        reading := hreading }⟩
  | retriable => exact ⟨conn, rfl, hsteady, .live hlive⟩
  | reset | failed => exact handleError_sound hsteady hlive.toClosable

/-! ## Reading -/

theorem handleRead_sound {result : ReadResult} (hsteady : conn.Steady) (hlive : conn.Live []) :
    ∃ next ∈ conn.handleRead result, next.Sound := by
  cases result with
  | data bytes =>
      have hread : { conn with
          inputBuffer := conn.inputBuffer ++ bytes
          received := conn.received ++ bytes }.Steady :=
        ⟨hsteady.bottom, by rw [← hsteady.taken, List.append_assoc], hsteady.calling⟩
      refine ⟨_, rfl, hread.callback (by decide) _, .live { hlive with
        stack := ?_
        notices := ?_
        writing := ?_ }⟩
      · intro frame hframe
        rcases List.mem_cons.mp hframe with rfl | hbelow
        · rfl
        · exact hlive.stack frame hbelow
      · obtain ⟨count, hnotices⟩ := hlive.notices
        refine ⟨count + 1, ?_⟩
        change conn.notices ++ [.message] = _
        rw [hnotices, List.replicate_succ', List.cons_append]
      · intro hmem
        exact hlive.writing (by simpa [callback] using hmem)
  | eof =>
      rw [handleRead]
      split
      next =>
        exact handleClose_sound ⟨hsteady.bottom, hsteady.taken, hsteady.calling⟩
          { hlive.toClosable with } rfl
      next =>
        obtain ⟨readable, writable, hchan⟩ := hlive.chan
        have hwritable := hlive.writable
        rw [hchan] at hwritable
        rw [hchan, FdChannel.disableReadEvent_watching]
        simp only [Option.bind_eq_bind, Option.bind_some]
        split
        next =>
          exact delayClose_sound ⟨hsteady.bottom, hsteady.taken, hsteady.calling⟩
            { hlive.toClosable with chan := ⟨false, writable, rfl⟩ }
        next =>
          exact ⟨_, rfl, ⟨hsteady.bottom, hsteady.taken, hsteady.calling⟩, .live { hlive with
            chan := ⟨false, writable, rfl⟩
            writable := hwritable
            reading := Or.inr rfl
            timer := rfl }⟩
  | retriable => exact ⟨conn, rfl, hsteady, .live hlive⟩
  | failed => exact handleError_sound hsteady hlive.toClosable

/-! ## One step -/

theorem Steady.queueInLoop (hsteady : conn.Steady) (tasks : List ConnTask) (posted : List Bytes)
    (task : ConnTask) :
    { conn with tasks, calling := conn.calling.erase task, posted }.Steady :=
  ⟨hsteady.bottom, hsteady.taken,
    fun other hother => hsteady.calling other (List.mem_of_mem_erase hother)⟩

theorem Steady.take (hsteady : conn.Steady) (count : Nat) : { conn with
    inputBuffer := conn.inputBuffer.drop count
    taken := conn.taken ++ conn.inputBuffer.take count }.Steady :=
  ⟨hsteady.bottom, by
    rw [List.append_assoc, List.take_append_drop]
    exact hsteady.taken, hsteady.calling⟩

theorem Steady.pop {frame : ConnFrame} {below : List ConnFrame} (hsteady : conn.Steady)
    (hstack : conn.stack = frame :: below) : { conn with stack := below }.Steady := by
  refine ⟨fun hmem => hsteady.bottom ?_, hsteady.taken, hsteady.calling⟩
  rw [hstack]
  cases below with
  | nil => cases hmem
  | cons top below =>
      rw [List.dropLast_cons_cons]
      exact List.mem_cons_of_mem _ hmem

/-- `HandleEvent` is the lowest function on the stack. -/
theorem Steady.below {below : List ConnFrame} (hsteady : conn.Steady)
    (hstack : conn.stack = .writing :: below) : below = [] := by
  cases below with
  | nil => rfl
  | cons top below =>
      refine absurd ?_ hsteady.bottom
      rw [hstack, List.dropLast_cons_cons]
      exact List.mem_cons_self

theorem mem_queueInLoop {task other : ConnTask} {calling : List ConnTask} (tasks : List ConnTask)
    (hmem : task ∈ calling) :
    other ∈ tasks ++ [task] ++ calling.erase task ↔ other ∈ tasks ++ calling := by
  rw [List.append_assoc, List.singleton_append]
  exact ((List.perm_cons_erase hmem).symm.append_left tasks).mem_iff

theorem Live.enter {write : Bool} (hlive : conn.Live []) (hsteady : conn.Steady)
    (hstack : conn.stack = []) (hwrite : write = true → conn.chan.writable = true) :
    (conn.enter write).Steady ∧ (conn.enter write).Live [] := by
  cases write with
  | false => exact ⟨hsteady, hlive⟩
  | true =>
      have hbuffered := hlive.writable.mp (hwrite rfl)
      exact ⟨⟨by simp [TCPConn.enter, hstack], hsteady.taken, hsteady.calling⟩, { hlive with
        stack := by simp [TCPConn.enter, hstack, ConnFrame.isClosing]
        writing := fun _ => hbuffered }⟩

/-- A functor that is queued keeps the messages in order. -/
theorem Handed.queueInLoop {givenUp : List Bytes} (hhanded : conn.Handed givenUp)
    (task : ConnTask) (calling : List ConnTask) : Handed { conn with
      tasks := conn.tasks ++ [task]
      calling
      posted := conn.posted ++ task.message.toList } givenUp := by
  have hqueue : [task].filterMap ConnTask.message = task.message.toList := by
    cases hmessage : task.message <;> simp [hmessage]
  rw [Handed, List.filterMap_append, hqueue, ← List.append_assoc]
  exact congrArg (· ++ task.message.toList) hhanded

/-- The loop takes a functor that sends nothing. -/
theorem Handed.rest {givenUp : List Bytes} {task : ConnTask} {tasks : List ConnTask}
    (hhanded : conn.Handed givenUp) (htasks : conn.tasks = task :: tasks)
    (hmessage : task.message = none) : Handed { conn with tasks } givenUp := by
  rw [Handed, htasks, List.filterMap_cons_none hmessage] at hhanded
  exact hhanded

/-- The connection that `OnAttachedToLoop` reports. -/
theorem Fresh.attached_live (hfresh : conn.Fresh) :
    (TCPConn.callback { conn with
      tasks := []
      status := .connected
      chan := .watching true false } .attached .connected).Live [] where
  chan := ⟨true, false, rfl⟩
  written := hfresh.buffers.2.2.1 ▸ List.nil_prefix
  handed := by simp [Handed, acceptedQueued, callback, hfresh.buffers]
  tasks := by simp [callback]
  stack := by simp [callback, hfresh.stack, ConnFrame.isClosing]
  notices := ⟨0, by simp [callback, hfresh.notices]⟩
  bytes := by simp [acceptedBytes, callback, hfresh.buffers]
  writable := by simp [callback, FdChannel.watching, hfresh.buffers]
  writing := by simp [callback, hfresh.stack]
  status := Or.inl ⟨rfl, by simp [callback, hfresh.calling]⟩
  reading := Or.inl rfl
  timer := by simp [callback, hfresh.timer]
  cancel := by simp [callback]

theorem Fresh.act_sound {label : ConnLabel} (hfresh : conn.Fresh) (hsteady : conn.Steady)
    (hpossible : conn.Possible label) (hproper : conn.Proper label) :
    ∃ next ∈ conn.act label, next.Sound := by
  have hstatus := hfresh.status
  have hstack := hfresh.stack
  cases label with
  | send message =>
      exact ⟨conn, by simp [act, hstatus], hsteady, .fresh hfresh⟩
  | close => exact absurd hstatus hproper
  | queueInLoop task =>
      have hmem : task ∈ conn.calling := hpossible
      rw [hfresh.calling] at hmem
      cases hmem
  | handleEvent read write =>
      have hattached := hpossible.2.1
      rw [hfresh.chan] at hattached
      cases hattached
  | handleWrite result =>
      have hwriting := hpossible.1
      rw [hstack] at hwriting
      cases hwriting
  | resume =>
      obtain ⟨frame, hframe, -⟩ := hpossible
      rw [hstack] at hframe
      cases hframe
  | sendInLoop checked message result =>
      refine ⟨conn, ?_, hsteady, .fresh hfresh⟩
      cases checked <;> simp [act, sendInLoop, hstatus]
  | next count =>
      have hmem := hpossible.1
      rw [hstack] at hmem
      cases hmem
  | runTask result =>
      simp only [act, hfresh.tasks, runTask, onAttachedToLoop, hfresh.chan,
        FdChannel.enableReadEvent_watching]
      have hattached : { conn with
          tasks := []
          status := .connected
          chan := .watching true false }.Steady :=
        ⟨hsteady.bottom, hsteady.taken, hsteady.calling⟩
      exact ⟨_, rfl, hattached.callback (by decide) _, .live hfresh.attached_live⟩
  | timer =>
      have hwaiting := hpossible.2
      rw [hfresh.timer.2] at hwaiting
      cases hwaiting

theorem Live.act_sound {label : ConnLabel} (hlive : conn.Live []) (hsteady : conn.Steady)
    (hpossible : conn.Possible label) : ∃ next ∈ conn.act label, next.Sound := by
  have hcalling : ∀ {task : ConnTask}, task ∈ conn.calling →
      task ≠ .onAttachedToLoop ∧ task ≠ .cancelTimer := by
    intro task hmem
    rcases hsteady.calling task hmem with rfl | hmessage
    · exact ⟨by simp, by simp⟩
    · constructor <;> rintro rfl <;> simp [ConnTask.message] at hmessage
  cases label with
  | send message =>
      rw [act]
      split
      next hstatus =>
        refine ⟨_, rfl, ⟨hsteady.bottom, hsteady.taken, ?_⟩, .live { hlive with status := ?_ }⟩
        · intro task hmem
          rcases List.mem_cons.mp hmem with rfl | hbefore
          · exact Or.inr rfl
          · exact hsteady.calling task hbefore
        · have hbefore := hlive.status
          simpa using hbefore
      next => exact ⟨conn, rfl, hsteady, .live hlive⟩
  | close =>
      refine ⟨_, rfl, ⟨hsteady.bottom, hsteady.taken, ?_⟩, .live { hlive with
        status := Or.inr ⟨rfl, by simp⟩ }⟩
      intro task hmem
      rcases List.mem_cons.mp hmem with rfl | hbefore
      · exact Or.inl rfl
      · exact hsteady.calling task hbefore
  | queueInLoop task =>
      have hmem : task ∈ conn.calling := hpossible
      refine ⟨_, rfl, hsteady.queueInLoop _ _ task, .live { hlive with
        handed := Handed.queueInLoop hlive.handed task _
        tasks := ?_
        status := ?_
        cancel := ?_ }⟩
      · simpa [(hcalling hmem).1.symm] using hlive.tasks
      · have hsame : .handleClose ∈ conn.tasks ++ [task] ++ conn.calling.erase task ↔
            .handleClose ∈ conn.tasks ++ conn.calling := mem_queueInLoop conn.tasks hmem
        exact hlive.status.imp (And.imp_right (mt hsame.mp)) (And.imp_right hsame.mpr)
      · simpa [(hcalling hmem).2.symm] using hlive.cancel
  | handleEvent read write =>
      obtain ⟨hsteady, hlive⟩ := hlive.enter hsteady hpossible.1 hpossible.2.2.1
      cases read with
      | none => exact ⟨_, rfl, hsteady, .live hlive⟩
      | some result => exact handleRead_sound hsteady hlive
  | handleWrite result =>
      obtain ⟨below, hstack⟩ := List.head?_eq_some_iff.mp hpossible.1
      have hbelow := hsteady.below hstack
      subst hbelow
      have hact :
          conn.act (.handleWrite result) = handleWrite { conn with stack := [] } result := by
        simp [act, hstack, hlive.toClosable.event]
      rw [hact]
      exact handleWrite_sound (hsteady.pop hstack)
        { hlive with stack := by simp, writing := by simp } (hlive.writing (by simp [hstack]))
        (by simp)
  | resume =>
      obtain ⟨frame, hframe, hother⟩ := hpossible
      obtain ⟨below, hstack⟩ := List.head?_eq_some_iff.mp hframe
      have hcloses := hlive.stack frame (by simp [hstack])
      have hbelow : { conn with stack := below }.Live [] := { hlive with
        stack := fun other hmem => hlive.stack other (by simp [hstack, hmem])
        writing := fun hmem => hlive.writing (by
          rw [hstack]
          exact List.mem_cons_of_mem _ hmem) }
      have hresume : conn.resume conn.stack = some { conn with stack := below } := by
        rw [hstack]
        cases frame with
        | writing => exact absurd rfl hother
        | attached | message => rfl
        | closing | closed => cases hcloses
      exact ⟨_, hresume, hsteady.pop hstack, .live hbelow⟩
  | sendInLoop checked message result =>
      rw [act]
      split
      next => exact ⟨conn, rfl, hsteady, .live hlive⟩
      next =>
        rw [sendInLoop, if_neg hlive.status_ne]
        exact sendAccepted_sound ⟨hsteady.bottom, hsteady.taken, hsteady.calling⟩
          (hlive.accept message)
  | next count => exact ⟨_, rfl, hsteady.take count, .live { hlive with }⟩
  | runTask result =>
      obtain ⟨-, task, hhead, -⟩ := hpossible
      obtain ⟨tasks, htasks⟩ := List.head?_eq_some_iff.mp hhead
      have hrest : { conn with tasks }.Steady := ⟨hsteady.bottom, hsteady.taken, hsteady.calling⟩
      simp only [act, htasks]
      cases task with
      | onAttachedToLoop => exact absurd (by simp [htasks]) hlive.tasks
      | cancelTimer => exact absurd (by simp [htasks]) hlive.cancel
      | sendStringInLoop message =>
          rw [runTask, sendInLoop, if_neg (by exact hlive.status_ne)]
          exact sendAccepted_sound ⟨hsteady.bottom, hsteady.taken, hsteady.calling⟩
            (hlive.acceptQueued htasks)
      | handleClose =>
          rcases hlive.status with ⟨-, hnot⟩ | ⟨hstatus, -⟩
          · exact absurd (by simp [htasks]) hnot
          · refine handleClose_sound hrest { hlive.toClosable with
              handed := hlive.handed.rest htasks rfl
              tasks := fun hmem => hlive.tasks ?_ } hstatus
            rw [htasks]
            exact List.mem_cons_of_mem _ hmem
      | highWaterMark size =>
          obtain ⟨hattached, hcancel, hstatus⟩ := hlive.rest htasks (by simp)
          exact ⟨_, rfl, ⟨hsteady.bottom, hsteady.taken, hsteady.calling⟩, .live { hlive with
            handed := hlive.handed.rest htasks rfl
            tasks := hattached
            status := hstatus
            cancel := hcancel }⟩
  | timer =>
      exact delayClose_sound ⟨hsteady.bottom, hsteady.taken, hsteady.calling⟩
        { hlive.toClosable with }

theorem Closing.act_sound {label : ConnLabel} (hclosing : conn.Closing) (hsteady : conn.Steady)
    (hpossible : conn.Possible label) (hproper : conn.Proper label) :
    ∃ next ∈ conn.act label, next.Sound := by
  obtain ⟨frame, below, count, hstack, hbelow, hframe⟩ := hclosing.stack
  have hstatus := hclosing.status
  have hcloses : frame ≠ .writing := by
    rcases hframe with ⟨rfl, -⟩ | ⟨rfl, -⟩ <;> simp
  cases label with
  | send message => exact ⟨conn, by simp [act, hstatus], hsteady, .closing hclosing⟩
  | close =>
      refine ⟨_, rfl, ⟨hsteady.bottom, hsteady.taken, ?_⟩, .closing { hclosing with
        status := rfl }⟩
      intro task hmem
      rcases List.mem_cons.mp hmem with rfl | hbefore
      · exact Or.inl rfl
      · exact hsteady.calling task hbefore
  | queueInLoop task =>
      have hattached : ConnTask.onAttachedToLoop ≠ task := by
        rintro rfl
        rcases hsteady.calling _ hpossible with h | h <;> simp [ConnTask.message] at h
      exact ⟨_, rfl, hsteady.queueInLoop _ _ task, .closing { hclosing with
        handed := Handed.queueInLoop hclosing.handed task _
        tasks := by simpa [hattached] using hclosing.tasks }⟩
  | handleEvent read write =>
      have hempty := hpossible.1
      rw [hstack] at hempty
      cases hempty
  | handleWrite result =>
      have hwriting := hpossible.1
      rw [hstack, List.head?_cons, Option.some.injEq] at hwriting
      exact absurd hwriting hcloses
  | resume =>
      rcases hframe with ⟨rfl, hnotices⟩ | ⟨rfl, hnotices⟩
      · have hpop := hsteady.pop hstack
        refine ⟨_, by rw [act, hstack]; rfl, hpop.callback (by decide) _, .closing { hclosing with
          stack := ⟨.closed, below, count, rfl, hbelow, Or.inr ⟨rfl, ?_⟩⟩ }⟩
        change conn.notices ++ [.closed] = _
        rw [hnotices, List.append_assoc]
        rfl
      · have hpop := hsteady.pop hstack
        exact ⟨{ conn with status := .disconnected, stack := below },
          by rw [act, hstack]; rfl, ⟨hpop.bottom, hpop.taken, hpop.calling⟩,
          .gone { hclosing with
            status := rfl
            handed := ⟨[], hclosing.handed⟩
            stack := hbelow
            notices := ⟨count, hnotices⟩ }⟩
  | sendInLoop checked message result =>
      rcases hproper with rfl | hevent | hgone
      · exact ⟨conn, by simp [act, hstatus], hsteady, .closing hclosing⟩
      · rw [hclosing.chan] at hevent
        cases hevent
      · rw [hstatus] at hgone
        cases hgone
  | next count => exact ⟨_, rfl, hsteady.take count, .closing { hclosing with }⟩
  | runTask result =>
      have hempty := hpossible.1
      rw [hstack] at hempty
      cases hempty
  | timer =>
      have hempty := hpossible.1
      rw [hstack] at hempty
      cases hempty

theorem Gone.act_sound {label : ConnLabel} (hgone : conn.Gone) (hsteady : conn.Steady)
    (hpossible : conn.Possible label) (hproper : conn.Proper label) :
    ∃ next ∈ conn.act label, next.Sound := by
  have hstatus := hgone.status
  cases label with
  | send message => exact ⟨conn, by simp [act, hstatus], hsteady, .gone hgone⟩
  | close => exact absurd hstatus hproper
  | timer => exact absurd hstatus hproper
  | queueInLoop task =>
      have hattached : ConnTask.onAttachedToLoop ≠ task := by
        rintro rfl
        rcases hsteady.calling _ hpossible with h | h <;> simp [ConnTask.message] at h
      obtain ⟨givenUp, hhanded⟩ := hgone.handed
      exact ⟨_, rfl, hsteady.queueInLoop _ _ task, .gone { hgone with
        handed := ⟨givenUp, hhanded.queueInLoop task _⟩
        tasks := by simpa [hattached] using hgone.tasks }⟩
  | handleEvent read write =>
      have hattached := hpossible.2.1
      rw [hgone.chan] at hattached
      cases hattached
  | handleWrite result =>
      obtain ⟨below, hstack⟩ := List.head?_eq_some_iff.mp hpossible.1
      refine ⟨{ conn with stack := below }, ?_, hsteady.pop hstack, .gone { hgone with
        stack := fun frame hmem => hgone.stack frame (by simp [hstack, hmem]) }⟩
      simp [act, hstack, hgone.chan, FdChannel.shut]
  | resume =>
      obtain ⟨frame, hframe, hother⟩ := hpossible
      obtain ⟨below, hstack⟩ := List.head?_eq_some_iff.mp hframe
      have hcloses := hgone.stack frame (by simp [hstack])
      refine ⟨{ conn with stack := below }, ?_, hsteady.pop hstack, .gone { hgone with
        stack := fun frame hmem => hgone.stack frame (by simp [hstack, hmem]) }⟩
      rw [act, hstack]
      cases frame with
      | writing => exact absurd rfl hother
      | attached | message => rfl
      | closing | closed => cases hcloses
  | sendInLoop checked message result =>
      refine ⟨conn, ?_, hsteady, .gone hgone⟩
      cases checked <;> simp [act, sendInLoop, hstatus]
  | next count => exact ⟨_, rfl, hsteady.take count, .gone { hgone with }⟩
  | runTask result =>
      obtain ⟨-, task, hhead, -⟩ := hpossible
      obtain ⟨tasks, htasks⟩ := List.head?_eq_some_iff.mp hhead
      obtain ⟨givenUp, hhanded⟩ := hgone.handed
      have hattached : .onAttachedToLoop ∉ tasks := fun hmem =>
        hgone.tasks (by rw [htasks]; exact List.mem_cons_of_mem _ hmem)
      have hrest : { conn with tasks }.Steady := ⟨hsteady.bottom, hsteady.taken, hsteady.calling⟩
      simp only [act, htasks]
      cases task with
      | onAttachedToLoop => exact absurd (by simp [htasks]) hgone.tasks
      | sendStringInLoop message =>
          refine ⟨{ conn with tasks }, by simp [runTask, sendInLoop, hstatus], hrest,
            .gone { hgone with handed := ⟨givenUp ++ [message], ?_⟩, tasks := hattached }⟩
          rw [Handed, htasks] at hhanded
          simpa [Handed, acceptedQueued, List.filterMap_cons, ConnTask.message] using hhanded
      | handleClose =>
          exact ⟨{ conn with tasks }, by simp [runTask, handleClose, hstatus], hrest,
            .gone { hgone with handed := ⟨givenUp, hhanded.rest htasks rfl⟩, tasks := hattached }⟩
      | highWaterMark size | cancelTimer =>
          exact ⟨_, rfl, ⟨hsteady.bottom, hsteady.taken, hsteady.calling⟩,
            .gone { hgone with handed := ⟨givenUp, hhanded.rest htasks rfl⟩, tasks := hattached }⟩

/-- A proper step fails no assertion, and keeps what holds. -/
theorem act_sound {label : ConnLabel} (hsound : conn.Sound) (hpossible : conn.Possible label)
    (hproper : conn.Proper label) : ∃ next ∈ conn.act label, next.Sound := by
  cases hsound.part with
  | fresh hfresh => exact hfresh.act_sound hsound.steady hpossible hproper
  | live hlive => exact hlive.act_sound hsound.steady hpossible
  | closing hclosing => exact hclosing.act_sound hsound.steady hpossible hproper
  | gone hgone => exact hgone.act_sound hsound.steady hpossible hproper

/-! ## Runs -/

section Runs

variable {type : ConnType} {closeDelay : Int} {mark : Nat} {markFn : Bool}
  {labels : List ConnLabel}

theorem run_sound (hproper : Along step Proper (new type closeDelay mark markFn) labels)
    (hrun : run step (new type closeDelay mark markFn) labels = some conn) : conn.Sound :=
  run_invariant_possible Sound (fun _ _ => rfl)
    (fun _ _ hsound hpossible hproper =>
      forall_mem_of_exists_mem (act_sound hsound hpossible hproper))
    (new_sound _ _ _ _) hproper hrun

/-- Nothing is lost, repeated or reordered. What the socket took is the beginning of the
messages that were accepted; as long as the channel is open the output buffer holds the rest,
and the loop watches for the socket to become writable exactly while there is a rest. The
messages of other threads are accepted in the order in which they were queued, and given up
only when the connection is disconnected. -/
theorem written_in_order (hproper : Along step Proper (new type closeDelay mark markFn) labels)
    (hrun : run step (new type closeDelay mark markFn) labels = some conn) :
    conn.written <+: conn.acceptedBytes ∧
    (conn.chan.event = true → conn.written ++ conn.outputBuffer = conn.acceptedBytes ∧
      (conn.outputBuffer ≠ [] ↔ conn.chan.attached = true ∧ conn.chan.writable = true)) ∧
    (∃ givenUp, conn.posted = conn.acceptedQueued ++ givenUp ++
      conn.tasks.filterMap ConnTask.message ∧ (conn.status ≠ .disconnected → givenUp = [])) ∧
    conn.taken ++ conn.inputBuffer = conn.received := by
  have hsound := run_sound hproper hrun
  have htaken := hsound.steady.taken
  cases hsound.part with
  | fresh hfresh =>
      obtain ⟨hempty, haccepted, hwritten, hposted⟩ := hfresh.buffers
      refine ⟨hwritten ▸ List.nil_prefix, fun _ => ⟨?_, ?_⟩, ⟨[], ?_, fun _ => rfl⟩, htaken⟩
      · simp [hwritten, hempty, acceptedBytes, haccepted]
      · simp [hempty, hfresh.chan, FdChannel.watching]
      · simp [hposted, acceptedQueued, haccepted, hfresh.tasks, List.filterMap_cons,
          ConnTask.message]
  | live hlive =>
      obtain ⟨readable, writable, hchan⟩ := hlive.chan
      refine ⟨hlive.written, fun _ => ⟨?_, ?_⟩, ⟨[], hlive.handed, fun _ => rfl⟩, htaken⟩
      · simpa using hlive.bytes
      · rw [← hlive.writable, hchan]
        cases readable <;> cases writable <;> decide
  | closing hclosing =>
      refine ⟨hclosing.written, fun hevent => ?_, ⟨[], hclosing.handed, fun _ => rfl⟩, htaken⟩
      rw [hclosing.chan] at hevent
      cases hevent
  | gone hgone =>
      obtain ⟨givenUp, hhanded⟩ := hgone.handed
      refine ⟨hgone.written, fun hevent => ?_,
        ⟨givenUp, hhanded, fun hopen => absurd hgone.status hopen⟩, htaken⟩
      rw [hgone.chan] at hevent
      cases hevent

/-- The owner of a connection is told once that it is connected, then of messages, then once
that it is disconnected and once that it is closed. A connection that has told all of this is
disconnected, and the assertions of its destructor hold. -/
theorem notices_in_order (hproper : Along step Proper (new type closeDelay mark markFn) labels)
    (hrun : run step (new type closeDelay mark markFn) labels = some conn) :
    (∃ count, conn.notices <+:
      .connected :: List.replicate count .message ++ [.disconnected, .closed]) ∧
    (conn.status = .disconnected → conn.notices = [] ∨
      .closed ∈ conn.notices ∧ conn.chan.isNoneEvent = true ∧ conn.chan.event = false ∧
        conn.delayCloseTimer = false) ∧
    (.closed ∈ conn.notices → conn.status = .disconnected ∨ .closed ∈ conn.stack) := by
  have hsound := run_sound hproper hrun
  cases hsound.part with
  | fresh hfresh =>
      have hnotices := hfresh.notices
      exact ⟨⟨0, hnotices ▸ List.nil_prefix⟩, fun _ => Or.inl hnotices,
        fun _ => Or.inl hfresh.status⟩
  | live hlive =>
      obtain ⟨count, hnotices⟩ := hlive.notices
      refine ⟨⟨count, ?_⟩, fun hstatus => absurd hstatus hlive.status_ne, fun hclosed => ?_⟩
      · rw [hnotices]
        exact List.prefix_append _ _
      · rw [hnotices] at hclosed
        simp at hclosed
  | closing hclosing =>
      obtain ⟨frame, below, count, hstack, -, hframe⟩ := hclosing.stack
      refine ⟨⟨count, ?_⟩, fun hstatus => ?_, fun hclosed => Or.inr ?_⟩
      · rcases hframe with ⟨-, hnotices⟩ | ⟨-, hnotices⟩ <;> rw [hnotices]
        exact (List.prefix_append_right_inj _).mpr (List.prefix_append [_] [_])
      · rw [hclosing.status] at hstatus
        cases hstatus
      · rcases hframe with ⟨-, hnotices⟩ | ⟨rfl, -⟩
        · rw [hnotices] at hclosed
          simp at hclosed
        · simp [hstack]
  | gone hgone =>
      obtain ⟨count, hnotices⟩ := hgone.notices
      refine ⟨⟨count, hnotices ▸ List.prefix_rfl⟩, fun _ => Or.inr ⟨?_, ?_, ?_, hgone.timer⟩,
        fun _ => Or.inl hgone.status⟩
      · simp [hnotices]
      · rw [hgone.chan]
        rfl
      · rw [hgone.chan]
        rfl

/-- A connection that was attached and whose channel is open is read from while it is
connected, or it is going to be closed: by a functor that is queued or about to be, or by the
delay timer. -/
theorem closing_goes_on (hproper : Along step Proper (new type closeDelay mark markFn) labels)
    (hrun : run step (new type closeDelay mark markFn) labels = some conn)
    (hattached : conn.notices ≠ []) (hopen : conn.chan.event = true) :
    conn.status = .connected ∧ conn.chan.attached = true ∧ conn.chan.readable = true ∨
    .handleClose ∈ conn.tasks ∨ .handleClose ∈ conn.calling ∨
    conn.delayCloseTimer = true ∧ conn.waiting = true := by
  have hsound := run_sound hproper hrun
  cases hsound.part with
  | fresh hfresh => exact absurd hfresh.notices hattached
  | live hlive =>
      rcases hlive.status with ⟨hstatus, -⟩ | ⟨-, hqueued⟩
      · rcases hlive.reading with hreadable | hwaiting
        · obtain ⟨readable, writable, hchan⟩ := hlive.chan
          rw [hchan] at hreadable ⊢
          obtain rfl : readable = true := hreadable
          exact Or.inl ⟨hstatus, rfl, rfl⟩
        · exact Or.inr (Or.inr (Or.inr ⟨hlive.timer ▸ hwaiting, hwaiting⟩))
      · rcases List.mem_append.mp hqueued with htasks | hcalling
        · exact Or.inr (Or.inl htasks)
        · exact Or.inr (Or.inr (Or.inl hcalling))
  | closing hclosing =>
      rw [hclosing.chan] at hopen
      cases hopen
  | gone hgone =>
      rw [hgone.chan] at hopen
      cases hopen

/-- No assertion of a connection or its channel fails at a step that the callers take when
they may. When the connection was disconnected, the delay timer fires too late if it fires
before it is cancelled, and a call of `Close` comes too late: the assertion that the channel
has its event fails. -/
theorem assertions_hold (hproper : Along step Proper (new type closeDelay mark markFn) labels)
    (hrun : run step (new type closeDelay mark markFn) labels = some conn) :
    (∀ label, conn.Possible label → conn.Proper label → (conn.act label).isSome = true) ∧
    (conn.notices ≠ [] → conn.status = .disconnected →
      conn.act .timer = none ∧ { conn with status := .disconnecting }.handleClose = none) := by
  have hsound := run_sound hproper hrun
  refine ⟨fun label hpossible hlabel => ?_, fun hnotices hstatus => ?_⟩
  · obtain ⟨next, hnext, -⟩ := act_sound hsound hpossible hlabel
    exact Option.isSome_of_mem hnext
  · cases hsound.part with
    | fresh hfresh => exact absurd hfresh.notices hnotices
    | live hlive => exact absurd hstatus hlive.status_ne
    | closing hclosing =>
        rw [hclosing.status] at hstatus
        cases hstatus
    | gone hgone =>
        simp [act, delayClose, handleClose, hgone.chan, FdChannel.shut, FdChannel.disableAllEvent,
          FdChannel.isNoneEvent, FdChannel.close]

end Runs

instance decidableProper (conn : TCPConn) (label : ConnLabel) : Decidable (conn.Proper label) :=
  match label with
  | .close | .timer => inferInstanceAs (Decidable (conn.status ≠ .disconnected))
  | .sendInLoop checked _ _ =>
      inferInstanceAs (Decidable (checked = true ∨ conn.chan.event = true ∨
        conn.status = .disconnected))
  | .send _ | .queueInLoop _ | .handleEvent _ _ | .handleWrite _ | .resume | .next _
  | .runTask _ => inferInstanceAs (Decidable True)

/-- The socket takes one byte of a message, another thread queues a message behind it, and the
socket takes two more bytes. -/
def partlyWritten : List ConnLabel :=
  [.runTask .retriable, .resume, .sendInLoop true [1, 2, 3] (.sent 1), .send [4],
    .queueInLoop (.sendStringInLoop [4]), .runTask .retriable, .handleEvent none true,
    .handleWrite (.sent 2)]

theorem written_in_order_partlyWritten : ∃ conn,
    run step (new .incoming 5 100 false) partlyWritten = some conn ∧
    conn.written = [1, 2, 3] ∧ conn.written ++ conn.outputBuffer = conn.acceptedBytes ∧
    conn.chan.attached = true ∧ conn.chan.writable = true := by
  have hproper : Along step Proper (new .incoming 5 100 false) partlyWritten := by decide
  have hfacts : (run step (new .incoming 5 100 false) partlyWritten).map (fun conn =>
      (conn.chan.event, conn.written, conn.outputBuffer)) = some (true, [1, 2, 3], [4]) := by decide
  obtain ⟨conn, hrun, hconn⟩ := Option.map_eq_some_iff.mp hfacts
  simp only [Prod.mk.injEq] at hconn
  obtain ⟨hevent, hwritten, hbuffered⟩ := hconn
  obtain ⟨hbytes, hwatched⟩ := (written_in_order hproper hrun).2.1 hevent
  exact ⟨conn, hrun, hwritten, hbytes, hwatched.mp (by simp [hbuffered])⟩

/-- The peer sends a byte and closes its end; the connection is kept for the delay time. -/
def halfClosed : List ConnLabel :=
  [.runTask .retriable, .resume, .handleEvent (some (.data [9])) false, .resume,
    .handleEvent (some .eof) false]

theorem closing_goes_on_halfClosed : ∃ conn,
    run step (new .incoming 5 100 false) halfClosed = some conn ∧
    (conn.status = .connected ∧ conn.chan.attached = true ∧ conn.chan.readable = true ∨
      .handleClose ∈ conn.tasks ∨ .handleClose ∈ conn.calling ∨
      conn.delayCloseTimer = true ∧ conn.waiting = true) := by
  have hproper : Along step Proper (new .incoming 5 100 false) halfClosed := by decide
  have hfacts : (run step (new .incoming 5 100 false) halfClosed).map (fun conn =>
      (conn.notices, conn.chan.event)) = some ([.connected, .message], true) := by decide
  obtain ⟨conn, hrun, hconn⟩ := Option.map_eq_some_iff.mp hfacts
  simp only [Prod.mk.injEq] at hconn
  exact ⟨conn, hrun, closing_goes_on hproper hrun (by simp [hconn]) hconn.2⟩

/-- The delay time is over. -/
def delayedClose : List ConnLabel := halfClosed ++ [.timer, .resume, .resume]

theorem notices_in_order_delayedClose : ∃ conn,
    run step (new .incoming 5 100 false) delayedClose = some conn ∧
    .closed ∈ conn.notices ∧ conn.chan.isNoneEvent = true ∧ conn.delayCloseTimer = false := by
  have hproper : Along step Proper (new .incoming 5 100 false) delayedClose := by decide
  have hfacts : (run step (new .incoming 5 100 false) delayedClose).map (fun conn =>
      (conn.status, conn.notices)) =
      some (.disconnected, [.connected, .message, .disconnected, .closed]) := by decide
  obtain ⟨conn, hrun, hconn⟩ := Option.map_eq_some_iff.mp hfacts
  simp only [Prod.mk.injEq] at hconn
  obtain ⟨hclosed, hnone, -, htimer⟩ :=
    ((notices_in_order hproper hrun).2.1 hconn.1).resolve_left (by simp [hconn.2])
  exact ⟨conn, hrun, hclosed, hnone, htimer⟩

theorem assertions_hold_delayedClose : ∃ conn,
    run step (new .incoming 5 100 false) delayedClose = some conn ∧
    (conn.act (.sendInLoop false [1] (.sent 1))).isSome = true ∧
    conn.act .timer = none := by
  have hproper : Along step Proper (new .incoming 5 100 false) delayedClose := by decide
  have hfacts : (run step (new .incoming 5 100 false) delayedClose).map (fun conn =>
      (conn.status, conn.notices, conn.stack)) =
      some (.disconnected, [.connected, .message, .disconnected, .closed], []) := by decide
  obtain ⟨conn, hrun, hconn⟩ := Option.map_eq_some_iff.mp hfacts
  simp only [Prod.mk.injEq] at hconn
  obtain ⟨hstatus, hnotices, hstack⟩ := hconn
  obtain ⟨hholds, hlate⟩ := assertions_hold hproper hrun
  refine ⟨conn, hrun, hholds _ ⟨by simp [hstack], by decide⟩ (Or.inr (Or.inr hstatus)), ?_⟩
  exact (hlate (by simp [hnotices]) hstatus).1

end TCPConn

end Wnet.Evpp
