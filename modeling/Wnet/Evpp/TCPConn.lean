import Mathlib.Data.Int.Notation
import Wnet.Foundation.BigEndian
import Wnet.Foundation.Run

/-!
# The connection of an event loop

A `TCPConn` belongs to the loop thread. What its peer has no room for is kept in the
output buffer, and the channel then watches for the socket to become writable. The
callbacks of the application are called from inside of the functions of the connection and
may call it again, so the functions on the stack of the loop thread are explicit. Other
threads read the status in `Send`, set it in `Close`, and afterwards queue a functor.
-/

namespace Wnet.Evpp

open Foundation

/-! ## The channel -/

/-- `FdChannel`. Adding an event to libevent and deleting it succeed. -/
structure FdChannel where
  attached : Bool
  /-- Whether `event_` is set. The callbacks are set as long as it is. -/
  event : Bool
  readable : Bool
  writable : Bool
  deriving DecidableEq

namespace FdChannel

/-- The channel of a connection that was constructed. -/
def new : FdChannel where
  attached := false
  event := true
  readable := false
  writable := false

variable (chan : FdChannel)

def isNoneEvent : Bool := !chan.readable && !chan.writable

def detachFromLoop : Option FdChannel :=
  if chan.attached ∧ chan.event then some { chan with attached := false } else none

def attachToLoop : Option FdChannel :=
  if chan.isNoneEvent then none
  else do
    let chan ← (if chan.attached then chan.detachFromLoop else some chan)
    if chan.event then some { chan with attached := true } else none

def update : Option FdChannel :=
  if chan.isNoneEvent then chan.detachFromLoop else chan.attachToLoop

def enableReadEvent : Option FdChannel :=
  if chan.readable then some chan else { chan with readable := true }.update

def enableWriteEvent : Option FdChannel :=
  if chan.writable then some chan else { chan with writable := true }.update

def disableReadEvent : Option FdChannel :=
  if chan.readable then { chan with readable := false }.update else some chan

def disableWriteEvent : Option FdChannel :=
  if chan.writable then { chan with writable := false }.update else some chan

def disableAllEvent : Option FdChannel :=
  if chan.isNoneEvent then some chan
  else { chan with readable := false, writable := false }.update

def close : Option FdChannel :=
  if chan.event ∧ ¬ chan.attached then some { chan with event := false } else none

end FdChannel

/-! ## The connection -/

inductive ConnType
  | incoming
  | outgoing
  deriving DecidableEq

inductive ConnStatus
  | disconnected
  | connecting
  | connected
  | disconnecting
  deriving DecidableEq

/-- What `::send` comes to: the number of bytes it took, or the kind of its `errno`. -/
inductive SendResult
  | sent (count : Nat)
  | retriable
  /-- `EPIPE` or `ECONNRESET`. -/
  | reset
  | failed
  deriving DecidableEq

/-- A call of `::send` with this many bytes can come to the result. -/
def SendResult.Fits (length : Nat) : SendResult → Prop
  | .sent count => count ≤ length
  | _ => True

/-- The same for a call with at least one byte. -/
def SendResult.Advances (length : Nat) : SendResult → Prop
  | .sent count => 0 < count ∧ count ≤ length
  | _ => True

instance (length : Nat) (result : SendResult) : Decidable (result.Fits length) :=
  match result with
  | .sent count => inferInstanceAs (Decidable (count ≤ length))
  | .retriable | .reset | .failed => inferInstanceAs (Decidable True)

instance (length : Nat) (result : SendResult) : Decidable (result.Advances length) :=
  match result with
  | .sent count => inferInstanceAs (Decidable (0 < count ∧ count ≤ length))
  | .retriable | .reset | .failed => inferInstanceAs (Decidable True)

/-- What `ReadFromFD` comes to. -/
inductive ReadResult
  | data (bytes : Bytes)
  | eof
  | retriable
  | failed
  deriving DecidableEq

/-- Data are not empty. -/
def ReadResult.Valid : ReadResult → Prop
  | .data bytes => bytes ≠ []
  | _ => True

instance (result : ReadResult) : Decidable result.Valid :=
  match result with
  | .data bytes => inferInstanceAs (Decidable (bytes ≠ []))
  | .eof | .retriable | .failed => inferInstanceAs (Decidable True)

/-- The functors that the loop is given on behalf of a connection. -/
inductive ConnTask
  | onAttachedToLoop
  | sendStringInLoop (message : Bytes)
  | handleClose
  | highWaterMark (size : Nat)
  /-- `TimerEventWatcher::Cancel` of the delay timer. -/
  | cancelTimer
  deriving DecidableEq

/-- The message that a functor sends. -/
def ConnTask.message : ConnTask → Option Bytes
  | .sendStringInLoop message => some message
  | _ => none

/-- A function on the stack of the loop thread. -/
inductive ConnFrame
  /-- `HandleEvent`, which has still to look at the write event. -/
  | writing
  /-- The connection callback of `OnAttachedToLoop`. -/
  | attached
  /-- The message callback. -/
  | message
  /-- The connection callback of `HandleClose`. -/
  | closing
  /-- The close callback. -/
  | closed
  deriving DecidableEq

/-- The frame is inside of `HandleClose`. -/
def ConnFrame.isClosing : ConnFrame → Bool
  | .closing | .closed => true
  | _ => false

/-- What a connection tells its owner. -/
inductive ConnNotice
  | connected
  | message
  | disconnected
  | closed
  deriving DecidableEq

/-- A message that `SendInLoop` was called with, and whether it came through the task queue. -/
structure Outgoing where
  queued : Bool
  message : Bytes
  deriving DecidableEq

/-- The members of a connection, its part of the task queue and the calls on it. The fields
from `accepted` on are records. -/
structure TCPConn where
  type : ConnType
  status : ConnStatus
  chan : FdChannel
  inputBuffer : Bytes
  outputBuffer : Bytes
  highWaterMark : Nat
  highWaterMarkFn : Bool
  /-- In nanoseconds. -/
  closeDelay : Int
  /-- Whether `delay_close_timer_` is set. -/
  delayCloseTimer : Bool
  /-- Whether the event of the delay timer is with the loop. -/
  waiting : Bool
  tasks : List ConnTask
  /-- What the calls of `Send` and `Close` in progress are going to queue. -/
  calling : List ConnTask
  stack : List ConnFrame
  /-- The messages that were not given up. -/
  accepted : List Outgoing
  /-- The bytes that the socket took. -/
  written : Bytes
  /-- The bytes that came from the socket, and those that the application has taken. -/
  received : Bytes
  taken : Bytes
  /-- The messages that were queued. -/
  posted : List Bytes
  /-- The sizes that the high-water callback was called with. -/
  warnings : List Nat
  notices : List ConnNotice
  deriving DecidableEq

/-- What happens next. The last component of a label says what a call of `::send` would come
to, if there is one. -/
inductive ConnLabel
  /-- `Send` on another thread. -/
  | send (message : Bytes)
  | close
  /-- A call of `Send` or `Close` queues its functor. -/
  | queueInLoop (task : ConnTask)
  /-- `HandleEvent` with the events that occurred. -/
  | handleEvent (read : Option ReadResult) (write : Bool)
  /-- `HandleEvent` looks at the write event. -/
  | handleWrite (result : SendResult)
  /-- A callback returns. -/
  | resume
  /-- `Send` on the loop thread; the overload for a pointer does not check the status. -/
  | sendInLoop (checked : Bool) (message : Bytes) (result : SendResult)
  /-- The application takes bytes from the input buffer. -/
  | next (count : Nat)
  | runTask (result : SendResult)
  | timer
  deriving DecidableEq

namespace TCPConn

/-- A connection that was constructed and given to its loop. -/
def new (type : ConnType) (closeDelay : Int) (highWaterMark : Nat) (highWaterMarkFn : Bool) :
    TCPConn where
  type
  status := .disconnected
  chan := .new
  inputBuffer := []
  outputBuffer := []
  highWaterMark
  highWaterMarkFn
  closeDelay
  delayCloseTimer := false
  waiting := false
  tasks := [.onAttachedToLoop]
  calling := []
  stack := []
  accepted := []
  written := []
  received := []
  taken := []
  posted := []
  warnings := []
  notices := []

variable (conn : TCPConn)

/-- The bytes of the messages that were not given up. -/
def acceptedBytes : Bytes := conn.accepted.flatMap Outgoing.message

/-- The messages among them that came through the task queue. -/
def acceptedQueued : List Bytes := (conn.accepted.filter Outgoing.queued).map Outgoing.message

/-- A callback is called. -/
def callback (frame : ConnFrame) (notice : ConnNotice) : TCPConn :=
  { conn with stack := frame :: conn.stack, notices := conn.notices ++ [notice] }

def handleClose : Option TCPConn :=
  if conn.status = .disconnected then some conn
  else if conn.status ≠ .disconnecting then none
  else do
    let chan ← conn.chan.disableAllEvent
    let chan ← chan.close
    let tasks := if conn.delayCloseTimer then conn.tasks ++ [.cancelTimer] else conn.tasks
    some ({ conn with chan, tasks, delayCloseTimer := false }.callback .closing .disconnected)

def handleError : Option TCPConn := { conn with status := .disconnecting }.handleClose

def delayClose : Option TCPConn :=
  { conn with status := .disconnecting, delayCloseTimer := false }.handleClose

/-- The functor for the high-water callback is queued when the output buffer is about to
come to the mark. -/
def warn (size : Nat) : TCPConn :=
  if conn.highWaterMark ≤ size ∧ conn.outputBuffer.length < conn.highWaterMark ∧
      conn.highWaterMarkFn then
    { conn with tasks := conn.tasks ++ [.highWaterMark size] }
  else conn

/-- The last part of `SendInLoop`. -/
def keep (remaining : Bytes) : Option TCPConn :=
  if remaining = [] then some conn
  else do
    let conn := conn.warn (conn.outputBuffer.length + remaining.length)
    let chan ← (if conn.chan.writable then some conn.chan else conn.chan.enableWriteEvent)
    some { conn with chan, outputBuffer := conn.outputBuffer ++ remaining }

/-- `SendInLoop` after it has looked at the status. -/
def sendAccepted (message : Bytes) (result : SendResult) : Option TCPConn :=
  if ¬ conn.chan.writable ∧ conn.outputBuffer = [] then
    match result with
    | .sent count =>
        { conn with written := conn.written ++ message.take count }.keep (message.drop count)
    | .reset => conn.handleError
    -- After any other error the message is buffered as for a full socket.
    | .retriable | .failed => conn.keep message
  else conn.keep message

def accept (queued : Bool) (message : Bytes) : TCPConn :=
  { conn with accepted := conn.accepted ++ [⟨queued, message⟩] }

def sendInLoop (queued : Bool) (message : Bytes) (result : SendResult) : Option TCPConn :=
  if conn.status = .disconnected then some conn
  else (conn.accept queued message).sendAccepted message result

def handleWrite (result : SendResult) : Option TCPConn :=
  if conn.chan.attached ∧ ¬ conn.chan.writable then none
  else
    match result with
    | .sent count => do
        let outputBuffer := conn.outputBuffer.drop count
        let chan ← (if outputBuffer = [] then conn.chan.disableWriteEvent else some conn.chan)
        some { conn with
          chan
          outputBuffer
          written := conn.written ++ conn.outputBuffer.take count }
    | .retriable => some conn
    | .reset | .failed => conn.handleError

def handleRead : ReadResult → Option TCPConn
  | .data bytes =>
      some ({ conn with
        inputBuffer := conn.inputBuffer ++ bytes
        received := conn.received ++ bytes }.callback .message .message)
  | .eof =>
      if conn.type = .outgoing then { conn with status := .disconnecting }.handleClose
      else do
        let chan ← conn.chan.disableReadEvent
        if conn.closeDelay = 0 then delayClose { conn with chan }
        else some { conn with chan, delayCloseTimer := true, waiting := true }
  | .retriable => some conn
  | .failed => conn.handleError

def onAttachedToLoop : Option TCPConn := do
  let chan ← conn.chan.enableReadEvent
  some ({ conn with status := .connected, chan }.callback .attached .connected)

def runTask (result : SendResult) : ConnTask → Option TCPConn
  | .onAttachedToLoop => conn.onAttachedToLoop
  | .sendStringInLoop message => conn.sendInLoop true message result
  | .handleClose => conn.handleClose
  | .highWaterMark size => some { conn with warnings := conn.warnings ++ [size] }
  | .cancelTimer => some { conn with waiting := false }

/-- A callback returns to the function that called it. -/
def resume : List ConnFrame → Option TCPConn
  | .closing :: below => some ({ conn with stack := below }.callback .closed .closed)
  | .closed :: below => some { conn with status := .disconnected, stack := below }
  | .attached :: below | .message :: below => some { conn with stack := below }
  | .writing :: _ | [] => none

/-- `HandleEvent` is called. -/
def enter (write : Bool) : TCPConn :=
  if write then { conn with stack := .writing :: conn.stack } else conn

/-- Whether the step can happen. -/
def Possible (conn : TCPConn) : ConnLabel → Prop
  | .send _ | .close => True
  | .queueInLoop task => task ∈ conn.calling
  | .handleEvent read write =>
      conn.stack = [] ∧ conn.chan.attached = true ∧ (write = true → conn.chan.writable = true) ∧
        ∀ result ∈ read, conn.chan.readable = true ∧ result.Valid
  | .handleWrite result =>
      conn.stack.head? = some .writing ∧
        (conn.chan.event = true → result.Advances conn.outputBuffer.length)
  | .resume => ∃ frame ∈ conn.stack.head?, frame ≠ .writing
  | .sendInLoop _ message result =>
      conn.stack.head? ≠ some .writing ∧ result.Fits message.length
  | .next count => .message ∈ conn.stack ∧ count ≤ conn.inputBuffer.length
  | .runTask result =>
      conn.stack = [] ∧ ∃ task ∈ conn.tasks.head?,
        ∀ message ∈ task.message, result.Fits message.length
  | .timer => conn.stack = [] ∧ conn.waiting = true

/-- The step, which fails where an assertion does. -/
def act (conn : TCPConn) : ConnLabel → Option TCPConn
  | .send message =>
      if conn.status = .connected then
        some { conn with calling := .sendStringInLoop message :: conn.calling }
      else some conn
  | .close =>
      some { conn with status := .disconnecting, calling := .handleClose :: conn.calling }
  | .queueInLoop task =>
      some { conn with
        tasks := conn.tasks ++ [task]
        calling := conn.calling.erase task
        posted := conn.posted ++ task.message.toList }
  | .handleEvent none write => some (conn.enter write)
  | .handleEvent (some result) write => (conn.enter write).handleRead result
  | .handleWrite result =>
      let conn := { conn with stack := conn.stack.tail }
      -- `Close` of the channel has cleared the callback.
      if conn.chan.event then conn.handleWrite result else some conn
  | .resume => conn.resume conn.stack
  | .sendInLoop checked message result =>
      if checked ∧ conn.status ≠ .connected then some conn
      else conn.sendInLoop false message result
  | .next count =>
      some { conn with
        inputBuffer := conn.inputBuffer.drop count
        taken := conn.taken ++ conn.inputBuffer.take count }
  | .runTask result =>
      match conn.tasks with
      | [] => none
      | task :: tasks => { conn with tasks }.runTask result task
  | .timer => { conn with waiting := false }.delayClose

instance decidablePossible (conn : TCPConn) (label : ConnLabel) :
    Decidable (conn.Possible label) :=
  match label with
  | .send _ | .close => inferInstanceAs (Decidable True)
  | .queueInLoop task => inferInstanceAs (Decidable (task ∈ conn.calling))
  | .handleEvent read write =>
      inferInstanceAs (Decidable (conn.stack = [] ∧ conn.chan.attached = true ∧
        (write = true → conn.chan.writable = true) ∧
        ∀ result ∈ read, conn.chan.readable = true ∧ result.Valid))
  | .handleWrite result =>
      inferInstanceAs (Decidable (conn.stack.head? = some .writing ∧
        (conn.chan.event = true → result.Advances conn.outputBuffer.length)))
  | .resume => inferInstanceAs (Decidable (∃ frame ∈ conn.stack.head?, frame ≠ .writing))
  | .sendInLoop _ message result =>
      inferInstanceAs (Decidable (conn.stack.head? ≠ some .writing ∧ result.Fits message.length))
  | .next count =>
      inferInstanceAs (Decidable (.message ∈ conn.stack ∧ count ≤ conn.inputBuffer.length))
  | .runTask result =>
      inferInstanceAs (Decidable (conn.stack = [] ∧ ∃ task ∈ conn.tasks.head?,
        ∀ message ∈ task.message, result.Fits message.length))
  | .timer => inferInstanceAs (Decidable (conn.stack = [] ∧ conn.waiting = true))

def step (conn : TCPConn) (label : ConnLabel) : Option TCPConn :=
  if conn.Possible label then conn.act label else none

end TCPConn

end Wnet.Evpp
