import Mathlib.Logic.Function.Basic
import Wnet.Evpp.TCPConn

/-!
# A server and its connections

A `TCPServer` accepts connections on its listening loop and gives each to a loop of its
thread pool. `Stop` is called on a thread of its own; `StopInLoop` closes what is connected,
and the functor that removes the last connection stops the pool. Between the listening loop,
the loops of the connections and the caller of `Stop` every order of steps is possible. The
functions of the listening loop and `Stop` are cut where they read or write what belongs to
another thread as well, which are `status_`, `substatus_`, the task queue and the status of
a connection, and where the callback is called.
-/

namespace Wnet.Evpp

inductive ServerStatus
  | running
  | stopping
  | stopped
  deriving DecidableEq

inductive SubStatus
  | null
  | stoppingListener
  deriving DecidableEq

/-- The functors in the queue of the listening loop. -/
inductive ServerTask
  | stopInLoop
  /-- The functor of `RemoveConnection`. -/
  | erase (id : Nat)
  deriving DecidableEq

/-- Where the call of `Stop` stands. -/
inductive StopStage
  | idle
  /-- It has found the server running. -/
  | asserted
  /-- `status_` is set. -/
  | stopping
  /-- `substatus_` is set as well. -/
  | stored
  /-- `StopInLoop` is in the queue or was called. -/
  | queued
  deriving DecidableEq

/-- `Stop` has set the status. -/
def StopStage.begun : StopStage → Bool
  | .idle | .asserted => false
  | .stopping | .stored | .queued => true

/-- The function that the listening loop is in. -/
inductive ServerFrame
  | idle
  /-- `HandleNewConn`, which has found that the server is not stopping. The close delay is what
  the application chooses for the connection. -/
  | accepting (closeDelay : Int)
  /-- `StopInLoop`, with the connections that its loop has still to look at. -/
  | closing (rest : List Nat)
  /-- `StopInLoop`, which has found a connection connected. -/
  | found (id : Nat) (rest : List Nat)
  /-- The functor of `RemoveConnection`, which has found the server stopping and without
  connections. -/
  | removedLast
  /-- `StopInLoop` or the functor, after it has called the callback if there is one. It is about
  to clear `stopped_cb_` and to store the last status. -/
  | finishing
  deriving DecidableEq

/-- The members of a server, with its connections and the calls on it. The last two fields
are records. -/
structure TCPServer where
  status : ServerStatus
  substatus : SubStatus
  /-- Whether `listener_` is set. -/
  listener : Bool
  /-- Whether `tpool_` is set. -/
  threadPool : Bool
  /-- Whether `stopped_cb_` is set. -/
  stoppedCb : Bool
  nextConnId : Nat
  /-- The keys of `connections_`. -/
  connections : List Nat
  /-- The connections by their identifiers, those that were removed included. -/
  conns : Nat → TCPConn
  tasks : List ServerTask
  stopCall : StopStage
  loop : ServerFrame
  /-- How often the callback was called. -/
  stoppedCalls : Nat
  /-- The connections that `StopInLoop` came to before they were attached to their loops. -/
  early : List Nat

/-- What happens next. -/
inductive ServerLabel
  /-- `HandleNewConn`. -/
  | accept (closeDelay : Int)
  | conn (id : Nat) (label : ConnLabel)
  /-- `Stop` is called. -/
  | stop
  /-- `Stop` goes on. -/
  | proceedStop
  | runTask
  /-- The function that the listening loop is in goes on. -/
  | proceed
  deriving DecidableEq

/-- The connection calls its close callback, which is `RemoveConnection`. -/
def TCPConn.closes (conn : TCPConn) (label : ConnLabel) : Bool :=
  label = .resume && conn.stack.head? = some .closing

namespace TCPServer

/-- A server that was started. -/
def new : TCPServer where
  status := .running
  substatus := .null
  listener := true
  threadPool := true
  stoppedCb := false
  nextConnId := 0
  connections := []
  conns := fun _ => .new .incoming 0 (128 * 1024 * 1024) false
  tasks := []
  stopCall := .idle
  loop := .idle
  stoppedCalls := 0
  early := []

variable (server : TCPServer)

/-- The first test of `HandleNewConn`. -/
def handleNewConn (closeDelay : Int) : TCPServer :=
  if server.status = .stopping then server else { server with loop := .accepting closeDelay }

/-- The rest of `HandleNewConn`. -/
def addConnection (closeDelay : Int) : Option TCPServer :=
  if server.status = .running then
    let id := server.nextConnId + 1
    some { server with
      nextConnId := id
      connections := server.connections ++ [id]
      conns := Function.update server.conns id
        (.new .incoming closeDelay (128 * 1024 * 1024) false)
      loop := .idle }
  else none

/-- `StopThreadPool`. -/
def stopThreadPool : Option TCPServer :=
  if server.status = .stopping ∧ server.threadPool then
    some { server with threadPool := false, substatus := .null }
  else none

/-- `StopInLoop` up to its loop. -/
def stopInLoop : Option TCPServer :=
  if server.listener then
    let server := { server with listener := false }
    if server.connections = [] then
      server.stopThreadPool.map fun server =>
        { server with stoppedCalls := server.stoppedCalls + 1, loop := .finishing }
    else some { server with loop := .closing server.connections }
  else none

/-- The functor of `RemoveConnection` up to its last test. -/
def erase (id : Nat) : TCPServer :=
  let server := { server with connections := server.connections.erase id }
  if server.status = .stopping ∧ server.connections = [] then { server with loop := .removedLast }
  else server

/-- The functor of `RemoveConnection` stops the pool and calls the callback. -/
def removeLast : Option TCPServer :=
  if server.substatus = .stoppingListener then
    server.stopThreadPool.map fun server =>
      { server with
        stoppedCalls := server.stoppedCalls + if server.stoppedCb then 1 else 0
        loop := .finishing }
  else none

def runTask : ServerTask → Option TCPServer
  | .stopInLoop => server.stopInLoop
  | .erase id => some (server.erase id)

/-- The next piece of the function that the listening loop is in. -/
def proceed : ServerFrame → Option TCPServer
  | .idle => none
  | .accepting closeDelay => server.addConnection closeDelay
  | .closing [] => some { server with stoppedCb := true, loop := .idle }
  | .closing (id :: rest) =>
      if (server.conns id).status = .connected then some { server with loop := .found id rest }
      else some { server with
        loop := .closing rest
        early := if (server.conns id).notices = [] then server.early ++ [id] else server.early }
  | .found id rest =>
      ((server.conns id).act .close).map fun conn =>
        { server with conns := Function.update server.conns id conn, loop := .closing rest }
  | .removedLast => server.removeLast
  | .finishing => some { server with stoppedCb := false, status := .stopped, loop := .idle }

/-- The next piece of `Stop`. -/
def proceedStop : StopStage → Option TCPServer
  | .asserted => some { server with status := .stopping, stopCall := .stopping }
  | .stopping => some { server with substatus := .stoppingListener, stopCall := .stored }
  | .stored => some { server with tasks := server.tasks ++ [.stopInLoop], stopCall := .queued }
  | .idle | .queued => none

/-- Whether the step can happen. `Stop` is called once, on a server that runs. -/
def Possible (server : TCPServer) : ServerLabel → Prop
  | .accept _ => server.listener = true ∧ server.loop = .idle
  | .conn id label => 0 < id ∧ id ≤ server.nextConnId ∧ (server.conns id).Possible label
  | .stop => server.stopCall = .idle ∧ server.status = .running
  | .proceedStop => server.stopCall ≠ .idle ∧ server.stopCall ≠ .queued
  | .runTask => server.loop = .idle ∧ server.tasks ≠ []
  | .proceed => server.loop ≠ .idle

/-- The step, which fails where an assertion does or a null pointer is followed. -/
def act (server : TCPServer) : ServerLabel → Option TCPServer
  | .accept closeDelay => some (server.handleNewConn closeDelay)
  | .conn id label =>
      ((server.conns id).act label).map fun conn =>
        { server with
          conns := Function.update server.conns id conn
          tasks := server.tasks ++ if (server.conns id).closes label then [.erase id] else [] }
  | .stop => some { server with stopCall := .asserted }
  | .proceedStop => server.proceedStop server.stopCall
  | .runTask =>
      match server.tasks with
      | [] => none
      | task :: tasks => { server with tasks }.runTask task
  | .proceed => server.proceed server.loop

instance decidablePossible (server : TCPServer) (label : ServerLabel) :
    Decidable (server.Possible label) :=
  match label with
  | .accept _ => inferInstanceAs (Decidable (server.listener = true ∧ server.loop = .idle))
  | .conn id label =>
      inferInstanceAs (Decidable (0 < id ∧ id ≤ server.nextConnId ∧
        (server.conns id).Possible label))
  | .stop => inferInstanceAs (Decidable (server.stopCall = .idle ∧ server.status = .running))
  | .proceedStop =>
      inferInstanceAs (Decidable (server.stopCall ≠ .idle ∧ server.stopCall ≠ .queued))
  | .runTask => inferInstanceAs (Decidable (server.loop = .idle ∧ server.tasks ≠ []))
  | .proceed => inferInstanceAs (Decidable (server.loop ≠ .idle))

def step (server : TCPServer) (label : ServerLabel) : Option TCPServer :=
  if server.Possible label then server.act label else none

end TCPServer

end Wnet.Evpp
