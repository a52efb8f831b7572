import Wnet.Channel.Pool
import Wnet.Foundation.Run
import Wnet.Packet.Wire

/-!
# The threads of a client session

Any number of threads call `PostPacket` and `CheckTimeout` while the loop thread
runs `OnConnection` and `HandlePacket`. A call is cut where a section protected
by `ClientSession::mutex_` or by the mutex of the channel pool begins or ends and
around each callback, and the pieces of different calls interleave freely. The
stages below are the points between the pieces, with the local variables that
the rest of the call still reads. Calls have numbers of their own, so that a
thread, or a handler that posts again, is just a sequence of calls.
-/

namespace Wnet

open Foundation

variable {Body : Type*}

/-- The arguments of `PostPacket`. -/
structure Request (Body : Type*) where
  packet : Packet Body
  packetHandler : Option Nat
  args : Option Nat
  noblocking : Bool

/-- The members of a posted packet; `call` is the call of `PostPacket` it came from. -/
structure Posted (Body : Type*) where
  call : Nat
  packet : Packet Body
  channel : Option Ref
  expireTime : Int

/-- `Packet::SetChannel`, which copies the identifier of the channel. -/
def Posted.setChannel (packet : Posted Body) (channel : Ref) (chid : UInt32) : Posted Body :=
  { packet with
    packet := { packet.packet with header := { packet.packet.header with chid := chid } }
    channel := some channel }

/-- The settings of a session, made before it is used. -/
structure Config (Body : Type*) where
  streamer : Streamer Body
  defaultPacketHandler : Option Nat
  autoReconnect : Bool
  queueTimeout : Int
  queueLimit : Int

/-- `PostPacket`. The mutex is held in the stages `encoded` and `stamped`. -/
inductive PostStage (Body : Type*)
  | entered
  | admitted
  | allocated (packet : Posted Body) (channel : Ref)
  | filled (packet : Posted Body)
  | encoded (packet : Posted Body)
  | stamped (packet : Posted Body)
  | posted
  | returned (result : Bool)

/-- `OnConnection` with `PostOutputQueue`. The mutex is held from `looping` to `stamped`. -/
inductive FlushStage (Body : Type*)
  | assigned
  | entered
  | looping
  | encoded (packet : Posted Body)
  | stamped (packet : Posted Body)
  | returned

/-- `HandlePacket`. -/
inductive ResponseStage (Body : Type*)
  | offered (channel : Ref) (packet : Delivery Body)
  | answered (channel : Ref)
  | returned (result : Bool)

/-- `CheckTimeout`: first the detached channels, then the detached packets. -/
inductive TimeoutStage (Body : Type*)
  | walking (list : Ref) (channel : Option Ref)
  | notified (list channel : Ref)
  | walked
  | draining (packetList : List (Posted Body))
  | drained (channel : Ref) (packetList : List (Posted Body))
  | returned

/-- What has become of a call. -/
inductive Activity (Body : Type*)
  | idle
  | postPacket (request : Request Body) (stage : PostStage Body)
  | onConnection (stage : FlushStage Body)
  | handlePacket (stage : ResponseStage Body)
  | checkTimeout (now : Int) (stage : TimeoutStage Body)

def Activity.isIdle {Body : Type*} : Activity Body → Bool
  | idle => true
  | _ => false

theorem Activity.eq_idle {Body : Type*} {activity : Activity Body} (hidle : activity.isIdle) :
    activity = .idle := by
  cases activity with
  | idle => rfl
  | _ => cases hidle

/-- The packet a handler is called with; `timeout` is `ControlPacket::TimeoutPacket`. -/
inductive Notice (Body : Type*)
  | response (packet : Delivery Body)
  | timeout

/-- A call of `IPacketHandler::HandlePacket`, with the identifier that the channel
it was made for had at that moment. -/
structure HandlerCall (Body : Type*) where
  chid : Option UInt32
  handler : Nat
  packet : Notice Body
  args : Option Nat

/-- What an observer of the posted packets sees. -/
inductive Event
  | called (call : Nat)
  | returned (call : Nat) (result : Bool)
  | encoded (call : Nat)
  | freed (call : Nat)
  deriving DecidableEq

/-- What is done with a packet of a call of `PostPacket`. -/
inductive Access
  /-- A member of it is read or written. -/
  | touched (call : Nat)
  | freed (call : Nat)
  deriving DecidableEq

/-- The members of a session, the process around it and the calls on it. The
last seven fields are records that the session itself does not have. -/
structure Session (Body : Type*) where
  globals : Globals
  pool : ChannelPool
  outputQueue : List (Posted Body)
  output : Bytes
  queueTotalSize : Int
  mutex : Option Nat
  /-- The value of `IsConnected()`. -/
  connected : Bool
  /-- Whether the event loop is stopped. -/
  stopped : Bool
  /-- What `gettimeofday` returns, in microseconds. -/
  clock : Int
  calls : Nat → Activity Body
  /-- The number of `AllocChannel` calls in the process. -/
  allocations : Nat
  /-- The channel and the identifier that a call of `PostPacket` was given. -/
  allocated : Nat → Option (Ref × UInt32)
  /-- The channel identifiers of the request frames in `output_`. -/
  frames : List UInt32
  /-- The channel identifiers of the request frames handed to the connection. -/
  transmitted : List UInt32
  handlerCalls : List (HandlerCall Body)
  history : List Event
  accesses : List Access

/-- What a thread may call. -/
inductive Operation (Body : Type*)
  | postPacket (request : Request Body)
  | onConnection
  | handlePacket (header : PacketHeader) (input : Bytes)
  | checkTimeout (now : Int)

/-- What happens next: a call begins or goes on, or the environment moves. -/
inductive Label (Body : Type*)
  | start (call : Nat) (operation : Operation Body)
  | proceed (call : Nat)
  | connectionLost
  | loopStop
  | setClock (time : Int)
  | allocElsewhere (pool : ChannelPool)

namespace Session

/-- A new session in a new process. -/
def new (mem : Ref → Channel) : Session Body where
  globals := .initial
  pool := .new mem
  outputQueue := []
  output := []
  queueTotalSize := 0
  mutex := none
  connected := false
  stopped := false
  clock := 0
  calls := fun _ => .idle
  allocations := 0
  allocated := fun _ => none
  frames := []
  transmitted := []
  handlerCalls := []
  history := []
  accesses := []

def become (session : Session Body) (call : Nat) (activity : Activity Body) : Session Body :=
  { session with calls := Function.update session.calls call activity }

def record (session : Session Body) (event : Event) : Session Body :=
  { session with history := session.history ++ [event] }

/-- `packet->Free()`. -/
def free (session : Session Body) (packet : Posted Body) : Session Body :=
  { session with
    history := session.history ++ [.freed packet.call]
    accesses := session.accesses ++ [.freed packet.call] }

/-- `outputQueue_.Size() + channelPool_.GetUseListCount()`. -/
def queueSize (session : Session Body) : Int :=
  session.outputQueue.length + session.pool.getUseListCount

/-- `Packet::SetExpireTime`: the time after so many milliseconds, or after a day. -/
def expireTime (clock milliseconds : Int) : Int :=
  clock + (if milliseconds = 0 then 1000 * 86400 else milliseconds) * 1000

/-- `PacketQueue::GetTimeoutList`: whether a packet at the head is taken. -/
def timedOut (now : Int) (packet : Posted Body) : Bool :=
  packet.expireTime ≠ 0 ∧ packet.expireTime < now

variable (config : Config Body)

/-- The handler to call for a channel. -/
def handlerOf (session : Session Body) (channel : Ref) : Option Nat :=
  (session.pool.mem channel).handler.or config.defaultPacketHandler

/-- `packetHandler->HandlePacket` on behalf of a channel. -/
def invoke (session : Session Body) (channel : Ref) (handler : Nat) (packet : Notice Body) :
    Session Body :=
  { session with
    handlerCalls := session.handlerCalls ++
      [⟨some (session.pool.id channel), handler, packet, (session.pool.mem channel).args⟩] }

/-- `channel->SetHandler` and `channel->SetArgs`. -/
def setHandlerArgs (session : Session Body) (channel : Ref) (handler args : Option Nat) :
    Session Body :=
  { session with
    pool := session.pool.modify channel fun fields =>
      { fields with handler := handler, args := args } }

/-- `channel->SetArgs(NULL)`. -/
def setArgsNull (session : Session Body) (channel : Ref) : Session Body :=
  { session with
    pool := session.pool.modify channel fun fields => { fields with args := none } }

/-! ## Sending -/

/-- `streamer_->Encode(packet, &output_)`. -/
def encode (session : Session Body) (packet : Posted Body) : Session Body :=
  match config.streamer.encode packet.packet session.output with
  | (true, _, output) =>
      { session with
        output := output
        frames := if config.streamer.existPacketHeader
          then session.frames ++ [packet.packet.header.chid] else session.frames
        history := session.history ++ [.encoded packet.call]
        accesses := session.accesses ++ [.touched packet.call] }
  | (false, _, output) =>
      { session with
        output := output
        accesses := session.accesses ++ [.touched packet.call] }

/-- `channelPool_.SetExpireTime(packet->GetChannel(), packet->GetExpireTime())`. -/
def stamp (session : Session Body) (packet : Posted Body) : Session Body :=
  { session with
    pool := session.pool.setExpireTime packet.channel packet.expireTime
    accesses := session.accesses ++ [.touched packet.call] }

/-- `packet->Free()`, then `connPtr_->Send(&output_)` if there is something to
send. Without a connection `Send` returns and leaves the buffer as it is. -/
def send (session : Session Body) (packet : Posted Body) : Session Body :=
  let session := session.free packet
  if session.output ≠ [] ∧ session.connected then
    { session with
      output := []
      frames := []
      transmitted := session.transmitted ++ session.frames }
  else session

/-- The recount of the queue when it was above its limit. -/
def recount (session : Session Body) : Session Body :=
  if config.queueLimit > 0 ∧ session.queueTotalSize > config.queueLimit
  then { session with queueTotalSize := session.queueSize } else session

/-! ## The queue -/

/-- `outputQueue_.Push(packet)`, which links the packet to the last one. -/
def push (session : Session Body) (packet : Posted Body) : Session Body :=
  { session with
    outputQueue := session.outputQueue ++ [packet]
    accesses := session.accesses ++
      (packet :: session.outputQueue.getLast?.toList).map fun linked => Access.touched linked.call }

@[simp] theorem push_outputQueue (session : Session Body) (packet : Posted Body) :
    (session.push packet).outputQueue = session.outputQueue ++ [packet] := rfl

/-- `outputQueue_.Pop()` of the packet at the head, with the rest of the queue. -/
def pop (session : Session Body) (packet : Posted Body) (outputQueue : List (Posted Body)) :
    Session Body :=
  { session with
    outputQueue := outputQueue
    accesses := session.accesses ++ [.touched packet.call] }

/-- `outputQueue_.GetTimeoutList(now)`, which looks at the packets at the head up to the first
that it leaves in the queue. -/
def detachTimedOut (session : Session Body) (now : Int) : Session Body :=
  { session with
    outputQueue := session.outputQueue.dropWhile (timedOut now)
    accesses := session.accesses ++ (session.outputQueue.takeWhile (timedOut now) ++
      (session.outputQueue.dropWhile (timedOut now)).head?.toList).map
        fun looked => Access.touched looked.call }

/-- `packetList->GetNext()`, `packet->GetChannel()` and `packet->Free()`. -/
def release (session : Session Body) (packet : Posted Body) : Session Body :=
  { session with
    history := session.history ++ [.freed packet.call]
    accesses := session.accesses ++ [.touched packet.call, .freed packet.call] }

/-! ## The calls -/

def returnPost (session : Session Body) (call : Nat) (request : Request Body) (result : Bool) :
    Session Body :=
  (session.record (.returned call result)).become call (.postPacket request (.returned result))

/-- The piece of `PostPacket` that follows a stage. The clock is read before the channel is
allocated. The connection, which may have come or gone since the first test, is looked at
again under the mutex, and a caller that waits evaluates the predicate of `wait_until` until
it is true. -/
def postPacket (session : Session Body) (call : Nat) (request : Request Body) :
    PostStage Body → Option (Session Body)
  | .entered =>
      if session.mutex = none then
        let session := { session with queueTotalSize := session.queueSize }
        if config.queueLimit > 0 ∧ request.noblocking ∧
            session.queueTotalSize ≥ config.queueLimit
        then some (session.returnPost call request false)
        else some (session.become call (.postPacket request .admitted))
      else none
  | .admitted =>
      let packet : Posted Body :=
        ⟨call, request.packet, none, expireTime session.clock config.queueTimeout⟩
      let accesses := session.accesses ++ [.touched call]
      if config.streamer.existPacketHeader then
        let (globals, pool, channel) := session.pool.allocChannel session.globals
        some ({ session with
          globals := globals
          pool := pool
          allocations := session.allocations + 1
          allocated := Function.update session.allocated call
            (some (channel, pool.id channel))
          accesses := accesses }.become call
              (.postPacket request (.allocated packet channel)))
      else
        some ({ session with accesses := accesses }.become call
          (.postPacket request (.filled packet)))
  | .allocated packet channel =>
      let session := session.setHandlerArgs channel request.packetHandler request.args
      let accesses := session.accesses ++ [.touched packet.call]
      some ({ session with accesses := accesses }.become call
        (.postPacket request (.filled (packet.setChannel channel (session.pool.id channel)))))
  | .filled packet =>
      if session.mutex = none then
        if session.connected then
          some (({ session with mutex := some call }.encode config packet).become call
            (.postPacket request (.encoded packet)))
        else
          some ((session.push packet).become call (.postPacket request .posted))
      else none
  | .encoded packet =>
      some ((session.stamp packet).become call (.postPacket request (.stamped packet)))
  | .stamped packet =>
      some ({ session.send packet with mutex := none }.become call (.postPacket request .posted))
  | .posted =>
      if config.queueLimit > 0 ∧ request.noblocking = false then
        if session.mutex = none then
          let session := { session with queueTotalSize := session.queueSize }
          if session.queueTotalSize ≤ config.queueLimit ∨ session.stopped ∨ ¬ session.connected
          then some (session.returnPost call request true)
          else some session
        else none
      else some (session.returnPost call request true)
  | .returned _ => none

/-- The piece of `OnConnection` that follows a stage. `PostOutputQueue` looks for itself
whether there is a connection, and recounts the queue under the lock of its loop. -/
def onConnection (session : Session Body) (call : Nat) :
    FlushStage Body → Option (Session Body)
  | .assigned =>
      if session.connected then some (session.become call (.onConnection .entered))
      else some (session.become call (.onConnection .returned))
  | .entered =>
      if session.mutex = none then
        if session.outputQueue = [] then some (session.become call (.onConnection .returned))
        else some ({ session with mutex := some call }.become call (.onConnection .looping))
      else none
  | .looping =>
      match session.outputQueue with
      | packet :: outputQueue =>
          some (((session.pop packet outputQueue).encode config packet).become call
            (.onConnection (.encoded packet)))
      | [] =>
          some ({ session.recount config with mutex := none }.become call
            (.onConnection .returned))
  | .encoded packet =>
      some ((session.stamp packet).become call (.onConnection (.stamped packet)))
  | .stamped packet => some ((session.send packet).become call (.onConnection .looping))
  | .returned => none

/-- The piece of `HandlePacket` that follows a stage. A null handler fails the assertion, and
`AppendChannel` does not look at the use map, out of which `OfferChannel` took the entry. -/
def handlePacket (session : Session Body) (call : Nat) :
    ResponseStage Body → Option (Session Body)
  | .offered channel packet =>
      (session.handlerOf config channel).map fun handler =>
        (session.invoke channel handler (.response packet)).become call
          (.handlePacket (.answered channel))
  | .answered channel =>
      let session := session.setArgsNull channel
      some ({ session with pool := (session.pool.appendChannel channel).1 }.become call
        (.handlePacket (.returned true)))
  | .returned _ => none

/-- The piece of `CheckTimeout` that follows a stage. Without a handler nothing is reported and
the arguments stay in the channel. The list of channels goes back at once, after the last of
its handlers was called. A packet is freed before the handler of its channel is called. -/
def checkTimeout (session : Session Body) (call : Nat) (now : Int) :
    TimeoutStage Body → Option (Session Body)
  | .walking list (some channel) =>
      match session.handlerOf config channel with
      | some handler =>
          some ((session.invoke channel handler .timeout).become call
            (.checkTimeout now (.notified list channel)))
      | none =>
          some (session.become call
            (.checkTimeout now (.walking list (session.pool.next channel))))
  | .notified list channel =>
      let session := session.setArgsNull channel
      some (session.become call (.checkTimeout now (.walking list (session.pool.next channel))))
  | .walking list none =>
      (session.pool.appendFreeList (some list)).map fun outcome =>
        { session with pool := outcome.1 }.become call (.checkTimeout now .walked)
  | .walked =>
      if session.mutex = none then
        some ((session.detachTimedOut now).become call
          (.checkTimeout now (.draining (session.outputQueue.takeWhile (timedOut now)))))
      else none
  | .draining (packet :: packetList) =>
      let session := session.release packet
      match packet.channel with
      | none => some (session.become call (.checkTimeout now (.draining packetList)))
      | some channel =>
          match session.handlerOf config channel with
          | some handler =>
              some ((session.invoke channel handler .timeout).become call
                (.checkTimeout now (.drained channel packetList)))
          | none =>
              some ({ session with pool := (session.pool.freeChannel (some channel)).1 }.become
                call (.checkTimeout now (.draining packetList)))
  | .drained channel packetList =>
      let session := session.setArgsNull channel
      some ({ session with pool := (session.pool.freeChannel (some channel)).1 }.become call
        (.checkTimeout now (.draining packetList)))
  | .draining [] =>
      if config.queueLimit > 0 ∧ session.queueTotalSize > config.queueLimit then
        if session.mutex = none then
          some ((session.recount config).become call (.checkTimeout now .returned))
        else none
      else some (session.become call (.checkTimeout now .returned))
  | .returned => none

/-- The first piece of a call. `PostPacket` looks at the connection and the queue without the
mutex, and `HandlePacket` clears the upper bits of the identifier, which are not the
client's. -/
def start (session : Session Body) (call : Nat) : Operation Body → Option (Session Body)
  | .postPacket request =>
      let session := session.record (.called call)
      if session.connected = false ∧
          (config.autoReconnect = false ∨ session.outputQueue.length > 10)
      then some (session.returnPost call request false)
      else some (session.become call (.postPacket request .entered))
  | .onConnection =>
      some ({ session with connected := true }.become call (.onConnection .assigned))
  | .handlePacket header input =>
      let packet := Delivery.ofDecoded header (config.streamer.decode input header).1
      if config.streamer.existPacketHeader then
        match session.pool.offerChannel (header.chid &&& 0xFFFFFFF) with
        | (pool, some channel) =>
            some ({ session with pool := pool }.become call
              (.handlePacket (.offered channel packet)))
        | (pool, none) =>
            some ({ session with pool := pool }.become call (.handlePacket (.returned false)))
      else
        config.defaultPacketHandler.map fun handler =>
          let invocation : HandlerCall Body := ⟨none, handler, .response packet, none⟩
          { session with handlerCalls := session.handlerCalls ++ [invocation] }.become call
            (.handlePacket (.returned true))
  | .checkTimeout now =>
      (session.pool.getTimeoutList now).map fun outcome =>
        match outcome with
        | (pool, some list) =>
            { session with pool := pool }.become call
              (.checkTimeout now (.walking list (some list)))
        | (pool, none) => { session with pool := pool }.become call (.checkTimeout now .walked)

/-- The next piece of a call. -/
def proceed (session : Session Body) (call : Nat) : Option (Session Body) :=
  match session.calls call with
  | .idle => none
  | .postPacket request stage => session.postPacket config call request stage
  | .onConnection stage => session.onConnection config call stage
  | .handlePacket stage => session.handlePacket config call stage
  | .checkTimeout now stage => session.checkTimeout config call now stage

def step (session : Session Body) : Label Body → Option (Session Body)
  | .start call operation =>
      match session.calls call with
      | .idle => session.start config call operation
      | _ => none
  | .proceed call => session.proceed config call
  | .connectionLost => some { session with connected := false }
  | .loopStop => some { session with stopped := true }
  | .setClock time => some { session with clock := time }
  | .allocElsewhere pool =>
      some { session with
        globals := (pool.allocChannel session.globals).1
        allocations := session.allocations + 1 }

end Session

/-! ## What the parts of a piece leave alone -/

/-- What `Encode` leaves in the session: at most one more frame. -/
structure Encodes (session session' : Session Body) (chid : UInt32) : Prop where
  globals : session'.globals = session.globals
  pool : session'.pool = session.pool
  outputQueue : session'.outputQueue = session.outputQueue
  mutex : session'.mutex = session.mutex
  connected : session'.connected = session.connected
  calls : session'.calls = session.calls
  allocations : session'.allocations = session.allocations
  allocated : session'.allocated = session.allocated
  transmitted : session'.transmitted = session.transmitted
  handlerCalls : session'.handlerCalls = session.handlerCalls
  frames : ∀ other ∈ session'.frames, other ∈ session.frames ∨ other = chid

theorem encode_spec (config : Config Body) (session : Session Body) (packet : Posted Body) :
    Encodes session (session.encode config packet) packet.packet.header.chid := by
  unfold Session.encode
  split
  · refine ⟨rfl, rfl, rfl, rfl, rfl, rfl, rfl, rfl, rfl, rfl, ?_⟩
    intro other hother
    dsimp only at hother
    split at hother
    · simpa using hother
    · exact Or.inl hother
  · exact ⟨rfl, rfl, rfl, rfl, rfl, rfl, rfl, rfl, rfl, rfl, fun other hother => Or.inl hother⟩

/-- What `Send` leaves in the session: the frames are where they were or transmitted. -/
structure Sends (session session' : Session Body) : Prop where
  globals : session'.globals = session.globals
  pool : session'.pool = session.pool
  outputQueue : session'.outputQueue = session.outputQueue
  mutex : session'.mutex = session.mutex
  connected : session'.connected = session.connected
  calls : session'.calls = session.calls
  allocations : session'.allocations = session.allocations
  allocated : session'.allocated = session.allocated
  handlerCalls : session'.handlerCalls = session.handlerCalls
  frames : ∀ chid ∈ session'.frames, chid ∈ session.frames
  transmitted : ∀ chid ∈ session'.transmitted, chid ∈ session.transmitted ∨ chid ∈ session.frames

theorem send_spec (session : Session Body) (packet : Posted Body) :
    Sends session (session.send packet) := by
  unfold Session.send
  dsimp only
  split
  · refine ⟨rfl, rfl, rfl, rfl, rfl, rfl, rfl, rfl, rfl, ?_, ?_⟩
    · exact fun chid hmem => absurd hmem List.not_mem_nil
    · exact fun chid hmem => List.mem_append.mp hmem
  · exact ⟨rfl, rfl, rfl, rfl, rfl, rfl, rfl, rfl, rfl, fun _ hmem => hmem,
      fun _ hmem => Or.inl hmem⟩

theorem recount_eq (config : Config Body) (session : Session Body) :
    ∃ total, session.recount config = { session with queueTotalSize := total } := by
  unfold Session.recount
  split
  · exact ⟨_, rfl⟩
  · exact ⟨session.queueTotalSize, rfl⟩

end Wnet
