import Wnet.Session.Threads

/-!
# What a piece of a call can do

The pieces of a call branch. Their outcomes are listed here once, each with the
tests that lead to it, and what holds of every step is proved over these lists.
-/

namespace Wnet

open Foundation

variable {Body : Type*} (config : Config Body) (session : Session Body) (call : Nat)

/-! ## The outcomes -/

/-- The outcomes of the first piece of a call. -/
inductive StartPiece : Operation Body → Session Body → Prop
  | reject {request : Request Body}
      (hlost : session.connected = false ∧
        (config.autoReconnect = false ∨ session.outputQueue.length > 10)) :
      StartPiece (.postPacket request)
        ((session.record (.called call)).returnPost call request false)
  | enter {request : Request Body}
      (hallowed : ¬ (session.connected = false ∧
        (config.autoReconnect = false ∨ session.outputQueue.length > 10))) :
      StartPiece (.postPacket request)
        ((session.record (.called call)).become call (.postPacket request .entered))
  | connect :
      StartPiece .onConnection
        ({ session with connected := true }.become call (.onConnection .assigned))
  | offer {header : PacketHeader} {input : Bytes} {pool : ChannelPool} {channel : Ref}
      (hheader : config.streamer.existPacketHeader = true)
      (hoffer : session.pool.offerChannel (header.chid &&& 0xFFFFFFF) = (pool, some channel)) :
      StartPiece (.handlePacket header input)
        ({ session with pool := pool }.become call (.handlePacket (.offered channel
          (Delivery.ofDecoded header (config.streamer.decode input header).1))))
  | miss {header : PacketHeader} {input : Bytes} {pool : ChannelPool}
      (hheader : config.streamer.existPacketHeader = true)
      (hoffer : session.pool.offerChannel (header.chid &&& 0xFFFFFFF) = (pool, none)) :
      StartPiece (.handlePacket header input)
        ({ session with pool := pool }.become call (.handlePacket (.returned false)))
  | deliver {header : PacketHeader} {input : Bytes} {handler : Nat}
      (hheader : config.streamer.existPacketHeader = false)
      (hhandler : config.defaultPacketHandler = some handler) :
      StartPiece (.handlePacket header input)
        ({ session with
          handlerCalls := session.handlerCalls ++ [(⟨none, handler, .response (Delivery.ofDecoded
            header (config.streamer.decode input header).1), none⟩ : HandlerCall Body)] }.become
              call (.handlePacket (.returned true)))
  | detach {now : Int} {pool : ChannelPool} {list : Ref}
      (hlist : session.pool.getTimeoutList now = some (pool, some list)) :
      StartPiece (.checkTimeout now)
        ({ session with pool := pool }.become call
          (.checkTimeout now (.walking list (some list))))
  | noneExpired {now : Int} {pool : ChannelPool}
      (hlist : session.pool.getTimeoutList now = some (pool, none)) :
      StartPiece (.checkTimeout now)
        ({ session with pool := pool }.become call (.checkTimeout now .walked))

/-- The outcomes of a later piece of `PostPacket`. -/
inductive PostPiece (request : Request Body) : PostStage Body → Session Body → Prop
  | refuse (hmutex : session.mutex = none)
      (hfull : config.queueLimit > 0 ∧ request.noblocking ∧
        session.queueSize ≥ config.queueLimit) :
      PostPiece request .entered
        ({ session with queueTotalSize := session.queueSize }.returnPost call request false)
  | admitted (hmutex : session.mutex = none)
      (hroom : ¬ (config.queueLimit > 0 ∧ request.noblocking ∧
        session.queueSize ≥ config.queueLimit)) :
      PostPiece request .entered
        ({ session with queueTotalSize := session.queueSize }.become call
          (.postPacket request .admitted))
  | allocate {globals : Globals} {pool : ChannelPool} {channel : Ref}
      (hheader : config.streamer.existPacketHeader = true)
      (halloc : session.pool.allocChannel session.globals = (globals, pool, channel)) :
      PostPiece request .admitted
        ({ session with
          globals := globals
          pool := pool
          allocations := session.allocations + 1
          allocated := Function.update session.allocated call
            (some (channel, pool.id channel))
          accesses := session.accesses ++ [Access.touched call] }.become call
            (.postPacket request (.allocated ⟨call, request.packet, none,
              Session.expireTime session.clock config.queueTimeout⟩ channel)))
  | withoutChannel (hheader : config.streamer.existPacketHeader = false) :
      PostPiece request .admitted
        ({ session with accesses := session.accesses ++ [Access.touched call] }.become call
          (.postPacket request (.filled ⟨call, request.packet, none,
            Session.expireTime session.clock config.queueTimeout⟩)))
  | fill {packet : Posted Body} {channel : Ref} :
      PostPiece request (.allocated packet channel)
        ({ session.setHandlerArgs channel request.packetHandler request.args with
          accesses := session.accesses ++ [Access.touched packet.call] }.become call
            (.postPacket request (.filled (packet.setChannel channel
              ((session.setHandlerArgs channel request.packetHandler request.args).pool.id
                channel)))))
  | encode {packet : Posted Body} (hmutex : session.mutex = none)
      (hconnected : session.connected = true) :
      PostPiece request (.filled packet)
        (({ session with mutex := some call }.encode config packet).become call
          (.postPacket request (.encoded packet)))
  | push {packet : Posted Body} (hmutex : session.mutex = none)
      (hconnected : session.connected = false) :
      PostPiece request (.filled packet)
        ((session.push packet).become call (.postPacket request .posted))
  | stamp {packet : Posted Body} :
      PostPiece request (.encoded packet)
        ((session.stamp packet).become call (.postPacket request (.stamped packet)))
  | send {packet : Posted Body} :
      PostPiece request (.stamped packet)
        ({ session.send packet with mutex := none }.become call (.postPacket request .posted))
  | wake (hmutex : session.mutex = none)
      (hblocking : config.queueLimit > 0 ∧ request.noblocking = false)
      (hover : session.queueSize ≤ config.queueLimit ∨ session.stopped ∨ ¬ session.connected) :
      PostPiece request .posted
        ({ session with queueTotalSize := session.queueSize }.returnPost call request true)
  | wait (hmutex : session.mutex = none)
      (hblocking : config.queueLimit > 0 ∧ request.noblocking = false)
      (hfull : ¬ (session.queueSize ≤ config.queueLimit ∨ session.stopped ∨
        ¬ session.connected)) :
      PostPiece request .posted { session with queueTotalSize := session.queueSize }
  | leave (hfree : ¬ (config.queueLimit > 0 ∧ request.noblocking = false)) :
      PostPiece request .posted (session.returnPost call request true)

/-- The outcomes of a later piece of `OnConnection`. -/
inductive FlushPiece : FlushStage Body → Session Body → Prop
  | enter (hconnected : session.connected = true) :
      FlushPiece .assigned (session.become call (.onConnection .entered))
  | lost (hconnected : session.connected = false) :
      FlushPiece .assigned (session.become call (.onConnection .returned))
  | nothing (hmutex : session.mutex = none) (hqueue : session.outputQueue = []) :
      FlushPiece .entered (session.become call (.onConnection .returned))
  | lock (hmutex : session.mutex = none) (hqueue : session.outputQueue ≠ []) :
      FlushPiece .entered
        ({ session with mutex := some call }.become call (.onConnection .looping))
  | encode {packet : Posted Body} {outputQueue : List (Posted Body)}
      (hqueue : session.outputQueue = packet :: outputQueue) :
      FlushPiece .looping
        (((session.pop packet outputQueue).encode config packet).become call
          (.onConnection (.encoded packet)))
  | unlock (hqueue : session.outputQueue = []) :
      FlushPiece .looping
        ({ session.recount config with mutex := none }.become call (.onConnection .returned))
  | stamp {packet : Posted Body} :
      FlushPiece (.encoded packet)
        ((session.stamp packet).become call (.onConnection (.stamped packet)))
  | send {packet : Posted Body} :
      FlushPiece (.stamped packet)
        ((session.send packet).become call (.onConnection .looping))

/-- The outcomes of a later piece of `HandlePacket`. -/
inductive ResponsePiece : ResponseStage Body → Session Body → Prop
  | answer {channel : Ref} {packet : Delivery Body} {handler : Nat}
      (hhandler : session.handlerOf config channel = some handler) :
      ResponsePiece (.offered channel packet)
        ((session.invoke channel handler (.response packet)).become call
          (.handlePacket (.answered channel)))
  | append {channel : Ref} :
      ResponsePiece (.answered channel)
        ({ session.setArgsNull channel with
          pool := ((session.setArgsNull channel).pool.appendChannel channel).1 }.become call
            (.handlePacket (.returned true)))

/-- The outcomes of a later piece of `CheckTimeout`. -/
inductive TimeoutPiece (now : Int) : TimeoutStage Body → Session Body → Prop
  | notify {list channel : Ref} {handler : Nat}
      (hhandler : session.handlerOf config channel = some handler) :
      TimeoutPiece now (.walking list (some channel))
        ((session.invoke channel handler .timeout).become call
          (.checkTimeout now (.notified list channel)))
  | skip {list channel : Ref} (hhandler : session.handlerOf config channel = none) :
      TimeoutPiece now (.walking list (some channel))
        (session.become call (.checkTimeout now (.walking list (session.pool.next channel))))
  | advance {list channel : Ref} :
      TimeoutPiece now (.notified list channel)
        ((session.setArgsNull channel).become call (.checkTimeout now
          (.walking list ((session.setArgsNull channel).pool.next channel))))
  | appendFreeList {list : Ref} {pool : ChannelPool} {result : Bool}
      (happend : session.pool.appendFreeList (some list) = some (pool, result)) :
      TimeoutPiece now (.walking list none)
        ({ session with pool := pool }.become call (.checkTimeout now .walked))
  | detach (hmutex : session.mutex = none) :
      TimeoutPiece now .walked
        ((session.detachTimedOut now).become call (.checkTimeout now
          (.draining (session.outputQueue.takeWhile (Session.timedOut now)))))
  | dropPacket {packet : Posted Body} {packetList : List (Posted Body)}
      (hchannel : packet.channel = none) :
      TimeoutPiece now (.draining (packet :: packetList))
        ((session.release packet).become call
          (.checkTimeout now (.draining packetList)))
  | notifyQueued {packet : Posted Body} {packetList : List (Posted Body)} {channel : Ref}
      {handler : Nat} (hchannel : packet.channel = some channel)
      (hhandler : (session.release packet).handlerOf config channel = some handler) :
      TimeoutPiece now (.draining (packet :: packetList))
        (((session.release packet).invoke channel handler .timeout).become call
          (.checkTimeout now (.drained channel packetList)))
  | skipQueued {packet : Posted Body} {packetList : List (Posted Body)} {channel : Ref}
      (hchannel : packet.channel = some channel)
      (hhandler : (session.release packet).handlerOf config channel = none) :
      TimeoutPiece now (.draining (packet :: packetList))
        ({ session.release packet with
          pool := (session.pool.freeChannel (some channel)).1 }.become call
            (.checkTimeout now (.draining packetList)))
  | freeChannel {channel : Ref} {packetList : List (Posted Body)} :
      TimeoutPiece now (.drained channel packetList)
        ({ session.setArgsNull channel with
          pool := ((session.setArgsNull channel).pool.freeChannel (some channel)).1 }.become call
            (.checkTimeout now (.draining packetList)))
  | recount (hmutex : session.mutex = none)
      (hover : config.queueLimit > 0 ∧ session.queueTotalSize > config.queueLimit) :
      TimeoutPiece now (.draining [])
        ((session.recount config).become call (.checkTimeout now .returned))
  | leave (hbelow : ¬ (config.queueLimit > 0 ∧ session.queueTotalSize > config.queueLimit)) :
      TimeoutPiece now (.draining []) (session.become call (.checkTimeout now .returned))

/-- The outcomes of a step. -/
inductive Turn : Label Body → Session Body → Prop
  | start {call : Nat} {operation : Operation Body} {next : Session Body}
      (hidle : session.calls call = .idle)
      (hnext : session.start config call operation = some next) :
      Turn (.start call operation) next
  | postPacket {call : Nat} {request : Request Body} {stage : PostStage Body}
      {next : Session Body} (hcall : session.calls call = .postPacket request stage)
      (hnext : session.postPacket config call request stage = some next) :
      Turn (.proceed call) next
  | onConnection {call : Nat} {stage : FlushStage Body} {next : Session Body}
      (hcall : session.calls call = .onConnection stage)
      (hnext : session.onConnection config call stage = some next) : Turn (.proceed call) next
  | handlePacket {call : Nat} {stage : ResponseStage Body} {next : Session Body}
      (hcall : session.calls call = .handlePacket stage)
      (hnext : session.handlePacket config call stage = some next) : Turn (.proceed call) next
  | checkTimeout {call : Nat} {now : Int} {stage : TimeoutStage Body} {next : Session Body}
      (hcall : session.calls call = .checkTimeout now stage)
      (hnext : session.checkTimeout config call now stage = some next) : Turn (.proceed call) next
  | connectionLost : Turn .connectionLost { session with connected := false }
  | loopStop : Turn .loopStop { session with stopped := true }
  | setClock {time : Int} : Turn (.setClock time) { session with clock := time }
  | allocElsewhere {pool : ChannelPool} :
      Turn (.allocElsewhere pool)
        { session with
          globals := (pool.allocChannel session.globals).1
          allocations := session.allocations + 1 }

/-! ## There are no others -/

namespace Session

variable {config session call} {next : Session Body}

theorem start_cases {operation : Operation Body}
    (hnext : session.start config call operation = some next) :
    StartPiece config session call operation next := by
  cases operation with
  | postPacket request =>
      simp only [start] at hnext
      split at hnext <;> obtain rfl := Option.some.inj hnext
      next hlost => exact .reject hlost
      next hallowed => exact .enter hallowed
  | onConnection =>
      obtain rfl := Option.some.inj hnext
      exact .connect
  | handlePacket header input =>
      simp only [start] at hnext
      split at hnext
      next hheader =>
        split at hnext <;> obtain rfl := Option.some.inj hnext
        next hoffer => exact .offer hheader hoffer
        next hoffer => exact .miss hheader hoffer
      next hheader =>
        obtain ⟨handler, hhandler, rfl⟩ := Option.map_eq_some_iff.mp hnext
        exact .deliver (by simpa using hheader) hhandler
  | checkTimeout now =>
      obtain ⟨⟨pool, list⟩, hlist, rfl⟩ := Option.map_eq_some_iff.mp hnext
      cases list with
      | none => exact .noneExpired hlist
      | some list => exact .detach hlist

theorem postPacket_cases {request : Request Body} {stage : PostStage Body}
    (hnext : session.postPacket config call request stage = some next) :
    PostPiece config session call request stage next := by
  cases stage with
  | entered =>
      simp only [postPacket] at hnext
      split at hnext
      next hmutex =>
        split at hnext <;> obtain rfl := Option.some.inj hnext
        next hfull => exact .refuse hmutex hfull
        next hroom => exact .admitted hmutex hroom
      next => cases hnext
  | admitted =>
      simp only [postPacket] at hnext
      split at hnext <;> obtain rfl := Option.some.inj hnext
      next hheader => exact .allocate hheader rfl
      next hheader => exact .withoutChannel (by simpa using hheader)
  | allocated packet channel =>
      obtain rfl := Option.some.inj hnext
      exact .fill
  | filled packet =>
      simp only [postPacket] at hnext
      split at hnext
      next hmutex =>
        split at hnext <;> obtain rfl := Option.some.inj hnext
        next hconnected => exact .encode hmutex hconnected
        next hconnected => exact .push hmutex (by simpa using hconnected)
      next => cases hnext
  | encoded packet =>
      obtain rfl := Option.some.inj hnext
      exact .stamp
  | stamped packet =>
      obtain rfl := Option.some.inj hnext
      exact .send
  | posted =>
      simp only [postPacket] at hnext
      split at hnext
      next hblocking =>
        split at hnext
        next hmutex =>
          split at hnext <;> obtain rfl := Option.some.inj hnext
          next hover => exact .wake hmutex hblocking hover
          next hfull => exact .wait hmutex hblocking hfull
        next => cases hnext
      next hfree =>
        obtain rfl := Option.some.inj hnext
        exact .leave hfree
  | returned result => cases hnext

theorem onConnection_cases {stage : FlushStage Body}
    (hnext : session.onConnection config call stage = some next) :
    FlushPiece config session call stage next := by
  cases stage with
  | assigned =>
      simp only [onConnection] at hnext
      split at hnext <;> obtain rfl := Option.some.inj hnext
      next hconnected => exact .enter hconnected
      next hconnected => exact .lost (by simpa using hconnected)
  | entered =>
      simp only [onConnection] at hnext
      split at hnext
      next hmutex =>
        split at hnext <;> obtain rfl := Option.some.inj hnext
        next hqueue => exact .nothing hmutex hqueue
        next hqueue => exact .lock hmutex hqueue
      next => cases hnext
  | looping =>
      simp only [onConnection] at hnext
      split at hnext <;> obtain rfl := Option.some.inj hnext
      next hqueue => exact .encode hqueue
      next hqueue => exact .unlock hqueue
  | encoded packet =>
      obtain rfl := Option.some.inj hnext
      exact .stamp
  | stamped packet =>
      obtain rfl := Option.some.inj hnext
      exact .send
  | returned => cases hnext

theorem handlePacket_cases {stage : ResponseStage Body}
    (hnext : session.handlePacket config call stage = some next) :
    ResponsePiece config session call stage next := by
  cases stage with
  | offered channel packet =>
      obtain ⟨handler, hhandler, rfl⟩ := Option.map_eq_some_iff.mp hnext
      exact .answer hhandler
  | answered channel =>
      obtain rfl := Option.some.inj hnext
      exact .append
  | returned result => cases hnext

theorem checkTimeout_cases {now : Int} {stage : TimeoutStage Body}
    (hnext : session.checkTimeout config call now stage = some next) :
    TimeoutPiece config session call now stage next := by
  cases stage with
  | walking list cursor =>
      cases cursor with
      | none =>
          obtain ⟨⟨pool, result⟩, happend, rfl⟩ := Option.map_eq_some_iff.mp hnext
          exact .appendFreeList happend
      | some channel =>
          simp only [checkTimeout] at hnext
          split at hnext <;> obtain rfl := Option.some.inj hnext
          next hhandler => exact .notify hhandler
          next hhandler => exact .skip hhandler
  | notified list channel =>
      obtain rfl := Option.some.inj hnext
      exact .advance
  | walked =>
      simp only [checkTimeout] at hnext
      split at hnext
      next hmutex =>
        obtain rfl := Option.some.inj hnext
        exact .detach hmutex
      next => cases hnext
  | draining packetList =>
      cases packetList with
      | nil =>
          simp only [checkTimeout] at hnext
          split at hnext
          next hover =>
            split at hnext
            next hmutex =>
              obtain rfl := Option.some.inj hnext
              exact .recount hmutex hover
            next => cases hnext
          next hbelow =>
            obtain rfl := Option.some.inj hnext
            exact .leave hbelow
      | cons packet packetList =>
          simp only [checkTimeout] at hnext
          split at hnext
          next hchannel =>
            obtain rfl := Option.some.inj hnext
            exact .dropPacket hchannel
          next hchannel =>
            split at hnext <;> obtain rfl := Option.some.inj hnext
            next hhandler => exact .notifyQueued hchannel hhandler
            next hhandler => exact .skipQueued hchannel hhandler
  | drained channel packetList =>
      obtain rfl := Option.some.inj hnext
      exact .freeChannel
  | returned => cases hnext

theorem proceed_cases (hnext : session.proceed config call = some next) :
    Turn config session (.proceed call) next := by
  simp only [proceed] at hnext
  split at hnext
  next => cases hnext
  next hcall => exact .postPacket hcall hnext
  next hcall => exact .onConnection hcall hnext
  next hcall => exact .handlePacket hcall hnext
  next hcall => exact .checkTimeout hcall hnext

theorem step_cases {label : Label Body} (hstep : session.step config label = some next) :
    Turn config session label next := by
  cases label with
  | start call operation =>
      simp only [step] at hstep
      split at hstep
      next hidle => exact .start hidle hstep
      next => cases hstep
  | proceed call => exact proceed_cases hstep
  | connectionLost =>
      obtain rfl := Option.some.inj hstep
      exact .connectionLost
  | loopStop =>
      obtain rfl := Option.some.inj hstep
      exact .loopStop
  | setClock time =>
      obtain rfl := Option.some.inj hstep
      exact .setClock
  | allocElsewhere pool =>
      obtain rfl := Option.some.inj hstep
      exact .allocElsewhere

end Session

end Wnet
