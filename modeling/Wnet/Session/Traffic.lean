import Wnet.Session.Pieces

/-!
# The traffic of packets

What happens to packets depends on little of a session: which of them are
queued, how far the call that posted each of them is, and what was observed so
far. `Traffic` is this view and `Traffic.Move` are the moves it can make. Every
step of a session is one of them.
-/

namespace Wnet

open Foundation

variable {Body : Type*}

/-- How far a call of `PostPacket` is. A `placed` packet was queued or encoded;
`other` is a call of another function. -/
inductive Progress
  | new
  | pending
  | placed
  | closed
  | other
  deriving DecidableEq

def PostStage.progress : PostStage Body → Progress
  | .entered | .admitted | .allocated _ _ | .filled _ => .pending
  | .encoded _ | .stamped _ | .posted => .placed
  | .returned _ => .closed

def Activity.progress : Activity Body → Progress
  | .idle => .new
  | .postPacket _ stage => stage.progress
  | .onConnection _ | .handlePacket _ | .checkTimeout _ _ => .other

/-- The packet at a stage before it is placed belongs to the call. -/
def PostStage.Own (call : Nat) : PostStage Body → Prop
  | .allocated packet _ | .filled packet => packet.call = call
  | _ => True

structure Traffic where
  queue : List Nat
  progress : Nat → Progress
  history : List Event

namespace Traffic

/-- A packet is encoded, or its `Encode` fails and nothing is seen of it. -/
def Encoding (call : Nat) (events : List Event) : Prop := events = [] ∨ events = [.encoded call]

/-- One move. The second argument is the call that sends its packet directly, if any does. -/
inductive Move : Traffic → Option Nat → Traffic → Prop
  | quiet (traffic : Traffic) : Move traffic none traffic
  | otherCall (traffic : Traffic) (call : Nat) (hnew : traffic.progress call = .new) :
      Move traffic none { traffic with progress := Function.update traffic.progress call .other }
  | call (traffic : Traffic) (call : Nat) (hnew : traffic.progress call = .new) :
      Move traffic none
        { traffic with
          progress := Function.update traffic.progress call .pending
          history := traffic.history ++ [.called call] }
  | reject (traffic : Traffic) (call : Nat) (hnew : traffic.progress call = .new) :
      Move traffic none
        { traffic with
          progress := Function.update traffic.progress call .closed
          history := traffic.history ++ [.called call] ++ [.returned call false] }
  | refuse (traffic : Traffic) (call : Nat) (hpending : traffic.progress call = .pending) :
      Move traffic none
        { traffic with
          progress := Function.update traffic.progress call .closed
          history := traffic.history ++ [.returned call false] }
  | push (traffic : Traffic) (call : Nat) (hpending : traffic.progress call = .pending) :
      Move traffic none
        { traffic with
          progress := Function.update traffic.progress call .placed
          queue := traffic.queue ++ [call] }
  | direct (traffic : Traffic) (call : Nat) (events : List Event)
      (hpending : traffic.progress call = .pending) (hevents : Encoding call events) :
      Move traffic (some call)
        { traffic with
          progress := Function.update traffic.progress call .placed
          history := traffic.history ++ events }
  | flush (traffic : Traffic) (call : Nat) (rest : List Nat) (events : List Event)
      (hqueue : traffic.queue = call :: rest) (hevents : Encoding call events) :
      Move traffic none { traffic with queue := rest, history := traffic.history ++ events }
  | expire (traffic : Traffic) (kept : List Nat) (hkept : kept.IsSuffix traffic.queue) :
      Move traffic none { traffic with queue := kept }
  | free (traffic : Traffic) (call : Nat) :
      Move traffic none { traffic with history := traffic.history ++ [.freed call] }
  | accept (traffic : Traffic) (call : Nat) (hplaced : traffic.progress call = .placed) :
      Move traffic none
        { traffic with
          progress := Function.update traffic.progress call .closed
          history := traffic.history ++ [.returned call true] }

end Traffic

namespace Session

def traffic (session : Session Body) : Traffic where
  queue := session.outputQueue.map Posted.call
  progress := fun call => (session.calls call).progress
  history := session.history

/-- The packet that a call holds before it is placed is its own. -/
def Attributed (session : Session Body) : Prop :=
  ∀ call request stage, session.calls call = .postPacket request stage → stage.Own call

section View

variable (session : Session Body) (call : Nat)

theorem become_traffic (activity : Activity Body) :
    (session.become call activity).traffic =
      { session.traffic with
        progress := Function.update session.traffic.progress call activity.progress } := by
  simp only [traffic, become, Traffic.mk.injEq, true_and, and_true]
  funext other
  by_cases hother : other = call
  · rw [hother, Function.update_self, Function.update_self]
  · rw [Function.update_of_ne hother, Function.update_of_ne hother]

theorem returnPost_traffic (request : Request Body) (result : Bool) :
    (session.returnPost call request result).traffic =
      { session.traffic with
        progress := Function.update session.traffic.progress call .closed
        history := session.history ++ [.returned call result] } := by
  rw [returnPost, become_traffic]
  rfl

theorem encode_traffic (config : Config Body) (packet : Posted Body) :
    ∃ events, Traffic.Encoding packet.call events ∧
      (session.encode config packet).traffic =
        { session.traffic with history := session.history ++ events } := by
  unfold encode
  split
  · exact ⟨[.encoded packet.call], Or.inr rfl, rfl⟩
  · exact ⟨[], Or.inl rfl, by simp [traffic]⟩

theorem encode_calls (config : Config Body) (packet : Posted Body) :
    (session.encode config packet).calls = session.calls := by
  unfold encode
  split <;> rfl

theorem send_traffic (packet : Posted Body) :
    (session.send packet).traffic =
      { session.traffic with history := session.history ++ [.freed packet.call] } := by
  unfold send
  dsimp only
  split <;> rfl

theorem send_calls (packet : Posted Body) : (session.send packet).calls = session.calls := by
  unfold send
  dsimp only
  split <;> rfl

theorem recount_traffic (config : Config Body) :
    (session.recount config).traffic = session.traffic := by
  unfold recount
  split <;> rfl

theorem recount_calls (config : Config Body) :
    (session.recount config).calls = session.calls := by
  unfold recount
  split <;> rfl

end View

/-! ## Every step is a move -/

section Moves

variable {config : Config Body} {session next : Session Body} {call : Nat}

/-- A call that moves between stages of the same kind adds nothing to a move. -/
theorem become_move {middle : Session Body} {activity : Activity Body} {sender : Option Nat}
    (hcalls : middle.calls = session.calls)
    (hsame : (session.calls call).progress = activity.progress)
    (hmove : Traffic.Move session.traffic sender middle.traffic) :
    Traffic.Move session.traffic sender (middle.become call activity).traffic := by
  have hbefore : middle.traffic.progress call = activity.progress := by
    rw [← hsame, ← hcalls]
    rfl
  rw [become_traffic, ← hbefore, Function.update_eq_self]
  exact hmove

/-- A piece of a call as a move of the traffic, which leaves no packet but its own in the call. -/
structure CallMove (session next : Session Body) (call : Nat) (sender : Option Nat) : Prop where
  move : Traffic.Move session.traffic sender next.traffic
  calls : ∃ activity, next.calls = Function.update session.calls call activity ∧
    ∀ request stage, activity = .postPacket request stage → stage.Own call

/-- A call goes on to a stage of the same kind. -/
theorem CallMove.stage {middle : Session Body} {activity : Activity Body} {sender : Option Nat}
    (hcalls : middle.calls = session.calls)
    (hsame : (session.calls call).progress = activity.progress)
    (hown : ∀ request stage, activity = .postPacket request stage → stage.Own call)
    (hmove : Traffic.Move session.traffic sender middle.traffic) :
    CallMove session (middle.become call activity) call sender :=
  ⟨become_move hcalls hsame hmove, activity, by rw [become, hcalls], hown⟩

/-- A call goes on and leaves the traffic as it is. -/
theorem CallMove.quiet {middle : Session Body} {before activity : Activity Body}
    (hcall : session.calls call = before) (hcalls : middle.calls = session.calls)
    (htraffic : middle.traffic = session.traffic) (hsame : before.progress = activity.progress)
    (hown : ∀ request stage, activity = .postPacket request stage → stage.Own call) :
    CallMove session (middle.become call activity) call none :=
  .stage hcalls (hcall ▸ hsame) hown (htraffic ▸ .quiet _)

theorem own_onConnection (stage : FlushStage Body) (request : Request Body)
    (stage' : PostStage Body)
    (hactivity : Activity.onConnection stage = .postPacket request stage') : stage'.Own call := by
  cases hactivity

theorem own_checkTimeout (now : Int) (stage : TimeoutStage Body) (request : Request Body)
    (stage' : PostStage Body)
    (hactivity : Activity.checkTimeout now stage = .postPacket request stage') :
    stage'.Own call := by
  cases hactivity

theorem own_handlePacket (stage : ResponseStage Body) (request : Request Body)
    (stage' : PostStage Body)
    (hactivity : Activity.handlePacket stage = .postPacket request stage') : stage'.Own call := by
  cases hactivity

theorem own_postPacket {request : Request Body} {stage : PostStage Body} (hown : stage.Own call)
    (other : Request Body) (stage' : PostStage Body)
    (hactivity : Activity.postPacket request stage = .postPacket other stage') :
    stage'.Own call := by
  cases hactivity
  exact hown

theorem postPacket_move {request : Request Body} {stage : PostStage Body}
    (hown : stage.Own call) (hcall : session.calls call = .postPacket request stage)
    (hnext : session.postPacket config call request stage = some next) :
    ∃ sender, CallMove session next call sender ∧
      ∀ other ∈ sender, other = call ∧ (∃ packet, stage = .filled packet) ∧
        session.connected := by
  have hprogress : session.traffic.progress call = stage.progress := by
    simp only [traffic, hcall, Activity.progress]
  cases postPacket_cases hnext with
  | refuse hmutex hfull =>
      refine ⟨none, ⟨?_, _, rfl, own_postPacket trivial⟩, by simp⟩
      rw [returnPost_traffic]
      exact .refuse _ call hprogress
  | admitted hmutex hroom =>
      exact ⟨none, .quiet hcall rfl rfl rfl (own_postPacket trivial), by simp⟩
  | allocate hheader halloc => exact ⟨none, .quiet hcall rfl rfl rfl (own_postPacket rfl), by simp⟩
  | withoutChannel hheader => exact ⟨none, .quiet hcall rfl rfl rfl (own_postPacket rfl), by simp⟩
  | fill => exact ⟨none, .quiet hcall rfl rfl rfl (own_postPacket hown), by simp⟩
  | @encode packet hmutex hconnected =>
      -- The direct path: the packet is encoded without going through the queue.
      obtain ⟨events, hevents, hencode⟩ :=
        encode_traffic { session with mutex := some call } config packet
      refine ⟨some call, ⟨?_, .postPacket request (.encoded packet), ?_, ?_⟩, ?_⟩
      · rw [become_traffic, hencode]
        exact .direct session.traffic call events hprogress (hown ▸ hevents)
      · rw [become, encode_calls]
      · exact own_postPacket trivial
      · rintro other ⟨⟩
        exact ⟨rfl, ⟨packet, rfl⟩, hconnected⟩
  | @push packet hmutex hconnected =>
      refine ⟨none, ⟨?_, _, rfl, own_postPacket trivial⟩, by simp⟩
      have hmove := Traffic.Move.push session.traffic call hprogress
      have hcalled : packet.call = call := hown
      rw [← hcalled] at hmove ⊢
      rw [become_traffic]
      simpa [traffic, push, Activity.progress, PostStage.progress] using hmove
  | stamp => exact ⟨none, .quiet hcall rfl rfl rfl (own_postPacket trivial), by simp⟩
  | @send packet =>
      refine ⟨none, .stage (send_calls session packet) (hcall ▸ rfl) (own_postPacket trivial) ?_,
        by simp⟩
      change Traffic.Move _ none (session.send packet).traffic
      rw [send_traffic]
      exact .free _ packet.call
  | wake hmutex hblocking hover =>
      refine ⟨none, ⟨?_, _, rfl, own_postPacket trivial⟩, by simp⟩
      rw [returnPost_traffic]
      exact .accept session.traffic call hprogress
  | wait hmutex hblocking hfull =>
      refine ⟨none, ⟨.quiet _, .postPacket request .posted, ?_, own_postPacket hown⟩, by simp⟩
      rw [← hcall, Function.update_eq_self]
  | leave hfree =>
      refine ⟨none, ⟨?_, _, rfl, own_postPacket trivial⟩, by simp⟩
      rw [returnPost_traffic]
      exact .accept session.traffic call hprogress

theorem onConnection_move {stage : FlushStage Body}
    (hcall : session.calls call = .onConnection stage)
    (hnext : session.onConnection config call stage = some next) :
    CallMove session next call none := by
  cases onConnection_cases hnext with
  | @encode packet outputQueue hqueue =>
      obtain ⟨events, hevents, hencode⟩ :=
        encode_traffic (session.pop packet outputQueue) config packet
      refine .stage (encode_calls _ config packet) (hcall ▸ rfl) (own_onConnection _) ?_
      rw [hencode]
      refine .flush session.traffic packet.call (outputQueue.map Posted.call) events ?_ hevents
      simp [traffic, hqueue]
  | unlock hqueue =>
      exact .quiet hcall (recount_calls session config) (recount_traffic session config) rfl
        (own_onConnection _)
  | @send packet =>
      refine .stage (send_calls session packet) (hcall ▸ rfl) (own_onConnection _) ?_
      rw [send_traffic]
      exact .free _ packet.call
  | _ => exact .quiet hcall rfl rfl rfl (own_onConnection _)

theorem handlePacket_move {stage : ResponseStage Body}
    (hcall : session.calls call = .handlePacket stage)
    (hnext : session.handlePacket config call stage = some next) :
    CallMove session next call none := by
  cases handlePacket_cases hnext with
  | answer hhandler => exact .quiet hcall rfl rfl rfl (own_handlePacket _)
  | append => exact .quiet hcall rfl rfl rfl (own_handlePacket _)

theorem checkTimeout_move {now : Int} {stage : TimeoutStage Body}
    (hcall : session.calls call = .checkTimeout now stage)
    (hnext : session.checkTimeout config call now stage = some next) :
    CallMove session next call none := by
  -- Each turn of the loop over the expired packets frees one of them.
  have hfreed : ∀ {middle : Session Body} {stage' : TimeoutStage Body} (packet : Posted Body),
      middle.calls = session.calls →
      middle.traffic = (session.record (.freed packet.call)).traffic →
      CallMove session (middle.become call (.checkTimeout now stage')) call none := by
    intro middle stage' packet hcalls htraffic
    exact .stage hcalls (hcall ▸ rfl) (own_checkTimeout _ _)
      (htraffic ▸ .free session.traffic packet.call)
  cases checkTimeout_cases hnext with
  | detach hmutex =>
      -- Only a first part of the queue is taken, so what stays is a suffix.
      refine .stage rfl (hcall ▸ rfl) (own_checkTimeout _ _) ?_
      exact .expire session.traffic _ ((List.dropWhile_suffix _).map Posted.call)
  | @dropPacket packet packetList hchannel => exact hfreed packet rfl rfl
  | @notifyQueued packet packetList channel handler hchannel hhandler =>
      exact hfreed packet rfl rfl
  | @skipQueued packet packetList channel hchannel hhandler => exact hfreed packet rfl rfl
  | recount hmutex hover =>
      exact .quiet hcall (recount_calls session config) (recount_traffic session config) rfl
        (own_checkTimeout _ _)
  | _ => exact .quiet hcall rfl rfl rfl (own_checkTimeout _ _)

theorem start_move {operation : Operation Body} (hidle : session.calls call = .idle)
    (hnext : session.start config call operation = some next) :
    CallMove session next call none := by
  have hnew : session.traffic.progress call = .new := by
    simp only [traffic, hidle, Activity.progress]
  have hother : ∀ {middle : Session Body} {activity : Activity Body},
      middle.calls = session.calls → middle.traffic = session.traffic →
      activity.progress = .other → CallMove session (middle.become call activity) call none := by
    intro middle activity hcalls hmiddle hactivity
    refine ⟨?_, activity, by rw [become, hcalls], ?_⟩
    · rw [become_traffic, hmiddle, hactivity]
      exact .otherCall _ call hnew
    · rintro request stage rfl
      cases stage <;> cases hactivity
  cases start_cases hnext with
  | reject hlost =>
      refine ⟨?_, _, rfl, own_postPacket trivial⟩
      rw [returnPost_traffic]
      exact .reject session.traffic call hnew
  | enter hallowed =>
      refine ⟨?_, _, rfl, own_postPacket trivial⟩
      rw [become_traffic]
      exact .call session.traffic call hnew
  | _ => exact hother rfl rfl rfl

theorem attributed_update (hattributed : session.Attributed) {activity : Activity Body}
    (hcalls : next.calls = Function.update session.calls call activity)
    (hown : ∀ request stage, activity = .postPacket request stage → stage.Own call) :
    next.Attributed := by
  intro other request stage hother
  rw [hcalls] at hother
  by_cases hsame : other = call
  · subst hsame
    rw [Function.update_self] at hother
    exact hown request stage hother
  · rw [Function.update_of_ne hsame] at hother
    exact hattributed other request stage hother

theorem attributed_new (mem : Ref → Channel) : (new mem : Session Body).Attributed := by
  intro call request stage hcall
  cases hcall

/-- Every step of a session is a move of its traffic; a packet is sent directly
only by its own call, past the allocation and while the session is connected. -/
theorem step_move {label : Label Body} (hattributed : session.Attributed)
    (hstep : session.step config label = some next) :
    next.Attributed ∧ ∃ sender, Traffic.Move session.traffic sender next.traffic ∧
      ∀ call ∈ sender, label = .proceed call ∧ session.connected ∧
        ∃ request packet, session.calls call = .postPacket request (.filled packet) := by
  cases step_cases hstep with
  | start hidle hnext =>
      obtain ⟨hmove, activity, hcalls, hown⟩ := start_move hidle hnext
      exact ⟨attributed_update hattributed hcalls hown, none, hmove, by simp⟩
  | @postPacket call request stage next hcall hnext =>
      obtain ⟨sender, ⟨hmove, activity, hcalls, hown⟩, hsender⟩ :=
        postPacket_move (hattributed call request stage hcall) hcall hnext
      refine ⟨attributed_update hattributed hcalls hown, sender, hmove, ?_⟩
      intro other hother
      obtain ⟨rfl, ⟨packet, rfl⟩, hconnected⟩ := hsender other hother
      exact ⟨rfl, hconnected, request, packet, hcall⟩
  | onConnection hcall hnext =>
      obtain ⟨hmove, activity, hcalls, hown⟩ := onConnection_move hcall hnext
      exact ⟨attributed_update hattributed hcalls hown, none, hmove, by simp⟩
  | handlePacket hcall hnext =>
      obtain ⟨hmove, activity, hcalls, hown⟩ := handlePacket_move hcall hnext
      exact ⟨attributed_update hattributed hcalls hown, none, hmove, by simp⟩
  | checkTimeout hcall hnext =>
      obtain ⟨hmove, activity, hcalls, hown⟩ := checkTimeout_move hcall hnext
      exact ⟨attributed_update hattributed hcalls hown, none, hmove, by simp⟩
  | _ => exact ⟨hattributed, none, .quiet _, by simp⟩

end Moves

end Session

end Wnet
