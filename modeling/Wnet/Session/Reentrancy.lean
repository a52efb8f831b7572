import Wnet.Session.Locking
import Wnet.Session.Order

/-!
# Calls from callbacks

The application's connection callback and packet handlers may call the session
again, to any depth. Here every thread has a stack of calls and of application
code. The session runs handlers and the connection callback without its mutex,
with one exception: it calls `TCPConn::Send` with the mutex held, and on the loop
thread a `Send` that meets a write error closes the connection and runs the
connection callback before it returns. A call that this callback makes and that
locks the mutex never returns.
-/

namespace Wnet

open Foundation

variable {Body : Type*}

/-- What stands on the stack of a thread: a call of the session, a `Disconnect`
that waits for the connection to be closed, with the number of the `CheckTimeout`
that it goes on with, or a callback of the application. -/
inductive StackEntry
  | call (call : Nat)
  | disconnect (call : Nat)
  | user
  deriving DecidableEq

/-- The thread that runs the event loop. -/
def loopThread : Nat := 0

/-- A session with the stacks of all threads, innermost entry first. -/
structure Threaded (Body : Type*) where
  session : Session Body
  /-- `tcp_client_.auto_reconnect()`. -/
  autoReconnect : Bool
  /-- Whether `DisconnectInLoop` is queued in the event loop. -/
  closing : Bool
  callStack : Nat → List StackEntry

/-- What happens next. A thread calls the session, its innermost call goes on, its
innermost entry returns, or the event loop and the environment move. -/
inductive ThreadLabel (Body : Type*)
  | call (thread call : Nat) (operation : Operation Body)
  | disconnect (thread call : Nat)
  | poll (thread : Nat)
  | proceed (thread : Nat)
  | finish (thread : Nat)
  | writeError
  | closed
  | disconnectInLoop
  | loopStop
  | setClock (time : Int)
  | allocElsewhere (pool : ChannelPool)

/-- The stage at which `connPtr_->Send` runs, with the mutex held. -/
def Activity.inSend : Activity Body → Bool
  | .postPacket _ (.stamped _) | .onConnection (.stamped _) => true
  | _ => false

/-- Whether the next piece of a call begins with locking the mutex. -/
def Activity.wantsLock (config : Config Body) (queueTotalSize : Int) : Activity Body → Bool
  | .postPacket _ .entered | .postPacket _ (.filled _) => true
  | .postPacket request .posted => config.queueLimit > 0 ∧ request.noblocking = false
  | .onConnection .entered => true
  | .checkTimeout _ .walked => true
  | .checkTimeout _ (.draining []) =>
      config.queueLimit > 0 ∧ queueTotalSize > config.queueLimit
  | _ => false

namespace Threaded

/-- A new session, without calls. -/
def new (config : Config Body) (mem : Ref → Channel) : Threaded Body where
  session := .new mem
  autoReconnect := config.autoReconnect
  closing := false
  callStack := fun _ => []

variable (config : Config Body) (state : Threaded Body)

def setStack (thread : Nat) (stack : List StackEntry) : Threaded Body :=
  { state with callStack := Function.update state.callStack thread stack }

/-- The settings with the current value of `auto_reconnect()`. -/
def settings : Config Body := { config with autoReconnect := state.autoReconnect }

/-- Code of the application is on top of the stack, or the thread has called nothing. -/
def inUserCode (thread : Nat) : Bool :=
  match state.callStack thread with
  | [] | .user :: _ => true
  | _ => false

/-- Who may call what: the application calls `PostPacket` and `CheckTimeout`, the
event loop makes connections and delivers packets. -/
def mayCall (thread : Nat) : Operation Body → Bool
  | .postPacket _ | .checkTimeout _ => state.inUserCode thread
  | .onConnection | .handlePacket _ _ => thread = loopThread ∧ state.callStack thread = []

/-- The stack after a piece, with the handler that it has called on top. -/
def withHandler (session next : Session Body) (stack : List StackEntry) : List StackEntry :=
  if next.handlerCalls.length > session.handlerCalls.length then .user :: stack else stack

/-- Begin a call on a thread, on top of `below`. -/
def begin (thread call : Nat) (operation : Operation Body) (below : List StackEntry) :
    Option (Threaded Body) :=
  (state.session.step (state.settings config) (.start call operation)).map fun session =>
    { state with session := session }.setStack thread
      (withHandler state.session session (.call call :: below))

def step : ThreadLabel Body → Option (Threaded Body)
  | .call thread call operation =>
      if state.mayCall thread operation
      then state.begin config thread call operation (state.callStack thread) else none
  | .disconnect thread call =>
      if state.inUserCode thread then
        if state.session.connected then
          let waiting := state.setStack thread (.disconnect call :: state.callStack thread)
          -- `RunInLoop` runs `DisconnectInLoop` at once on the loop thread.
          if thread = loopThread then
            some { waiting with
              session := { state.session with connected := false }
              autoReconnect := false }
          else some { waiting with closing := true }
        else state.begin config thread call (.checkTimeout qynetMaxTime) (state.callStack thread)
      else none
  | .poll thread =>
      match state.callStack thread with
      | .disconnect call :: below =>
          if state.session.connected then some state
          else state.begin config thread call (.checkTimeout qynetMaxTime) below
      | _ => none
  | .proceed thread =>
      match state.callStack thread with
      | .call call :: below =>
          (state.session.step (state.settings config) (.proceed call)).map fun session =>
            { state with session := session }.setStack thread
              (withHandler state.session session (.call call :: below))
      | _ => none
  | .finish thread =>
      match state.callStack thread with
      | .user :: below => some (state.setStack thread below)
      | .call call :: below =>
          if (state.session.calls call).finished then
            match state.session.calls call with
            -- `OnConnection` ends with the connection callback.
            | .onConnection _ => some (state.setStack thread (.user :: below))
            | _ => some (state.setStack thread below)
          else none
      | _ => none
  | .writeError =>
      match state.callStack loopThread with
      | .call call :: below =>
          if (state.session.calls call).inSend ∧ state.session.connected ∧
              state.session.output ≠ [] then
            -- `Send` resets the buffer when it returns; until then the mutex is held.
            some ({ state with
              session := { state.session with connected := false, output := [], frames := [] }
                }.setStack loopThread (.user :: .call call :: below))
          else none
      | _ => none
  | .closed =>
      if state.callStack loopThread = [] then
        some ({ state with session := { state.session with connected := false } }.setStack
          loopThread [.user])
      else none
  | .disconnectInLoop =>
      if state.closing ∧ state.callStack loopThread = [] then
        some { state with
          session := { state.session with connected := false }
          autoReconnect := false
          closing := false }
      else none
  | .loopStop =>
      (state.session.step config .loopStop).map fun session => { state with session := session }
  | .setClock time =>
      (state.session.step config (.setClock time)).map fun session =>
        { state with session := session }
  | .allocElsewhere pool =>
      (state.session.step config (.allocElsewhere pool)).map fun session =>
        { state with session := session }

/-- The holder of the mutex is on the stack. -/
def holdsMutex (session : Session Body) (stack : List StackEntry) : Bool :=
  match session.mutex with
  | some holder => .call holder ∈ stack
  | none => false

/-- A thread tries to lock the mutex while it holds it. -/
def SelfLocks (thread : Nat) : Prop :=
  ∃ call below, state.callStack thread = .call call :: below ∧
    (state.session.calls call).wantsLock config state.session.queueTotalSize ∧
    holdsMutex state.session (state.callStack thread)

/-- `PostPacket` returns without locking the mutex. -/
def refuses : Operation Body → Bool
  | .postPacket _ => state.session.connected = false ∧
      (state.autoReconnect = false ∨ state.session.outputQueue.length > 10)
  | _ => false

/-- The next step calls the session on a thread that holds the mutex, and the call
is not refused at once. -/
def reenters : ThreadLabel Body → Bool
  | .call thread _ operation =>
      holdsMutex state.session (state.callStack thread) ∧ state.refuses operation = false
  | .disconnect thread _ => holdsMutex state.session (state.callStack thread)
  | _ => false

/-- An entry that never locks the mutex: a callback, or a call that has returned. -/
def harmless (session : Session Body) : StackEntry → Bool
  | .user => true
  | .call call => (session.calls call).finished
  | .disconnect _ => false

/-- Only harmless entries are above the holder of the mutex. -/
def ClearAbove (session : Session Body) : List StackEntry → Prop
  | [] => True
  | entry :: below =>
      (holdsMutex session below → harmless session entry) ∧ ClearAbove session below

/-- The invariant of runs without reentering calls. -/
structure Nested (state : Threaded Body) : Prop where
  exclusive : state.session.Exclusive
  begun : ∀ thread call, .call call ∈ state.callStack thread → state.session.calls call ≠ .idle
  once : ∀ thread call, (state.callStack thread).count (.call call) ≤ 1
  apart : ∀ thread thread' call, .call call ∈ state.callStack thread →
    .call call ∈ state.callStack thread' → thread = thread'
  clear : ∀ thread, ClearAbove state.session (state.callStack thread)

variable {config state} {session session' : Session Body}

theorem holdsMutex_iff {stack : List StackEntry} :
    holdsMutex session stack ↔ ∃ holder, session.mutex = some holder ∧ .call holder ∈ stack := by
  rw [holdsMutex]
  cases session.mutex <;> simp

theorem clearAbove_of_not_holds {stack : List StackEntry} (hnot : ¬ holdsMutex session stack) :
    ClearAbove session stack := by
  induction stack with
  | nil => trivial
  | cons entry below ih =>
      have hbelow : ¬ holdsMutex session below := by
        rw [holdsMutex_iff] at hnot ⊢
        rintro ⟨holder, hmutex, hmem⟩
        exact hnot ⟨holder, hmutex, List.mem_cons_of_mem _ hmem⟩
      exact ⟨fun hholds => absurd hholds hbelow, ih hbelow⟩

/-- A stack does not notice what happens to calls that are not on it. -/
theorem ClearAbove.frame {stack : List StackEntry} (hclear : ClearAbove session stack)
    (hmutex : ∀ call, .call call ∈ stack → session'.mutex = some call →
      session.mutex = some call)
    (hcalls : ∀ call, .call call ∈ stack → session'.calls call = session.calls call) :
    ClearAbove session' stack := by
  induction stack with
  | nil => trivial
  | cons entry below ih =>
      refine ⟨fun hholds => ?_, ih hclear.2
        (fun call hmem => hmutex call (List.mem_cons_of_mem _ hmem))
        (fun call hmem => hcalls call (List.mem_cons_of_mem _ hmem))⟩
      obtain ⟨holder, hholder, hmem⟩ := holdsMutex_iff.mp hholds
      have hbefore := hmutex holder (List.mem_cons_of_mem _ hmem) hholder
      have hharmless := hclear.1 (holdsMutex_iff.mpr ⟨holder, hbefore, hmem⟩)
      cases entry with
      | user => rfl
      | disconnect call => exact hharmless
      | call call =>
          rw [harmless, hcalls call List.mem_cons_self]
          exact hharmless

theorem ClearAbove.suffix {stack below : List StackEntry} (hclear : ClearAbove session stack)
    (hbelow : below <:+ stack) : ClearAbove session below := by
  induction stack with
  | nil =>
      obtain rfl := List.suffix_nil.mp hbelow
      exact hclear
  | cons entry rest ih =>
      rcases List.suffix_cons_iff.mp hbelow with rfl | hrest
      · exact hclear
      · exact ih hclear.2 hrest

theorem ClearAbove.withHandler {stack : List StackEntry} (hclear : ClearAbove session' stack) :
    ClearAbove session' (withHandler session session' stack) := by
  rw [Threaded.withHandler]
  split
  · exact ⟨fun _ => rfl, hclear⟩
  · exact hclear

theorem count_withHandler (stack : List StackEntry) (call : Nat) :
    (withHandler session session' stack).count (.call call) = stack.count (.call call) := by
  rw [withHandler]
  split
  · simp
  · rfl

theorem count_user_cons (stack : List StackEntry) (call : Nat) :
    (StackEntry.user :: stack).count (.call call) = stack.count (.call call) := by
  simp

theorem mem_withHandler {stack : List StackEntry} {call : Nat} :
    StackEntry.call call ∈ withHandler session session' stack ↔ .call call ∈ stack := by
  rw [withHandler]
  split
  · simp
  · rfl

theorem nested_new (mem : Ref → Channel) : (new config mem).Nested where
  exclusive := Session.exclusive_new mem
  begun := by simp [new]
  once := by simp [new]
  apart := by simp [new]
  clear := fun _ => trivial

/-- A step of one thread: the calls on other stacks do not notice it. -/
theorem Nested.turn (hnested : state.Nested) {next : Threaded Body} (thread : Nat)
    {stack : List StackEntry}
    (hstack : next.callStack = Function.update state.callStack thread stack)
    (hexclusive : next.session.Exclusive)
    (hothers : ∀ other call, other ≠ thread → .call call ∈ state.callStack other →
      next.session.calls call = state.session.calls call ∧
        (next.session.mutex = some call → state.session.mutex = some call))
    (honce : ∀ call, stack.count (.call call) ≤ 1)
    (hmem : ∀ call, .call call ∈ stack → next.session.calls call ≠ .idle ∧
      (.call call ∈ state.callStack thread ∨ ∀ other, .call call ∉ state.callStack other))
    (hclear : ClearAbove next.session stack) : next.Nested where
  exclusive := hexclusive
  begun := by
    intro other call hcall
    rw [hstack] at hcall
    by_cases hother : other = thread
    · subst hother
      rw [Function.update_self] at hcall
      exact (hmem call hcall).1
    · rw [Function.update_of_ne hother] at hcall
      rw [(hothers other call hother hcall).1]
      exact hnested.begun other call hcall
  once := by
    intro other call
    rw [hstack]
    by_cases hother : other = thread
    · subst hother
      rw [Function.update_self]
      exact honce call
    · rw [Function.update_of_ne hother]
      exact hnested.once other call
  apart := by
    -- A call on the new stack was on the old one, or on none.
    have hcross : ∀ other call, other ≠ thread → .call call ∈ state.callStack other →
        .call call ∉ stack := by
      intro other call hother hcall hnew
      rcases (hmem call hnew).2 with hold | hnone
      · exact hother (hnested.apart other thread call hcall hold)
      · exact hnone other hcall
    intro first second call hfirst hsecond
    rw [hstack] at hfirst hsecond
    by_cases hone : first = thread
    · by_cases htwo : second = thread
      · rw [hone, htwo]
      · rw [hone, Function.update_self] at hfirst
        rw [Function.update_of_ne htwo] at hsecond
        exact absurd hfirst (hcross second call htwo hsecond)
    · rw [Function.update_of_ne hone] at hfirst
      by_cases htwo : second = thread
      · rw [htwo, Function.update_self] at hsecond
        exact absurd hsecond (hcross first call hone hfirst)
      · rw [Function.update_of_ne htwo] at hsecond
        exact hnested.apart first second call hfirst hsecond
  clear := by
    intro other
    rw [hstack]
    by_cases hother : other = thread
    · subst hother
      rw [Function.update_self]
      exact hclear
    · rw [Function.update_of_ne hother]
      apply (hnested.clear other).frame
      · exact fun call hcall => (hothers other call hother hcall).2
      · exact fun call hcall => (hothers other call hother hcall).1

/-- A step that touches no call, and takes calls off one stack at most. -/
theorem Nested.quiet (hnested : state.Nested) {next : Threaded Body} (thread : Nat)
    {stack : List StackEntry}
    (hstack : next.callStack = Function.update state.callStack thread stack)
    (hcalls : next.session.calls = state.session.calls)
    (hmutex : next.session.mutex = state.session.mutex)
    (hcount : ∀ call, stack.count (.call call) ≤ (state.callStack thread).count (.call call))
    (hclear : ClearAbove state.session stack) : next.Nested := by
  have hexclusive : next.session.Exclusive := by
    intro call
    rw [hcalls, hmutex]
    exact hnested.exclusive call
  refine hnested.turn thread hstack hexclusive ?_ ?_ ?_ ?_
  · intro other call _ _
    rw [hcalls, hmutex]
    exact ⟨rfl, id⟩
  · exact fun call => Nat.le_trans (hcount call) (hnested.once thread call)
  · intro call hmem
    have hbefore : .call call ∈ state.callStack thread := by
      have hpos := List.count_pos_iff.mpr hmem
      exact List.count_pos_iff.mp (Nat.lt_of_lt_of_le hpos (hcount call))
    rw [hcalls]
    exact ⟨hnested.begun thread call hbefore, Or.inl hbefore⟩
  · apply hclear.frame
    · rw [hmutex]
      exact fun _ _ => id
    · rw [hcalls]
      exact fun _ _ => rfl

/-- A step that leaves all stacks and calls as they are. -/
theorem Nested.same (hnested : state.Nested) {next : Threaded Body}
    (hstack : next.callStack = state.callStack)
    (hcalls : next.session.calls = state.session.calls)
    (hmutex : next.session.mutex = state.session.mutex) : next.Nested := by
  have hupdate : next.callStack =
      Function.update state.callStack loopThread (state.callStack loopThread) := by
    rw [hstack, Function.update_eq_self]
  exact hnested.quiet loopThread hupdate hcalls hmutex (fun _ => Nat.le_refl _)
    (hnested.clear loopThread)

/-- A call begins on top of a stack that does not hold the mutex, or returns at once. -/
theorem Nested.begin (hnested : state.Nested) {next : Threaded Body} {thread call : Nat}
    {operation : Operation Body} {below : List StackEntry}
    (hbelow : below <:+ state.callStack thread)
    (hnext : state.begin config thread call operation below = some next)
    (hclear : ∀ session, state.session.start (state.settings config) call operation =
      some session → holdsMutex state.session below → (session.calls call).finished) :
    next.Nested := by
  obtain ⟨session, hstep, rfl⟩ := Option.map_eq_some_iff.mp hnext
  have hexclusive := Session.step_exclusive hnested.exclusive hstep
  simp only [Session.step] at hstep
  split at hstep
  next hidle =>
    obtain ⟨activity, hcalls, hmutex, -, hbegun⟩ := start_keeps hstep
    have hfresh : ∀ other, .call call ∉ state.callStack other :=
      fun other hmem => hnested.begun other call hmem hidle
    have hold : ∀ call', .call call' ∈ below → .call call' ∈ state.callStack thread :=
      fun call' hmem => hbelow.subset hmem
    have hcallsOf : ∀ other call', .call call' ∈ state.callStack other →
        session.calls call' = state.session.calls call' := by
      intro other call' hmem
      have hne : call' ≠ call := fun heq => hfresh other (heq ▸ hmem)
      rw [hcalls, Function.update_of_ne hne]
    have hself : session.calls call = activity := by rw [hcalls, Function.update_self]
    refine hnested.turn thread rfl hexclusive ?_ ?_ ?_ ?_
    · intro other call' _ hmem
      exact ⟨hcallsOf other call' hmem, fun hholder => hmutex ▸ hholder⟩
    · intro call'
      rw [count_withHandler]
      by_cases heq : call' = call
      · subst heq
        have hnone : below.count (.call call') = 0 :=
          List.count_eq_zero.mpr fun hmem => hfresh thread (hold call' hmem)
        rw [List.count_cons_self, hnone]
      · have hne : StackEntry.call call ≠ .call call' := by simpa using Ne.symm heq
        rw [List.count_cons_of_ne hne]
        exact (hbelow.sublist.count_le _).trans (hnested.once thread call')
    · intro call' hmem
      rw [mem_withHandler, List.mem_cons] at hmem
      rcases hmem with heq | hmem
      · obtain rfl : call' = call := by simpa using heq
        exact ⟨hself ▸ hbegun, Or.inr hfresh⟩
      · have hthread := hold call' hmem
        exact ⟨hcallsOf thread call' hthread ▸ hnested.begun thread call' hthread, Or.inl hthread⟩
    · apply ClearAbove.withHandler
      constructor
      · intro hholds
        obtain ⟨holder, hholder, hmem⟩ := holdsMutex_iff.mp hholds
        exact hclear session hstep (holdsMutex_iff.mpr ⟨holder, hmutex ▸ hholder, hmem⟩)
      · apply ((hnested.clear thread).suffix hbelow).frame
        · exact fun _ _ hholder => hmutex ▸ hholder
        · exact fun call' hmem => hcallsOf thread call' (hold call' hmem)
  next => cases hstep

/-- The innermost call of a thread goes on. It has not returned, so no call below it
holds the mutex, and it takes or releases the mutex for itself only. -/
theorem Nested.proceed (hnested : state.Nested) {thread call : Nat} {below : List StackEntry}
    (hstack : state.callStack thread = .call call :: below)
    (hproceed : state.session.proceed (state.settings config) call = some session) :
    ({ state with session := session }.setStack thread
      (Threaded.withHandler state.session session (.call call :: below))).Nested := by
  obtain ⟨activity, hlocking⟩ := proceed_locking hproceed
  have honce : .call call ∉ below := by
    have hcount := hnested.once thread call
    rw [hstack, List.count_cons_self] at hcount
    exact List.count_eq_zero.mp (Nat.le_zero.mp (Nat.le_of_succ_le_succ hcount))
  have hcallsOf : ∀ call', call' ≠ call → session.calls call' = state.session.calls call' := by
    intro call' hne
    rw [hlocking.calls, Function.update_of_ne hne]
  have hmutexOf : ∀ call', call' ≠ call → session.mutex = some call' →
      state.session.mutex = some call' := by
    intro call' hne hholder
    rcases hlocking.mutex with ⟨hmutex, -⟩ | ⟨-, hmutex, -⟩ | ⟨-, hmutex, -⟩
    · exact hmutex ▸ hholder
    · rw [hmutex] at hholder
      exact absurd (Option.some.inj hholder).symm hne
    · rw [hmutex] at hholder
      cases hholder
  have hfree : ¬ holdsMutex session below := by
    intro hholds
    obtain ⟨holder, hholder, hmem⟩ := holdsMutex_iff.mp hholds
    have hne : holder ≠ call := fun heq => honce (heq ▸ hmem)
    have hbefore := holdsMutex_iff.mpr ⟨holder, hmutexOf holder hne hholder, hmem⟩
    have hclear := hnested.clear thread
    rw [hstack] at hclear
    have hfinished : (state.session.calls call).finished = true := hclear.1 hbefore
    rw [not_finished_of_proceed hproceed] at hfinished
    cases hfinished
  refine hnested.turn thread rfl (hnested.exclusive.locking hlocking) ?_ ?_ ?_ ?_
  · intro other call' hother hmem
    have hne : call' ≠ call := by
      rintro rfl
      exact hother (hnested.apart other thread call' hmem (by rw [hstack]; exact .head _))
    exact ⟨hcallsOf call' hne, hmutexOf call' hne⟩
  · intro call'
    rw [count_withHandler, ← hstack]
    exact hnested.once thread call'
  · intro call' hmem
    rw [mem_withHandler, ← hstack] at hmem
    have hbegun : session.calls call' ≠ .idle := by
      by_cases heq : call' = call
      · rw [hlocking.calls, heq, Function.update_self]
        exact hlocking.begun
      · rw [hcallsOf call' heq]
        exact hnested.begun thread call' hmem
    exact ⟨hbegun, Or.inl hmem⟩
  · apply ClearAbove.withHandler
    exact ⟨fun hholds => absurd hholds hfree, clearAbove_of_not_holds hfree⟩

/-- A call that is refused has returned when it has begun. -/
theorem finished_of_refuses {call : Nat} {operation : Operation Body}
    (hrefuses : state.refuses operation)
    (hstart : state.session.start (state.settings config) call operation = some session) :
    (session.calls call).finished := by
  cases operation with
  | postPacket request =>
      have hcondition : state.session.connected = false ∧
          (state.autoReconnect = false ∨ state.session.outputQueue.length > 10) := by
        simpa [refuses] using hrefuses
      cases Session.start_cases hstart with
      | reject hlost => simp [Session.returnPost, Session.become, Session.record, Activity.finished]
      | enter hallowed => exact absurd hcondition hallowed
  | onConnection => cases hrefuses
  | handlePacket header input => cases hrefuses
  | checkTimeout now => cases hrefuses

/-- `Disconnect` is called by a thread that does not hold the mutex. -/
theorem Nested.disconnect {next : Threaded Body} {thread call : Nat} (hnested : state.Nested)
    (hlabel : state.reenters (.disconnect thread call) = false)
    (hstep : state.step config (.disconnect thread call) = some next) : next.Nested := by
  have hfree : ¬ holdsMutex state.session (state.callStack thread) := by
    simpa [reenters] using hlabel
  have hclear : ClearAbove state.session (.disconnect call :: state.callStack thread) :=
    ⟨fun hholds => absurd hholds hfree, clearAbove_of_not_holds hfree⟩
  have hcount : ∀ call', (StackEntry.disconnect call :: state.callStack thread).count
      (.call call') ≤ (state.callStack thread).count (.call call') := by
    simp
  simp only [step] at hstep
  split at hstep
  next =>
    split at hstep
    next =>
      split at hstep <;> obtain rfl := Option.some.inj hstep
      · exact hnested.quiet thread rfl rfl rfl hcount hclear
      · exact hnested.quiet thread rfl rfl rfl hcount hclear
    next =>
      apply hnested.begin (List.suffix_refl _) hstep
      exact fun _ _ hholds => absurd hholds hfree
  next => cases hstep

/-- A waiting `Disconnect` looks again, or goes on as a call. -/
theorem Nested.poll {next : Threaded Body} {thread : Nat} (hnested : state.Nested)
    (hstep : state.step config (.poll thread) = some next) : next.Nested := by
  simp only [step] at hstep
  split at hstep
  next call below hstack =>
    split at hstep
    next =>
      obtain rfl := Option.some.inj hstep
      exact hnested
    next =>
      have hsuffix : below <:+ state.callStack thread := by
        rw [hstack]
        exact List.suffix_cons _ _
      apply hnested.begin hsuffix hstep
      -- A waiting `Disconnect` was called without the mutex.
      intro _ _ hholds
      have hclear := hnested.clear thread
      rw [hstack] at hclear
      have hharmless := hclear.1 hholds
      cases hharmless
  next => cases hstep

/-- The innermost handler or call of a thread returns. -/
theorem Nested.finish {next : Threaded Body} {thread : Nat} (hnested : state.Nested)
    (hstep : state.step config (.finish thread) = some next) : next.Nested := by
  simp only [step] at hstep
  split at hstep
  next below hstack =>
    obtain rfl := Option.some.inj hstep
    have hclear := hnested.clear thread
    rw [hstack] at hclear
    refine hnested.quiet thread rfl rfl rfl (fun call => ?_) hclear.2
    rw [hstack, count_user_cons]
  next call below hstack =>
    have hclear := hnested.clear thread
    rw [hstack] at hclear
    split at hstep
    next =>
      split at hstep <;> obtain rfl := Option.some.inj hstep
      · refine hnested.quiet thread rfl rfl rfl (fun call' => ?_) ⟨fun _ => rfl, hclear.2⟩
        rw [hstack, count_user_cons]
        exact (List.sublist_cons_self _ _).count_le _
      · refine hnested.quiet thread rfl rfl rfl (fun call' => ?_) hclear.2
        rw [hstack]
        exact (List.sublist_cons_self _ _).count_le _
    next => cases hstep
  next => cases hstep

theorem step_nested {label : ThreadLabel Body} {next : Threaded Body} (hnested : state.Nested)
    (hlabel : state.reenters label = false) (hstep : state.step config label = some next) :
    next.Nested := by
  cases label with
  | call thread call operation =>
      simp only [step] at hstep
      split at hstep
      next =>
        apply hnested.begin (List.suffix_refl _) hstep
        intro session hstart hholds
        have hrefuses : state.refuses operation := by simpa [reenters, hholds] using hlabel
        exact finished_of_refuses hrefuses hstart
      next => cases hstep
  | disconnect thread call => exact hnested.disconnect hlabel hstep
  | poll thread => exact hnested.poll hstep
  | proceed thread =>
      simp only [step] at hstep
      split at hstep
      next call below hstack =>
        obtain ⟨session, hproceed, rfl⟩ := Option.map_eq_some_iff.mp hstep
        exact hnested.proceed hstack hproceed
      next => cases hstep
  | finish thread => exact hnested.finish hstep
  | writeError =>
      simp only [step] at hstep
      split at hstep
      next call below hstack =>
        split at hstep
        next =>
          obtain rfl := Option.some.inj hstep
          refine hnested.quiet loopThread rfl rfl rfl (fun call' => ?_) ?_
          · rw [hstack, count_user_cons]
          · rw [← hstack]
            exact ⟨fun _ => rfl, hnested.clear loopThread⟩
        next => cases hstep
      next => cases hstep
  | closed =>
      simp only [step] at hstep
      split at hstep
      next hempty =>
        obtain rfl := Option.some.inj hstep
        refine hnested.quiet loopThread rfl rfl rfl (fun call' => ?_) ⟨fun _ => rfl, trivial⟩
        rw [count_user_cons]
        exact Nat.zero_le _
      next => cases hstep
  | disconnectInLoop =>
      simp only [step] at hstep
      split at hstep
      next =>
        obtain rfl := Option.some.inj hstep
        exact hnested.same rfl rfl rfl
      next => cases hstep
  | loopStop =>
      simp only [step] at hstep
      obtain ⟨session, hsession, rfl⟩ := Option.map_eq_some_iff.mp hstep
      obtain rfl := Option.some.inj hsession
      exact hnested.same rfl rfl rfl
  | setClock time =>
      simp only [step] at hstep
      obtain ⟨session, hsession, rfl⟩ := Option.map_eq_some_iff.mp hstep
      obtain rfl := Option.some.inj hsession
      exact hnested.same rfl rfl rfl
  | allocElsewhere pool =>
      simp only [step] at hstep
      obtain ⟨session, hsession, rfl⟩ := Option.map_eq_some_iff.mp hstep
      obtain rfl := Option.some.inj hsession
      exact hnested.same rfl rfl rfl

/-- A call that is about to lock is neither in a protected section nor finished. -/
theorem not_locks_of_wantsLock {activity : Activity Body} {queueTotalSize : Int}
    (hwants : activity.wantsLock config queueTotalSize) :
    activity.locks = false ∧ activity.finished = false := by
  cases activity with
  | idle => cases hwants
  | postPacket request stage => cases stage <;> first | exact ⟨rfl, rfl⟩ | cases hwants
  | onConnection stage => cases stage <;> first | exact ⟨rfl, rfl⟩ | cases hwants
  | handlePacket stage => cases hwants
  | checkTimeout now stage => cases stage <;> first | exact ⟨rfl, rfl⟩ | cases hwants

theorem Nested.not_selfLocks (hnested : state.Nested) (thread : Nat) :
    ¬ state.SelfLocks config thread := by
  rintro ⟨call, below, hstack, hwants, hholds⟩
  obtain ⟨hlocks, hfinished⟩ := not_locks_of_wantsLock hwants
  obtain ⟨holder, hholder, hmem⟩ := holdsMutex_iff.mp hholds
  rw [hstack, List.mem_cons] at hmem
  rcases hmem with heq | hmem
  · obtain rfl : holder = call := by simpa using heq
    rw [(hnested.exclusive holder).mpr hholder] at hlocks
    cases hlocks
  · have hclear := hnested.clear thread
    rw [hstack] at hclear
    have hharmless : (state.session.calls call).finished = true :=
      hclear.1 (holdsMutex_iff.mpr ⟨holder, hholder, hmem⟩)
    rw [hfinished] at hharmless
    cases hharmless

/-- In every run in which no call is made from inside a `Send` under the mutex,
other than a refused `PostPacket`, no thread locks the mutex while it holds it. -/
theorem never_locks_itself_out {mem : Ref → Channel} {labels : List (ThreadLabel Body)}
    (hrun : run (step config) (new config mem) labels = some state)
    (halong : Along (step config) (fun state label => state.reenters label = false)
      (new config mem) labels) (thread : Nat) :
    ¬ state.SelfLocks config thread := by
  have hnested : state.Nested := by
    apply run_invariant_along Nested _ (nested_new mem) halong hrun
    exact fun _ _ _ hnested hlabel hstep => step_nested hnested hlabel hstep
  exact hnested.not_selfLocks thread

/-- On the loop thread the connection is made, the connection callback posts a
packet, and its `Send` meets a write error. -/
def failedSend : List (ThreadLabel Bytes) :=
  [.call loopThread 0 .onConnection, .proceed loopThread, .proceed loopThread,
    .finish loopThread, .call loopThread 1 (.postPacket (Session.byteRequest 1))] ++
  List.replicate 5 (.proceed loopThread) ++ [.writeError]

/-- The connection callback only returns, and the packet is posted again when the
first call has returned. -/
theorem never_locks_itself_out_returning : ∃ state,
    run (step Session.byteConfig) (new Session.byteConfig (Process.zeroMemory 0))
      (failedSend ++ [.finish loopThread, .proceed loopThread, .proceed loopThread,
        .finish loopThread, .call loopThread 2 (.postPacket (Session.byteRequest 2))]) =
      some state ∧
    (state.session.calls 2).wantsLock Session.byteConfig state.session.queueTotalSize ∧
    ¬ state.SelfLocks Session.byteConfig loopThread := by
  have halong : Along (step Session.byteConfig) (fun state label => state.reenters label = false)
      (new Session.byteConfig (Process.zeroMemory 0))
      (failedSend ++ [.finish loopThread, .proceed loopThread, .proceed loopThread,
        .finish loopThread, .call loopThread 2 (.postPacket (Session.byteRequest 2))]) := by
    decide
  have hrun : (run (step Session.byteConfig) (new Session.byteConfig (Process.zeroMemory 0))
      (failedSend ++ [.finish loopThread, .proceed loopThread, .proceed loopThread,
        .finish loopThread, .call loopThread 2 (.postPacket (Session.byteRequest 2))])).map
      (fun state => (state.session.calls 2).wantsLock Session.byteConfig
        state.session.queueTotalSize) = some true := by
    decide
  obtain ⟨state, hrun, hwants⟩ := Option.map_eq_some_iff.mp hrun
  exact ⟨state, hrun, hwants, never_locks_itself_out hrun halong loopThread⟩

/-- The connection callback that runs inside `Send` posts a packet. -/
theorem locks_itself_out : ∃ state,
    run (step Session.byteConfig) (new Session.byteConfig (Process.zeroMemory 0))
      (failedSend ++ [.call loopThread 2 (.postPacket (Session.byteRequest 2))]) = some state ∧
    state.SelfLocks Session.byteConfig loopThread := by
  have hrun : (run (step Session.byteConfig) (new Session.byteConfig (Process.zeroMemory 0))
      (failedSend ++ [.call loopThread 2 (.postPacket (Session.byteRequest 2))])).map
      (fun state => (state.callStack loopThread,
        (state.session.calls 2).wantsLock Session.byteConfig state.session.queueTotalSize,
        holdsMutex state.session (state.callStack loopThread))) =
      some ([.call 2, .user, .call 1, .user], true, true) := by
    decide
  obtain ⟨state, hrun, hstate⟩ := Option.map_eq_some_iff.mp hrun
  simp only [Prod.mk.injEq] at hstate
  exact ⟨state, hrun, 2, _, hstate.1, hstate.2⟩

end Threaded

end Wnet
