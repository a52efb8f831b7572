import Wnet.Evpp.Shutdown

/-!
# Waiting for a server to stop

`ServerBase::Stop` gives `TCPServer::Stop` a callback and waits on a condition variable until
the callback has set `stopped_`. The callback does not lock the mutex. A notification that
comes after the waiting thread has looked at `stopped_` and before it sleeps wakes nobody.
-/

namespace Wnet

open Evpp Foundation

/-- Where the callback stands. -/
inductive CallbackStage
  | idle
  /-- It is about to set `stopped_`. -/
  | setting
  /-- It is about to notify. -/
  | notifying
  deriving DecidableEq

/-- Where the call of `ServerBase::Stop` stands. -/
inductive WaitStage
  /-- `TCPServer::Stop` has not returned. -/
  | calling
  /-- It is about to look at `stopped_`. -/
  | looking
  /-- It has found `stopped_` unset. -/
  | unset
  | sleeping
  | returned
  deriving DecidableEq

/-- A server with the thread that stops it. The listening loop is in the callback while
`callback` is not idle, and stores the last status of the server after it. -/
structure ServerBase where
  tcpServer : TCPServer
  stopped : Bool
  callback : CallbackStage
  wait : WaitStage

/-- What happens next. -/
inductive BaseLabel
  | server (label : ServerLabel)
  /-- A statement of the callback. -/
  | callback
  /-- A piece of the wait. -/
  | wait
  /-- The waiting thread wakes up by itself. -/
  | wake
  deriving DecidableEq

/-- The step is one of the listening loop, which does not go on before the callback returns. -/
def Evpp.ServerLabel.onLoop : ServerLabel → Bool
  | .accept _ | .runTask | .proceed => true
  | .conn _ _ | .stop | .proceedStop => false

namespace ServerBase

def new : ServerBase where
  tcpServer := .new
  stopped := false
  callback := .idle
  wait := .calling

def Possible (base : ServerBase) : BaseLabel → Prop
  | .server label =>
      base.tcpServer.Possible label ∧ (label.onLoop = true → base.callback = .idle)
  | .callback => base.callback ≠ .idle
  | .wait =>
      base.wait = .calling ∧ base.tcpServer.stopCall = .queued ∨
        base.wait = .looking ∨ base.wait = .unset
  | .wake => base.wait = .sleeping

/-- The step, which fails where an assertion of the server does. -/
def act (base : ServerBase) : BaseLabel → Option ServerBase
  | .server label =>
      (base.tcpServer.act label).map fun tcpServer =>
        { base with
          tcpServer
          callback :=
            if base.tcpServer.stoppedCalls < tcpServer.stoppedCalls then .setting
            else base.callback }
  | .callback =>
      match base.callback with
      | .idle => none
      | .setting => some { base with stopped := true, callback := .notifying }
      | .notifying =>
          some { base with
            callback := .idle
            wait := if base.wait = .sleeping then .looking else base.wait }
  | .wait =>
      match base.wait with
      | .calling => some { base with wait := .looking }
      | .looking => some { base with wait := if base.stopped then .returned else .unset }
      | .unset => some { base with wait := .sleeping }
      | .sleeping | .returned => none
  | .wake => some { base with wait := .looking }

instance decidablePossible (base : ServerBase) (label : BaseLabel) :
    Decidable (base.Possible label) :=
  match label with
  | .server label =>
      inferInstanceAs (Decidable (base.tcpServer.Possible label ∧
        (label.onLoop = true → base.callback = .idle)))
  | .callback => inferInstanceAs (Decidable (base.callback ≠ .idle))
  | .wait =>
      inferInstanceAs (Decidable (base.wait = .calling ∧ base.tcpServer.stopCall = .queued ∨
        base.wait = .looking ∨ base.wait = .unset))
  | .wake => inferInstanceAs (Decidable (base.wait = .sleeping))

def step (base : ServerBase) (label : BaseLabel) : Option ServerBase :=
  if base.Possible label then base.act label else none

/-- The steps of the server are proper. -/
def Orderly (base : ServerBase) : BaseLabel → Prop
  | .server label => base.tcpServer.Proper label
  | _ => True

/-- And no notification comes after the waiting thread has looked and before it sleeps. -/
def Proper (base : ServerBase) : BaseLabel → Prop
  | .server label => base.tcpServer.Proper label
  | .callback => base.callback = .notifying → base.wait ≠ .unset
  | _ => True

/-! ## What holds of the wait -/

variable {base next : ServerBase}

structure Sound (base : ServerBase) : Prop where
  server : base.tcpServer.Sound
  callback : base.callback = .idle ∧ (base.stopped = true ↔ base.tcpServer.stoppedCalls = 1) ∨
    base.callback = .setting ∧ base.stopped = false ∧ base.tcpServer.stoppedCalls = 1 ∨
    base.callback = .notifying ∧ base.stopped = true ∧ base.tcpServer.stoppedCalls = 1
  returned : base.wait = .returned → base.stopped = true

/-- Once the callback has returned the waiting thread does not sleep. -/
def Woken (base : ServerBase) : Prop :=
  base.callback = .idle → base.stopped = true → base.wait ≠ .unset ∧ base.wait ≠ .sleeping

theorem new_sound : new.Sound := ⟨TCPServer.new_sound, Or.inl ⟨rfl, by decide⟩, by simp [new]⟩

/-- The callback was not called before. -/
theorem Sound.uncalled (hsound : base.Sound) (huncalled : base.tcpServer.stoppedCalls = 0) :
    base.callback = .idle ∧ base.stopped = false := by
  rcases hsound.callback with ⟨hidle, hstopped⟩ | ⟨-, -, hcalls⟩ | ⟨-, -, hcalls⟩
  · refine ⟨hidle, ?_⟩
    by_contra hset
    have := hstopped.mp (by simpa using hset)
    omega
  · omega
  · omega

theorem server_sound {label : ServerLabel} (hsound : base.Sound)
    (hpossible : base.Possible (.server label)) (hproper : base.tcpServer.Proper label) :
    ∃ next ∈ base.act (.server label), next.Sound ∧ next.wait = base.wait ∧
      next.stopped = base.stopped ∧ (next.callback = .idle → base.callback = .idle) := by
  obtain ⟨tcpServer, hact, hserver⟩ :=
    TCPServer.act_sound hsound.server hpossible.1 hproper
  have hmono := (TCPServer.act_passes hpossible.1 hact).mono
  have hbound := hserver.stoppedCalls_le
  rw [act, hact, Option.map_some]
  refine ⟨_, rfl, ⟨hserver, ?_, hsound.returned⟩, rfl, rfl, ?_⟩
  · dsimp only
    split
    next hcalled =>
      obtain ⟨-, hunset⟩ := hsound.uncalled (by omega)
      exact Or.inr (Or.inl ⟨rfl, hunset, by omega⟩)
    next hsame =>
      have hcalls : tcpServer.stoppedCalls = base.tcpServer.stoppedCalls := by omega
      rw [hcalls]
      exact hsound.callback
  · dsimp only
    split
    next => simp
    next => exact id

theorem callback_sound (hsound : base.Sound) (hpossible : base.Possible .callback) :
    ∃ next ∈ base.act .callback, next.Sound := by
  have hcalling : base.callback ≠ .idle := hpossible
  obtain ⟨hstage, hunset, hcalls⟩ | ⟨hstage, hset, hcalls⟩ :=
    hsound.callback.resolve_left fun h => hcalling h.1
  · rw [act, hstage]
    exact ⟨_, rfl, hsound.server, Or.inr (Or.inr ⟨rfl, rfl, hcalls⟩), fun _ => rfl⟩
  · rw [act, hstage]
    refine ⟨_, rfl, hsound.server, Or.inl ⟨rfl, iff_of_true hset hcalls⟩, fun _ => hset⟩

theorem wait_sound (hsound : base.Sound) (hpossible : base.Possible .wait) :
    ∃ next ∈ base.act .wait, next.Sound := by
  rcases hpossible with ⟨hwait, -⟩ | hwait | hwait <;> rw [act, hwait]
  · exact ⟨_, rfl, hsound.server, hsound.callback, by simp⟩
  · refine ⟨_, rfl, hsound.server, hsound.callback, fun hreturned => ?_⟩
    dsimp only at hreturned ⊢
    split at hreturned
    next hset => exact hset
    next => cases hreturned
  · exact ⟨_, rfl, hsound.server, hsound.callback, by simp⟩

theorem act_sound {label : BaseLabel} (hsound : base.Sound) (hpossible : base.Possible label)
    (horderly : base.Orderly label) : ∃ next ∈ base.act label, next.Sound := by
  cases label with
  | server label =>
      obtain ⟨next, hnext, hafter, -⟩ := server_sound hsound hpossible horderly
      exact ⟨next, hnext, hafter⟩
  | callback => exact callback_sound hsound hpossible
  | wait => exact wait_sound hsound hpossible
  | wake => exact ⟨_, rfl, hsound.server, hsound.callback, by simp⟩

theorem Proper.orderly {label : BaseLabel} (hproper : base.Proper label) :
    base.Orderly label := by
  cases label with
  | server label => exact hproper
  | callback | wait | wake => trivial

/-- The waiting thread is woken when the callback notifies, and does not sleep after it. -/
theorem act_woken {label : BaseLabel} (hsound : base.Sound) (hwoken : base.Woken)
    (hpossible : base.Possible label) (hproper : base.Proper label)
    (hnext : base.act label = some next) : next.Woken := by
  intro hidle hset
  cases label with
  | server label =>
      obtain ⟨other, hother, -, hwait, hstopped, hcallback⟩ :=
        server_sound hsound hpossible hproper
      obtain rfl := Option.some.inj (hother.symm.trans hnext)
      rw [hwait]
      exact hwoken (hcallback hidle) (hstopped ▸ hset)
  | callback =>
      rw [act] at hnext
      split at hnext
      next => cases hnext
      next =>
        obtain rfl := Option.some.inj hnext
        cases hidle
      next hnotifying =>
        obtain rfl := Option.some.inj hnext
        have hlooked : base.wait ≠ .unset := hproper hnotifying
        dsimp only
        split
        next => exact ⟨by decide, by decide⟩
        next hawake => exact ⟨hlooked, hawake⟩
  | wait =>
      rw [act] at hnext
      split at hnext
      next =>
        obtain rfl := Option.some.inj hnext
        exact ⟨by simp, by simp⟩
      next =>
        obtain rfl := Option.some.inj hnext
        have hstopped : base.stopped = true := hset
        rw [if_pos hstopped]
        exact ⟨by simp, by simp⟩
      next hunset =>
        obtain rfl := Option.some.inj hnext
        exact absurd hunset (hwoken hidle hset).1
      next => cases hnext
      next => cases hnext
  | wake =>
      obtain rfl := Option.some.inj hnext
      exact ⟨by simp, by simp⟩

/-! ## Runs -/

section Runs

variable {labels : List BaseLabel}

theorem run_sound (horderly : Along step Orderly new labels)
    (hrun : run step new labels = some base) : base.Sound :=
  run_invariant_possible Sound (fun _ _ => rfl)
    (fun _ _ hsound hpossible horderly =>
      forall_mem_of_exists_mem (act_sound hsound hpossible horderly))
    new_sound horderly hrun

theorem run_woken (hproper : Along step Proper new labels)
    (hrun : run step new labels = some base) : base.Sound ∧ base.Woken := by
  refine run_invariant_possible (fun base => base.Sound ∧ base.Woken) (fun _ _ => rfl) ?_
    ⟨new_sound, by simp [Woken, new]⟩ hproper hrun
  rintro base label ⟨hsound, hwoken⟩ hpossible hproper next hnext
  exact ⟨forall_mem_of_exists_mem (act_sound hsound hpossible hproper.orderly) next hnext,
    act_woken hsound hwoken hpossible hproper hnext⟩

/-- The callback has been called in a server that has set `stopped_`. -/
theorem Sound.called (hsound : base.Sound) (hset : base.stopped = true) :
    base.tcpServer.stoppedCalls = 1 := by
  rcases hsound.callback with ⟨-, hstopped⟩ | ⟨-, hunset, -⟩ | ⟨-, -, hcalls⟩
  · exact hstopped.mp hset
  · rw [hset] at hunset
    cases hunset
  · exact hcalls

/-- `Stop` does not return before every connection that was accepted has called back that it is
closed, and the listener and the pool are gone. The server is stopped then, or the listening
loop has yet to store that it is. -/
theorem stop_returns_stopped (horderly : Along step Orderly new labels)
    (hrun : run step new labels = some base) (hreturned : base.wait = .returned) :
    (base.tcpServer.loop = .finishing ∨ base.tcpServer.status = .stopped) ∧
    base.tcpServer.stoppedCalls = 1 ∧ base.tcpServer.connections = [] ∧
    base.tcpServer.listener = false ∧ base.tcpServer.threadPool = false ∧
    ∀ id, 0 < id → id ≤ base.tcpServer.nextConnId →
      .closed ∈ (base.tcpServer.conns id).notices := by
  have hsound := run_sound horderly hrun
  have hcalled := hsound.called (hsound.returned hreturned)
  have hstopped := hsound.server.stopped hcalled
  exact ⟨hsound.server.called_iff.mp hcalled, hcalled, hstopped.connections, hstopped.members.1,
    hstopped.members.2,
    fun id hpos hle => hsound.server.all_closed hstopped.connections hpos hle⟩

/-- When nothing is left to do on the loops, in the callback and in the wait, `Stop` has
returned exactly if no connection is connected, provided that no notification came after the
waiting thread had looked and before it slept. -/
theorem stop_returns (hproper : Along step Proper new labels)
    (hrun : run step new labels = some base) (hquiet : base.tcpServer.Quiet)
    (hcallback : base.callback = .idle) (hwait : ¬ base.Possible .wait) :
    base.wait = .returned ↔ ∀ id, 0 < id → id ≤ base.tcpServer.nextConnId →
      (base.tcpServer.conns id).status ≠ .connected := by
  obtain ⟨hsound, hwoken⟩ := run_woken hproper hrun
  rw [← hsound.server.stops hquiet]
  refine ⟨fun hreturned => ?_, fun hstatus => ?_⟩
  · have hcalled := hsound.called (hsound.returned hreturned)
    exact (hsound.server.called_iff.mp hcalled).resolve_left (by simp [hquiet.loop.2])
  have hset : base.stopped = true := by
    rcases hsound.callback with ⟨-, hstopped⟩ | ⟨hsetting, -⟩ | ⟨-, hset, -⟩
    · exact hstopped.mpr (hsound.server.called_iff.mpr (Or.inr hstatus))
    · rw [hcallback] at hsetting
      cases hsetting
    · exact hset
  obtain ⟨-, hawake⟩ := hwoken hcallback hset
  cases hstage : base.wait with
  | calling => exact absurd (Or.inl ⟨hstage, hquiet.stopCall⟩) hwait
  | looking => exact absurd (Or.inr (Or.inl hstage)) hwait
  | unset => exact absurd (Or.inr (Or.inr hstage)) hwait
  | sleeping => exact absurd hstage hawake
  | returned => rfl

/-- The callback is called when the last status of the server is about to be stored. -/
structure Calling (base : ServerBase) : Prop where
  begun : base.tcpServer.Begun
  ended : base.callback ≠ .idle → base.tcpServer.Ended

theorem act_calling {label : BaseLabel} (hcalling : base.Calling)
    (hpossible : base.Possible label) (hnext : base.act label = some next) : next.Calling := by
  cases label with
  | server label =>
      obtain ⟨tcpServer, hact, rfl⟩ := Option.map_eq_some_iff.mp hnext
      have hpasses := TCPServer.act_passes hpossible.1 hact
      refine ⟨hcalling.begun.passes hpasses, fun hcallback => ?_⟩
      dsimp only at hcallback ⊢
      split at hcallback
      next hmore => exact hcalling.begun.ended hpasses hmore
      next => exact ((hcalling.ended hcallback).passes hpasses).1
  | callback =>
      rw [act] at hnext
      have hended := hcalling.ended hpossible
      split at hnext
      next => cases hnext
      next =>
        obtain rfl := Option.some.inj hnext
        exact ⟨hcalling.begun, fun _ => hended⟩
      next =>
        obtain rfl := Option.some.inj hnext
        exact ⟨hcalling.begun, fun _ => hended⟩
  | wait =>
      rw [act] at hnext
      split at hnext <;> cases hnext <;> exact ⟨hcalling.begun, hcalling.ended⟩
  | wake =>
      obtain rfl := Option.some.inj hnext
      exact ⟨hcalling.begun, hcalling.ended⟩

theorem run_calling (hrun : run step new labels = some base) : base.Calling := by
  refine run_invariant Calling ⟨by simp [TCPServer.Begun, TCPServer.new, new], by simp [new]⟩
    (fun _ _ _ middle next _ _ hcalling hstep => ?_) hrun
  obtain ⟨hpossible, hnext⟩ := Option.ite_none_right_eq_some.mp hstep
  exact act_calling hcalling hpossible hnext

/-- Nobody is going to notify the waiting thread, which has found `stopped_` unset. -/
structure Lost (base : ServerBase) : Prop where
  callback : base.callback = .idle
  ended : base.tcpServer.Ended
  wait : base.wait = .unset ∨ base.wait = .sleeping

theorem Lost.step {label : BaseLabel} (hlost : base.Lost) (hwake : label ≠ .wake)
    (hnext : step base label = some next) : next.Lost := by
  obtain ⟨hpossible, hact⟩ := Option.ite_none_right_eq_some.mp hnext
  cases label with
  | server label =>
      obtain ⟨tcpServer, hserver, rfl⟩ := Option.map_eq_some_iff.mp hact
      obtain ⟨hended, hcalls⟩ := hlost.ended.passes (TCPServer.act_passes hpossible.1 hserver)
      refine ⟨?_, hended, hlost.wait⟩
      rw [if_neg (by omega)]
      exact hlost.callback
  | callback => exact absurd hlost.callback hpossible
  | wait =>
      rcases hlost.wait with hunset | hsleeping
      · rw [act, hunset] at hact
        obtain rfl := Option.some.inj hact
        exact ⟨hlost.callback, hlost.ended, Or.inr rfl⟩
      · rw [act, hsleeping] at hact
        cases hact
  | wake => exact absurd rfl hwake

/-- A notification that comes after the waiting thread has looked at `stopped_` and before it
sleeps is lost: whatever happens next, `Stop` does not return unless the thread wakes up by
itself, although the server is stopped or about to store that it is. -/
theorem notification_lost (hrun : run step new labels = some base)
    (hnotifying : base.callback = .notifying) (hlooked : base.wait = .unset) :
    ∃ next ∈ step base .callback, ∀ more, .wake ∉ more → ∀ final ∈ run step next more,
      final.wait ≠ .returned ∧
      (final.tcpServer.loop = .finishing ∨ final.tcpServer.status = .stopped) := by
  have hended := (run_calling hrun).ended (by simp [hnotifying])
  have hpossible : base.Possible .callback := by
    rw [Possible, hnotifying]
    decide
  rw [step, if_pos hpossible, act, hnotifying]
  refine ⟨{ base with callback := .idle, wait := .unset }, by simp [hlooked],
    fun more hwake final hfinal => ?_⟩
  have hlost : final.Lost := by
    refine run_invariant Lost ?_ ?_ hfinal
    · exact ⟨rfl, hended, Or.inl rfl⟩
    · intro before label after middle next hsplit hbefore hlost hstep
      exact hlost.step (fun hlabel => hwake (by simp [hsplit, hlabel])) hstep
  refine ⟨?_, hlost.ended.2⟩
  rcases hlost.wait with hstage | hstage <;> simp [hstage]

end Runs

instance decidableOrderly (base : ServerBase) (label : BaseLabel) :
    Decidable (base.Orderly label) :=
  match label with
  | .server label => inferInstanceAs (Decidable (base.tcpServer.Proper label))
  | .callback | .wait | .wake => inferInstanceAs (Decidable True)

instance decidableProper (base : ServerBase) (label : BaseLabel) :
    Decidable (base.Proper label) :=
  match label with
  | .server label => inferInstanceAs (Decidable (base.tcpServer.Proper label))
  | .callback =>
      inferInstanceAs (Decidable (base.callback = .notifying → base.wait ≠ .unset))
  | .wait | .wake => inferInstanceAs (Decidable True)

/-- A connection is accepted and attached, and a thread that stops the server sleeps until
the connection is closed. -/
def sleptThrough : List BaseLabel :=
  [.server (.accept 5), .server .proceed, .server (.conn 1 (.runTask .retriable)),
    .server (.conn 1 .resume), .server .stop, .server .proceedStop, .server .proceedStop,
    .server .proceedStop, .wait, .wait, .wait, .server .runTask, .server .proceed,
    .server .proceed, .server .proceed, .server (.conn 1 (.queueInLoop .handleClose)),
    .server (.conn 1 (.runTask .retriable)), .server (.conn 1 .resume),
    .server (.conn 1 .resume), .server .runTask, .server .proceed, .callback, .callback, .wait]

/-- `Stop` has returned while the status of the server is the one that it set itself. -/
theorem stop_returns_stopped_sleptThrough : ∃ base, run step new sleptThrough = some base ∧
    base.tcpServer.status = .stopping ∧ base.tcpServer.stoppedCalls = 1 ∧
    .closed ∈ (base.tcpServer.conns 1).notices := by
  have horderly : Along step Orderly new sleptThrough := by decide
  have hfacts : (run step new sleptThrough).map (fun base =>
      (base.wait, base.tcpServer.status, base.tcpServer.nextConnId)) =
      some (.returned, .stopping, 1) := by decide
  obtain ⟨base, hrun, hbase⟩ := Option.map_eq_some_iff.mp hfacts
  simp only [Prod.mk.injEq] at hbase
  obtain ⟨hreturned, hstatus, hid⟩ := hbase
  obtain ⟨-, hcalls, -, -, -, hclosed⟩ := stop_returns_stopped horderly hrun hreturned
  exact ⟨base, hrun, hstatus, hcalls, hclosed 1 Nat.one_pos hid.ge⟩

theorem stop_returns_sleptThrough : ∃ base,
    run step new (sleptThrough ++ [.server .proceed]) = some base ∧
    base.tcpServer.nextConnId = 1 ∧ base.wait = .returned := by
  have hproper : Along step Proper new (sleptThrough ++ [.server .proceed]) := by decide
  have hserver : (run step new (sleptThrough ++ [.server .proceed])).map (fun base =>
      (base.tcpServer.stopCall, base.tcpServer.tasks, base.tcpServer.loop,
        base.tcpServer.nextConnId)) = some (.queued, [], .idle, 1) := by decide
  have hconn : (run step new (sleptThrough ++ [.server .proceed])).map (fun base =>
      ((base.tcpServer.conns 1).status, (base.tcpServer.conns 1).tasks,
        (base.tcpServer.conns 1).calling, (base.tcpServer.conns 1).stack)) =
      some (.disconnected, [], [], []) := by decide
  have hbase : (run step new (sleptThrough ++ [.server .proceed])).map (fun base =>
      (base.callback, decide (base.Possible .wait))) = some (.idle, false) := by decide
  obtain ⟨base, hrun, hmembers⟩ := Option.map_eq_some_iff.mp hserver
  simp only [hrun, Option.map_some, Option.some.injEq, Prod.mk.injEq, decide_eq_false_iff_not]
    at hmembers hconn hbase
  obtain ⟨hcall, htasks, hloop, hid⟩ := hmembers
  obtain ⟨hstatus, hidle⟩ := hconn
  obtain ⟨hcallback, hwait⟩ := hbase
  have hquiet : base.tcpServer.Quiet := by
    refine ⟨hcall, ⟨htasks, hloop⟩, fun id hpos hle => ?_⟩
    obtain rfl : id = 1 := by omega
    exact hidle
  refine ⟨base, hrun, hid, (stop_returns hproper hrun hquiet hcallback hwait).mpr ?_⟩
  intro id hpos hle
  obtain rfl : id = 1 := by omega
  simp [hstatus]

/-- The thread looks at `stopped_` before the callback sets it, and sleeps after the
notification. -/
def lookedBefore : List BaseLabel :=
  [.server .stop, .server .proceedStop, .server .proceedStop, .server .proceedStop, .wait, .wait,
    .server .runTask, .callback]

theorem notification_lost_lookedBefore : ∃ base, run step new lookedBefore = some base ∧
    ∃ next ∈ step base .callback, ∀ more, .wake ∉ more → ∀ final ∈ run step next more,
      final.wait ≠ .returned ∧
      (final.tcpServer.loop = .finishing ∨ final.tcpServer.status = .stopped) := by
  have hfacts : (run step new lookedBefore).map (fun base => (base.callback, base.wait)) =
      some (.notifying, .unset) := by decide
  obtain ⟨base, hrun, hbase⟩ := Option.map_eq_some_iff.mp hfacts
  simp only [Prod.mk.injEq] at hbase
  exact ⟨base, hrun, notification_lost hrun hbase.1 hbase.2⟩

end ServerBase

end Wnet
