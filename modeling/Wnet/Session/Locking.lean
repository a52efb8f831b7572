import Wnet.Session.Pieces

/-!
# The mutex of a session

A call holds `mutex_` exactly at the stages inside its protected sections. This
is said once here: what each piece of a call does to the mutex, and from it that
at every moment the stage of each call tells whether it is the holder.
-/

namespace Wnet

open Foundation

variable {Body : Type*}

/-- Whether a call is inside a section protected by `mutex_`. -/
def Activity.locks : Activity Body → Bool
  | .postPacket _ (.encoded _) | .postPacket _ (.stamped _) => true
  | .onConnection .looping | .onConnection (.encoded _) | .onConnection (.stamped _) => true
  | _ => false

/-- Whether a call has not begun or has returned. -/
def Activity.finished : Activity Body → Bool
  | .idle | .postPacket _ (.returned _) | .onConnection .returned => true
  | .handlePacket (.returned _) | .checkTimeout _ .returned => true
  | _ => false

/-- A piece of a call that leaves it at `activity` keeps, takes or releases the mutex. -/
structure Locking (session next : Session Body) (call : Nat) (activity : Activity Body) :
    Prop where
  calls : next.calls = Function.update session.calls call activity
  begun : activity ≠ .idle
  mutex : (next.mutex = session.mutex ∧ activity.locks = (session.calls call).locks) ∨
    (session.mutex = none ∧ next.mutex = some call ∧ activity.locks = true) ∨
    ((session.calls call).locks = true ∧ next.mutex = none ∧ activity.locks = false)

section Pieces

variable {config : Config Body} {session next : Session Body} {call : Nat}

theorem Locking.keeps {middle : Session Body} {before after : Activity Body}
    (hcall : session.calls call = before) (hcalls : middle.calls = session.calls)
    (hmutex : middle.mutex = session.mutex) (hlocks : after.locks = before.locks)
    (hbegun : after ≠ .idle) :
    ∃ activity, Locking session (middle.become call after) call activity :=
  ⟨after, by rw [Session.become, hcalls], hbegun, Or.inl ⟨hmutex, by rw [hcall, hlocks]⟩⟩

theorem Locking.takes {middle : Session Body} {after : Activity Body}
    (hcalls : middle.calls = session.calls) (hfree : session.mutex = none)
    (hmutex : middle.mutex = some call) (hlocks : after.locks = true)
    (hbegun : after ≠ .idle) :
    ∃ activity, Locking session (middle.become call after) call activity :=
  ⟨after, by rw [Session.become, hcalls], hbegun, Or.inr (Or.inl ⟨hfree, hmutex, hlocks⟩)⟩

theorem Locking.releases {middle : Session Body} {before after : Activity Body}
    (hcall : session.calls call = before) (hcalls : middle.calls = session.calls)
    (hholds : before.locks = true) (hmutex : middle.mutex = none) (hlocks : after.locks = false)
    (hbegun : after ≠ .idle) :
    ∃ activity, Locking session (middle.become call after) call activity :=
  ⟨after, by rw [Session.become, hcalls], hbegun,
    Or.inr (Or.inr ⟨by rw [hcall, hholds], hmutex, hlocks⟩)⟩

theorem postPacket_locking {request : Request Body} {stage : PostStage Body}
    (hcall : session.calls call = .postPacket request stage)
    (hnext : session.postPacket config call request stage = some next) :
    ∃ activity, Locking session next call activity := by
  cases Session.postPacket_cases hnext with
  | @encode packet hmutex hconnected =>
      have hspec := encode_spec config { session with mutex := some call } packet
      exact Locking.takes hspec.calls hmutex hspec.mutex rfl nofun
  | @send packet =>
      exact Locking.releases hcall (send_spec session packet).calls rfl rfl rfl nofun
  | wait hmutex hblocking hfull =>
      -- The caller stays where it is.
      exact ⟨_, (Function.update_eq_self call session.calls).symm, by rw [hcall]; nofun,
        Or.inl ⟨rfl, rfl⟩⟩
  | _ => exact Locking.keeps hcall rfl rfl rfl nofun

theorem onConnection_locking {stage : FlushStage Body}
    (hcall : session.calls call = .onConnection stage)
    (hnext : session.onConnection config call stage = some next) :
    ∃ activity, Locking session next call activity := by
  cases Session.onConnection_cases hnext with
  | lock hmutex hqueue => exact Locking.takes rfl hmutex rfl rfl nofun
  | @encode packet outputQueue hqueue =>
      have hspec := encode_spec config (session.pop packet outputQueue) packet
      exact Locking.keeps hcall hspec.calls hspec.mutex rfl nofun
  | unlock hqueue =>
      obtain ⟨total, htotal⟩ := recount_eq config session
      rw [htotal]
      exact Locking.releases hcall rfl rfl rfl rfl nofun
  | @send packet =>
      have hspec := send_spec session packet
      exact Locking.keeps hcall hspec.calls hspec.mutex rfl nofun
  | _ => exact Locking.keeps hcall rfl rfl rfl nofun

theorem handlePacket_locking {stage : ResponseStage Body}
    (hcall : session.calls call = .handlePacket stage)
    (hnext : session.handlePacket config call stage = some next) :
    ∃ activity, Locking session next call activity := by
  cases Session.handlePacket_cases hnext with
  | answer hhandler => exact Locking.keeps hcall rfl rfl rfl nofun
  | append => exact Locking.keeps hcall rfl rfl rfl nofun

theorem checkTimeout_locking {now : Int} {stage : TimeoutStage Body}
    (hcall : session.calls call = .checkTimeout now stage)
    (hnext : session.checkTimeout config call now stage = some next) :
    ∃ activity, Locking session next call activity := by
  cases Session.checkTimeout_cases hnext with
  | recount hmutex hover =>
      obtain ⟨total, htotal⟩ := recount_eq config session
      rw [htotal]
      exact Locking.keeps hcall rfl rfl rfl nofun
  | _ => exact Locking.keeps hcall rfl rfl rfl nofun

/-- The first piece of a call begins it and does not touch the mutex. -/
theorem start_keeps {operation : Operation Body}
    (hnext : session.start config call operation = some next) :
    ∃ activity, next.calls = Function.update session.calls call activity ∧
      next.mutex = session.mutex ∧ activity.locks = false ∧ activity ≠ .idle := by
  cases Session.start_cases hnext with
  | _ => exact ⟨_, rfl, rfl, rfl, nofun⟩

theorem start_locking {operation : Operation Body} (hidle : session.calls call = .idle)
    (hnext : session.start config call operation = some next) :
    ∃ activity, Locking session next call activity := by
  obtain ⟨activity, hcalls, hmutex, hlocks, hbegun⟩ := start_keeps hnext
  exact ⟨activity, hcalls, hbegun, Or.inl ⟨hmutex, by rw [hidle, hlocks]; rfl⟩⟩

theorem proceed_locking (hnext : session.proceed config call = some next) :
    ∃ activity, Locking session next call activity := by
  cases Session.proceed_cases hnext with
  | postPacket hcall hnext => exact postPacket_locking hcall hnext
  | onConnection hcall hnext => exact onConnection_locking hcall hnext
  | handlePacket hcall hnext => exact handlePacket_locking hcall hnext
  | checkTimeout hcall hnext => exact checkTimeout_locking hcall hnext

/-- A call that goes on has begun and has not returned. -/
theorem not_finished_of_proceed (hnext : session.proceed config call = some next) :
    (session.calls call).finished = false := by
  cases Session.proceed_cases hnext with
  | postPacket hcall hnext =>
      rw [hcall]
      cases Session.postPacket_cases hnext with
      | _ => rfl
  | onConnection hcall hnext =>
      rw [hcall]
      cases Session.onConnection_cases hnext with
      | _ => rfl
  | handlePacket hcall hnext =>
      rw [hcall]
      cases Session.handlePacket_cases hnext with
      | _ => rfl
  | checkTimeout hcall hnext =>
      rw [hcall]
      cases Session.checkTimeout_cases hnext with
      | _ => rfl

end Pieces

namespace Session

/-- The holder of the mutex is the call inside a protected section. -/
def Exclusive (session : Session Body) : Prop :=
  ∀ call, (session.calls call).locks = true ↔ session.mutex = some call

theorem exclusive_new (mem : Ref → Channel) : (new mem : Session Body).Exclusive := by
  intro call
  simp [new, Activity.locks]

variable {config : Config Body} {session next : Session Body}

theorem Exclusive.locking (hexclusive : session.Exclusive) {call : Nat}
    {activity : Activity Body} (hlocking : Locking session next call activity) :
    next.Exclusive := by
  intro other
  rw [hlocking.calls]
  by_cases hother : other = call
  · subst hother
    rw [Function.update_self]
    rcases hlocking.mutex with ⟨hmutex, hlocks⟩ | ⟨-, hmutex, hlocks⟩ | ⟨-, hmutex, hlocks⟩
    · rw [hmutex, hlocks]
      exact hexclusive other
    · simp [hmutex, hlocks]
    · simp [hmutex, hlocks]
  · rw [Function.update_of_ne hother, hexclusive]
    rcases hlocking.mutex with ⟨hmutex, -⟩ | ⟨hfree, hmutex, -⟩ | ⟨hholds, hmutex, -⟩
    · rw [hmutex]
    · simp [hfree, hmutex, Ne.symm hother]
    · rw [(hexclusive call).mp hholds, hmutex]
      simp [Ne.symm hother]

theorem step_exclusive {label : Label Body} (hexclusive : session.Exclusive)
    (hstep : session.step config label = some next) : next.Exclusive := by
  cases step_cases hstep with
  | start hidle hnext =>
      obtain ⟨activity, hlocking⟩ := start_locking hidle hnext
      exact hexclusive.locking hlocking
  | postPacket hcall hnext =>
      obtain ⟨activity, hlocking⟩ := postPacket_locking hcall hnext
      exact hexclusive.locking hlocking
  | onConnection hcall hnext =>
      obtain ⟨activity, hlocking⟩ := onConnection_locking hcall hnext
      exact hexclusive.locking hlocking
  | handlePacket hcall hnext =>
      obtain ⟨activity, hlocking⟩ := handlePacket_locking hcall hnext
      exact hexclusive.locking hlocking
  | checkTimeout hcall hnext =>
      obtain ⟨activity, hlocking⟩ := checkTimeout_locking hcall hnext
      exact hexclusive.locking hlocking
  | _ => exact hexclusive

end Session

end Wnet
