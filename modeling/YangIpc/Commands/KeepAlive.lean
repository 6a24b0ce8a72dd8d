import YangIpc.Core.Beacon
import YangIpc.Library.Run

/-!
# The keep-alive timer

`yangipc_cmd.c` starts and stops a timer that sends heartbeats.  Whether the timer has to be
created is decided by `intval_ms`, the period it was created with last, and not by the timer.  A
period that is asked for again is taken to be running, also after the timer was stopped or could
not be started.

## Main definitions

* `KeepAlive`: the timer and its recorded period
* `yangipcKeepAliveStartTimer`, `yangipcKeepAliveStopTimer`, `setKeepAliveTimer`: the functions
* `Honoured`: what a call that returns `BK_OK` promises
* `InStep`: the recorded period is that of the running timer

## Main results

* `start_honoured_iff`, `stop_honoured`: one call
* `keepAlive_honoured_iff`: every run of the command
-/

namespace YangIpc

namespace Commands

open YangIpc.Core Transition

variable {Timer : Type} (api : TimerApi Timer)

/-- `timer` and `intval_ms` of `db_cmd_info_t`. -/
structure KeepAlive (Timer : Type) where
  timer : Timer
  intvalMs : UInt32

/-- The timer with a period other than the recorded one is removed before it is created anew. -/
def removeOtherTimer (timeMs : UInt32) (info : KeepAlive Timer) : Bool × Timer :=
  if info.intvalMs ≠ 0 ∧ info.intvalMs ≠ timeMs ∧ api.hasHandle info.timer then
    let r := api.rtosDeinitTimer info.timer
    (r.1, if r.1 then api.dropHandle r.2 else r.2)
  else (true, info.timer)

/-- `yangipc_keep_alive_start_timer`; the result is `true` for `BK_OK`. -/
def yangipcKeepAliveStartTimer (timeMs : UInt32) :
    Option (KeepAlive Timer) → Bool × Option (KeepAlive Timer)
  | none => (false, none)
  | some info =>
    if info.intvalMs ≠ 0 ∧ info.intvalMs = timeMs then
      -- "timer aready start"
      (true, some info)
    else
      let removed := removeOtherTimer api timeMs info
      if removed.1 then
        let created := api.rtosInitTimer removed.2 timeMs
        if created.1 then
          let started := api.rtosStartTimer created.2
          (started.1, some ⟨started.2, timeMs⟩)
        else (false, some { info with timer := created.2 })
      else (false, some { info with timer := removed.2 })

/-- `yangipc_keep_alive_stop_timer`. -/
def yangipcKeepAliveStopTimer : Option (KeepAlive Timer) → Bool × Option (KeepAlive Timer)
  | none => (false, none)
  | some info =>
    let stopped := api.rtosStopTimer info.timer
    (stopped.1, some { info with timer := stopped.2 })

/-- The branch of the handler for `DBCMD_SET_KEEP_ALIVE`. -/
def setKeepAliveTimer (param : UInt32) (info : Option (KeepAlive Timer)) :
    Bool × Option (KeepAlive Timer) :=
  if param ≠ 0 then yangipcKeepAliveStartTimer api param info
  else yangipcKeepAliveStopTimer api info

/-- The timer exists and is running with a period. -/
def RunningWith (timeMs : UInt32) (info : Option (KeepAlive Timer)) : Prop :=
  ∃ i, info = some i ∧ api.hasHandle i.timer = true ∧ api.isRunning i.timer = true ∧
    api.period i.timer = timeMs

/-- A call that returns `BK_OK` has started the timer with its period, or stopped it. -/
def Honoured (info : Option (KeepAlive Timer)) (param : UInt32) : Prop :=
  (setKeepAliveTimer api param info).1 = true →
    if param ≠ 0 then RunningWith api param (setKeepAliveTimer api param info).2
    else ∀ i, (setKeepAliveTimer api param info).2 = some i → api.isRunning i.timer = false

/-- The recorded period is asked for only while the timer is running with it. -/
def InStep (info : Option (KeepAlive Timer)) (param : UInt32) : Prop :=
  param ≠ 0 → ∀ i, info = some i → i.intvalMs = param → RunningWith api param info

/-- A timer that does not exist is not running, and stopping does not create it. -/
structure AbsentIdle : Prop where
  idle : ∀ timer, api.hasHandle timer = false → api.isRunning timer = false
  stop : ∀ timer, api.hasHandle timer = false →
    api.hasHandle (api.rtosStopTimer timer).2 = false

/-! ## One call -/

variable {api}
variable {info : Option (KeepAlive Timer)} {param : UInt32}

/-- A timer that was created and started. -/
theorem running_of_created (hlaw : api.Lawful) {timer : Timer}
    (hcreated : (api.rtosInitTimer timer param).1 = true)
    (hstarted : (api.rtosStartTimer (api.rtosInitTimer timer param).2).1 = true) :
    RunningWith api param
      (some ⟨(api.rtosStartTimer (api.rtosInitTimer timer param).2).2, param⟩) := by
  obtain ⟨hhandle, hperiod⟩ := hlaw.init timer param hcreated
  obtain ⟨hhandle', hrunning, hperiod'⟩ := hlaw.start _ hhandle hstarted
  exact ⟨_, rfl, hhandle', hrunning, hperiod'.trans hperiod⟩

/-- **A start** keeps its promise if and only if it does not take a stopped timer for a running
one. -/
theorem start_honoured_iff (hlaw : api.Lawful) (hparam : param ≠ 0) :
    Honoured api info param ↔ InStep api info param := by
  have hset : setKeepAliveTimer api param info = yangipcKeepAliveStartTimer api param info :=
    if_pos hparam
  unfold Honoured InStep
  rw [hset, if_pos hparam]
  cases info with
  | none => simp [yangipcKeepAliveStartTimer]
  | some i =>
    by_cases hsame : i.intvalMs = param
    · -- the recorded period: nothing is done
      have hcall : yangipcKeepAliveStartTimer api param (some i) = (true, some i) := by
        simp only [yangipcKeepAliveStartTimer]
        rw [if_pos ⟨hsame ▸ hparam, hsame⟩]
      rw [hcall]
      constructor
      · exact fun h _ _ _ _ => h rfl
      · exact fun h _ => h hparam i rfl hsame
    · -- another period: the timer is created and started
      refine ⟨fun _ _ j hj hjp => absurd (Option.some.inj hj ▸ hjp) hsame, fun _ hok => ?_⟩
      simp only [yangipcKeepAliveStartTimer, hsame, and_false, if_false] at hok ⊢
      by_cases hremoved : (removeOtherTimer api param i).1 = true
      · simp only [hremoved, if_true] at hok ⊢
        by_cases hcreated : (api.rtosInitTimer (removeOtherTimer api param i).2 param).1 = true
        · simp only [hcreated, if_true] at hok ⊢
          exact running_of_created hlaw hcreated hok
        · simp [hcreated] at hok
      · simp [hremoved] at hok

/-- **A stop** keeps its promise. -/
theorem stop_honoured (hlaw : api.Lawful) (habsent : AbsentIdle api) : Honoured api info 0 := by
  intro hok
  have hset : setKeepAliveTimer api 0 info = yangipcKeepAliveStopTimer api info :=
    if_neg fun h => h rfl
  rw [hset] at hok ⊢
  rw [if_neg fun h : (0 : UInt32) ≠ 0 => h rfl]
  cases info with
  | none => exact absurd hok nofun
  | some i =>
    rintro _ ⟨⟩
    cases hhandle : api.hasHandle i.timer with
    | true => exact (hlaw.stop i.timer hhandle hok).2.1
    | false => exact habsent.idle _ (habsent.stop _ hhandle)

/-- Stopping asks for no period. -/
theorem honoured_iff_inStep (hlaw : api.Lawful) (habsent : AbsentIdle api) :
    Honoured api info param ↔ InStep api info param := by
  by_cases hparam : param = 0
  · subst hparam
    exact ⟨fun _ h => absurd rfl h, fun _ => stop_honoured hlaw habsent⟩
  · exact start_honoured_iff hlaw hparam

/-! ## Runs -/

/-- The keep-alive timer after a command. -/
def nextKeepAlive (api : TimerApi Timer) (info : Option (KeepAlive Timer)) (param : UInt32) :
    Option (KeepAlive Timer) :=
  (setKeepAliveTimer api param info).2

/-- **Every run.** Along any sequence of commands every call that returns `BK_OK` keeps its
promise if and only if no period is asked for again while the timer is not running with it. -/
theorem keepAlive_honoured_iff (api : TimerApi Timer) (hlaw : api.Lawful)
    (habsent : AbsentIdle api) (info : Option (KeepAlive Timer)) (params : List UInt32) :
    Along (nextKeepAlive api) (Honoured api) info params ↔
      Along (nextKeepAlive api) (InStep api) info params :=
  along_congr (B := fun _ => True) (fun _ _ _ _ => honoured_iff_inStep hlaw habsent)
    (fun _ _ _ _ _ => trivial) info trivial

/-- Timers that never fail, and run only while they exist. -/
def strictTimers : TimerApi PlainTimer :=
  { plainTimers with isRunning := fun timer => timer.handle && timer.running }

theorem lawful_strictTimers : strictTimers.Lawful where
  hasHandle_cleared := rfl
  init _ _ _ := ⟨rfl, rfl⟩
  start _ h _ := ⟨h, Bool.and_eq_true_iff.mpr ⟨h, h⟩, rfl⟩
  stop _ h _ := ⟨h, Bool.and_false _, rfl⟩
  reload _ h _ := ⟨h, Bool.and_eq_true_iff.mpr ⟨h, h⟩, rfl⟩
  changePeriod _ _ h _ := ⟨h, rfl⟩
  deinit _ _ _ := rfl

theorem absentIdle_strictTimers : AbsentIdle strictTimers where
  idle timer h := by
    show (timer.handle && timer.running) = false
    rw [show timer.handle = false from h, Bool.false_and]
  stop _ h := h

/-- The state after `yangipc_cmd_server_init`. -/
def KeepAlive.start (api : TimerApi Timer) : KeepAlive Timer := ⟨api.cleared, 0⟩

/-- A period asked for again after a stop is not started, and `BK_OK` returned. -/
theorem not_honoured_after_stop :
    ¬∀ (Timer : Type) (api : TimerApi Timer) (params : List UInt32), api.Lawful → AbsentIdle api →
      Along (nextKeepAlive api) (Honoured api) (some (.start api)) params := by
  intro h
  have hrun := h PlainTimer strictTimers ([5000, 0] ++ [5000]) lawful_strictTimers
    absentIdle_strictTimers
  obtain ⟨i, hi, -, hrunning, -⟩ := (along_append.mp hrun).2.1 rfl
  obtain rfl : (⟨⟨true, false, 5000⟩, 5000⟩ : KeepAlive PlainTimer) = i := Option.some.inj hi
  exact absurd hrunning (by decide)

/-- A period changed after a stop is started. -/
theorem keepAlive_honoured_iff_changed :
    Along (nextKeepAlive strictTimers) (Honoured strictTimers) (some (.start strictTimers))
      [5000, 0, 3000] := by
  refine (keepAlive_honoured_iff strictTimers lawful_strictTimers absentIdle_strictTimers _
    _).mpr ⟨?_, ?_, ?_, trivial⟩
  · rintro - _ ⟨⟩ h
    exact absurd h (by decide)
  · exact fun h => absurd rfl h
  · rintro - _ ⟨⟩ h
    exact absurd h (by decide)

end Commands

end YangIpc
