import Mathlib.Data.Nat.Notation

/-!
# Timers of the operating system

The functions of the real-time operating system for timers.  They are outside of the repository
and so a parameter, with what is documented of the calls that succeed.

## Main definitions

* `TimerApi`: the functions
* `TimerApi.Lawful`, `TimerApi.Succeeds`: what they do, and that they do not fail
-/

namespace YangIpc

namespace Core

/-- `beken_timer_t` and its functions; a function returns whether it succeeded. -/
structure TimerApi (Timer : Type) where
  /-- cleared memory -/
  cleared : Timer
  /-- `handle` is not null. -/
  hasHandle : Timer → Bool
  /-- `handle` becomes null. -/
  dropHandle : Timer → Timer
  isRunning : Timer → Bool
  period : Timer → UInt32
  rtosInitTimer : Timer → UInt32 → Bool × Timer
  rtosStartTimer : Timer → Bool × Timer
  rtosStopTimer : Timer → Bool × Timer
  rtosReloadTimer : Timer → Bool × Timer
  rtosChangePeriod : Timer → UInt32 → Bool × Timer
  rtosDeinitTimer : Timer → Bool × Timer

namespace TimerApi

variable {Timer : Type} (api : TimerApi Timer)

/-- The timer after a call that has succeeded. -/
structure Lawful : Prop where
  hasHandle_cleared : api.hasHandle api.cleared = false
  init : ∀ timer ms, (api.rtosInitTimer timer ms).1 = true →
    api.hasHandle (api.rtosInitTimer timer ms).2 = true ∧
      api.period (api.rtosInitTimer timer ms).2 = ms
  start : ∀ timer, api.hasHandle timer = true → (api.rtosStartTimer timer).1 = true →
    api.hasHandle (api.rtosStartTimer timer).2 = true ∧
      api.isRunning (api.rtosStartTimer timer).2 = true ∧
      api.period (api.rtosStartTimer timer).2 = api.period timer
  stop : ∀ timer, api.hasHandle timer = true → (api.rtosStopTimer timer).1 = true →
    api.hasHandle (api.rtosStopTimer timer).2 = true ∧
      api.isRunning (api.rtosStopTimer timer).2 = false ∧
      api.period (api.rtosStopTimer timer).2 = api.period timer
  reload : ∀ timer, api.hasHandle timer = true → (api.rtosReloadTimer timer).1 = true →
    api.hasHandle (api.rtosReloadTimer timer).2 = true ∧
      api.isRunning (api.rtosReloadTimer timer).2 = true ∧
      api.period (api.rtosReloadTimer timer).2 = api.period timer
  changePeriod : ∀ timer ms, api.hasHandle timer = true →
    (api.rtosChangePeriod timer ms).1 = true →
      api.hasHandle (api.rtosChangePeriod timer ms).2 = true ∧
        api.period (api.rtosChangePeriod timer ms).2 = ms
  deinit : ∀ timer, api.hasHandle timer = true → (api.rtosDeinitTimer timer).1 = true →
    api.isRunning (api.rtosDeinitTimer timer).2 = false

/-- The calls succeed on timers that exist, and timers can be created. -/
structure Succeeds : Prop where
  init : ∀ timer ms, (api.rtosInitTimer timer ms).1 = true
  start : ∀ timer, api.hasHandle timer = true → (api.rtosStartTimer timer).1 = true
  stop : ∀ timer, api.hasHandle timer = true → (api.rtosStopTimer timer).1 = true
  reload : ∀ timer, api.hasHandle timer = true → (api.rtosReloadTimer timer).1 = true
  changePeriod : ∀ timer ms, api.hasHandle timer = true →
    (api.rtosChangePeriod timer ms).1 = true
  deinit : ∀ timer, api.hasHandle timer = true → (api.rtosDeinitTimer timer).1 = true

end TimerApi

end Core

end YangIpc
