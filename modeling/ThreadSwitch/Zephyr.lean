import Mathlib.Data.Option.Basic

/-!
# The Zephyr services the firmware rests on

A `k_work_delayable` is its pending deadline in milliseconds of uptime, or
nothing when it is not pending; its handler runs when the deadline expires.
`k_work_reschedule` replaces a pending deadline, `k_work_schedule` keeps it.
`Work` is a delayable work whose handler blocks: what happens to it during a run is
kept apart from the run. A `k_timer` that runs has a next expiry, and a period unless
it is one-shot. A GPIO is the mode it was last configured in.
Error numbers are those of `errno.h`.
-/

namespace ThreadSwitch.Zephyr

/-- A delayable work: its deadline while it is pending. -/
abbrev Delayable := Option Nat

/-- `k_work_reschedule(work, K_MSEC(delay))` at `uptime`. -/
def kWorkReschedule (uptime delay : Nat) : Delayable := some (uptime + delay)

/-- `k_work_schedule(work, K_MSEC(delay))` at `uptime`. -/
def kWorkSchedule (uptime delay : Nat) (work : Delayable) : Delayable :=
  match work with
  | some deadline => some deadline
  | none => some (uptime + delay)

/-- Where the handler of a work is: in a run, which may have `K_WORK_CANCELING` set, or in none. -/
inductive WorkRun where
  | idle
  | running
  | canceling
  deriving DecidableEq, Repr

/-- A delayable work whose handler blocks. -/
structure Work where
  /-- The deadline of the timeout, if `K_WORK_DELAYED` is set. -/
  delayed : Delayable
  /-- `K_WORK_QUEUED`. -/
  queued : Bool
  run : WorkRun
  /-- While a run is canceled nothing is submitted. -/
  refused : run = .canceling → queued = false
  deriving DecidableEq, Repr

namespace Work

/-- `K_WORK_DELAYABLE_DEFINE`. -/
def defined : Work := ⟨none, false, .idle, nofun⟩

/-- `k_work_reschedule_for_queue(queue, work, K_MSEC(delay))` at `uptime`. -/
def rescheduleForQueue (uptime delay : Nat) (work : Work) : Work :=
  { work with delayed := kWorkReschedule uptime delay }

/-- `k_work_cancel_delayable(work)`: a run goes on, canceled. -/
def cancelDelayable (work : Work) : Work where
  delayed := none
  queued := false
  run := if work.run = .idle then .idle else .canceling
  refused _ := rfl

/-- `work_timeout`: the work is submitted. While a run is canceled the submission fails with
`-EBUSY`, and the work is abandoned. -/
def timeout (work : Work) : Work :=
  if h : work.run = .canceling then { work with delayed := none }
  else { work with delayed := none, queued := true, refused := fun hc => absurd hc h }

/-- The queue takes the work and runs its handler. -/
def start (work : Work) : Work := { work with queued := false, run := .running, refused := nofun }

/-- The handler returns, and `K_WORK_CANCELING` is cleared. -/
def finish (work : Work) : Work := { work with run := .idle, refused := nofun }

/-- The work is scheduled or submitted. -/
def Pending (work : Work) : Prop := work.delayed ≠ none ∨ work.queued = true

instance (work : Work) : Decidable work.Pending :=
  inferInstanceAs (Decidable (work.delayed ≠ none ∨ work.queued = true))

end Work

/-- A timer that runs: its next expiry, and its period or 0. -/
structure Countdown where
  expires : Nat
  period : Nat
  deriving DecidableEq, Repr

/-- A `k_timer`, stopped or running. -/
abbrev KTimer := Option Countdown

/-- `k_timer_start(timer, K_MSEC(duration), K_MSEC(period))` at `uptime`; a period of 0
is `K_NO_WAIT`. -/
def kTimerStart (uptime duration period : Nat) : KTimer := some ⟨uptime + duration, period⟩

/-- `k_timer_stop(timer)`. -/
def kTimerStop : KTimer := none

/-- What an expiry makes of the timer. -/
def Countdown.expire (c : Countdown) : KTimer :=
  if c.period = 0 then none else some { c with expires := c.expires + c.period }

def eagain : Int := 11

def enomem : Int := 12

def efault : Int := 14

def einval : Int := 22

def enotconn : Int := 128

/-- Configurations of a pin: `GPIO_INPUT` is Hi-Z. -/
inductive PinMode where
  | input
  | outputLow
  deriving DecidableEq, Repr

@[simp] theorem kWorkReschedule_ne_none (uptime delay : Nat) :
    kWorkReschedule uptime delay ≠ none := by
  simp [kWorkReschedule]

namespace Work

variable (work : Work) (uptime delay : Nat)

@[simp] theorem rescheduleForQueue_delayed :
    (work.rescheduleForQueue uptime delay).delayed = some (uptime + delay) := rfl

@[simp] theorem rescheduleForQueue_queued :
    (work.rescheduleForQueue uptime delay).queued = work.queued := rfl

@[simp] theorem rescheduleForQueue_run :
    (work.rescheduleForQueue uptime delay).run = work.run := rfl

@[simp] theorem cancelDelayable_delayed : work.cancelDelayable.delayed = none := rfl

@[simp] theorem cancelDelayable_queued : work.cancelDelayable.queued = false := rfl

@[simp] theorem cancelDelayable_run_idle : work.cancelDelayable.run = .idle ↔ work.run = .idle := by
  unfold cancelDelayable
  by_cases h : work.run = .idle <;> simp [h]

@[simp] theorem timeout_delayed : work.timeout.delayed = none := by
  unfold timeout
  split <;> rfl

@[simp] theorem timeout_queued : work.timeout.queued = !decide (work.run = .canceling) := by
  unfold timeout
  split
  · rename_i h
    simp [h, work.refused h]
  · rename_i h
    simp [h]

@[simp] theorem timeout_run : work.timeout.run = work.run := by
  unfold timeout
  split <;> rfl

@[simp] theorem start_delayed : work.start.delayed = work.delayed := rfl

@[simp] theorem start_queued : work.start.queued = false := rfl

@[simp] theorem start_run : work.start.run = .running := rfl

@[simp] theorem finish_delayed : work.finish.delayed = work.delayed := rfl

@[simp] theorem finish_queued : work.finish.queued = work.queued := rfl

@[simp] theorem finish_run : work.finish.run = .idle := rfl

theorem rescheduleForQueue_pending : (work.rescheduleForQueue uptime delay).Pending := .inl nofun

/-- The timeout leaves the work submitted, except in a run that is canceled. -/
theorem timeout_pending_iff : work.timeout.Pending ↔ work.run ≠ .canceling := by
  simp [Pending]

end Work

theorem PinMode.ne_outputLow {m : PinMode} : m ≠ .outputLow ↔ m = .input := by
  cases m <;> simp

end ThreadSwitch.Zephyr
