import ThreadSwitch.Zephyr
import ThreadSwitch.Lib.Machine

/-!
# The light switch

The previous application, `src_old`: its button toggles the bound light, or dims it
while it is held. A release of the button and the expiries of the two timers only post
tasks. The task thread runs them in the order they were posted, as late as it likes.
`switch` is the application as a machine; `Timely` singles out the runs in which
every timer expires at its time.
-/

namespace ThreadSwitch.LightSwitch

open ThreadSwitch.Zephyr ThreadSwitch.Lib

/-- `AppTask::Timer`. -/
inductive Timer where
  | dimmerTrigger
  | dimmer
  deriving DecidableEq, Repr

/-- A task posted with `Nrf::PostTask`. -/
inductive PostedTask where
  | dimmerTriggerEventHandler
  | timerEventHandler (timerType : Timer)
  deriving DecidableEq, Repr

/-- `LightSwitch::Action`. -/
inductive Action where
  | toggle
  | on
  | off
  deriving DecidableEq, Repr

/-- A call to the `LightSwitch`. -/
inductive SwitchCall where
  | initiateActionSwitch (action : Action)
  | dimmerChangeBrightness
  deriving DecidableEq, Repr

structure AppTask where
  uptime : Nat
  sDimmerPressKeyTimer : KTimer
  sDimmerTimer : KTimer
  sWasDimmerTriggered : Bool
  /-- The application button is held down. -/
  pressed : Bool
  /-- Posted tasks, oldest first. -/
  tasks : List PostedTask
  deriving DecidableEq, Repr

/-- Milliseconds. -/
def kDimmerTriggeredTimeout : Nat := 500

/-- Milliseconds. -/
def kDimmerInterval : Nat := 300

/-- `APPLICATION_BUTTON_MASK`, `DK_BTN2_MSK`. -/
def applicationButtonMask : BitVec 32 := 2#32

namespace AppTask

def startTimer (timer : Timer) (timeoutMs : Nat) (t : AppTask) : AppTask :=
  match timer with
  | .dimmerTrigger => { t with sDimmerPressKeyTimer := kTimerStart t.uptime timeoutMs 0 }
  | .dimmer => { t with sDimmerTimer := kTimerStart t.uptime timeoutMs timeoutMs }

def cancelTimer (timer : Timer) (t : AppTask) : AppTask :=
  match timer with
  | .dimmerTrigger => { t with sDimmerPressKeyTimer := kTimerStop }
  | .dimmer => { t with sDimmerTimer := kTimerStop }

/-- `Nrf::PostTask`. -/
def postTask (task : PostedTask) (t : AppTask) : AppTask := { t with tasks := t.tasks ++ [task] }

def dimmerTriggerEventHandler (t : AppTask) : AppTask × List SwitchCall :=
  let calls := if !t.sWasDimmerTriggered then [.initiateActionSwitch .toggle] else []
  let t := t.cancelTimer .dimmer
  let t := t.cancelTimer .dimmerTrigger
  ({ t with sWasDimmerTriggered := false }, calls)

def timerEventHandler (timerType : Timer) (t : AppTask) : AppTask × List SwitchCall :=
  match timerType with
  | .dimmerTrigger =>
    let t := { t with sWasDimmerTriggered := true }
    let t := t.startTimer .dimmer kDimmerInterval
    let t := t.cancelTimer .dimmerTrigger
    (t, [.initiateActionSwitch .on])
  | .dimmer => (t, [.dimmerChangeBrightness])

/-- The button of `CONFIG_CHIP_ICD_UAT_SUPPORT` touches nothing here. -/
def buttonEventHandler (state hasChanged : BitVec 32) (t : AppTask) : AppTask :=
  if applicationButtonMask &&& state &&& hasChanged ≠ 0#32 then
    t.startTimer .dimmerTrigger kDimmerTriggeredTimeout
  else if applicationButtonMask &&& hasChanged ≠ 0#32 then t.postTask .dimmerTriggerEventHandler
  else t

/-- The callback of both timers; `timerType` is the one that its argument points to. -/
def userTimerTimeoutCallback (timerType : Timer) (t : AppTask) : AppTask :=
  t.postTask (.timerEventHandler timerType)

def runTask (t : AppTask) : PostedTask → AppTask × List SwitchCall
  | .dimmerTriggerEventHandler => t.dimmerTriggerEventHandler
  | .timerEventHandler timerType => t.timerEventHandler timerType

/-- The state when `Init` has run. -/
def init (uptime : Nat) (pressed : Bool) : AppTask where
  uptime := uptime
  sDimmerPressKeyTimer := none
  sDimmerTimer := none
  sWasDimmerTriggered := false
  pressed := pressed
  tasks := []

end AppTask

/-! ## The application as a machine -/

inductive SwitchEvent where
  /-- The board reports its buttons. -/
  | buttons (state hasChanged : BitVec 32)
  | expires (timer : Timer)
  /-- The task thread runs the oldest posted task. -/
  | runTask
  | elapse (ms : Nat)
  deriving DecidableEq, Repr

/-- The application button is in the mask. -/
def inMask (mask : BitVec 32) : Bool := applicationButtonMask &&& mask != 0#32

/-- The board reports the application button changed when it did; a timer that is
stopped does not expire. -/
def switch : Machine AppTask SwitchEvent SwitchCall where
  step t
    | .buttons state hasChanged =>
      if inMask hasChanged = (inMask state != t.pressed) then
        some ({ t.buttonEventHandler state hasChanged with pressed := inMask state }, [])
      else none
    | .expires .dimmerTrigger =>
      t.sDimmerPressKeyTimer.map fun c =>
        ({ t with sDimmerPressKeyTimer := c.expire }.userTimerTimeoutCallback .dimmerTrigger, [])
    | .expires .dimmer =>
      t.sDimmerTimer.map fun c =>
        ({ t with sDimmerTimer := c.expire }.userTimerTimeoutCallback .dimmer, [])
    | .runTask =>
      match t.tasks with
      | task :: rest => some ({ t with tasks := rest }.runTask task)
      | [] => none
    | .elapse ms => some ({ t with uptime := t.uptime + ms }, [])

/-- Every timer expires at its time: time does not pass it, and an expiry is due now. -/
def Timely (t : AppTask) : SwitchEvent → Prop
  | .buttons _ _ | .runTask => True
  | .expires .dimmerTrigger => ∀ c ∈ t.sDimmerPressKeyTimer, c.expires = t.uptime
  | .expires .dimmer => ∀ c ∈ t.sDimmerTimer, c.expires = t.uptime
  | .elapse ms =>
    ∀ timer ∈ [t.sDimmerPressKeyTimer, t.sDimmerTimer], ∀ c ∈ timer, t.uptime + ms ≤ c.expires

instance (t : AppTask) : ∀ e, Decidable (Timely t e)
  | .buttons _ _ | .runTask => isTrue trivial
  | .expires .dimmerTrigger =>
    inferInstanceAs (Decidable (∀ c ∈ t.sDimmerPressKeyTimer, c.expires = t.uptime))
  | .expires .dimmer => inferInstanceAs (Decidable (∀ c ∈ t.sDimmerTimer, c.expires = t.uptime))
  | .elapse ms => inferInstanceAs (Decidable (∀ timer ∈ [t.sDimmerPressKeyTimer, t.sDimmerTimer],
      ∀ c ∈ timer, t.uptime + ms ≤ c.expires))

/-! ## What a step does -/

theorem applicationButtonMask_and (mask : BitVec 32) :
    applicationButtonMask &&& mask = if mask.getLsbD 1 then applicationButtonMask else 0#32 :=
  BitVec.twoPow_and mask 1

theorem inMask_eq (mask : BitVec 32) : inMask mask = mask.getLsbD 1 := by
  rw [inMask, applicationButtonMask_and]
  cases mask.getLsbD 1 <;> decide

/-- The handler's test for a press. -/
theorem press_iff (state hasChanged : BitVec 32) :
    applicationButtonMask &&& state &&& hasChanged ≠ 0#32 ↔
      inMask state = true ∧ inMask hasChanged = true := by
  rw [BitVec.and_assoc, ← bne_iff_ne, ← inMask, inMask_eq, BitVec.getLsbD_and, inMask_eq, inMask_eq,
    Bool.and_eq_true]

/-- A press starts the first timer, a release posts a task. -/
theorem buttonEventHandler_eq (state hasChanged : BitVec 32) (t : AppTask) :
    t.buttonEventHandler state hasChanged =
      if inMask hasChanged = true then
        if inMask state = true then t.startTimer .dimmerTrigger kDimmerTriggeredTimeout
        else t.postTask .dimmerTriggerEventHandler
      else t := by
  have hchanged : applicationButtonMask &&& hasChanged ≠ 0#32 ↔ inMask hasChanged = true := by
    rw [inMask, bne_iff_ne]
  simp only [AppTask.buttonEventHandler, press_iff, hchanged]
  cases inMask state <;> cases inMask hasChanged <;> rfl

section steps
variable {t u : AppTask} {o : List SwitchCall}

/-- Nothing changes, or the button is pressed and arms the first timer, or it is released
and posts a task. -/
theorem step_buttons {state hasChanged : BitVec 32}
    (h : switch.step t (.buttons state hasChanged) = some (u, o)) :
    o = [] ∧
      ((inMask hasChanged = false ∧ u = t) ∨
        (inMask state = true ∧ t.pressed = false ∧ u = { t with
          pressed := true
          sDimmerPressKeyTimer := kTimerStart t.uptime kDimmerTriggeredTimeout 0 }) ∨
        (inMask state = false ∧ inMask hasChanged = true ∧ u = { t with
          pressed := false
          tasks := t.tasks ++ [.dimmerTriggerEventHandler] })) := by
  simp only [switch] at h
  split at h
  · rename_i hreport
    cases h
    refine ⟨rfl, ?_⟩
    rw [buttonEventHandler_eq]
    cases hc : inMask hasChanged with
    | false =>
      have hsame : inMask state = t.pressed := by simpa [hc] using hreport
      rw [if_neg Bool.false_ne_true, hsame]
      exact .inl ⟨rfl, rfl⟩
    | true =>
      rw [if_pos rfl]
      cases hs : inMask state with
      | false =>
        rw [if_neg Bool.false_ne_true]
        exact .inr (.inr ⟨rfl, rfl, rfl⟩)
      | true =>
        have hup : t.pressed = false := by simpa [hc, hs] using hreport
        rw [if_pos rfl]
        exact .inr (.inl ⟨rfl, hup, rfl⟩)
  · cases h

theorem step_dimmerTrigger (h : switch.step t (.expires .dimmerTrigger) = some (u, o)) :
    o = [] ∧ ∃ c, t.sDimmerPressKeyTimer = some c ∧ u = { t with
      sDimmerPressKeyTimer := c.expire
      tasks := t.tasks ++ [.timerEventHandler .dimmerTrigger] } := by
  obtain ⟨c, hc, hu⟩ := Option.map_eq_some_iff.mp h
  cases hu
  exact ⟨rfl, c, hc, rfl⟩

theorem step_dimmer (h : switch.step t (.expires .dimmer) = some (u, o)) :
    o = [] ∧ ∃ c, t.sDimmerTimer = some c ∧ u = { t with
      sDimmerTimer := c.expire
      tasks := t.tasks ++ [.timerEventHandler .dimmer] } := by
  obtain ⟨c, hc, hu⟩ := Option.map_eq_some_iff.mp h
  cases hu
  exact ⟨rfl, c, hc, rfl⟩

/-- The oldest task ends the dimming, starts it, or takes one step of it. -/
theorem step_runTask (h : switch.step t .runTask = some (u, o)) :
    ∃ task rest, t.tasks = task :: rest ∧
      ((task = .dimmerTriggerEventHandler ∧
          o = (if t.sWasDimmerTriggered = true then [] else [.initiateActionSwitch .toggle]) ∧
          u = { t with
            sDimmerPressKeyTimer := none, sDimmerTimer := none, sWasDimmerTriggered := false
            tasks := rest }) ∨
        (task = .timerEventHandler .dimmerTrigger ∧ o = [.initiateActionSwitch .on] ∧ u = { t with
            sDimmerPressKeyTimer := none, sWasDimmerTriggered := true
            sDimmerTimer := kTimerStart t.uptime kDimmerInterval kDimmerInterval
            tasks := rest }) ∨
        (task = .timerEventHandler .dimmer ∧ o = [.dimmerChangeBrightness] ∧
          u = { t with tasks := rest })) := by
  simp only [switch] at h
  split at h
  · rename_i task rest hq
    refine ⟨task, rest, hq, ?_⟩
    have hs := Option.some.inj h
    rcases task with _ | _ | _
    · cases hs
      exact .inl ⟨rfl, by cases t.sWasDimmerTriggered <;> rfl, rfl⟩
    · cases hs
      exact .inr (.inl ⟨rfl, rfl, rfl⟩)
    · cases hs
      exact .inr (.inr ⟨rfl, rfl, rfl⟩)
  · cases h

end steps

end ThreadSwitch.LightSwitch
