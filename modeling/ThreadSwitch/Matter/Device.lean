import ThreadSwitch.Heater.Serial
import ThreadSwitch.Heater.Vote

/-!
# The device: the heater task under Matter

The Matter side adds the OnOff attribute and the FIFO queue of lambdas that the
sensing poll and the button handler schedule on the Matter thread. Every write
that changes the attribute calls `MatterPostAttributeChangeCallback` at once.
The functions return, next to the new device, the events they cause at the
heater task, so a run of the device drives a run of the task
(`device_drives_task`).
-/

namespace ThreadSwitch.Matter

open ThreadSwitch.Zephyr ThreadSwitch.Lib ThreadSwitch.Heater

/-- A lambda queued with `SystemLayer().ScheduleLambda`. -/
inductive Lambda where
  /-- Queued by `SensingPollHandler`, with the vote it captured. -/
  | sync (votedIsOn : Bool)
  /-- Queued by `ButtonEventHandler`. -/
  | button
  deriving DecidableEq, Repr

structure Device where
  task : AppTask
  /-- The OnOff attribute of `kLightEndpointId`. -/
  onOff : Bool
  /-- Queued lambdas, oldest first. -/
  lambdas : List Lambda
  deriving DecidableEq, Repr

structure ConcreteAttributePath where
  mEndpointId : Nat
  mClusterId : Nat
  mAttributeId : Nat

def kLightEndpointId : Nat := 1

/-- `OnOff::Id`. -/
def onOffClusterId : Nat := 6

/-- `OnOff::Attributes::OnOff::Id`. -/
def onOffAttributeId : Nat := 0

def onOffPath : ConcreteAttributePath := ⟨kLightEndpointId, onOffClusterId, onOffAttributeId⟩

namespace Device

def initiateAction (actionOn : Bool) (d : Device) : Device × List TaskEvent :=
  ({ d with task := d.task.initiateAction actionOn }, [.initiateAction actionOn])

def matterPostAttributeChangeCallback (attributePath : ConcreteAttributePath) (value : BitVec 8)
    (d : Device) : Device × List TaskEvent :=
  if attributePath.mClusterId = onOffClusterId ∧ attributePath.mAttributeId = onOffAttributeId then
    let targetState := value != 0#8
    let sensedState := d.task.mVotedIsOn
    if targetState != sensedState then d.initiateAction targetState else (d, [])
  else (d, [])

/-- A write of the OnOff attribute; the callback is called when it changes. -/
def setOnOff (value : Bool) (d : Device) : Device × List TaskEvent :=
  if d.onOff = value then (d, [])
  else
    { d with onOff := value }.matterPostAttributeChangeCallback onOffPath
      (if value then 1#8 else 0#8)

/-- The lambda of `SensingPollHandler`. -/
def syncLambda (votedIsOn : Bool) (d : Device) : Device × List TaskEvent :=
  let currentState := d.onOff
  if currentState != votedIsOn then d.setOnOff votedIsOn else (d, [])

/-- The lambda of `ButtonEventHandler`. -/
def buttonLambda (d : Device) : Device × List TaskEvent :=
  let currentState := d.onOff
  d.initiateAction (!currentState)

/-- `DK_BTN2_MSK`. -/
def dkBtn2Msk : BitVec 32 := 2#32

def buttonEventHandler (state hasChanged : BitVec 32) (d : Device) : Device :=
  if (dkBtn2Msk &&& hasChanged) &&& state ≠ 0#32 then
    { d with lambdas := d.lambdas ++ [.button] }
  else d

def runLambda (d : Device) : Lambda → Device × List TaskEvent
  | .sync votedIsOn => d.syncLambda votedIsOn
  | .button => d.buttonLambda

end Device

inductive DeviceEvent where
  /-- A work expires or time passes. -/
  | work (e : TaskEvent)
  /-- A remote write of the OnOff attribute. -/
  | remote (value : Bool)
  /-- The board reports its buttons. -/
  | buttons (state hasChanged : BitVec 32)
  /-- The Matter thread runs the oldest queued lambda. -/
  | runLambda
  deriving DecidableEq, Repr

/-- The lambda a poll schedules. -/
def scheduled (t : AppTask) : TaskEvent → List Lambda
  | .sensingPoll read =>
    (AppTask.sensingPollHandler read { t with mSenseWork := none }).2.toList.map .sync
  | _ => []

def device : Machine Device DeviceEvent TaskEvent where
  step d
    | .work e =>
      -- `InitiateAction` has no caller but the callback and the lambdas
      if targets [e] = [] then
        (d.task.next e).map fun t =>
          ({ d with task := t, lambdas := d.lambdas ++ scheduled d.task e }, [e])
      else none
    | .remote value => some (d.setOnOff value)
    | .buttons state hasChanged => some (d.buttonEventHandler state hasChanged, [])
    | .runLambda =>
      match d.lambdas with
      | lambda :: rest => some ({ d with lambdas := rest }.runLambda lambda)
      | [] => none

/-- The device when `Init` has run: any attribute value, no lambda queued. -/
def DeviceBooted (d : Device) : Prop := Booted d.task ∧ d.lambdas = []

/-! ## What a step does -/

section steps
variable {d d' : Device} {o : List TaskEvent}

/-- A write of the attribute: nothing, a silent change, or a change that calls
`InitiateAction` because the vote differs. -/
theorem setOnOff_eq (value : Bool) (d : Device) :
    d.setOnOff value =
      if d.onOff = value then (d, [])
      else if value = d.task.mVotedIsOn then ({ d with onOff := value }, [])
      else ({ d with onOff := value, task := d.task.initiateAction value },
        [.initiateAction value]) := by
  unfold Device.setOnOff Device.matterPostAttributeChangeCallback Device.initiateAction
  by_cases h : d.onOff = value
  · simp [h]
  · cases value <;> cases d.task.mVotedIsOn <;> simp [h, onOffPath]

@[simp] theorem setOnOff_onOff (value : Bool) (d : Device) : (d.setOnOff value).1.onOff = value := by
  rw [setOnOff_eq]
  by_cases h : d.onOff = value
  · rw [if_pos h]; exact h
  · rw [if_neg h]; split <;> rfl

@[simp] theorem setOnOff_lambdas (value : Bool) (d : Device) :
    (d.setOnOff value).1.lambdas = d.lambdas := by
  rw [setOnOff_eq]
  split
  · rfl
  · split <;> rfl

/-- A write calls `InitiateAction` only if it changes the attribute against the vote. -/
theorem targets_setOnOff (value : Bool) (d : Device) :
    targets (d.setOnOff value).2 =
      if value = d.onOff ∨ value = d.task.mVotedIsOn then [] else [value] := by
  rw [setOnOff_eq]
  by_cases h : d.onOff = value
  · rw [if_pos h, if_pos (.inl h.symm)]; rfl
  · by_cases hv : value = d.task.mVotedIsOn
    · rw [if_neg h, if_pos hv, if_pos (.inr hv)]; rfl
    · rw [if_neg h, if_neg hv, if_neg (not_or.mpr ⟨Ne.symm h, hv⟩)]; rfl

theorem setOnOff_pulsing (value : Bool) (d : Device) :
    (d.setOnOff value).1.task.mIsPulsing = true ↔
      d.task.mIsPulsing = true ∨ (value ≠ d.onOff ∧ value ≠ d.task.mVotedIsOn) := by
  rw [setOnOff_eq]
  by_cases h : d.onOff = value
  · simp [h]
  · by_cases hv : value = d.task.mVotedIsOn
    · rw [if_neg h, if_pos hv]; simp [hv]
    · rw [if_neg h, if_neg hv]; simp [Ne.symm h, hv, AppTask.initiateAction]

/-- The sync lambda is a write of the attribute: the test it makes first is the
one the write makes. -/
theorem syncLambda_eq (v : Bool) (d : Device) : d.syncLambda v = d.setOnOff v := by
  unfold Device.syncLambda
  by_cases h : d.onOff = v
  · simp [h, Device.setOnOff]
  · simp [h]

theorem step_work {e : TaskEvent} (h : device.step d (.work e) = some (d', o)) :
    targets [e] = [] ∧ d.task.next e = some d'.task ∧ d'.onOff = d.onOff ∧
      d'.lambdas = d.lambdas ++ scheduled d.task e ∧ o = [e] := by
  simp only [device] at h
  split at h
  · rename_i he
    obtain ⟨t, ht, hd⟩ := Option.map_eq_some_iff.mp h
    cases hd
    exact ⟨he, ht, rfl, rfl, rfl⟩
  · cases h

theorem step_buttons {state hasChanged : BitVec 32}
    (h : device.step d (.buttons state hasChanged) = some (d', o)) :
    d'.task = d.task ∧ d'.onOff = d.onOff ∧ (∀ v, .sync v ∈ d'.lambdas ↔ .sync v ∈ d.lambdas) ∧
      o = [] := by
  simp only [device, Device.buttonEventHandler] at h
  split at h
  · cases h; exact ⟨rfl, rfl, by simp, rfl⟩
  · cases h; exact ⟨rfl, rfl, fun v => Iff.rfl, rfl⟩

theorem step_sync {v : Bool} {rest : List Lambda} (hl : d.lambdas = .sync v :: rest) :
    device.step d .runLambda = some ({ d with lambdas := rest }.setOnOff v) := by
  simp only [device, hl, Device.runLambda, syncLambda_eq]

theorem step_button {rest : List Lambda} (hl : d.lambdas = .button :: rest) :
    device.step d .runLambda =
      some ({ d with lambdas := rest, task := d.task.initiateAction (!d.onOff) },
        [.initiateAction (!d.onOff)]) := by
  simp only [device, hl, Device.runLambda, Device.buttonLambda, Device.initiateAction]

/-- What running the oldest lambda can be. -/
theorem step_runLambda (h : device.step d .runLambda = some (d', o)) :
    (∃ v rest, d.lambdas = .sync v :: rest ∧ { d with lambdas := rest }.setOnOff v = (d', o)) ∨
      ∃ rest, d.lambdas = .button :: rest ∧
        d' = { d with lambdas := rest, task := d.task.initiateAction (!d.onOff) } ∧
          o = [.initiateAction (!d.onOff)] := by
  cases hl : d.lambdas with
  | nil => simp only [device, hl] at h; cases h
  | cons lambda rest =>
    cases lambda with
    | sync v => exact .inl ⟨v, rest, rfl, Option.some.inj ((step_sync hl).symm.trans h)⟩
    | button =>
      rw [step_button hl] at h
      cases h
      exact .inr ⟨rest, rfl, rfl, rfl⟩

/-- A poll schedules its own vote, and only while no action is running. -/
theorem mem_scheduled {t u : AppTask} {e : TaskEvent} {v : Bool} (h : t.next e = some u)
    (hv : .sync v ∈ scheduled t e) : v = u.mVotedIsOn ∧ t.mIsPulsing = false := by
  cases e with
  | sensingPoll read =>
    obtain ⟨-, rfl⟩ := next_sensingPoll.mp h
    unfold scheduled AppTask.sensingPollHandler at hv
    unfold AppTask.sensingPollHandler
    cases hr : read.ready
    · simp [hr] at hv
    · cases hp : t.mIsPulsing
      · simpa [hr, hp] using hv
      · simp [hr, hp] at hv
  | _ => cases hv

/-- Where a queued sync comes from: it was queued before, or this step polled. -/
theorem queued_of_step {e : DeviceEvent} {v : Bool} (h : device.step d e = some (d', o))
    (hv : .sync v ∈ d'.lambdas) :
    .sync v ∈ d.lambdas ∨ (v = d'.task.mVotedIsOn ∧ d.task.mIsPulsing = false) := by
  cases e with
  | work e =>
    obtain ⟨-, ht, -, hl, -⟩ := step_work h
    rw [hl, List.mem_append] at hv
    exact hv.imp id (mem_scheduled ht)
  | remote value =>
    have hl := setOnOff_lambdas value d
    rw [Option.some.inj h] at hl
    exact .inl (hl ▸ hv)
  | buttons state hasChanged =>
    obtain ⟨-, -, hl, -⟩ := step_buttons h
    exact .inl ((hl v).mp hv)
  | runLambda =>
    rcases step_runLambda h with ⟨w, rest, hl, hs⟩ | ⟨rest, hl, rfl, -⟩
    · have hr : d'.lambdas = rest := by
        simpa [hs] using setOnOff_lambdas w { d with lambdas := rest }
      rw [hl]
      exact .inl (List.mem_cons_of_mem _ (hr ▸ hv))
    · rw [hl]
      exact .inl (List.mem_cons_of_mem _ hv)

end steps

/-! ## The device drives the task -/

theorem setOnOff_drives (value : Bool) (d : Device) :
    ∃ x, task.run d.task (d.setOnOff value).2 = some ((d.setOnOff value).1.task, x) := by
  rw [setOnOff_eq]
  split
  · exact ⟨[], rfl⟩
  · split
    · exact ⟨[], rfl⟩
    · exact ⟨_, rfl⟩

theorem device_drives_task : Machine.Drives device task Device.task := by
  intro d e d' o h
  cases e with
  | work e =>
    obtain ⟨-, ht, -, -, rfl⟩ := step_work h
    exact ⟨pinChanges d.task d'.task, by rw [Machine.run_single]; exact step_iff.mpr ⟨ht, rfl⟩⟩
  | remote value =>
    have hd := setOnOff_drives value d
    rwa [Option.some.inj h] at hd
  | buttons state hasChanged =>
    obtain ⟨ht, -, -, rfl⟩ := step_buttons h
    exact ⟨[], by rw [ht]; rfl⟩
  | runLambda =>
    rcases step_runLambda h with ⟨v, rest, -, hs⟩ | ⟨rest, -, rfl, rfl⟩
    · have hd := setOnOff_drives v { d with lambdas := rest }
      rwa [hs] at hd
    · exact ⟨_, rfl⟩

/-- **Non-overlapping use refines serial button presses.** When every call of
`InitiateAction` in a run of the device finds `mIsPulsing` false, the pins change
as the calls' scripts say, in call order and the last one possibly cut short,
and `mIsPulsing` is true exactly while part of the last one is still to come. -/
theorem device_presses_serially {d₀ d : Device} {es : List DeviceEvent} {calls : List TaskEvent}
    (hb : DeviceBooted d₀) (h : device.run d₀ es = some (d, calls))
    (hone : task.Along OneAtATime d₀.task calls) :
    ∃ changes todo, task.run d₀.task calls = some (d.task, changes) ∧
      changes ++ todo = (targets calls).flatMap presses ∧
      todo <:+ (lastTarget calls).elim [] presses ∧ (d.task.mIsPulsing = true ↔ todo ≠ []) := by
  obtain ⟨changes, hrun⟩ := device_drives_task.run h
  obtain ⟨todo, hall, hlast, hflag⟩ := run_presses hb.1 hone hrun
  exact ⟨changes, todo, hrun, hall, hlast, hflag⟩

/-- A remote ON and then an OFF from the button, cut short while its standby pin is LOW. -/
def offCutShort : List DeviceEvent :=
  [.work (.sensingPoll ⟨true, 0⟩), .runLambda, .remote true, .work .controlPulse, .buttons 2 2,
    .runLambda, .work .controlPulse, .work .standbyPulse]

theorem offCutShort_presses :
    ∃ d calls changes todo, device.run ⟨bootedAt 0, false, []⟩ offCutShort = some (d, calls) ∧
      task.run (bootedAt 0) calls = some (d.task, changes) ∧
        changes ++ todo = (targets calls).flatMap presses := by
  obtain ⟨d, calls, hrun, hone⟩ : ∃ d calls, device.run ⟨bootedAt 0, false, []⟩ offCutShort =
      some (d, calls) ∧ task.Along OneAtATime (bootedAt 0) calls :=
    Machine.run_eval (by decide +kernel)
  obtain ⟨changes, todo, htask, hall, -⟩ :=
    device_presses_serially ⟨bootedAt_booted 0, rfl⟩ hrun hone
  exact ⟨d, calls, changes, todo, hrun, htask, hall⟩

end ThreadSwitch.Matter
