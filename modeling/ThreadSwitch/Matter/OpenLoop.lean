import ThreadSwitch.Heater.Sensing
import ThreadSwitch.Matter.Device

/-!
# Without sensing

After a poll that finds the port not ready nothing is sensed any more, and the vote is just
what was commanded last. What is left of the device is a controller of two bits (`openLoop`):

- `unready_poll_opens_loop`: from such a poll on the calls, the attribute and the vote are
  those of this controller, whatever the works do.
- `presses_repeat`: nothing moves the attribute then but remote writes, so between two of them
  every press of the button commands the same.
-/

namespace ThreadSwitch.Matter

open ThreadSwitch.Zephyr ThreadSwitch.Lib ThreadSwitch.Heater

/-! ## The controller -/

/-- The attribute and what was commanded last. -/
structure OpenLoop where
  onOff : Bool
  commanded : Bool
  deriving DecidableEq, Repr

inductive Command where
  | write (value : Bool)
  | press
  deriving DecidableEq, Repr

/-- The outputs are the commands to the heater. -/
def openLoop : Machine OpenLoop Command Bool where
  step c
    | .write value =>
      if c.onOff = value then some (c, [])
      else if value = c.commanded then some ({ c with onOff := value }, [])
      else some (⟨value, value⟩, [value])
    | .press => some ({ c with commanded := !c.onOff }, [!c.onOff])

/-- While nothing is written, the attribute stays and every command is against it. -/
theorem openLoop_presses {c c' : OpenLoop} {cs : List Command} {os : List Bool}
    (hw : ∀ value, .write value ∉ cs) (h : openLoop.run c cs = some (c', os)) :
    c'.onOff = c.onOff ∧ ∀ a ∈ os, a = !c.onOff := by
  refine Machine.run_induct (motive := fun cs os c' => (∀ value, .write value ∉ cs) →
    c'.onOff = c.onOff ∧ ∀ a ∈ os, a = !c.onOff) (fun _ => ⟨rfl, by simp⟩) ?_ h hw
  intro cs os c₁ e o c₂ _ ih hs hw
  obtain ⟨hon, hall⟩ := ih fun value hmem => hw value (List.mem_append_left _ hmem)
  cases e with
  | write value => exact absurd (List.mem_append_right _ (List.mem_singleton_self _)) (hw value)
  | press =>
    cases hs
    refine ⟨hon, fun a ha => ?_⟩
    rcases List.mem_append.mp ha with ha | ha
    · exact hall a ha
    · rw [List.mem_singleton.mp ha, hon]

/-! ## The device as the controller -/

def Device.loop (d : Device) : OpenLoop := ⟨d.onOff, d.task.mVotedIsOn⟩

/-- What the oldest lambda commands. One that was queued when nothing was sensed any more is
the button's. -/
def lambdaCommand : Option Lambda → Command
  | some (.sync v) => .write v
  | _ => .press

/-- The commands of a run that starts with `lambdas` queued. -/
def commands : List Lambda → List DeviceEvent → List Command
  | _, [] => []
  | lambdas, .remote value :: es => .write value :: commands lambdas es
  | lambdas, .runLambda :: es => lambdaCommand lambdas.head? :: commands lambdas.tail es
  | lambdas, _ :: es => commands lambdas es

theorem commands_button (lambdas : List Lambda) (es : List DeviceEvent) :
    commands (lambdas ++ [.button]) es = commands lambdas es := by
  induction es generalizing lambdas with
  | nil => rfl
  | cons e es ih =>
    cases e with
    | runLambda =>
      cases lambdas with
      | nil => rfl
      | cons lambda rest => exact congrArg (_ :: ·) (ih rest)
    | remote value => exact congrArg (_ :: ·) (ih lambdas)
    | work e => exact ih lambdas
    | buttons state hasChanged => exact ih lambdas

section steps
variable {d d' : Device} {o : List TaskEvent}

theorem openLoop_write (value : Bool) (d : Device) :
    openLoop.step d.loop (.write value) =
      some ((d.setOnOff value).1.loop, targets (d.setOnOff value).2) := by
  rw [setOnOff_eq]
  show (if d.onOff = value then _ else if value = d.task.mVotedIsOn then _ else _) = _
  split
  · rfl
  · split
    · rfl
    · rfl

/-- A write polls nothing and schedules no poll. -/
theorem setOnOff_polls (value : Bool) (d : Device) :
    (d.setOnOff value).1.task.mSenseWork = d.task.mSenseWork ∧ polls (d.setOnOff value).2 = 0 := by
  rw [setOnOff_eq]
  split
  · exact ⟨rfl, rfl⟩
  · split <;> exact ⟨rfl, rfl⟩

/-- The command of a step, and what it leaves queued. -/
theorem openLoop_next {e : DeviceEvent} (hs : d.task.mSenseWork = none)
    (h : device.step d e = some (d', o)) :
    ∃ cs, (∀ es, commands d.lambdas (e :: es) = cs ++ commands d'.lambdas es) ∧
      openLoop.run d.loop cs = some (d'.loop, targets o) ∧ d'.task.mSenseWork = none ∧
        polls o = 0 := by
  cases e with
  | work e =>
    obtain ⟨he, ht, hon, hl, rfl⟩ := step_work h
    obtain ⟨hpoll, hnone, hvote⟩ := unpolled_next hs he ht
    have hscheduled : scheduled d.task e = [] := by
      cases e with
      | sensingPoll read => cases hpoll
      | _ => rfl
    rw [hscheduled, List.append_nil] at hl
    refine ⟨[], fun es => by rw [hl]; rfl, ?_, hnone, ?_⟩
    · rw [he, Device.loop, Device.loop, hon, hvote]
      rfl
    · rw [polls, List.countP_singleton, hpoll]
      rfl
  | remote value =>
    obtain ⟨hnone, hpolls⟩ := setOnOff_polls value d
    have hl := setOnOff_lambdas value d
    have hloop := openLoop_write value d
    rw [Option.some.inj h] at hnone hpolls hl hloop
    refine ⟨[.write value], fun es => ?_, Machine.run_single.trans hloop, hnone.trans hs, hpolls⟩
    rw [hl]
    rfl
  | buttons state hasChanged =>
    simp only [device, Device.buttonEventHandler] at h
    split at h
    · cases h
      exact ⟨[], fun es => (commands_button d.lambdas es).symm, rfl, hs, rfl⟩
    · cases h
      exact ⟨[], fun es => rfl, rfl, hs, rfl⟩
  | runLambda =>
    rcases step_runLambda h with ⟨v, rest, hl, hset⟩ | ⟨rest, hl, rfl, rfl⟩
    · obtain ⟨hnone, hpolls⟩ := setOnOff_polls v { d with lambdas := rest }
      have hrest := setOnOff_lambdas v { d with lambdas := rest }
      have hloop := openLoop_write v { d with lambdas := rest }
      rw [hset] at hnone hpolls hrest hloop
      refine ⟨[.write v], fun es => ?_, Machine.run_single.trans hloop, hnone.trans hs, hpolls⟩
      rw [hl, hrest]
      rfl
    · exact ⟨[.press], fun es => by rw [hl]; rfl, rfl, hs, rfl⟩

end steps

theorem run_openLoop {d u : Device} {fs : List DeviceEvent} {os : List TaskEvent}
    (hs : d.task.mSenseWork = none) (h : device.run d fs = some (u, os)) :
    openLoop.run d.loop (commands d.lambdas fs) = some (u.loop, targets os) ∧ polls os = 0 := by
  induction fs generalizing d os with
  | nil => cases h; exact ⟨rfl, rfl⟩
  | cons e fs ih =>
    obtain ⟨d', o, os, hstep, hrest, rfl⟩ := Machine.run_cons_iff.mp h
    obtain ⟨cs, hcs, hrun, hs', hpolls⟩ := openLoop_next hs hstep
    obtain ⟨hrun', hpolls'⟩ := ih hs' hrest
    rw [hcs, targets_append, polls, List.countP_append, ← polls, ← polls, hpolls, hpolls']
    exact ⟨Machine.run_append_iff.mpr ⟨_, _, _, hrun, hrun', rfl⟩, rfl⟩

section unready
variable {d d₁ u : Device} {read : SenseRead} {fs : List DeviceEvent} {o os : List TaskEvent}

/-- **A poll that finds the port not ready opens the loop for good**: no poll comes after it,
and from then on the calls, the attribute and the vote are those of a controller that senses
nothing. Lambdas still queued by earlier polls count as writes. -/
theorem unready_poll_opens_loop (hr : read.ready = false)
    (hpoll : device.step d (.work (.sensingPoll read)) = some (d₁, o))
    (hf : device.run d₁ fs = some (u, os)) :
    openLoop.run d₁.loop (commands d₁.lambdas fs) = some (u.loop, targets os) ∧ polls os = 0 := by
  obtain ⟨-, ht, -⟩ := step_work hpoll
  exact run_openLoop (unready_poll hr ht) hf

theorem commands_unwritten {lambdas : List Lambda} (hq : ∀ v, .sync v ∉ lambdas)
    (hw : ∀ value, .remote value ∉ fs) (value : Bool) : .write value ∉ commands lambdas fs := by
  induction fs generalizing lambdas with
  | nil => exact List.not_mem_nil
  | cons e fs ih =>
    have hw' : ∀ value, .remote value ∉ fs := fun v hv => hw v (List.mem_cons_of_mem _ hv)
    cases e with
    | remote v => exact absurd List.mem_cons_self (hw v)
    | work e => exact ih hq hw'
    | buttons state hasChanged => exact ih hq hw'
    | runLambda =>
      refine List.not_mem_cons_of_ne_of_not_mem ?_ (ih (fun v hv => hq v (List.mem_of_mem_tail hv)) hw')
      cases lambdas with
      | nil => simp [lambdaCommand]
      | cons lambda rest =>
        cases lambda with
        | sync v => exact absurd List.mem_cons_self (hq v)
        | button => simp [lambdaCommand]

/-- The first poll finds the port not ready. -/
def neverReady : Device := ⟨{ bootedAt 0 with mSenseWork := none }, false, []⟩

theorem neverReady_polled :
    device.step ⟨bootedAt 0, false, []⟩ (.work (.sensingPoll ⟨false, 0⟩)) =
      some (neverReady, [.sensingPoll ⟨false, 0⟩]) := rfl

/-- A press commands ON, a remote ON finds it commanded, and the next press commands OFF. -/
def pressWritePress : List DeviceEvent :=
  [.buttons 2 2, .runLambda, .work .controlPulse, .remote true, .buttons 2 2, .runLambda]

theorem neverReady_open_loop :
    ∃ u os, device.run neverReady pressWritePress = some (u, os) ∧
      openLoop.run ⟨false, false⟩ [.press, .write true, .press] = some (u.loop, targets os) := by
  obtain ⟨u, os, hrun, -⟩ : ∃ u os, device.run neverReady pressWritePress = some (u, os) ∧ True :=
    Machine.run_eval (by decide +kernel)
  exact ⟨u, os, hrun, (unready_poll_opens_loop rfl neverReady_polled hrun).1⟩

/-- **With the loop open the button commands one way only**: while nothing is written from
remote, the attribute stays as it is and every press commands its opposite. -/
theorem presses_repeat (hr : read.ready = false)
    (hpoll : device.step d (.work (.sensingPoll read)) = some (d₁, o))
    (hq : ∀ v, .sync v ∉ d₁.lambdas) (hw : ∀ value, .remote value ∉ fs)
    (hf : device.run d₁ fs = some (u, os)) :
    u.onOff = d₁.onOff ∧ ∀ a ∈ targets os, a = !d₁.onOff := by
  obtain ⟨-, ht, -⟩ := step_work hpoll
  exact openLoop_presses (commands_unwritten hq hw) (run_openLoop (unready_poll hr ht) hf).1

/-- Two presses with the action between them. -/
def twoOns : List DeviceEvent :=
  [.buttons 2 2, .runLambda, .work .controlPulse, .buttons 2 2, .runLambda, .work .controlPulse]

theorem neverReady_presses :
    ∃ u os, device.run neverReady twoOns = some (u, os) ∧ targets os = [true, true] ∧
      ∀ a ∈ targets os, a = true := by
  obtain ⟨u, os, hrun, htwo⟩ : ∃ u os, device.run neverReady twoOns = some (u, os) ∧
      targets os = [true, true] := Machine.run_eval (by decide +kernel)
  exact ⟨u, os, hrun, htwo, (presses_repeat rfl neverReady_polled (by decide) (by decide) hrun).2⟩

end unready

end ThreadSwitch.Matter
