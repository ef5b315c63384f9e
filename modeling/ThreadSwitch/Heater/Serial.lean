import ThreadSwitch.Heater.Step
import ThreadSwitch.Lib.Script

/-!
# One action at a time

The specification of the heater task is sequential: each ON presses the
control button, each OFF presses the control button and then the standby
button, and an action begins when the one before has ended (`serial presses`).
As long as `InitiateAction` is called only while `mIsPulsing` is false, the task
with its three timers and two flags simulates it (`task_simulates_serial`).
-/

namespace ThreadSwitch.Heater

open ThreadSwitch.Zephyr ThreadSwitch.Lib AppTask

/-- The pin changes of an action. -/
def presses (actionOn : Bool) : List PinChange :=
  if actionOn then [⟨.ctrl, .outputLow⟩, ⟨.ctrl, .input⟩]
  else [⟨.ctrl, .outputLow⟩, ⟨.ctrl, .input⟩, ⟨.standby, .outputLow⟩, ⟨.standby, .input⟩]

/-- `InitiateAction` is called only while `mIsPulsing` is false. -/
def OneAtATime (t : AppTask) : TaskEvent → Prop
  | .initiateAction _ => t.mIsPulsing = false
  | _ => True

instance (t : AppTask) : ∀ e, Decidable (OneAtATime t e)
  | .initiateAction _ => inferInstanceAs (Decidable (t.mIsPulsing = false))
  | .sensingPoll _ | .controlPulse | .standbyPulse | .standbyRelease | .elapse _ => isTrue trivial

/-- What each event does in the specification: a call starts its script and
makes the first change at once, the three works make one change each. -/
def serialEvents : TaskEvent → List (SerialEvent Bool)
  | .initiateAction actionOn => [.start actionOn, .emit]
  | .controlPulse | .standbyPulse | .standbyRelease => [.emit]
  | .sensingPoll _ | .elapse _ => []

/-- `Serves t todo`: the task is where `todo` is left of the current action. -/
inductive Serves (t : AppTask) : List PinChange → Prop where
  | idle : t.Quiet → t.mIsPulsing = false → Serves t []
  | pulse : t.mCtrlPinOn = .outputLow → t.mStandbyPin = .input → t.mStandbyWork = none →
      t.mStandbyReleaseWork = none → t.mIsPulsing = true → Serves t (presses (!t.mPendingOff)).tail
  | delay : t.mCtrlPinOn = .input → t.mStandbyPin = .input → t.mPulseWork = none →
      t.mStandbyReleaseWork = none → t.mIsPulsing = true →
      Serves t [⟨.standby, .outputLow⟩, ⟨.standby, .input⟩]
  | standby : t.mCtrlPinOn = .input → t.mStandbyPin = .outputLow → t.mPulseWork = none →
      t.mStandbyWork = none → t.mIsPulsing = true → Serves t [⟨.standby, .input⟩]

/-- The flag stands exactly while something is left to do. -/
theorem Serves.pulsing_iff {t : AppTask} {todo : List PinChange} (h : Serves t todo) :
    t.mIsPulsing = true ↔ todo ≠ [] := by
  cases h with
  | idle hq hf => simp [hf]
  | pulse _ _ _ _ hp => cases hf : t.mPendingOff <;> simp [presses, hp]
  | delay _ _ _ _ hp => simp [hp]
  | standby _ _ _ _ hp => simp [hp]

/-- Polls and the passing of time keep what is left to do. -/
theorem Serves.frame {t u : AppTask} {todo : List PinChange} (h : Serves t todo)
    (hc : u.mCtrlPinOn = t.mCtrlPinOn) (hs : u.mStandbyPin = t.mStandbyPin)
    (hp : u.mPulseWork = t.mPulseWork) (hd : u.mStandbyWork = t.mStandbyWork)
    (hr : u.mStandbyReleaseWork = t.mStandbyReleaseWork) (hi : u.mIsPulsing = t.mIsPulsing)
    (ho : u.mPendingOff = t.mPendingOff) : Serves u todo ∧ pinChanges t u = [] := by
  refine ⟨?_, by simp [pinChanges, hc, hs]⟩
  cases h with
  | idle hq hf =>
    obtain ⟨h1, h2, h3, h4, h5⟩ := hq
    exact .idle ⟨hc.trans h1, hs.trans h2, hp.trans h3, hd.trans h4, hr.trans h5⟩ (hi.trans hf)
  | pulse h1 h2 h3 h4 h5 =>
    rw [← ho]
    exact .pulse (hc.trans h1) (hs.trans h2) (hd.trans h3) (hr.trans h4) (hi.trans h5)
  | delay h1 h2 h3 h4 h5 =>
    exact .delay (hc.trans h1) (hs.trans h2) (hp.trans h3) (hr.trans h4) (hi.trans h5)
  | standby h1 h2 h3 h4 h5 =>
    exact .standby (hc.trans h1) (hs.trans h2) (hp.trans h3) (hd.trans h4) (hi.trans h5)

theorem task_simulates_serial :
    Machine.Simulates task (serial presses) OneAtATime Serves serialEvents := by
  intro t todo e u cs hR hP hs
  obtain ⟨hn, rfl⟩ := step_iff.mp hs
  cases e with
  | initiateAction a =>
    cases hn
    cases hR with
    | idle hq hf =>
      obtain ⟨h1, h2, h3, h4, h5⟩ := hq
      refine ⟨(presses a).tail, ?_, ?_⟩
      · have hc : pinChanges t (t.initiateAction a) = [⟨.ctrl, .outputLow⟩] := by
          simp [pinChanges, initiateAction, h1]
        rw [hc]
        exact serial_start_emit (by cases a <;> rfl)
      · have := Serves.pulse (t := t.initiateAction a) rfl h2 h4 h5 rfl
        simpa [initiateAction] using this
    | pulse _ _ _ _ hp | delay _ _ _ _ hp | standby _ _ _ _ hp =>
      rw [OneAtATime, hp] at hP; cases hP
  | sensingPoll read =>
    obtain ⟨-, rfl⟩ := next_sensingPoll.mp hn
    obtain ⟨hR', hc⟩ := hR.frame (u := (sensingPollHandler read { t with mSenseWork := none }).1)
      (by simp) (by simp) (by simp) (by simp) (by simp) (by simp) (by simp)
    exact ⟨todo, by rw [hc]; rfl, hR'⟩
  | controlPulse =>
    obtain ⟨hp, rfl⟩ := next_controlPulse.mp hn
    cases hR with
    | idle hq _ => exact absurd hq.2.2.1 hp
    | delay _ _ hp' _ _ | standby _ _ hp' _ _ => exact absurd hp' hp
    | pulse h1 h2 h3 h4 h5 =>
      unfold controlPulseHandler
      cases hf : t.mPendingOff with
      | true =>
        refine ⟨[⟨.standby, .outputLow⟩, ⟨.standby, .input⟩], ?_, .delay rfl h2 rfl h4 h5⟩
        simp [pinChanges, h1, presses, Machine.run, serialEvents, serial]
      | false =>
        refine ⟨[], ?_, .idle ⟨rfl, h2, rfl, h3, h4⟩ rfl⟩
        simp [pinChanges, h1, presses, Machine.run, serialEvents, serial]
  | standbyPulse =>
    obtain ⟨hp, rfl⟩ := next_standbyPulse.mp hn
    cases hR with
    | idle hq _ => exact absurd hq.2.2.2.1 hp
    | pulse _ _ hp' _ _ | standby _ _ _ hp' _ => exact absurd hp' hp
    | delay h1 h2 h3 h4 h5 =>
      refine ⟨[⟨.standby, .input⟩], ?_, .standby h1 rfl h3 rfl h5⟩
      simp [pinChanges, h2, standbyPulseHandler, Machine.run, serialEvents, serial]
  | standbyRelease =>
    obtain ⟨hp, rfl⟩ := next_standbyRelease.mp hn
    cases hR with
    | idle hq _ => exact absurd hq.2.2.2.2 hp
    | pulse _ _ _ hp' _ | delay _ _ _ hp' _ => exact absurd hp' hp
    | standby h1 h2 h3 h4 h5 =>
      refine ⟨[], ?_, .idle ⟨h1, rfl, h3, h4, rfl⟩ rfl⟩
      simp [pinChanges, h2, standbyReleaseHandler, Machine.run, serialEvents, serial]
  | elapse ms =>
    cases hn
    obtain ⟨hR', hc⟩ :=
      hR.frame (u := { t with uptime := t.uptime + ms }) rfl rfl rfl rfl rfl rfl rfl
    exact ⟨todo, by rw [hc]; rfl, hR'⟩

theorem starts_serialEvents (es : List TaskEvent) : starts (es.flatMap serialEvents) = targets es := by
  induction es with
  | nil => rfl
  | cons e es ih =>
    rw [List.flatMap_cons, starts_append, ih]
    cases e <;> rfl

/-- A run with one action at a time makes the changes of its calls, in call
order and the last one possibly cut short, and `mIsPulsing` tells whether it is. -/
theorem run_presses {t₀ t : AppTask} {es : List TaskEvent} {cs : List PinChange}
    (hb : Booted t₀) (hone : task.Along OneAtATime t₀ es) (h : task.run t₀ es = some (t, cs)) :
    ∃ todo, cs ++ todo = (targets es).flatMap presses ∧
      todo <:+ (lastTarget es).elim [] presses ∧ (t.mIsPulsing = true ↔ todo ≠ []) := by
  have hboot : Serves t₀ [] := by
    obtain ⟨uptime, rfl⟩ := booted_iff.mp hb
    exact .idle ⟨rfl, rfl, rfl, rfl, rfl⟩ rfl
  obtain ⟨todo, hrun, hR⟩ := task_simulates_serial.run hboot hone h
  have hserial := serial_run hrun
  rw [starts_serialEvents] at hserial
  exact ⟨todo, hserial.1, hserial.2, hR.pulsing_iff⟩

end ThreadSwitch.Heater
