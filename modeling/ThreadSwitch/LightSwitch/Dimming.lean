import ThreadSwitch.LightSwitch.AppTask

/-!
# When dimming stops

The tasks run in the order they were posted, so the last one of a release or of the
first timer decides whether the light is being dimmed when all have run
(`run_outcome`). A first timer that expires after the release and before the task of
the release runs posts the later one: `dimming_stops`.
-/

namespace ThreadSwitch.LightSwitch

open ThreadSwitch.Zephyr ThreadSwitch.Lib

/-- What the task makes of `sWasDimmerTriggered`. -/
def PostedTask.leaves (wasTriggered : Bool) : PostedTask → Bool
  | .dimmerTriggerEventHandler => false
  | .timerEventHandler .dimmerTrigger => true
  | .timerEventHandler .dimmer => wasTriggered

/-- `sWasDimmerTriggered` when all posted tasks have run. -/
def AppTask.outcome (t : AppTask) : Bool := t.tasks.foldl PostedTask.leaves t.sWasDimmerTriggered

/-- What the event makes of whether the first timer has expired since the last release. -/
def SwitchEvent.triggers (triggered : Bool) : SwitchEvent → Bool
  | .buttons state hasChanged => if inMask hasChanged && !inMask state then false else triggered
  | .expires .dimmerTrigger => true
  | .expires .dimmer | .runTask | .elapse _ => triggered

/-- The first timer has expired since the last release of the button, or since `Init`. -/
def triggeredSinceRelease (es : List SwitchEvent) : Bool := es.foldl SwitchEvent.triggers false

/-- What holds between any two events: the dimmer timer runs while `sWasDimmerTriggered`
is set, and the first timer runs only until the task of a release. -/
structure AppTask.Wf (t : AppTask) : Prop where
  oneShot : ∀ c ∈ t.sDimmerPressKeyTimer, c.period = 0
  periodic : ∀ c ∈ t.sDimmerTimer, c.period ≠ 0
  dimming : t.sDimmerTimer ≠ none ↔ t.sWasDimmerTriggered = true
  armed : t.sDimmerPressKeyTimer ≠ none →
    t.pressed = true ∨ .dimmerTriggerEventHandler ∈ t.tasks

/-- The light is not being dimmed, and will not be without a press. -/
def Stopped (t : AppTask) : Prop :=
  t.sDimmerPressKeyTimer = none ∧ t.sDimmerTimer = none ∧ t.sWasDimmerTriggered = false

instance (t : AppTask) : Decidable (Stopped t) := inferInstanceAs (Decidable (_ ∧ _))

/-- The first timer expires only while the button is held down. -/
def TriggersWhilePressed (t : AppTask) : SwitchEvent → Prop
  | .expires .dimmerTrigger => t.pressed = true
  | _ => True

instance (t : AppTask) : ∀ e, Decidable (TriggersWhilePressed t e)
  | .expires .dimmerTrigger => inferInstanceAs (Decidable (t.pressed = true))
  | .expires .dimmer | .buttons _ _ | .runTask | .elapse _ => isTrue trivial

theorem expire_of_oneShot {c : Countdown} (h : c.period = 0) : c.expire = none := if_pos h

theorem expire_of_periodic {c : Countdown} (h : c.period ≠ 0) :
    c.expire = some { c with expires := c.expires + c.period } := if_neg h

section steps
variable {t u : AppTask} {e : SwitchEvent} {o : List SwitchCall}

theorem init_wf (uptime : Nat) (pressed : Bool) : (AppTask.init uptime pressed).Wf := by
  constructor <;> simp [AppTask.init]

theorem next_wf (hw : t.Wf) (h : switch.step t e = some (u, o)) : u.Wf := by
  cases e with
  | buttons state hasChanged =>
    obtain ⟨-, ⟨-, rfl⟩ | ⟨-, -, rfl⟩ | ⟨-, -, rfl⟩⟩ := step_buttons h
    · exact hw
    · exact ⟨fun c hc => by cases hc; rfl, hw.periodic, hw.dimming, fun _ => .inl rfl⟩
    · exact ⟨hw.oneShot, hw.periodic, hw.dimming, fun _ => .inr (by simp)⟩
  | expires timer =>
    cases timer with
    | dimmerTrigger =>
      obtain ⟨-, c, hc, rfl⟩ := step_dimmerTrigger h
      have hstop : c.expire = none := expire_of_oneShot (hw.oneShot c hc)
      refine ⟨?_, hw.periodic, hw.dimming, fun hrun => absurd hstop hrun⟩
      intro c' hc'
      rw [hstop] at hc'
      cases hc'
    | dimmer =>
      obtain ⟨-, c, hc, rfl⟩ := step_dimmer h
      have hagain := expire_of_periodic (hw.periodic c hc)
      refine ⟨hw.oneShot, ?_, ?_, fun hrun => ?_⟩
      · intro c' hc'
        rw [hagain] at hc'
        cases hc'
        exact hw.periodic c hc
      · have hset : t.sWasDimmerTriggered = true := hw.dimming.mp (by rw [hc]; simp)
        simp [hagain, hset]
      · exact (hw.armed hrun).imp id (List.mem_append_left _)
  | runTask =>
    obtain ⟨task, rest, hq, ⟨-, -, rfl⟩ | ⟨-, -, rfl⟩ | ⟨rfl, -, rfl⟩⟩ := step_runTask h
    · constructor <;> simp
    · constructor <;> simp [kTimerStart, kDimmerInterval]
    · refine ⟨hw.oneShot, hw.periodic, hw.dimming, fun hrun => ?_⟩
      refine (hw.armed hrun).imp id fun hmem => ?_
      rw [hq] at hmem
      exact (List.mem_cons.mp hmem).resolve_left (by simp)
  | elapse ms =>
    cases h
    exact ⟨hw.oneShot, hw.periodic, hw.dimming, hw.armed⟩

/-- A posted task changes the outcome to what it leaves. -/
theorem outcome_post (t : AppTask) (task : PostedTask) :
    ({ t with tasks := t.tasks ++ [task] } : AppTask).outcome = task.leaves t.outcome := by
  simp [AppTask.outcome]

/-- Running a task leaves the outcome as it was. -/
theorem outcome_runTask (h : switch.step t .runTask = some (u, o)) : u.outcome = t.outcome := by
  obtain ⟨task, rest, hq, ⟨rfl, -, rfl⟩ | ⟨rfl, -, rfl⟩ | ⟨rfl, -, rfl⟩⟩ := step_runTask h <;>
    simp [AppTask.outcome, hq, PostedTask.leaves]

/-- Only a release and an expiry of the first timer change the outcome. -/
theorem outcome_next (h : switch.step t e = some (u, o)) : u.outcome = e.triggers t.outcome := by
  cases e with
  | buttons state hasChanged =>
    obtain ⟨-, ⟨hc, rfl⟩ | ⟨hup, -, rfl⟩ | ⟨hdown, hc, rfl⟩⟩ := step_buttons h
    · simp [SwitchEvent.triggers, hc]
    · simp [SwitchEvent.triggers, hup, AppTask.outcome]
    · rw [outcome_post { t with pressed := false } .dimmerTriggerEventHandler]
      simp [SwitchEvent.triggers, hdown, hc, PostedTask.leaves]
  | expires timer =>
    cases timer with
    | dimmerTrigger =>
      obtain ⟨-, c, -, rfl⟩ := step_dimmerTrigger h
      exact outcome_post { t with sDimmerPressKeyTimer := c.expire } _
    | dimmer =>
      obtain ⟨-, c, -, rfl⟩ := step_dimmer h
      exact outcome_post { t with sDimmerTimer := c.expire } _
  | runTask => exact outcome_runTask h
  | elapse ms => cases h; rfl

/-- Where the first timer expires only while the button is held down, nothing is left of
the dimming once it is released. -/
theorem released_next (hi : t.pressed = false → t.outcome = false)
    (hp : TriggersWhilePressed t e) (h : switch.step t e = some (u, o)) :
    u.pressed = false → u.outcome = false := by
  intro hreleased
  rw [outcome_next h]
  cases e with
  | buttons state hasChanged =>
    obtain ⟨-, ⟨hc, rfl⟩ | ⟨-, -, rfl⟩ | ⟨hdown, hc, -⟩⟩ := step_buttons h
    · simpa [SwitchEvent.triggers, hc] using hi hreleased
    · cases hreleased
    · simp [SwitchEvent.triggers, hdown, hc]
  | expires timer =>
    cases timer with
    | dimmerTrigger =>
      obtain ⟨-, c, -, rfl⟩ := step_dimmerTrigger h
      have hheld : t.pressed = true := hp
      rw [hheld] at hreleased
      cases hreleased
    | dimmer =>
      obtain ⟨-, c, -, rfl⟩ := step_dimmer h
      exact hi hreleased
  | runTask =>
    obtain ⟨task, rest, -, ⟨-, -, rfl⟩ | ⟨-, -, rfl⟩ | ⟨-, -, rfl⟩⟩ := step_runTask h <;>
      exact hi hreleased
  | elapse ms =>
    cases h
    exact hi hreleased

end steps

section run
variable {uptime : Nat} {pressed : Bool} {t : AppTask} {es : List SwitchEvent}
  {cs : List SwitchCall}

theorem run_wf (h : switch.run (.init uptime pressed) es = some (t, cs)) : t.Wf :=
  Machine.run_inv (I := AppTask.Wf) (fun _ _ _ _ => next_wf) (init_wf uptime pressed) h

/-- When all posted tasks have run, the dimmer is triggered if the first timer has
expired since the last release. -/
theorem run_outcome (h : switch.run (.init uptime pressed) es = some (t, cs)) :
    t.outcome = triggeredSinceRelease es := by
  refine Machine.run_induct (motive := fun es _ t => t.outcome = triggeredSinceRelease es) rfl ?_ h
  intro es cs t e o u _ ih hs
  rw [outcome_next hs, ih, triggeredSinceRelease, triggeredSinceRelease, List.foldl_append]
  rfl

theorem run_released (hp : switch.Along TriggersWhilePressed (.init uptime pressed) es)
    (h : switch.run (.init uptime pressed) es = some (t, cs)) :
    t.pressed = false → t.outcome = false :=
  Machine.run_inv_along (I := fun t => t.pressed = false → t.outcome = false)
    (fun _ _ _ _ => released_next) (fun _ => rfl) hp h

/-- **Dimming stops when the button is released**, once the posted tasks have run, in the
runs in which the first timer expires only while the button is held down; in any run,
exactly when that timer has not expired since the last release. -/
theorem dimming_stops (h : switch.run (.init uptime pressed) es = some (t, cs))
    (hreleased : t.pressed = false) (hdone : t.tasks = []) :
    (switch.Along TriggersWhilePressed (.init uptime pressed) es → Stopped t) ∧
      (Stopped t ↔ triggeredSinceRelease es = false) := by
  have hw := run_wf h
  have hunarmed : t.sDimmerPressKeyTimer = none := by
    by_contra harmed
    have := hw.armed harmed
    simp [hreleased, hdone] at this
  have hwas : t.sWasDimmerTriggered = t.outcome := by
    rw [AppTask.outcome, hdone]
    rfl
  have hiff : Stopped t ↔ t.outcome = false := by
    rw [← hwas]
    refine ⟨fun hs => hs.2.2, fun hf => ⟨hunarmed, ?_, hf⟩⟩
    by_contra hrun
    rw [hw.dimming.mp hrun] at hf
    cases hf
  refine ⟨fun hp => hiff.mpr (run_released hp h hreleased), ?_⟩
  rw [hiff, run_outcome h]

end run

/-- The button is held for 900 ms; the dimmer timer expires once more before the task of
the release runs. -/
def heldButton : List SwitchEvent :=
  [.buttons 2 2, .elapse 500, .expires .dimmerTrigger, .runTask, .elapse 300, .expires .dimmer,
    .runTask, .elapse 100, .buttons 0 2, .elapse 200, .expires .dimmer, .runTask, .runTask]

theorem heldButton_stops :
    ∃ t cs, switch.run (.init 0 false) heldButton = some (t, cs) ∧ Stopped t := by
  obtain ⟨t, cs, hrun, hreleased, hdone, hp⟩ : ∃ t cs,
      switch.run (.init 0 false) heldButton = some (t, cs) ∧ t.pressed = false ∧ t.tasks = [] ∧
        switch.Along TriggersWhilePressed (.init 0 false) heldButton :=
    Machine.run_eval (by decide +kernel)
  exact ⟨t, cs, hrun, (dimming_stops hrun hreleased hdone).1 hp⟩

/-- The button is released at 499 ms; the first timer expires at 500 ms, before the task of
the release runs. -/
def releasedJustBefore : List SwitchEvent :=
  [.buttons 2 2, .elapse 499, .buttons 0 2, .elapse 1, .expires .dimmerTrigger, .runTask, .runTask]

theorem dimming_goes_on :
    ¬ ∀ es t cs, switch.run (.init 0 false) es = some (t, cs) →
      switch.Along Timely (.init 0 false) es → t.pressed = false → t.tasks = [] → Stopped t := by
  intro hall
  obtain ⟨t, cs, hrun, hp, hreleased, hdone, hdimming⟩ : ∃ t cs,
      switch.run (.init 0 false) releasedJustBefore = some (t, cs) ∧
        switch.Along Timely (.init 0 false) releasedJustBefore ∧ t.pressed = false ∧
          t.tasks = [] ∧ ¬ Stopped t := Machine.run_eval (by decide +kernel)
  exact hdimming (hall _ _ _ hrun hp hreleased hdone)

end ThreadSwitch.LightSwitch
