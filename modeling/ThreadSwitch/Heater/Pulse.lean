import ThreadSwitch.Heater.Standby

/-!
# Overlapping actions: the flag and the control pulse

`InitiateAction` can be called while an earlier action is still running. Three
things then go wrong, each in exactly the runs named here:

- `flag_covers_action_iff`: `mIsPulsing` is cleared while a part of an action is
  left, when a handler that clears it runs while another work is pending.
- `pulse_count_iff`: two calls share one control pulse, when a call is made
  while `mPulseWork` is pending.
- `presses_apart_iff`: both buttons are pressed at once, when a call is made
  during a standby press or a standby press starts during a control pulse.
-/

namespace ThreadSwitch.Heater

open ThreadSwitch.Zephyr ThreadSwitch.Lib AppTask

/-! ## `mIsPulsing` and the whole action -/

/-- While `mIsPulsing` is false, no part of an action is left. -/
def FlagCovers (t : AppTask) : Prop := t.mIsPulsing = false → t.Quiet

/-- A handler that clears `mIsPulsing` runs only as the last work of an action. -/
def ClearsLast (t : AppTask) : TaskEvent → Prop
  | .controlPulse =>
    t.mPendingOff = false → t.mStandbyWork = none ∧ t.mStandbyReleaseWork = none
  | .standbyRelease => t.mPulseWork = none ∧ t.mStandbyWork = none
  | _ => True

theorem flagCovers_iff {t : AppTask} (hw : t.Wf) :
    FlagCovers t ↔ (t.mIsPulsing = false → ¬ t.WorkPending) := by
  rw [FlagCovers, hw.toReleasable.quiet_iff]

/-- A step from a covered state is covered exactly when it clears the flag last. -/
theorem flagCovers_next {t u : AppTask} {e : TaskEvent} (hw : t.Wf) (hc : FlagCovers t)
    (h : t.next e = some u) : FlagCovers u ↔ ClearsLast t e := by
  rw [flagCovers_iff (next_wf hw h)]
  rw [flagCovers_iff hw] at hc
  have hset : t.WorkPending → t.mIsPulsing = true := fun hp => by
    cases hf : t.mIsPulsing with
    | true => rfl
    | false => exact absurd hp (hc hf)
  cases e with
  | initiateAction a =>
    cases h
    simp [ClearsLast, initiateAction]
  | sensingPoll read =>
    obtain ⟨-, rfl⟩ := next_sensingPoll.mp h
    simpa [ClearsLast, WorkPending] using hc
  | controlPulse =>
    obtain ⟨hp, rfl⟩ := next_controlPulse.mp h
    have hs := hset (.inl hp)
    cases hf : t.mPendingOff <;> simp [ClearsLast, controlPulseHandler, WorkPending, hf, hs]
  | standbyPulse =>
    obtain ⟨hp, rfl⟩ := next_standbyPulse.mp h
    have hs := hset (.inr (.inl hp))
    simp [ClearsLast, standbyPulseHandler, hs]
  | standbyRelease =>
    obtain ⟨-, rfl⟩ := next_standbyRelease.mp h
    simp [ClearsLast, standbyReleaseHandler, WorkPending]
  | elapse ms =>
    cases h
    simpa [ClearsLast, WorkPending] using hc

/-- **`mIsPulsing` covers the whole action** in every state of a run, in exactly
the runs in which a handler that clears it runs with no other work pending. -/
theorem flag_covers_action_iff {t₀ t : AppTask} {es : List TaskEvent} {cs : List PinChange}
    (hb : Booted t₀) (h : task.run t₀ es = some (t, cs)) :
    (∀ pre post u os, es = pre ++ post → task.run t₀ pre = some (u, os) → FlagCovers u) ↔
      task.Along ClearsLast t₀ es := by
  have hboot : FlagCovers t₀ := by
    obtain ⟨uptime, rfl⟩ := booted_iff.mp hb
    simp [FlagCovers, Quiet, bootedAt]
  exact Machine.states_iff_along (I := AppTask.Wf)
    (fun t e u o hw hs => next_wf hw (step_iff.mp hs).1)
    (fun t e u o hw hc hs => flagCovers_next hw hc (step_iff.mp hs).1)
    (run_wf hb (Machine.run_nil t₀)) hboot h

/-- After an OFF at 0 ms and an ON at 500 ms, the ON's control release clears the
flag at 800 ms, with the standby work of the OFF pending until 1300 ms. -/
theorem onDuringStandbyDelay_uncovered :
    ∃ t cs, task.run (bootedAt 0) onDuringStandbyDelay = some (t, cs) ∧
      (t.mIsPulsing = false ∧ t.mStandbyWork ≠ none) ∧
        task.Along Punctual (bootedAt 0) onDuringStandbyDelay :=
  Machine.run_eval (by decide +kernel)

theorem flag_cleared_early :
    ¬ ∀ t₀ es t cs, Booted t₀ → task.run t₀ es = some (t, cs) → task.Along Punctual t₀ es →
      FlagCovers t := by
  intro hall
  obtain ⟨t, cs, hrun, ⟨hf, hs⟩, hp⟩ := onDuringStandbyDelay_uncovered
  exact hs (hall _ _ _ _ (bootedAt_booted 0) hrun hp hf).2.2.2.1

/-- In that run a handler clears the flag with another work pending. -/
theorem onDuringStandbyDelay_clears_early :
    ¬ task.Along ClearsLast (bootedAt 0) onDuringStandbyDelay := by
  intro h
  obtain ⟨t, cs, hrun, ⟨hf, hs⟩, -⟩ := onDuringStandbyDelay_uncovered
  have hall := (flag_covers_action_iff (bootedAt_booted 0) hrun).mpr h
  exact hs (hall _ [] t cs (List.append_nil _).symm hrun hf).2.2.2.1

/-! ## One control pulse for each call -/

/-- `InitiateAction` is called only while no control pulse is running. -/
def FreshCall (t : AppTask) : TaskEvent → Prop
  | .initiateAction _ => t.mPulseWork = none
  | _ => True

/-- The transitions of the control pin from Hi-Z to LOW. -/
def controlPulses (cs : List PinChange) : Nat := cs.count ⟨.ctrl, .outputLow⟩

theorem controlPulses_append (cs ds : List PinChange) :
    controlPulses (cs ++ ds) = controlPulses cs + controlPulses ds := List.count_append

/-- A call starts a control pulse exactly when none is running. -/
theorem controlPulses_call {t : AppTask} (hw : t.Wf) (a : Bool) :
    controlPulses (pinChanges t (t.initiateAction a)) = if t.mPulseWork = none then 1 else 0 := by
  by_cases hp : t.mPulseWork = none
  · have hc : t.mCtrlPinOn = .input := PinMode.ne_outputLow.mp fun hc => hw.ctrl hc hp
    simp [pinChanges, initiateAction, hc, hp, controlPulses]
  · simp [pinChanges, initiateAction, hw.held hp, hp, controlPulses]

/-- No other event starts a control pulse. -/
theorem controlPulses_silent {t u : AppTask} {e : TaskEvent} (he : targets [e] = [])
    (h : t.next e = some u) : controlPulses (pinChanges t u) = 0 := by
  have hpin := (next_silent he h).ctrlPin
  unfold controlPulses pinChanges
  rw [List.count_append, Nat.add_eq_zero_iff]
  refine ⟨?_, by split <;> simp⟩
  by_cases hc : e = .controlPulse
  · rw [if_pos hc] at hpin
    rw [hpin]
    split <;> simp
  · rw [if_neg hc] at hpin
    rw [if_pos hpin.symm]
    rfl

/-- **Each call has a control pulse of its own** in exactly the runs in which no
call is made while `mPulseWork` is pending. -/
theorem pulse_count_iff {t₀ t : AppTask} {es : List TaskEvent} {cs : List PinChange}
    (hb : Booted t₀) (h : task.run t₀ es = some (t, cs)) :
    controlPulses cs = (targets es).length ↔ task.Along FreshCall t₀ es := by
  -- pulses never outnumber calls, so one shared pulse is never made up for
  suffices controlPulses cs ≤ (targets es).length ∧
      (controlPulses cs = (targets es).length ↔ task.Along FreshCall t₀ es) from this.2
  refine Machine.run_induct (motive := fun es cs _ => controlPulses cs ≤ (targets es).length ∧
    (controlPulses cs = (targets es).length ↔ task.Along FreshCall t₀ es)) ?_ ?_ h
  · simp [controlPulses, targets, Machine.Along]
  intro es cs t e o u hr ih hs
  obtain ⟨hn, rfl⟩ := step_iff.mp hs
  obtain ⟨hle, hiff⟩ := ih
  have hlast : (∀ v os, task.run t₀ es = some (v, os) → FreshCall v e) ↔ FreshCall t e :=
    ⟨fun h => h t cs hr, fun h v os hv => by rw [hr] at hv; cases hv; exact h⟩
  rw [Machine.along_snoc, hlast, ← hiff, controlPulses_append, targets_append, List.length_append]
  rcases call_or_silent e with ⟨a, rfl⟩ | he
  · cases hn
    have hone : (targets [.initiateAction a]).length = 1 := rfl
    rw [controlPulses_call (run_wf hb hr), hone, FreshCall]
    by_cases hp : t.mPulseWork = none
    · simp only [hp, if_true, and_true]; omega
    · simp only [hp, if_false, and_false, iff_false]; omega
  · have hfresh : FreshCall t e := by
      cases e with
      | initiateAction a => cases he
      | _ => trivial
    rw [controlPulses_silent he hn, he, List.length_nil]
    simp only [hfresh, and_true]; omega

/-- Two calls 200 ms apart share one control pulse. -/
def twoCallsOnePulse : List TaskEvent :=
  [.sensingPoll ⟨true, 1⟩, .initiateAction true] ++ rounds 2 1 ++ [.initiateAction false]

theorem twoCallsOnePulse_runs :
    ∃ t cs, task.run (bootedAt 0) twoCallsOnePulse = some (t, cs) ∧
      controlPulses cs ≠ (targets twoCallsOnePulse).length ∧
        task.Along Punctual (bootedAt 0) twoCallsOnePulse :=
  Machine.run_eval (by decide +kernel)

theorem calls_share_pulse :
    ¬ ∀ t₀ es t cs, Booted t₀ → task.run t₀ es = some (t, cs) → task.Along Punctual t₀ es →
      controlPulses cs = (targets es).length := by
  intro hall
  obtain ⟨t, cs, hrun, hne, hp⟩ := twoCallsOnePulse_runs
  exact hne (hall _ _ _ _ (bootedAt_booted 0) hrun hp)

theorem twoCallsOnePulse_not_fresh : ¬ task.Along FreshCall (bootedAt 0) twoCallsOnePulse := by
  intro h
  obtain ⟨t, cs, hrun, hne, -⟩ := twoCallsOnePulse_runs
  exact hne ((pulse_count_iff (bootedAt_booted 0) hrun).mpr h)

/-! ## One button at a time -/

/-- Both buttons are pressed. -/
def BothLow (t : AppTask) : Prop := t.mCtrlPinOn = .outputLow ∧ t.mStandbyPin = .outputLow

instance (t : AppTask) : Decidable (BothLow t) := inferInstanceAs (Decidable (_ ∧ _))

/-- No call is made during a standby press, and no standby press starts during a control pulse. -/
def PressesApart (t : AppTask) : TaskEvent → Prop
  | .initiateAction _ => t.mStandbyReleaseWork = none
  | .standbyPulse => t.mPulseWork = none
  | _ => True

theorem bothLow_iff {t : AppTask} (hw : t.Wf) :
    BothLow t ↔ t.mPulseWork ≠ none ∧ t.mStandbyReleaseWork ≠ none :=
  and_congr ⟨hw.ctrl, hw.held⟩ ⟨hw.standby, hw.pressed⟩

/-- A step from a state with at most one button pressed leads to one exactly when
it keeps the presses apart. -/
theorem bothLow_next {t u : AppTask} {e : TaskEvent} (hw : t.Wf) (hb : ¬ BothLow t)
    (h : t.next e = some u) : ¬ BothLow u ↔ PressesApart t e := by
  rw [bothLow_iff (next_wf hw h)]
  rw [bothLow_iff hw] at hb
  cases e with
  | initiateAction a =>
    cases h
    simp [PressesApart, initiateAction]
  | sensingPoll read =>
    obtain ⟨-, rfl⟩ := next_sensingPoll.mp h
    simpa [PressesApart] using hb
  | controlPulse =>
    obtain ⟨-, rfl⟩ := next_controlPulse.mp h
    unfold controlPulseHandler
    cases hf : t.mPendingOff <;> simp [PressesApart]
  | standbyPulse =>
    obtain ⟨-, rfl⟩ := next_standbyPulse.mp h
    simp [PressesApart, standbyPulseHandler]
  | standbyRelease =>
    obtain ⟨-, rfl⟩ := next_standbyRelease.mp h
    simp [PressesApart, standbyReleaseHandler]
  | elapse ms =>
    cases h
    simpa [PressesApart] using hb

/-- **The two buttons are never pressed at the same time** in a run, in exactly
the runs in which no call is made during a standby press and no standby press
starts during a control pulse. -/
theorem presses_apart_iff {t₀ t : AppTask} {es : List TaskEvent} {cs : List PinChange}
    (hb : Booted t₀) (h : task.run t₀ es = some (t, cs)) :
    (∀ pre post u os, es = pre ++ post → task.run t₀ pre = some (u, os) → ¬ BothLow u) ↔
      task.Along PressesApart t₀ es := by
  have hboot : ¬ BothLow t₀ := by
    obtain ⟨uptime, rfl⟩ := booted_iff.mp hb
    simp [BothLow, bootedAt]
  exact Machine.states_iff_along (I := AppTask.Wf) (Q := fun t => ¬ BothLow t)
    (fun t e u o hw hs => next_wf hw (step_iff.mp hs).1)
    (fun t e u o hw hc hs => bothLow_next hw hc (step_iff.mp hs).1)
    (run_wf hb (Machine.run_nil t₀)) hboot h

/-- An OFF at 0 ms and an ON at 1400 ms, while the standby pin of the OFF is LOW. -/
def onDuringStandbyPulse : List TaskEvent := offDuringStandbyPulse ++ [.initiateAction true]

theorem onDuringStandbyPulse_runs :
    ∃ t cs, task.run (bootedAt 0) onDuringStandbyPulse = some (t, cs) ∧ BothLow t ∧
      task.Along Punctual (bootedAt 0) onDuringStandbyPulse :=
  Machine.run_eval (by decide +kernel)

theorem both_buttons_pressed :
    ¬ ∀ t₀ es t cs, Booted t₀ → task.run t₀ es = some (t, cs) → task.Along Punctual t₀ es →
      ¬ BothLow t := by
  intro hall
  obtain ⟨t, cs, hrun, hlow, hp⟩ := onDuringStandbyPulse_runs
  exact hall _ _ _ _ (bootedAt_booted 0) hrun hp hlow

theorem onDuringStandbyPulse_overlaps :
    ¬ task.Along PressesApart (bootedAt 0) onDuringStandbyPulse := by
  intro h
  obtain ⟨t, cs, hrun, hlow, -⟩ := onDuringStandbyPulse_runs
  have hall := (presses_apart_iff (bootedAt_booted 0) hrun).mpr h
  exact hall _ [] t cs (List.append_nil _).symm hrun hlow

end ThreadSwitch.Heater
