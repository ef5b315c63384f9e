import ThreadSwitch.Heater.Standby
import ThreadSwitch.Matter.Device

/-!
# Commands from the remote and from the button

The remote path compares the command with the vote, the button path with the
attribute.

- `outstanding_follows_command`: the callback drops a remote change during an
  action for the opposite only when the samples read since that action's call
  have outvoted it.
- `no_redundant_call_iff`: a call for the state already voted comes from the
  button alone, when its lambda runs while attribute and vote differ.
-/

namespace ThreadSwitch.Matter

open ThreadSwitch.Zephyr ThreadSwitch.Lib ThreadSwitch.Heater

/-! ## Remote changes during an action -/

/-- A part of an action is left: a pin is LOW or one of its works is pending. -/
def Outstanding (t : AppTask) : Prop :=
  t.mCtrlPinOn = .outputLow ∨ t.mStandbyPin = .outputLow ∨ t.WorkPending

instance (t : AppTask) : Decidable (Outstanding t) := inferInstanceAs (Decidable (_ ∨ _ ∨ _))

theorem outstanding_iff {t : AppTask} (hr : t.Releasable) : Outstanding t ↔ t.WorkPending := by
  refine ⟨?_, fun h => .inr (.inr h)⟩
  rintro (hc | hs | hw)
  · exact .inl (hr.ctrl hc)
  · exact .inr (.inr (hr.standby hs))
  · exact hw

/-- What is outstanding was asked for. -/
theorem lastTarget_of_outstanding {t₀ t : AppTask} {es : List TaskEvent} {cs : List PinChange}
    (hb : Booted t₀) (h : task.run t₀ es = some (t, cs)) (ho : Outstanding t) :
    ∃ a, lastTarget es = some a := by
  have hidle : targets es = [] → ¬ t.WorkPending := by
    refine Machine.run_induct (motive := fun es _ t => targets es = [] → ¬ t.WorkPending) ?_ ?_ h
    · obtain ⟨uptime, rfl⟩ := booted_iff.mp hb
      simp [bootedAt, AppTask.WorkPending]
    · intro es os t e o u _ ih hs hq
      simp only [targets_append, List.append_eq_nil_iff] at hq
      exact idle_next hq.2 (ih hq.1) (step_iff.mp hs).1
  have hne : targets es ≠ [] := fun hq => hidle hq ((outstanding_iff (run_wf hb h).toReleasable).mp ho)
  exact ⟨_, List.getLast?_eq_some_getLast hne⟩

/-- **A remote change against an action that is still running** either becomes
the most recent call, or finds that call outvoted: the samples read since then
have turned the vote to the value written, and the callback has nothing to do. -/
theorem outstanding_follows_command {d₀ d d' : Device} {es : List DeviceEvent}
    {calls o : List TaskEvent} {value : Bool} (hb : DeviceBooted d₀)
    (h : device.run d₀ es = some (d, calls)) (hne : value ≠ d.onOff)
    (hstep : device.step d (.remote value) = some (d', o)) (hout : Outstanding d'.task) :
    lastTarget (calls ++ o) = some value ∨
      (o = [] ∧ d'.task.mVotedIsOn = value ∧ Outvoted value (samplesSince calls)) := by
  have hset := Option.some.inj hstep
  rw [setOnOff_eq, if_neg (Ne.symm hne)] at hset
  by_cases hv : value = d.task.mVotedIsOn
  · rw [if_pos hv] at hset
    cases hset
    obtain ⟨changes, hrun⟩ := device_drives_task.run h
    obtain ⟨a, ha⟩ := lastTarget_of_outstanding hb.1 hrun hout
    rw [List.append_nil, ha]
    by_cases hav : a = value
    · exact .inl (congrArg some hav)
    · have hl : lastTarget calls = some (!value) := by rw [ha, Bool.eq_not.mpr hav]
      exact .inr ⟨rfl, hv.symm, (voted_against_iff hb.1 hrun hl).mp hv.symm⟩
  · rw [if_neg hv] at hset
    cases hset
    exact .inl (lastTarget_call calls value)

/-- An ON and an OFF at 0 ms. Eight LOW polls during the OFF vote ON, with its
standby work pending until 1300 ms. -/
def outvotedOff : List DeviceEvent :=
  [.work (.sensingPoll ⟨true, 1⟩), .runLambda, .remote true, .remote false] ++
    (rounds 3 0 ++ [TaskEvent.controlPulse] ++ rounds 5 0).map .work

theorem outvotedOff_runs :
    ∃ d calls d', device.run ⟨bootedAt 0, false, []⟩ outvotedOff = some (d, calls) ∧
      task.Along Punctual (bootedAt 0) calls ∧ true ≠ d.onOff ∧ lastTarget calls = some false ∧
        device.step d (.remote true) = some (d', []) ∧ Outstanding d'.task := by
  obtain ⟨d, calls, hrun, hp, hon, hlast, hnext⟩ : ∃ d calls,
      device.run ⟨bootedAt 0, false, []⟩ outvotedOff = some (d, calls) ∧
        task.Along Punctual (bootedAt 0) calls ∧ true ≠ d.onOff ∧ lastTarget calls = some false ∧
          (device.run d [.remote true]).any (fun r => decide (Outstanding r.1.task ∧ r.2 = [])) :=
    Machine.run_eval (by decide +kernel)
  obtain ⟨d', o, hstep, hout, rfl⟩ := Machine.run_eval
    (P := fun (d' : Device) (o : List TaskEvent) => Outstanding d'.task ∧ o = []) hnext
  exact ⟨d, calls, d', hrun, hp, hon, hlast, Machine.run_single.symm.trans hstep, hout⟩

theorem command_dropped_during_off :
    ¬ ∀ d₀ es d calls value d' o, DeviceBooted d₀ → device.run d₀ es = some (d, calls) →
      task.Along Punctual d₀.task calls → value ≠ d.onOff →
      device.step d (.remote value) = some (d', o) → Outstanding d'.task →
      lastTarget (calls ++ o) = some value := by
  intro hall
  obtain ⟨d, calls, d', hrun, hp, hon, hlast, hstep, hout⟩ := outvotedOff_runs
  have := hall _ _ _ _ _ _ _ ⟨bootedAt_booted 0, rfl⟩ hrun hp hon hstep hout
  rw [List.append_nil, hlast] at this
  cases this

theorem outvotedOff_outvoted :
    ∃ d calls, device.run ⟨bootedAt 0, false, []⟩ outvotedOff = some (d, calls) ∧
      Outvoted true (samplesSince calls) := by
  obtain ⟨d, calls, d', hrun, -, hon, hlast, hstep, hout⟩ := outvotedOff_runs
  rcases outstanding_follows_command ⟨bootedAt_booted 0, rfl⟩ hrun hon hstep hout with h | h
  · rw [List.append_nil, hlast] at h
    cases h
  · exact ⟨d, calls, hrun, h.2.2⟩

/-! ## Calls for the state already voted -/

/-- Every call of the step is for the state not voted at that moment. -/
def NoRedundantCall (d : Device) (e : DeviceEvent) : Prop :=
  ∀ r ∈ device.step d e, ∀ a ∈ targets r.2, d.task.mVotedIsOn ≠ a

instance (d : Device) (e : DeviceEvent) : Decidable (NoRedundantCall d e) :=
  inferInstanceAs (Decidable (∀ r ∈ device.step d e, ∀ a ∈ targets r.2, d.task.mVotedIsOn ≠ a))

/-- The button's lambda runs only while the attribute is the vote. -/
def ButtonInStep (d : Device) (e : DeviceEvent) : Prop :=
  e = .runLambda → d.lambdas.head? = some .button → d.onOff = d.task.mVotedIsOn

/-- A write never calls for the state already voted. -/
theorem setOnOff_no_redundant (value : Bool) (d : Device) :
    ∀ a ∈ targets (d.setOnOff value).2, d.task.mVotedIsOn ≠ a := by
  intro a ha
  rw [targets_setOnOff] at ha
  split at ha
  · cases ha
  · rename_i hv
    obtain rfl := List.mem_singleton.mp ha
    exact fun h => hv (.inr h.symm)

theorem noRedundantCall_iff (d : Device) (e : DeviceEvent) :
    NoRedundantCall d e ↔ ButtonInStep d e := by
  cases e with
  | work e =>
    refine iff_of_true ?_ (fun he => by cases he)
    rintro ⟨d', o⟩ hr a ha
    obtain ⟨he, -, -, -, rfl⟩ := step_work hr
    rw [he] at ha
    cases ha
  | remote value =>
    refine iff_of_true (fun r hr => ?_) (fun he => by cases he)
    rw [← Option.some.inj hr]
    exact setOnOff_no_redundant value d
  | buttons state hasChanged =>
    refine iff_of_true ?_ (fun he => by cases he)
    rintro ⟨d', o⟩ hr a ha
    obtain ⟨-, -, -, rfl⟩ := step_buttons hr
    cases ha
  | runLambda =>
    cases hl : d.lambdas with
    | nil => simp [NoRedundantCall, ButtonInStep, device, hl]
    | cons lambda rest =>
      cases lambda with
      | sync v =>
        refine iff_of_true (fun r hr => ?_) (fun _ hh => by simp [hl] at hh)
        rw [step_sync hl] at hr
        rw [← Option.some.inj hr]
        exact setOnOff_no_redundant v { d with lambdas := rest }
      | button =>
        refine ⟨fun hn _ _ => ?_, fun hs r hr a ha => ?_⟩
        · have hne := hn _ (step_button hl) (!d.onOff) (List.mem_singleton.mpr rfl)
          exact (Bool.ne_not.mp hne).symm
        · rw [step_button hl] at hr
          rw [← Option.some.inj hr] at ha
          obtain rfl := List.mem_singleton.mp ha
          exact Bool.ne_not.mpr (hs rfl (by simp [hl])).symm

/-- **No redundant pulse**, in exactly the runs in which the button's lambda runs
only while the attribute is the vote. -/
theorem no_redundant_call_iff (d₀ : Device) (es : List DeviceEvent) :
    device.Along NoRedundantCall d₀ es ↔ device.Along ButtonInStep d₀ es :=
  Machine.along_congr noRedundantCall_iff

/-- Two presses of the button, whose lambdas both find the attribute OFF. -/
def twoPresses : List DeviceEvent :=
  [.work (.sensingPoll ⟨true, 1⟩), .runLambda, .buttons 2 2, .buttons 2 2, .runLambda, .runLambda]

theorem second_press_redundant :
    ¬ ∀ d₀ es d calls, DeviceBooted d₀ → device.run d₀ es = some (d, calls) →
      task.Along Punctual d₀.task calls → device.Along NoRedundantCall d₀ es := by
  intro hall
  obtain ⟨d, calls, hrun, hp⟩ : ∃ d calls, device.run ⟨bootedAt 0, false, []⟩ twoPresses =
      some (d, calls) ∧ task.Along Punctual (bootedAt 0) calls := Machine.run_eval (by decide +kernel)
  have := hall _ _ _ _ ⟨bootedAt_booted 0, rfl⟩ hrun hp
  exact absurd this (by decide +kernel)

end ThreadSwitch.Matter
