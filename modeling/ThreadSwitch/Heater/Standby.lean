import ThreadSwitch.Heater.Step

/-!
# The standby pulse of an OFF

The standby work outlives the control pulse that scheduled it, and
`mPendingOff` is one flag for all sequences, so overlapping actions can press
the standby button for an ON, or lose the press of an OFF. The two theorems
here say exactly which runs do:

- `standby_only_for_off_iff`: a standby press serves an ON exactly when that ON
  was called while `mStandbyWork` was pending and is still the most recent call.
- `off_completes_iff`: the last OFF of a run loses its press exactly when the
  release of an earlier OFF runs before its own control release, with no other
  standby work pending then.
-/

namespace ThreadSwitch.Heater

open ThreadSwitch.Zephyr ThreadSwitch.Lib AppTask

/-! ## Which action a standby press serves -/

/-- The most recent call was an ON, made while `mStandbyWork` was pending. -/
def OnOverStandby (t₀ : AppTask) (es : List TaskEvent) : Prop :=
  ∃ pre mid u cs, es = pre ++ .initiateAction true :: mid ∧ targets mid = [] ∧
    task.run t₀ pre = some (u, cs) ∧ u.mStandbyWork ≠ none

theorem OnOverStandby.snoc {t₀ : AppTask} {es : List TaskEvent} (h : OnOverStandby t₀ es)
    {e : TaskEvent} (he : targets [e] = []) : OnOverStandby t₀ (es ++ [e]) := by
  obtain ⟨pre, mid, u, cs, rfl, hm, hr, hs⟩ := h
  exact ⟨pre, mid ++ [e], u, cs, by simp, by simp [hm, he], hr, hs⟩

theorem OnOverStandby.lastTarget {t₀ : AppTask} {es : List TaskEvent} (h : OnOverStandby t₀ es) :
    lastTarget es = some true := by
  obtain ⟨pre, mid, u, cs, rfl, hm, -, -⟩ := h
  rw [List.append_cons, lastTarget_append_of_nil _ hm, lastTarget_call]

/-- Where the flag and the standby work come from. -/
structure StandbyCause (t₀ : AppTask) (es : List TaskEvent) (t : AppTask) : Prop where
  flag : t.mPendingOff = true → lastTarget es = some false
  work : t.mStandbyWork ≠ none → lastTarget es = some false ∨ OnOverStandby t₀ es

/-- An event other than a call keeps the cause of what it leaves standing. -/
theorem StandbyCause.snoc {t₀ t u : AppTask} {es : List TaskEvent} {e : TaskEvent}
    (h : StandbyCause t₀ es t) (he : targets [e] = []) (hs : Silent t e u) :
    StandbyCause t₀ (es ++ [e]) u := by
  refine ⟨fun hu => ?_, fun hu => ?_⟩
  · rw [lastTarget_snoc _ he]
    exact h.flag (hs.flag.mp hu).2
  · rw [lastTarget_snoc _ he]
    rcases hs.standby.mp hu with ⟨-, hp⟩ | ⟨-, hw⟩
    · exact .inl (h.flag hp)
    · exact (h.work hw).imp id fun ho => ho.snoc he

theorem standby_cause {t₀ t : AppTask} {es : List TaskEvent} {cs : List PinChange}
    (hb : Booted t₀) (h : task.run t₀ es = some (t, cs)) : StandbyCause t₀ es t := by
  refine Machine.run_induct (motive := fun es _ t => StandbyCause t₀ es t) ?_ ?_ h
  · obtain ⟨uptime, rfl⟩ := booted_iff.mp hb
    exact ⟨fun h => by simp [bootedAt] at h, fun h => by simp [bootedAt] at h⟩
  intro es os t e o u hr ih hs
  obtain ⟨hn, -⟩ := step_iff.mp hs
  rcases call_or_silent e with ⟨a, rfl⟩ | he
  · cases hn
    cases a with
    | true =>
      refine ⟨fun hf => by simp [initiateAction] at hf, fun hw => .inr ?_⟩
      exact ⟨es, [], t, os, by simp, rfl, hr, hw⟩
    | false => exact ⟨fun _ => lastTarget_call es false, fun _ => .inl (lastTarget_call es false)⟩
  · exact ih.snoc he (next_silent he hn)

/-- Every standby press comes with an OFF as the most recent call. -/
def StandbyOnlyForOff (es : List TaskEvent) : Prop :=
  ∀ pre post, es = pre ++ .standbyPulse :: post → lastTarget pre = some false

/-- **The standby button is pressed for an OFF only**, in exactly the runs in
which no ON called while `mStandbyWork` is pending is still the most recent call
when that work expires. -/
theorem standby_only_for_off_iff {t₀ t : AppTask} {es : List TaskEvent} {cs : List PinChange}
    (hb : Booted t₀) (h : task.run t₀ es = some (t, cs)) :
    StandbyOnlyForOff es ↔
      ∀ pre post, es = pre ++ .standbyPulse :: post → ¬ OnOverStandby t₀ pre := by
  refine ⟨fun hoff pre post he ho => ?_, fun hno pre post he => ?_⟩
  · have := hoff pre post he
    rw [ho.lastTarget] at this
    cases this
  · subst he
    obtain ⟨u, _, v, _, _, hpre, hstep, -⟩ := Machine.run_split h
    have hpend := (next_standbyPulse.mp (step_iff.mp hstep).1).1
    exact ((standby_cause hb hpre).work hpend).resolve_right (hno pre post rfl)

/-- An OFF at 0 ms, an ON at 500 ms: the standby work of the OFF is not cancelled
and presses the standby button at 1300 ms. -/
def onDuringStandbyDelay : List TaskEvent :=
  [.sensingPoll ⟨true, 1⟩, .initiateAction false] ++ rounds 3 1 ++ [.controlPulse] ++ rounds 2 1 ++
    [.initiateAction true] ++ rounds 3 1 ++ [.controlPulse] ++ rounds 5 1

theorem onDuringStandbyDelay_runs :
    ∃ t cs, task.run (bootedAt 0) (onDuringStandbyDelay ++ [.standbyPulse]) = some (t, cs) ∧
      task.Along Punctual (bootedAt 0) (onDuringStandbyDelay ++ [.standbyPulse]) :=
  Machine.run_eval (by decide +kernel)

theorem onDuringStandbyDelay_pressed :
    ¬ StandbyOnlyForOff (onDuringStandbyDelay ++ [.standbyPulse]) := fun h =>
  absurd (h onDuringStandbyDelay [] rfl) (by decide +kernel)

theorem standby_pressed_for_on :
    ¬ ∀ t₀ es t cs, Booted t₀ → task.run t₀ es = some (t, cs) → task.Along Punctual t₀ es →
      StandbyOnlyForOff es := by
  intro hall
  obtain ⟨t, cs, hrun, hp⟩ := onDuringStandbyDelay_runs
  exact onDuringStandbyDelay_pressed (hall _ _ _ _ (bootedAt_booted 0) hrun hp)

/-- That press serves an ON called over the pending standby work. -/
theorem onDuringStandbyDelay_cause :
    ¬ ∀ pre post, onDuringStandbyDelay ++ [.standbyPulse] = pre ++ .standbyPulse :: post →
      ¬ OnOverStandby (bootedAt 0) pre := by
  intro h
  obtain ⟨t, cs, hrun, -⟩ := onDuringStandbyDelay_runs
  exact onDuringStandbyDelay_pressed ((standby_only_for_off_iff (bootedAt_booted 0) hrun).mpr h)

/-! ## Whether the last OFF gets its press -/

section silent
variable {t u : AppTask} {es : List TaskEvent} {cs : List PinChange}

/-- Until its control release, a call's pulse stays pending, and `mPendingOff`
stands until a release handler runs. -/
theorem run_before_pulse (hq : targets es = []) (hc : .controlPulse ∉ es)
    (h : task.run t es = some (u, cs)) :
    (u.mPulseWork = none ↔ t.mPulseWork = none) ∧
      (u.mPendingOff = true ↔ .standbyRelease ∉ es ∧ t.mPendingOff = true) := by
  refine Machine.run_induct (motive := fun es _ u => targets es = [] → .controlPulse ∉ es →
    (u.mPulseWork = none ↔ t.mPulseWork = none) ∧
      (u.mPendingOff = true ↔ .standbyRelease ∉ es ∧ t.mPendingOff = true)) ?_ ?_ h hq hc
  · simp
  intro es os u e o v hr ih hs hq hc
  simp only [targets_append, List.append_eq_nil_iff] at hq
  simp only [List.mem_append, List.mem_singleton, not_or] at hc
  obtain ⟨ihp, ihf⟩ := ih hq.1 hc.1
  have hsil := next_silent hq.2 (step_iff.mp hs).1
  refine ⟨?_, ?_⟩
  · rw [hsil.pulse, ihp]
    exact ⟨fun h => h.resolve_left (Ne.symm hc.2), .inr⟩
  · rw [hsil.flag, ihf]
    simp only [List.mem_append, List.mem_singleton, not_or]
    exact ⟨fun h => ⟨⟨h.2.1, Ne.symm h.1⟩, h.2.2⟩, fun h => ⟨Ne.symm h.1.2, h.1.1, h.2⟩⟩

/-- With no control pulse pending and no call, no control release runs and the
standby work runs at most once: if it is pending and then no more, it ran. -/
theorem run_after_pulse (hq : targets es = []) (hp : t.mPulseWork = none)
    (h : task.run t es = some (u, cs)) :
    .controlPulse ∉ es ∧ u.mPulseWork = none ∧
      (u.mStandbyWork ≠ none → t.mStandbyWork ≠ none) ∧
      (.standbyPulse ∈ es → t.mStandbyWork ≠ none) ∧
      (t.mStandbyWork ≠ none → .standbyPulse ∉ es → u.mStandbyWork ≠ none) := by
  refine Machine.run_induct (motive := fun es _ u => targets es = [] →
    .controlPulse ∉ es ∧ u.mPulseWork = none ∧
      (u.mStandbyWork ≠ none → t.mStandbyWork ≠ none) ∧
      (.standbyPulse ∈ es → t.mStandbyWork ≠ none) ∧
      (t.mStandbyWork ≠ none → .standbyPulse ∉ es → u.mStandbyWork ≠ none)) ?_ ?_ h hq
  · simp [hp]
  intro es os u e o v hr ih hs hq
  simp only [targets_append, List.append_eq_nil_iff] at hq
  obtain ⟨ihc, ihp, ihb, ihm, ihk⟩ := ih hq.1
  have hsil := next_silent hq.2 (step_iff.mp hs).1
  have hne : e ≠ .controlPulse := fun he => hsil.pulsed he ihp
  simp only [List.mem_append, List.mem_singleton, not_or]
  refine ⟨⟨ihc, Ne.symm hne⟩, hsil.pulse.mpr (.inr ihp), fun hv => ?_, fun hm => ?_, fun ht hm => ?_⟩
  · rcases hsil.standby.mp hv with ⟨he, -⟩ | ⟨-, hu⟩
    · exact absurd he hne
    · exact ihb hu
  · rcases hm with hm | hm
    · exact ihm hm
    · exact ihb (hsil.pressed hm.symm)
  · exact hsil.standby.mpr (.inr ⟨Ne.symm hm.2, ihk ht hm.1⟩)

end silent

/-- The control release that ends the last call's pulse, and a standby press after it. -/
def OffCompletes (rest : List TaskEvent) : Prop :=
  ∃ before after, rest = before ++ .controlPulse :: after ∧ .standbyPulse ∈ after

/-- When the control release of the last call runs, no release of an earlier OFF
has run since the call, or a standby work is still pending. -/
def KeepsPendingOff (t₀ : AppTask) (es rest : List TaskEvent) : Prop :=
  ∀ before after u cs, rest = before ++ .controlPulse :: after →
    task.run t₀ (es ++ .initiateAction false :: before) = some (u, cs) →
      .standbyRelease ∉ before ∨ u.mStandbyWork ≠ none

/-- An OFF that is not superseded has one control release, and its standby press
follows if `mPendingOff` has outlived the pulse or a standby work is pending. -/
theorem off_release {s t : AppTask} {rest : List TaskEvent} {cs : List PinChange}
    (h : task.run (s.initiateAction false) rest = some (t, cs)) (hlast : targets rest = [])
    (hpulse : t.mPulseWork = none) (hstandby : t.mStandbyWork = none) :
    ∃ before after v os, rest = before ++ .controlPulse :: after ∧
      .controlPulse ∉ before ∧ .controlPulse ∉ after ∧
        task.run (s.initiateAction false) before = some (v, os) ∧
          (.standbyPulse ∈ after ↔ .standbyRelease ∉ before ∨ v.mStandbyWork ≠ none) := by
  have hmem : .controlPulse ∈ rest := by
    by_contra hc
    exact initiateAction_pulse s false ((run_before_pulse hlast hc h).1.mp hpulse)
  obtain ⟨before, after, rfl, hbefore⟩ := List.eq_append_cons_of_mem hmem
  obtain ⟨v, os, v', _, _, hv, hpul, hafter, -⟩ := Machine.run_split h
  simp only [targets_append, List.append_eq_nil_iff] at hlast
  have hqb : targets before = [] := hlast.1
  have hqa : targets after = [] := hlast.2
  have hsil := next_silent (e := .controlPulse) rfl (step_iff.mp hpul).1
  have hflag := (run_before_pulse hqb hbefore hv).2
  obtain ⟨hnc, -, -, hm, hk⟩ := run_after_pulse hqa (hsil.pulse.mpr (.inl rfl)) hafter
  have hpress : .standbyPulse ∈ after ↔ v'.mStandbyWork ≠ none :=
    ⟨hm, fun hv' => by_contra fun hn => hk hv' hn hstandby⟩
  have hsched : v'.mStandbyWork ≠ none ↔ .standbyRelease ∉ before ∨ v.mStandbyWork ≠ none := by
    rw [hsil.standby, hflag]
    simp [initiateAction]
  exact ⟨before, after, v, os, rfl, hbefore, hnc, hv, hpress.trans hsched⟩

/-- **The last OFF of a run gets its standby press**, once all works have run,
in exactly the runs in which the release of an earlier OFF does not come between
the call and its control release, or leaves a standby work pending there. -/
theorem off_completes_iff {t₀ t : AppTask} {es rest : List TaskEvent} {cs : List PinChange}
    (h : task.run t₀ (es ++ .initiateAction false :: rest) = some (t, cs))
    (hlast : targets rest = []) (hdone : ¬ t.WorkPending) :
    OffCompletes rest ↔ KeepsPendingOff t₀ es rest := by
  simp only [WorkPending, not_or, not_not] at hdone
  obtain ⟨s, os, s', o, _, hpre, hcall, hrest, -⟩ := Machine.run_split h
  obtain rfl : s' = s.initiateAction false := by simpa using (step_iff.mp hcall).1.symm
  obtain ⟨before, after, v, _, rfl, hbefore, hnc, hv, hpress⟩ :=
    off_release hrest hlast hdone.1 hdone.2.1
  have hrun : task.run t₀ (es ++ .initiateAction false :: before) = some (v, os ++ (o ++ _)) :=
    Machine.run_append_iff.mpr ⟨s, os, _, hpre,
      Machine.run_cons_iff.mpr ⟨s.initiateAction false, o, _, hcall, hv, rfl⟩, rfl⟩
  -- the control release runs once, so the split around it is the only one
  have huniq : ∀ b a, before ++ .controlPulse :: after = b ++ .controlPulse :: a →
      b = before ∧ a = after := fun b a he => by
    obtain ⟨h1, -, h2⟩ := (List.append_cons_inj_of_notMem hbefore hnc).mp he
    exact ⟨h1.symm, h2.symm⟩
  refine ⟨?_, fun hkeep => ?_⟩
  · rintro ⟨b', a', he, hin⟩ b a u cs' he' hr
    obtain ⟨rfl, rfl⟩ := huniq b' a' he
    obtain ⟨rfl, rfl⟩ := huniq b a he'
    rw [hrun] at hr
    cases hr
    exact hpress.mp hin
  · exact ⟨before, after, rfl, hpress.mpr (hkeep before after v _ rfl hrun)⟩

/-- Two OFFs, at 0 ms and at 1400 ms while the standby pin of the first is LOW. -/
def offDuringStandbyPulse : List TaskEvent :=
  [.sensingPoll ⟨true, 1⟩, .initiateAction false] ++ rounds 3 1 ++ [.controlPulse] ++ rounds 10 1 ++
    [.standbyPulse] ++ rounds 1 1

/-- The first OFF's release comes at 1600 ms, before the second's control release. -/
def offReleasedEarly : List TaskEvent :=
  rounds 2 1 ++ [.standbyRelease] ++ rounds 1 1 ++ [.controlPulse]

theorem offReleasedEarly_runs :
    ∃ t cs, task.run (bootedAt 0) (offDuringStandbyPulse ++ .initiateAction false :: offReleasedEarly)
        = some (t, cs) ∧ ¬ t.WorkPending ∧
      task.Along Punctual (bootedAt 0)
        (offDuringStandbyPulse ++ .initiateAction false :: offReleasedEarly) :=
  Machine.run_eval (by decide +kernel)

theorem offReleasedEarly_unpressed : ¬ OffCompletes offReleasedEarly := by
  rintro ⟨before, after, he, hin⟩
  have hmem : .standbyPulse ∈ offReleasedEarly := by
    rw [he]
    exact List.mem_append_right _ (List.mem_cons_of_mem _ hin)
  exact absurd hmem (by decide +kernel)

theorem off_loses_standby_press :
    ¬ ∀ t₀ es rest t cs, Booted t₀ →
      task.run t₀ (es ++ .initiateAction false :: rest) = some (t, cs) →
      task.Along Punctual t₀ (es ++ .initiateAction false :: rest) →
      targets rest = [] → ¬ t.WorkPending → OffCompletes rest := by
  intro hall
  obtain ⟨t, cs, hrun, hdone, hp⟩ := offReleasedEarly_runs
  exact offReleasedEarly_unpressed
    (hall _ _ _ _ _ (bootedAt_booted 0) hrun hp (by decide +kernel) hdone)

/-- The first OFF's release has cleared `mPendingOff` of the second. -/
theorem offReleasedEarly_cause :
    ¬ KeepsPendingOff (bootedAt 0) offDuringStandbyPulse offReleasedEarly := by
  intro h
  obtain ⟨t, cs, hrun, hdone, -⟩ := offReleasedEarly_runs
  exact offReleasedEarly_unpressed ((off_completes_iff hrun (by decide +kernel) hdone).mpr h)

end ThreadSwitch.Heater
