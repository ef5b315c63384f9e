import ThreadSwitch.Matter.Sync

/-!
# A command from rest

`call_served` puts the halves together: a command that starts with no action running and no
lambda queued, and is followed by no other, presses the buttons as its script says, once. The
feedback calls for nothing more, and the first lambda that runs sets the attribute to the
target, where it stays. What this takes of the sense pin is that no poll after the action
finds the command outvoted.
-/

namespace ThreadSwitch.Matter

open ThreadSwitch.Zephyr ThreadSwitch.Lib ThreadSwitch.Heater

/-- After `fs` and `os` nothing more was called. What is queued will set the attribute to
`target`, and was queued with the action over and the vote at `target`. -/
structure Follows (d₁ : Device) (target : Bool) (fs : List DeviceEvent) (os : List TaskEvent)
    (u : Device) : Prop where
  uncalled : targets os = []
  queue : ∀ lambda ∈ u.lambdas, lambda = .sync target
  settled : u.lambdas ≠ [] → u.task.mIsPulsing = false ∧ u.task.mVotedIsOn = target
  onOff : u.onOff = if .runLambda ∈ fs then target else d₁.onOff

/-- During an action nothing is scheduled. -/
theorem scheduled_pulsing {t : AppTask} {e : TaskEvent} (hp : t.mIsPulsing = true) :
    scheduled t e = [] := by
  cases e with
  | sensingPoll read =>
    unfold scheduled AppTask.sensingPollHandler
    cases hr : read.ready <;> simp [hp, hr]
  | _ => rfl

section call
variable {d₀ d d₁ u u' : Device} {es fs : List DeviceEvent} {calls os o : List TaskEvent}
  {e call : DeviceEvent} {target : Bool}

/-- A poll after the action finds the vote at the target. -/
theorem confirmed_vote (hb : DeviceBooted d₀) (h : device.run d₀ es = some (d, calls))
    (hcall : device.step d call = some (d₁, [.initiateAction target]))
    (hf : device.run d₁ fs = some (u, os)) (hq : targets os = []) {read : SenseRead}
    (hs : device.step u (.work (.sensingPoll read)) = some (u', o)) (hr : read.ready = true)
    (hidle : u.task.mIsPulsing = false) (hc : ¬ Outvotes target u os read) :
    u'.task.mVotedIsOn = target := by
  obtain ⟨-, -, -, -, rfl⟩ := step_work hs
  have hrun := Machine.run_snoc_iff.mpr ⟨u, os, _, hf, hs, rfl⟩
  have hvote := voted_since_call hb h hcall hrun (by rw [targets_append, hq]; rfl)
  by_contra hne
  exact hc ⟨hr, hidle, hvote.mp (Bool.eq_not.mpr hne)⟩

theorem follows_next (hb : DeviceBooted d₀) (h : device.run d₀ es = some (d, calls))
    (hcall : device.step d call = some (d₁, [.initiateAction target]))
    (hf : device.run d₁ fs = some (u, os)) (hc : PollsConfirm d₁ target (fs ++ [e]))
    (hu : Undisturbed u e) (hfollows : Follows d₁ target fs os u)
    (hs : device.step u e = some (u', o)) : Follows d₁ target (fs ++ [e]) (os ++ o) u' := by
  obtain ⟨hq, hqueue, hsettled, hon⟩ := hfollows
  cases e with
  | work e =>
    obtain ⟨he, ht, hon', hl, rfl⟩ := step_work hs
    have hq' : targets (os ++ [e]) = [] := by rw [targets_append, hq, he]; rfl
    have hon' : u'.onOff = if .runLambda ∈ fs ++ [.work e] then target else d₁.onOff := by
      simpa [hon'] using hon
    have hstays : u.task.mIsPulsing = false → u'.task.mIsPulsing = false := fun hidle =>
      Bool.eq_false_iff.mpr fun hraised => by simpa [hidle] using (next_silent he ht).raised hraised
    rcases call_or_sample e with ⟨a, rfl⟩ | ⟨read, rfl, hr⟩ | hunsensed
    · cases he
    · cases hidle : u.task.mIsPulsing with
      | true =>
        -- nothing can be queued before the action is over
        have hempty : u.lambdas = [] := by
          by_contra hne
          rw [(hsettled hne).1] at hidle
          cases hidle
        rw [scheduled_pulsing hidle, hempty] at hl
        exact ⟨hq', by simp [hl], by simp [hl], hon'⟩
      | false =>
        have hvote := confirmed_vote hb h hcall hf hq hs hr hidle (hc fs read [] u os rfl hf)
        rw [scheduled_sample ht hr hidle, hvote] at hl
        refine ⟨hq', fun lambda hmem => ?_, fun _ => ⟨hstays hidle, hvote⟩, hon'⟩
        rw [hl, List.mem_append, List.mem_singleton] at hmem
        exact hmem.elim (hqueue lambda) id
    · rw [scheduled_unsensed hunsensed, List.append_nil] at hl
      refine ⟨hq', by rw [hl]; exact hqueue, ?_, hon'⟩
      rw [hl, (unsensed_next hunsensed ht).2]
      exact fun hne => ⟨hstays (hsettled hne).1, (hsettled hne).2⟩
  | remote value =>
    obtain ⟨rfl, rfl⟩ := remote_undisturbed hu hs
    rw [List.append_nil]
    exact ⟨hq, hqueue, hsettled, by simpa using hon⟩
  | buttons state hasChanged =>
    obtain ⟨rfl, rfl⟩ := buttons_undisturbed hu hs
    rw [List.append_nil]
    exact ⟨hq, hqueue, hsettled, by simpa using hon⟩
  | runLambda =>
    rcases step_runLambda hs with ⟨v, rest, hl, hset⟩ | ⟨rest, hl, -⟩
    · obtain ⟨hidle, hvote⟩ := hsettled (by simp [hl])
      have hv : v = target := by simpa using hqueue (.sync v) (by simp [hl])
      have hwrite := setOnOff_voted { u with lambdas := rest }
      rw [show ({ u with lambdas := rest } : Device).task.mVotedIsOn = v from hvote.trans hv.symm,
        hset] at hwrite
      cases hwrite
      rw [List.append_nil]
      refine ⟨hq, fun lambda hmem => hqueue lambda ?_, fun _ => ⟨hidle, hvote⟩, by simp [hv]⟩
      rw [hl]
      exact List.mem_cons_of_mem _ hmem
    · have := hqueue .button (by simp [hl])
      cases this

theorem run_follows (hb : DeviceBooted d₀) (h : device.run d₀ es = some (d, calls))
    (hcall : device.step d call = some (d₁, [.initiateAction target])) (hempty : d₁.lambdas = [])
    (hu : device.Along Undisturbed d₁ fs) (hc : PollsConfirm d₁ target fs)
    (hf : device.run d₁ fs = some (u, os)) : Follows d₁ target fs os u := by
  refine Machine.run_induct (motive := fun fs os u => device.Along Undisturbed d₁ fs →
    PollsConfirm d₁ target fs → Follows d₁ target fs os u) ?_ ?_ hf hu hc
  · exact fun _ _ => ⟨rfl, by simp [hempty], by simp [hempty], by simp⟩
  · intro fs os u e o u' hrun ih hs hu hc
    obtain ⟨hpre, hlast⟩ := Machine.along_snoc.mp hu
    have hfollows := ih hpre fun pre read post w ws hsplit hw =>
      hc pre read (post ++ [e]) w ws (by rw [hsplit]; simp) hw
    exact follows_next hb h hcall hrun hc (hlast u os hrun) hfollows hs

end call

/-- Without another call there is never more than one at a time. -/
theorem oneAtATime_of_uncalled {t : AppTask} {os : List TaskEvent} (hq : targets os = []) :
    task.Along OneAtATime t os := by
  refine Machine.along_iff.mpr ?_
  rintro pre e post u cs rfl -
  cases e with
  | initiateAction a => simp at hq
  | _ => trivial

/-- **A command from rest is served, once.** It starts with no action running, both pins Hi-Z
and no lambda queued. Then the pins change as its script says and no other way, the feedback
calls for nothing, and the attribute is the target from the first lambda on. -/
theorem call_served {d₀ d d₁ u : Device} {es fs : List DeviceEvent} {calls os : List TaskEvent}
    {call : DeviceEvent} {target : Bool} (hb : DeviceBooted d₀)
    (h : device.run d₀ es = some (d, calls)) (hquiet : d.task.Quiet)
    (hidle : d.task.mIsPulsing = false)
    (hcall : device.step d call = some (d₁, [.initiateAction target])) (hempty : d₁.lambdas = [])
    (hu : device.Along Undisturbed d₁ fs) (hc : PollsConfirm d₁ target fs)
    (hf : device.run d₁ fs = some (u, os)) :
    targets os = [] ∧ u.onOff = (if .runLambda ∈ fs then target else d₁.onOff) ∧
      ∃ changes todo, task.run d.task (.initiateAction target :: os) = some (u.task, changes) ∧
        changes ++ todo = presses target ∧ (u.task.mIsPulsing = true ↔ todo ≠ []) := by
  have hfollows := run_follows hb h hcall hempty hu hc hf
  obtain ⟨changes, hrun⟩ := device_drives_task.run
    (Machine.run_cons_iff.mpr ⟨d₁, _, os, hcall, hf, rfl⟩)
  have hone : task.Along OneAtATime d.task (.initiateAction target :: os) :=
    ⟨hidle, fun _ _ => oneAtATime_of_uncalled hfollows.uncalled⟩
  obtain ⟨todo, hserial, hserves⟩ := task_simulates_serial.run (.idle hquiet hidle) hone hrun
  have hpresses := (serial_run hserial).1
  rw [starts_serialEvents] at hpresses
  refine ⟨hfollows.uncalled, hfollows.onOff, changes, todo, hrun, ?_, hserves.pulsing_iff⟩
  rw [hpresses, targets_initiateAction, hfollows.uncalled]
  exact List.append_nil _

theorem onAtOnce_served :
    ∃ u os changes todo, device.run onAtOnce twoHigh = some (u, os) ∧ u.onOff = true ∧
      task.run (bootedAt 0) (.initiateAction true :: os) = some (u.task, changes) ∧
        changes ++ todo = presses true := by
  obtain ⟨u, os, hrun, hu⟩ : ∃ u os, device.run onAtOnce twoHigh = some (u, os) ∧
      device.Along Undisturbed onAtOnce twoHigh := Machine.run_eval (by decide +kernel)
  obtain ⟨-, hon, changes, todo, htask, hpresses, -⟩ :=
    call_served ⟨bootedAt_booted 0, rfl⟩ (Machine.run_nil _) ⟨rfl, rfl, rfl, rfl, rfl⟩ rfl
      onAtOnce_called rfl hu twoHigh_confirms hrun
  exact ⟨u, os, changes, todo, hrun, hon, htask, hpresses⟩

end ThreadSwitch.Matter
