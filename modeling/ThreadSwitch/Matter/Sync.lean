import ThreadSwitch.Matter.Device

/-!
# The attribute follows the vote

- `prompt_sync`: where each poll's lambda runs before the next poll, the feedback
  loop never actuates the heater, and the attribute settles on what the pin reads.
- `no_lag_revert`: after a call that agrees with the attribute, the attribute is
  set back exactly by the polls that find that call outvoted while no action is
  running; three HIGH samples are enough after an ON.
-/

namespace ThreadSwitch.Matter

open ThreadSwitch.Zephyr ThreadSwitch.Lib ThreadSwitch.Heater

section scheduled
variable {t u : AppTask} {e : TaskEvent}

theorem scheduled_sample {read : SenseRead} (h : t.next (.sensingPoll read) = some u)
    (hr : read.ready = true) (hp : t.mIsPulsing = false) :
    scheduled t (.sensingPoll read) = [.sync u.mVotedIsOn] := by
  obtain ⟨-, rfl⟩ := next_sensingPoll.mp h
  unfold scheduled AppTask.sensingPollHandler
  simp [hr, hp]

theorem scheduled_unsensed (he : Unsensed e) : scheduled t e = [] := by
  cases e with
  | sensingPoll read =>
    unfold scheduled AppTask.sensingPollHandler
    simp [he.2 read rfl]
  | _ => rfl

end scheduled

/-- A write of the vote changes nothing but the attribute. -/
theorem setOnOff_voted (d : Device) :
    d.setOnOff d.task.mVotedIsOn = ({ d with onOff := d.task.mVotedIsOn }, []) := by
  rw [setOnOff_eq]
  by_cases h : d.onOff = d.task.mVotedIsOn
  · rw [if_pos h, ← h]
  · rw [if_neg h, if_pos rfl]

/-! ## Prompt delivery -/

/-- No remote change and no press of the button. -/
def Undisturbed (d : Device) : DeviceEvent → Prop
  | .remote value => value = d.onOff
  | .buttons state hasChanged => (Device.dkBtn2Msk &&& hasChanged) &&& state = 0#32
  | .work _ | .runLambda => True

instance (d : Device) : ∀ e, Decidable (Undisturbed d e)
  | .work _ | .runLambda => isTrue trivial
  | .remote value => inferInstanceAs (Decidable (value = d.onOff))
  | .buttons state hasChanged =>
    inferInstanceAs (Decidable ((Device.dkBtn2Msk &&& hasChanged) &&& state = 0#32))

/-- A poll finds the pin ready, reads a bit, and comes only when the lambda of the poll
before it has run. -/
def PollsDrained (d : Device) (e : DeviceEvent) : Prop :=
  ∀ read, e = .work (.sensingPoll read) →
    read.ready = true ∧ (read.raw = 0 ∨ read.raw = 1) ∧ d.lambdas = []

instance (d : Device) : ∀ e, Decidable (PollsDrained d e)
  | .work (.sensingPoll read) =>
    decidable_of_iff (read.ready = true ∧ (read.raw = 0 ∨ read.raw = 1) ∧ d.lambdas = [])
      ⟨fun h _ he => by cases he; exact h, fun h => h read rfl⟩
  | .work (.initiateAction _) | .work .controlPulse | .work .standbyPulse | .work .standbyRelease
  | .work (.elapse _) | .remote _ | .buttons _ _ | .runLambda => isTrue nofun

/-- Nothing else asks for an action, and each poll comes when the one before it is done. -/
def Prompt (d : Device) (e : DeviceEvent) : Prop := Undisturbed d e ∧ PollsDrained d e

instance (d : Device) (e : DeviceEvent) : Decidable (Prompt d e) :=
  inferInstanceAs (Decidable (_ ∧ _))

section undisturbed
variable {d d' : Device} {o : List TaskEvent}

/-- The callback finds the attribute as it is. -/
theorem remote_undisturbed {value : Bool} (hu : Undisturbed d (.remote value))
    (h : device.step d (.remote value) = some (d', o)) : d' = d ∧ o = [] := by
  have hset := Option.some.inj h
  rw [setOnOff_eq, if_pos (Eq.symm hu)] at hset
  cases hset
  exact ⟨rfl, rfl⟩

theorem buttons_undisturbed {state hasChanged : BitVec 32}
    (hu : Undisturbed d (.buttons state hasChanged))
    (h : device.step d (.buttons state hasChanged) = some (d', o)) : d' = d ∧ o = [] := by
  have hnone : (Device.dkBtn2Msk &&& hasChanged) &&& state = 0#32 := hu
  simp only [device, Device.buttonEventHandler, hnone, ne_eq, not_true_eq_false, if_false] at h
  cases h
  exact ⟨rfl, rfl⟩

end undisturbed

/-- No action is running, and after `reads` the attribute is the vote, or will be
when the only lambda queued has run. -/
structure Synced (d : Device) (reads : List Int) : Prop where
  idle : d.task.mIsPulsing = false
  bits : ∀ raw ∈ reads, raw = 0 ∨ raw = 1
  follows : d.lambdas = [.sync d.task.mVotedIsOn] ∨
    (d.lambdas = [] ∧ (reads ≠ [] → d.onOff = d.task.mVotedIsOn))

section prompt
variable {d d' : Device} {e : DeviceEvent} {o : List TaskEvent}

/-- The lambda that runs is that of the last poll: it writes the vote. -/
theorem Synced.runLambda {reads : List Int} (hs : Synced d reads)
    (h : device.step d .runLambda = some (d', o)) :
    d' = { d with lambdas := [], onOff := d.task.mVotedIsOn } ∧ o = [] := by
  rcases hs.follows with hl | ⟨hl, -⟩
  · rw [step_sync hl] at h
    have hset := setOnOff_voted { d with lambdas := [] }
    rw [hset] at h
    cases h
    exact ⟨rfl, rfl⟩
  · simp [device, hl] at h

theorem synced_next {os : List TaskEvent} (hs : Synced d (readsSince os)) (hp : Prompt d e)
    (h : device.step d e = some (d', o)) : targets o = [] ∧ Synced d' (readsSince (os ++ o)) := by
  cases e with
  | work e =>
    obtain ⟨he, ht, hon, hl, rfl⟩ := step_work h
    have hidle : d'.task.mIsPulsing = false :=
      Bool.eq_false_iff.mpr fun hraised => by simpa [hs.idle] using (next_silent he ht).raised hraised
    refine ⟨he, ?_⟩
    rcases call_or_sample e with ⟨a, rfl⟩ | ⟨read, rfl, hr⟩ | hu
    · cases he
    · obtain ⟨-, hbit, hempty⟩ := hp.2 read rfl
      rw [hempty, scheduled_sample ht hr hs.idle] at hl
      refine ⟨hidle, fun raw hraw => ?_, .inl hl⟩
      simp only [readsSince_snoc, hr, if_true, List.mem_append, List.mem_singleton] at hraw
      rcases hraw with hraw | rfl
      · exact hs.bits raw hraw
      · exact hbit
    · rw [scheduled_unsensed hu, List.append_nil] at hl
      rw [readsSince_unsensed os hu]
      refine ⟨hidle, hs.bits, ?_⟩
      rw [hl, hon, (unsensed_next hu ht).2]
      exact hs.follows
  | remote value =>
    obtain ⟨rfl, rfl⟩ := remote_undisturbed hp.1 h
    rw [List.append_nil]
    exact ⟨rfl, hs⟩
  | buttons state hasChanged =>
    obtain ⟨rfl, rfl⟩ := buttons_undisturbed hp.1 h
    rw [List.append_nil]
    exact ⟨rfl, hs⟩
  | runLambda =>
    obtain ⟨rfl, rfl⟩ := hs.runLambda h
    rw [List.append_nil]
    exact ⟨rfl, hs.idle, hs.bits, .inr ⟨rfl, fun _ => rfl⟩⟩

theorem run_synced {fs : List DeviceEvent} {os : List TaskEvent} (hidle : d.task.mIsPulsing = false)
    (hempty : d.lambdas = []) (hp : device.Along Prompt d fs) (h : device.run d fs = some (d', os)) :
    targets os = [] ∧ Synced d' (readsSince os) := by
  refine Machine.run_induct (motive := fun fs os d' => device.Along Prompt d fs →
    targets os = [] ∧ Synced d' (readsSince os)) (fun _ => ?_) ?_ h hp
  · exact ⟨rfl, hidle, by simp [readsSince], .inr ⟨hempty, by simp [readsSince]⟩⟩
  · intro fs os u e o u' hrun ih hs hp
    obtain ⟨hpre, hlast⟩ := Machine.along_snoc.mp hp
    obtain ⟨hq, hsync⟩ := ih hpre
    obtain ⟨hqo, hsync'⟩ := synced_next hsync (hlast u os hrun) hs
    exact ⟨by rw [targets_append, hq, hqo]; rfl, hsync'⟩

end prompt

/-- **With prompt delivery the sync is quiet and converges.** From any state that is
idle with no lambda queued, `InitiateAction` is never called, every lambda leaves the
attribute equal to the vote, and ten polls that all read one value settle the
attribute: ON for 0, OFF for 1. -/
theorem prompt_sync {d₀ d u : Device} {es fs : List DeviceEvent} {calls os : List TaskEvent}
    (hb : DeviceBooted d₀) (h : device.run d₀ es = some (d, calls))
    (hidle : d.task.mIsPulsing = false) (hempty : d.lambdas = []) (hp : device.Along Prompt d fs)
    (hf : device.run d fs = some (u, os)) :
    targets os = [] ∧
      (∀ pre post v vs, fs = pre ++ .runLambda :: post →
        device.run d (pre ++ [.runLambda]) = some (v, vs) → v.onOff = v.task.mVotedIsOn) ∧
      ∀ value, List.replicate 10 value <:+ readsSince os → u.lambdas = [] →
        (u.onOff = true ↔ value = 0) := by
  obtain ⟨hq, hsync⟩ := run_synced hidle hempty hp hf
  refine ⟨hq, ?_, ?_⟩
  · rintro pre post v vs rfl hrun
    obtain ⟨w, o₁, o₂, hpre, hstep, -⟩ := Machine.run_snoc_iff.mp hrun
    have hw := (run_synced hidle hempty (Machine.along_append.mp hp).1 hpre).2
    obtain ⟨rfl, -⟩ := hw.runLambda hstep
    rfl
  · rintro value ⟨old, hreads⟩ hdone
    have hmem : value ∈ readsSince os := by rw [← hreads]; simp
    have hon : u.onOff = u.task.mVotedIsOn := by
      rcases hsync.follows with hl | ⟨-, hon⟩
      · rw [hdone] at hl; cases hl
      · exact hon (List.ne_nil_of_mem hmem)
    obtain ⟨changes, hrun⟩ := device_drives_task.run (Machine.run_append_iff.mpr ⟨d, _, _, h, hf, rfl⟩)
    rw [hon, run_voted_reads hb.1 hrun, readsSince_append calls hq, ← hreads, ← List.append_assoc,
      ← List.append_assoc, rtake_append_replicate, List.countP_replicate]
    rcases hsync.bits value hmem with rfl | rfl <;> simp

/-- Ten polls that read LOW, each followed by its lambda. -/
def tenLow : List DeviceEvent :=
  (List.replicate 10 [.work (.sensingPoll ⟨true, 0⟩), .runLambda, .work (.elapse 100)]).flatten

theorem tenLow_turns_on :
    ∃ u os, device.run ⟨bootedAt 0, false, []⟩ tenLow = some (u, os) ∧ targets os = [] ∧
      u.onOff = true := by
  obtain ⟨u, os, hrun, hp, hreads, hdone⟩ : ∃ u os,
      device.run ⟨bootedAt 0, false, []⟩ tenLow = some (u, os) ∧
        device.Along Prompt ⟨bootedAt 0, false, []⟩ tenLow ∧
          List.replicate 10 0 <:+ readsSince os ∧ u.lambdas = [] :=
    Machine.run_eval (by decide +kernel)
  obtain ⟨hq, -, hsettles⟩ := prompt_sync ⟨bootedAt_booted 0, rfl⟩ (Machine.run_nil _) rfl rfl hp hrun
  exact ⟨u, os, hrun, hq, (hsettles 0 hreads hdone).mpr rfl⟩

/-! ## After a call -/

section queue
variable {d d' : Device} {e : DeviceEvent} {o : List TaskEvent}

/-- A step takes the oldest lambda off the queue or adds some at its end; a sync
that it adds comes from a poll. -/
theorem lambdas_next (h : device.step d e = some (d', o)) :
    (e = .runLambda ∧ ∃ lambda, d.lambdas = lambda :: d'.lambdas) ∨
      (e ≠ .runLambda ∧ ∃ added, d'.lambdas = d.lambdas ++ added ∧
        ∀ v, .sync v ∈ added → ∃ read, e = .work (.sensingPoll read) ∧ o = [.sensingPoll read] ∧
          read.ready = true ∧ d.task.mIsPulsing = false ∧ v = d'.task.mVotedIsOn) := by
  cases e with
  | work e =>
    obtain ⟨-, ht, -, hl, rfl⟩ := step_work h
    refine .inr ⟨by simp, _, hl, fun v hv => ?_⟩
    rcases call_or_sample e with ⟨a, rfl⟩ | ⟨read, rfl, hr⟩ | hu
    · cases hv
    · obtain ⟨hvote, hidle⟩ := mem_scheduled ht hv
      exact ⟨read, rfl, rfl, hr, hidle, hvote⟩
    · rw [scheduled_unsensed hu] at hv
      cases hv
  | remote value =>
    have hl := setOnOff_lambdas value d
    rw [Option.some.inj h] at hl
    exact .inr ⟨by simp, [], by rw [List.append_nil]; exact hl, by simp⟩
  | buttons state hasChanged =>
    simp only [device, Device.buttonEventHandler] at h
    split at h
    · cases h; exact .inr ⟨by simp, [.button], rfl, by simp⟩
    · cases h; exact .inr ⟨by simp, [], by simp, by simp⟩
  | runLambda =>
    rcases step_runLambda h with ⟨v, rest, hl, hset⟩ | ⟨rest, hl, rfl, -⟩
    · have hr : d'.lambdas = rest := by
        simpa [hset] using setOnOff_lambdas v { d with lambdas := rest }
      exact .inl ⟨rfl, .sync v, by rw [hl, hr]⟩
    · exact .inl ⟨rfl, _, hl⟩

/-- A poll of `fs`, met with no action running, leaves the vote `v`. -/
def Polled (d₁ : Device) (fs : List DeviceEvent) (v : Bool) : Prop :=
  ∃ pre read post w ws w', fs = pre ++ .work (.sensingPoll read) :: post ∧
    device.run d₁ pre = some (w, ws) ∧
    device.run d₁ (pre ++ [.work (.sensingPoll read)]) = some (w', ws ++ [.sensingPoll read]) ∧
    read.ready = true ∧ w.task.mIsPulsing = false ∧ v = w'.task.mVotedIsOn

theorem Polled.append {d₁ : Device} {fs : List DeviceEvent} {v : Bool} (h : Polled d₁ fs v)
    (gs : List DeviceEvent) : Polled d₁ (fs ++ gs) v := by
  obtain ⟨pre, read, post, w, ws, w', rfl, hrest⟩ := h
  exact ⟨pre, read, post ++ gs, w, ws, w', by simp, hrest⟩

/-- Where the queue comes from: what was queued at the start and has not run yet,
then what was queued since, where every sync is a poll's. -/
theorem queued_since {d₁ u : Device} {fs : List DeviceEvent} {os : List TaskEvent}
    (h : device.run d₁ fs = some (u, os)) :
    ∃ added, u.lambdas = d₁.lambdas.drop (fs.count .runLambda) ++ added ∧
      ∀ v, .sync v ∈ added → Polled d₁ fs v := by
  refine Machine.run_induct (motive := fun fs _ u =>
    ∃ added, u.lambdas = d₁.lambdas.drop (fs.count .runLambda) ++ added ∧
      ∀ v, .sync v ∈ added → Polled d₁ fs v) ⟨[], by simp, by simp⟩ ?_ h
  rintro fs os u e o u' hrun ⟨added, hl, hadded⟩ hs
  rcases lambdas_next hs with ⟨rfl, lambda, hrest⟩ | ⟨hne, more, hmore, hpoll⟩
  · rw [List.count_append, List.count_singleton_self, ← List.drop_drop]
    rw [hl] at hrest
    cases hold : d₁.lambdas.drop (fs.count .runLambda) with
    | nil =>
      rw [hold, List.nil_append] at hrest
      refine ⟨u'.lambdas, rfl, fun v hv => (hadded v ?_).append _⟩
      rw [hrest]
      exact List.mem_cons_of_mem _ hv
    | cons old olds =>
      rw [hold, List.cons_append] at hrest
      exact ⟨added, (List.cons.inj hrest).2.symm, fun v hv => (hadded v hv).append _⟩
  · refine ⟨added ++ more, ?_, fun v hv => ?_⟩
    · have hzero : [e].count .runLambda = 0 := List.count_eq_zero.mpr (by simpa using hne.symm)
      rw [hmore, hl, List.count_append, hzero, Nat.add_zero, List.append_assoc]
    · rcases List.mem_append.mp hv with hv | hv
      · exact (hadded v hv).append _
      · obtain ⟨read, rfl, rfl, hr, hidle, hvote⟩ := hpoll v hv
        exact ⟨fs, read, [], u, os, u', rfl, hrun,
          Machine.run_snoc_iff.mpr ⟨u, os, _, hrun, hs, rfl⟩, hr, hidle, hvote⟩

end queue

/-- No lambda queued since `d₁` sets the attribute away from `target`. -/
def NoRevert (d₁ : Device) (target : Bool) (fs : List DeviceEvent) : Prop :=
  ∀ pre post u os u' o, fs = pre ++ .runLambda :: post → device.run d₁ pre = some (u, os) →
    d₁.lambdas.length ≤ pre.count .runLambda → device.step u .runLambda = some (u', o) →
      u.onOff = target → u'.onOff = target

/-- A poll after `os` finds no action running and, with its own sample, `target` outvoted. -/
def Outvotes (target : Bool) (u : Device) (os : List TaskEvent) (read : SenseRead) : Prop :=
  read.ready = true ∧ u.task.mIsPulsing = false ∧
    Outvoted (!target) (samplesSince (os ++ [.sensingPoll read]))

/-- No poll of `fs` finds `target` outvoted. -/
def PollsConfirm (d₁ : Device) (target : Bool) (fs : List DeviceEvent) : Prop :=
  ∀ pre read post u os, fs = pre ++ .work (.sensingPoll read) :: post →
    device.run d₁ pre = some (u, os) → ¬ Outvotes target u os read

section call
variable {d₀ d d₁ : Device} {es : List DeviceEvent} {calls : List TaskEvent} {e : DeviceEvent}
  {target : Bool}

/-- The vote after a call turns against it exactly when the samples since outvoted it. -/
theorem voted_since_call (hb : DeviceBooted d₀) (h : device.run d₀ es = some (d, calls))
    (hcall : device.step d e = some (d₁, [.initiateAction target])) {fs : List DeviceEvent}
    {u : Device} {os : List TaskEvent} (hf : device.run d₁ fs = some (u, os)) (hq : targets os = []) :
    u.task.mVotedIsOn = !target ↔ Outvoted (!target) (samplesSince os) := by
  have hall : device.run d₀ (es ++ e :: fs) = some (u, calls ++ .initiateAction target :: os) :=
    Machine.run_append_iff.mpr
      ⟨d, calls, _, h, Machine.run_cons_iff.mpr ⟨d₁, _, os, hcall, hf, rfl⟩, rfl⟩
  obtain ⟨changes, hrun⟩ := device_drives_task.run hall
  have hlast : lastTarget (calls ++ .initiateAction target :: os) = some (!!target) := by
    simp [lastTarget, hq]
  rw [voted_against_iff hb.1 hrun hlast, samplesSince_call]

/-- A poll in a run without another call. -/
theorem poll_in_run {pre post : List DeviceEvent} {read : SenseRead} {u v : Device}
    {os vs : List TaskEvent}
    (hf : device.run d₁ (pre ++ .work (.sensingPoll read) :: post) = some (u, os))
    (hq : targets os = []) (hpre : device.run d₁ pre = some (v, vs)) :
    ∃ v', device.step v (.work (.sensingPoll read)) = some (v', [.sensingPoll read]) ∧
      targets (vs ++ [.sensingPoll read]) = [] := by
  obtain ⟨v', o, o₂, hpoll, -, rfl⟩ := Machine.run_split_of hf hpre
  obtain ⟨-, -, -, -, rfl⟩ := step_work hpoll
  rw [← List.append_assoc, targets_append, List.append_eq_nil_iff] at hq
  exact ⟨v', hpoll, hq.1⟩

/-- A sync queued since the call carries its target. -/
theorem polled_target (hb : DeviceBooted d₀) (h : device.run d₀ es = some (d, calls))
    (hcall : device.step d e = some (d₁, [.initiateAction target])) {fs : List DeviceEvent}
    {u : Device} {os : List TaskEvent} (hf : device.run d₁ fs = some (u, os)) (hq : targets os = [])
    (hc : PollsConfirm d₁ target fs) {v : Bool} (hv : Polled d₁ fs v) : v = target := by
  obtain ⟨pre, read, post, w, ws, w', rfl, hpre, hpoll, hr, hidle, rfl⟩ := hv
  obtain ⟨-, -, hws⟩ := poll_in_run hf hq hpre
  have hvote := voted_since_call hb h hcall hpoll hws
  by_contra hne
  exact hc pre read post w ws rfl hpre ⟨hr, hidle, hvote.mp (Bool.eq_not.mpr hne)⟩

/-- **No lag-revert** after a call, as long as no poll that finds no action running finds
the call outvoted by the samples since; and any such poll, met with the attribute at the
target and no lambda queued, sets the attribute back with its lambda. -/
theorem no_lag_revert {fs : List DeviceEvent} {u : Device} {os : List TaskEvent}
    (hb : DeviceBooted d₀) (h : device.run d₀ es = some (d, calls))
    (hcall : device.step d e = some (d₁, [.initiateAction target]))
    (hf : device.run d₁ fs = some (u, os)) (hq : targets os = []) :
    (PollsConfirm d₁ target fs → NoRevert d₁ target fs) ∧
      ∀ pre read post v vs, fs = pre ++ .work (.sensingPoll read) :: post →
        device.run d₁ pre = some (v, vs) → Outvotes target v vs read → v.onOff = target →
          v.lambdas = [] → ¬ NoRevert d₁ target (pre ++ [.work (.sensingPoll read), .runLambda]) := by
  refine ⟨?_, ?_⟩
  · rintro hc pre post w ws w' o rfl hpre hcount hrun hon
    obtain ⟨added, hl, hadded⟩ := queued_since hpre
    rw [List.drop_eq_nil_of_le hcount, List.nil_append] at hl
    rcases step_runLambda hrun with ⟨v, rest, hv, hset⟩ | ⟨rest, -, rfl, -⟩
    · have hmem : .sync v ∈ added := by rw [← hl, hv]; exact List.mem_cons_self ..
      have hw' := setOnOff_onOff v { w with lambdas := rest }
      rw [hset] at hw'
      exact hw'.trans (polled_target hb h hcall hf hq hc ((hadded v hmem).append _))
    · exact hon
  · rintro pre read post v vs rfl hpre ⟨hr, hidle, hout⟩ hon hempty hno
    obtain ⟨v', hpoll, hvs⟩ := poll_in_run hf hq hpre
    obtain ⟨-, ht, hon', hl, -⟩ := step_work hpoll
    have hrun : device.run d₁ (pre ++ [.work (.sensingPoll read)]) =
        some (v', vs ++ [.sensingPoll read]) :=
      Machine.run_snoc_iff.mpr ⟨v, vs, _, hpre, hpoll, rfl⟩
    have hvote : v'.task.mVotedIsOn = !target := (voted_since_call hb h hcall hrun hvs).mpr hout
    rw [hempty, scheduled_sample ht hr hidle, hvote] at hl
    have hcount : d₁.lambdas.length ≤
        (pre ++ [DeviceEvent.work (.sensingPoll read)]).count .runLambda := by
      obtain ⟨added, hq, -⟩ := queued_since hpre
      rw [hempty] at hq
      rw [List.count_append]
      exact Nat.le_add_right_of_le (List.drop_eq_nil_iff.mp (List.append_eq_nil_iff.mp hq.symm).1)
    obtain ⟨w, o, hlambda, hback⟩ : ∃ w o, device.step v' .runLambda = some (w, o) ∧
        w.onOff = !target := ⟨_, _, step_sync hl, setOnOff_onOff ..⟩
    have hkept := hno (pre ++ [.work (.sensingPoll read)]) [] v' _ w o (by simp) hrun hcount hlambda
      (hon'.trans hon)
    rw [hback] at hkept
    simp at hkept

end call

/-- A remote ON at 0 ms, right after `Init`. -/
def onAtOnce : Device := ⟨(bootedAt 0).initiateAction true, true, []⟩

/-- Two HIGH polls, one of them after the control pulse. -/
def twoHigh : List DeviceEvent :=
  [.work (.sensingPoll ⟨true, 1⟩), .work .controlPulse, .work (.sensingPoll ⟨true, 1⟩), .runLambda]

theorem onAtOnce_called :
    device.step ⟨bootedAt 0, false, []⟩ (.remote true) = some (onAtOnce, [.initiateAction true]) :=
  rfl

theorem twoHigh_confirms : PollsConfirm onAtOnce true twoHigh := by
  rintro pre read post u os hsplit hrun ⟨-, -, hout⟩
  obtain ⟨hpre, rfl⟩ : (pre = [] ∨ pre = twoHigh.take 2) ∧ read = ⟨true, 1⟩ := by
    simp [twoHigh, List.cons_eq_append_iff] at hsplit
    rcases hsplit with ⟨rfl, rfl, -⟩ | ⟨rfl, rfl, -⟩ <;> simp [twoHigh]
  rcases hpre with rfl | rfl
  · cases hrun
    exact absurd hout (by decide)
  · cases hrun
    exact absurd hout (by decide)

theorem twoHigh_no_revert : NoRevert onAtOnce true twoHigh := by
  obtain ⟨u, os, hrun, hq⟩ : ∃ u os, device.run onAtOnce twoHigh = some (u, os) ∧ targets os = [] :=
    Machine.run_eval (by decide +kernel)
  exact (no_lag_revert ⟨bootedAt_booted 0, rfl⟩ (Machine.run_nil _) onAtOnce_called hrun hq).1
    twoHigh_confirms

/-- HIGH polls every 100 ms up to 400 ms, the last one after the control pulse. -/
def lagRevert : List DeviceEvent :=
  (.sensingPoll ⟨true, 1⟩ :: rounds 3 1 ++ [TaskEvent.controlPulse] ++ rounds 1 1).map .work

theorem three_high_revert :
    ¬ ∀ d₀ es d calls e d₁ target fs u os, DeviceBooted d₀ → device.run d₀ es = some (d, calls) →
      device.step d e = some (d₁, [.initiateAction target]) → d₁.onOff = target →
      device.run d₁ fs = some (u, os) → targets os = [] → (samplesSince os).length < 10 →
      task.Along Punctual d₁.task os → NoRevert d₁ target fs := by
  intro hall
  obtain ⟨u, os, hrun, hq, hshort, hp, hon, hl, hv⟩ : ∃ u os,
      device.run onAtOnce lagRevert = some (u, os) ∧ targets os = [] ∧
        (samplesSince os).length < 10 ∧ task.Along Punctual onAtOnce.task os ∧ u.onOff = true ∧
          u.lambdas = [.sync false] ∧ u.task.mVotedIsOn = false :=
    Machine.run_eval (by decide +kernel)
  have hlambda : device.step u .runLambda = some ({ u with lambdas := [], onOff := false }, []) := by
    have hset := setOnOff_voted { u with lambdas := [] }
    rw [step_sync hl, ← hv, hset]
  have hfull := Machine.run_snoc_iff.mpr ⟨u, os, [], hrun, hlambda, rfl⟩
  rw [List.append_nil] at hfull
  have := hall _ [] _ _ _ _ _ _ _ _ ⟨bootedAt_booted 0, rfl⟩ rfl onAtOnce_called rfl hfull hq hshort hp
    lagRevert [] u os _ _ rfl hrun (Nat.zero_le _) hlambda hon
  cases this

end ThreadSwitch.Matter
