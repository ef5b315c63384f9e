import ThreadSwitch.Matter.Device

/-!
# Feedback from the sensing poll

A poll queues a lambda that writes its vote to the attribute later. The two
guards against feedback are tested at other times: `mIsPulsing` when the lambda
is queued, the vote when it runs. What goes wrong is a lambda that has become
stale in the queue:

- `sync_never_actuates_iff`: it calls `InitiateAction` when the vote it captured is
  neither the attribute's value nor the vote by then. While votes change only
  with no sync queued this does not happen (`fresh_of_settled`).
- `sync_keeps_onOff`: it overwrites the attribute during an action when it was
  already queued, with another value, as the action started or as a remote
  write came in during it.
-/

namespace ThreadSwitch.Matter

open ThreadSwitch.Zephyr ThreadSwitch.Lib ThreadSwitch.Heater

/-- The step runs a lambda that a poll queued with the vote `votedIsOn`. -/
def RunsSync (d : Device) (e : DeviceEvent) (votedIsOn : Bool) : Prop :=
  e = .runLambda ∧ d.lambdas.head? = some (.sync votedIsOn)

instance (d : Device) (e : DeviceEvent) (v : Bool) : Decidable (RunsSync d e v) :=
  inferInstanceAs (Decidable (_ ∧ _))

/-- Every queued sync carries `value`. -/
def QueueAgrees (value : Bool) (lambdas : List Lambda) : Prop := ∀ v, .sync v ∈ lambdas → v = value

instance (value : Bool) (lambdas : List Lambda) : Decidable (QueueAgrees value lambdas) :=
  inferInstanceAs (Decidable (∀ v, .sync v ∈ lambdas → v = value))

theorem RunsSync.step {d : Device} {e : DeviceEvent} {v : Bool} (h : RunsSync d e v) :
    ∃ rest, d.lambdas = .sync v :: rest ∧
      device.step d e = some ({ d with lambdas := rest }.setOnOff v) := by
  obtain ⟨rfl, hl⟩ := h
  obtain ⟨rest, hl⟩ := List.head?_eq_some_iff.mp hl
  exact ⟨rest, hl, step_sync hl⟩

/-! ## Whether a sync actuates the heater -/

def SyncNeverActuates (d : Device) (e : DeviceEvent) : Prop :=
  ∀ v, RunsSync d e v → ∀ r ∈ device.step d e, targets r.2 = []

instance (d : Device) (e : DeviceEvent) : Decidable (SyncNeverActuates d e) :=
  inferInstanceAs (Decidable (∀ v, RunsSync d e v → ∀ r ∈ device.step d e, targets r.2 = []))

/-- A sync runs with a vote that is the attribute's value or still the vote. -/
def FreshSync (d : Device) (e : DeviceEvent) : Prop :=
  ∀ v, RunsSync d e v → v = d.onOff ∨ v = d.task.mVotedIsOn

theorem syncNeverActuates_iff (d : Device) (e : DeviceEvent) :
    SyncNeverActuates d e ↔ FreshSync d e := by
  refine forall_congr' fun v => imp_congr_right fun hs => ?_
  obtain ⟨rest, -, hstep⟩ := hs.step
  simp [hstep, targets_setOnOff, or_iff_not_imp_left]

/-- **Sensing feedback never actuates the heater**, in exactly the runs in which
every sync that runs is fresh. -/
theorem sync_never_actuates_iff (d₀ : Device) (es : List DeviceEvent) :
    device.Along SyncNeverActuates d₀ es ↔ device.Along FreshSync d₀ es :=
  Machine.along_congr syncNeverActuates_iff

/-- A poll at 0 ms votes OFF, and its lambda runs after a remote ON. -/
def staleSync : List DeviceEvent := [.work (.sensingPoll ⟨true, 1⟩), .remote true, .runLambda]

theorem staleSync_runs : ∃ d calls, device.run ⟨bootedAt 0, false, []⟩ staleSync = some (d, calls) ∧
    task.Along Punctual (bootedAt 0) calls := Machine.run_eval (by decide +kernel)

theorem stale_sync_actuates :
    ¬ ∀ d₀ es d calls, DeviceBooted d₀ → device.run d₀ es = some (d, calls) →
      task.Along Punctual d₀.task calls → device.Along SyncNeverActuates d₀ es := by
  intro hall
  obtain ⟨d, calls, hrun, hp⟩ := staleSync_runs
  have := hall _ _ _ _ ⟨bootedAt_booted 0, rfl⟩ hrun hp
  exact absurd this (by decide +kernel)

/-- The vote changes only while no sync is queued. -/
def SettledVote (d : Device) (e : DeviceEvent) : Prop :=
  ∀ r ∈ device.step d e, r.1.task.mVotedIsOn = d.task.mVotedIsOn ∨ ∀ v, .sync v ∉ d.lambdas

/-- Where the vote changes only while no sync is queued, every sync is fresh:
what is queued is the current vote. -/
theorem fresh_of_settled {d₀ : Device} {es : List DeviceEvent} (hb : DeviceBooted d₀)
    (hs : device.Along SettledVote d₀ es) : device.Along FreshSync d₀ es := by
  refine Machine.Along.of_inv (I := fun d => QueueAgrees d.task.mVotedIsOn d.lambdas)
    (fun d e d' o hi hp hstep v hv => ?_) (fun d e hi _ v hr => ?_) (fun v hv => ?_) hs
  · rcases queued_of_step hstep hv with hold | ⟨hnew, -⟩
    · rcases hp _ hstep with hsame | hnone
      · exact (hi v hold).trans hsame.symm
      · exact absurd hold (hnone v)
    · exact hnew
  · obtain ⟨rest, hl, -⟩ := hr.step
    exact .inr (hi v (by simp [hl]))
  · simp [hb.2] at hv

/-! ## Whether a sync overwrites the attribute during an action -/

def SyncKeepsOnOff (d : Device) (e : DeviceEvent) : Prop :=
  ∀ v, RunsSync d e v → d.task.mIsPulsing = true → ∀ r ∈ device.step d e, r.1.onOff = d.onOff

instance (d : Device) (e : DeviceEvent) : Decidable (SyncKeepsOnOff d e) :=
  inferInstanceAs (Decidable (∀ v, RunsSync d e v → d.task.mIsPulsing = true →
    ∀ r ∈ device.step d e, r.1.onOff = d.onOff))

/-- A step that starts an action, and a remote write during one, leaves no sync
queued with a value other than the attribute's. -/
def StartsClean (d : Device) : DeviceEvent → Prop
  | .remote value =>
    value ≠ d.onOff → d.task.mIsPulsing = true ∨ value ≠ d.task.mVotedIsOn →
      QueueAgrees value d.lambdas
  | .runLambda =>
    match d.lambdas with
    | .button :: rest => QueueAgrees d.onOff rest
    | .sync v :: rest => v ≠ d.onOff → v ≠ d.task.mVotedIsOn → QueueAgrees v rest
    | [] => True
  | _ => True

instance (d : Device) : ∀ e, Decidable (StartsClean d e)
  | .work _ | .buttons _ _ => isTrue trivial
  | .remote value => inferInstanceAs (Decidable (_ → _ → QueueAgrees value d.lambdas))
  | .runLambda =>
    match h : d.lambdas with
    | [] => isTrue (by rw [StartsClean, h]; trivial)
    | .button :: rest => decidable_of_iff (QueueAgrees d.onOff rest) (by rw [StartsClean, h])
    | .sync v :: rest =>
      decidable_of_iff (v ≠ d.onOff → v ≠ d.task.mVotedIsOn → QueueAgrees v rest)
        (by rw [StartsClean, h])

/-- During an action every queued sync carries the attribute's value. -/
def Clean (d : Device) : Prop := d.task.mIsPulsing = true → QueueAgrees d.onOff d.lambdas

/-- A write leaves the queue clean exactly when it does not start or meet an
action with another value queued. -/
theorem clean_setOnOff (value : Bool) (d : Device) :
    Clean (d.setOnOff value).1 ↔
      (d.task.mIsPulsing = true ∨ (value ≠ d.onOff ∧ value ≠ d.task.mVotedIsOn) →
        QueueAgrees value d.lambdas) := by
  rw [Clean, setOnOff_pulsing, setOnOff_onOff, setOnOff_lambdas]

section clean
variable {d d' : Device} {e : DeviceEvent} {o : List TaskEvent}

theorem clean_next (hc : Clean d) (hs : StartsClean d e) (h : device.step d e = some (d', o)) :
    Clean d' := by
  cases e with
  | work e =>
    intro hp v hv
    obtain ⟨he, ht, hon, -⟩ := step_work h
    have hpd := (next_silent he ht).raised hp
    rcases queued_of_step h hv with hold | ⟨-, hf⟩
    · rw [hon]; exact hc hpd v hold
    · rw [hpd] at hf; cases hf
  | remote value =>
    suffices hset : Clean (d.setOnOff value).1 by rwa [Option.some.inj h] at hset
    refine (clean_setOnOff value d).mpr fun hw => ?_
    by_cases hon : value = d.onOff
    · rw [hon]
      exact hc (hw.resolve_right fun h => h.1 hon)
    · exact hs hon (hw.imp id And.right)
  | buttons state hasChanged =>
    intro hp v hv
    obtain ⟨ht, hon, hl, -⟩ := step_buttons h
    rw [hon]
    exact hc (ht ▸ hp) v ((hl v).mp hv)
  | runLambda =>
    rcases step_runLambda h with ⟨v, rest, hl, hset⟩ | ⟨rest, hl, rfl, -⟩
    · rw [StartsClean, hl] at hs
      rw [Clean, hl] at hc
      suffices hset' : Clean ({ d with lambdas := rest }.setOnOff v).1 by rwa [hset] at hset'
      refine (clean_setOnOff v _).mpr fun hw => ?_
      rcases hw with hp | hw
      · have hv : v = d.onOff := hc hp v (List.mem_cons_self ..)
        rw [hv]
        exact fun w hw => hc hp w (List.mem_cons_of_mem _ hw)
      · exact hs hw.1 hw.2
    · rw [StartsClean, hl] at hs
      exact fun _ => hs

/-- A start that is not clean leaves the queue so. -/
theorem not_clean_of_start (hs : ¬ StartsClean d e) : ∃ r ∈ device.step d e, ¬ Clean r.1 := by
  cases e with
  | work e => exact absurd trivial hs
  | buttons state hasChanged => exact absurd trivial hs
  | remote value =>
    refine ⟨_, rfl, fun hc => hs fun hon hw => ?_⟩
    exact (clean_setOnOff value d).mp hc (hw.imp id fun hv => ⟨hon, hv⟩)
  | runLambda =>
    cases hl : d.lambdas with
    | nil => rw [StartsClean, hl] at hs; exact absurd trivial hs
    | cons lambda rest =>
      rw [StartsClean, hl] at hs
      cases lambda with
      | sync v =>
        refine ⟨_, step_sync hl, fun hc => hs fun hon hw => ?_⟩
        exact (clean_setOnOff v _).mp hc (.inr ⟨hon, hw⟩)
      | button => exact ⟨_, step_button hl, fun hc => hs (hc rfl)⟩

/-- Draining a queue that is not clean overwrites the attribute during the action. -/
theorem drain_overwrites (hc : ¬ Clean d) :
    ∃ n, ¬ device.Along SyncKeepsOnOff d (List.replicate n .runLambda) := by
  simp only [Clean, Classical.not_imp] at hc
  obtain ⟨hp, hq⟩ := hc
  generalize hl : d.lambdas = lambdas at hq
  induction lambdas generalizing d with
  | nil => exact absurd (fun v hv => by cases hv) hq
  | cons lambda rest ih =>
    cases lambda with
    | button =>
      have hrest : ¬ QueueAgrees d.onOff rest := fun h => hq (by simpa [QueueAgrees] using h)
      obtain ⟨n, hn⟩ := ih (d := { d with lambdas := rest, task := d.task.initiateAction (!d.onOff) })
        rfl rfl hrest
      exact ⟨n + 1, fun h => hn (h.2 _ (step_button hl))⟩
    | sync v =>
      have hstep := step_sync hl
      by_cases hv : v = d.onOff
      · have hrest : ¬ QueueAgrees d.onOff rest := fun h => hq (by simpa [QueueAgrees, hv] using h)
        rw [setOnOff_eq, if_pos hv.symm] at hstep
        obtain ⟨n, hn⟩ := ih (d := { d with lambdas := rest }) hp rfl hrest
        exact ⟨n + 1, fun h => hn (h.2 _ hstep)⟩
      · refine ⟨1, fun h => hv ?_⟩
        simpa using h.1 v ⟨rfl, by simp [hl]⟩ hp _ hstep

end clean

/-- **Feedback does not overwrite the attribute during an action** in the runs
whose steps all start clean, and any step that does not can be followed by
lambdas alone to an overwrite. -/
theorem sync_keeps_onOff {d₀ : Device} {es : List DeviceEvent} (hb : DeviceBooted d₀) :
    (device.Along StartsClean d₀ es → device.Along SyncKeepsOnOff d₀ es) ∧
      ∀ pre e post d calls, es = pre ++ e :: post → device.run d₀ pre = some (d, calls) →
        ¬ StartsClean d e →
          ∃ n, ¬ device.Along SyncKeepsOnOff d₀ (pre ++ e :: List.replicate n .runLambda) := by
  refine ⟨Machine.Along.of_inv (I := Clean) (fun d e d' o => clean_next) ?_ ?_, ?_⟩
  · intro d e hc _ v hr hp
    obtain ⟨rest, hl, hstep⟩ := hr.step
    have hv : v = d.onOff := hc hp v (by simp [hl])
    simp [hstep, hv]
  · intro _ v hv
    simp [hb.2] at hv
  · rintro pre e post d calls - hrun hs
    obtain ⟨r, hr, hc⟩ := not_clean_of_start hs
    obtain ⟨n, hn⟩ := drain_overwrites hc
    exact ⟨n, fun h => hn (((Machine.along_append.mp h).2 d calls hrun).2 r hr)⟩

/-- The lambda of the poll has run before the remote ON; a button press comes during its action. -/
theorem drained_sync_keeps_onOff :
    device.Along SyncKeepsOnOff ⟨bootedAt 0, false, []⟩
      [.work (.sensingPoll ⟨true, 1⟩), .runLambda, .remote true, .work (.elapse 100),
        .work (.sensingPoll ⟨true, 0⟩), .buttons 2 2, .runLambda] :=
  (sync_keeps_onOff ⟨bootedAt_booted 0, rfl⟩).1 (by decide +kernel)

/-- A lambda queued before a remote ON sets the attribute back to OFF at once. -/
theorem stale_sync_overwrites :
    ¬ ∀ d₀ es d calls, DeviceBooted d₀ → device.run d₀ es = some (d, calls) →
      task.Along Punctual d₀.task calls → device.Along SyncKeepsOnOff d₀ es := by
  intro hall
  obtain ⟨d, calls, hrun, hp⟩ := staleSync_runs
  have := hall _ _ _ _ ⟨bootedAt_booted 0, rfl⟩ hrun hp
  exact absurd this (by decide +kernel)

end ThreadSwitch.Matter
