import ThreadSwitch.Heater.Step

/-!
# Handlers that preempt `InitiateAction`

`InitiateAction` runs on the Matter thread and the handlers on the work queue,
so a handler can run between any two of its statements. `preemptible` is the
task with a call taken apart into its statements; calls never overlap. When no
call is in progress every LOW pin still has the work that releases it, and the
pending works always run out (`no_stuck_pin_or_flag`).
-/

namespace ThreadSwitch.Heater

open ThreadSwitch.Zephyr ThreadSwitch.Lib AppTask

/-- The statements of `InitiateAction` that change the state. -/
inductive Stmt where
  | isPulsing
  | pendingOff
  | senseHistory
  | votedIsOn
  | ctrlPin
  | pulseWork
  deriving DecidableEq, Repr

def Stmt.exec (actionOn : Bool) (t : AppTask) : Stmt → AppTask
  | .isPulsing => { t with mIsPulsing := true }
  | .pendingOff => { t with mPendingOff := !actionOn }
  | .senseHistory => { t with mSenseHistory := if actionOn then 0x0000#16 else 0xFFFF#16 }
  | .votedIsOn => { t with mVotedIsOn := actionOn }
  | .ctrlPin => { t with mCtrlPinOn := .outputLow }
  | .pulseWork => { t with mPulseWork := kWorkReschedule t.uptime 300 }

def initiateActionBody : List Stmt :=
  [.isPulsing, .pendingOff, .senseHistory, .votedIsOn, .ctrlPin, .pulseWork]

/-- Run without interruption, the statements are `InitiateAction`. -/
theorem initiateAction_eq_body (actionOn : Bool) (t : AppTask) :
    t.initiateAction actionOn = initiateActionBody.foldl (Stmt.exec actionOn) t := rfl

/-- A call in progress: its target and the statements still to run. -/
structure Call where
  actionOn : Bool
  rest : List Stmt
  deriving DecidableEq, Repr

structure Preemptible where
  task : AppTask
  call : Option Call

inductive PreemptEvent where
  /-- `InitiateAction` is called. -/
  | enter (actionOn : Bool)
  /-- The call in progress runs its next statement. -/
  | statement
  /-- A work expires or time passes. -/
  | work (e : TaskEvent)

def Preemptible.next (p : Preemptible) : PreemptEvent → Option Preemptible
  | .enter actionOn =>
    match p.call with
    | none => some { p with call := some ⟨actionOn, initiateActionBody⟩ }
    | some _ => none
  | .statement =>
    match p.call with
    | some ⟨actionOn, stmt :: rest⟩ =>
      some ⟨stmt.exec actionOn p.task, if rest = [] then none else some ⟨actionOn, rest⟩⟩
    | _ => none
  | .work e => if targets [e] = [] then (p.task.next e).map fun t => { p with task := t } else none

def preemptible : Machine Preemptible PreemptEvent PinChange where
  step p e := (p.next e).map fun q => (q, pinChanges p.task q.task)

/-! ## The invariant -/

/-- Between the statements of a call only the standby pin is sure of its
release; the rest holds once the call has scheduled its pulse. -/
structure Preemptible.Wf (p : Preemptible) : Prop where
  standby : p.task.mStandbyPin = .outputLow → p.task.mStandbyReleaseWork ≠ none
  idle : p.call = none → p.task.Releasable
  call : ∀ c, p.call = some c → ∃ k < 6, c.rest = initiateActionBody.drop k

/-- A statement never touches the standby pin or its works. -/
theorem exec_standby (a : Bool) (t : AppTask) (stmt : Stmt) :
    (stmt.exec a t).mStandbyPin = t.mStandbyPin ∧
      (stmt.exec a t).mStandbyReleaseWork = t.mStandbyReleaseWork := by
  cases stmt <;> exact ⟨rfl, rfl⟩

/-- The last statement of the body schedules the pulse, so the state it leaves is releasable. -/
theorem releasable_exec_pulseWork (a : Bool) {t : AppTask}
    (hs : t.mStandbyPin = .outputLow → t.mStandbyReleaseWork ≠ none) :
    (Stmt.pulseWork.exec a t).Releasable := by
  have hp : (Stmt.pulseWork.exec a t).mPulseWork ≠ none := by simp [Stmt.exec]
  exact ⟨fun _ => hp, hs, fun _ => .inl hp, fun _ => .inl hp⟩

/-- Where a call stands: the next statement, and whether it is the last. -/
theorem body_drop {k : Nat} {stmt : Stmt} {rest : List Stmt} (hk : k < 6)
    (h : stmt :: rest = initiateActionBody.drop k) :
    (rest = [] ∧ stmt = .pulseWork) ∨ (k + 1 < 6 ∧ rest = initiateActionBody.drop (k + 1)) := by
  have hrest : rest = initiateActionBody.drop (k + 1) := by
    rw [← List.tail_drop, ← h, List.tail_cons]
  by_cases h5 : k = 5
  · subst h5
    cases h
    exact .inl ⟨rfl, rfl⟩
  · exact .inr ⟨by omega, hrest⟩

theorem statement_wf {p : Preemptible} {a : Bool} {stmt : Stmt} {rest : List Stmt} (hw : p.Wf)
    (hcall : p.call = some ⟨a, stmt :: rest⟩) :
    Preemptible.Wf ⟨stmt.exec a p.task, if rest = [] then none else some ⟨a, rest⟩⟩ := by
  obtain ⟨k, hk, hbody⟩ := hw.call _ hcall
  have hst := exec_standby a p.task stmt
  refine ⟨by rw [hst.1, hst.2]; exact hw.standby, fun hc => ?_, fun c hc => ?_⟩
  · rcases body_drop hk hbody with ⟨-, rfl⟩ | ⟨hlt, hrest⟩
    · exact releasable_exec_pulseWork a hw.standby
    · -- before the last statement the call is still in progress
      have hne : rest ≠ [] := by
        rw [hrest]
        simp only [ne_eq, List.drop_eq_nil_iff, initiateActionBody, List.length_cons,
          List.length_nil]
        omega
      simp [hne] at hc
  · rcases body_drop hk hbody with ⟨rfl, -⟩ | ⟨hlt, hrest⟩
    · simp at hc
    · refine ⟨k + 1, hlt, ?_⟩
      dsimp only at hc
      split at hc
      · cases hc
      · cases hc; exact hrest

theorem preemptible_next_wf {p q : Preemptible} {e : PreemptEvent} (hw : p.Wf)
    (h : p.next e = some q) : q.Wf := by
  cases e with
  | enter a =>
    simp only [Preemptible.next] at h
    split at h
    · cases h
      refine ⟨hw.standby, fun hc => ?_, fun c hc => ⟨0, by omega, ?_⟩⟩
      · cases hc
      · cases hc; rfl
    · cases h
  | statement =>
    simp only [Preemptible.next] at h
    split at h
    · rename_i a stmt rest hcall
      cases h
      exact statement_wf hw hcall
    · cases h
  | work e =>
    simp only [Preemptible.next] at h
    split at h
    · obtain ⟨t, ht, rfl⟩ := Option.map_eq_some_iff.mp h
      exact ⟨standby_held_next hw.standby ht, fun hc => releasable_next (hw.idle hc) ht, hw.call⟩
    · cases h

theorem preemptible_run_wf {t₀ : AppTask} {p : Preemptible} {es : List PreemptEvent}
    {cs : List PinChange} (hb : Booted t₀) (h : preemptible.run ⟨t₀, none⟩ es = some (p, cs)) :
    p.Wf := by
  obtain ⟨uptime, rfl⟩ := booted_iff.mp hb
  have hw := bootedAt_wf uptime
  refine Machine.run_inv (I := Preemptible.Wf) (fun p e q o hw hs => ?_)
    ⟨hw.standby, fun _ => hw.toReleasable, fun c hc => by cases hc⟩ h
  obtain ⟨q', hq, he⟩ := Option.map_eq_some_iff.mp hs
  cases he
  exact preemptible_next_wf hw hq

/-! ## The works run out -/

/-- The works of an action. -/
inductive ActionWork where
  | pulse
  | standby
  | standbyRelease
  deriving DecidableEq, Repr

def ActionWork.expiry : ActionWork → TaskEvent
  | .pulse => .controlPulse
  | .standby => .standbyPulse
  | .standbyRelease => .standbyRelease

/-- Expiries of an action's works alone: no call, no poll. -/
def actionWorks : Machine AppTask ActionWork PinChange where
  step t w := task.step t w.expiry

/-- How many handler runs the pending works can still cause, each work counted
with all that it schedules. -/
def pendingRuns (t : AppTask) : Nat :=
  (if t.mPulseWork = none then 0 else 3) + (if t.mStandbyWork = none then 0 else 2) +
    (if t.mStandbyReleaseWork = none then 0 else 1)

theorem pendingRuns_le (t : AppTask) : pendingRuns t ≤ 6 := by
  unfold pendingRuns
  split <;> split <;> split <;> omega

theorem pendingRuns_lt {t u : AppTask} {w : ActionWork} {cs : List PinChange}
    (h : actionWorks.step t w = some (u, cs)) : pendingRuns u < pendingRuns t := by
  have hn := (step_iff.mp h).1
  cases w with
  | pulse =>
    obtain ⟨hp, rfl⟩ := next_controlPulse.mp hn
    unfold pendingRuns controlPulseHandler
    cases hf : t.mPendingOff <;> by_cases hs : t.mStandbyWork = none <;> simp [hp, hs]
  | standby =>
    obtain ⟨hp, rfl⟩ := next_standbyPulse.mp hn
    unfold pendingRuns standbyPulseHandler
    by_cases hr : t.mStandbyReleaseWork = none <;> simp [hp, hr]
  | standbyRelease =>
    obtain ⟨hp, rfl⟩ := next_standbyRelease.mp hn
    unfold pendingRuns standbyReleaseHandler
    simp [hp]

/-- While a work of an action is pending, its handler can run. -/
theorem not_workPending_of_stuck {t : AppTask} (h : ∀ w, actionWorks.step t w = none) :
    ¬ t.WorkPending := by
  have hnext : ∀ w : ActionWork, t.next w.expiry = none := fun w => by
    have := h w
    simpa [actionWorks, task] using this
  simp only [WorkPending, not_or, not_not]
  refine ⟨?_, ?_, ?_⟩
  · have := hnext .pulse
    simpa [AppTask.next, ActionWork.expiry] using this
  · have := hnext .standby
    simpa [AppTask.next, ActionWork.expiry] using this
  · have := hnext .standbyRelease
    simpa [AppTask.next, ActionWork.expiry] using this

/-- **No pin or flag gets stuck**, even when handlers run between the statements
of `InitiateAction`: with no call in progress a LOW pin has its releasing work
pending, and running the pending works, in any order, ends after at most six
handler runs with everything released. -/
theorem no_stuck_pin_or_flag {t₀ : AppTask} {p : Preemptible} {es : List PreemptEvent}
    {cs : List PinChange} (hb : Booted t₀) (h : preemptible.run ⟨t₀, none⟩ es = some (p, cs))
    (hidle : p.call = none) :
    (p.task.mCtrlPinOn = .outputLow → p.task.mPulseWork ≠ none) ∧
      (p.task.mStandbyPin = .outputLow → p.task.mStandbyReleaseWork ≠ none) ∧
      ∀ ws t os, actionWorks.run p.task ws = some (t, os) →
        ws.length ≤ 6 ∧
          ((∀ w, actionWorks.step t w = none) →
            t.Quiet ∧ t.mIsPulsing = false ∧ t.mPendingOff = false) := by
  have hr := (preemptible_run_wf hb h).idle hidle
  refine ⟨hr.ctrl, hr.standby, fun ws t os hrun => ⟨?_, fun hstuck => ?_⟩⟩
  · have hlen := Machine.run_length_le (m := pendingRuns) (fun t w u o => pendingRuns_lt) hrun
    have := pendingRuns_le p.task
    omega
  · have hrt := Machine.run_inv (M := actionWorks) (I := AppTask.Releasable)
      (fun t w u o hi hs => releasable_next hi (step_iff.mp hs).1) hr hrun
    exact hrt.settled (not_workPending_of_stuck hstuck)

/-- A finished ON call holds the control pin LOW with its release pending. -/
theorem on_call_releases :
    ∃ p cs, preemptible.run ⟨bootedAt 0, none⟩ (.enter true :: List.replicate 6 .statement) =
      some (p, cs) ∧ p.task.mCtrlPinOn = .outputLow ∧ p.task.mPulseWork ≠ none := by
  obtain ⟨p, cs, hrun, hidle, hlow⟩ : ∃ p cs, preemptible.run ⟨bootedAt 0, none⟩
      (.enter true :: List.replicate 6 .statement) = some (p, cs) ∧
        p.call = none ∧ p.task.mCtrlPinOn = .outputLow := Machine.run_eval (by decide +kernel)
  exact ⟨p, cs, hrun, hlow, (no_stuck_pin_or_flag (bootedAt_booted 0) hrun hidle).1 hlow⟩

end ThreadSwitch.Heater
