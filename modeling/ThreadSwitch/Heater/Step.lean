import ThreadSwitch.Heater.AppTask
import ThreadSwitch.Lib.Machine

/-!
# The heater task as a machine

An event is a call of `InitiateAction`, the expiry of one of the four works,
or the passing of time. Works may expire in any order and as late as they
like: `Punctual` singles out the runs in which every work runs exactly at its
deadline. The outputs are the changes of pin mode. `targets` and
`samplesSince` read off a run's events what was asked of the task and what it
sampled since.
-/

namespace ThreadSwitch.Heater

open ThreadSwitch.Zephyr ThreadSwitch.Lib AppTask

inductive TaskEvent where
  | initiateAction (actionOn : Bool)
  | sensingPoll (read : SenseRead)
  | controlPulse
  | standbyPulse
  | standbyRelease
  | elapse (ms : Nat)
  deriving DecidableEq, Repr

inductive Pin where
  | ctrl
  | standby
  deriving DecidableEq, Repr

/-- A pin changed to a mode it was not in. -/
structure PinChange where
  pin : Pin
  mode : PinMode
  deriving DecidableEq, Repr

/-- The pin changes between two states of the task. -/
def pinChanges (t u : AppTask) : List PinChange :=
  (if t.mCtrlPinOn = u.mCtrlPinOn then [] else [⟨.ctrl, u.mCtrlPinOn⟩]) ++
    (if t.mStandbyPin = u.mStandbyPin then [] else [⟨.standby, u.mStandbyPin⟩])

/-- The state after an event. An expiring work is no longer pending when its
handler starts; a work that is not pending does not expire. -/
def AppTask.next (t : AppTask) : TaskEvent → Option AppTask
  | .initiateAction actionOn => some (t.initiateAction actionOn)
  | .sensingPoll read =>
    if t.mSenseWork = none then none
    else some (sensingPollHandler read { t with mSenseWork := none }).1
  | .controlPulse =>
    if t.mPulseWork = none then none else some (controlPulseHandler { t with mPulseWork := none })
  | .standbyPulse =>
    if t.mStandbyWork = none then none
    else some (standbyPulseHandler { t with mStandbyWork := none })
  | .standbyRelease =>
    if t.mStandbyReleaseWork = none then none
    else some (standbyReleaseHandler { t with mStandbyReleaseWork := none })
  | .elapse ms => some { t with uptime := t.uptime + ms }

def task : Machine AppTask TaskEvent PinChange where
  step t e := (t.next e).map fun u => (u, pinChanges t u)

/-- Every work runs exactly at its deadline: time does not pass a pending
deadline, and a work that runs is due now. -/
def Punctual (t : AppTask) : TaskEvent → Prop
  | .initiateAction _ => True
  | .sensingPoll _ => t.mSenseWork = some t.uptime
  | .controlPulse => t.mPulseWork = some t.uptime
  | .standbyPulse => t.mStandbyWork = some t.uptime
  | .standbyRelease => t.mStandbyReleaseWork = some t.uptime
  | .elapse ms =>
    ∀ work ∈ [t.mPulseWork, t.mStandbyWork, t.mStandbyReleaseWork, t.mSenseWork],
      ∀ deadline ∈ work, t.uptime + ms ≤ deadline

instance (t : AppTask) : ∀ e, Decidable (Punctual t e)
  | .initiateAction _ => isTrue trivial
  | .sensingPoll _ => inferInstanceAs (Decidable (t.mSenseWork = some t.uptime))
  | .controlPulse => inferInstanceAs (Decidable (t.mPulseWork = some t.uptime))
  | .standbyPulse => inferInstanceAs (Decidable (t.mStandbyWork = some t.uptime))
  | .standbyRelease => inferInstanceAs (Decidable (t.mStandbyReleaseWork = some t.uptime))
  | .elapse ms => inferInstanceAs (Decidable (∀ work ∈ [t.mPulseWork, t.mStandbyWork,
      t.mStandbyReleaseWork, t.mSenseWork], ∀ deadline ∈ work, t.uptime + ms ≤ deadline))

/-- `n` rounds of 100 ms, each ending with a poll that reads `raw`. -/
def rounds (n : Nat) (raw : Int) : List TaskEvent :=
  (List.replicate n [.elapse 100, .sensingPoll ⟨true, raw⟩]).flatten

theorem mem_rounds {n : Nat} {raw : Int} {e : TaskEvent} (h : e ∈ rounds n raw) :
    e = .elapse 100 ∨ e = .sensingPoll ⟨true, raw⟩ := by
  obtain ⟨round, hround, he⟩ := List.mem_flatten.mp h
  rw [List.eq_of_mem_replicate hround] at he
  simpa using he

/-! ## What a step does -/

section inversion
variable {t u : AppTask} {cs : List PinChange}

theorem step_iff {e : TaskEvent} :
    task.step t e = some (u, cs) ↔ t.next e = some u ∧ cs = pinChanges t u := by
  simp only [task, Option.map_eq_some_iff, Prod.mk.injEq]
  refine ⟨?_, fun h => ⟨u, h.1, rfl, h.2.symm⟩⟩
  rintro ⟨v, h, rfl, rfl⟩
  exact ⟨h, rfl⟩

/-- The state after a poll: only the history, the vote and the sense work change. -/
theorem sensingPollHandler_fst (read : SenseRead) (t : AppTask) :
    (sensingPollHandler read t).1 =
      if read.ready then
        { t with
          mSenseHistory := shiftIn t.mSenseHistory (sample read)
          mVotedIsOn := vote (shiftIn t.mSenseHistory (sample read))
          mSenseWork := kWorkReschedule t.uptime 100 }
      else t := by
  unfold sensingPollHandler
  rw [updateHistory_eq]
  cases read.ready <;> rfl

@[simp] theorem next_initiateAction (a : Bool) :
    t.next (.initiateAction a) = some (t.initiateAction a) := rfl

@[simp] theorem next_elapse (ms : Nat) :
    t.next (.elapse ms) = some { t with uptime := t.uptime + ms } := rfl

@[simp] theorem next_sensingPoll {read : SenseRead} :
    t.next (.sensingPoll read) = some u ↔
      t.mSenseWork ≠ none ∧ u = (sensingPollHandler read { t with mSenseWork := none }).1 := by
  simp [AppTask.next, eq_comm]

@[simp] theorem next_controlPulse :
    t.next .controlPulse = some u ↔
      t.mPulseWork ≠ none ∧ u = controlPulseHandler { t with mPulseWork := none } := by
  simp [AppTask.next, eq_comm]

@[simp] theorem next_standbyPulse :
    t.next .standbyPulse = some u ↔
      t.mStandbyWork ≠ none ∧ u = standbyPulseHandler { t with mStandbyWork := none } := by
  simp [AppTask.next, eq_comm]

@[simp] theorem next_standbyRelease :
    t.next .standbyRelease = some u ↔ t.mStandbyReleaseWork ≠ none ∧
      u = standbyReleaseHandler { t with mStandbyReleaseWork := none } := by
  simp [AppTask.next, eq_comm]

end inversion

/-! ## What a poll leaves alone -/

section frame
variable (read : SenseRead) (t : AppTask)

@[simp] theorem poll_mCtrlPinOn : (sensingPollHandler read t).1.mCtrlPinOn = t.mCtrlPinOn := by
  rw [sensingPollHandler_fst]; split <;> rfl

@[simp] theorem poll_mStandbyPin : (sensingPollHandler read t).1.mStandbyPin = t.mStandbyPin := by
  rw [sensingPollHandler_fst]; split <;> rfl

@[simp] theorem poll_mPulseWork : (sensingPollHandler read t).1.mPulseWork = t.mPulseWork := by
  rw [sensingPollHandler_fst]; split <;> rfl

@[simp] theorem poll_mStandbyWork :
    (sensingPollHandler read t).1.mStandbyWork = t.mStandbyWork := by
  rw [sensingPollHandler_fst]; split <;> rfl

@[simp] theorem poll_mStandbyReleaseWork :
    (sensingPollHandler read t).1.mStandbyReleaseWork = t.mStandbyReleaseWork := by
  rw [sensingPollHandler_fst]; split <;> rfl

@[simp] theorem poll_mIsPulsing : (sensingPollHandler read t).1.mIsPulsing = t.mIsPulsing := by
  rw [sensingPollHandler_fst]; split <;> rfl

@[simp] theorem poll_mPendingOff : (sensingPollHandler read t).1.mPendingOff = t.mPendingOff := by
  rw [sensingPollHandler_fst]; split <;> rfl

end frame

/-! ## What a run asked for -/

/-- The targets of the `InitiateAction` calls, in call order. -/
def targets (es : List TaskEvent) : List Bool :=
  es.filterMap fun
    | .initiateAction actionOn => some actionOn
    | _ => none

/-- The target of the most recent `InitiateAction` call. -/
def lastTarget (es : List TaskEvent) : Option Bool := (targets es).getLast?

/-- The samples read since the most recent `InitiateAction` call, or since `Init`. -/
def samplesSince (es : List TaskEvent) : List Bool :=
  es.foldl (fun samples e =>
    match e with
    | .initiateAction _ => []
    | .sensingPoll read => if read.ready then samples ++ [sample read] else samples
    | _ => samples) []

@[simp] theorem targets_append (es fs : List TaskEvent) :
    targets (es ++ fs) = targets es ++ targets fs := by
  simp [targets]

@[simp] theorem targets_initiateAction (a : Bool) (es : List TaskEvent) :
    targets (.initiateAction a :: es) = a :: targets es := rfl

@[simp] theorem lastTarget_call (es : List TaskEvent) (a : Bool) :
    lastTarget (es ++ [.initiateAction a]) = some a := by
  simp [lastTarget, targets]

/-- An event other than a call leaves the most recent target as it is. -/
theorem lastTarget_snoc (es : List TaskEvent) {e : TaskEvent} (he : targets [e] = []) :
    lastTarget (es ++ [e]) = lastTarget es := by
  simp [lastTarget, he]

theorem lastTarget_append_of_nil (es : List TaskEvent) {fs : List TaskEvent} (h : targets fs = []) :
    lastTarget (es ++ fs) = lastTarget es := by
  simp [lastTarget, h]

theorem call_or_silent (e : TaskEvent) : (∃ a, e = .initiateAction a) ∨ targets [e] = [] := by
  cases e with
  | initiateAction a => exact .inl ⟨a, rfl⟩
  | _ => exact .inr rfl

/-- What an event other than a call does to the control pin and pulse, the flags
and the standby work. -/
structure Silent (t : AppTask) (e : TaskEvent) (u : AppTask) : Prop where
  ctrlPin : u.mCtrlPinOn = if e = .controlPulse then .input else t.mCtrlPinOn
  pulse : u.mPulseWork = none ↔ e = .controlPulse ∨ t.mPulseWork = none
  pulsed : e = .controlPulse → t.mPulseWork ≠ none
  raised : u.mIsPulsing = true → t.mIsPulsing = true
  flag : u.mPendingOff = true ↔ e ≠ .standbyRelease ∧ t.mPendingOff = true
  standby : u.mStandbyWork ≠ none ↔
    (e = .controlPulse ∧ t.mPendingOff = true) ∨ (e ≠ .standbyPulse ∧ t.mStandbyWork ≠ none)
  pressed : e = .standbyPulse → t.mStandbyWork ≠ none

theorem next_silent {t u : AppTask} {e : TaskEvent} (he : targets [e] = [])
    (h : t.next e = some u) : Silent t e u := by
  cases e with
  | initiateAction a => cases he
  | sensingPoll read =>
    obtain ⟨-, rfl⟩ := next_sensingPoll.mp h
    constructor <;> simp
  | controlPulse =>
    obtain ⟨hp, rfl⟩ := next_controlPulse.mp h
    unfold controlPulseHandler
    by_cases hf : t.mPendingOff = true <;> constructor <;> simp [hf, hp]
  | standbyPulse =>
    obtain ⟨hp, rfl⟩ := next_standbyPulse.mp h
    constructor <;> simp [standbyPulseHandler, hp]
  | standbyRelease =>
    obtain ⟨-, rfl⟩ := next_standbyRelease.mp h
    constructor <;> simp [standbyReleaseHandler]
  | elapse ms =>
    cases h
    constructor <;> simp

/-- An event that leaves the history alone: neither a call nor a poll of a ready pin. -/
def Unsensed (e : TaskEvent) : Prop :=
  targets [e] = [] ∧ ∀ read, e = .sensingPoll read → read.ready = false

theorem call_or_sample (e : TaskEvent) :
    (∃ a, e = .initiateAction a) ∨ (∃ read, e = .sensingPoll read ∧ read.ready = true) ∨
      Unsensed e := by
  cases e with
  | initiateAction a => exact .inl ⟨a, rfl⟩
  | sensingPoll read =>
    refine .inr ?_
    cases hr : read.ready with
    | true => exact .inl ⟨read, rfl, hr⟩
    | false => exact .inr ⟨rfl, fun r he => by cases he; exact hr⟩
  | _ => exact .inr (.inr ⟨rfl, fun _ he => by cases he⟩)

theorem next_sample {t u : AppTask} {read : SenseRead} (h : t.next (.sensingPoll read) = some u)
    (hr : read.ready = true) :
    u = { t with
      mSenseHistory := shiftIn t.mSenseHistory (sample read)
      mVotedIsOn := vote (shiftIn t.mSenseHistory (sample read))
      mSenseWork := kWorkReschedule t.uptime 100 } := by
  obtain ⟨-, rfl⟩ := next_sensingPoll.mp h
  rw [sensingPollHandler_fst, if_pos hr]

theorem unsensed_next {t u : AppTask} {e : TaskEvent} (he : Unsensed e) (h : t.next e = some u) :
    u.mSenseHistory = t.mSenseHistory ∧ u.mVotedIsOn = t.mVotedIsOn := by
  cases e with
  | initiateAction a => cases he.1
  | sensingPoll read =>
    obtain ⟨-, rfl⟩ := next_sensingPoll.mp h
    rw [sensingPollHandler_fst, he.2 read rfl]
    exact ⟨rfl, rfl⟩
  | controlPulse =>
    obtain ⟨-, rfl⟩ := next_controlPulse.mp h
    unfold controlPulseHandler
    cases hf : t.mPendingOff <;> simp
  | standbyPulse => obtain ⟨-, rfl⟩ := next_standbyPulse.mp h; exact ⟨rfl, rfl⟩
  | standbyRelease => obtain ⟨-, rfl⟩ := next_standbyRelease.mp h; exact ⟨rfl, rfl⟩
  | elapse ms => cases h; exact ⟨rfl, rfl⟩

/-! ## The invariant -/

/-- One of the three works of an action is pending. -/
def AppTask.WorkPending (t : AppTask) : Prop :=
  t.mPulseWork ≠ none ∨ t.mStandbyWork ≠ none ∨ t.mStandbyReleaseWork ≠ none

instance (t : AppTask) : Decidable t.WorkPending :=
  inferInstanceAs (Decidable (_ ∨ _ ∨ _))

/-- No part of an action is left: both pins are Hi-Z and none of its works is pending. -/
def AppTask.Quiet (t : AppTask) : Prop :=
  t.mCtrlPinOn = .input ∧ t.mStandbyPin = .input ∧
    t.mPulseWork = none ∧ t.mStandbyWork = none ∧ t.mStandbyReleaseWork = none

/-- Whatever stands has a pending work that ends it. -/
structure AppTask.Releasable (t : AppTask) : Prop where
  ctrl : t.mCtrlPinOn = .outputLow → t.mPulseWork ≠ none
  standby : t.mStandbyPin = .outputLow → t.mStandbyReleaseWork ≠ none
  pulsing : t.mIsPulsing = true → t.WorkPending
  pendingOff : t.mPendingOff = true → t.WorkPending

/-- What holds between any two events: `Releasable`, each releasing work is
pending only while its pin is LOW, and the vote is that of the history. -/
structure AppTask.Wf (t : AppTask) : Prop extends t.Releasable where
  held : t.mPulseWork ≠ none → t.mCtrlPinOn = .outputLow
  pressed : t.mStandbyReleaseWork ≠ none → t.mStandbyPin = .outputLow
  voted : t.mVotedIsOn = vote t.mSenseHistory

/-- Only `StandbyPulseHandler` drives the standby pin LOW, and it schedules the release. -/
theorem standbyPin_next {t u : AppTask} {e : TaskEvent} (h : t.next e = some u) :
    (u.mStandbyPin = t.mStandbyPin ∧ u.mStandbyReleaseWork = t.mStandbyReleaseWork) ∨
      (u.mStandbyPin = .outputLow ∧ u.mStandbyReleaseWork ≠ none) ∨
      (u.mStandbyPin = .input ∧ u.mStandbyReleaseWork = none) := by
  cases e with
  | initiateAction a => cases h; exact .inl ⟨rfl, rfl⟩
  | sensingPoll read => obtain ⟨-, rfl⟩ := next_sensingPoll.mp h; simp
  | controlPulse =>
    obtain ⟨-, rfl⟩ := next_controlPulse.mp h
    unfold controlPulseHandler
    cases hf : t.mPendingOff <;> simp
  | standbyPulse => obtain ⟨-, rfl⟩ := next_standbyPulse.mp h; simp [standbyPulseHandler]
  | standbyRelease => obtain ⟨-, rfl⟩ := next_standbyRelease.mp h; simp [standbyReleaseHandler]
  | elapse ms => cases h; simp

/-- A standby pin that is LOW keeps having its release pending. -/
theorem standby_held_next {t u : AppTask} {e : TaskEvent}
    (hs : t.mStandbyPin = .outputLow → t.mStandbyReleaseWork ≠ none) (h : t.next e = some u) :
    u.mStandbyPin = .outputLow → u.mStandbyReleaseWork ≠ none := by
  intro hu
  rcases standbyPin_next h with ⟨h1, h2⟩ | ⟨-, h2⟩ | ⟨h1, -⟩
  · rw [h2]; exact hs (h1 ▸ hu)
  · exact h2
  · rw [h1] at hu; cases hu

/-- An event either leaves a work of an action pending or leaves both flags clear. -/
theorem workPending_next {t u : AppTask} {e : TaskEvent} (hw : t.WorkPending)
    (h : t.next e = some u) :
    u.WorkPending ∨ (u.mIsPulsing = false ∧ u.mPendingOff = false) := by
  cases e with
  | initiateAction a => cases h; simp [initiateAction, WorkPending]
  | sensingPoll read => obtain ⟨-, rfl⟩ := next_sensingPoll.mp h; exact .inl (by simpa [WorkPending])
  | controlPulse =>
    obtain ⟨-, rfl⟩ := next_controlPulse.mp h
    unfold controlPulseHandler
    cases hf : t.mPendingOff
    · exact .inr (by simp)
    · exact .inl (by simp [WorkPending])
  | standbyPulse =>
    obtain ⟨-, rfl⟩ := next_standbyPulse.mp h
    exact .inl (by simp [standbyPulseHandler, WorkPending])
  | standbyRelease => obtain ⟨-, rfl⟩ := next_standbyRelease.mp h; exact .inr ⟨rfl, rfl⟩
  | elapse ms => cases h; exact .inl hw

/-- A call leaves a control pulse to wait for. -/
theorem initiateAction_pulse (t : AppTask) (a : Bool) : (t.initiateAction a).mPulseWork ≠ none := by
  simp [initiateAction]

theorem releasable_next {t u : AppTask} {e : TaskEvent} (hr : t.Releasable)
    (h : t.next e = some u) : u.Releasable := by
  have hstandby := standby_held_next hr.standby h
  rcases call_or_silent e with ⟨a, rfl⟩ | he
  · cases h
    have hp := initiateAction_pulse t a
    exact ⟨fun _ => hp, hstandby, fun _ => .inl hp, fun _ => .inl hp⟩
  have hsil := next_silent he h
  refine ⟨fun hc hp => ?_, hstandby, fun hp => ?_, fun hp => ?_⟩
  · have hpin := hsil.ctrlPin
    by_cases hcp : e = .controlPulse
    · rw [if_pos hcp, hc] at hpin; cases hpin
    · rw [if_neg hcp, hc] at hpin
      exact hr.ctrl hpin.symm ((hsil.pulse.mp hp).resolve_left hcp)
  · refine (workPending_next (hr.pulsing (hsil.raised hp)) h).resolve_right fun hf => ?_
    rw [hp] at hf; cases hf.1
  · refine (workPending_next (hr.pendingOff (hsil.flag.mp hp).2) h).resolve_right fun hf => ?_
    rw [hp] at hf; cases hf.2

theorem vote_warm (actionOn : Bool) : vote (if actionOn then 0x0000#16 else 0xFFFF#16) = actionOn := by
  cases actionOn <;> decide +kernel

/-- The vote follows the history through every event. -/
theorem voted_next {t u : AppTask} {e : TaskEvent} (hv : t.mVotedIsOn = vote t.mSenseHistory)
    (h : t.next e = some u) : u.mVotedIsOn = vote u.mSenseHistory := by
  rcases call_or_sample e with ⟨a, rfl⟩ | ⟨read, rfl, hr⟩ | he
  · cases h
    exact (vote_warm a).symm
  · rw [next_sample h hr]
  · obtain ⟨hhist, hvote⟩ := unsensed_next he h
    rw [hhist, hvote, hv]

theorem bootedAt_wf (uptime : Nat) : (bootedAt uptime).Wf where
  ctrl h := by simp [bootedAt] at h
  standby h := by simp [bootedAt] at h
  pulsing h := by simp [bootedAt] at h
  pendingOff h := by simp [bootedAt] at h
  held h := by simp [bootedAt] at h
  pressed h := by simp [bootedAt] at h
  voted := (vote_warm false).symm

theorem next_wf {t u : AppTask} {e : TaskEvent} (hw : t.Wf) (h : t.next e = some u) : u.Wf := by
  refine ⟨releasable_next hw.toReleasable h, fun hp => ?_, fun hp => ?_, voted_next hw.voted h⟩
  · rcases call_or_silent e with ⟨a, rfl⟩ | he
    · cases h; rfl
    have hsil := next_silent he h
    have hn := mt hsil.pulse.mpr hp
    rw [hsil.ctrlPin, if_neg fun he => hn (.inl he)]
    exact hw.held fun ht => hn (.inr ht)
  · rcases standbyPin_next h with ⟨h1, h2⟩ | ⟨h1, -⟩ | ⟨-, h2⟩
    · rw [h1]; exact hw.pressed (h2 ▸ hp)
    · exact h1
    · exact absurd h2 hp

theorem run_wf {t₀ t : AppTask} {es : List TaskEvent} {cs : List PinChange} (hb : Booted t₀)
    (h : task.run t₀ es = some (t, cs)) : t.Wf := by
  obtain ⟨uptime, rfl⟩ := booted_iff.mp hb
  exact Machine.run_inv (fun t e u o hw hs => next_wf hw (step_iff.mp hs).1) (bootedAt_wf uptime) h

/-- With no work of an action pending nothing stands any more. -/
theorem AppTask.Releasable.settled {t : AppTask} (hr : t.Releasable) (h : ¬ t.WorkPending) :
    t.Quiet ∧ t.mIsPulsing = false ∧ t.mPendingOff = false := by
  have hflag : t.mIsPulsing = false ∧ t.mPendingOff = false :=
    ⟨Bool.eq_false_iff.mpr (mt hr.pulsing h), Bool.eq_false_iff.mpr (mt hr.pendingOff h)⟩
  simp only [WorkPending, not_or, not_not] at h
  refine ⟨⟨?_, ?_, h⟩, hflag⟩
  · exact PinMode.ne_outputLow.mp fun hc => hr.ctrl hc h.1
  · exact PinMode.ne_outputLow.mp fun hc => hr.standby hc h.2.2

theorem AppTask.Releasable.quiet_iff {t : AppTask} (hr : t.Releasable) :
    t.Quiet ↔ ¬ t.WorkPending := by
  refine ⟨fun h => ?_, fun h => (hr.settled h).1⟩
  simp only [WorkPending, not_or, not_not]
  exact h.2.2

/-- Only a call makes a work of an action pending when none is. -/
theorem idle_next {t u : AppTask} {e : TaskEvent} (he : targets [e] = []) (hi : ¬ t.WorkPending)
    (h : t.next e = some u) : ¬ u.WorkPending := by
  cases e with
  | initiateAction a => cases he
  | sensingPoll read =>
    obtain ⟨-, rfl⟩ := next_sensingPoll.mp h
    simpa [WorkPending] using hi
  | controlPulse => exact absurd (.inl (next_controlPulse.mp h).1) hi
  | standbyPulse => exact absurd (.inr (.inl (next_standbyPulse.mp h).1)) hi
  | standbyRelease => exact absurd (.inr (.inr (next_standbyRelease.mp h).1)) hi
  | elapse ms => cases h; exact hi

end ThreadSwitch.Heater
