import ThreadSwitch.Heater.Serial

/-!
# When the buttons are pressed

In the runs in which every work runs exactly at its deadline (`Punctual`), the times of the
calls decide the times of all pin changes:

- `timed_presses`: calls that leave each other time to finish press the buttons at exactly
  the times their scripts say.
- `released_after_calls`: however calls overlap, the control pin is released 300 ms after
  the last of them, and nothing is left 1600 ms after it.
-/

namespace ThreadSwitch.Heater

open ThreadSwitch.Zephyr ThreadSwitch.Lib AppTask

/-- The task, with the time of each pin change. -/
def clocked : Machine AppTask TaskEvent (Nat × PinChange) where
  step t e := (t.next e).map fun u => (u, (pinChanges t u).map fun c => (t.uptime, c))

/-- The uptime and the calls so far, with their times. -/
structure Journal where
  uptime : Nat
  calls : List (Nat × Bool)

def Journal.next (j : Journal) : TaskEvent → Journal
  | .initiateAction actionOn => { j with calls := j.calls ++ [(j.uptime, actionOn)] }
  | .elapse ms => { j with uptime := j.uptime + ms }
  | _ => j

def journal (uptime : Nat) (es : List TaskEvent) : Journal := es.foldl Journal.next ⟨uptime, []⟩

/-- The times and targets of the calls, in call order. -/
def callsAt (uptime : Nat) (es : List TaskEvent) : List (Nat × Bool) := (journal uptime es).calls

/-- How long an action takes. -/
def duration (actionOn : Bool) : Nat := if actionOn then 300 else 1600

/-- Each call comes when the action of the call before has ended. -/
def Spaced (calls : List (Nat × Bool)) : Prop :=
  calls.IsChain fun c c' => c.1 + duration c.2 < c'.1

instance (calls : List (Nat × Bool)) : Decidable (Spaced calls) :=
  inferInstanceAs (Decidable (List.IsChain _ _))

/-- The pin changes of a call, with their times. -/
def timedPresses (c : Nat × Bool) : List (Nat × PinChange) :=
  [(c.1, ⟨.ctrl, .outputLow⟩), (c.1 + 300, ⟨.ctrl, .input⟩)] ++
    if c.2 then [] else [(c.1 + 1300, ⟨.standby, .outputLow⟩), (c.1 + 1600, ⟨.standby, .input⟩)]

section journal
variable {uptime : Nat} {es : List TaskEvent} {e : TaskEvent} {t u : AppTask}
  {cs : List (Nat × PinChange)}

theorem clocked_step_iff :
    clocked.step t e = some (u, cs) ↔
      t.next e = some u ∧ cs = (pinChanges t u).map fun c => (t.uptime, c) := by
  simp only [clocked, Option.map_eq_some_iff, Prod.mk.injEq]
  refine ⟨?_, fun h => ⟨u, h.1, rfl, h.2.symm⟩⟩
  rintro ⟨v, h, rfl, rfl⟩
  exact ⟨h, rfl⟩

theorem journal_snoc : journal uptime (es ++ [e]) = (journal uptime es).next e := by
  rw [journal, List.foldl_append]
  rfl

/-- Only the passing of time moves the clock. -/
theorem uptime_next (j : Journal) (hj : j.uptime = t.uptime) (h : t.next e = some u) :
    (j.next e).uptime = u.uptime := by
  cases e with
  | initiateAction a => cases h; exact hj
  | sensingPoll read =>
    obtain ⟨-, rfl⟩ := next_sensingPoll.mp h
    rw [sensingPollHandler_fst]
    split <;> exact hj
  | controlPulse =>
    obtain ⟨-, rfl⟩ := next_controlPulse.mp h
    unfold controlPulseHandler
    cases t.mPendingOff <;> exact hj
  | standbyPulse => obtain ⟨-, rfl⟩ := next_standbyPulse.mp h; exact hj
  | standbyRelease => obtain ⟨-, rfl⟩ := next_standbyRelease.mp h; exact hj
  | elapse ms => cases h; simp [Journal.next, hj]

theorem journal_uptime (h : clocked.run t es = some (u, cs)) :
    (journal t.uptime es).uptime = u.uptime := by
  refine Machine.run_induct (motive := fun es _ u => (journal t.uptime es).uptime = u.uptime) rfl ?_ h
  intro es cs v e o u _ ih hs
  rw [journal_snoc]
  exact uptime_next _ ih (clocked_step_iff.mp hs).1

theorem callsAt_call (h : clocked.run t es = some (u, cs)) (a : Bool) :
    callsAt t.uptime (es ++ [.initiateAction a]) = callsAt t.uptime es ++ [(u.uptime, a)] := by
  rw [callsAt, journal_snoc, ← journal_uptime h]
  rfl

theorem callsAt_silent (he : targets [e] = []) : callsAt uptime (es ++ [e]) = callsAt uptime es := by
  rw [callsAt, journal_snoc]
  cases e with
  | initiateAction a => cases he
  | _ => rfl

end journal

/-! ## Spaced calls -/

/-- `ServesAt t c todo`: the task is where `todo` is left of the call `c`, and the work for
the first of it is pending for its time. -/
inductive ServesAt (t : AppTask) (c : Nat × Bool) : List (Nat × PinChange) → Prop where
  | idle : t.Quiet → t.mIsPulsing = false → ServesAt t c []
  | pulse : t.mCtrlPinOn = .outputLow → t.mStandbyPin = .input → t.mPulseWork = some (c.1 + 300) →
      t.mStandbyWork = none → t.mStandbyReleaseWork = none → t.mIsPulsing = true →
      t.mPendingOff = !c.2 → t.uptime ≤ c.1 + 300 → ServesAt t c (timedPresses c).tail
  | delay : t.mCtrlPinOn = .input → t.mStandbyPin = .input → t.mPulseWork = none →
      t.mStandbyWork = some (c.1 + 1300) → t.mStandbyReleaseWork = none → t.mIsPulsing = true →
      c.2 = false → t.uptime ≤ c.1 + 1300 →
      ServesAt t c [(c.1 + 1300, ⟨.standby, .outputLow⟩), (c.1 + 1600, ⟨.standby, .input⟩)]
  | standby : t.mCtrlPinOn = .input → t.mStandbyPin = .outputLow → t.mPulseWork = none →
      t.mStandbyWork = none → t.mStandbyReleaseWork = some (c.1 + 1600) → t.mIsPulsing = true →
      c.2 = false → t.uptime ≤ c.1 + 1600 → ServesAt t c [(c.1 + 1600, ⟨.standby, .input⟩)]

section serves
variable {t u : AppTask} {c : Nat × Bool} {todo : List (Nat × PinChange)} {e : TaskEvent}

/-- Something is left only until the action's time has passed, and the flag shows it. -/
theorem ServesAt.busy (h : ServesAt t c todo) :
    (t.mIsPulsing = true ↔ todo ≠ []) ∧ (todo ≠ [] → t.uptime ≤ c.1 + duration c.2) := by
  cases h with
  | idle _ hf => simp [hf]
  | pulse _ _ _ _ _ hp _ ht =>
    refine ⟨by simp [hp, timedPresses], fun _ => ?_⟩
    unfold duration
    split <;> omega
  | delay _ _ _ _ _ hp hc ht | standby _ _ _ _ _ hp hc ht =>
    refine ⟨by simp [hp], fun _ => ?_⟩
    rw [hc]
    show _ ≤ c.1 + 1600
    omega

/-- What is left is still to come. -/
theorem ServesAt.ahead (h : ServesAt t c todo) : ∀ p ∈ todo, t.uptime ≤ p.1 := by
  cases h with
  | idle _ _ => simp
  | pulse _ _ _ _ _ _ _ ht =>
    cases hc : c.2 with
    | true => simpa [timedPresses, hc] using ht
    | false => simp [timedPresses, hc]; omega
  | delay _ _ _ _ _ _ _ ht => simp; omega
  | standby _ _ _ _ _ _ _ ht => simpa using ht

/-- A call finds nothing left when the action before has had its time. -/
theorem ServesAt.call (h : ServesAt t c todo) (hlate : todo ≠ [] → c.1 + duration c.2 < t.uptime)
    (a : Bool) :
    todo = [] ∧ pinChanges t (t.initiateAction a) = [⟨.ctrl, .outputLow⟩] ∧
      ServesAt (t.initiateAction a) (t.uptime, a) (timedPresses (t.uptime, a)).tail := by
  have hnil : todo = [] := by
    by_contra hne
    have := h.busy.2 hne
    have := hlate hne
    omega
  subst hnil
  cases h with
  | idle hq hf =>
    obtain ⟨h1, h2, h3, h4, h5⟩ := hq
    refine ⟨rfl, by simp [pinChanges, initiateAction, h1], ?_⟩
    exact .pulse rfl h2 rfl h4 h5 rfl rfl (Nat.le_add_right _ _)

/-- The works of an action that are pending are so for a time still to come. -/
theorem ServesAt.due (h : ServesAt t c todo) :
    ∀ work ∈ [t.mPulseWork, t.mStandbyWork, t.mStandbyReleaseWork], ∀ deadline ∈ work,
      t.uptime ≤ deadline := by
  cases h with
  | idle hq _ =>
    obtain ⟨-, -, h3, h4, h5⟩ := hq
    simp [h3, h4, h5]
  | pulse _ _ h3 h4 h5 _ _ ht | delay _ _ h3 h4 h5 _ _ ht | standby _ _ h3 h4 h5 _ _ ht =>
    simp [h3, h4, h5, ht]

/-- Polls, and time that does not pass a deadline, keep what is left to do. -/
theorem ServesAt.frame (h : ServesAt t c todo)
    (hc : u.mCtrlPinOn = t.mCtrlPinOn) (hs : u.mStandbyPin = t.mStandbyPin)
    (hp : u.mPulseWork = t.mPulseWork) (hd : u.mStandbyWork = t.mStandbyWork)
    (hr : u.mStandbyReleaseWork = t.mStandbyReleaseWork) (hi : u.mIsPulsing = t.mIsPulsing)
    (ho : u.mPendingOff = t.mPendingOff)
    (hdue : ∀ work ∈ [t.mPulseWork, t.mStandbyWork, t.mStandbyReleaseWork], ∀ deadline ∈ work,
      u.uptime ≤ deadline) : pinChanges t u = [] ∧ ServesAt u c todo := by
  refine ⟨by simp [pinChanges, hc, hs], ?_⟩
  cases h with
  | idle hq hf =>
    obtain ⟨h1, h2, h3, h4, h5⟩ := hq
    exact .idle ⟨hc.trans h1, hs.trans h2, hp.trans h3, hd.trans h4, hr.trans h5⟩ (hi.trans hf)
  | pulse h1 h2 h3 h4 h5 h6 h7 _ =>
    exact .pulse (hc.trans h1) (hs.trans h2) (hp.trans h3) (hd.trans h4) (hr.trans h5) (hi.trans h6)
      (ho.trans h7) (hdue _ (by simp) _ h3)
  | delay h1 h2 h3 h4 h5 h6 h7 _ =>
    exact .delay (hc.trans h1) (hs.trans h2) (hp.trans h3) (hd.trans h4) (hr.trans h5) (hi.trans h6)
      h7 (hdue _ (by simp) _ h4)
  | standby h1 h2 h3 h4 h5 h6 h7 _ =>
    exact .standby (hc.trans h1) (hs.trans h2) (hp.trans h3) (hd.trans h4) (hr.trans h5)
      (hi.trans h6) h7 (hdue _ (by simp) _ h5)

/-- A punctual step other than a call makes the next change at its time, or none. -/
theorem ServesAt.next (h : ServesAt t c todo) (he : targets [e] = []) (hp : Punctual t e)
    (hn : t.next e = some u) :
    ∃ todo', todo = (pinChanges t u).map (fun ch => (t.uptime, ch)) ++ todo' ∧ ServesAt u c todo' := by
  cases e with
  | initiateAction a => cases he
  | sensingPoll read =>
    obtain ⟨-, rfl⟩ := next_sensingPoll.mp hn
    have huptime : (sensingPollHandler read { t with mSenseWork := none }).1.uptime = t.uptime := by
      rw [sensingPollHandler_fst]
      split <;> rfl
    obtain ⟨hch, hR⟩ := h.frame (u := (sensingPollHandler read { t with mSenseWork := none }).1)
      (by simp) (by simp) (by simp) (by simp) (by simp) (by simp) (by simp)
      (by rw [huptime]; exact h.due)
    exact ⟨todo, by rw [hch]; rfl, hR⟩
  | controlPulse =>
    obtain ⟨hpend, rfl⟩ := next_controlPulse.mp hn
    have hdue : t.mPulseWork = some t.uptime := hp
    cases h with
    | idle hq _ => exact absurd hq.2.2.1 hpend
    | delay _ _ h3 _ _ _ _ _ | standby _ _ h3 _ _ _ _ _ => exact absurd h3 hpend
    | pulse h1 h2 h3 h4 h5 h6 h7 ht =>
      have hat : t.uptime = c.1 + 300 := Option.some.inj (hdue.symm.trans h3)
      unfold controlPulseHandler
      cases hc : c.2 with
      | true =>
        refine ⟨[], ?_, ?_⟩
        · simp [timedPresses, hc, pinChanges, h1, h7, hat]
        · simp only [h7, hc]
          exact .idle ⟨rfl, h2, rfl, h4, h5⟩ rfl
      | false =>
        refine ⟨[(c.1 + 1300, ⟨.standby, .outputLow⟩), (c.1 + 1600, ⟨.standby, .input⟩)], ?_, ?_⟩
        · simp [timedPresses, hc, pinChanges, h1, h7, hat]
        · simp only [h7, hc]
          exact .delay rfl h2 rfl (by simp [kWorkReschedule, hat]) h5 h6 hc (by simp [hat])
  | standbyPulse =>
    obtain ⟨hpend, rfl⟩ := next_standbyPulse.mp hn
    have hdue : t.mStandbyWork = some t.uptime := hp
    cases h with
    | idle hq _ => exact absurd hq.2.2.2.1 hpend
    | pulse _ _ _ h4 _ _ _ _ | standby _ _ _ h4 _ _ _ _ => exact absurd h4 hpend
    | delay h1 h2 h3 h4 h5 h6 h7 ht =>
      have hat : t.uptime = c.1 + 1300 := Option.some.inj (hdue.symm.trans h4)
      refine ⟨[(c.1 + 1600, ⟨.standby, .input⟩)], ?_, ?_⟩
      · simp [pinChanges, standbyPulseHandler, h2, hat]
      · exact .standby h1 rfl h3 rfl (by simp [standbyPulseHandler, kWorkReschedule, hat]) h6 h7
          (by simp [standbyPulseHandler, hat])
  | standbyRelease =>
    obtain ⟨hpend, rfl⟩ := next_standbyRelease.mp hn
    have hdue : t.mStandbyReleaseWork = some t.uptime := hp
    cases h with
    | idle hq _ => exact absurd hq.2.2.2.2 hpend
    | pulse _ _ _ _ h5 _ _ _ | delay _ _ _ _ h5 _ _ _ => exact absurd h5 hpend
    | standby h1 h2 h3 h4 h5 h6 h7 ht =>
      have hat : t.uptime = c.1 + 1600 := Option.some.inj (hdue.symm.trans h5)
      refine ⟨[], ?_, .idle ⟨h1, rfl, h3, h4, rfl⟩ rfl⟩
      simp [pinChanges, standbyReleaseHandler, h2, hat]
  | elapse ms =>
    cases hn
    obtain ⟨hch, hR⟩ := h.frame (u := { t with uptime := t.uptime + ms }) rfl rfl rfl rfl rfl rfl rfl
      fun work hw => hp work (by simp at hw ⊢; tauto)
    exact ⟨todo, by rw [hch]; rfl, hR⟩

end serves

theorem uptime_le {t u : AppTask} {e : TaskEvent} (h : t.next e = some u) : t.uptime ≤ u.uptime := by
  rw [← uptime_next ⟨t.uptime, []⟩ rfl h]
  cases e <;> simp [Journal.next]

/-- The changes made and those left, and the last call as the one that is served. -/
structure OnTime (uptime : Nat) (es : List TaskEvent) (changes : List (Nat × PinChange))
    (t : AppTask) (c : Nat × Bool) (todo : List (Nat × PinChange)) : Prop where
  all : changes ++ todo = (callsAt uptime es).flatMap timedPresses
  made : ∀ p ∈ changes, p.1 ≤ t.uptime
  serves : ServesAt t c todo
  last : todo ≠ [] → (callsAt uptime es).getLast? = some c

theorem run_onTime {t₀ t : AppTask} {es : List TaskEvent} {changes : List (Nat × PinChange)}
    (hb : Booted t₀) (hp : clocked.Along Punctual t₀ es) (hs : Spaced (callsAt t₀.uptime es))
    (h : clocked.run t₀ es = some (t, changes)) :
    ∃ c todo, OnTime t₀.uptime es changes t c todo := by
  refine Machine.run_induct (motive := fun es changes t => clocked.Along Punctual t₀ es →
    Spaced (callsAt t₀.uptime es) → ∃ c todo, OnTime t₀.uptime es changes t c todo) ?_ ?_ h hp hs
  · obtain ⟨uptime, rfl⟩ := booted_iff.mp hb
    exact fun _ _ => ⟨(0, true), [], rfl, by simp, .idle ⟨rfl, rfl, rfl, rfl, rfl⟩ rfl, by simp⟩
  intro es changes t e o u hrun ih hstep hp hs
  obtain ⟨hpre, hlast⟩ := Machine.along_snoc.mp hp
  obtain ⟨hn, rfl⟩ := clocked_step_iff.mp hstep
  have hle := uptime_le hn
  rcases call_or_silent e with ⟨a, rfl⟩ | he
  · rw [callsAt_call hrun] at hs
    obtain ⟨hs, hlate⟩ := List.isChain_append.mp hs
    obtain ⟨c, todo, ht⟩ := ih hpre hs
    cases hn
    obtain ⟨rfl, hch, hserves⟩ := ht.serves.call
      (fun hne => hlate.2 c (ht.last hne) _ rfl) a
    refine ⟨_, _, ⟨?_, ?_, hserves, fun _ => ?_⟩⟩
    · rw [callsAt_call hrun, List.flatMap_append, ← ht.all, hch]
      simp [timedPresses]
    · rw [hch]
      simp only [List.mem_append, List.map_cons, List.map_nil, List.mem_singleton]
      rintro p (hmem | rfl)
      · exact ht.made p hmem
      · exact Nat.le_refl _
    · rw [callsAt_call hrun, List.getLast?_concat]
  · rw [callsAt_silent he] at hs
    obtain ⟨c, todo, ht⟩ := ih hpre hs
    obtain ⟨todo', rfl, hserves⟩ := ht.serves.next he (hlast t changes hrun) hn
    refine ⟨c, todo', ⟨?_, ?_, hserves, fun hne => ?_⟩⟩
    · rw [callsAt_silent he, ← ht.all, List.append_assoc]
    · simp only [List.mem_append, List.mem_map]
      rintro p (hmem | ⟨ch, -, rfl⟩)
      · exact Nat.le_trans (ht.made p hmem) hle
      · exact hle
    · rw [callsAt_silent he]
      exact ht.last fun hnil => hne (List.append_eq_nil_iff.mp hnil).2

/-- **Spaced calls press the buttons on time**: when each call comes later than 300 ms after
an ON, or 1600 ms after an OFF, the pins change exactly as the scripts of the calls say and
exactly at the times they say, up to now. -/
theorem timed_presses {t₀ t : AppTask} {es : List TaskEvent} {changes : List (Nat × PinChange)}
    (hb : Booted t₀) (hp : clocked.Along Punctual t₀ es) (hs : Spaced (callsAt t₀.uptime es))
    (h : clocked.run t₀ es = some (t, changes)) :
    ∃ todo, changes ++ todo = (callsAt t₀.uptime es).flatMap timedPresses ∧
      (∀ p ∈ changes, p.1 ≤ t.uptime) ∧ (∀ p ∈ todo, t.uptime ≤ p.1) ∧
      (t.mIsPulsing = true ↔ todo ≠ []) := by
  obtain ⟨c, todo, ht⟩ := run_onTime hb hp hs h
  exact ⟨todo, ht.all, ht.made, ht.serves.ahead, ht.serves.busy.1⟩

/-- An ON at 10 ms and an OFF at 410 ms, up to the OFF's standby pulse. The first poll finds
the port not ready. -/
def onThenOff : List TaskEvent :=
  [.sensingPoll ⟨false, 0⟩, .elapse 10, .initiateAction true, .elapse 300, .controlPulse,
    .elapse 100, .initiateAction false, .elapse 300, .controlPulse, .elapse 1000, .standbyPulse]

theorem onThenOff_timed :
    ∃ t changes todo, clocked.run (bootedAt 0) onThenOff = some (t, changes) ∧
      changes ++ todo = [(10, true), (410, false)].flatMap timedPresses ∧
        ∀ p ∈ todo, t.uptime ≤ p.1 := by
  obtain ⟨t, changes, hrun, hp⟩ : ∃ t changes,
      clocked.run (bootedAt 0) onThenOff = some (t, changes) ∧
        clocked.Along Punctual (bootedAt 0) onThenOff := Machine.run_eval (by decide +kernel)
  obtain ⟨todo, hall, -, hahead, -⟩ := timed_presses (bootedAt_booted 0) hp (by decide) hrun
  exact ⟨t, changes, todo, hrun, hall, hahead⟩

/-! ## Overlapping calls -/

/-- The works that are pending after a call at `called`, and when they end. -/
structure EndsAfter (called : Nat) (t : AppTask) : Prop where
  past : called ≤ t.uptime
  held : t.uptime < called + 300 → t.mPulseWork ≠ none
  pulse : ∀ deadline ∈ t.mPulseWork, t.uptime ≤ deadline ∧ deadline = called + 300
  standby : ∀ deadline ∈ t.mStandbyWork, t.uptime ≤ deadline ∧ deadline ≤ called + 1300
  release : ∀ deadline ∈ t.mStandbyReleaseWork, t.uptime ≤ deadline ∧ deadline ≤ called + 1600

section ends
variable {t u : AppTask} {called : Nat} {e : TaskEvent}

/-- A call takes over what is pending of earlier ones. -/
theorem endsAfter_call
    (hs : ∀ deadline ∈ t.mStandbyWork, t.uptime ≤ deadline ∧ deadline ≤ t.uptime + 1300)
    (hr : ∀ deadline ∈ t.mStandbyReleaseWork, t.uptime ≤ deadline ∧ deadline ≤ t.uptime + 1600)
    (a : Bool) : EndsAfter t.uptime (t.initiateAction a) where
  past := Nat.le_refl _
  held _ := by simp [initiateAction]
  pulse d hd := by
    simp [initiateAction, kWorkReschedule] at hd ⊢
    omega
  standby := hs
  release := hr

theorem EndsAfter.call (h : EndsAfter called t) (a : Bool) :
    EndsAfter t.uptime (t.initiateAction a) := by
  have hpast := h.past
  refine endsAfter_call (fun d hd => ?_) (fun d hd => ?_) a
  · obtain ⟨h1, h2⟩ := h.standby d hd
    omega
  · obtain ⟨h1, h2⟩ := h.release d hd
    omega

theorem EndsAfter.next (h : EndsAfter called t) (he : targets [e] = []) (hp : Punctual t e)
    (hn : t.next e = some u) : EndsAfter called u := by
  obtain ⟨hpast, hheld, hpulse, hstandby, hrelease⟩ := h
  cases e with
  | initiateAction a => cases he
  | sensingPoll read =>
    obtain ⟨-, rfl⟩ := next_sensingPoll.mp hn
    rw [sensingPollHandler_fst]
    split <;> exact ⟨hpast, hheld, hpulse, hstandby, hrelease⟩
  | controlPulse =>
    obtain ⟨-, rfl⟩ := next_controlPulse.mp hn
    obtain ⟨-, hat⟩ := hpulse _ hp
    unfold controlPulseHandler
    cases hf : t.mPendingOff with
    | true =>
      refine ⟨hpast, fun hlt => ?_, by simp, ?_, hrelease⟩
      · have hlt : t.uptime < called + 300 := hlt
        omega
      · simp [kWorkReschedule]
        omega
    | false =>
      refine ⟨hpast, fun hlt => ?_, by simp, hstandby, hrelease⟩
      have hlt : t.uptime < called + 300 := hlt
      omega
  | standbyPulse =>
    obtain ⟨-, rfl⟩ := next_standbyPulse.mp hn
    obtain ⟨-, hat⟩ := hstandby _ hp
    refine ⟨hpast, hheld, hpulse, by simp [standbyPulseHandler], ?_⟩
    simp [standbyPulseHandler, kWorkReschedule]
    omega
  | standbyRelease =>
    obtain ⟨-, rfl⟩ := next_standbyRelease.mp hn
    exact ⟨hpast, hheld, hpulse, hstandby, by simp [standbyReleaseHandler]⟩
  | elapse ms =>
    cases hn
    have hdue : ∀ work ∈ [t.mPulseWork, t.mStandbyWork, t.mStandbyReleaseWork, t.mSenseWork],
      ∀ deadline ∈ work, t.uptime + ms ≤ deadline := hp
    refine ⟨Nat.le_add_right_of_le hpast, fun hlt => hheld ?_, fun d hd => ?_, fun d hd => ?_,
      fun d hd => ?_⟩
    · have hlt : t.uptime + ms < called + 300 := hlt
      omega
    · exact ⟨hdue _ (by simp) d hd, (hpulse d hd).2⟩
    · exact ⟨hdue _ (by simp) d hd, (hstandby d hd).2⟩
    · exact ⟨hdue _ (by simp) d hd, (hrelease d hd).2⟩

end ends

theorem clocked_wf {t₀ t : AppTask} {es : List TaskEvent} {changes : List (Nat × PinChange)}
    (hb : Booted t₀) (h : clocked.run t₀ es = some (t, changes)) : t.Wf := by
  obtain ⟨uptime, rfl⟩ := booted_iff.mp hb
  exact Machine.run_inv (fun t e u o hw hs => next_wf hw (clocked_step_iff.mp hs).1)
    (bootedAt_wf uptime) h

theorem run_endsAfter {t₀ t : AppTask} {es : List TaskEvent} {changes : List (Nat × PinChange)}
    (hb : Booted t₀) (hp : clocked.Along Punctual t₀ es)
    (h : clocked.run t₀ es = some (t, changes)) :
    match (callsAt t₀.uptime es).getLast? with
    | none => ¬ t.WorkPending
    | some c => EndsAfter c.1 t := by
  refine Machine.run_induct (motive := fun es _ t => clocked.Along Punctual t₀ es →
    match (callsAt t₀.uptime es).getLast? with
    | none => ¬ t.WorkPending
    | some c => EndsAfter c.1 t) ?_ ?_ h hp
  · obtain ⟨uptime, rfl⟩ := booted_iff.mp hb
    exact fun _ => show ¬ (bootedAt uptime).WorkPending by simp [bootedAt, WorkPending]
  intro es changes t e o u hrun ih hstep hp
  obtain ⟨hpre, hlast⟩ := Machine.along_snoc.mp hp
  have hn := (clocked_step_iff.mp hstep).1
  have ih := ih hpre
  rcases call_or_silent e with ⟨a, rfl⟩ | he
  · rw [callsAt_call hrun, List.getLast?_concat]
    cases hn
    cases hc : (callsAt t₀.uptime es).getLast? with
    | none =>
      rw [hc] at ih
      simp only [WorkPending, not_or, not_not] at ih
      exact endsAfter_call (by simp [ih]) (by simp [ih]) a
    | some c =>
      rw [hc] at ih
      exact ih.call a
  · rw [callsAt_silent he]
    cases hc : (callsAt t₀.uptime es).getLast? with
    | none =>
      rw [hc] at ih
      exact idle_next he ih hn
    | some c =>
      rw [hc] at ih
      exact ih.next he (hlast t changes hrun) hn

/-- **However calls overlap, what they have started ends in time**: the control pin is LOW
until 300 ms after the last call and no longer, and when 1600 ms have passed since then both
pins are Hi-Z, no work of an action is pending and both flags are clear. -/
theorem released_after_calls {t₀ t : AppTask} {es : List TaskEvent}
    {changes : List (Nat × PinChange)} {c : Nat × Bool} (hb : Booted t₀)
    (hp : clocked.Along Punctual t₀ es) (h : clocked.run t₀ es = some (t, changes))
    (hc : (callsAt t₀.uptime es).getLast? = some c) :
    (t.uptime < c.1 + 300 → t.mCtrlPinOn = .outputLow) ∧
      (c.1 + 300 < t.uptime → t.mCtrlPinOn = .input) ∧
      (c.1 + 1600 < t.uptime → t.Quiet ∧ t.mIsPulsing = false ∧ t.mPendingOff = false) := by
  have hends := run_endsAfter hb hp h
  rw [hc] at hends
  obtain ⟨-, hheld, hpulse, hstandby, hrelease⟩ := hends
  have hw := clocked_wf hb h
  refine ⟨fun hlt => hw.held (hheld hlt), fun hlt => ?_, fun hlt => hw.toReleasable.settled ?_⟩
  · refine PinMode.ne_outputLow.mp fun hlow => ?_
    obtain ⟨d, hd⟩ := Option.ne_none_iff_exists'.mp (hw.ctrl hlow)
    have := hpulse d hd
    omega
  · rintro (hpend | hpend | hpend) <;> obtain ⟨d, hd⟩ := Option.ne_none_iff_exists'.mp hpend
    · have := hpulse d hd
      omega
    · have := hstandby d hd
      omega
    · have := hrelease d hd
      omega

/-- An ON 100 ms into an OFF, and 1700 ms of rest. -/
def onDuringOff : List TaskEvent :=
  [.sensingPoll ⟨false, 0⟩, .initiateAction false, .elapse 100, .initiateAction true, .elapse 300,
    .controlPulse, .elapse 1700]

theorem onDuringOff_released :
    ∃ t changes, clocked.run (bootedAt 0) onDuringOff = some (t, changes) ∧ t.Quiet ∧
      t.mIsPulsing = false := by
  obtain ⟨t, changes, hrun, hp, hlate⟩ : ∃ t changes,
      clocked.run (bootedAt 0) onDuringOff = some (t, changes) ∧
        clocked.Along Punctual (bootedAt 0) onDuringOff ∧ 100 + 1600 < t.uptime :=
    Machine.run_eval (by decide +kernel)
  obtain ⟨hquiet, hflag, -⟩ :=
    (released_after_calls (c := (100, true)) (bootedAt_booted 0) hp hrun rfl).2.2 hlate
  exact ⟨t, changes, hrun, hquiet, hflag⟩

end ThreadSwitch.Heater
