import ThreadSwitch.LightSwitch.Dimming

/-!
# What a hold of the button commands

- `calls_despite_delay`: however late the tasks run, the calls are those of the tasks in the
  order they were posted.
- `hold_commands`: where the tasks run before anything else happens, every hold of the button
  commands what its length says: a toggle below 500 ms, else ON and one step of the
  brightness for every 300 ms more.
-/

namespace ThreadSwitch.LightSwitch

open ThreadSwitch.Zephyr ThreadSwitch.Lib

/-! ## The tasks in the order they were posted -/

/-- The tasks an event posts. -/
def SwitchEvent.posts : SwitchEvent → List PostedTask
  | .buttons state hasChanged =>
    if inMask hasChanged && !inMask state then [.dimmerTriggerEventHandler] else []
  | .expires timer => [.timerEventHandler timer]
  | .runTask | .elapse _ => []

/-- The calls a task makes. -/
def PostedTask.calls (wasTriggered : Bool) : PostedTask → List SwitchCall
  | .dimmerTriggerEventHandler => if wasTriggered then [] else [.initiateActionSwitch .toggle]
  | .timerEventHandler .dimmerTrigger => [.initiateActionSwitch .on]
  | .timerEventHandler .dimmer => [.dimmerChangeBrightness]

/-- The calls of tasks that run one after the other. -/
def callsOf (wasTriggered : Bool) : List PostedTask → List SwitchCall
  | [] => []
  | task :: rest => task.calls wasTriggered ++ callsOf (task.leaves wasTriggered) rest

theorem callsOf_append (wasTriggered : Bool) (xs ys : List PostedTask) :
    callsOf wasTriggered (xs ++ ys) =
      callsOf wasTriggered xs ++ callsOf (xs.foldl PostedTask.leaves wasTriggered) ys := by
  induction xs generalizing wasTriggered with
  | nil => rfl
  | cons task xs ih => rw [List.cons_append, callsOf, ih, callsOf, List.append_assoc]; rfl

section steps
variable {t u : AppTask} {e : SwitchEvent} {o : List SwitchCall}

/-- An event other than the running of a task posts its tasks, calls nothing and leaves
`sWasDimmerTriggered` alone. -/
theorem posts_next (he : e ≠ .runTask) (h : switch.step t e = some (u, o)) :
    o = [] ∧ u.tasks = t.tasks ++ e.posts ∧ u.sWasDimmerTriggered = t.sWasDimmerTriggered := by
  cases e with
  | buttons state hasChanged =>
    obtain ⟨rfl, ⟨hc, rfl⟩ | ⟨hup, -, rfl⟩ | ⟨hdown, hc, rfl⟩⟩ := step_buttons h
    · simp [SwitchEvent.posts, hc]
    · simp [SwitchEvent.posts, hup]
    · simp [SwitchEvent.posts, hdown, hc]
  | expires timer =>
    cases timer with
    | dimmerTrigger => obtain ⟨rfl, c, -, rfl⟩ := step_dimmerTrigger h; exact ⟨rfl, rfl, rfl⟩
    | dimmer => obtain ⟨rfl, c, -, rfl⟩ := step_dimmer h; exact ⟨rfl, rfl, rfl⟩
  | runTask => exact absurd rfl he
  | elapse ms => cases h; exact ⟨rfl, (List.append_nil _).symm, rfl⟩

theorem runs_next (h : switch.step t .runTask = some (u, o)) :
    ∃ task, t.tasks = task :: u.tasks ∧ o = task.calls t.sWasDimmerTriggered ∧
      u.sWasDimmerTriggered = task.leaves t.sWasDimmerTriggered := by
  obtain ⟨task, rest, hq, ⟨rfl, rfl, rfl⟩ | ⟨rfl, rfl, rfl⟩ | ⟨rfl, rfl, rfl⟩⟩ := step_runTask h
  · exact ⟨_, hq, rfl, rfl⟩
  · exact ⟨_, hq, rfl, rfl⟩
  · exact ⟨_, hq, rfl, rfl⟩

end steps

/-- The tasks that have run are the first ones posted, and decide the calls made and whether
the dimmer is triggered. -/
theorem tasks_run_in_order {uptime : Nat} {pressed : Bool} {t : AppTask} {es : List SwitchEvent}
    {cs : List SwitchCall} (h : switch.run (.init uptime pressed) es = some (t, cs)) :
    ∃ ran, es.flatMap SwitchEvent.posts = ran ++ t.tasks ∧ cs = callsOf false ran ∧
      t.sWasDimmerTriggered = ran.foldl PostedTask.leaves false := by
  refine Machine.run_induct (motive := fun es cs t =>
    ∃ ran, es.flatMap SwitchEvent.posts = ran ++ t.tasks ∧ cs = callsOf false ran ∧
      t.sWasDimmerTriggered = ran.foldl PostedTask.leaves false) ⟨[], rfl, rfl, rfl⟩ ?_ h
  rintro es cs t e o u - ⟨ran, hposted, rfl, hwas⟩ hs
  rw [List.flatMap_append, List.flatMap_singleton, hposted]
  by_cases he : e = .runTask
  · subst he
    obtain ⟨task, hq, rfl, hleaves⟩ := runs_next hs
    refine ⟨ran ++ [task], by simp [SwitchEvent.posts, hq], ?_, ?_⟩
    · rw [callsOf_append, ← hwas, callsOf, callsOf, List.append_nil]
    · rw [hleaves, hwas, List.foldl_append]
      rfl
  · obtain ⟨rfl, hq, hsame⟩ := posts_next he hs
    exact ⟨ran, by rw [hq, List.append_assoc], List.append_nil _, hsame.trans hwas⟩

/-- The board reports its buttons after the expiries that are due. -/
def ReportsLast (t : AppTask) : SwitchEvent → Prop
  | .buttons _ _ =>
    ∀ timer ∈ [t.sDimmerPressKeyTimer, t.sDimmerTimer], ∀ c ∈ timer, t.uptime < c.expires
  | .expires _ | .runTask | .elapse _ => True

instance (t : AppTask) : ∀ e, Decidable (ReportsLast t e)
  | .buttons _ _ => inferInstanceAs (Decidable (∀ timer ∈ [t.sDimmerPressKeyTimer, t.sDimmerTimer],
      ∀ c ∈ timer, t.uptime < c.expires))
  | .expires _ | .runTask | .elapse _ => isTrue trivial

/-- The timers expire at their time, and the tasks run before anything else happens. -/
def Prompt (t : AppTask) (e : SwitchEvent) : Prop :=
  Timely t e ∧ ReportsLast t e ∧ (e ≠ .runTask → t.tasks = [])

instance (t : AppTask) (e : SwitchEvent) : Decidable (Prompt t e) :=
  inferInstanceAs (Decidable (_ ∧ _ ∧ _))

/-- The uptime, when the button was pressed if it is, and how long it was held each time. -/
structure Journal where
  uptime : Nat
  pressedAt : Option Nat
  holds : List Nat

def Journal.next (j : Journal) : SwitchEvent → Journal
  | .buttons state hasChanged =>
    if inMask hasChanged then
      if inMask state then { j with pressedAt := some j.uptime }
      else { j with
        pressedAt := none
        holds := j.holds ++ (j.pressedAt.map fun pressed => j.uptime - pressed).toList }
    else j
  | .elapse ms => { j with uptime := j.uptime + ms }
  | .expires _ | .runTask => j

def journal (uptime : Nat) (es : List SwitchEvent) : Journal :=
  es.foldl Journal.next ⟨uptime, none, []⟩

/-- How long the button was held each time, in milliseconds. -/
def holds (uptime : Nat) (es : List SwitchEvent) : List Nat := (journal uptime es).holds

/-- What a hold commands. -/
def holdCalls (ms : Nat) : List SwitchCall :=
  if ms < kDimmerTriggeredTimeout then [.initiateActionSwitch .toggle]
  else .initiateActionSwitch .on ::
    List.replicate ((ms - kDimmerTriggeredTimeout) / kDimmerInterval) .dimmerChangeBrightness

/-- The tasks posted during a hold, when the first timer has expired and the other one `n` times. -/
def dimmingTasks (n : Nat) : List PostedTask :=
  .timerEventHandler .dimmerTrigger :: List.replicate n (.timerEventHandler .dimmer)

/-- The tasks posted for a hold, with that of its release. -/
def holdTasks (ms : Nat) : List PostedTask :=
  (if ms < kDimmerTriggeredTimeout then []
    else dimmingTasks ((ms - kDimmerTriggeredTimeout) / kDimmerInterval)) ++
      [.dimmerTriggerEventHandler]

theorem callsOf_dimmer (n : Nat) (tasks : List PostedTask) :
    callsOf true (List.replicate n (.timerEventHandler .dimmer) ++ tasks) =
      List.replicate n .dimmerChangeBrightness ++ callsOf true tasks := by
  induction n with
  | zero => rfl
  | succ n ih => rw [List.replicate_succ, List.cons_append, callsOf, PostedTask.leaves, ih]; rfl

/-- A hold leaves the dimmer not triggered, for the next one. -/
theorem callsOf_holdTasks (ms : Nat) (tasks : List PostedTask) :
    callsOf false (holdTasks ms ++ tasks) = holdCalls ms ++ callsOf false tasks := by
  unfold holdTasks holdCalls
  split
  · rfl
  · rw [dimmingTasks, List.append_assoc, List.cons_append, callsOf, PostedTask.leaves,
      callsOf_dimmer]
    rfl

theorem callsOf_holds (holds : List Nat) :
    callsOf false (holds.flatMap holdTasks) = holds.flatMap holdCalls := by
  induction holds with
  | nil => rfl
  | cons ms holds ih => rw [List.flatMap_cons, callsOf_holdTasks, ih, List.flatMap_cons]

/-- `Phase t pressedAt posted`: the application is between holds, or the button is held
since `pressedAt` and `posted` are the tasks of the hold so far. -/
inductive Phase (t : AppTask) : Option Nat → List PostedTask → Prop where
  | idle : t.pressed = false → t.sDimmerPressKeyTimer = none → t.sDimmerTimer = none →
      t.tasks = [] → Phase t none []
  | released : t.pressed = false → t.tasks = [.dimmerTriggerEventHandler] → Phase t none []
  | armed (since : Nat) : t.pressed = true → t.sDimmerPressKeyTimer = some ⟨since + 500, 0⟩ →
      t.sDimmerTimer = none → t.tasks = [] → since ≤ t.uptime → Phase t (some since) []
  | triggered (since : Nat) : t.pressed = true → t.sDimmerPressKeyTimer = none →
      t.sDimmerTimer = none → t.tasks = [.timerEventHandler .dimmerTrigger] →
      t.uptime = since + 500 → Phase t (some since) (dimmingTasks 0)
  | dimming (since n : Nat) : t.pressed = true → t.sDimmerPressKeyTimer = none →
      t.sDimmerTimer = some ⟨since + 500 + 300 * (n + 1), 300⟩ →
      t.tasks = [] ∨ t.tasks = [.timerEventHandler .dimmer] → since + 500 + 300 * n ≤ t.uptime →
      Phase t (some since) (dimmingTasks n)

section phases
variable {t u : AppTask} {e : SwitchEvent} {o : List SwitchCall} {j : Journal}
  {posted : List PostedTask}

/-- The board reports the application button changed when it did. -/
theorem report_changed {state hasChanged : BitVec 32}
    (h : switch.step t (.buttons state hasChanged) = some (u, o)) :
    inMask hasChanged = (inMask state != t.pressed) := by
  simp only [switch] at h
  split at h
  · assumption
  · cases h

/-- The tasks of a hold that ends now. -/
theorem Phase.holdTasks {since : Nat} (hphase : Phase t (some since) posted) (hdone : t.tasks = [])
    (hfired : ∀ timer ∈ [t.sDimmerPressKeyTimer, t.sDimmerTimer], ∀ c ∈ timer, t.uptime < c.expires) :
    posted ++ [.dimmerTriggerEventHandler] = LightSwitch.holdTasks (t.uptime - since) := by
  unfold LightSwitch.holdTasks
  cases hphase with
  | armed _ _ htrigger _ _ hle =>
    have hlt : t.uptime < since + 500 := hfired _ (by simp) _ htrigger
    rw [if_pos (show t.uptime - since < kDimmerTriggeredTimeout by
      unfold kDimmerTriggeredTimeout; omega)]
  | triggered _ _ _ _ htasks _ => rw [hdone] at htasks; cases htasks
  | dimming _ n _ _ hdimmer _ hle =>
    have hlt : t.uptime < since + 500 + 300 * (n + 1) := hfired _ (by simp) _ hdimmer
    have hn : (t.uptime - since - kDimmerTriggeredTimeout) / kDimmerInterval = n := by
      unfold kDimmerTriggeredTimeout kDimmerInterval
      omega
    rw [if_neg (show ¬ t.uptime - since < kDimmerTriggeredTimeout by
      unfold kDimmerTriggeredTimeout; omega), hn]

/-- A report of the buttons starts a hold, ends one, or does nothing. -/
theorem phase_buttons {state hasChanged : BitVec 32} (hphase : Phase t j.pressedAt posted)
    (huptime : j.uptime = t.uptime) (hp : Prompt t (.buttons state hasChanged))
    (h : switch.step t (.buttons state hasChanged) = some (u, o)) :
    ∃ posted', Phase u (j.next (.buttons state hasChanged)).pressedAt posted' ∧
      j.holds.flatMap holdTasks ++ posted ++ SwitchEvent.posts (.buttons state hasChanged) =
        (j.next (.buttons state hasChanged)).holds.flatMap holdTasks ++ posted' := by
  have hreport := report_changed h
  have hdone : t.tasks = [] := hp.2.2 (by simp)
  obtain ⟨-, ⟨hc, rfl⟩ | ⟨hup, hreleased, rfl⟩ | ⟨hdown, hc, rfl⟩⟩ := step_buttons h
  · simp only [Journal.next, SwitchEvent.posts, hc]
    exact ⟨posted, hphase, List.append_nil _⟩
  · have hc : inMask hasChanged = true := by rw [hreport, hup, hreleased]; rfl
    simp only [Journal.next, SwitchEvent.posts, hc, hup, if_true]
    generalize j.pressedAt = pressedAt at hphase
    cases hphase with
    | idle _ _ hdimmer _ =>
      refine ⟨[], ?_, List.append_nil _⟩
      rw [huptime]
      exact .armed t.uptime rfl rfl hdimmer hdone (Nat.le_refl _)
    | released _ htasks => rw [hdone] at htasks; cases htasks
    | armed _ hheld _ _ _ _ | triggered _ hheld _ _ _ _ | dimming _ _ hheld _ _ _ _ =>
      rw [hreleased] at hheld
      cases hheld
  · have hheld : t.pressed = true := by
      rw [hc, hdown] at hreport
      simpa using hreport
    have hfired := hp.2.1
    simp only [Journal.next, SwitchEvent.posts, hc, hdown]
    cases hsince : j.pressedAt with
    | none =>
      rw [hsince] at hphase
      cases hphase with
      | idle hreleased _ _ _ | released hreleased _ =>
        rw [hheld] at hreleased
        cases hreleased
    | some since =>
      rw [hsince] at hphase
      refine ⟨[], .released rfl (by simp [hdone]), ?_⟩
      show j.holds.flatMap holdTasks ++ posted ++ [.dimmerTriggerEventHandler] =
        (j.holds ++ [j.uptime - since]).flatMap holdTasks ++ []
      rw [List.flatMap_append, List.flatMap_singleton, List.append_nil, List.append_assoc,
        hphase.holdTasks hdone hfired, huptime]

/-- An expiry is the next one of the hold. -/
theorem phase_expires {timer : Timer} {pressedAt : Option Nat} (hphase : Phase t pressedAt posted)
    (hp : Prompt t (.expires timer)) (h : switch.step t (.expires timer) = some (u, o)) :
    u.uptime = t.uptime ∧ Phase u pressedAt (posted ++ [.timerEventHandler timer]) := by
  have hdone : t.tasks = [] := hp.2.2 (by simp)
  cases timer with
  | dimmerTrigger =>
    obtain ⟨-, c, hc, rfl⟩ := step_dimmerTrigger h
    have hdue : c.expires = t.uptime := hp.1 c hc
    refine ⟨rfl, ?_⟩
    cases hphase with
    | armed since hheld htrigger hdimmer _ _ =>
      rw [htrigger] at hc
      cases hc
      exact .triggered since hheld rfl hdimmer (by simp [hdone]) hdue.symm
    | released _ htasks => rw [hdone] at htasks; cases htasks
    | idle _ htrigger _ _ | triggered _ _ htrigger _ _ _ | dimming _ _ _ htrigger _ _ _ =>
      rw [htrigger] at hc
      cases hc
  | dimmer =>
    obtain ⟨-, c, hc, rfl⟩ := step_dimmer h
    have hdue : c.expires = t.uptime := hp.1 c hc
    refine ⟨rfl, ?_⟩
    cases hphase with
    | dimming since n hheld htrigger hdimmer _ _ =>
      rw [hdimmer] at hc
      cases hc
      have hnext : dimmingTasks n ++ [.timerEventHandler .dimmer] = dimmingTasks (n + 1) := by
        rw [dimmingTasks, dimmingTasks, List.replicate_succ', List.cons_append]
      have hagain : since + 500 + 300 * (n + 1) + 300 = since + 500 + 300 * (n + 1 + 1) := by
        rw [Nat.mul_add 300 (n + 1) 1, Nat.add_assoc]
      rw [hnext]
      refine .dimming since (n + 1) hheld htrigger ?_ (.inr (by simp [hdone])) (Nat.le_of_eq hdue)
      rw [expire_of_periodic (by simp), ← hagain]
    | released _ htasks => rw [hdone] at htasks; cases htasks
    | idle _ _ hdimmer _ | armed _ _ _ hdimmer _ _ | triggered _ _ _ hdimmer _ _ =>
      rw [hdimmer] at hc
      cases hc

/-- The task that runs is that of the release, or of the expiry just before. -/
theorem phase_runTask {pressedAt : Option Nat} (hphase : Phase t pressedAt posted)
    (h : switch.step t .runTask = some (u, o)) : u.uptime = t.uptime ∧ Phase u pressedAt posted := by
  obtain ⟨task, rest, hq, hran⟩ := step_runTask h
  cases hphase with
  | idle _ _ _ htasks | armed _ _ _ _ htasks _ => rw [hq] at htasks; cases htasks
  | released hreleased htasks =>
    rw [hq] at htasks
    cases htasks
    obtain ⟨-, -, rfl⟩ | ⟨hno, -⟩ | ⟨hno, -⟩ := hran
    · exact ⟨rfl, .idle hreleased rfl rfl rfl⟩
    · cases hno
    · cases hno
  | triggered since hheld htrigger hdimmer htasks huptime =>
    rw [hq] at htasks
    cases htasks
    obtain ⟨hno, -⟩ | ⟨-, -, rfl⟩ | ⟨hno, -⟩ := hran
    · cases hno
    · refine ⟨rfl, .dimming since 0 hheld rfl ?_ (.inl rfl) (Nat.le_of_eq huptime.symm)⟩
      simp [kTimerStart, kDimmerInterval, huptime]
    · cases hno
  | dimming since n hheld htrigger hdimmer htasks hle =>
    rw [hq] at htasks
    obtain htasks | htasks := htasks
    · cases htasks
    · cases htasks
      obtain ⟨hno, -⟩ | ⟨hno, -⟩ | ⟨-, -, rfl⟩ := hran
      · cases hno
      · cases hno
      · exact ⟨rfl, .dimming since n hheld htrigger hdimmer (.inl rfl) hle⟩

theorem phase_elapse {ms : Nat} {pressedAt : Option Nat} (hphase : Phase t pressedAt posted)
    (hdone : t.tasks = []) : Phase { t with uptime := t.uptime + ms } pressedAt posted := by
  cases hphase with
  | idle hreleased htrigger hdimmer htasks => exact .idle hreleased htrigger hdimmer htasks
  | released _ htasks | triggered _ _ _ _ htasks _ => rw [hdone] at htasks; cases htasks
  | armed since hheld htrigger hdimmer htasks hle =>
    exact .armed since hheld htrigger hdimmer htasks (Nat.le_add_right_of_le hle)
  | dimming since n hheld htrigger hdimmer htasks hle =>
    exact .dimming since n hheld htrigger hdimmer htasks (Nat.le_add_right_of_le hle)

theorem phase_next (hphase : Phase t j.pressedAt posted) (huptime : j.uptime = t.uptime)
    (hp : Prompt t e) (h : switch.step t e = some (u, o)) :
    (j.next e).uptime = u.uptime ∧ ∃ posted', Phase u (j.next e).pressedAt posted' ∧
      j.holds.flatMap holdTasks ++ posted ++ e.posts =
        (j.next e).holds.flatMap holdTasks ++ posted' := by
  cases e with
  | buttons state hasChanged =>
    refine ⟨?_, phase_buttons hphase huptime hp h⟩
    have hj : (j.next (.buttons state hasChanged)).uptime = j.uptime := by
      simp only [Journal.next]
      cases inMask hasChanged <;> cases inMask state <;> rfl
    rw [hj, huptime]
    obtain ⟨-, ⟨-, rfl⟩ | ⟨-, -, rfl⟩ | ⟨-, -, rfl⟩⟩ := step_buttons h <;> rfl
  | expires timer =>
    obtain ⟨hsame, hphase⟩ := phase_expires hphase hp h
    exact ⟨huptime.trans hsame.symm, _, hphase, List.append_assoc ..⟩
  | runTask =>
    obtain ⟨hsame, hphase⟩ := phase_runTask hphase h
    exact ⟨huptime.trans hsame.symm, _, hphase, List.append_nil _⟩
  | elapse ms =>
    cases h
    exact ⟨congrArg (· + ms) huptime, _, phase_elapse hphase (hp.2.2 (by simp)), List.append_nil _⟩

end phases

theorem run_phase {uptime : Nat} {t : AppTask} {es : List SwitchEvent} {cs : List SwitchCall}
    (hp : switch.Along Prompt (.init uptime false) es)
    (h : switch.run (.init uptime false) es = some (t, cs)) :
    ∃ posted, Phase t (journal uptime es).pressedAt posted ∧
      es.flatMap SwitchEvent.posts = (holds uptime es).flatMap holdTasks ++ posted := by
  refine (Machine.run_induct (motive := fun es _ t => switch.Along Prompt (.init uptime false) es →
    (journal uptime es).uptime = t.uptime ∧ ∃ posted, Phase t (journal uptime es).pressedAt posted ∧
      es.flatMap SwitchEvent.posts = (holds uptime es).flatMap holdTasks ++ posted) ?_ ?_ h hp).2
  · exact fun _ => ⟨rfl, [], .idle rfl rfl rfl rfl, rfl⟩
  · intro es cs t e o u hrun ih hs hp
    obtain ⟨hpre, hlast⟩ := Machine.along_snoc.mp hp
    obtain ⟨huptime, posted, hphase, hposts⟩ := ih hpre
    rw [journal, List.foldl_append, holds, journal, List.foldl_append, List.flatMap_append,
      List.flatMap_singleton, hposts]
    exact phase_next hphase huptime (hlast t cs hrun) hs

/-- **Every hold commands what its length says**, once the button is released and its task has
run: a toggle if it is shorter than 500 ms, and else ON and then one step of the brightness for
every 300 ms that the hold goes on. -/
theorem hold_commands {uptime : Nat} {t : AppTask} {es : List SwitchEvent} {cs : List SwitchCall}
    (hp : switch.Along Prompt (.init uptime false) es)
    (h : switch.run (.init uptime false) es = some (t, cs)) (hreleased : t.pressed = false)
    (hdone : t.tasks = []) : cs = (holds uptime es).flatMap holdCalls := by
  obtain ⟨ran, hran, rfl, -⟩ := tasks_run_in_order h
  obtain ⟨posted, hphase, hposts⟩ := run_phase hp h
  have hnone : posted = [] := by
    generalize (journal uptime es).pressedAt = pressedAt at hphase
    cases hphase with
    | idle _ _ _ _ | released _ _ | armed _ _ _ _ _ _ => rfl
    | triggered _ hheld _ _ _ _ | dimming _ _ hheld _ _ _ _ =>
      rw [hreleased] at hheld
      cases hheld
  rw [hran, hdone, hnone, List.append_nil, List.append_nil] at hposts
  rw [hposts, callsOf_holds]

/-- The button is held for 200 ms and then for 900 ms. -/
def tapAndHold : List SwitchEvent :=
  [.buttons 2 2, .elapse 200, .buttons 0 2, .runTask, .elapse 100, .buttons 2 2, .elapse 500,
    .expires .dimmerTrigger, .runTask, .elapse 300, .expires .dimmer, .runTask, .elapse 100,
    .buttons 0 2, .runTask]

theorem tapAndHold_commands :
    ∃ t, switch.run (.init 0 false) tapAndHold = some (t, [.initiateActionSwitch .toggle,
      .initiateActionSwitch .on, .dimmerChangeBrightness]) := by
  obtain ⟨t, cs, hrun, hp, hreleased, hdone⟩ : ∃ t cs,
      switch.run (.init 0 false) tapAndHold = some (t, cs) ∧
        switch.Along Prompt (.init 0 false) tapAndHold ∧ t.pressed = false ∧ t.tasks = [] :=
    Machine.run_eval (by decide +kernel)
  have hcs : cs = [200, 900].flatMap holdCalls := hold_commands hp hrun hreleased hdone
  rw [hcs] at hrun
  exact ⟨t, hrun⟩

end ThreadSwitch.LightSwitch
