import ThreadSwitch.Heater.Timing

/-!
# The polls of the sense pin

`polls_on_time`: while the port is ready, the pin is read every 100 ms, from `Init` on. A
poll that finds the port not ready returns before it schedules the next one: then no work is
pending that could poll (`unready_poll`), and none will be (`unpolled_next`).
-/

namespace ThreadSwitch.Heater

open ThreadSwitch.Zephyr ThreadSwitch.Lib AppTask

def isPoll : TaskEvent → Bool
  | .sensingPoll _ => true
  | _ => false

/-- The polls of a run so far. -/
def polls (es : List TaskEvent) : Nat := es.countP isPoll

/-- A poll finds the port ready. -/
def PortReady : TaskEvent → Prop
  | .sensingPoll read => read.ready = true
  | _ => True

instance : DecidablePred PortReady
  | .sensingPoll read => inferInstanceAs (Decidable (read.ready = true))
  | .initiateAction _ | .controlPulse | .standbyPulse | .standbyRelease | .elapse _ => isTrue trivial

section steps
variable {t u : AppTask} {e : TaskEvent}

/-- Only a poll touches the sense work. -/
theorem senseWork_next (he : isPoll e = false) (h : t.next e = some u) :
    u.mSenseWork = t.mSenseWork := by
  cases e with
  | sensingPoll read => cases he
  | initiateAction a => cases h; rfl
  | controlPulse =>
    obtain ⟨-, rfl⟩ := next_controlPulse.mp h
    unfold controlPulseHandler
    cases t.mPendingOff <;> rfl
  | standbyPulse => obtain ⟨-, rfl⟩ := next_standbyPulse.mp h; rfl
  | standbyRelease => obtain ⟨-, rfl⟩ := next_standbyRelease.mp h; rfl
  | elapse ms => cases h; rfl

/-- A poll of a ready port is followed by another 100 ms later. -/
theorem poll_again {read : SenseRead} (hr : read.ready = true)
    (h : t.next (.sensingPoll read) = some u) :
    u.mSenseWork = some (t.uptime + 100) ∧ u.uptime = t.uptime := by
  rw [next_sample h hr]
  exact ⟨rfl, rfl⟩

/-- A poll of a port that is not ready is the last. -/
theorem unready_poll {read : SenseRead} (hr : read.ready = false)
    (h : t.next (.sensingPoll read) = some u) : u.mSenseWork = none := by
  obtain ⟨-, rfl⟩ := next_sensingPoll.mp h
  rw [sensingPollHandler_fst, hr]
  rfl

/-- Where no poll is pending, none is made and none gets pending, so that only calls set the
vote. -/
theorem unpolled_next (hs : t.mSenseWork = none) (he : targets [e] = []) (h : t.next e = some u) :
    isPoll e = false ∧ u.mSenseWork = none ∧ u.mVotedIsOn = t.mVotedIsOn := by
  have hpoll : isPoll e = false := by
    cases e with
    | sensingPoll read => exact absurd hs (next_sensingPoll.mp h).1
    | _ => rfl
  have hunsensed : Unsensed e := by
    refine ⟨he, fun read hread => ?_⟩
    rw [hread] at hpoll
    cases hpoll
  exact ⟨hpoll, (senseWork_next hpoll h).trans hs, (unsensed_next hunsensed h).2⟩

end steps

/-- **The sense pin is read every 100 ms**: while the port is ready, after `k` polls the next
one is due `100 * k` ms after `Init`, so at any time all polls due have been made, but for one
that is due now, and no other. -/
theorem polls_on_time {t₀ t : AppTask} {es : List TaskEvent} {changes : List (Nat × PinChange)}
    (hb : Booted t₀) (hp : clocked.Along Punctual t₀ es) (hr : ∀ e ∈ es, PortReady e)
    (h : clocked.run t₀ es = some (t, changes)) :
    t.mSenseWork = some (t₀.uptime + 100 * polls es) ∧ t.uptime ≤ t₀.uptime + 100 * polls es ∧
      t₀.uptime + 100 * (polls es - 1) ≤ t.uptime := by
  refine Machine.run_induct (motive := fun es _ t => clocked.Along Punctual t₀ es →
    (∀ e ∈ es, PortReady e) → t.mSenseWork = some (t₀.uptime + 100 * polls es) ∧
      t.uptime ≤ t₀.uptime + 100 * polls es ∧ t₀.uptime + 100 * (polls es - 1) ≤ t.uptime) ?_ ?_ h hp hr
  · obtain ⟨uptime, rfl⟩ := booted_iff.mp hb
    exact fun _ _ => ⟨rfl, Nat.le_refl _, Nat.le_refl _⟩
  intro es changes t e o u hrun ih hstep hp hr
  obtain ⟨hpre, hlast⟩ := Machine.along_snoc.mp hp
  obtain ⟨hr, hready⟩ := List.forall_mem_append.mp hr
  obtain ⟨hsense, hle, hge⟩ := ih hpre hr
  have hn := (clocked_step_iff.mp hstep).1
  have hpun : Punctual t e := hlast t changes hrun
  have hcount : polls (es ++ [e]) = polls es + if isPoll e then 1 else 0 := by
    rw [polls, List.countP_append, List.countP_singleton, polls]
  have huptime := uptime_le hn
  rw [hcount]
  cases hpoll : isPoll e with
  | true =>
    cases e with
    | sensingPoll read =>
      obtain ⟨hagain, hsame⟩ := poll_again (hready _ List.mem_cons_self) hn
      have hdue : t.mSenseWork = some t.uptime := hpun
      rw [hsense] at hdue
      have hat := Option.some.inj hdue
      rw [hagain, hsame]
      simp only [if_true, Nat.add_sub_cancel, Option.some.injEq]
      omega
    | _ => cases hpoll
  | false =>
    rw [senseWork_next hpoll hn, if_neg Bool.false_ne_true, Nat.add_zero]
    refine ⟨hsense, ?_, Nat.le_trans hge huptime⟩
    have hmoves := uptime_next ⟨t.uptime, []⟩ rfl hn
    cases e with
    | elapse ms =>
      cases hn
      exact hpun _ (by simp) _ hsense
    | _ => rwa [← hmoves]

/-- An ON between the polls at 100 ms and 200 ms. -/
def pollsAroundOn : List TaskEvent :=
  .sensingPoll ⟨true, 1⟩ :: rounds 1 1 ++ [.elapse 50, .initiateAction true, .elapse 50,
    .sensingPoll ⟨true, 0⟩, .elapse 30]

theorem pollsAroundOn_on_time :
    ∃ t changes, clocked.run (bootedAt 0) pollsAroundOn = some (t, changes) ∧
      t.mSenseWork = some 300 ∧ t.uptime ≤ 300 ∧ 200 ≤ t.uptime := by
  obtain ⟨t, changes, hrun, hp⟩ : ∃ t changes,
      clocked.run (bootedAt 0) pollsAroundOn = some (t, changes) ∧
        clocked.Along Punctual (bootedAt 0) pollsAroundOn := Machine.run_eval (by decide +kernel)
  exact ⟨t, changes, hrun, polls_on_time (bootedAt_booted 0) hp (by decide) hrun⟩

end ThreadSwitch.Heater
