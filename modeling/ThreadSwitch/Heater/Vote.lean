import ThreadSwitch.Heater.Step

/-!
# The vote over a run

Between two actions the history register is a sliding window: ten copies of the
value the action warmed it up with, followed by the samples read since
(`run_window`). So the register computes the documented 8-of-10 vote
(`vote_of_last_ten`), and a vote against the most recent target takes enough
samples against it: 8 LOW among the last 10 to vote an OFF down, 3 HIGH to vote
an ON down (`voted_against_iff`). A failed read is a sample too, by the parity of
its errno: `voted_by_good_reads_iff` says when such samples decide the vote.
-/

namespace ThreadSwitch.Heater

open ThreadSwitch.Zephyr ThreadSwitch.Lib AppTask

/-- What the history was last filled with: HIGH by `Init` and by an OFF, LOW by an ON. -/
def warmUp (es : List TaskEvent) : Bool := !(lastTarget es).getD false

theorem samplesSince_snoc (es : List TaskEvent) (e : TaskEvent) :
    samplesSince (es ++ [e]) =
      match e with
      | .initiateAction _ => []
      | .sensingPoll read =>
        if read.ready then samplesSince es ++ [sample read] else samplesSince es
      | _ => samplesSince es := by
  unfold samplesSince
  rw [List.foldl_append]
  rfl

theorem warmUp_snoc (es : List TaskEvent) {e : TaskEvent} (he : targets [e] = []) :
    warmUp (es ++ [e]) = warmUp es := by
  rw [warmUp, lastTarget_snoc es he, warmUp]

theorem samplesSince_unsensed (es : List TaskEvent) {e : TaskEvent} (he : Unsensed e) :
    samplesSince (es ++ [e]) = samplesSince es := by
  rw [samplesSince_snoc]
  cases e with
  | initiateAction a => cases he.1
  | sensingPoll read => simp [he.2 read rfl]
  | _ => rfl

/-- A call starts the samples over. -/
theorem samplesSince_call (es fs : List TaskEvent) (a : Bool) :
    samplesSince (es ++ .initiateAction a :: fs) = samplesSince fs := by
  unfold samplesSince
  rw [List.foldl_append, List.foldl_cons]

/-- The ten newest bits of the history are the window over the samples read
since the most recent call. -/
theorem run_window {t₀ t : AppTask} {es : List TaskEvent} {cs : List PinChange} (hb : Booted t₀)
    (h : task.run t₀ es = some (t, cs)) :
    newest 10 t.mSenseHistory = window 10 (warmUp es) (samplesSince es) := by
  refine Machine.run_induct (motive := fun es _ t =>
    newest 10 t.mSenseHistory = window 10 (warmUp es) (samplesSince es)) ?_ ?_ h
  · obtain ⟨uptime, rfl⟩ := booted_iff.mp hb
    exact newest_allOnes (w := 16) (by omega)
  intro es _ t e o u _ ih hs
  obtain ⟨hn, -⟩ := step_iff.mp hs
  rcases call_or_sample e with ⟨a, rfl⟩ | ⟨read, rfl, hr⟩ | he
  · cases hn
    rw [samplesSince_snoc, warmUp, lastTarget_call, window_nil]
    cases a with
    | true => exact newest_zero
    | false => exact newest_allOnes (w := 16) (by omega)
  · rw [next_sample hn hr, samplesSince_snoc, warmUp_snoc es rfl]
    simp only [hr, if_true]
    rw [newest_shiftIn _ _ (by omega), ih, window_snoc]
  · rw [(unsensed_next he hn).1, samplesSince_unsensed es he, warmUp_snoc es he.1, ih]

/-- The vote of a run, in terms of its samples. -/
theorem run_voted {t₀ t : AppTask} {es : List TaskEvent} {cs : List PinChange} (hb : Booted t₀)
    (h : task.run t₀ es = some (t, cs)) :
    t.mVotedIsOn = true ↔ 8 ≤ (window 10 (warmUp es) (samplesSince es)).count false := by
  rw [(run_wf hb h).voted, vote, lowCount_eq, run_window hb h, decide_eq_true_iff]

/-- Among the last ten of `samples` enough are on the side of `target` to vote
the opposite target down: 8 LOW for ON, 3 HIGH for OFF. -/
def Outvoted (target : Bool) (samples : List Bool) : Prop :=
  if target then 8 ≤ (samples.reverse.take 10).count false
  else 3 ≤ (samples.reverse.take 10).count true

instance (target : Bool) (samples : List Bool) : Decidable (Outvoted target samples) :=
  inferInstanceAs (Decidable (if target then _ else _))

/-- After a call for the opposite, the vote is `target` exactly when the samples
read since then outvoted that call. -/
theorem voted_against_iff {t₀ t : AppTask} {es : List TaskEvent} {cs : List PinChange}
    {target : Bool} (hb : Booted t₀) (h : task.run t₀ es = some (t, cs))
    (hl : lastTarget es = some (!target)) :
    t.mVotedIsOn = target ↔ Outvoted target (samplesSince es) := by
  have hv := run_voted hb h
  have hw : warmUp es = target := by simp [warmUp, hl]
  rw [hw] at hv
  cases target with
  | true =>
    rw [hv, count_window (by simp)]
    simp [Outvoted]
  | false =>
    have hsum : (window 10 false (samplesSince es)).count (!true) +
        (window 10 false (samplesSince es)).count true = 10 := count_window_add _ true
    rw [count_window (b := true) (by simp)] at hsum
    rw [← Bool.not_eq_true, hv, Outvoted]
    simp only [Bool.not_true] at hsum
    simp only [Bool.false_eq_true, if_false]
    omega

/-! ## The vote in terms of what the reads return -/

/-- What the reads since the most recent call returned, or since `Init`. -/
def readsSince (es : List TaskEvent) : List Int :=
  es.foldl (fun reads e =>
    match e with
    | .initiateAction _ => []
    | .sensingPoll read => if read.ready then reads ++ [read.raw] else reads
    | _ => reads) []

/-- The read that the history was last filled with: 0 by an ON, 1 by an OFF and by `Init`. -/
def warmUpRead (es : List TaskEvent) : Int := if lastTarget es = some true then 0 else 1

theorem readsSince_snoc (es : List TaskEvent) (e : TaskEvent) :
    readsSince (es ++ [e]) =
      match e with
      | .initiateAction _ => []
      | .sensingPoll read => if read.ready then readsSince es ++ [read.raw] else readsSince es
      | _ => readsSince es := by
  unfold readsSince
  rw [List.foldl_append]
  rfl

/-- Without a call the reads go on. -/
theorem readsSince_append (es : List TaskEvent) {fs : List TaskEvent} (h : targets fs = []) :
    readsSince (es ++ fs) = readsSince es ++ readsSince fs := by
  induction fs using List.reverseRecOn with
  | nil => simp [readsSince]
  | append_singleton fs e ih =>
    simp only [targets_append, List.append_eq_nil_iff] at h
    rw [← List.append_assoc, readsSince_snoc, readsSince_snoc, ih h.1]
    cases e with
    | initiateAction a => cases h.2
    | sensingPoll read =>
      dsimp only
      split
      · rw [List.append_assoc]
      · rfl
    | _ => rfl

theorem readsSince_unsensed (es : List TaskEvent) {e : TaskEvent} (he : Unsensed e) :
    readsSince (es ++ [e]) = readsSince es := by
  rw [readsSince_snoc]
  cases e with
  | initiateAction a => cases he.1
  | sensingPoll read => simp [he.2 read rfl]
  | _ => rfl

theorem mem_readsSince {es : List TaskEvent} {raw : Int} (h : raw ∈ readsSince es) :
    ∃ read, .sensingPoll read ∈ es ∧ read.raw = raw := by
  induction es using List.reverseRecOn with
  | nil => cases h
  | append_singleton es e ih =>
    rw [readsSince_snoc] at h
    have hold : raw ∈ readsSince es → ∃ read, .sensingPoll read ∈ es ++ [e] ∧ read.raw = raw :=
      fun hr => (ih hr).imp fun read hread => ⟨List.mem_append_left _ hread.1, hread.2⟩
    cases e with
    | initiateAction a => cases h
    | sensingPoll read =>
      dsimp only at h
      split at h
      · rcases List.mem_append.mp h with hr | hr
        · exact hold hr
        · exact ⟨read, by simp, (List.mem_singleton.mp hr).symm⟩
      · exact hold h
    | _ => exact hold h

/-- A sample is LOW when its read is even. -/
theorem samplesSince_eq (es : List TaskEvent) :
    samplesSince es = (readsSince es).map fun raw => decide (raw % 2 = 1) := by
  induction es using List.reverseRecOn with
  | nil => rfl
  | append_singleton es e ih =>
    rw [samplesSince_snoc, readsSince_snoc]
    cases e with
    | initiateAction a => rfl
    | sensingPoll read =>
      dsimp only
      split
      · rw [ih, List.map_append]; rfl
      · exact ih
    | _ => exact ih

theorem warmUp_eq (es : List TaskEvent) : warmUp es = decide (warmUpRead es % 2 = 1) := by
  unfold warmUp warmUpRead
  rcases lastTarget es with _ | _ | _ <;> rfl

/-- The vote counts the even ones among the last ten reads. -/
theorem run_voted_reads {t₀ t : AppTask} {es : List TaskEvent} {cs : List PinChange}
    (hb : Booted t₀) (h : task.run t₀ es = some (t, cs)) :
    t.mVotedIsOn = true ↔
      8 ≤ ((List.replicate 10 (warmUpRead es) ++ readsSince es).rtake 10).countP (· % 2 = 0) := by
  have hbit : ∀ raw : Int, (decide (raw % 2 = 1) == false) = decide (raw % 2 = 0) := fun raw => by
    rcases Int.emod_two_eq_zero_or_one raw with h | h <;> simp [h]
  rw [run_voted hb h, ← List.count_reverse, reverse_window, samplesSince_eq, warmUp_eq,
    ← List.map_replicate (f := fun raw : Int => decide (raw % 2 = 1)), ← List.map_append, List.rtake,
    List.length_map, ← List.map_drop, List.count, List.countP_map, ← List.rtake]
  simp only [Function.comp_def, hbit]

/-- **The voting register computes the 8-of-10 vote**: the vote is ON exactly when
at least 8 of the last ten values are 0 in ten copies of the warm-up value
followed by all reads since the most recent call, however many they are. -/
theorem vote_of_last_ten {t₀ t : AppTask} {es : List TaskEvent} {cs : List PinChange}
    (hb : Booted t₀) (h : task.run t₀ es = some (t, cs))
    (hreads : ∀ read, .sensingPoll read ∈ es → read.raw = 0 ∨ read.raw = 1) :
    t.mVotedIsOn = true ↔
      8 ≤ ((List.replicate 10 (warmUpRead es) ++ readsSince es).rtake 10).count 0 := by
  rw [run_voted_reads hb h, List.count]
  have hcongr : ((List.replicate 10 (warmUpRead es) ++ readsSince es).rtake 10).countP (· % 2 = 0) =
      ((List.replicate 10 (warmUpRead es) ++ readsSince es).rtake 10).countP (· == 0) := by
    refine List.countP_congr fun raw hraw => ?_
    have hbit : raw = 0 ∨ raw = 1 := by
      rcases List.mem_append.mp (List.mem_of_mem_drop hraw) with hw | hr
      · rw [List.eq_of_mem_replicate hw, warmUpRead]
        split
        · exact .inl rfl
        · exact .inr rfl
      · obtain ⟨read, hread, rfl⟩ := mem_readsSince hr
        exact hreads read hread
    rcases hbit with rfl | rfl <;> decide
  rw [hcongr]

/-- One HIGH read and then eight LOW ones. -/
def eightLow : List TaskEvent := .sensingPoll ⟨true, 1⟩ :: rounds 8 0

theorem eightLow_votes_on :
    ∃ t cs, task.run (bootedAt 0) eightLow = some (t, cs) ∧ t.mVotedIsOn = true := by
  obtain ⟨t, cs, hrun, -⟩ : ∃ t cs, task.run (bootedAt 0) eightLow = some (t, cs) ∧ True :=
    Machine.run_eval (by decide +kernel)
  refine ⟨t, cs, hrun, (vote_of_last_ten (bootedAt_booted 0) hrun fun read h => ?_).mpr (by decide)⟩
  rcases List.mem_cons.mp h with h | h
  · rw [TaskEvent.sensingPoll.inj h]; decide
  · rw [TaskEvent.sensingPoll.inj ((mem_rounds h).resolve_left (by simp))]; decide

/-- A read that failed with an even errno, which the history keeps as LOW. -/
def EvenErrno (raw : Int) : Prop := raw < 0 ∧ raw % 2 = 0

instance (raw : Int) : Decidable (EvenErrno raw) := inferInstanceAs (Decidable (_ ∧ _))

/-- The LOW samples are the good reads of 0 and the even errnos. -/
theorem countP_even {reads : List Int} (h : ∀ raw ∈ reads, raw = 0 ∨ raw = 1 ∨ raw < 0) :
    reads.countP (· % 2 = 0) = reads.count 0 + reads.countP (EvenErrno ·) := by
  induction reads with
  | nil => rfl
  | cons raw reads ih =>
    have hrest := ih fun r hr => h r (List.mem_cons_of_mem _ hr)
    rw [List.countP_cons, List.countP_cons, List.count_cons, hrest]
    rcases h raw (List.mem_cons_self ..) with rfl | rfl | hneg
    · simp [EvenErrno]; omega
    · simp [EvenErrno]
    · have hne : raw ≠ 0 := by omega
      by_cases heven : raw % 2 = 0
      · simp [EvenErrno, hneg, hne, heven]; omega
      · simp [EvenErrno, hne, heven]

/-- **Only good reads vote ON**: with no call, an ON vote rests on 8 good reads of 0
among the last ten polls, unless even errnos among them make up the missing ones. -/
theorem voted_by_good_reads_iff {t₀ t : AppTask} {es : List TaskEvent} {cs : List PinChange}
    (hb : Booted t₀) (h : task.run t₀ es = some (t, cs)) (hq : targets es = [])
    (hreads : ∀ read, .sensingPoll read ∈ es → read.raw = 0 ∨ read.raw = 1 ∨ read.raw < 0) :
    (t.mVotedIsOn = true → 8 ≤ ((readsSince es).rtake 10).count 0) ↔
      8 ≤ ((readsSince es).rtake 10).count 0 ∨
        ((readsSince es).rtake 10).count 0 + ((readsSince es).rtake 10).countP (EvenErrno ·) < 8 := by
  have hw : warmUpRead es = 1 := by simp [warmUpRead, lastTarget, hq]
  have hlegal : ∀ raw ∈ (readsSince es).rtake 10, raw = 0 ∨ raw = 1 ∨ raw < 0 := fun raw hraw => by
    obtain ⟨read, hread, rfl⟩ := mem_readsSince (List.mem_of_mem_drop hraw)
    exact hreads read hread
  rw [run_voted_reads hb h, hw, countP_rtake_replicate (by decide), countP_even hlegal]
  omega

/-- Eight polls that fail with `-EINVAL`. -/
def invalidReads : List TaskEvent := .sensingPoll ⟨true, -22⟩ :: rounds 7 (-22)

theorem invalidReads_runs :
    ∃ t cs, task.run (bootedAt 0) invalidReads = some (t, cs) ∧ t.mVotedIsOn = true ∧
      task.Along Punctual (bootedAt 0) invalidReads :=
  Machine.run_eval (by decide +kernel)

theorem invalidReads_legal (read : SenseRead) (h : .sensingPoll read ∈ invalidReads) :
    read.raw = 0 ∨ read.raw = 1 ∨ read.raw < 0 := by
  have hread : read = ⟨true, -22⟩ := by
    rcases List.mem_cons.mp h with h | h
    · exact TaskEvent.sensingPoll.inj h
    · exact TaskEvent.sensingPoll.inj ((mem_rounds h).resolve_left (by simp))
  rw [hread]
  decide

theorem failed_reads_vote_on :
    ¬ ∀ t₀ es t cs, Booted t₀ → task.run t₀ es = some (t, cs) → task.Along Punctual t₀ es →
      targets es = [] →
      (∀ read, .sensingPoll read ∈ es → read.raw = 0 ∨ read.raw = 1 ∨ read.raw < 0) →
      t.mVotedIsOn = true → 8 ≤ ((readsSince es).rtake 10).count 0 := by
  intro hall
  obtain ⟨t, cs, hrun, hv, hp⟩ := invalidReads_runs
  have := hall _ _ _ _ (bootedAt_booted 0) hrun hp (by decide) invalidReads_legal hv
  exact absurd this (by decide +kernel)

/-- Those polls had no good read at all, only even errnos. -/
theorem invalidReads_made_up :
    ¬ (8 ≤ ((readsSince invalidReads).rtake 10).count 0 ∨
      ((readsSince invalidReads).rtake 10).count 0 +
        ((readsSince invalidReads).rtake 10).countP (EvenErrno ·) < 8) := by
  intro h
  obtain ⟨t, cs, hrun, hv, -⟩ := invalidReads_runs
  have := (voted_by_good_reads_iff (bootedAt_booted 0) hrun (by decide) invalidReads_legal).mpr h hv
  exact absurd this (by decide +kernel)

end ThreadSwitch.Heater
