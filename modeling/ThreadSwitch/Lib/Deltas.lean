import Mathlib.Data.Fintype.Basic
import Mathlib.Logic.Function.Iterate

/-!
# Synchronization by deltas

One side has desired values for some fields, the other side holds a value for each. What is
desired and not held is announced, as a delta in a FIFO queue, whenever either side changes.
The holder applies the deltas one after the other, also those that are out of date by then.
`deliver_converges`: when nothing new is desired, the queue drains, and what is desired is held.
-/

namespace ThreadSwitch.Lib

/-- Values for some of the fields. -/
abbrev Delta (φ α : Type) := φ → Option α

structure Deltas (φ α : Type) where
  desired : Delta φ α
  held : φ → α
  /-- Deltas that are announced and not applied, oldest first. -/
  queue : List (Delta φ α)

variable {φ α : Type}

namespace Deltas

/-- Apply a delta. -/
def override (delta : Delta φ α) (held : φ → α) : φ → α := fun f => (delta f).getD (held f)

variable [DecidableEq α]

/-- What is desired and not held. -/
def missing (desired : Delta φ α) (held : φ → α) : Delta φ α :=
  fun f => if desired f = some (held f) then none else desired f

/-- Everything desired is held. -/
def InSync (w : Deltas φ α) : Prop := ∀ f, missing w.desired w.held f = none

/-- The delta is not out of date. -/
def Fresh (w : Deltas φ α) (delta : Delta φ α) : Prop := ∀ f, delta f = none ∨ delta f = w.desired f

theorem missing_fresh (w : Deltas φ α) : w.Fresh (missing w.desired w.held) := by
  intro f
  unfold missing
  split
  · exact .inl rfl
  · exact .inr rfl

/-- What is missing after a delta that is not out of date was missing before, and is not in it. -/
theorem missing_override {w : Deltas φ α} {delta : Delta φ α} (hfresh : w.Fresh delta) {f : φ}
    (h : missing w.desired (override delta w.held) f ≠ none) :
    delta f = none ∧ missing w.desired w.held f ≠ none := by
  unfold missing override at *
  rcases hfresh f with hnone | hsome
  · rw [hnone, Option.getD_none] at h
    exact ⟨hnone, h⟩
  · cases hd : w.desired f with
    | none => simp [hd] at h
    | some v => simp [hsome, hd] at h

variable [Fintype φ]

instance (w : Deltas φ α) : Decidable w.InSync :=
  inferInstanceAs (Decidable (∀ f, missing w.desired w.held f = none))

/-- Announce what is missing, if anything is. -/
def announce (w : Deltas φ α) : Deltas φ α :=
  if w.InSync then w else { w with queue := w.queue ++ [missing w.desired w.held] }

/-- Apply the oldest delta, and announce what is missing then. -/
def deliver (w : Deltas φ α) : Deltas φ α :=
  match w.queue with
  | [] => w
  | delta :: queue => { w with held := override delta w.held, queue := queue }.announce

/-- What is missing was announced last. -/
def Announced (w : Deltas φ α) : Prop :=
  ¬ w.InSync → w.queue.getLast? = some (missing w.desired w.held)

section steps
variable {w : Deltas φ α} {delta : Delta φ α} {queue : List (Delta φ α)}

@[simp] theorem announce_desired : w.announce.desired = w.desired := by
  unfold announce
  split <;> rfl

@[simp] theorem announce_held : w.announce.held = w.held := by
  unfold announce
  split <;> rfl

theorem announce_inSync : w.announce.InSync ↔ w.InSync := by
  rw [InSync, InSync, announce_desired, announce_held]

theorem announce_announced (w : Deltas φ α) : w.announce.Announced := by
  intro hsync
  rw [announce_inSync] at hsync
  rw [announce_desired, announce_held, announce, if_neg hsync, List.getLast?_concat]

/-- At most one delta is announced, and it is not out of date. -/
theorem announce_queue (w : Deltas φ α) :
    ∃ added, w.announce.queue = w.queue ++ added ∧ added.length ≤ 1 ∧ (∀ d ∈ added, w.Fresh d) ∧
      (w.InSync → added = []) := by
  unfold announce
  split
  · exact ⟨[], (List.append_nil _).symm, Nat.zero_le _, by simp, fun _ => rfl⟩
  · refine ⟨_, rfl, Nat.le_refl _, fun d hd => ?_, fun hsync => absurd hsync ‹_›⟩
    rw [List.mem_singleton.mp hd]
    exact missing_fresh w

/-- What is announced says nothing of a field of which nothing is desired. -/
theorem announce_undesired {f : φ} (hd : w.desired f = none) :
    w.announce.queue.filterMap (fun delta => delta f) = w.queue.filterMap fun delta => delta f := by
  obtain ⟨added, hadded, -, hfresh, -⟩ := announce_queue w
  have hnone : ∀ delta ∈ added, delta f = none := fun delta hmem =>
    (hfresh delta hmem f).elim id fun h => h.trans hd
  rw [hadded, List.filterMap_append, List.filterMap_eq_nil_iff.mpr hnone, List.append_nil]

theorem deliver_cons (hq : w.queue = delta :: queue) :
    w.deliver = { w with held := override delta w.held, queue := queue }.announce := by
  unfold deliver
  rw [hq]

end steps

/-! ## Rounds of deliveries -/

/-- After a round, as many deliveries as were in the queue, only deltas that are not out of
date are left, and no more than there were. -/
theorem round (w : Deltas φ α) (n : Nat) (hn : n ≤ w.queue.length) (ha : w.Announced) :
    ∃ added, (deliver^[n] w).queue = w.queue.drop n ++ added ∧ added.length ≤ n ∧
      (deliver^[n] w).desired = w.desired ∧ (∀ d ∈ added, w.Fresh d) ∧ (deliver^[n] w).Announced := by
  induction n with
  | zero => exact ⟨[], by simp, Nat.le_refl _, rfl, by simp, ha⟩
  | succ n ih =>
    obtain ⟨added, hq, hlen, hdesired, hfresh, -⟩ := ih (by omega)
    rw [Function.iterate_succ_apply']
    rw [List.drop_eq_getElem_cons (by omega), List.cons_append] at hq
    rw [deliver_cons hq]
    obtain ⟨more, hmore, hone, hnew, -⟩ := announce_queue { deliver^[n] w with
      held := override (w.queue[n]) (deliver^[n] w).held, queue := w.queue.drop (n + 1) ++ added }
    refine ⟨added ++ more, by rw [hmore, List.append_assoc], ?_, by simpa using hdesired, ?_,
      announce_announced _⟩
    · rw [List.length_append]
      omega
    · intro d hd
      rcases List.mem_append.mp hd with hd | hd
      · exact hfresh d hd
      · have := hnew d hd
        rwa [Fresh, hdesired] at this

/-- Where no delta is out of date, what is missing stays in the part of the queue that is
delivered, until nothing is. -/
theorem fresh_round (w : Deltas φ α) (n : Nat) (hn : n ≤ w.queue.length)
    (hfresh : ∀ d ∈ w.queue, w.Fresh d)
    (hcover : ∀ f, missing w.desired w.held f ≠ none → ∃ d ∈ w.queue.take n, d f ≠ none) :
    (deliver^[n] w).InSync := by
  induction n generalizing w with
  | zero => exact fun f => by_contra fun h => by simpa using hcover f h
  | succ n ih =>
    obtain ⟨delta, queue, hq⟩ := List.exists_cons_of_length_pos (Nat.lt_of_lt_of_le n.succ_pos hn)
    rw [hq] at hn hfresh hcover
    rw [Function.iterate_succ_apply, deliver_cons hq]
    obtain ⟨added, hadded, -, hnew, -⟩ :=
      announce_queue { w with held := override delta w.held, queue := queue }
    have hle : n ≤ queue.length := Nat.le_of_succ_le_succ hn
    refine ih _ ?_ (fun d hd => ?_) fun f hf => ?_
    · rw [hadded, List.length_append]
      exact Nat.le_add_right_of_le hle
    · rw [Fresh, announce_desired]
      rw [hadded] at hd
      rcases List.mem_append.mp hd with hd | hd
      · exact hfresh d (List.mem_cons_of_mem _ hd)
      · exact hnew d hd
    · rw [announce_desired, announce_held] at hf
      obtain ⟨hnone, hbefore⟩ := missing_override (hfresh delta List.mem_cons_self) hf
      obtain ⟨d, hd, hne⟩ := hcover f hbefore
      refine ⟨d, ?_, hne⟩
      rw [hadded, List.take_append_of_le_length hle]
      rw [List.take_succ_cons] at hd
      refine (List.mem_cons.mp hd).resolve_left fun hd => ?_
      rw [hd] at hne
      exact hne hnone

/-- Where nothing is missing and no delta is out of date, the queue only gets shorter. -/
theorem inSync_round (w : Deltas φ α) (n : Nat) (hn : n ≤ w.queue.length)
    (hfresh : ∀ d ∈ w.queue, w.Fresh d) (hsync : w.InSync) :
    (deliver^[n] w).queue = w.queue.drop n ∧ (deliver^[n] w).InSync := by
  induction n generalizing w with
  | zero => exact ⟨rfl, hsync⟩
  | succ n ih =>
    obtain ⟨delta, queue, hq⟩ := List.exists_cons_of_length_pos (Nat.lt_of_lt_of_le n.succ_pos hn)
    rw [hq] at hn hfresh
    have hstill : InSync { w with held := override delta w.held, queue := queue } := fun f => by
      by_contra hf
      exact (missing_override (hfresh delta List.mem_cons_self) hf).2 (hsync f)
    rw [Function.iterate_succ_apply, deliver_cons hq, announce, if_pos hstill, hq, List.drop_succ_cons]
    exact ih _ (Nat.le_of_succ_le_succ hn) (fun d hd => hfresh d (List.mem_cons_of_mem _ hd)) hstill

/-- **The queue drains and the two sides agree**, after three rounds at most: one that leaves no
delta out of date, one that leaves nothing missing, and one for what it announced. -/
theorem deliver_converges (w : Deltas φ α) (ha : w.Announced) :
    ∃ n ≤ 3 * w.queue.length, (deliver^[n] w).queue = [] ∧ (deliver^[n] w).InSync ∧
      (deliver^[n] w).desired = w.desired := by
  obtain ⟨first, hq₁, hlen₁, hdesired₁, hfresh₁, ha₁⟩ := w.round _ (Nat.le_refl _) ha
  rw [List.drop_length, List.nil_append] at hq₁
  generalize hw₁ : deliver^[w.queue.length] w = w₁ at hq₁ hdesired₁ ha₁
  have hfresh₁ : ∀ d ∈ w₁.queue, w₁.Fresh d := by
    intro d hd
    rw [Fresh, hdesired₁]
    exact hfresh₁ d (hq₁ ▸ hd)
  obtain ⟨second, hq₂, hlen₂, hdesired₂, hfresh₂, -⟩ := w₁.round _ (Nat.le_refl _) ha₁
  have hsync : (deliver^[w₁.queue.length] w₁).InSync := by
    refine w₁.fresh_round _ (Nat.le_refl _) hfresh₁ fun f hf => ?_
    have hlast := ha₁ fun hsync => hf (hsync f)
    refine ⟨_, ?_, hf⟩
    rw [List.take_length]
    exact List.mem_of_getLast? hlast
  rw [List.drop_length, List.nil_append] at hq₂
  generalize hw₂ : deliver^[w₁.queue.length] w₁ = w₂ at hq₂ hdesired₂ hsync
  have hfresh₂ : ∀ d ∈ w₂.queue, w₂.Fresh d := by
    intro d hd
    rw [Fresh, hdesired₂]
    exact hfresh₂ d (hq₂ ▸ hd)
  obtain ⟨hempty, hsync₃⟩ := w₂.inSync_round _ (Nat.le_refl _) hfresh₂ hsync
  obtain ⟨third, -, -, hdesired₃, -⟩ := w₂.round _ (Nat.le_refl _) fun h => absurd hsync h
  rw [List.drop_length] at hempty
  have hall : deliver^[w₂.queue.length] w₂ =
      deliver^[w₂.queue.length + (w₁.queue.length + w.queue.length)] w := by
    rw [Function.iterate_add_apply, Function.iterate_add_apply, hw₁, hw₂]
  rw [hall] at hempty hsync₃ hdesired₃
  refine ⟨_, ?_, hempty, hsync₃, hdesired₃.trans (hdesired₂.trans hdesired₁)⟩
  rw [← hq₁] at hlen₁
  rw [← hq₂] at hlen₂
  omega

end Deltas

end ThreadSwitch.Lib
