import Mathlib.Data.List.DropRight
import ThreadSwitch.Lib.Bytes

/-!
# Pages

A memory of pages of `n` cells is written in visits: a visit to a page are the writes to it
one after the other. `lastRun n p ws` are the writes of the last visit to page `p`. Where a
visit clears its page first, they alone count (`getD_lastRun_iff`); they are all there is
if the writes go through the pages in order (`image_lastRun_of_sorted`).
-/

namespace ThreadSwitch.Lib

variable {β : Type} {n p : Nat} {ws : List (Nat × β)} {w : Nat × β}

/-- The writes of the visit that goes on, if it is to page `p`. -/
def openRun (n p : Nat) (ws : List (Nat × β)) : List (Nat × β) :=
  ws.rtakeWhile fun w => w.1 / n = p

/-- The writes of the last visit to page `p`. -/
def lastRun (n p : Nat) (ws : List (Nat × β)) : List (Nat × β) :=
  openRun n p (ws.rdropWhile fun w => w.1 / n ≠ p)

/-- The pages in the order they are visited. -/
def visits (n : Nat) (ws : List (Nat × β)) : List Nat :=
  ws.foldl (fun ps w => if ps.getLast? = some (w.1 / n) then ps else ps ++ [w.1 / n]) []

@[simp] theorem lastRun_nil : lastRun n p ([] : List (Nat × β)) = [] := by
  simp [lastRun, openRun]

theorem openRun_snoc_pos (h : w.1 / n = p) : openRun n p (ws ++ [w]) = openRun n p ws ++ [w] :=
  List.rtakeWhile_concat_pos _ _ _ (by simpa using h)

theorem openRun_snoc_neg (h : w.1 / n ≠ p) : openRun n p (ws ++ [w]) = [] :=
  List.rtakeWhile_concat_neg _ _ _ (by simpa using h)

/-- A visit goes on. -/
theorem lastRun_snoc_pos (h : w.1 / n = p) : lastRun n p (ws ++ [w]) = openRun n p ws ++ [w] := by
  rw [lastRun, List.rdropWhile_concat_neg _ _ _ (by simpa using h), openRun_snoc_pos h]

/-- A visit to another page leaves the visits to this one. -/
theorem lastRun_snoc_neg (h : w.1 / n ≠ p) : lastRun n p (ws ++ [w]) = lastRun n p ws := by
  rw [lastRun, List.rdropWhile_concat_pos _ _ _ (by simpa using h), lastRun]

/-- The visit that goes on is the last. -/
theorem lastRun_eq_openRun (h : ∃ w ∈ ws.getLast?, w.1 / n = p) :
    lastRun n p ws = openRun n p ws := by
  obtain ⟨w, hw, hp⟩ := h
  obtain ⟨vs, rfl⟩ := List.getLast?_eq_some_iff.mp hw
  rw [lastRun_snoc_pos hp, openRun_snoc_pos hp]

theorem openRun_eq_nil (h : ∀ w ∈ ws.getLast?, w.1 / n ≠ p) : openRun n p ws = [] := by
  induction ws using List.reverseRecOn with
  | nil => rfl
  | append_singleton ws w _ => exact openRun_snoc_neg (h w (by simp))

/-! ## Visits -/

@[simp] theorem visits_nil : visits n ([] : List (Nat × β)) = [] := rfl

theorem visits_snoc : visits n (ws ++ [w]) =
    if (visits n ws).getLast? = some (w.1 / n) then visits n ws else visits n ws ++ [w.1 / n] := by
  rw [visits, List.foldl_append]
  rfl

/-- The visit that goes on is the last. -/
theorem getLast?_visits (n : Nat) (ws : List (Nat × β)) :
    (visits n ws).getLast? = ws.getLast?.map fun w => w.1 / n := by
  induction ws using List.reverseRecOn with
  | nil => rfl
  | append_singleton ws w _ =>
    rw [visits_snoc]
    split
    · simpa using ‹_›
    · simp

theorem head?_visits (n : Nat) (ws : List (Nat × β)) :
    (visits n ws).head? = ws.head?.map fun w => w.1 / n := by
  induction ws using List.reverseRecOn with
  | nil => rfl
  | append_singleton ws w ih =>
    rw [visits_snoc]
    cases ws with
    | nil => rfl
    | cons v ws =>
      rw [List.cons_append, List.head?_cons] at *
      split <;> simp [ih]

theorem mem_visits : p ∈ visits n ws ↔ ∃ w ∈ ws, w.1 / n = p := by
  induction ws using List.reverseRecOn with
  | nil => simp
  | append_singleton ws w ih =>
    have hsnoc : (∃ v ∈ ws ++ [w], v.1 / n = p) ↔ p ∈ visits n ws ∨ w.1 / n = p := by
      simp [or_and_right, exists_or, ih]
    rw [hsnoc, visits_snoc]
    split
    · rename_i hlast
      refine ⟨.inl, ?_⟩
      rintro (h | rfl)
      · exact h
      · exact List.mem_of_getLast? hlast
    · simp [eq_comm]

theorem le_last_of_sorted {u v : Nat × β} (h : ws.Pairwise fun v w => v.1 / n ≤ w.1 / n)
    (hu : u ∈ ws.getLast?) (hv : v ∈ ws) : v.1 / n ≤ u.1 / n := by
  obtain ⟨us, rfl⟩ := List.getLast?_eq_some_iff.mp hu
  rcases List.mem_append.mp hv with hv | hv
  · exact (List.pairwise_append.mp h).2.2 v hv u List.mem_cons_self
  · rw [List.mem_singleton.mp hv]

/-- Writes that go through the pages in order come back to no page: one that was written
before is the one written last. -/
theorem last_of_sorted {v : Nat × β} (h : (ws ++ [w]).Pairwise fun v w => v.1 / n ≤ w.1 / n)
    (hv : v ∈ ws) (hp : v.1 / n = w.1 / n) : ∃ u ∈ ws.getLast?, u.1 / n = w.1 / n := by
  obtain ⟨hws, -, hle⟩ := List.pairwise_append.mp h
  have hu : ws.getLast (List.ne_nil_of_mem hv) ∈ ws.getLast? := List.getLast_mem_getLast? _
  have huw := hle _ (List.mem_of_getLast? hu) w List.mem_cons_self
  have hvu := le_last_of_sorted hws hu hv
  exact ⟨_, hu, by omega⟩

/-- The pages are gone through in order if each visit is to a higher page. -/
theorem visits_sorted_iff :
    (visits n ws).Pairwise (· < ·) ↔ ws.Pairwise fun v w => v.1 / n ≤ w.1 / n := by
  induction ws using List.reverseRecOn with
  | nil => simp
  | append_singleton ws w ih =>
    rw [visits_snoc]
    split
    · rename_i hlast
      rw [ih, List.pairwise_append]
      refine ⟨fun h => ⟨h, List.pairwise_singleton _ _, fun v hv u hu => ?_⟩, And.left⟩
      rw [getLast?_visits] at hlast
      obtain ⟨z, hz, hzw⟩ := Option.map_eq_some_iff.mp hlast
      rw [List.mem_singleton.mp hu, ← hzw]
      exact le_last_of_sorted h hz hv
    · rename_i hlast
      rw [List.pairwise_append, ih]
      refine ⟨fun ⟨hws, _, hlt⟩ => ?_, fun h => ?_⟩
      · refine List.pairwise_append.mpr ⟨hws, List.pairwise_singleton _ _, fun v hv u hu => ?_⟩
        rw [List.mem_singleton.mp hu]
        exact Nat.le_of_lt (hlt _ (mem_visits.mpr ⟨v, hv, rfl⟩) _ List.mem_cons_self)
      · obtain ⟨hws, -, hle⟩ := List.pairwise_append.mp h
        refine ⟨hws, List.pairwise_singleton _ _, fun p hp q hq => ?_⟩
        obtain ⟨v, hv, rfl⟩ := mem_visits.mp hp
        rw [List.mem_singleton.mp hq]
        refine Nat.lt_of_le_of_ne (hle v hv w List.mem_cons_self) fun hvw => hlast ?_
        obtain ⟨u, hu, huw⟩ := last_of_sorted h hv hvw
        rw [getLast?_visits, Option.mem_def.mp hu, ← huw]
        rfl

/-- Before and after the last visit. No write after it is to the page. -/
theorem lastRun_split (n p : Nat) (ws : List (Nat × β)) :
    ∃ before after, ws = before ++ (lastRun n p ws ++ after) ∧ ∀ w ∈ after, w.1 / n ≠ p := by
  refine ⟨(ws.rdropWhile fun w => w.1 / n ≠ p).rdropWhile fun w => w.1 / n = p,
    ws.rtakeWhile fun w => w.1 / n ≠ p, ?_, fun w hw => ?_⟩
  · rw [lastRun, openRun, ← List.append_assoc, List.rdropWhile_append_rtakeWhile,
      List.rdropWhile_append_rtakeWhile]
  · simpa using List.mem_rtakeWhile_imp hw

/-- What the last visit writes is there at the end. -/
theorem image_of_lastRun {a : Nat} {b : β} (h : image (lastRun n (a / n) ws) a = some b) :
    image ws a = some b := by
  obtain ⟨before, after, hws, hafter⟩ := lastRun_split n (a / n) ws
  have hnone : image after a = none :=
    image_eq_none fun w hw ha => hafter w hw (by rw [ha])
  rw [hws, image_append, image_append, hnone, h]
  rfl

/-- Of the last visit, what is there at the end is `d` where it writes nothing, exactly if
the writes before it left `d` there too. -/
theorem getD_lastRun_iff {a : Nat} {b d : β} (h : image ws a = some b) :
    (image (lastRun n (a / n) ws) a).getD d = b ↔ b = d ∨ image (lastRun n (a / n) ws) a ≠ none := by
  cases hrun : image (lastRun n (a / n) ws) a with
  | none => simp [eq_comm]
  | some c =>
    have hc := image_of_lastRun hrun
    rw [h] at hc
    simp [Option.some.inj hc]

/-- Of writes that go through the pages in order the last visits are all there is. -/
theorem image_lastRun_of_sorted (h : ws.Pairwise fun v w => v.1 / n ≤ w.1 / n) (a : Nat) :
    image (lastRun n (a / n) ws) a = image ws a := by
  induction ws using List.reverseRecOn with
  | nil => simp
  | append_singleton ws w ih =>
    have hws : ws.Pairwise fun v w => v.1 / n ≤ w.1 / n := (List.pairwise_append.mp h).1
    by_cases hp : w.1 / n = a / n
    · rw [lastRun_snoc_pos hp, image_snoc, image_snoc]
      congr 1
      by_cases hopen : ∃ v ∈ ws.getLast?, v.1 / n = a / n
      · rw [← lastRun_eq_openRun hopen, ih hws]
      · have hlast : ∀ v ∈ ws.getLast?, v.1 / n ≠ a / n := fun v hv hva => hopen ⟨v, hv, hva⟩
        rw [openRun_eq_nil hlast, image_nil]
        refine (image_eq_none fun v hv hva => hopen ?_).symm
        rw [← hp]
        exact last_of_sorted h hv (by rw [hva, hp])
    · have ha : w.1 ≠ a := fun ha => hp (by rw [ha])
      rw [lastRun_snoc_neg hp, image_snoc, if_neg ha, ih hws]

end ThreadSwitch.Lib
