import Mathlib.Data.Bool.Count
import Mathlib.Data.List.DropRight

/-!
# Shift registers as sliding windows

`shiftIn h b` shifts the bit `b` into the low end of a register and drops the
top one. `newest n h` lists the `n` lowest bits, newest first. The register
started from a constant fill and fed the samples `xs` shows, in its `n` lowest
bits, `window n fill xs`: the last `n` samples, padded with the fill
(`newest_shiftIn` and `window_snoc` are the two halves of that induction).
-/

namespace ThreadSwitch.Lib

/-- Shift `b` into the low end. -/
def shiftIn {w : Nat} (h : BitVec w) (b : Bool) : BitVec w :=
  (h <<< 1) ||| (BitVec.ofBool b).setWidth w

/-- The `n` lowest bits, newest first. -/
def newest {w : Nat} (n : Nat) (h : BitVec w) : List Bool := (List.range n).map h.getLsbD

/-- The last `n` of the samples `xs` (oldest first), newest first, padded with `fill`. -/
def window (n : Nat) (fill : Bool) (xs : List Bool) : List Bool :=
  (xs.reverse ++ List.replicate n fill).take n

section register
variable {w n : Nat}

theorem getLsbD_shiftIn_zero (h : BitVec w) (b : Bool) (hw : 0 < w) :
    (shiftIn h b).getLsbD 0 = b := by
  simp [shiftIn, hw]

theorem getLsbD_shiftIn_succ (h : BitVec w) (b : Bool) {i : Nat} (hi : i + 1 < w) :
    (shiftIn h b).getLsbD (i + 1) = h.getLsbD i := by
  simp [shiftIn, hi, BitVec.getLsbD_eq_getElem (show i < w by omega)]

theorem newest_shiftIn (h : BitVec w) (b : Bool) (hn : n ≤ w) :
    newest n (shiftIn h b) = (b :: newest n h).take n := by
  refine List.ext_getElem (by simp [newest]) fun i h1 h2 => ?_
  have hi : i < n := by simpa [newest] using h1
  cases i with
  | zero => simp [newest, getLsbD_shiftIn_zero h b (by omega)]
  | succ i =>
    have hb := getLsbD_shiftIn_succ h b (i := i) (by omega)
    simp [newest, hb]

theorem newest_zero : newest n (0#w) = List.replicate n false := by
  simp [newest, List.eq_replicate_iff]

theorem newest_allOnes (hn : n ≤ w) : newest n (BitVec.allOnes w) = List.replicate n true := by
  simp only [newest, List.eq_replicate_iff, List.length_map, List.length_range, true_and]
  intro b hb
  obtain ⟨i, hi, rfl⟩ := List.mem_map.mp hb
  have := List.mem_range.mp hi
  simp [show i < w by omega]

end register

section window
variable {n : Nat} {fill : Bool}

@[simp] theorem window_nil : window n fill [] = List.replicate n fill := by
  simp [window]

/-- Oldest first, the window is the end of the list that starts with the fill. -/
theorem reverse_window (xs : List Bool) :
    (window n fill xs).reverse = (List.replicate n fill ++ xs).rtake n := by
  rw [List.rtake_eq_reverse_take_reverse, List.reverse_append, List.reverse_replicate, window]

theorem window_snoc (xs : List Bool) (b : Bool) :
    window n fill (xs ++ [b]) = (b :: window n fill xs).take n := by
  cases n with
  | zero => simp [window]
  | succ n => simp [window, List.take_take]

@[simp] theorem length_window (xs : List Bool) : (window n fill xs).length = n := by
  simp [window]

/-- A value other than the fill is counted among the samples only. -/
theorem count_window {b : Bool} (hb : fill ≠ b) (xs : List Bool) :
    (window n fill xs).count b = (xs.reverse.take n).count b := by
  rw [window, List.take_append, List.count_append, List.take_replicate, List.count_replicate,
    if_neg (by simpa using hb), Nat.add_zero]

theorem count_window_add (xs : List Bool) (b : Bool) :
    (window n fill xs).count (!b) + (window n fill xs).count b = n := by
  rw [List.count_not_add_count, length_window]

end window

/-- Fill that is not counted does not matter. -/
theorem countP_rtake_replicate {α : Type} {p : α → Bool} {fill : α} (hp : p fill = false) (n : Nat)
    (xs : List α) :
    ((List.replicate n fill ++ xs).rtake n).countP p = (xs.rtake n).countP p := by
  rw [List.rtake, List.length_append, List.length_replicate, List.drop_append, List.countP_append,
    List.length_replicate, List.drop_replicate, List.countP_replicate, hp, List.rtake]
  simp

/-- The last `n` of a list that ends with `n` copies. -/
theorem rtake_append_replicate {α : Type} (n : Nat) (xs : List α) (v : α) :
    (xs ++ List.replicate n v).rtake n = List.replicate n v := by
  rw [List.rtake, List.length_append, List.length_replicate, Nat.add_sub_cancel, List.drop_left]

/-- Counting in a loop over an index. -/
theorem foldl_count {α : Type} (p : α → Prop) [DecidablePred p] (l : List α) (k : Nat) :
    l.foldl (fun c i => if p i then c + 1 else c) k = k + l.countP (p ·) := by
  induction l generalizing k with
  | nil => rfl
  | cons a l ih =>
    rw [List.foldl_cons, ih, List.countP_cons]
    by_cases h : p a
    · simp only [h, if_true, decide_true]; omega
    · simp [h]

end ThreadSwitch.Lib
