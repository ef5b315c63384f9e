import Mathlib.Algebra.Ring.Int.Defs
import Mathlib.Algebra.Ring.Nat
import Mathlib.Data.List.Induction

/-!
# Bytes, blocks and images

`toLE` and `ofLE` write and read a number as bytes, least significant first.
`chunks n` cuts a list into its whole chunks of `n` elements. `image` is what a
memory holds after a list of writes: of two writes to one address the later one
counts. `placed a xs` are the writes that put `xs` at `a` and after it.
-/

namespace ThreadSwitch.Lib

abbrev Bytes := List UInt8

/-! ## Little-endian numbers -/

/-- The `w` low bytes of `n`. -/
def toLE : Nat → Nat → Bytes
  | 0, _ => []
  | w + 1, n => UInt8.ofNat n :: toLE w (n / 256)

def ofLE : Bytes → Nat
  | [] => 0
  | b :: bs => b.toNat + 256 * ofLE bs

@[simp] theorem length_toLE (w n : Nat) : (toLE w n).length = w := by
  induction w generalizing n with
  | zero => rfl
  | succ w ih => simp [toLE, ih]

theorem ofLE_toLE {w n : Nat} (h : n < 256 ^ w) : ofLE (toLE w n) = n := by
  induction w generalizing n with
  | zero => rw [Nat.pow_zero] at h; simp [toLE, ofLE]; omega
  | succ w ih =>
    have hrest : n / 256 < 256 ^ w := by
      rw [Nat.div_lt_iff_lt_mul (by decide), ← Nat.pow_succ]; exact h
    have hlow : (UInt8.ofNat n).toNat = n % 256 := by simp
    rw [toLE, ofLE, ih hrest, hlow, Nat.mod_add_div]

/-! ## Chunks -/

section chunks
variable {α : Type}

/-- The whole chunks of `n` elements; what is left over is dropped. -/
def chunks (n : Nat) (xs : List α) : List (List α) :=
  (List.range (xs.length / n)).map fun i => (xs.drop (n * i)).take n

theorem length_of_mem_chunks {n : Nat} {xs c : List α} (h : c ∈ chunks n xs) : c.length = n := by
  obtain ⟨i, hi, rfl⟩ := List.mem_map.mp h
  have hlt : (i + 1) * n ≤ xs.length :=
    Nat.le_trans (Nat.mul_le_mul_right n (List.mem_range.mp hi)) (Nat.div_mul_le_self _ _)
  rw [Nat.add_mul, Nat.one_mul, Nat.mul_comm] at hlt
  rw [List.length_take, List.length_drop]
  omega

theorem chunks_append {n : Nat} (hn : 0 < n) {c : List α} (hc : c.length = n) (xs : List α) :
    chunks n (c ++ xs) = c :: chunks n xs := by
  have hcount : (c ++ xs).length / n = xs.length / n + 1 := by
    rw [List.length_append, hc, Nat.add_div_left _ hn]
  rw [chunks, hcount, List.range_succ_eq_map, List.map_cons, List.map_map, chunks]
  congr 1
  · rw [Nat.mul_zero, List.drop_zero, List.take_left' hc]
  · refine List.map_congr_left fun i _ => ?_
    rw [Function.comp_apply, Nat.mul_succ, Nat.add_comm, ← List.drop_drop, List.drop_left' hc]

/-- Chunks of the right length are what a list of them is cut into. -/
theorem chunks_flatten {n : Nat} (hn : 0 < n) {cs : List (List α)} (h : ∀ c ∈ cs, c.length = n) :
    chunks n cs.flatten = cs := by
  induction cs with
  | nil => simp [chunks]
  | cons c cs ih =>
    rw [List.flatten_cons, chunks_append hn (h c List.mem_cons_self),
      ih fun c hc => h c (List.mem_cons_of_mem _ hc)]

end chunks

/-! ## Images -/

section image
variable {β : Type}

/-- What is at `a` after the writes, if one of them is to `a`. -/
def image (ws : List (Nat × β)) (a : Nat) : Option β :=
  ws.foldl (fun held w => if w.1 = a then some w.2 else held) none

/-- The writes that put `xs` at `a`. -/
def placed (a : Nat) (xs : List β) : List (Nat × β) := xs.zipIdx a |>.map Prod.swap

@[simp] theorem image_nil (a : Nat) : image ([] : List (Nat × β)) a = none := rfl

theorem image_snoc (ws : List (Nat × β)) (w : Nat × β) (a : Nat) :
    image (ws ++ [w]) a = if w.1 = a then some w.2 else image ws a := by
  rw [image, List.foldl_append]
  rfl

/-- The later writes count where they reach. -/
theorem image_append (ws vs : List (Nat × β)) (a : Nat) :
    image (ws ++ vs) a = (image vs a).or (image ws a) := by
  induction vs using List.reverseRecOn with
  | nil => simp
  | append_singleton vs v ih =>
    rw [← List.append_assoc, image_snoc, image_snoc, ih]
    split <;> simp

theorem image_cons (w : Nat × β) (ws : List (Nat × β)) (a : Nat) :
    image (w :: ws) a = (image ws a).or (if w.1 = a then some w.2 else none) :=
  image_append [w] ws a

theorem image_eq_none {ws : List (Nat × β)} {a : Nat} (h : ∀ w ∈ ws, w.1 ≠ a) : image ws a = none := by
  induction ws with
  | nil => rfl
  | cons w ws ih =>
    rw [image_cons, ih fun v hv => h v (List.mem_cons_of_mem _ hv),
      if_neg (h w List.mem_cons_self), Option.or_none]

theorem image_placed (a : Nat) (xs : List β) (i : Nat) :
    image (placed a xs) i = if a ≤ i then xs[i - a]? else none := by
  induction xs generalizing a with
  | nil => simp [placed]
  | cons x xs ih =>
    have hcons : placed a (x :: xs) = (a, x) :: placed (a + 1) xs := rfl
    rw [hcons, image_cons, ih]
    rcases Nat.lt_trichotomy a i with h | rfl | h
    · have hi : i - a = i - (a + 1) + 1 := by omega
      rw [if_pos (show a + 1 ≤ i from h), if_neg (Nat.ne_of_lt h), if_pos (Nat.le_of_lt h),
        Option.or_none, hi, List.getElem?_cons_succ]
    · rw [if_neg (by omega), if_pos rfl, if_pos (Nat.le_refl a), Nat.sub_self]
      rfl
    · rw [if_neg (by omega), if_neg (Nat.ne_of_gt h), if_neg (by omega)]
      rfl

/-- Writes that follow each other put their data down as one. -/
theorem placed_append (a : Nat) (xs ys : List β) :
    placed a (xs ++ ys) = placed a xs ++ placed (a + xs.length) ys := by
  rw [placed, List.zipIdx_append, List.map_append]
  rfl

theorem placed_injective {a : Nat} {xs ys : List β} (h : placed a xs = placed a ys) : xs = ys := by
  have hsnd : ∀ zs : List β, (placed a zs).map Prod.snd = zs := fun zs => by
    rw [placed, List.map_map]
    exact List.zipIdx_map_fst a zs
  rw [← hsnd xs, h, hsnd]

theorem placed_flatMap {p : Nat × List β} {ps : List (Nat × List β)}
    (h : (p :: ps).IsChain fun p q => q.1 = p.1 + p.2.length) :
    placed p.1 ((p :: ps).flatMap Prod.snd) = (p :: ps).flatMap fun q => placed q.1 q.2 := by
  induction ps generalizing p with
  | nil => simp
  | cons q ps ih =>
    obtain ⟨hq, hrest⟩ := List.isChain_cons_cons.mp h
    rw [List.flatMap_cons, placed_append, ← hq, ih hrest]
    rfl

end image

end ThreadSwitch.Lib
