import Mathlib.Data.List.Induction

/-!
# Runs of partial machines with outputs

A `Machine` takes an event in a state and either refuses it or moves to a new
state and emits outputs. `run` executes a list of events; `Along P` says that
every step of a run meets `P` in the state it is taken in. The rules here are
the ones a development over a machine needs: splitting a run, induction on its
last step (`run_induct`), invariants under a step condition (`run_inv`),
a variant that bounds the length of a run (`run_length_le`), and two ways to
relate machines: `Simulates` (each step is matched by a run of the
specification with the same outputs) and `Drives` (the outputs of one machine
are the events of another).
-/

namespace ThreadSwitch.Lib

/-- A partial machine: states `σ`, events `ε`, outputs `ω`. -/
structure Machine (σ ε ω : Type) where
  step : σ → ε → Option (σ × List ω)

namespace Machine

variable {σ ε ω : Type} (M : Machine σ ε ω)

/-- Execute the events in order; outputs are concatenated. -/
def run : σ → List ε → Option (σ × List ω)
  | s, [] => some (s, [])
  | s, e :: es => (M.step s e).bind fun r => (run r.1 es).map fun q => (q.1, r.2 ++ q.2)

/-- Every step of the run of `es` from `s` meets `P` in the state it is taken in. -/
def Along (P : σ → ε → Prop) : σ → List ε → Prop
  | _, [] => True
  | s, e :: es => P s e ∧ ∀ r ∈ M.step s e, Along P r.1 es

instance decidableAlong (P : σ → ε → Prop) [∀ s e, Decidable (P s e)] :
    ∀ (s : σ) (es : List ε), Decidable (M.Along P s es)
  | _, [] => isTrue trivial
  | s, e :: es =>
    match h : M.step s e with
    | none => decidable_of_iff (P s e) (by simp [Along, h])
    | some r =>
      have := decidableAlong P r.1 es
      decidable_of_iff (P s e ∧ M.Along P r.1 es) (by simp [Along, h])

variable {M}

/-! ## Splitting runs -/

@[simp] theorem run_nil (s : σ) : M.run s [] = some (s, []) := rfl

theorem run_cons_iff {s u : σ} {e : ε} {es : List ε} {os : List ω} :
    M.run s (e :: es) = some (u, os) ↔
      ∃ t o os', M.step s e = some (t, o) ∧ M.run t es = some (u, os') ∧ os = o ++ os' := by
  simp only [run, Option.bind_eq_some_iff, Option.map_eq_some_iff, Prod.mk.injEq, Prod.exists]
  refine ⟨?_, ?_⟩
  · rintro ⟨t, o, hs, v, os', hr, rfl, rfl⟩; exact ⟨t, o, os', hs, hr, rfl⟩
  · rintro ⟨t, o, os', hs, hr, rfl⟩; exact ⟨t, o, hs, u, os', hr, rfl, rfl⟩

theorem run_single {s : σ} {e : ε} : M.run s [e] = M.step s e := by
  cases h : M.step s e <;> simp [run, h]

theorem run_append_iff {es fs : List ε} {s u : σ} {os : List ω} :
    M.run s (es ++ fs) = some (u, os) ↔
      ∃ t o₁ o₂, M.run s es = some (t, o₁) ∧ M.run t fs = some (u, o₂) ∧ os = o₁ ++ o₂ := by
  induction es generalizing s os with
  | nil =>
    simp only [List.nil_append, run_nil, Option.some.injEq, Prod.mk.injEq]
    refine ⟨?_, ?_⟩
    · intro h; exact ⟨s, [], os, ⟨rfl, rfl⟩, h, rfl⟩
    · rintro ⟨t, o₁, o₂, ⟨rfl, rfl⟩, h, rfl⟩; exact h
  | cons e es ih =>
    simp only [List.cons_append, run_cons_iff, ih]
    refine ⟨?_, ?_⟩
    · rintro ⟨t, o, _, hs, ⟨v, p, q, h1, h2, rfl⟩, rfl⟩
      exact ⟨v, o ++ p, q, ⟨t, o, p, hs, h1, rfl⟩, h2, by rw [List.append_assoc]⟩
    · rintro ⟨v, _, q, ⟨t, o, p, hs, h1, rfl⟩, h2, rfl⟩
      exact ⟨t, o, p ++ q, hs, ⟨v, p, q, h1, h2, rfl⟩, by rw [List.append_assoc]⟩

theorem run_snoc_iff {es : List ε} {e : ε} {s u : σ} {os : List ω} :
    M.run s (es ++ [e]) = some (u, os) ↔
      ∃ t o₁ o₂, M.run s es = some (t, o₁) ∧ M.step t e = some (u, o₂) ∧ os = o₁ ++ o₂ := by
  simp only [run_append_iff, run_single]

/-- A run that takes a step splits around it. -/
theorem run_split {pre post : List ε} {e : ε} {s u : σ} {os : List ω}
    (h : M.run s (pre ++ e :: post) = some (u, os)) :
    ∃ t o₁ t' o o₂, M.run s pre = some (t, o₁) ∧ M.step t e = some (t', o) ∧
      M.run t' post = some (u, o₂) ∧ os = o₁ ++ (o ++ o₂) := by
  obtain ⟨t, o₁, _, h1, h2, rfl⟩ := run_append_iff.mp h
  obtain ⟨t', o, o₂, h3, h4, rfl⟩ := run_cons_iff.mp h2
  exact ⟨t, o₁, t', o, o₂, h1, h3, h4, rfl⟩

/-- The run around a step, from the state that is known to be there. -/
theorem run_split_of {pre post : List ε} {e : ε} {s t u : σ} {os o₁ : List ω}
    (h : M.run s (pre ++ e :: post) = some (u, os)) (hpre : M.run s pre = some (t, o₁)) :
    ∃ t' o o₂, M.step t e = some (t', o) ∧ M.run t' post = some (u, o₂) ∧
      os = o₁ ++ (o ++ o₂) := by
  obtain ⟨v, o₁', t', o, o₂, hv, hstep, hpost, rfl⟩ := run_split h
  rw [hpre] at hv
  cases hv
  exact ⟨t', o, o₂, hstep, hpost, rfl⟩

/-- Induction on the last step of a run, with its events and outputs so far. -/
theorem run_induct {s : σ} {motive : List ε → List ω → σ → Prop} (nil : motive [] [] s)
    (snoc : ∀ es os t e o u, M.run s es = some (t, os) → motive es os t →
      M.step t e = some (u, o) → motive (es ++ [e]) (os ++ o) u)
    {es : List ε} {os : List ω} {t : σ} (h : M.run s es = some (t, os)) : motive es os t := by
  induction es using List.reverseRecOn generalizing os t with
  | nil => cases h; exact nil
  | append_singleton es e ih =>
    obtain ⟨v, o₁, o₂, h1, h2, rfl⟩ := run_snoc_iff.mp h
    exact snoc es o₁ v e o₂ t h1 (ih h1) h2

/-- Evaluate a run on given events: it goes through, and what it leaves meets `P`. -/
theorem run_eval {P : σ → List ω → Prop} [∀ t os, Decidable (P t os)] {s : σ} {es : List ε}
    (h : (M.run s es).any (fun r => decide (P r.1 r.2)) = true) :
    ∃ t os, M.run s es = some (t, os) ∧ P t os := by
  obtain ⟨r, hr, hp⟩ := (Option.any_eq_true _ _).mp h
  exact ⟨r.1, r.2, hr, of_decide_eq_true hp⟩

/-! ## Step conditions -/

theorem along_append {P : σ → ε → Prop} {es fs : List ε} {s : σ} :
    M.Along P s (es ++ fs) ↔
      M.Along P s es ∧ ∀ t os, M.run s es = some (t, os) → M.Along P t fs := by
  induction es generalizing s with
  | nil =>
    simp only [List.nil_append, run_nil, Option.some.injEq, Prod.mk.injEq, Along, true_and]
    exact ⟨fun h t _ e => e.1 ▸ h, fun h => h s [] ⟨rfl, rfl⟩⟩
  | cons e es ih =>
    simp only [List.cons_append, Along, ih, run_cons_iff]
    refine ⟨?_, ?_⟩
    · rintro ⟨hp, h⟩
      refine ⟨⟨hp, fun r hr => (h r hr).1⟩, ?_⟩
      rintro t _ ⟨v, o, os', hs, hr, rfl⟩
      exact (h (v, o) hs).2 t os' hr
    · rintro ⟨⟨hp, h⟩, h'⟩
      exact ⟨hp, fun r hr => ⟨h r hr, fun t os ht => h' t _ ⟨r.1, r.2, os, hr, ht, rfl⟩⟩⟩

theorem along_single {P : σ → ε → Prop} {s : σ} {e : ε} : M.Along P s [e] ↔ P s e := by
  simp [Along]

theorem along_snoc {P : σ → ε → Prop} {es : List ε} {e : ε} {s : σ} :
    M.Along P s (es ++ [e]) ↔ M.Along P s es ∧ ∀ t os, M.run s es = some (t, os) → P t e := by
  simp only [along_append, along_single]

/-- `Along`, step by step: what it says of the step after each prefix. -/
theorem along_iff {P : σ → ε → Prop} {es : List ε} {s : σ} :
    M.Along P s es ↔
      ∀ pre e post t os, es = pre ++ e :: post → M.run s pre = some (t, os) → P t e := by
  refine ⟨?_, ?_⟩
  · rintro h pre e post t os rfl hr
    exact ((along_append.mp h).2 t os hr).1
  · intro h
    induction es using List.reverseRecOn with
    | nil => trivial
    | append_singleton es e ih =>
      refine along_snoc.mpr ⟨ih ?_, fun t os hr => h es e [] t os rfl hr⟩
      intro pre e' post t os he hr
      exact h pre e' (post ++ [e]) t os (by rw [he]; simp) hr

/-- Conditions that agree in every state agree on every run. -/
theorem along_congr {P Q : σ → ε → Prop} (h : ∀ s e, P s e ↔ Q s e) {s : σ} {es : List ε} :
    M.Along P s es ↔ M.Along Q s es := by
  simp only [along_iff, h]

/-- Where `P` keeps an invariant, and the invariant with `P` gives `Q`, the steps
of a run that all meet `P` all meet `Q`. -/
theorem Along.of_inv {P Q : σ → ε → Prop} {I : σ → Prop}
    (hstep : ∀ t e u o, I t → P t e → M.step t e = some (u, o) → I u)
    (hPQ : ∀ t e, I t → P t e → Q t e) {s : σ} {es : List ε} (hi : I s) (hp : M.Along P s es) :
    M.Along Q s es := by
  induction es generalizing s with
  | nil => trivial
  | cons e es ih =>
    exact ⟨hPQ s e hi hp.1, fun r hr => ih (hstep s e r.1 r.2 hi hp.1 hr) (hp.2 r hr)⟩

/-- Where each step from a state with `Q` leads to one exactly when it meets `P`, the
runs that stay in `Q` are those whose steps all meet `P`. -/
theorem states_iff_along {P : σ → ε → Prop} {I Q : σ → Prop}
    (hI : ∀ t e u o, I t → M.step t e = some (u, o) → I u)
    (hQ : ∀ t e u o, I t → Q t → M.step t e = some (u, o) → (Q u ↔ P t e))
    {es : List ε} {s t : σ} {os : List ω} (hi : I s) (hq : Q s) (h : M.run s es = some (t, os)) :
    (∀ pre post u os, es = pre ++ post → M.run s pre = some (u, os) → Q u) ↔ M.Along P s es := by
  induction es generalizing s os with
  | nil =>
    refine ⟨fun _ => trivial, ?_⟩
    rintro - pre post u os he hr
    obtain ⟨rfl, rfl⟩ := List.append_eq_nil_iff.mp he.symm
    cases hr
    exact hq
  | cons e es ih =>
    obtain ⟨v, o, os', hs, hr, rfl⟩ := run_cons_iff.mp h
    have hi' := hI s e v o hi hs
    refine ⟨fun hall => ?_, fun hal => ?_⟩
    · have hv := hall [e] es v o rfl (run_single.trans hs)
      refine ⟨(hQ s e v o hi hq hs).mp hv, fun r hr' => ?_⟩
      rw [hs] at hr'
      cases hr'
      refine (ih hi' hv hr).mp fun pre post u os he hpre => ?_
      exact hall (e :: pre) post u (o ++ os) (by rw [he]; rfl)
        (run_cons_iff.mpr ⟨v, o, os, hs, hpre, rfl⟩)
    · have hv := (hQ s e v o hi hq hs).mpr hal.1
      intro pre post u os he hpre
      cases pre with
      | nil => cases hpre; exact hq
      | cons e' pre =>
        obtain ⟨rfl, rfl⟩ := List.cons.inj he
        obtain ⟨w, o', os'', hs', hpre', -⟩ := run_cons_iff.mp hpre
        rw [hs] at hs'
        cases hs'
        exact (ih hi' hv hr).mpr (hal.2 _ hs) pre post u os'' rfl hpre'

/-- An invariant kept by every step that meets `P` holds at the end of a run
whose steps all do. -/
theorem run_inv_along {P : σ → ε → Prop} {I : σ → Prop}
    (hstep : ∀ t e u o, I t → P t e → M.step t e = some (u, o) → I u)
    {es : List ε} {s t : σ} {os : List ω} (hi : I s) (hp : M.Along P s es)
    (h : M.run s es = some (t, os)) : I t := by
  refine run_induct (motive := fun es _ t => M.Along P s es → I t) (fun _ => hi) ?_ h hp
  intro es os t e o u hr ih hs hp
  obtain ⟨hpre, hlast⟩ := along_snoc.mp hp
  exact hstep t e u o (ih hpre) (hlast t os hr) hs

/-- An invariant kept by every step holds at the end of a run. -/
theorem run_inv {I : σ → Prop} (hstep : ∀ t e u o, I t → M.step t e = some (u, o) → I u)
    {es : List ε} {s t : σ} {os : List ω} (hi : I s) (h : M.run s es = some (t, os)) : I t :=
  run_inv_along (P := fun _ _ => True) (fun t e u o hi _ hs => hstep t e u o hi hs) hi
    (along_iff.mpr fun _ _ _ _ _ _ _ => trivial) h

/-- A variant that every step decreases bounds the length of a run. -/
theorem run_length_le {m : σ → Nat} (hstep : ∀ t e u o, M.step t e = some (u, o) → m u < m t)
    {es : List ε} {s t : σ} {os : List ω} (h : M.run s es = some (t, os)) :
    es.length + m t ≤ m s := by
  refine run_induct (motive := fun es _ t => es.length + m t ≤ m s) (by simp) ?_ h
  intro es _ t e o u _ ih hs
  have := hstep t e u o hs
  simp only [List.length_append, List.length_singleton]
  omega

/-! ## Relating machines -/

section
variable {τ φ ξ : Type} {N : Machine τ φ ω} {D : Machine τ ω ξ}

/-- Every step of `M` that meets `P` is matched from related states by the run
of `N` on the translated event, with the same outputs. -/
def Simulates (M : Machine σ ε ω) (N : Machine τ φ ω) (P : σ → ε → Prop) (R : σ → τ → Prop)
    (g : ε → List φ) : Prop :=
  ∀ s a e s' o, R s a → P s e → M.step s e = some (s', o) →
    ∃ a', N.run a (g e) = some (a', o) ∧ R s' a'

theorem Simulates.run {P : σ → ε → Prop} {R : σ → τ → Prop} {g : ε → List φ}
    (hsim : Simulates M N P R g) {es : List ε} {s t : σ} {a : τ} {os : List ω} (hR : R s a)
    (hp : M.Along P s es) (h : M.run s es = some (t, os)) :
    ∃ b, N.run a (es.flatMap g) = some (b, os) ∧ R t b := by
  refine run_induct (motive := fun es os t => M.Along P s es →
    ∃ b, N.run a (es.flatMap g) = some (b, os) ∧ R t b) (fun _ => ⟨a, rfl, hR⟩) ?_ h hp
  intro es os t e o u hr ih hs hp
  obtain ⟨hpre, hlast⟩ := along_snoc.mp hp
  obtain ⟨b, hb, hRb⟩ := ih hpre
  obtain ⟨b', hb', hRb'⟩ := hsim t b e u o hRb (hlast t os hr) hs
  refine ⟨b', ?_, hRb'⟩
  rw [List.flatMap_append, List.flatMap_singleton]
  exact run_append_iff.mpr ⟨b, os, o, hb, hb', rfl⟩

/-- The outputs of each step of `M` are a run of `D` on the part of the state
that `f` selects. -/
def Drives (M : Machine σ ε ω) (D : Machine τ ω ξ) (f : σ → τ) : Prop :=
  ∀ s e s' o, M.step s e = some (s', o) → ∃ x, D.run (f s) o = some (f s', x)

theorem Drives.run {f : σ → τ} (hd : Drives M D f) {es : List ε} {s t : σ} {os : List ω}
    (h : M.run s es = some (t, os)) : ∃ x, D.run (f s) os = some (f t, x) := by
  refine run_induct (motive := fun _ os t => ∃ x, D.run (f s) os = some (f t, x)) ⟨[], rfl⟩ ?_ h
  rintro es os t e o u - ⟨x, hx⟩ hs
  obtain ⟨y, hy⟩ := hd t e u o hs
  exact ⟨x ++ y, run_append_iff.mpr ⟨f t, x, y, hx, hy, rfl⟩⟩

end

end Machine

end ThreadSwitch.Lib
