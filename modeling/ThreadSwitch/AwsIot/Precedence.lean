import ThreadSwitch.AwsIot.Twin

/-!
# Local changes against deltas in flight

A local change clears what is desired, so that it has precedence. What has been announced by
then is still delivered: `local_change_stays_iff` says that the change stays exactly if no delta
in flight gives another value, and `run_applies` what the attribute is otherwise.
-/

namespace ThreadSwitch.AwsIot

open ThreadSwitch.Zephyr ThreadSwitch.Lib

variable {Message : Type} {jsonObjParse : JsonObjParse Message} {f : Field} {value : BitVec 32}

/-- The event neither desires a value for the attribute nor sets it. -/
def Leaves (f : Field) : TwinEvent Message → Prop
  | .desire values => values f = none
  | .device (.attributeSet id _ _) => id ≠ attributeId f
  | .deliver _ | .device (.aws _ _) | .device (.net _ _) | .device .connectDue
  | .device (.connectWork _) | .device (.connectReturned _) | .device (.elapse _) => True

/-! ## The attribute at the device -/

section device
variable {s s' : Integration} {o : List Effect}

theorem step_leaves {e : IntegrationEvent Message} (hdelta : ¬ IsDelta e)
    (hl : Leaves f (.device e)) (h : (integration jsonObjParse).step s e = some (s', o)) :
    s'.payload.get f = s.payload.get f := by
  cases e with
  | net mgmtEvent err => rcases step_net h with ⟨-, -, rfl⟩ | ⟨-, -, rfl⟩ <;> rfl
  | connectDue => obtain ⟨-, -, rfl⟩ := step_connectDue h; rfl
  | connectWork initErr =>
    obtain ⟨-, -, ⟨-, -, rfl⟩ | ⟨-, -, rfl⟩ | ⟨-, -, rfl⟩⟩ := step_connectWork h <;> rfl
  | connectReturned err => obtain ⟨-, -, rfl⟩ := step_connectReturned h; rfl
  | aws evt env =>
    cases evt with
    | connected => obtain ⟨rfl, -⟩ := step_connected h; rfl
    | disconnected => obtain ⟨rfl, -⟩ := step_disconnected h; rfl
    | connecting => cases h; rfl
    | other type => cases h; rfl
    | dataReceived topic message =>
      cases topic with
      | updateDelta => exact absurd trivial hdelta
      | other type => cases h; rfl
  | attributeSet id value env =>
    have hs : s.attributeSet id value env = (s', o) := Option.some.inj h
    have hpayload := attributeSet_payload s id value env
    rw [hs] at hpayload
    show s'.payload.get f = _
    rw [hpayload, setIfNew_get_of_ne hl, setIfNew_get_of_ne hl]
  | elapse ms => cases h; rfl

end device

/-! ## The attribute against the deltas -/

section pending
variable {σ : Type} (service : ShadowService σ Message) (document : Message → Json)

/-- The numbers that the deltas in flight give the attribute, oldest first. -/
def Twin.pending (f : Field) (w : Twin σ Message) : List Int :=
  w.deltas.filterMap fun message => deltaOf (document message) f

/-- Of the numbers that were in flight when the attribute was set to `n`, some are applied,
and it is the last of these; the others are still in flight. -/
structure Applies (f : Field) (n : Int) (numbers : List Int) (w : Twin σ Message) : Prop where
  tracks : Tracks service document w
  undesired : service.desired w.shadow f = none
  applied : ∃ applied, numbers = applied ++ w.pending document f ∧
    w.integration.payload.held f = applied.getLast?.getD n

end pending

section steps
variable {σ : Type} {spill : Json → Option Int} {document : Message → Json}
  {service : ShadowService σ Message} {n : Int} {numbers : List Int} {w w' : Twin σ Message}
  {o : List Effect} {e : TwinEvent Message} {env : CallEnv}

theorem pending_eq_sides (service : ShadowService σ Message) (w : Twin σ Message) :
    w.pending document f = (w.sides service document).queue.filterMap fun delta => delta f := by
  rw [Twin.sides, List.filterMap_map]
  rfl

/-- What is announced by the two sides says nothing new of the attribute. -/
theorem sides_applies {d : Deltas Field Int} (ht : Tracks service document w)
    (hd : w.sides service document = d.announce) (hnone : d.desired f = none) {applied : List Int}
    (hnumbers : numbers = applied ++ d.queue.filterMap fun delta => delta f)
    (hheld : d.held f = applied.getLast?.getD n) : Applies service document f n numbers w := by
  refine ⟨ht, ?_, applied, ?_, ?_⟩
  · show (w.sides service document).desired f = none
    rw [hd, Deltas.announce_desired, hnone]
  · rw [pending_eq_sides service, hd, Deltas.announce_undesired hnone, hnumbers]
  · show (w.sides service document).held f = _
    rw [hd, Deltas.announce_held, hheld]

theorem applies_next (hd : Documented spill document jsonObjParse)
    (hv : service.Documented document) (ha : Applies service document f n numbers w)
    (hsmooth : Smooth e) (hl : Leaves f e)
    (h : (twin jsonObjParse service).step w e = some (w', o)) :
    Applies service document f n numbers w' := by
  obtain ⟨ht, hnone, applied, hnumbers, hget⟩ := ha
  cases e with
  | desire new =>
    obtain ⟨ht', hsides⟩ := desire_tracks hv ht hsmooth h
    refine sides_applies ht' hsides ?_ (hnumbers.trans (by rw [pending_eq_sides])) hget
    show (new f).or (service.desired w.shadow f) = none
    rw [show new f = none from hl, hnone]
    rfl
  | device e =>
    obtain ⟨hdelta, hs, -, hdeltas, hshadow⟩ := device_step hv ht.session hsmooth h
    refine ⟨device_tracks hv ht hsmooth h, ?_, applied, ?_, ?_⟩
    · obtain ⟨hcleared, -⟩ | ⟨hsame, -⟩ := hshadow
      · rw [hcleared]
      · rw [hsame, hnone]
    · rw [Twin.pending, hdeltas]
      exact hnumbers
    · rw [Payload.held, step_leaves hdelta hl hs]
      exact hget
  | deliver env =>
    cases hq : w.deltas with
    | nil => simp [twin, hq] at h
    | cons message deltas =>
      obtain ⟨u, o', hstep, ht', hsides⟩ := deliver_tracks hd hv hsmooth ht (by rw [hq]; simp)
      rw [hstep] at h
      cases h
      have hqueue : (w.sides service document).queue = deltaOf (document message) ::
          deltas.map fun message => deltaOf (document message) := by
        rw [Twin.sides, hq]
        rfl
      rw [Deltas.deliver_cons hqueue] at hsides
      rw [pending_eq_sides service, hqueue] at hnumbers
      cases hgiven : deltaOf (document message) f with
      | none =>
        simp only [List.filterMap_cons, hgiven] at hnumbers
        refine sides_applies ht' hsides hnone hnumbers ?_
        show (deltaOf (document message) f).getD (w.integration.payload.held f) = _
        rw [hgiven, Option.getD_none, hget]
      | some v =>
        simp only [List.filterMap_cons, hgiven] at hnumbers
        rw [List.append_cons] at hnumbers
        refine sides_applies ht' hsides hnone hnumbers ?_
        show (deltaOf (document message) f).getD (w.integration.payload.held f) = _
        rw [hgiven, List.getLast?_concat]
        rfl

theorem run_applies {u : Twin σ Message} {fs : List (TwinEvent Message)} {os : List Effect}
    (hd : Documented spill document jsonObjParse) (hv : service.Documented document)
    (ha : Applies service document f n numbers w) (hfs : ∀ e ∈ fs, Smooth e ∧ Leaves f e)
    (h : (twin jsonObjParse service).run w fs = some (u, os)) :
    Applies service document f n numbers u := by
  refine Machine.run_induct (motive := fun fs _ u => (∀ e ∈ fs, Smooth e ∧ Leaves f e) →
    Applies service document f n numbers u) (fun _ => ha) ?_ h hfs
  intro fs os t e o u _ ih hs hfs
  obtain ⟨hpre, hlast⟩ := List.forall_mem_append.mp hfs
  obtain ⟨hsmooth, hl⟩ := hlast e (List.mem_singleton_self e)
  exact applies_next hd hv (ih hpre) hsmooth hl hs

/-- Setting a new value clears what is desired, and leaves in flight what is in flight. -/
theorem attributeSet_applies (hv : service.Documented document) (he : env.Succeeds)
    (ht : Tracks service document w) (hnew : w.integration.payload.get f ≠ value)
    (h : (twin jsonObjParse service).step w (.device (.attributeSet (attributeId f) value env)) =
      some (w', o)) :
    w'.pending document f = w.pending document f ∧
      Applies service document f value.toInt (w.pending document f) w' := by
  have hsmooth : Smooth (.device (.attributeSet (attributeId f) value env) : TwinEvent Message) := he
  obtain ⟨-, hs, -, hdeltas, hshadow⟩ := device_step hv ht.session hsmooth h
  have hpending : w'.pending document f = w.pending document f := by
    rw [Twin.pending, Twin.pending, hdeltas]
  have hget := attributeSet_get w.integration f value env
  rw [show w.integration.attributeSet (attributeId f) value env = _ from Option.some.inj hs] at hget
  refine ⟨hpending, device_tracks hv ht hsmooth h, ?_, [], hpending.symm,
    congrArg BitVec.toInt hget⟩
  obtain ⟨hcleared, -⟩ | ⟨-, hsame⟩ := hshadow
  · rw [hcleared]
  · rw [hsame] at hget
    exact absurd hget hnew

/-- Every number in flight is the attribute's at some time. -/
theorem pending_reaches {v : Int} (hd : Documented spill document jsonObjParse)
    (hv : service.Documented document) (he : env.Succeeds) (ht : Tracks service document w)
    (hmem : v ∈ w.pending document f) :
    ∃ m u os, (twin jsonObjParse service).run w (List.replicate m (.deliver env)) = some (u, os) ∧
      u.integration.payload.held f = v := by
  rw [pending_eq_sides service] at hmem
  obtain ⟨delta, hmem, hgiven⟩ := List.mem_filterMap.mp hmem
  obtain ⟨pre, post, hq⟩ := List.append_of_mem hmem
  obtain ⟨m, -, u, os, hrun, htracks, hsides⟩ := deliveries hd hv he ht pre.length
  obtain ⟨added, hqueue, -⟩ := (w.sides service document).round pre.length
    (by rw [hq, List.length_append]; omega) ht.announced
  rw [← hsides, hq, List.drop_left] at hqueue
  obtain ⟨u', o, hstep, -, hsides'⟩ := deliver_tracks hd hv he htracks fun hempty => by
    rw [Twin.sides, hempty] at hqueue
    cases hqueue
  refine ⟨m + 1, u', os ++ o, ?_, ?_⟩
  · rw [List.replicate_succ']
    exact Machine.run_snoc_iff.mpr ⟨u, os, o, hrun, hstep, rfl⟩
  · show (u'.sides service document).held f = v
    rw [hsides', Deltas.deliver_cons hqueue, Deltas.announce_held]
    show (delta f).getD _ = v
    rw [hgiven]
    rfl

/-- **A local change stays unless a delta is in flight against it.** In a session in which
nothing fails, a new local value of an attribute stays, whatever else is set or desired, for as
long as nothing new is desired of this attribute or set to it, exactly if no delta in flight at
the change gives it another number. -/
theorem local_change_stays_iff {w₀ : Twin σ Message} {es : List (TwinEvent Message)}
    {os : List Effect} (hd : Documented spill document jsonObjParse)
    (hv : service.Documented document) (he : env.Succeeds) (hempty : w₀.deltas = [])
    (hsmooth : ∀ e ∈ es, Smooth e)
    (h : (twin jsonObjParse service).run w₀ (.device (.aws .connected env) :: es) = some (w, os))
    (hnew : w.integration.payload.get f ≠ value)
    (hset : (twin jsonObjParse service).step w
      (.device (.attributeSet (attributeId f) value env)) = some (w', o)) :
    (∀ fs u os, (∀ e ∈ fs, Smooth e ∧ Leaves f e) →
      (twin jsonObjParse service).run w' fs = some (u, os) → u.integration.payload.get f = value) ↔
        ∀ n ∈ w.pending document f, n = value.toInt := by
  obtain ⟨w₁, _, _, hconnected, hrest, -⟩ := Machine.run_cons_iff.mp h
  obtain ⟨hpending, ha⟩ := attributeSet_applies hv he
    (run_tracks hd hv hsmooth (connected_tracks hv he hempty hconnected) hrest) hnew hset
  refine ⟨fun hstays n hn => ?_, fun hsame fs u os hfs hrun => ?_⟩
  · rw [← hpending] at hn
    obtain ⟨m, u, os, hrun, hheld⟩ := pending_reaches hd hv he ha.tracks hn
    have hget : u.integration.payload.get f = value := by
      refine hstays _ u os (fun e hmem => ?_) hrun
      rw [List.eq_of_mem_replicate hmem]
      exact ⟨he, trivial⟩
    rw [← hheld, Payload.held, hget]
  · obtain ⟨applied, hnumbers, hheld⟩ := (run_applies hd hv ha hfs hrun).applied
    refine BitVec.eq_of_toInt_eq (hheld.trans ?_)
    cases hlast : applied.getLast? with
    | none => rfl
    | some n =>
      refine hsame n ?_
      rw [hnumbers]
      exact List.mem_append_left _ (List.mem_of_getLast? hlast)

end steps

/-- ON is desired; the delta message with it is in flight. -/
def desiredOn : List (TwinEvent Json) := [.desire fun f => if f = .onoff then some 1 else none]

/-- Then a level set locally stays. -/
theorem levelDuringDelta_stays :
    ∃ w o, (twin parseDocument shadowService).run (twinAt 0) (.device (.aws .connected {}) ::
        (desiredOn ++ [.device (.attributeSet (attributeId .levelControl) 50 {})])) = some (w, o) ∧
      ∀ fs u os, (∀ e ∈ fs, Smooth e ∧ Leaves .levelControl e) →
        (twin parseDocument shadowService).run w fs = some (u, os) →
          u.integration.payload.get .levelControl = 50 := by
  obtain ⟨w, os, hrun, hnew, hnone⟩ : ∃ w os, (twin parseDocument shadowService).run (twinAt 0)
      (.device (.aws .connected {}) :: desiredOn) = some (w, os) ∧
        w.integration.payload.get .levelControl ≠ 50 ∧ w.pending id .levelControl = [] :=
    Machine.run_eval (by decide +kernel)
  have hsmooth : ∀ e ∈ desiredOn, Smooth e := by
    intro e he
    rw [List.mem_singleton.mp he]
    show Fits _
    decide
  obtain ⟨w', os', hall, -⟩ : ∃ w' os', (twin parseDocument shadowService).run (twinAt 0)
      (.device (.aws .connected {}) :: (desiredOn ++
        [.device (.attributeSet (attributeId .levelControl) 50 {})])) = some (w', os') ∧ True :=
    Machine.run_eval (by decide +kernel)
  refine ⟨w', os', hall, ?_⟩
  rw [← List.cons_append] at hall
  obtain ⟨t, _, o, hrun', hset, -⟩ := Machine.run_snoc_iff.mp hall
  cases hrun.symm.trans hrun'
  exact (local_change_stays_iff parseDocument_documented shadowService_documented succeeds_default
    rfl hsmooth hrun hnew hset).mpr (by simp [hnone])

end ThreadSwitch.AwsIot
