import ThreadSwitch.AwsIot.Integration

/-!
# The calls that open a session

`initialized_once`: over any run the library is initialized until that succeeds, not once more,
and every attempt to connect comes after it.
-/

namespace ThreadSwitch.AwsIot

open ThreadSwitch.Zephyr ThreadSwitch.Lib

/-- The calls of `aws_iot_init` and `aws_iot_connect`. -/
def opening (os : List Effect) : List Effect :=
  os.filter fun
    | .awsIotInit _ | .awsIotConnect => true
    | _ => false

@[simp] theorem opening_append (os os' : List Effect) :
    opening (os ++ os') = opening os ++ opening os' := List.filter_append ..

theorem Sends.opening_eq {os : List Effect} (ho : Sends os) : opening os = [] := by
  refine List.filter_eq_nil_iff.mpr fun x hx => ?_
  obtain ⟨document, err, rfl⟩ := ho x hx
  exact Bool.false_ne_true

section steps
variable {Message : Type} {jsonObjParse : JsonObjParse Message} {s s' : Integration}
  {o : List Effect} {e : IntegrationEvent Message}

/-- A run of `connect_work` initializes the library if that is still to be done, and calls
`aws_iot_connect` once it is. -/
theorem connectWork_opening {initErr : Int}
    (h : (integration jsonObjParse).step s (.connectWork initErr) = some (s', o)) :
    (opening o = [] ∧ s'.init = s.init) ∨
      (s.init = false ∧ initErr ≠ 0 ∧ opening o = [.awsIotInit initErr] ∧ s'.init = false) ∨
      (s.init = false ∧ opening o = [.awsIotInit 0, .awsIotConnect] ∧ s'.init = true) ∨
      (s.init = true ∧ opening o = [.awsIotConnect] ∧ s'.init = true) := by
  simp only [integration] at h
  split at h
  · have hs := Option.some.inj h
    unfold Integration.connectWorkFn Integration.connect at hs
    cases hnet : s.isConnectedToNetwork with
    | false => simp only [hnet] at hs; cases hs; exact .inl ⟨rfl, rfl⟩
    | true =>
      cases hinit : s.init with
      | true =>
        simp only [hnet, hinit] at hs
        cases hs
        exact .inr (.inr (.inr ⟨rfl, rfl, rfl⟩))
      | false =>
        simp only [hnet, hinit] at hs
        by_cases herr : initErr = 0
        · rw [herr] at hs
          cases hs
          exact .inr (.inr (.inl ⟨rfl, rfl, rfl⟩))
        · rw [if_neg (by simp), if_pos (by simp), if_pos herr] at hs
          cases hs
          exact .inr (.inl ⟨rfl, herr, rfl, rfl⟩)
  · cases h

/-- Nothing else opens a session. -/
theorem other_opening (he : ∀ initErr, e ≠ .connectWork initErr)
    (h : (integration jsonObjParse).step s e = some (s', o)) : opening o = [] ∧ s'.init = s.init := by
  cases e with
  | net mgmtEvent err => rcases step_net h with ⟨-, rfl, rfl⟩ | ⟨-, rfl, rfl⟩ <;> exact ⟨rfl, rfl⟩
  | connectDue => obtain ⟨-, rfl, rfl⟩ := step_connectDue h; exact ⟨rfl, rfl⟩
  | connectWork initErr => exact absurd rfl (he initErr)
  | connectReturned err =>
    obtain ⟨-, rfl, rfl⟩ := step_connectReturned h
    exact ⟨by split <;> rfl, rfl⟩
  | aws evt env =>
    cases evt with
    | connected =>
      have hs := Option.some.inj h
      simp only [Integration.awsIotEventHandler] at hs
      split at hs <;> cases hs
      · refine ⟨?_, rfl⟩
        rw [opening_append, (publish_only_sends _ _).opening_eq]
        rfl
      · exact ⟨(publish_only_sends _ _).opening_eq, rfl⟩
    | disconnected => obtain ⟨rfl, rfl⟩ := step_disconnected h; exact ⟨rfl, rfl⟩
    | connecting => cases h; exact ⟨rfl, rfl⟩
    | other type => cases h; exact ⟨rfl, rfl⟩
    | dataReceived topic message =>
      cases topic with
      | other type => cases h; exact ⟨rfl, rfl⟩
      | updateDelta =>
        obtain ⟨hstate, hcases⟩ := decodeAndNotify_cases jsonObjParse message env s rfl rfl
        have hs := (onDataReceived_delta jsonObjParse message env s rfl).symm.trans
          (Option.some.inj h)
        cases hs
        refine ⟨?_, by rw [hstate]⟩
        have herr : ∀ err : Int, opening (if err = 0 then [] else [notifyError err]) = [] :=
          fun err => by split <;> rfl
        rw [opening_append, herr]
        rcases hcases with ⟨-, h2⟩ | ⟨-, -, h2⟩ | ⟨-, -, -, h2⟩ | ⟨-, -, -, h2⟩
        · rw [h2]; rfl
        · rw [h2]; rfl
        · rw [h2]; rfl
        · rw [h2, opening_append, (update_only_sends _ _).opening_eq]; rfl
  | attributeSet id value env =>
    rcases attributeSet_cases id value env s (Option.some.inj h) with hr | ⟨payload, _, hst, rfl, ho⟩
    · cases hr; exact ⟨rfl, rfl⟩
    · dsimp only at hst ho
      refine ⟨?_, by rw [hst]⟩
      rw [ho]
      split
      · rw [opening_append, (publish_only_sends _ _).opening_eq]; rfl
      · exact (publish_only_sends _ _).opening_eq
  | elapse ms => cases h; exact ⟨rfl, rfl⟩

end steps

/-- **The library is initialized once**, however often that fails before, and every attempt to
connect comes after it: the first one at once. -/
theorem initialized_once {Message : Type} {jsonObjParse : JsonObjParse Message} {uptime : Nat}
    {es : List (IntegrationEvent Message)} {s : Integration} {os : List Effect}
    (h : (integration jsonObjParse).run (startedAt uptime) es = some (s, os)) :
    ∃ (failed : List Int) (attempts : Nat), (∀ err ∈ failed, err ≠ 0) ∧
      opening os = failed.map Effect.awsIotInit ++
        if s.init = true then .awsIotInit 0 :: .awsIotConnect :: List.replicate attempts .awsIotConnect
        else [] := by
  refine Machine.run_induct (motive := fun _ os s => ∃ (failed : List Int) (attempts : Nat),
    (∀ err ∈ failed, err ≠ 0) ∧ opening os = failed.map Effect.awsIotInit ++
      if s.init = true then .awsIotInit 0 :: .awsIotConnect :: List.replicate attempts .awsIotConnect
      else []) ⟨[], 0, by simp, rfl⟩ ?_ h
  rintro es os t e o u - ⟨failed, attempts, hfailed, hos⟩ hs
  rw [opening_append, hos]
  by_cases he : ∃ initErr, e = .connectWork initErr
  · obtain ⟨initErr, rfl⟩ := he
    obtain ⟨hnone, hinit⟩ | ⟨hinit, herr, ho, hinit'⟩ | ⟨hinit, ho, hinit'⟩ | ⟨hinit, ho, hinit'⟩ :=
      connectWork_opening hs
    · exact ⟨failed, attempts, hfailed, by rw [hnone, hinit, List.append_nil]⟩
    · refine ⟨failed ++ [initErr], 0, ?_, by simp [hinit, hinit', ho]⟩
      simp only [List.mem_append, List.mem_singleton]
      rintro err (hmem | rfl)
      · exact hfailed err hmem
      · exact herr
    · exact ⟨failed, 0, hfailed, by simp [hinit, hinit', ho]⟩
    · refine ⟨failed, attempts + 1, hfailed, ?_⟩
      rw [hinit, hinit', ho, List.replicate_succ']
      simp
  · obtain ⟨hnone, hinit⟩ := other_opening (fun initErr hc => he ⟨initErr, hc⟩) hs
    exact ⟨failed, attempts, hfailed, by rw [hnone, hinit, List.append_nil]⟩

/-- Initialization fails, succeeds, and the first attempt times out. -/
def retried : List (IntegrationEvent Json) :=
  [.net .l4Connected 0, .elapse 5000, .connectDue, .connectWork (-5), .net .l4Connected 0,
    .elapse 5000, .connectDue, .connectWork 0, .connectReturned (-eagain), .elapse 30000,
    .connectDue, .connectWork 0]

theorem retried_initialized_once :
    ∃ s os, (integration parseDocument).run (startedAt 0) retried = some (s, os) ∧
      ∃ (failed : List Int) (attempts : Nat), opening os = failed.map Effect.awsIotInit ++
        .awsIotInit 0 :: .awsIotConnect :: List.replicate attempts .awsIotConnect := by
  obtain ⟨s, os, hrun, hinit⟩ : ∃ s os,
      (integration parseDocument).run (startedAt 0) retried = some (s, os) ∧ s.init = true :=
    Machine.run_eval (by decide +kernel)
  obtain ⟨failed, attempts, -, hos⟩ := initialized_once hrun
  rw [if_pos hinit] at hos
  exact ⟨s, os, hrun, failed, attempts, hos⟩

end ThreadSwitch.AwsIot
