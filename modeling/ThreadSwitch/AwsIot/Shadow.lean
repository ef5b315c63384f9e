import ThreadSwitch.AwsIot.Integration

/-!
# The reported state

The payload changes on a delta, on a local change and in a failed decoding. While a
session is announced, each of these either publishes the payload or leaves a notice of
the failure (`run_reported`). What is published gives the attributes as signed, so
`shadow_never_diverges` says that the reported state is current as long as they are
below 2^31.
-/

namespace ThreadSwitch.AwsIot

open ThreadSwitch.Zephyr ThreadSwitch.Lib

/-- The messages of the reported documents sent successfully, in order. -/
def reports (os : List Effect) : List String :=
  os.filterMap fun
    | .awsIotSend (.reported message) err => if err = 0 then some message else none
    | _ => none

/-- The message of the last reported document sent successfully. -/
def lastReported (os : List Effect) : Option String := (reports os).getLast?

/-- The message that gives the contents of the payload. -/
def exactMessage (payload : Payload) : String :=
  reportedMessage payload.onoff.toNat payload.levelControl.toNat

/-- An error is reported, or `aws_iot_send` returns `-ENOTCONN`. -/
def Noticed (os : List Effect) : Prop :=
  (∃ err, err ≠ 0 ∧ notifyError err ∈ os) ∨ ∃ document, .awsIotSend document (-enotconn) ∈ os

/-- An update message is encoded as documented, or not at all, but not with `-ENOTCONN`. -/
def Encodes (jsonObjEncodeBuf : JsonObjEncodeBuf) : Prop :=
  ∀ payload, codecJsonEncodeUpdateMessage jsonObjEncodeBuf messageSizeMax payload =
      (signedText updateRoot payload, 0) ∨
    ((codecJsonEncodeUpdateMessage jsonObjEncodeBuf messageSizeMax payload).2 ≠ 0 ∧
      (codecJsonEncodeUpdateMessage jsonObjEncodeBuf messageSizeMax payload).2 ≠ -enotconn)

/-- So is every message that is encoded while the event is handled. -/
def EncodesFor {Message : Type} : IntegrationEvent Message → Prop
  | .aws _ env | .attributeSet _ _ env => Encodes env.clearEncode ∧ Encodes env.encode
  | _ => True

theorem DocumentedEncoder.encodes {jsonObjEncodeBuf : JsonObjEncodeBuf}
    (he : DocumentedEncoder jsonObjEncodeBuf) : Encodes jsonObjEncodeBuf :=
  fun payload => .inl (encode_succeeds he payload)

@[simp] theorem reports_append (os os' : List Effect) :
    reports (os ++ os') = reports os ++ reports os' := by
  simp [reports]

theorem lastReported_append_of_nil (os : List Effect) {o : List Effect} (h : reports o = []) :
    lastReported (os ++ o) = lastReported os := by
  simp [lastReported, h]

theorem lastReported_append_of_some (os : List Effect) {o : List Effect} {message : String}
    (h : lastReported o = some message) : lastReported (os ++ o) = some message := by
  rw [lastReported, reports_append, List.getLast?_append]
  rw [lastReported] at h
  rw [h]
  rfl

theorem Noticed.append {os : List Effect} (h : Noticed os) (o : List Effect) :
    Noticed (os ++ o) :=
  h.imp (fun ⟨err, hne, hmem⟩ => ⟨err, hne, List.mem_append_left _ hmem⟩)
    fun ⟨document, hmem⟩ => ⟨document, List.mem_append_left _ hmem⟩

theorem Noticed.append_left {o : List Effect} (h : Noticed o) (os : List Effect) :
    Noticed (os ++ o) :=
  h.imp (fun ⟨err, hne, hmem⟩ => ⟨err, hne, List.mem_append_right _ hmem⟩)
    fun ⟨document, hmem⟩ => ⟨document, List.mem_append_right _ hmem⟩

theorem noticed_of_error {err : Int} (h : err ≠ 0) (o : List Effect) :
    Noticed (o ++ [notifyError err]) := .inl ⟨err, h, by simp⟩

/-- Encoding does not fail with `-ENOTCONN`. -/
theorem Encodes.ne_enotconn {jsonObjEncodeBuf : JsonObjEncodeBuf} (hen : Encodes jsonObjEncodeBuf)
    (payload : Payload) :
    (codecJsonEncodeUpdateMessage jsonObjEncodeBuf messageSizeMax payload).2 ≠ -enotconn := by
  rcases hen payload with hok | ⟨-, hconn⟩
  · rw [hok]
    show (0 : Int) ≠ -enotconn
    decide
  · exact hconn

section publish
variable {s : Integration} {env : CallEnv}

theorem update_reports (hen : Encodes env.encode) (h : (s.shadowUpdate env).1 = 0) :
    lastReported (s.shadowUpdate env).2 = some (signedText updateRoot s.payload) := by
  rcases hen s.payload with hok | ⟨hne, -⟩
  · obtain ⟨herr, -⟩ | ⟨-, hsent⟩ := shadowUpdate_cases env s hok
    · exact absurd rfl herr
    · rw [hsent] at h ⊢
      have hsend : env.send = 0 := h
      simp [lastReported, reports, hsend]
  · obtain ⟨-, hfailed⟩ | ⟨hzero, -⟩ := shadowUpdate_cases env s rfl
    · rw [hfailed] at h
      exact absurd h hne
    · exact absurd hzero hne

theorem update_noticed (hen : Encodes env.encode) (h : (s.shadowUpdate env).1 = -enotconn) :
    Noticed (s.shadowUpdate env).2 := by
  obtain ⟨-, hfailed⟩ | ⟨-, hsent⟩ := shadowUpdate_cases env s rfl
  · rw [hfailed] at h
    exact absurd h (hen.ne_enotconn s.payload)
  · rw [hsent] at h ⊢
    have hsend : env.send = -enotconn := h
    exact .inr ⟨_, by rw [hsend]; exact List.mem_singleton_self _⟩

theorem clear_noticed (hclear : Encodes env.clearEncode)
    (h : (s.shadowUpdateDesiredStateClear env).1 = -enotconn) :
    Noticed (s.shadowUpdateDesiredStateClear env).2 := by
  obtain ⟨-, hfailed⟩ | ⟨-, hsent⟩ := shadowClear_cases env s rfl
  · rw [hfailed] at h
    exact absurd h (hclear.ne_enotconn s.payload)
  · rw [hsent] at h ⊢
    have hsend : env.clearSend = -enotconn := h
    exact .inr ⟨_, by rw [hsend]; exact List.mem_singleton_self _⟩

/-- Publishing during a session succeeds with the payload, or fails; it fails with
`-ENOTCONN` only if sending does. -/
theorem publish_reports (haws : s.isConnectedToAwsIot = true) (hen : Encodes env.encode)
    (h : (s.shadowClearDeltaAndUpdateReported env).1 = 0) :
    lastReported (s.shadowClearDeltaAndUpdateReported env).2 =
      some (signedText updateRoot s.payload) := by
  simp only [Integration.shadowClearDeltaAndUpdateReported, haws, Bool.not_true, Bool.false_eq_true,
    if_false] at h ⊢
  split at h
  · contradiction
  · rw [if_neg ‹_›]
    exact lastReported_append_of_some _ (update_reports hen h)

theorem publish_noticed (haws : s.isConnectedToAwsIot = true) (hclear : Encodes env.clearEncode)
    (hen : Encodes env.encode) (h : (s.shadowClearDeltaAndUpdateReported env).1 = -enotconn) :
    Noticed (s.shadowClearDeltaAndUpdateReported env).2 := by
  simp only [Integration.shadowClearDeltaAndUpdateReported, haws, Bool.not_true, Bool.false_eq_true,
    if_false] at h ⊢
  split at h
  · rw [if_pos ‹_›]
    exact clear_noticed hclear h
  · rw [if_neg ‹_›]
    exact (update_noticed hen h).append_left _

end publish

section steps
variable {Message : Type} {jsonObjParse : JsonObjParse Message} {s s' : Integration}
  {o : List Effect}

/-- A new session publishes the payload or leaves a notice. -/
theorem connected_reports {env : CallEnv} (hen : Encodes env.encode)
    (h : (integration jsonObjParse).step s (.aws .connected env) = some (s', o)) :
    lastReported o = some (signedText updateRoot s'.payload) ∨ Noticed o := by
  have hs := Option.some.inj h
  simp only [Integration.awsIotEventHandler] at hs
  split at hs <;> rename_i herr <;> cases hs
  · exact .inr (noticed_of_error herr _)
  · exact .inl (publish_reports rfl hen (not_not.mp herr))

/-- Any other step of a session keeps what was reported current, publishes the payload, or
leaves a notice. -/
theorem session_reports {e : IntegrationEvent Message} (hne : ∀ env, e ≠ .aws .connected env)
    (hen : EncodesFor e) (h : (integration jsonObjParse).step s e = some (s', o))
    (haws : s'.isConnectedToAwsIot = true) :
    s.isConnectedToAwsIot = true ∧
      ((s'.payload = s.payload ∧ reports o = []) ∨
        lastReported o = some (signedText updateRoot s'.payload) ∨ Noticed o) := by
  cases e with
  | net mgmtEvent err =>
    rcases step_net h with ⟨-, rfl, rfl⟩ | ⟨-, rfl, rfl⟩ <;> exact ⟨haws, .inl ⟨rfl, rfl⟩⟩
  | connectDue =>
    obtain ⟨-, rfl, rfl⟩ := step_connectDue h
    exact ⟨haws, .inl ⟨rfl, rfl⟩⟩
  | connectWork initErr =>
    obtain ⟨-, -, ⟨-, rfl, rfl⟩ | ⟨hne, rfl, rfl⟩ | ⟨-, rfl, rfl⟩⟩ := step_connectWork h
    · exact ⟨haws, .inl ⟨rfl, rfl⟩⟩
    · exact ⟨haws, .inl ⟨rfl, rfl⟩⟩
    · exact ⟨haws, .inl ⟨rfl, by split <;> rfl⟩⟩
  | connectReturned err =>
    obtain ⟨-, rfl, rfl⟩ := step_connectReturned h
    exact ⟨haws, .inl ⟨rfl, by split <;> rfl⟩⟩
  | aws evt env =>
    cases evt with
    | connected => exact absurd rfl (hne env)
    | disconnected =>
      obtain ⟨rfl, -⟩ := step_disconnected h
      cases haws
    | connecting => cases h; exact ⟨haws, .inl ⟨rfl, rfl⟩⟩
    | other type => cases h; exact ⟨haws, .inl ⟨rfl, rfl⟩⟩
    | dataReceived topic message =>
      cases topic with
      | other type => cases h; exact ⟨haws, .inl ⟨rfl, rfl⟩⟩
      | updateDelta =>
        obtain ⟨hstate, hcases⟩ := decodeAndNotify_cases jsonObjParse message env s rfl rfl
        have hs := (onDataReceived_delta jsonObjParse message env s rfl).symm.trans
          (Option.some.inj h)
        cases hs
        refine ⟨by rw [hstate] at haws; exact haws, .inr ?_⟩
        by_cases herr : (s.decodeAndNotifyAttributeChange jsonObjParse message env).2.1 = 0
        · rw [if_pos herr, List.append_nil]
          left
          rcases hcases with ⟨hne, h2⟩ | ⟨-, -, h2⟩ | ⟨-, -, -, h2⟩ | ⟨-, -, -, h2⟩
          · rw [h2] at herr; exact absurd herr hne
          · rw [h2] at herr; cases herr
          · rw [h2] at herr; cases herr
          · rw [h2] at herr ⊢
            exact lastReported_append_of_some _ (update_reports hen.2 herr)
        · rw [if_neg herr]
          exact .inr (noticed_of_error herr _)
  | attributeSet id value env =>
    rcases attributeSet_cases id value env s (Option.some.inj h) with hr | ⟨payload, _, hst, rfl, ho⟩
    · cases hr; exact ⟨haws, .inl ⟨rfl, rfl⟩⟩
    · dsimp only at hst ho
      have haws₀ : s.isConnectedToAwsIot = true := by rw [hst] at haws; exact haws
      refine ⟨haws₀, .inr ?_⟩
      by_cases hzero : (s'.shadowClearDeltaAndUpdateReported env).1 = 0
      · rw [ho, if_neg fun hc => hc.1 hzero]
        exact .inl (publish_reports haws hen.2 hzero)
      by_cases hconn : (s'.shadowClearDeltaAndUpdateReported env).1 = -enotconn
      · rw [ho, if_neg fun hc => hc.2 hconn]
        exact .inr (publish_noticed haws hen.1 hen.2 hconn)
      · rw [ho, if_pos ⟨hzero, hconn⟩]
        exact .inr (noticed_of_error hzero _)
  | elapse ms => cases h; exact ⟨haws, .inl ⟨rfl, rfl⟩⟩

end steps

/-- The run of `es` from `s₀` to `s` handles a last `AWS_IOT_EVT_CONNECTED`; `message` was
reported last, or there was a notice of a failure since then. -/
def ReportedOrNoticed {Message : Type} (jsonObjParse : JsonObjParse Message) (s₀ : Integration)
    (es : List (IntegrationEvent Message)) (s : Integration) (message : String) : Prop :=
  ∃ pre env post t os₁ os₂, es = pre ++ .aws .connected env :: post ∧
    (∀ env', .aws .connected env' ∉ post) ∧
    (integration jsonObjParse).run s₀ pre = some (t, os₁) ∧
    (integration jsonObjParse).run t (.aws .connected env :: post) = some (s, os₂) ∧
    (lastReported (os₁ ++ os₂) = some message ∨ Noticed os₂)

section run
variable {Message : Type} {jsonObjParse : JsonObjParse Message} {uptime : Nat}
  {es : List (IntegrationEvent Message)} {s : Integration} {os : List Effect}

/-- In a session the message of the payload was reported last, or there was a notice. -/
theorem run_reported (h : (integration jsonObjParse).run (startedAt uptime) es = some (s, os))
    (hen : ∀ e ∈ es, EncodesFor e) (haws : s.isConnectedToAwsIot = true) :
    ReportedOrNoticed jsonObjParse (startedAt uptime) es s (signedText updateRoot s.payload) := by
  refine Machine.run_induct (motive := fun es _ s => (∀ e ∈ es, EncodesFor e) →
    s.isConnectedToAwsIot = true → ReportedOrNoticed jsonObjParse (startedAt uptime) es s
      (signedText updateRoot s.payload))
    ?_ ?_ h hen haws
  · intro _ haws
    cases haws
  intro es os t e o u hrun ih hs hen haws
  by_cases hcon : ∃ env, e = .aws .connected env
  · obtain ⟨env, rfl⟩ := hcon
    refine ⟨es, env, [], t, os, o, rfl, by simp, hrun, Machine.run_single.trans hs, ?_⟩
    have hencodes : EncodesFor (.aws .connected env : IntegrationEvent Message) := hen _ (by simp)
    exact (connected_reports hencodes.2 hs).imp (lastReported_append_of_some os) id
  · have hne : ∀ env, e ≠ .aws .connected env := fun env he => hcon ⟨env, he⟩
    obtain ⟨haws', hstep⟩ := session_reports hne (hen e (by simp)) hs haws
    obtain ⟨pre, env, post, v, os₁, os₂, rfl, hlast, hpre, hpost, hrep⟩ :=
      ih (fun e he => hen e (List.mem_append_left _ he)) haws'
    refine ⟨pre, env, post ++ [e], v, os₁, os₂ ++ o, by simp, ?_, hpre,
      Machine.run_snoc_iff.mpr ⟨t, os₂, o, hpost, hs, rfl⟩, ?_⟩
    · intro env' hmem
      rcases List.mem_append.mp hmem with hmem | hmem
      · exact hlast env' hmem
      · exact hne env' (List.mem_singleton.mp hmem).symm
    · rw [← List.append_assoc]
      rcases hstep with ⟨hsame, hnone⟩ | hnew | hnotice
      · rw [lastReported_append_of_nil _ hnone, hsame]
        exact hrep.imp id fun h => h.append o
      · exact .inl (lastReported_append_of_some _ hnew)
      · exact .inr (hnotice.append_left os₂)

end run

/-! ## Attributes below 2^31 -/

/-- The attributes are printed as they are. -/
def Payload.Below (payload : Payload) : Prop := ∀ f, (payload.get f).toNat < 2 ^ 31

instance (payload : Payload) : Decidable payload.Below :=
  inferInstanceAs (Decidable (∀ f, (payload.get f).toNat < 2 ^ 31))

/-- Where a session starts, and in a session, the attributes are below 2^31. -/
def KeepsBelow {Message : Type} (jsonObjParse : JsonObjParse Message) (s : Integration) :
    IntegrationEvent Message → Prop
  | .aws .connected _ => s.payload.Below
  | .aws (.dataReceived .updateDelta message) _ => s.isConnectedToAwsIot = true →
    (codecJsonDecodeDeltaMessage jsonObjParse message s.payload).1.Below
  | .attributeSet id value _ =>
    s.isConnectedToAwsIot = true → (∃ f, id = attributeId f) → value.toNat < 2 ^ 31
  | _ => True

instance {Message : Type} (jsonObjParse : JsonObjParse Message) (s : Integration) :
    ∀ e : IntegrationEvent Message, Decidable (KeepsBelow jsonObjParse s e)
  | .aws .connected _ => inferInstanceAs (Decidable s.payload.Below)
  | .aws (.dataReceived .updateDelta _) _ => inferInstanceAs (Decidable (_ → Payload.Below _))
  | .attributeSet id _ _ => inferInstanceAs (Decidable (_ → (∃ f, id = attributeId f) → _))
  | .aws (.dataReceived (.other _) _) _ | .aws .connecting _ | .aws .disconnected _
  | .aws (.other _) _ | .net _ _ | .connectDue | .connectWork _ | .connectReturned _ | .elapse _ =>
    isTrue trivial

/-- In a session the attributes are below 2^31. -/
def SessionBelow (s : Integration) : Prop := s.isConnectedToAwsIot = true → s.payload.Below

section below
variable {Message : Type} {jsonObjParse : JsonObjParse Message} {s s' : Integration}
  {e : IntegrationEvent Message} {o : List Effect}

theorem delta_payload {message : Message} {env : CallEnv}
    (h : (integration jsonObjParse).step s (.aws (.dataReceived .updateDelta message) env) =
      some (s', o)) :
    s' = { s with payload := (codecJsonDecodeDeltaMessage jsonObjParse message s.payload).1 } := by
  obtain ⟨hstate, -⟩ := decodeAndNotify_cases jsonObjParse message env s rfl rfl
  have hs := (onDataReceived_delta jsonObjParse message env s rfl).symm.trans (Option.some.inj h)
  cases hs
  exact hstate

theorem sessionBelow_next (hb : SessionBelow s) (hk : KeepsBelow jsonObjParse s e)
    (h : (integration jsonObjParse).step s e = some (s', o)) : SessionBelow s' := by
  intro haws
  cases e with
  | net mgmtEvent err => rcases step_net h with ⟨-, -, rfl⟩ | ⟨-, -, rfl⟩ <;> exact hb haws
  | connectDue => obtain ⟨-, -, rfl⟩ := step_connectDue h; exact hb haws
  | connectWork initErr =>
    obtain ⟨-, -, ⟨-, -, rfl⟩ | ⟨-, -, rfl⟩ | ⟨-, -, rfl⟩⟩ := step_connectWork h <;> exact hb haws
  | connectReturned err => obtain ⟨-, -, rfl⟩ := step_connectReturned h; exact hb haws
  | aws evt env =>
    cases evt with
    | connected => obtain ⟨rfl, -⟩ := step_connected h; exact hk
    | disconnected => obtain ⟨rfl, -⟩ := step_disconnected h; cases haws
    | connecting => cases h; exact hb haws
    | other type => cases h; exact hb haws
    | dataReceived topic message =>
      cases topic with
      | other type => cases h; exact hb haws
      | updateDelta =>
        have hs' := delta_payload h
        subst hs'
        exact hk haws
  | attributeSet id value env =>
    have hs' : s.attributeSet id value env = (s', o) := Option.some.inj h
    have hpayload := attributeSet_payload s id value env
    have hsession := attributeSet_session s id value env
    rw [hs'] at hpayload hsession
    rw [hsession] at haws
    intro f
    by_cases hid : id = attributeId f
    · subst hid
      have hget := attributeSet_get s f value env
      rw [hs'] at hget
      rw [hget]
      exact hk haws ⟨f, rfl⟩
    · rw [hpayload, setIfNew_get_of_ne hid, setIfNew_get_of_ne hid]
      exact hb haws f
  | elapse ms => cases h; exact hb haws

/-- A step that does not keep the attributes below 2^31 leaves one that is not. -/
theorem not_below_of_not_keeps (hk : ¬ KeepsBelow jsonObjParse s e)
    (h : (integration jsonObjParse).step s e = some (s', o)) : ¬ s'.payload.Below := by
  unfold KeepsBelow at hk
  split at hk
  · obtain ⟨rfl, -⟩ := step_connected h
    exact hk
  · rw [delta_payload h]
    exact (Classical.not_imp.mp hk).2
  · rename_i id value env
    simp only [Classical.not_imp] at hk
    obtain ⟨-, ⟨f, rfl⟩, hvalue⟩ := hk
    intro hbelow
    have hget := attributeSet_get s f value env
    rw [show s.attributeSet (attributeId f) value env = _ from Option.some.inj h] at hget
    have := hbelow f
    rw [hget] at this
    exact hvalue this
  · exact absurd trivial hk

end below

/-! ## The reported state is current -/

section current
variable {Message : Type} {jsonObjParse : JsonObjParse Message} {s₀ s : Integration}
  {es : List (IntegrationEvent Message)} {env : CallEnv} {os : List Effect} {message : String}

/-- A run that ends with the start of a session has reported its message in that last step, or
left a notice there. -/
theorem ReportedOrNoticed.of_connected
    (hr : ReportedOrNoticed jsonObjParse s₀ (es ++ [.aws .connected env]) s message) :
    ∃ t os o, (integration jsonObjParse).run s₀ es = some (t, os) ∧
      (integration jsonObjParse).step t (.aws .connected env) = some (s, o) ∧
        (lastReported (os ++ o) = some message ∨ Noticed o) := by
  obtain ⟨pre, env', post, t, os₁, os₂, hes, hlast, hpre, hpost, hrep⟩ := hr
  have hnil : post = [] := by
    by_contra hne
    obtain ⟨front, last, rfl⟩ := (List.eq_nil_or_concat' post).resolve_left hne
    rw [← List.cons_append, ← List.append_assoc] at hes
    obtain ⟨-, hend⟩ := List.append_inj' hes rfl
    exact hlast env (by rw [← List.singleton_inj.mp hend]; simp)
  subst hnil
  obtain ⟨rfl, hend⟩ := List.append_inj' hes rfl
  cases List.singleton_inj.mp hend
  exact ⟨t, os₁, os₂, hpre, Machine.run_single.symm.trans hpost, hrep⟩

/-- A payload that is not below 2^31 is not what a new session reports, and nothing is noticed. -/
theorem connected_diverges {t : Integration} (h : (integration jsonObjParse).run s₀ es = some (t, os))
    (hbelow : ¬ t.payload.Below) :
    ∃ u os, (integration jsonObjParse).run s₀ (es ++ [.aws .connected {}]) = some (u, os) ∧
      u.isConnectedToAwsIot = true ∧ ¬ ReportedOrNoticed jsonObjParse s₀
        (es ++ [.aws .connected {}]) u (exactMessage u.payload) := by
  have hstep := connected_succeeds jsonObjParse succeeds_default t
  refine ⟨_, _, Machine.run_snoc_iff.mpr ⟨t, os, _, h, hstep, rfl⟩, rfl, fun hr => ?_⟩
  obtain ⟨t', os', o, hpre, hstep', hrep⟩ := hr.of_connected
  cases h.symm.trans hpre
  cases hstep.symm.trans hstep'
  rcases hrep with hreported | hnoticed
  · have hlast : lastReported (published t.payload) = some (signedText updateRoot t.payload) := rfl
    rw [lastReported_append_of_some _ hlast] at hreported
    exact hbelow ((signedText_exact_iff _).mp (Option.some.inj hreported))
  · simp [Noticed, published, notifyError, enotconn] at hnoticed

end current

/-- **The reported state never silently diverges** in a session of a run whose steps keep the
attributes below 2^31 in sessions and where one starts: the last reported document that was sent
carries the payload, or since the last `AWS_IOT_EVT_CONNECTED` there was a notice of a failure.
A step that does not keep them below leaves the next session without either. -/
theorem shadow_never_diverges {Message : Type} {jsonObjParse : JsonObjParse Message} {uptime : Nat}
    {es : List (IntegrationEvent Message)} {s : Integration} {os : List Effect}
    (h : (integration jsonObjParse).run (startedAt uptime) es = some (s, os))
    (hen : ∀ e ∈ es, EncodesFor e) :
    ((integration jsonObjParse).Along (KeepsBelow jsonObjParse) (startedAt uptime) es →
      s.isConnectedToAwsIot = true →
        ReportedOrNoticed jsonObjParse (startedAt uptime) es s (exactMessage s.payload)) ∧
    ∀ pre e post t os, es = pre ++ e :: post →
      (integration jsonObjParse).run (startedAt uptime) pre = some (t, os) →
        ¬ KeepsBelow jsonObjParse t e → ∃ u os,
          (integration jsonObjParse).run (startedAt uptime) (pre ++ [e] ++ [.aws .connected {}]) =
              some (u, os) ∧
            u.isConnectedToAwsIot = true ∧ ¬ ReportedOrNoticed jsonObjParse (startedAt uptime)
              (pre ++ [e] ++ [.aws .connected {}]) u (exactMessage u.payload) := by
  refine ⟨fun hk haws => ?_, ?_⟩
  · have hbelow : SessionBelow s := Machine.run_inv_along
      (fun t e u o => sessionBelow_next) (fun haws => by cases haws) hk h
    have hexact : signedText updateRoot s.payload = exactMessage s.payload :=
      (signedText_exact_iff _).mpr (hbelow haws)
    rw [← hexact]
    exact run_reported h hen haws
  · rintro pre e post t os rfl hpre hk
    obtain ⟨t', o, -, hstep, -⟩ := Machine.run_split_of h hpre
    exact connected_diverges (Machine.run_snoc_iff.mpr ⟨t, os, o, hpre, hstep, rfl⟩)
      (not_below_of_not_keeps hk hstep)

/-- A local change in a session, and a delta that the handler rejects. -/
def changedInSession : List (IntegrationEvent Json) :=
  [.aws .connected {}, .attributeSet 1 1 {},
    .aws (.dataReceived .updateDelta (.object [("state", .object [("onoff", .number 0)])]))
      { acceptsOnoff := false }]

theorem changedInSession_noticed : ∃ s os,
    (integration parseDocument).run (startedAt 0) changedInSession = some (s, os) ∧
      ReportedOrNoticed parseDocument (startedAt 0) changedInSession s (exactMessage s.payload) := by
  obtain ⟨s, os, hrun, haws, hkeeps⟩ : ∃ s os,
      (integration parseDocument).run (startedAt 0) changedInSession = some (s, os) ∧
        s.isConnectedToAwsIot = true ∧ (integration parseDocument).Along (KeepsBelow parseDocument)
          (startedAt 0) changedInSession := Machine.run_eval (by decide +kernel)
  have htext : Encodes encodeText := encodeText_documented.encodes
  refine ⟨s, os, hrun, (shadow_never_diverges hrun fun e he => ?_).1 hkeeps haws⟩
  rcases List.mem_cons.mp he with rfl | he
  · exact ⟨htext, htext⟩
  rcases List.mem_cons.mp he with rfl | he
  · exact ⟨htext, htext⟩
  · rw [List.mem_singleton.mp he]
    exact ⟨htext, htext⟩

/-- A local change to the least value whose sign bit is set, and then a session. -/
theorem signBit_diverges :
    ¬ ∀ es s os, (integration parseDocument).run (startedAt 0) es = some (s, os) →
      (∀ e ∈ es, EncodesFor e) → s.isConnectedToAwsIot = true →
        ReportedOrNoticed parseDocument (startedAt 0) es s (exactMessage s.payload) := by
  intro hall
  have hset : (integration parseDocument).run (startedAt 0) [.attributeSet 1 2147483648 {}] =
      some ({ startedAt 0 with payload := ⟨2147483648, 0⟩ }, []) := rfl
  obtain ⟨s, os, hrun, haws, hdiverges⟩ := connected_diverges hset (by decide)
  have htext : Encodes encodeText := encodeText_documented.encodes
  refine hdiverges (hall _ _ _ hrun (fun e he => ?_) haws)
  rcases List.mem_cons.mp he with rfl | he
  · exact ⟨htext, htext⟩
  · rw [List.mem_singleton.mp he]
    exact ⟨htext, htext⟩

end ThreadSwitch.AwsIot
