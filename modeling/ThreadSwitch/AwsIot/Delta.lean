import ThreadSwitch.AwsIot.Integration

/-!
# Delta messages

The decoder stores into the payload before anything is validated or accepted, and the
handler is told both attributes of the payload whatever the message gave.

- `rejected_untouched_iff`: what the handler does not accept keeps its value only if the
  message stored no other value for it.
- `told_iff`: the handler is told what the message says only if the message gives both
  attributes, or is rejected before anything is read.
-/

namespace ThreadSwitch.AwsIot

open ThreadSwitch.Zephyr ThreadSwitch.Lib

/-! ## A rejected delta -/

/-- The handler was asked to apply the attribute, and did. -/
def Accepted (env : CallEnv) (calls : List Effect) (f : Field) : Prop :=
  (∃ value, .handler { attributeId := attributeId f, value := value } ∈ calls) ∧
    env.accepts f = true

/-- The message is read through, the handler accepts the attribute, and `onoff` before it. -/
def Accepts (spill : Json → Option Int) (doc : Json) (env : CallEnv) (f : Field) : Prop :=
  Decodes spill doc ∧ env.acceptsOnoff = true ∧ env.accepts f = true

section delta
variable {Message : Type} {jsonObjParse : JsonObjParse Message} {spill : Json → Option Int}
  {document : Message → Json}

theorem handler_mem_notifyChange {f g : Field} {value : BitVec 32} {payload : Payload} :
    .handler { attributeId := attributeId f, value := value } = notifyChange payload g ↔
      f = g ∧ value = payload.get g := by
  cases f <;> cases g <;> simp [notifyChange, attributeId]

theorem accepted_iff (hd : Documented spill document jsonObjParse) (message : Message)
    (env : CallEnv) (s : Integration) (f : Field) :
    Accepted env (s.decodeAndNotifyAttributeChange jsonObjParse message env).2.2 f ↔
      Accepts spill (document message) env f := by
  obtain ⟨-, hcases⟩ := decodeAndNotify_cases jsonObjParse message env s rfl rfl
  rw [Accepts, ← decode_eq_zero_iff hd message s.payload, Accepted]
  rcases hcases with ⟨herr, h2⟩ | ⟨hok, hon, h2⟩ | ⟨hok, hon, hlevel, h2⟩ | ⟨hok, hon, hlevel, h2⟩
  · simp [h2, herr]
  · rw [h2]
    cases f <;> simp [handler_mem_notifyChange, hon, CallEnv.accepts]
  · rw [h2]
    cases f <;> simp [handler_mem_notifyChange, hok, hon, hlevel, CallEnv.accepts]
  · rw [h2]
    cases f <;> simp [handler_mem_notifyChange, hok, hon, hlevel, CallEnv.accepts]

theorem decodeAndNotify_payload (hd : Documented spill document jsonObjParse) (message : Message)
    (env : CallEnv) (s : Integration) :
    (s.decodeAndNotifyAttributeChange jsonObjParse message env).1.payload =
      s.payload.store (deltaStores spill (document message)) := by
  obtain ⟨hstate, -⟩ := decodeAndNotify_cases jsonObjParse message env s rfl rfl
  rw [hstate]
  exact decode_payload hd message s.payload

/-- **A rejected delta leaves no trace** exactly when every number that it stores for an
attribute the handler does not accept is the attribute's value already. -/
theorem rejected_untouched_iff (hd : Documented spill document jsonObjParse) (message : Message)
    (env : CallEnv) (s : Integration) :
    (∀ f, ¬ Accepted env (s.decodeAndNotifyAttributeChange jsonObjParse message env).2.2 f →
      (s.decodeAndNotifyAttributeChange jsonObjParse message env).1.payload.get f =
        s.payload.get f) ↔
      ∀ f n, ¬ Accepts spill (document message) env f →
        (f, n) ∈ deltaStores spill (document message) → BitVec.ofInt 32 n = s.payload.get f := by
  simp only [accepted_iff hd, decodeAndNotify_payload hd,
    Payload.get_store_eq_iff (deltaStores_nodup _)]
  exact forall_congr' fun f => ⟨fun h n hacc => h hacc n, fun h hacc n => h n hacc⟩

/-- The second attribute is of the wrong type, the first one is not new. -/
def mistypedDelta : Json :=
  .object [("state", .object [("onoff", .number 0), ("level_control", .other "true")])]

theorem mistypedDelta_untouched :
    ((startedAt 0).decodeAndNotifyAttributeChange parseDocument mistypedDelta {}).1.payload.get
      .onoff = (startedAt 0).payload.get .onoff := by
  refine (rejected_untouched_iff parseDocument_documented mistypedDelta {} (startedAt 0)).mpr
    (fun f n _ hmem => ?_) .onoff (fun h => ?_)
  · have hstores : deltaStores (fun _ => none) mistypedDelta = [(.onoff, 0)] := by decide +kernel
    rw [id, hstores, List.mem_singleton] at hmem
    cases hmem
    rfl
  · have hcalls : ((startedAt 0).decodeAndNotifyAttributeChange parseDocument mistypedDelta {}).2.2 =
        [] := by decide +kernel
    obtain ⟨⟨value, hmem⟩, -⟩ := h
    rw [hcalls] at hmem
    cases hmem

/-- The handler rejects a new value of the first attribute. -/
def newOnoff : Json := .object [("state", .object [("onoff", .number 1)])]

theorem rejected_value_kept :
    ¬ ∀ (message : Json) (env : CallEnv) (s : Integration),
      (codecJsonDecodeDeltaMessage parseDocument message s.payload).2 ≠ 0 ∨
        env.acceptsOnoff = false ∨ env.acceptsLevelControl = false →
      ∀ f, ¬ Accepted env (s.decodeAndNotifyAttributeChange parseDocument message env).2.2 f →
        (s.decodeAndNotifyAttributeChange parseDocument message env).1.payload.get f =
          s.payload.get f := by
  intro hall
  have hkept := hall newOnoff { acceptsOnoff := false } (startedAt 0) (.inr (.inl rfl)) .onoff
    fun h => by cases h.2
  exact absurd hkept (by decide +kernel)

/-! ## What the handler is told -/

/-- The changes the handler is asked to apply, in order. -/
def changes (calls : List Effect) : List CbData :=
  calls.filterMap fun
    | .handler data => if data.error = 0 then some data else none
    | _ => none

/-- The value that the top-level `state` object gives for the attribute. -/
def given (doc : Json) (f : Field) : Option Json :=
  (stateMembers doc).bind fun state => state.lookup f.key

/-- The calls are one for each attribute that is given, with its value, and no other. -/
structure Told (doc : Json) (calls : List CbData) : Prop where
  known : ∀ data ∈ calls, ∃ f, data.attributeId = attributeId f
  value : ∀ f, (calls.filter (·.attributeId = attributeId f)).map
    (fun data => Json.number data.value.toNat) = (given doc f).toList

/-- Both attributes are given, as numbers from 0 to 2^31 - 1. -/
def BothGiven (doc : Json) : Prop :=
  ∀ f, ∃ n : Nat, n < 2 ^ 31 ∧ given doc f = some (.number n)

theorem told_nil {doc : Json} : Told doc [] ↔ ∀ f, given doc f = none := by
  refine ⟨fun h f => ?_, fun h => ⟨by simp, fun f => by simp [h f]⟩⟩
  simpa using (h.value f).symm

/-- Told both attributes of the payload, the handler is told what the message says when
the message gives both with these values. -/
theorem told_both {doc : Json} {payload : Payload} :
    Told doc (changes [notifyChange payload .onoff, notifyChange payload .levelControl]) ↔
      ∀ f, given doc f = some (.number (payload.get f).toNat) := by
  have hvalue : ∀ f : Field, ((changes [notifyChange payload .onoff,
      notifyChange payload .levelControl]).filter (·.attributeId = attributeId f)).map
        (fun data => Json.number data.value.toNat) = [.number (payload.get f).toNat] := by
    intro f
    cases f <;> simp [changes, notifyChange, attributeId]
  refine ⟨fun h f => ?_, fun h => ⟨fun data hdata => ?_, fun f => ?_⟩⟩
  · have := h.value f
    rw [hvalue] at this
    cases hg : given doc f <;> simp_all
  · have hpair : data = { attributeId := attributeId .onoff, value := payload.get .onoff } ∨
        data = { attributeId := attributeId .levelControl, value := payload.get .levelControl } := by
      simpa [changes, notifyChange] using hdata
    rcases hpair with rfl | rfl
    · exact ⟨.onoff, rfl⟩
    · exact ⟨.levelControl, rfl⟩
  · rw [hvalue, h f]
    rfl

@[simp] theorem changes_append (os os' : List Effect) :
    changes (os ++ os') = changes os ++ changes os' := by
  simp [changes]

theorem Sends.changes_eq {os : List Effect} (ho : Sends os) : changes os = [] := by
  refine List.filterMap_eq_nil_iff.mpr fun x hx => ?_
  obtain ⟨document, err, rfl⟩ := ho x hx
  rfl

/-- Reporting an error asks for no change. -/
theorem changes_onDataReceived (message : Message) (env : CallEnv) (s : Integration) :
    changes (s.onDataReceived jsonObjParse .updateDelta message env).2 =
      changes (s.decodeAndNotifyAttributeChange jsonObjParse message env).2.2 := by
  rw [onDataReceived_delta jsonObjParse message env s rfl, changes_append]
  split
  · exact List.append_nil _
  · rename_i herr
    simp [changes, notifyError, herr]

/-- The calls of a delta that the handler accepts: both attributes of the payload, if
the message is read through, and none otherwise. -/
theorem changes_of_delta (hd : Documented spill document jsonObjParse) (message : Message)
    {env : CallEnv} (hon : env.acceptsOnoff = true) (hlevel : env.acceptsLevelControl = true)
    (s : Integration) :
    (Decodes spill (document message) →
      changes (s.onDataReceived jsonObjParse .updateDelta message env).2 =
        changes [notifyChange (s.payload.store (deltaStores spill (document message))) .onoff,
          notifyChange (s.payload.store (deltaStores spill (document message))) .levelControl]) ∧
    (¬ Decodes spill (document message) →
      changes (s.onDataReceived jsonObjParse .updateDelta message env).2 = []) := by
  obtain ⟨-, hcases⟩ := decodeAndNotify_cases jsonObjParse message env s rfl rfl
  rw [← decode_eq_zero_iff hd message s.payload, ← decode_payload hd, changes_onDataReceived]
  rcases hcases with ⟨herr, h2⟩ | ⟨hok, hoff, -⟩ | ⟨hok, -, hoff, -⟩ | ⟨hok, -, -, h2⟩
  · rw [h2]
    exact ⟨fun hok => absurd hok herr, fun _ => rfl⟩
  · rw [hon] at hoff; cases hoff
  · rw [hlevel] at hoff; cases hoff
  · rw [h2]
    refine ⟨fun _ => ?_, fun herr => absurd hok herr⟩
    rw [changes_append, (update_only_sends _ _).changes_eq, List.append_nil]

section given
variable {doc : Json} {state : List (String × Json)}

theorem given_eq (hs : stateMembers doc = some state) (f : Field) :
    given doc f = state.lookup f.key := by
  rw [given, hs]
  rfl

theorem not_stateMistyped (hs : stateMembers doc = some state) : ¬ StateMistyped doc := by
  obtain ⟨members, rfl, hl⟩ := stateMembers_eq_some.mp hs
  rintro ⟨value, hv, hne⟩
  exact hne state (Option.some.inj (hv.symm.trans hl))

/-- A number from 0 to 2^31 - 1 is read as it is given. -/
theorem firstInt_given (hs : stateMembers doc = some state) {f : Field} {n : Nat}
    (hg : given doc f = some (.number n)) :
    Descr.firstInt state f.key = if n < 2 ^ 31 then some (n : Int) else none := by
  have hfits : FitsInt32 n ↔ n < 2 ^ 31 := by unfold FitsInt32; omega
  rw [given_eq hs] at hg
  rw [Descr.firstInt, hg, Option.bind_some, Json.asInt32]
  exact if_congr hfits rfl rfl

theorem decodes_of_bothGiven (hwf : doc.wellFormed = true) (hs : stateMembers doc = some state)
    (h : BothGiven doc) : Decodes spill doc := by
  refine (decodes_state_iff hwf hs).mpr fun f _ => ?_
  obtain ⟨n, hn, hg⟩ := h f
  rw [firstInt_given hs hg, if_pos hn]
  simp

/-- The payload after a delta that is read through holds the attributes the message gives
exactly when it gives both as numbers that are their own 32-bit values. -/
theorem given_stored_iff (hwf : doc.wellFormed = true) (hs : stateMembers doc = some state)
    (hok : Decodes spill doc) (payload : Payload) :
    (∀ f, given doc f = some (.number ((payload.store (deltaStores spill doc)).get f).toNat)) ↔
      BothGiven doc := by
  refine ⟨fun h f => ⟨_, ?_, h f⟩, fun h f => ?_⟩
  · have hread := (decodes_state_iff hwf hs).mp hok f (by rw [← given_eq hs, h f]; simp)
    rw [firstInt_given hs (h f)] at hread
    by_contra hbig
    exact hread (if_neg hbig)
  · obtain ⟨n, hn, hg⟩ := h f
    have hmem : (f, (n : Int)) ∈ deltaStores spill doc :=
      (mem_deltaStores_iff hwf hs hok).mpr ((firstInt_given hs hg).trans (if_pos hn))
    rw [Payload.get_store_of_mem (deltaStores_nodup _) hmem, hg, BitVec.ofInt_natCast,
      BitVec.toNat_ofNat, Nat.mod_eq_of_lt (by omega)]

end given

/-- **The handler is told exactly what the delta says** when the message gives both
attributes as numbers from 0 to 2^31 - 1, or nothing is read because the message is no
object or its `state` is none. -/
theorem told_iff (hd : Documented spill document jsonObjParse) (message : Message)
    (hwf : (document message).wellFormed = true) {env : CallEnv} (hon : env.acceptsOnoff = true)
    (hlevel : env.acceptsLevelControl = true) (s : Integration) :
    Told (document message)
        (changes (s.onDataReceived jsonObjParse .updateDelta message env).2) ↔
      BothGiven (document message) ∨ StateMistyped (document message) := by
  obtain ⟨hread, hunread⟩ := changes_of_delta hd message hon hlevel s
  generalize document message = doc at *
  cases hs : stateMembers doc with
  | none =>
    have hgiven : ∀ f, given doc f = none := fun f => by rw [given, hs]; rfl
    have hnot : ¬ BothGiven doc := fun h => by
      obtain ⟨n, -, hn⟩ := h .onoff
      rw [hgiven] at hn
      cases hn
    have hdec : Decodes spill doc ↔ ¬ StateMistyped doc := decodes_stateless_iff hwf hs
    by_cases hm : StateMistyped doc
    · rw [hunread fun h => hdec.mp h hm, told_nil]
      exact ⟨fun _ => .inr hm, fun _ => hgiven⟩
    · rw [hread (hdec.mpr hm), told_both]
      refine ⟨fun h => ?_, fun h => absurd h (not_or.mpr ⟨hnot, hm⟩)⟩
      have := h .onoff
      rw [hgiven] at this
      cases this
  | some state =>
    have hm := not_stateMistyped hs
    by_cases hok : Decodes spill doc
    · rw [hread hok, told_both, given_stored_iff hwf hs hok]
      exact ⟨.inl, fun h => h.resolve_right hm⟩
    · rw [hunread hok, told_nil]
      refine ⟨fun h => absurd ((decodes_state_iff hwf hs).mpr fun f hf => ?_) hok, fun h => ?_⟩
      · rw [← given_eq hs] at hf
        exact absurd (h f) hf
      · exact absurd (decodes_of_bothGiven hwf hs (h.resolve_right hm)) hok

end delta

/-- Both attributes, in the other order, and a key that is no attribute. -/
def bothDelta : Json :=
  .object [("version", .number 7),
    ("state", .object [("level_control", .number 50), ("onoff", .number 1)])]

theorem bothDelta_told :
    Told bothDelta (changes ((startedAt 0).onDataReceived parseDocument .updateDelta bothDelta {}).2) := by
  refine (told_iff parseDocument_documented bothDelta rfl rfl rfl (startedAt 0)).mpr (.inl fun f => ?_)
  cases f with
  | onoff => exact ⟨1, by decide, rfl⟩
  | levelControl => exact ⟨50, by decide, rfl⟩

theorem handler_told_more :
    ¬ ∀ (message : Json) (env : CallEnv) (s : Integration), message.wellFormed = true →
      env.acceptsOnoff = true → env.acceptsLevelControl = true →
        Told message (changes (s.onDataReceived parseDocument .updateDelta message env).2) := by
  intro hall
  have hlevel := (hall newOnoff {} (startedAt 0) rfl rfl rfl).value .levelControl
  exact absurd (congrArg List.length hlevel) (by decide +kernel)

end ThreadSwitch.AwsIot
