import ThreadSwitch.AwsIot.Delta

/-!
# The round trip of a payload

`encode_decode_agree_iff`: the update message gives the values of the payload, and a delta
message that gives them is decoded to the payload, exactly below 2^31.
-/

namespace ThreadSwitch.AwsIot

open ThreadSwitch.Zephyr ThreadSwitch.Lib

/-- The `state` of the message gives both attributes, with the values of the payload. -/
def Carries (doc : Json) (payload : Payload) : Prop :=
  ∀ f, given doc f = some (.number (payload.get f).toNat)

theorem Payload.ext_get {payload payload' : Payload} (h : ∀ f, payload.get f = payload'.get f) :
    payload = payload' := by
  cases payload
  cases payload'
  rw [Payload.mk.injEq]
  exact ⟨h .onoff, h .levelControl⟩

section decode
variable {Message : Type} {spill : Json → Option Int} {document : Message → Json}
  {jsonObjParse : JsonObjParse Message} {payload : Payload}

theorem Carries.state {doc : Json} (hc : Carries doc payload) :
    ∃ state, stateMembers doc = some state := by
  cases hs : stateMembers doc with
  | some state => exact ⟨state, rfl⟩
  | none =>
    have hgiven := hc .onoff
    rw [given, hs] at hgiven
    cases hgiven

/-- A message determines the payload it carries. -/
theorem Carries.unique {doc : Json} {payload' : Payload} (hc : Carries doc payload)
    (hc' : Carries doc payload') : payload = payload' := by
  refine Payload.ext_get fun f => BitVec.eq_of_toNat_eq ?_
  have hnumber := (hc f).symm.trans (hc' f)
  rw [Option.some.injEq, Json.number.injEq] at hnumber
  exact Int.ofNat_inj.mp hnumber

theorem Carries.bothGiven_iff {doc : Json} (hc : Carries doc payload) :
    BothGiven doc ↔ ∀ f, (payload.get f).toNat < 2 ^ 31 := by
  refine forall_congr' fun f => ⟨?_, fun h => ⟨_, h, hc f⟩⟩
  rintro ⟨n, hn, hg⟩
  rw [hc f, Option.some.injEq, Json.number.injEq] at hg
  omega

/-- A delta message is decoded to the payload it carries below 2^31 only. -/
theorem decode_exact_iff (hd : Documented spill document jsonObjParse) (message : Message)
    (hwf : (document message).wellFormed = true) (hc : Carries (document message) payload)
    (previous : Payload) :
    codecJsonDecodeDeltaMessage jsonObjParse message previous = (payload, 0) ↔
      ∀ f, (payload.get f).toNat < 2 ^ 31 := by
  obtain ⟨state, hs⟩ := hc.state
  rw [← hc.bothGiven_iff, Prod.ext_iff, decode_payload hd, decode_eq_zero_iff hd]
  refine ⟨?_, fun hboth => ?_⟩
  · rintro ⟨hstore, hok⟩
    refine (given_stored_iff hwf hs hok previous).mp ?_
    rw [hstore]
    exact hc
  · have hok : Decodes spill (document message) := decodes_of_bothGiven hwf hs hboth
    exact ⟨Carries.unique ((given_stored_iff hwf hs hok previous).mpr hboth) hc, hok⟩

/-- **Encode and decode agree on a payload**, the update message giving its values and a
delta message that gives them being decoded to it, exactly when both are below 2^31. -/
theorem encode_decode_agree_iff {jsonObjEncodeBuf : JsonObjEncodeBuf}
    (he : DocumentedEncoder jsonObjEncodeBuf) (hd : Documented spill document jsonObjParse)
    (message : Message) (hwf : (document message).wellFormed = true)
    (hc : Carries (document message) payload) (previous : Payload) :
    (codecJsonEncodeUpdateMessage jsonObjEncodeBuf messageSizeMax payload =
        (reportedMessage payload.onoff.toNat payload.levelControl.toNat, 0) ∧
      codecJsonDecodeDeltaMessage jsonObjParse message previous = (payload, 0)) ↔
      ∀ f, (payload.get f).toNat < 2 ^ 31 := by
  rw [encode_exact_iff he, decode_exact_iff hd message hwf hc, and_self]

end decode

/-- ON at level 200, in a message with a version and the attributes in the other order. -/
def dimmedDelta : Json :=
  .object [("version", .number 7),
    ("state", .object [("level_control", .number 200), ("onoff", .number 1)])]

theorem dimmedDelta_agrees :
    codecJsonEncodeUpdateMessage encodeText messageSizeMax ⟨1#32, 200#32⟩ =
        (reportedMessage 1 200, 0) ∧
      codecJsonDecodeDeltaMessage parseDocument dimmedDelta ⟨0#32, 0#32⟩ = (⟨1#32, 200#32⟩, 0) := by
  refine (encode_decode_agree_iff encodeText_documented parseDocument_documented dimmedDelta rfl
    (fun f => ?_) ⟨0#32, 0#32⟩).mpr fun f => ?_
  · cases f <;> rfl
  · cases f <;> decide

/-- The least value of `onoff` whose sign bit is set. -/
def upperHalf : Payload := ⟨2147483648#32, 0#32⟩

def upperHalfDelta : Json :=
  .object [("state", .object [("onoff", .number 2147483648), ("level_control", .number 0)])]

theorem upper_half_disagrees :
    ¬ ∀ (payload previous : Payload) (message : Json), message.wellFormed = true →
      Carries message payload →
        codecJsonEncodeUpdateMessage encodeText messageSizeMax payload =
            (reportedMessage payload.onoff.toNat payload.levelControl.toNat, 0) ∧
          codecJsonDecodeDeltaMessage parseDocument message previous = (payload, 0) := by
  intro hall
  have hcarries : Carries upperHalfDelta upperHalf := fun f => by cases f <;> rfl
  have hdecoded := (hall upperHalf ⟨0#32, 0#32⟩ upperHalfDelta rfl hcarries).2
  exact absurd hdecoded (by decide +kernel)

end ThreadSwitch.AwsIot
