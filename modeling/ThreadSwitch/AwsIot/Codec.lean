import Mathlib.Data.Fintype.Basic
import ThreadSwitch.Zephyr
import ThreadSwitch.Lib.JsonText

/-!
# The codec of the shadow documents

`Payload` holds the two attributes of `struct payload`. Its fields are unsigned, and
`JSON_TOK_NUMBER` prints and parses them as signed. A delta message is decoded in place:
`json_obj_parse` stores into the payload while it reads, following the descriptors of the
message. Encoder and parser are the JSON library's, so they are parameters here,
`jsonObjEncodeBuf` and `jsonObjParse`; `DocumentedEncoder` says what is written, and
`Documented` what is read of the document that a message holds.

- `encode_succeeds`: an update message always fits its buffer.
- `encode_exact_iff`: it gives the values of the payload exactly below 2^31.
-/

namespace ThreadSwitch.AwsIot

open ThreadSwitch.Zephyr ThreadSwitch.Lib

/-- The fields of `struct cluster_onoff`. -/
inductive Field where
  | onoff
  | levelControl
  deriving DecidableEq, Repr

instance : Fintype Field := ⟨{.onoff, .levelControl}, fun f => by cases f <;> decide⟩

/-- `struct payload`, with its one cluster `state.reported.node.onoff`. -/
structure Payload where
  onoff : BitVec 32
  levelControl : BitVec 32
  deriving DecidableEq, Repr

namespace Payload

def get (payload : Payload) : Field → BitVec 32
  | .onoff => payload.onoff
  | .levelControl => payload.levelControl

def set (payload : Payload) (value : BitVec 32) : Field → Payload
  | .onoff => { payload with onoff := value }
  | .levelControl => { payload with levelControl := value }

/-- Store numbers into their fields, in order. -/
def store (payload : Payload) (stores : List (Field × Int)) : Payload :=
  stores.foldl (fun payload s => payload.set (BitVec.ofInt 32 s.2) s.1) payload

@[simp] theorem get_set (payload : Payload) (value : BitVec 32) (f : Field) :
    (payload.set value f).get f = value := by
  cases f <;> rfl

theorem get_set_of_ne (payload : Payload) (value : BitVec 32) {f g : Field} (h : f ≠ g) :
    (payload.set value g).get f = payload.get f := by
  cases f <;> cases g <;> first | rfl | exact absurd rfl h

@[simp] theorem store_nil (payload : Payload) : payload.store [] = payload := rfl

@[simp] theorem store_cons (payload : Payload) (s : Field × Int) (stores : List (Field × Int)) :
    payload.store (s :: stores) = (payload.set (BitVec.ofInt 32 s.2) s.1).store stores := rfl

section store
variable {payload : Payload} {stores : List (Field × Int)} {f : Field}

theorem get_store_of_not_mem (h : f ∉ stores.map Prod.fst) :
    (payload.store stores).get f = payload.get f := by
  induction stores generalizing payload with
  | nil => rfl
  | cons s stores ih =>
    rw [List.map_cons, List.mem_cons, not_or] at h
    rw [store_cons, ih h.2, get_set_of_ne _ _ h.1]

theorem get_store_of_mem {n : Int} (hn : (stores.map Prod.fst).Nodup) (h : (f, n) ∈ stores) :
    (payload.store stores).get f = BitVec.ofInt 32 n := by
  induction stores generalizing payload with
  | nil => cases h
  | cons s stores ih =>
    rw [List.map_cons, List.nodup_cons] at hn
    rw [store_cons]
    rcases List.mem_cons.mp h with rfl | h
    · rw [get_store_of_not_mem hn.1, get_set]
    · exact ih hn.2 h

/-- A field keeps its value exactly when what is stored to it is that value. -/
theorem get_store_eq_iff (hn : (stores.map Prod.fst).Nodup) :
    (payload.store stores).get f = payload.get f ↔
      ∀ n, (f, n) ∈ stores → BitVec.ofInt 32 n = payload.get f := by
  refine ⟨fun h n hmem => ?_, fun h => ?_⟩
  · rw [← h, get_store_of_mem hn hmem]
  · by_cases hf : f ∈ stores.map Prod.fst
    · obtain ⟨⟨g, n⟩, hmem, rfl⟩ := List.mem_map.mp hf
      rw [get_store_of_mem hn hmem, h n hmem]
    · exact get_store_of_not_mem hf

end store

end Payload

/-! ## Encoding an update message -/

/-- The `node` of an update message. -/
def node : List (Descr Field) :=
  [.number "onoff" .onoff, .number "level_control" .levelControl]

/-- The `reported` of an update message. -/
def reported : List (Descr Field) := [.object "reported" node]

/-- The `root` of an update message. -/
def updateRoot : List (Descr Field) := [.object "state" reported]

/-- `CONFIG_AWS_IOT_INTEGRATION_MESSAGE_SIZE_MAX`. -/
def messageSizeMax : Nat := 512

/-- `json_obj_encode_buf(descr, descr_len, payload, message, size)`: the text in the buffer
after the call and what it returns. -/
abbrev JsonObjEncodeBuf := List (Descr Field) → Payload → Nat → String × Int

def codecJsonEncodeUpdateMessage (jsonObjEncodeBuf : JsonObjEncodeBuf) (size : Nat)
    (payload : Payload) : String × Int :=
  let r := jsonObjEncodeBuf updateRoot payload size
  let err := r.2
  if err ≠ 0 then (r.1, err) else (r.1, 0)

/-- The text that the descriptors print, with the fields as signed integers. -/
def signedText (descrs : List (Descr Field)) (payload : Payload) : String :=
  Descr.textDocument (fun f => (payload.get f).toInt) descrs

/-- The encoder on an update message, whose text is ASCII: it writes the text, if there is
room for it and the null character, and returns a negative value otherwise. -/
structure DocumentedEncoder (jsonObjEncodeBuf : JsonObjEncodeBuf) : Prop where
  fits : ∀ payload size, (signedText updateRoot payload).length < size →
    jsonObjEncodeBuf updateRoot payload size = (signedText updateRoot payload, 0)
  full : ∀ payload size, size ≤ (signedText updateRoot payload).length →
    (jsonObjEncodeBuf updateRoot payload size).2 < 0

/-- An encoder that leaves the buffer empty when the text does not fit, with `-ENOMEM`. -/
def encodeText (descrs : List (Descr Field)) (payload : Payload) (size : Nat) : String × Int :=
  if (signedText descrs payload).length < size then (signedText descrs payload, 0)
  else ("", -enomem)

theorem encodeText_documented : DocumentedEncoder encodeText where
  fits _ _ h := if_pos h
  full _ _ h := by rw [encodeText, if_neg (Nat.not_lt.mpr h)]; decide

/-- An update message with these numbers. -/
def reportedMessage (onoff levelControl : Int) : String :=
  "\x7b\"state\":\x7b\"reported\":\x7b\"onoff\":" ++ onoff.repr ++ ",\"level_control\":" ++
    levelControl.repr ++ "\x7d\x7d\x7d"

theorem textDocument_updateRoot (values : Field → Int) :
    Descr.textDocument values updateRoot =
      reportedMessage (values .onoff) (values .levelControl) := by
  apply String.toList_injective
  unfold reportedMessage
  simp only [Descr.textDocument, updateRoot, reported, node, Descr.textMembers_single,
    Descr.textMembers_cons, Descr.text_object, Descr.text_number, String.toList_append,
    List.append_assoc]
  rfl

theorem length_reportedMessage {onoff levelControl : Int} (hon : FitsInt32 onoff)
    (hlevel : FitsInt32 levelControl) : (reportedMessage onoff levelControl).length ≤ 72 := by
  have hon : onoff.repr.length ≤ 11 := length_repr_le hon
  have hlevel : levelControl.repr.length ≤ 11 := length_repr_le hlevel
  unfold reportedMessage
  rw [String.length_append, String.length_append, String.length_append, String.length_append]
  show 30 + onoff.repr.length + 17 + levelControl.repr.length + 3 ≤ 72
  omega

theorem fitsInt32_toInt (x : BitVec 32) : FitsInt32 x.toInt :=
  ⟨BitVec.le_toInt x, BitVec.toInt_lt⟩

/-- A signed field is its unsigned value below 2^31 only. -/
theorem toInt_eq_toNat_iff (x : BitVec 32) : x.toInt = x.toNat ↔ x.toNat < 2 ^ 31 := by
  rw [BitVec.toInt_eq_toNat_cond]
  split <;> omega

section encode
variable {jsonObjEncodeBuf : JsonObjEncodeBuf}

theorem signedText_updateRoot (payload : Payload) :
    signedText updateRoot payload =
      reportedMessage payload.onoff.toInt payload.levelControl.toInt :=
  textDocument_updateRoot _

/-- An update message fits its buffer, whatever the payload. -/
theorem encode_succeeds (he : DocumentedEncoder jsonObjEncodeBuf) (payload : Payload) :
    codecJsonEncodeUpdateMessage jsonObjEncodeBuf messageSizeMax payload =
      (signedText updateRoot payload, 0) := by
  have hfits : (signedText updateRoot payload).length < messageSizeMax := by
    rw [signedText_updateRoot]
    exact Nat.lt_of_le_of_lt (length_reportedMessage (fitsInt32_toInt _) (fitsInt32_toInt _))
      (by decide)
  unfold codecJsonEncodeUpdateMessage
  rw [he.fits payload _ hfits]
  rfl

/-- The numbers of an update message are the values of the payload below 2^31 only. -/
theorem signedText_exact_iff (payload : Payload) :
    signedText updateRoot payload =
        reportedMessage payload.onoff.toNat payload.levelControl.toNat ↔
      ∀ f, (payload.get f).toNat < 2 ^ 31 := by
  have hunsigned : reportedMessage payload.onoff.toNat payload.levelControl.toNat =
      Descr.textDocument (fun f => ((payload.get f).toNat : Int)) updateRoot :=
    (textDocument_updateRoot fun f => ((payload.get f).toNat : Int)).symm
  rw [hunsigned]
  refine ⟨fun h f => ?_, fun h => ?_⟩
  · exact (toInt_eq_toNat_iff _).mp (Descr.textDocument_inj h f (by cases f <;> decide))
  · have hsigned : (fun f => (payload.get f).toInt) = fun f => ((payload.get f).toNat : Int) :=
      funext fun f => (toInt_eq_toNat_iff _).mpr (h f)
    rw [signedText, hsigned]

theorem encode_exact_iff (he : DocumentedEncoder jsonObjEncodeBuf) (payload : Payload) :
    codecJsonEncodeUpdateMessage jsonObjEncodeBuf messageSizeMax payload =
        (reportedMessage payload.onoff.toNat payload.levelControl.toNat, 0) ↔
      ∀ f, (payload.get f).toNat < 2 ^ 31 := by
  rw [encode_succeeds he, Prod.mk.injEq, signedText_exact_iff]
  exact and_iff_left rfl

end encode

/-! ## Decoding a delta message -/

/-- The `attributes` of a delta message. -/
def attributes : List (Descr Field) :=
  [.number "onoff" .onoff, .number "level_control" .levelControl]

/-- The `root` of a delta message. -/
def deltaRoot : List (Descr Field) := [.object "state" attributes]

/-- The name of an attribute. -/
def Field.key : Field → String
  | .onoff => "onoff"
  | .levelControl => "level_control"

/-- `json_obj_parse(message, size, descr, descr_len, payload)`: the payload after the
call and what it returns. -/
abbrev JsonObjParse (Message : Type) := Message → List (Descr Field) → Payload → Payload × Int

section decode
variable {Message : Type}

def codecJsonDecodeDeltaMessage (jsonObjParse : JsonObjParse Message) (message : Message)
    (payload : Payload) : Payload × Int :=
  let r := jsonObjParse message deltaRoot payload
  let err := r.2
  if err ≠ 1 then (r.1, err) else (r.1, 0)

/-- The parser on a delta message that holds `document message`: numbers are stored as
they are read, left to right, unknown keys are skipped, and the call returns the mask of
the root descriptors decoded, or a negative value at the first token that is malformed
or of the wrong type. -/
structure Documented (spill : Json → Option Int) (document : Message → Json)
    (jsonObjParse : JsonObjParse Message) : Prop where
  stores : ∀ message payload, (jsonObjParse message deltaRoot payload).1 =
    payload.store (Descr.readDocument spill deltaRoot (document message)).1
  decodes : ∀ message payload mask,
    (Descr.readDocument spill deltaRoot (document message)).2 = some mask →
      (jsonObjParse message deltaRoot payload).2 = mask
  fails : ∀ message payload, (Descr.readDocument spill deltaRoot (document message)).2 = none →
    (jsonObjParse message deltaRoot payload).2 < 0

/-- A parser for messages that are documents already; it stores nothing for a value that
it rejects, and fails with `-EINVAL`. -/
def parseDocument (message : Json) (descrs : List (Descr Field)) (payload : Payload) :
    Payload × Int :=
  let r := Descr.readDocument (fun _ => none) descrs message
  (payload.store r.1, match r.2 with
    | some mask => mask
    | none => -einval)

theorem parseDocument_documented : Documented (fun _ => none) id parseDocument where
  stores _ _ := rfl
  decodes _ _ mask h := by simp only [parseDocument, id_eq] at h ⊢; rw [h]
  fails _ _ h := by simp only [parseDocument, id_eq] at h ⊢; rw [h]; decide

/-- What a delta message stores, in order. -/
def deltaStores (spill : Json → Option Int) (doc : Json) : List (Field × Int) :=
  (Descr.readDocument spill deltaRoot doc).1

/-- The parser gets through the delta message. -/
def Decodes (spill : Json → Option Int) (doc : Json) : Prop :=
  (Descr.readDocument spill deltaRoot doc).2.isSome = true

variable {spill : Json → Option Int} {document : Message → Json}
  {jsonObjParse : JsonObjParse Message}

theorem deltaStores_nodup (doc : Json) : ((deltaStores spill doc).map Prod.fst).Nodup :=
  Descr.readDocument_nodup (by decide) doc

/-- The mask of a delta message can only be 0 or 1. -/
theorem deltaRoot_mask {doc : Json} {mask : Nat}
    (h : (Descr.readDocument spill deltaRoot doc).2 = some mask) : mask = 0 ∨ mask = 1 := by
  cases doc with
  | object members => exact Descr.readMembers_single_mask h
  | _ => cases h

theorem decode_payload (hd : Documented spill document jsonObjParse) (message : Message)
    (payload : Payload) :
    (codecJsonDecodeDeltaMessage jsonObjParse message payload).1 =
      payload.store (deltaStores spill (document message)) := by
  rw [deltaStores, ← hd.stores]
  simp only [codecJsonDecodeDeltaMessage]
  split <;> rfl

/-- Decoding returns 0 whenever the parser gets through, with or without a state. -/
theorem decode_eq_zero_iff (hd : Documented spill document jsonObjParse) (message : Message)
    (payload : Payload) :
    (codecJsonDecodeDeltaMessage jsonObjParse message payload).2 = 0 ↔
      Decodes spill (document message) := by
  unfold codecJsonDecodeDeltaMessage Decodes
  cases h : (Descr.readDocument spill deltaRoot (document message)).2 with
  | none =>
    have hneg := hd.fails message payload h
    rw [if_pos (show (jsonObjParse message deltaRoot payload).2 ≠ 1 by omega)]
    simpa using Int.ne_of_lt hneg
  | some mask =>
    have hmask := hd.decodes message payload mask h
    rcases deltaRoot_mask h with rfl | rfl <;> simp [hmask]

/-! ## Well-formed delta messages -/

/-- The members of the top-level `state` object. -/
def stateMembers : Json → Option (List (String × Json))
  | .object members =>
    match members.lookup "state" with
    | some (.object state) => some state
    | _ => none
  | _ => none

/-- The message is no object, or its `state` is there and is none. -/
def StateMistyped : Json → Prop
  | .object members => ∃ value, members.lookup "state" = some value ∧ ∀ state, value ≠ .object state
  | _ => True

theorem mem_attributes {f : Field} : ∃ bit, (.number f.key f, bit) ∈ attributes.zipIdx := by
  cases f
  · exact ⟨0, by simp [attributes, Field.key]⟩
  · exact ⟨1, by simp [attributes, Field.key]⟩

theorem of_mem_attributes {d : Descr Field × Nat} (h : d ∈ attributes.zipIdx) :
    ∃ f : Field, d.1 = .number f.key f := by
  simp only [attributes, List.zipIdx_cons, List.zipIdx_nil, List.mem_cons, List.not_mem_nil,
    or_false] at h
  rcases h with rfl | rfl
  · exact ⟨.onoff, rfl⟩
  · exact ⟨.levelControl, rfl⟩

theorem attributes_flat : Descr.Flat attributes.zipIdx where
  numbers d hd := by
    obtain ⟨f, hf⟩ := of_mem_attributes hd
    exact ⟨f.key, f, hf⟩
  names := by decide

theorem stateMembers_eq_some {doc : Json} {state : List (String × Json)} :
    stateMembers doc = some state ↔
      ∃ members, doc = .object members ∧ members.lookup "state" = some (.object state) := by
  cases doc with
  | object members =>
    simp only [stateMembers, Json.object.injEq, exists_eq_left']
    cases members.lookup "state" with
    | none => simp
    | some value => cases value <;> simp
  | _ => simp [stateMembers]

/-- Reading a message is reading its first `state`. -/
theorem readDocument_members {members : List (String × Json)}
    (hwf : membersWellFormed members = true) :
    Descr.readDocument spill deltaRoot (.object members) =
      match members.lookup "state" with
      | none => ([], some 0)
      | some value => (((Descr.object "state" attributes).read spill value).1,
          if ((Descr.object "state" attributes).read spill value).2 = true then some 1 else none) :=
  Descr.readMembers_single hwf

theorem readDocument_state {doc : Json} (hwf : doc.wellFormed = true)
    {state : List (String × Json)} (hs : stateMembers doc = some state) :
    membersWellFormed state = true ∧ Descr.readDocument spill deltaRoot doc =
      ((Descr.readMembers spill attributes.zipIdx state).1,
        if (Descr.readMembers spill attributes.zipIdx state).2.isSome = true then some 1
        else none) := by
  obtain ⟨members, rfl, hl⟩ := stateMembers_eq_some.mp hs
  simp only [Json.wellFormed] at hwf
  refine ⟨by simpa [Json.wellFormed] using Descr.wellFormed_of_lookup hwf hl, ?_⟩
  rw [readDocument_members hwf, hl]
  rfl

/-- A message with a `state` object is read through when each attribute it gives is a 32-bit
integer. -/
theorem decodes_state_iff {doc : Json} (hwf : doc.wellFormed = true) {state : List (String × Json)}
    (hs : stateMembers doc = some state) :
    Decodes spill doc ↔
      ∀ f : Field, state.lookup f.key ≠ none → Descr.firstInt state f.key ≠ none := by
  obtain ⟨hstate, hread⟩ := @readDocument_state spill _ hwf _ hs
  have hfields : (∀ d ∈ attributes.zipIdx, state.lookup d.1.name ≠ none →
      Descr.firstInt state d.1.name ≠ none) ↔
      ∀ f : Field, state.lookup f.key ≠ none → Descr.firstInt state f.key ≠ none := by
    refine ⟨fun h f => ?_, fun h d hd => ?_⟩
    · obtain ⟨bit, hmem⟩ := @mem_attributes f
      exact h _ hmem
    · obtain ⟨f, hf⟩ := of_mem_attributes hd
      rw [hf]
      exact h f
  have hflat : (Descr.readMembers spill attributes.zipIdx state).2.isSome = true ↔ _ :=
    Descr.readMembers_flat attributes_flat hstate
  rw [← hfields, ← hflat, Decodes, hread]
  dsimp only
  split <;> simp [*]

theorem mem_deltaStores_iff {doc : Json} (hwf : doc.wellFormed = true)
    {state : List (String × Json)} (hs : stateMembers doc = some state) (hok : Decodes spill doc)
    {f : Field} {n : Int} :
    (f, n) ∈ deltaStores spill doc ↔ Descr.firstInt state f.key = some n := by
  obtain ⟨hstate, hread⟩ := @readDocument_state spill _ hwf _ hs
  have hmembers : (Descr.readMembers spill attributes.zipIdx state).2.isSome = true := by
    by_contra hno
    rw [Decodes, hread] at hok
    simp [hno] at hok
  rw [deltaStores, hread, Descr.mem_readMembers_flat attributes_flat hstate hmembers]
  refine ⟨?_, fun hn => ?_⟩
  · rintro ⟨name, bit, hmem, hn⟩
    obtain ⟨g, hg⟩ := of_mem_attributes hmem
    cases hg
    exact hn
  · obtain ⟨bit, hmem⟩ := @mem_attributes f
    exact ⟨f.key, bit, hmem, hn⟩

/-- A message without a `state` object is read through when it has no `state` at all. -/
theorem decodes_stateless_iff {doc : Json} (hwf : doc.wellFormed = true)
    (hs : stateMembers doc = none) : Decodes spill doc ↔ ¬ StateMistyped doc := by
  cases doc with
  | object members =>
    simp only [Json.wellFormed] at hwf
    rw [Decodes, readDocument_members hwf, StateMistyped]
    simp only [stateMembers] at hs
    cases hl : members.lookup "state" with
    | none => simp
    | some value =>
      rw [hl] at hs
      cases value with
      | object state => cases hs
      | _ => simp [Descr.read]
  | _ => simp [Decodes, Descr.readDocument, StateMistyped]

end decode

end ThreadSwitch.AwsIot
