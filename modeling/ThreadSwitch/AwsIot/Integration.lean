import ThreadSwitch.Zephyr
import ThreadSwitch.AwsIot.Codec
import ThreadSwitch.Lib.Machine

/-!
# The AWS IoT integration

`Integration` holds the file-level variables of `aws_iot_integration.c`. The functions
below are its functions. What the library, the encoder and the handler do is an
argument (`CallEnv`, or a single error); the calls made to them are listed as
`Effect`s. `connect` blocks in `aws_iot_connect`, so it is two steps: `connect` up to
that call, and `connectReturned` from there on. In between `connect_work` is running,
and what is done to it then is done to a work in its handler.
-/

namespace ThreadSwitch.AwsIot

open ThreadSwitch.Zephyr ThreadSwitch.Lib

/-- `struct aws_iot_integration_cb_data`. -/
structure CbData where
  attributeId : BitVec 32 := 0#32
  value : BitVec 32 := 0#32
  error : Int := 0
  deriving DecidableEq, Repr

/-- `ATTRIBUTE_ID_ONOFF` and `ATTRIBUTE_ID_LEVEL_CONTROL`. -/
def attributeId : Field → BitVec 32
  | .onoff => 1#32
  | .levelControl => 2#32

/-- What is published to `shadow/update`. -/
inductive ShadowDocument where
  /-- `SHADOW_DESIRED_CLEAR_STRING`. -/
  | desiredClear
  /-- The message that was encoded. -/
  | reported (message : String)
  deriving DecidableEq, Repr

/-- A call to the handler or to the library, with what the library returned. -/
inductive Effect where
  | handler (data : CbData)
  | awsIotInit (err : Int)
  | awsIotConnect
  | awsIotDisconnect (err : Int)
  | awsIotSend (document : ShadowDocument) (err : Int)
  deriving DecidableEq, Repr

/-- What the calls made while an event is handled come to: the handler's answers, and
encoding and sending, for the clearing document and for the reported one. -/
structure CallEnv where
  acceptsOnoff : Bool := true
  acceptsLevelControl : Bool := true
  clearEncode : JsonObjEncodeBuf := encodeText
  clearSend : Int := 0
  encode : JsonObjEncodeBuf := encodeText
  send : Int := 0

/-- The handler's answer to a change of the attribute. -/
def CallEnv.accepts (env : CallEnv) : Field → Bool
  | .onoff => env.acceptsOnoff
  | .levelControl => env.acceptsLevelControl

structure Integration where
  uptime : Nat
  /-- Keeps track of the current state of the attributes. -/
  payload : Payload
  isConnectedToAwsIot : Bool
  isConnectedToNetwork : Bool
  /-- The static of `connect`. -/
  init : Bool
  /-- Its run is in `aws_iot_connect`. -/
  connectWork : Work
  deriving DecidableEq, Repr

/-- `CONFIG_AWS_IOT_INTEGRATION_RECONNECT_INTERVAL_SECONDS`. -/
def reconnectIntervalSeconds : Nat := 30

inductive NetEvent where
  | l4Connected
  | l4Disconnected
  deriving DecidableEq, Repr

/-- `type_received` of a message's topic. -/
inductive Topic where
  | updateDelta
  | other (type : Nat)
  deriving DecidableEq, Repr

inductive AwsIotEvt (Message : Type) where
  | connecting
  | connected
  | disconnected
  | dataReceived (topic : Topic) (message : Message)
  | other (type : Nat)
  deriving DecidableEq, Repr

def notifyError (err : Int) : Effect := .handler { error := err }

namespace Integration

/-! ## Connecting -/

/-- `connect_work_fn` returns. -/
def connectWorkReturned (s : Integration) : Integration :=
  { s with connectWork := s.connectWork.finish }

/-- `connect`, up to the call of `aws_iot_connect`, or to its end if there is none. -/
def connect (initErr : Int) (s : Integration) : Integration × List Effect :=
  if !s.isConnectedToNetwork then (s.connectWorkReturned, [])
  else if !s.init then
    if initErr ≠ 0 then (s.connectWorkReturned, [.awsIotInit initErr, notifyError initErr])
    else ({ s with init := true }, [.awsIotInit initErr, .awsIotConnect])
  else (s, [.awsIotConnect])

/-- `connect`, from the return of `aws_iot_connect` on. -/
def connectReturned (err : Int) (s : Integration) : Integration × List Effect :=
  if err = -eagain then
    let s := { s with connectWork :=
      s.connectWork.rescheduleForQueue s.uptime (1000 * reconnectIntervalSeconds) }
    (s.connectWorkReturned, [])
  else if err ≠ 0 then (s.connectWorkReturned, [notifyError err])
  else (s.connectWorkReturned, [])

/-- `connect_work_fn`. -/
def connectWorkFn (initErr : Int) (s : Integration) : Integration × List Effect := s.connect initErr

/-- `disconnect`. -/
def disconnect (err : Int) : Int × List Effect := (err, [.awsIotDisconnect err])

/-- `l4_handler`. -/
def l4Handler (mgmtEvent : NetEvent) (disconnectErr : Int) (s : Integration) :
    Integration × List Effect :=
  match mgmtEvent with
  | .l4Connected =>
    let s := { s with isConnectedToNetwork := true }
    ({ s with connectWork := s.connectWork.rescheduleForQueue s.uptime 5000 }, [])
  | .l4Disconnected => ({ s with isConnectedToNetwork := false }, (disconnect disconnectErr).2)

/-! ## Publishing -/

/-- `shadow_update_desired_state_clear`; the message it encodes is not sent. -/
def shadowUpdateDesiredStateClear (env : CallEnv) (s : Integration) : Int × List Effect :=
  let err := (codecJsonEncodeUpdateMessage env.clearEncode messageSizeMax s.payload).2
  if err ≠ 0 then (err, []) else (env.clearSend, [.awsIotSend .desiredClear env.clearSend])

/-- `shadow_update`. -/
def shadowUpdate (env : CallEnv) (s : Integration) : Int × List Effect :=
  let r := codecJsonEncodeUpdateMessage env.encode messageSizeMax s.payload
  let err := r.2
  if err ≠ 0 then (err, []) else (env.send, [.awsIotSend (.reported r.1) env.send])

/-- `shadow_clear_delta_and_update_reported`. -/
def shadowClearDeltaAndUpdateReported (env : CallEnv) (s : Integration) : Int × List Effect :=
  if !s.isConnectedToAwsIot then (-enotconn, [])
  else
    let clear := s.shadowUpdateDesiredStateClear env
    if clear.1 ≠ 0 then clear
    else
      let update := s.shadowUpdate env
      (update.1, clear.2 ++ update.2)

/-! ## Attribute changes -/

section delta
variable {Message : Type} (jsonObjParse : JsonObjParse Message)

/-- `decode_and_notify_attribute_change`: the state after it, what it returns and its calls. -/
def decodeAndNotifyAttributeChange (message : Message) (env : CallEnv) (s : Integration) :
    Integration × Int × List Effect :=
  let decoded := codecJsonDecodeDeltaMessage jsonObjParse message s.payload
  let s := { s with payload := decoded.1 }
  let err := decoded.2
  if err ≠ 0 then (s, err, [])
  else
    let onoff := .handler { attributeId := attributeId .onoff, value := s.payload.onoff }
    if !env.acceptsOnoff then (s, -efault, [onoff])
    else
      let levelControl :=
        .handler { attributeId := attributeId .levelControl, value := s.payload.levelControl }
      if !env.acceptsLevelControl then (s, -efault, [onoff, levelControl])
      else
        let update := s.shadowUpdate env
        (s, update.1, [onoff, levelControl] ++ update.2)

/-- `on_data_received`. -/
def onDataReceived (topic : Topic) (message : Message) (env : CallEnv) (s : Integration) :
    Integration × List Effect :=
  match topic with
  | .updateDelta =>
    let r := s.decodeAndNotifyAttributeChange jsonObjParse message env
    let err := r.2.1
    if err ≠ 0 then (r.1, r.2.2 ++ [notifyError err]) else (r.1, r.2.2)
  | .other _ => (s, [])

/-- `aws_iot_event_handler`. -/
def awsIotEventHandler (evt : AwsIotEvt Message) (env : CallEnv) (s : Integration) :
    Integration × List Effect :=
  match evt with
  | .connected =>
    let s := { s with connectWork := s.connectWork.cancelDelayable }
    let s := { s with isConnectedToAwsIot := true }
    let r := s.shadowClearDeltaAndUpdateReported env
    let err := r.1
    if err ≠ 0 then (s, r.2 ++ [notifyError err]) else (s, r.2)
  | .disconnected =>
    let s := { s with connectWork := s.connectWork.rescheduleForQueue s.uptime 5000 }
    ({ s with isConnectedToAwsIot := false }, [])
  | .dataReceived topic message => s.onDataReceived jsonObjParse topic message env
  | .connecting | .other _ => (s, [])

end delta

/-- Set the attribute `f` if `id` names it and the value is new; the flag is `attribute_change`. -/
def setIfNew (id value : BitVec 32) (f : Field) (payload : Payload × Bool) : Payload × Bool :=
  if id = attributeId f ∧ payload.1.get f ≠ value then (payload.1.set value f, true) else payload

/-- `aws_iot_integration_attribute_set`. -/
def attributeSet (id value : BitVec 32) (env : CallEnv) (s : Integration) :
    Integration × List Effect :=
  let r := setIfNew id value .levelControl (setIfNew id value .onoff (s.payload, false))
  let s := { s with payload := r.1 }
  let attributeChange := r.2
  if !attributeChange then (s, [])
  else
    let r := s.shadowClearDeltaAndUpdateReported env
    let err := r.1
    if err ≠ 0 ∧ err ≠ -enotconn then (s, r.2 ++ [notifyError err]) else (s, r.2)

end Integration

/-! ## The integration as a machine -/

inductive IntegrationEvent (Message : Type) where
  /-- A network management event; `aws_iot_disconnect` returns `disconnectErr` if called. -/
  | net (mgmtEvent : NetEvent) (disconnectErr : Int)
  /-- The timeout of `connect_work` expires. -/
  | connectDue
  /-- `connect_work` runs; `aws_iot_init` returns `initErr` if called. -/
  | connectWork (initErr : Int)
  /-- `aws_iot_connect` returns. -/
  | connectReturned (err : Int)
  | aws (evt : AwsIotEvt Message) (env : CallEnv)
  | attributeSet (id value : BitVec 32) (env : CallEnv)
  | elapse (ms : Nat)

/-- A run of `connect_work` starts only when it has been submitted, and after the run
before it. -/
def integration {Message : Type} (jsonObjParse : JsonObjParse Message) :
    Machine Integration (IntegrationEvent Message) Effect where
  step s
    | .net mgmtEvent disconnectErr => some (s.l4Handler mgmtEvent disconnectErr)
    | .connectDue =>
      if ∃ deadline ∈ s.connectWork.delayed, deadline ≤ s.uptime then
        some ({ s with connectWork := s.connectWork.timeout }, [])
      else none
    | .connectWork initErr =>
      if s.connectWork.queued = true ∧ s.connectWork.run = .idle then
        some ({ s with connectWork := s.connectWork.start }.connectWorkFn initErr)
      else none
    | .connectReturned err =>
      if s.connectWork.run = .idle then none else some (s.connectReturned err)
    | .aws evt env => some (s.awsIotEventHandler jsonObjParse evt env)
    | .attributeSet id value env => some (s.attributeSet id value env)
    | .elapse ms => some ({ s with uptime := s.uptime + ms }, [])

/-! ## What the calls can come to -/

/-- Encoding fails, or what was encoded is sent. -/
theorem shadowUpdate_cases (env : CallEnv) (s : Integration) {encoded : String × Int}
    (he : codecJsonEncodeUpdateMessage env.encode messageSizeMax s.payload = encoded) :
    (encoded.2 ≠ 0 ∧ s.shadowUpdate env = (encoded.2, [])) ∨
      (encoded.2 = 0 ∧
        s.shadowUpdate env = (env.send, [.awsIotSend (.reported encoded.1) env.send])) := by
  subst he
  unfold Integration.shadowUpdate
  dsimp only
  split
  · exact .inl ⟨‹_›, rfl⟩
  · exact .inr ⟨not_not.mp ‹_›, rfl⟩

/-- Encoding fails, or the clearing document is sent. -/
theorem shadowClear_cases (env : CallEnv) (s : Integration) {err : Int}
    (he : (codecJsonEncodeUpdateMessage env.clearEncode messageSizeMax s.payload).2 = err) :
    (err ≠ 0 ∧ s.shadowUpdateDesiredStateClear env = (err, [])) ∨
      (err = 0 ∧ s.shadowUpdateDesiredStateClear env =
        (env.clearSend, [.awsIotSend .desiredClear env.clearSend])) := by
  subst he
  unfold Integration.shadowUpdateDesiredStateClear
  dsimp only
  split
  · exact .inl ⟨‹_›, rfl⟩
  · exact .inr ⟨not_not.mp ‹_›, rfl⟩

/-- What is encoded as documented is sent. -/
theorem shadowUpdate_sends {env : CallEnv} (he : DocumentedEncoder env.encode) (s : Integration) :
    s.shadowUpdate env =
      (env.send, [.awsIotSend (.reported (signedText updateRoot s.payload)) env.send]) := by
  rcases shadowUpdate_cases env s (encode_succeeds he s.payload) with ⟨herr, -⟩ | ⟨-, h⟩
  · exact absurd rfl herr
  · exact h

/-- These calls do nothing but send. -/
def Sends (os : List Effect) : Prop := ∀ x ∈ os, ∃ document err, x = .awsIotSend document err

theorem update_only_sends (env : CallEnv) (s : Integration) : Sends (s.shadowUpdate env).2 := by
  intro x hx
  rcases shadowUpdate_cases env s rfl with ⟨-, h⟩ | ⟨-, h⟩ <;> rw [h] at hx
  · cases hx
  · exact ⟨_, _, List.mem_singleton.mp hx⟩

theorem publish_only_sends (env : CallEnv) (s : Integration) :
    Sends (s.shadowClearDeltaAndUpdateReported env).2 := by
  have hclear : Sends (s.shadowUpdateDesiredStateClear env).2 := by
    intro x hx
    rcases shadowClear_cases env s rfl with ⟨-, h⟩ | ⟨-, h⟩ <;> rw [h] at hx
    · cases hx
    · exact ⟨_, _, List.mem_singleton.mp hx⟩
  unfold Integration.shadowClearDeltaAndUpdateReported
  dsimp only
  split
  · exact fun x hx => by cases hx
  · split
    · exact hclear
    · exact List.forall_mem_append.mpr ⟨hclear, update_only_sends env s⟩

/-- The call that asks the handler to apply the attribute of the payload. -/
def notifyChange (payload : Payload) (f : Field) : Effect :=
  .handler { attributeId := attributeId f, value := payload.get f }

/-- Decoding fails, the handler rejects one of the two attributes, or both are
accepted and published. -/
theorem decodeAndNotify_cases {Message : Type} (jsonObjParse : JsonObjParse Message)
    (message : Message) (env : CallEnv) (s : Integration) {decoded : Payload × Int}
    (hd : codecJsonDecodeDeltaMessage jsonObjParse message s.payload = decoded)
    {r : Integration × Int × List Effect}
    (hr : s.decodeAndNotifyAttributeChange jsonObjParse message env = r) :
    r.1 = { s with payload := decoded.1 } ∧
      ((decoded.2 ≠ 0 ∧ r.2 = (decoded.2, [])) ∨
        (decoded.2 = 0 ∧ env.acceptsOnoff = false ∧
          r.2 = (-efault, [notifyChange decoded.1 .onoff])) ∨
        (decoded.2 = 0 ∧ env.acceptsOnoff = true ∧ env.acceptsLevelControl = false ∧
          r.2 = (-efault, [notifyChange decoded.1 .onoff, notifyChange decoded.1 .levelControl])) ∨
        (decoded.2 = 0 ∧ env.acceptsOnoff = true ∧ env.acceptsLevelControl = true ∧
          r.2 = ((r.1.shadowUpdate env).1,
            [notifyChange decoded.1 .onoff, notifyChange decoded.1 .levelControl] ++
              (r.1.shadowUpdate env).2))) := by
  subst hr
  simp only [Integration.decodeAndNotifyAttributeChange, hd]
  by_cases herr : decoded.2 = 0
  · cases hon : env.acceptsOnoff <;> cases hlevel : env.acceptsLevelControl <;>
      simp [herr, notifyChange, Payload.get]
  · simp [herr]

/-- A delta message's calls, and the report of its error if there is one. -/
theorem onDataReceived_delta {Message : Type} (jsonObjParse : JsonObjParse Message)
    (message : Message) (env : CallEnv) (s : Integration) {r : Integration × Int × List Effect}
    (hr : s.decodeAndNotifyAttributeChange jsonObjParse message env = r) :
    s.onDataReceived jsonObjParse .updateDelta message env =
      (r.1, r.2.2 ++ if r.2.1 = 0 then [] else [notifyError r.2.1]) := by
  simp only [Integration.onDataReceived, hr]
  by_cases herr : r.2.1 = 0
  · rw [if_neg (not_not.mpr herr), if_pos herr, List.append_nil]
  · rw [if_pos herr, if_neg herr]

theorem setIfNew_eq (id value : BitVec 32) (f : Field) (payload : Payload × Bool) :
    (Integration.setIfNew id value f payload).2 = true ∨
      Integration.setIfNew id value f payload = payload := by
  unfold Integration.setIfNew
  split
  · exact .inl rfl
  · exact .inr rfl

/-- Nothing new, or the new payload is published, where an error is reported unless
it is `-ENOTCONN`. -/
theorem attributeSet_cases (id value : BitVec 32) (env : CallEnv) (s : Integration)
    {r : Integration × List Effect} (hr : s.attributeSet id value env = r) :
    r = (s, []) ∨ ∃ payload publish, r.1 = { s with payload := payload } ∧
      r.1.shadowClearDeltaAndUpdateReported env = publish ∧
        r.2 = if publish.1 ≠ 0 ∧ publish.1 ≠ -enotconn then publish.2 ++ [notifyError publish.1]
          else publish.2 := by
  subst hr
  simp only [Integration.attributeSet]
  generalize hp : Integration.setIfNew id value .levelControl
    (Integration.setIfNew id value .onoff (s.payload, false)) = p
  cases hc : p.2 with
  | false =>
    left
    have hlevel := (setIfNew_eq id value .levelControl
      (Integration.setIfNew id value .onoff (s.payload, false))).resolve_left (by simp [hp, hc])
    have honoff := (setIfNew_eq id value .onoff (s.payload, false)).resolve_left
      (by rw [← hlevel, hp, hc]; simp)
    rw [← hp, hlevel, honoff]
    rfl
  | true =>
    right
    simp only [Bool.not_true, Bool.false_eq_true, if_false]
    split
    · exact ⟨p.1, _, rfl, rfl, by rw [if_pos ‹_›]⟩
    · exact ⟨p.1, _, rfl, rfl, by rw [if_neg ‹_›]⟩

/-! ## What is set -/

theorem attributeSet_payload (s : Integration) (id value : BitVec 32) (env : CallEnv) :
    (s.attributeSet id value env).1.payload =
      (Integration.setIfNew id value .levelControl
        (Integration.setIfNew id value .onoff (s.payload, false))).1 := by
  unfold Integration.attributeSet
  dsimp only
  split
  · rfl
  · split <;> rfl

theorem attributeSet_session (s : Integration) (id value : BitVec 32) (env : CallEnv) :
    (s.attributeSet id value env).1.isConnectedToAwsIot = s.isConnectedToAwsIot := by
  unfold Integration.attributeSet
  dsimp only
  split
  · rfl
  · split <;> rfl

theorem setIfNew_get_of_ne {f : Field} {id : BitVec 32} (hid : id ≠ attributeId f) (value : BitVec 32)
    (g : Field) (payload : Payload × Bool) :
    (Integration.setIfNew id value g payload).1.get f = payload.1.get f := by
  unfold Integration.setIfNew
  split
  · rename_i hg
    exact Payload.get_set_of_ne _ _ fun hfg => hid (hfg ▸ hg.1)
  · rfl

theorem attributeSet_get (s : Integration) (f : Field) (value : BitVec 32) (env : CallEnv) :
    (s.attributeSet (attributeId f) value env).1.payload.get f = value := by
  have hset : ∀ payload : Payload × Bool,
      (Integration.setIfNew (attributeId f) value f payload).1.get f = value := by
    intro payload
    by_cases hnew : payload.1.get f = value
    · rw [Integration.setIfNew, if_neg fun h => h.2 hnew, hnew]
    · rw [Integration.setIfNew, if_pos ⟨rfl, hnew⟩]
      exact Payload.get_set _ _ _
  rw [attributeSet_payload]
  cases f with
  | onoff =>
    rw [Integration.setIfNew, if_neg fun h => absurd h.1 (by decide)]
    exact hset _
  | levelControl => exact hset _

/-! ## What a step does to the connection -/

/-- The event is one of the network, of `connect_work` or of a session of the library. -/
def IntegrationEvent.IsLink {Message : Type} : IntegrationEvent Message → Prop
  | .net _ _ | .connectDue | .connectWork _ | .connectReturned _ | .aws .connected _
  | .aws .disconnected _ => True
  | _ => False

section steps
variable {Message : Type} {jsonObjParse : JsonObjParse Message} {s s' : Integration}
  {o : List Effect} {env : CallEnv}

theorem Sends.connect_not_mem (ho : Sends o) : .awsIotConnect ∉ o := by
  intro hmem
  obtain ⟨document, err, h⟩ := ho _ hmem
  cases h

theorem step_connected (h : (integration jsonObjParse).step s (.aws .connected env) = some (s', o)) :
    s' = { s with
        connectWork := s.connectWork.cancelDelayable, isConnectedToAwsIot := true } ∧
      .awsIotConnect ∉ o := by
  have hs := Option.some.inj h
  simp only [Integration.awsIotEventHandler] at hs
  split at hs
  · cases hs
    refine ⟨rfl, ?_⟩
    simp [(publish_only_sends _ _).connect_not_mem, notifyError]
  · cases hs
    exact ⟨rfl, (publish_only_sends _ _).connect_not_mem⟩

theorem step_disconnected
    (h : (integration jsonObjParse).step s (.aws .disconnected env) = some (s', o)) :
    s' = { s with
        connectWork := s.connectWork.rescheduleForQueue s.uptime 5000
        isConnectedToAwsIot := false } ∧ o = [] := by
  have hs : (_, _) = (s', o) := Option.some.inj h
  exact ⟨(Prod.mk.inj hs).1.symm, (Prod.mk.inj hs).2.symm⟩

theorem step_net {mgmtEvent : NetEvent} {err : Int}
    (h : (integration jsonObjParse).step s (.net mgmtEvent err) = some (s', o)) :
    (mgmtEvent = .l4Connected ∧ o = [] ∧
        s' = { s with
          isConnectedToNetwork := true
          connectWork := s.connectWork.rescheduleForQueue s.uptime 5000 }) ∨
      (mgmtEvent = .l4Disconnected ∧ o = [.awsIotDisconnect err] ∧
        s' = { s with isConnectedToNetwork := false }) := by
  cases mgmtEvent with
  | l4Connected => cases h; exact .inl ⟨rfl, rfl, rfl⟩
  | l4Disconnected => cases h; exact .inr ⟨rfl, rfl, rfl⟩

theorem step_connectDue (h : (integration jsonObjParse).step s .connectDue = some (s', o)) :
    (∃ deadline ∈ s.connectWork.delayed, deadline ≤ s.uptime) ∧ o = [] ∧
      s' = { s with connectWork := s.connectWork.timeout } := by
  simp only [integration] at h
  split at h
  · rename_i hdue
    cases h
    exact ⟨hdue, rfl, rfl⟩
  · cases h

theorem step_connectWork {initErr : Int}
    (h : (integration jsonObjParse).step s (.connectWork initErr) = some (s', o)) :
    s.connectWork.queued = true ∧ s.connectWork.run = .idle ∧
      ((s.isConnectedToNetwork = false ∧ o = [] ∧
          s' = { s with connectWork := s.connectWork.start.finish }) ∨
        (initErr ≠ 0 ∧ o = [.awsIotInit initErr, notifyError initErr] ∧
          s' = { s with connectWork := s.connectWork.start.finish }) ∨
        (s.isConnectedToNetwork = true ∧
          o = (if s.init = true then [] else [.awsIotInit initErr]) ++ [.awsIotConnect] ∧
          s' = { s with connectWork := s.connectWork.start, init := true })) := by
  simp only [integration] at h
  split at h
  · rename_i hrun
    refine ⟨hrun.1, hrun.2, ?_⟩
    have hs := Option.some.inj h
    simp only [Integration.connectWorkFn, Integration.connect,
      Integration.connectWorkReturned] at hs
    grind
  · cases h

theorem step_connectReturned {err : Int}
    (h : (integration jsonObjParse).step s (.connectReturned err) = some (s', o)) :
    s.connectWork.run ≠ .idle ∧ (o = if err = -eagain ∨ err = 0 then [] else [notifyError err]) ∧
      s' = { s with connectWork := if err = -eagain then
        (s.connectWork.rescheduleForQueue s.uptime 30000).finish else s.connectWork.finish } := by
  simp only [integration] at h
  split at h
  · cases h
  · rename_i hrun
    refine ⟨hrun, ?_⟩
    have hs := Option.some.inj h
    simp only [Integration.connectReturned, Integration.connectWorkReturned] at hs
    by_cases hagain : err = -eagain
    · rw [if_pos hagain] at hs
      cases hs
      simp [hagain, reconnectIntervalSeconds]
    · rw [if_neg hagain] at hs ⊢
      by_cases herr : err = 0
      · rw [if_neg (not_not.mpr herr)] at hs
        cases hs
        simp [herr]
      · rw [if_pos herr] at hs
        cases hs
        simp [hagain, herr]

theorem step_aside {e : IntegrationEvent Message} (he : ¬ e.IsLink)
    (h : (integration jsonObjParse).step s e = some (s', o)) :
    (∃ uptime payload, s' = { s with uptime := uptime, payload := payload }) ∧
      .awsIotConnect ∉ o := by
  cases e with
  | net mgmtEvent disconnectErr => exact absurd trivial he
  | connectDue => exact absurd trivial he
  | connectWork initErr => exact absurd trivial he
  | connectReturned err => exact absurd trivial he
  | aws evt env =>
    cases evt with
    | connected => exact absurd trivial he
    | disconnected => exact absurd trivial he
    | connecting => cases h; exact ⟨⟨s.uptime, s.payload, rfl⟩, by simp⟩
    | other type => cases h; exact ⟨⟨s.uptime, s.payload, rfl⟩, by simp⟩
    | dataReceived topic message =>
      cases topic with
      | other type => cases h; exact ⟨⟨s.uptime, s.payload, rfl⟩, by simp⟩
      | updateDelta =>
        obtain ⟨hstate, hcases⟩ := decodeAndNotify_cases jsonObjParse message env s rfl rfl
        have hcalls : .awsIotConnect ∉
            (s.decodeAndNotifyAttributeChange jsonObjParse message env).2.2 := by
          rcases hcases with ⟨-, h2⟩ | ⟨-, -, h2⟩ | ⟨-, -, -, h2⟩ | ⟨-, -, -, h2⟩
          · simp [h2]
          · simp [h2, notifyChange]
          · simp [h2, notifyChange]
          · simp [h2, notifyChange, (update_only_sends _ _).connect_not_mem]
        have hs := (onDataReceived_delta jsonObjParse message env s rfl).symm.trans
          (Option.some.inj h)
        cases hs
        refine ⟨⟨s.uptime, _, hstate⟩, ?_⟩
        rw [List.mem_append, not_or]
        exact ⟨hcalls, by split <;> simp [notifyError]⟩
  | attributeSet id value env =>
    rcases attributeSet_cases id value env s (Option.some.inj h) with hr | ⟨payload, _, hst, rfl, ho⟩
    · cases hr; exact ⟨⟨s.uptime, s.payload, rfl⟩, by simp⟩
    · refine ⟨⟨s.uptime, payload, hst⟩, ?_⟩
      dsimp only at ho
      rw [ho]
      split <;> simp [(publish_only_sends _ _).connect_not_mem, notifyError]
  | elapse ms => cases h; exact ⟨⟨s.uptime + ms, s.payload, rfl⟩, by simp⟩

end steps

/-! ## Calls that succeed -/

/-- The handler accepts both attributes, and encoding and sending work. -/
structure CallEnv.Succeeds (env : CallEnv) : Prop where
  onoff : env.acceptsOnoff = true
  levelControl : env.acceptsLevelControl = true
  clearEncode : DocumentedEncoder env.clearEncode
  clearSend : env.clearSend = 0
  encode : DocumentedEncoder env.encode
  send : env.send = 0

theorem succeeds_default : ({} : CallEnv).Succeeds where
  onoff := rfl
  levelControl := rfl
  clearEncode := encodeText_documented
  clearSend := rfl
  encode := encodeText_documented
  send := rfl

section succeeds
variable {env : CallEnv}

/-- What is sent when the payload is published. -/
def published (payload : Payload) : List Effect :=
  [.awsIotSend .desiredClear 0, .awsIotSend (.reported (signedText updateRoot payload)) 0]

theorem publish_succeeds (he : env.Succeeds) {s : Integration} (h : s.isConnectedToAwsIot = true) :
    s.shadowClearDeltaAndUpdateReported env = (0, published s.payload) := by
  have hclear : s.shadowUpdateDesiredStateClear env = (0, [.awsIotSend .desiredClear 0]) := by
    have hencode : (codecJsonEncodeUpdateMessage env.clearEncode messageSizeMax s.payload).2 = 0 := by
      rw [encode_succeeds he.clearEncode]
    rcases shadowClear_cases env s hencode with ⟨herr, -⟩ | ⟨-, hsent⟩
    · exact absurd rfl herr
    · rw [hsent, he.clearSend]
  simp [Integration.shadowClearDeltaAndUpdateReported, h, hclear, shadowUpdate_sends he.encode,
    he.send, published]

/-- A new session publishes the payload. -/
theorem connected_succeeds {Message : Type} (jsonObjParse : JsonObjParse Message)
    (he : env.Succeeds) (s : Integration) :
    (integration jsonObjParse).step s (.aws .connected env) =
      some ({ s with
        connectWork := s.connectWork.cancelDelayable, isConnectedToAwsIot := true },
        published s.payload) := by
  have hpublish := publish_succeeds he (s := { s with
    connectWork := s.connectWork.cancelDelayable, isConnectedToAwsIot := true }) rfl
  simp only [integration, Integration.awsIotEventHandler]
  rw [hpublish, if_neg (by simp)]

end succeeds

/-- The variables as they are initialized. -/
def startedAt (uptime : Nat) : Integration where
  uptime := uptime
  payload := ⟨0#32, 0#32⟩
  isConnectedToAwsIot := false
  isConnectedToNetwork := false
  init := false
  connectWork := .defined

end ThreadSwitch.AwsIot
