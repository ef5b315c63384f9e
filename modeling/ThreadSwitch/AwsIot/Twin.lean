import ThreadSwitch.Lib.Deltas
import ThreadSwitch.AwsIot.Delta

/-!
# The device and its shadow

On the other side of the session is the service that keeps the shadow of the device: what is
desired of it and what it has reported. The service is not this repository's, so it is a
parameter here, a `ShadowService`; `ShadowService.Documented` says how it takes the documents
of the device, and that it announces what is desired and not reported in a delta message.
`twin` is both sides, with the delta messages in flight.

`shadow_converges`: while nothing fails, the shadow has what the device holds, and when nothing
new is desired, the deltas in flight bring the device to what is desired, stale ones included.
-/

namespace ThreadSwitch.AwsIot

open ThreadSwitch.Zephyr ThreadSwitch.Lib

/-! ## The service -/

/-- What the service does to the shadow, and the delta messages that it publishes then; a shadow
has the numbers of its `desired` and `reported` sections. -/
structure ShadowService (σ Message : Type) where
  /-- The device publishes a document to `shadow/update`. -/
  update : ShadowDocument → σ → σ × List Message
  /-- Values are desired, from wherever. -/
  desire : Delta Field Int → σ → σ × List Message
  desired : σ → Delta Field Int
  reported : σ → Delta Field Int

/-- The numbers that a message gives. -/
def deltaOf (doc : Json) : Delta Field Int := fun f => (given doc f).bind Json.asInt32

/-- The `state` of the message gives the attributes these numbers, and gives no others of them. -/
structure Gives (doc : Json) (delta : Delta Field Int) : Prop where
  wellFormed : doc.wellFormed = true
  state : ∃ state, stateMembers doc = some state
  given : ∀ f, given doc f = (delta f).map .number

namespace ShadowService

variable {σ Message : Type} (service : ShadowService σ Message)

def difference (shadow : σ) : Delta Field Int := fun f =>
  if service.desired shadow f = service.reported shadow f then none else service.desired shadow f

/-- A change of the shadow is announced if it leaves a difference. -/
def Announces (document : Message → Json) (shadow : σ) (messages : List Message) : Prop :=
  if ∀ f, service.difference shadow f = none then messages = []
  else ∃ message, messages = [message] ∧ Gives (document message) (service.difference shadow)

/-- The service as it is documented: `null` clears the `desired` section; numbers that are
reported or desired are those of their section from then on; and a difference between the
sections is announced whenever one is updated. -/
structure Documented (document : Message → Json) : Prop where
  clear : ∀ shadow, service.desired (service.update .desiredClear shadow).1 = (fun _ => none) ∧
    service.reported (service.update .desiredClear shadow).1 = service.reported shadow ∧
      (service.update .desiredClear shadow).2 = []
  report : ∀ values : Field → Int, ∀ shadow r,
    service.update (.reported (reportedMessage (values .onoff) (values .levelControl))) shadow = r →
      service.desired r.1 = service.desired shadow ∧
        service.reported r.1 = (fun f => some (values f)) ∧ service.Announces document r.1 r.2
  desire : ∀ values shadow r, service.desire values shadow = r →
    service.desired r.1 = (fun f => (values f).or (service.desired shadow f)) ∧
      service.reported r.1 = service.reported shadow ∧ service.Announces document r.1 r.2

end ShadowService

/-! ## Both sides -/

structure Twin (σ Message : Type) where
  integration : Integration
  shadow : σ
  /-- Delta messages in flight, oldest first. -/
  deltas : List Message

inductive TwinEvent (Message : Type) where
  /-- Values are desired, from wherever. -/
  | desire (values : Delta Field Int)
  /-- The oldest delta message arrives. -/
  | deliver (env : CallEnv)
  /-- Anything else that happens at the device. -/
  | device (e : IntegrationEvent Message)

/-- The event is a delta message. -/
def IsDelta {Message : Type} : IntegrationEvent Message → Prop
  | .aws (.dataReceived .updateDelta _) _ => True
  | _ => False

instance {Message : Type} : DecidablePred (@IsDelta Message)
  | .aws (.dataReceived .updateDelta _) _ => isTrue trivial
  | .aws (.dataReceived (.other _) _) _ | .aws .connecting _ | .aws .connected _
  | .aws .disconnected _ | .aws (.other _) _ | .net _ _ | .connectDue | .connectWork _
  | .connectReturned _ | .attributeSet _ _ _ | .elapse _ => isFalse id

section twin
variable {σ Message : Type}

/-- What the service is sent arrives there, and what it publishes is in flight. -/
def Twin.receive (service : ShadowService σ Message) (w : Twin σ Message) : Effect → Twin σ Message
  | .awsIotSend document err =>
    if err = 0 then
      let r := service.update document w.shadow
      { w with shadow := r.1, deltas := w.deltas ++ r.2 }
    else w
  | _ => w

def twin (jsonObjParse : JsonObjParse Message) (service : ShadowService σ Message) :
    Machine (Twin σ Message) (TwinEvent Message) Effect where
  step w
    | .desire values =>
      let r := service.desire values w.shadow
      some ({ w with shadow := r.1, deltas := w.deltas ++ r.2 }, [])
    | .deliver env =>
      match w.deltas with
      | message :: deltas =>
        ((integration jsonObjParse).step w.integration
          (.aws (.dataReceived .updateDelta message) env)).map fun r =>
            (r.2.foldl (Twin.receive service) { w with integration := r.1, deltas := deltas }, r.2)
      | [] => none
    | .device e =>
      if IsDelta e then none
      else ((integration jsonObjParse).step w.integration e).map fun r =>
        (r.2.foldl (Twin.receive service) { w with integration := r.1 }, r.2)

end twin

/-- 32-bit integers only. -/
def Fits (delta : Delta Field Int) : Prop := ∀ f, ∀ value ∈ delta f, FitsInt32 value

instance (delta : Delta Field Int) : Decidable (Fits delta) :=
  inferInstanceAs (Decidable (∀ f, ∀ value ∈ delta f, FitsInt32 value))

/-- Nothing fails, the session stays, and what is desired can be decoded. -/
def Smooth {Message : Type} : TwinEvent Message → Prop
  | .desire values => Fits values
  | .deliver env => env.Succeeds
  | .device (.aws evt env) => evt ≠ .disconnected ∧ env.Succeeds
  | .device (.attributeSet _ _ env) => env.Succeeds
  | .device (.net _ _) | .device .connectDue | .device (.connectWork _)
  | .device (.connectReturned _) | .device (.elapse _) => True

/-! ## What the device makes of a delta -/

/-- A message that announces 32-bit integers. -/
def Readable (doc : Json) : Prop := Gives doc (deltaOf doc)

theorem deltaOf_fits (doc : Json) : Fits (deltaOf doc) := by
  intro f value hvalue
  obtain ⟨json, -, hjson⟩ := Option.bind_eq_some_iff.mp hvalue
  cases json with
  | number n =>
    simp only [Json.asInt32] at hjson
    split at hjson
    · cases hjson
      assumption
    · cases hjson
  | _ => cases hjson

theorem Gives.deltaOf_eq {doc : Json} {delta : Delta Field Int} (hg : Gives doc delta)
    (hfits : Fits delta) : deltaOf doc = delta := by
  funext f
  rw [deltaOf, hg.given]
  cases hvalue : delta f with
  | none => rfl
  | some value => exact if_pos (hfits f value hvalue)

theorem Gives.readable {doc : Json} {delta : Delta Field Int} (hg : Gives doc delta)
    (hfits : Fits delta) : Readable doc := by
  rw [Readable, hg.deltaOf_eq hfits]
  exact hg

theorem toInt_ofInt_of_fits {n : Int} (h : FitsInt32 n) : (BitVec.ofInt 32 n).toInt = n :=
  BitVec.toInt_ofInt_eq_self (by decide) h.1 h.2

/-- The numbers that the attributes of the payload are printed as. -/
def Payload.held (payload : Payload) : Field → Int := fun f => (payload.get f).toInt

section delivery
variable {spill : Json → Option Int} {doc : Json}

theorem firstInt_eq {state : List (String × Json)} (hs : stateMembers doc = some state) (f : Field) :
    Descr.firstInt state f.key = deltaOf doc f := by
  rw [Descr.firstInt, deltaOf, given_eq hs]

theorem decodes_readable (hr : Readable doc) : Decodes spill doc := by
  obtain ⟨state, hs⟩ := hr.state
  refine (decodes_state_iff hr.wellFormed hs).mpr fun f hf => ?_
  rw [← given_eq hs, hr.given] at hf
  rw [firstInt_eq hs]
  exact fun hnone => hf (by rw [hnone]; rfl)

/-- What is held after a delta is what was held before, overridden by it. -/
theorem held_store (hr : Readable doc) (payload : Payload) :
    (payload.store (deltaStores spill doc)).held = Deltas.override (deltaOf doc) payload.held := by
  funext f
  obtain ⟨state, hs⟩ := hr.state
  have hmem := fun n => @mem_deltaStores_iff spill _ hr.wellFormed _ hs (decodes_readable hr) f n
  simp only [firstInt_eq hs] at hmem
  unfold Payload.held Deltas.override
  cases hvalue : deltaOf doc f with
  | none =>
    rw [Payload.get_store_of_not_mem fun hstored => ?_]
    · rfl
    · obtain ⟨⟨g, n⟩, hn, rfl⟩ := List.mem_map.mp hstored
      have := (hmem n).mp hn
      rw [hvalue] at this
      cases this
  | some value =>
    rw [Payload.get_store_of_mem (deltaStores_nodup _) ((hmem value).mpr hvalue),
      toInt_ofInt_of_fits (deltaOf_fits doc f value hvalue)]
    rfl

end delivery

/-! ## The two sides as holder and announcer -/

section sides
variable {σ Message : Type} (service : ShadowService σ Message) (document : Message → Json)

def Twin.sides (w : Twin σ Message) : Deltas Field Int where
  desired := service.desired w.shadow
  held := w.integration.payload.held
  queue := w.deltas.map fun message => deltaOf (document message)

/-- The shadow has what the device holds. -/
def Twin.Reports (w : Twin σ Message) : Prop :=
  service.reported w.shadow = fun f => some (w.integration.payload.held f)

/-- A session in which the shadow has what the device holds, and what is desired and not held
is announced. -/
structure Tracks (w : Twin σ Message) : Prop where
  session : w.integration.isConnectedToAwsIot = true
  reports : w.Reports service
  desired : Fits (service.desired w.shadow)
  deltas : ∀ message ∈ w.deltas, Readable (document message)
  announced : (w.sides service document).Announced

end sides

section announce
variable {σ Message : Type} {service : ShadowService σ Message} {document : Message → Json}
  {w : Twin σ Message}

theorem difference_eq (hrep : w.Reports service) :
    service.difference w.shadow = Deltas.missing (service.desired w.shadow) w.integration.payload.held := by
  funext f
  rw [ShadowService.difference, Deltas.missing, hrep]

theorem difference_fits (hfits : Fits (service.desired w.shadow)) :
    Fits (service.difference w.shadow) := by
  intro f value hvalue
  unfold ShadowService.difference at hvalue
  split at hvalue
  · cases hvalue
  · exact hfits f value hvalue

/-- What the service announces is what is missing on the other side. -/
theorem announces_tracks {messages : List Message}
    (hsession : w.integration.isConnectedToAwsIot = true) (hrep : w.Reports service)
    (hfits : Fits (service.desired w.shadow))
    (hdeltas : ∀ message ∈ w.deltas, Readable (document message))
    (ha : service.Announces document w.shadow messages) :
    Tracks service document { w with deltas := w.deltas ++ messages } ∧
      Twin.sides service document { w with deltas := w.deltas ++ messages } =
        (w.sides service document).announce := by
  have hiff : (∀ f, service.difference w.shadow f = none) ↔ (w.sides service document).InSync := by
    rw [difference_eq hrep]
    exact Iff.rfl
  unfold ShadowService.Announces at ha
  by_cases hsync : (w.sides service document).InSync
  · rw [if_pos (hiff.mpr hsync)] at ha
    rw [ha, List.append_nil]
    refine ⟨⟨hsession, hrep, hfits, hdeltas, fun hnot => absurd hsync hnot⟩, ?_⟩
    rw [Deltas.announce, if_pos hsync]
  · rw [if_neg (hiff.not.mpr hsync)] at ha
    obtain ⟨message, rfl, hgives⟩ := ha
    have hmissing : deltaOf (document message) =
        Deltas.missing (service.desired w.shadow) w.integration.payload.held :=
      (hgives.deltaOf_eq (difference_fits hfits)).trans (difference_eq hrep)
    have hsides : Twin.sides service document { w with deltas := w.deltas ++ [message] } =
        (w.sides service document).announce := by
      rw [Deltas.announce, if_neg hsync, Twin.sides, List.map_append, List.map_singleton, hmissing]
      rfl
    refine ⟨⟨hsession, hrep, hfits, fun m hmem => ?_, ?_⟩, hsides⟩
    · rcases List.mem_append.mp hmem with hmem | hmem
      · exact hdeltas m hmem
      · rw [List.mem_singleton.mp hmem]
        exact hgives.readable (difference_fits hfits)
    · rw [hsides]
      exact Deltas.announce_announced _

/-- What is reported is what is held from then on. -/
theorem report_held (hv : service.Documented document) (payload : Payload) (shadow : σ)
    {r : σ × List Message}
    (hr : service.update (.reported (signedText updateRoot payload)) shadow = r) :
    service.desired r.1 = service.desired shadow ∧
      service.reported r.1 = (fun f => some (payload.held f)) ∧
        service.Announces document r.1 r.2 :=
  hv.report payload.held shadow r (by rw [← hr, signedText_updateRoot]; rfl)

/-- Publishing what the device holds leaves nothing desired. -/
theorem receive_published (hv : service.Documented document) (payload : Payload) :
    ∃ shadow, (published payload).foldl (Twin.receive service) w = { w with shadow := shadow } ∧
      service.desired shadow = (fun _ => none) ∧
        service.reported shadow = fun f => some (payload.held f) := by
  obtain ⟨hcleared, -, hnone⟩ := hv.clear w.shadow
  obtain ⟨hdesired, hreported, hann⟩ :=
    report_held hv payload (service.update .desiredClear w.shadow).1 rfl
  rw [hcleared] at hdesired
  rw [ShadowService.Announces, if_pos fun f => by
    simp [ShadowService.difference, hdesired]] at hann
  refine ⟨_, ?_, hdesired, hreported⟩
  simp [published, Twin.receive, hnone, hann]

theorem receive_aside {o : List Effect} (ho : ∀ document err, .awsIotSend document err ∉ o) :
    o.foldl (Twin.receive service) w = w := by
  induction o with
  | nil => rfl
  | cons x o ih =>
    have hsame : w.receive service x = w := by
      cases x with
      | awsIotSend document err => exact absurd List.mem_cons_self (ho document err)
      | _ => rfl
    rw [List.foldl_cons, hsame]
    exact ih fun document err hmem => ho document err (List.mem_cons_of_mem _ hmem)

end announce

section steps
variable {σ Message : Type} {jsonObjParse : JsonObjParse Message} {spill : Json → Option Int}
  {document : Message → Json} {service : ShadowService σ Message} {w w' : Twin σ Message}
  {s s' : Integration} {o : List Effect} {env : CallEnv}

/-- In a session where nothing fails, a local change publishes what the device holds, and so
does a new session. Nothing else at the device publishes, or changes what it holds. -/
theorem step_smooth {e : IntegrationEvent Message} (hsession : s.isConnectedToAwsIot = true)
    (hdelta : ¬ IsDelta e) (hsmooth : Smooth (.device e))
    (h : (integration jsonObjParse).step s e = some (s', o)) :
    s'.isConnectedToAwsIot = true ∧
      (o = published s'.payload ∨
        (s'.payload = s.payload ∧ ∀ document err, .awsIotSend document err ∉ o)) := by
  cases e with
  | net mgmtEvent err =>
    rcases step_net h with ⟨-, rfl, rfl⟩ | ⟨-, rfl, rfl⟩ <;>
      exact ⟨hsession, .inr ⟨rfl, by simp⟩⟩
  | connectDue =>
    obtain ⟨-, rfl, rfl⟩ := step_connectDue h
    exact ⟨hsession, .inr ⟨rfl, by simp⟩⟩
  | connectWork initErr =>
    obtain ⟨-, -, ⟨-, rfl, rfl⟩ | ⟨-, rfl, rfl⟩ | ⟨-, rfl, rfl⟩⟩ := step_connectWork h
    · exact ⟨hsession, .inr ⟨rfl, by simp⟩⟩
    · exact ⟨hsession, .inr ⟨rfl, by simp [notifyError]⟩⟩
    · exact ⟨hsession, .inr ⟨rfl, by split <;> simp⟩⟩
  | connectReturned err =>
    obtain ⟨-, rfl, rfl⟩ := step_connectReturned h
    exact ⟨hsession, .inr ⟨rfl, by split <;> simp [notifyError]⟩⟩
  | aws evt env =>
    obtain ⟨hstays, hsucceeds⟩ := hsmooth
    cases evt with
    | connected =>
      rw [connected_succeeds jsonObjParse hsucceeds] at h
      cases h
      exact ⟨rfl, .inl rfl⟩
    | disconnected => exact absurd rfl hstays
    | connecting => cases h; exact ⟨hsession, .inr ⟨rfl, by simp⟩⟩
    | other type => cases h; exact ⟨hsession, .inr ⟨rfl, by simp⟩⟩
    | dataReceived topic message =>
      cases topic with
      | updateDelta => exact absurd trivial hdelta
      | other type => cases h; exact ⟨hsession, .inr ⟨rfl, by simp⟩⟩
  | attributeSet id value env =>
    have hsucceeds : env.Succeeds := hsmooth
    rcases attributeSet_cases id value env s (Option.some.inj h) with hr | ⟨payload, _, hst, rfl, ho⟩
    · cases hr
      exact ⟨hsession, .inr ⟨rfl, by simp⟩⟩
    · dsimp only at hst ho
      have hstill : s'.isConnectedToAwsIot = true := by rw [hst]; exact hsession
      rw [publish_succeeds hsucceeds hstill, if_neg (by simp)] at ho
      exact ⟨hstill, .inl ho⟩
  | elapse ms => cases h; exact ⟨hsession, .inr ⟨rfl, by simp⟩⟩

/-- In a session a step at the device touches no delta in flight; it leaves nothing desired, or
changes nothing of the shadow and of what is held. -/
theorem device_step {e : IntegrationEvent Message} (hv : service.Documented document)
    (hsession : w.integration.isConnectedToAwsIot = true) (hsmooth : Smooth (.device e))
    (h : (twin jsonObjParse service).step w (.device e) = some (w', o)) :
    ¬ IsDelta e ∧ (integration jsonObjParse).step w.integration e = some (w'.integration, o) ∧
      w'.integration.isConnectedToAwsIot = true ∧ w'.deltas = w.deltas ∧
        ((service.desired w'.shadow = (fun _ => none) ∧ w'.Reports service) ∨
          (w'.shadow = w.shadow ∧ w'.integration.payload = w.integration.payload)) := by
  simp only [twin] at h
  split at h
  · cases h
  · rename_i hdelta
    obtain ⟨⟨s', o'⟩, hs, hw⟩ := Option.map_eq_some_iff.mp h
    cases hw
    obtain ⟨hstill, hpublish | ⟨hsame, hnone⟩⟩ := step_smooth hsession hdelta hsmooth hs
    · rw [hpublish] at hs ⊢
      obtain ⟨shadow, hreceive, hdesired, hreported⟩ :=
        receive_published (w := { w with integration := s' }) hv s'.payload
      rw [hreceive]
      exact ⟨hdelta, hs, hstill, rfl, .inl ⟨hdesired, hreported⟩⟩
    · rw [receive_aside hnone]
      exact ⟨hdelta, hs, hstill, rfl, .inr ⟨rfl, hsame⟩⟩

theorem device_tracks {e : IntegrationEvent Message} (hv : service.Documented document)
    (ht : Tracks service document w) (hsmooth : Smooth (.device e))
    (h : (twin jsonObjParse service).step w (.device e) = some (w', o)) :
    Tracks service document w' := by
  obtain ⟨-, -, hstill, hdeltas, ⟨hdesired, hrep⟩ | ⟨hshadow, hpayload⟩⟩ :=
    device_step hv ht.session hsmooth h
  · refine ⟨hstill, hrep, ?_, by rw [hdeltas]; exact ht.deltas, fun hsync => ?_⟩
    · rw [hdesired]
      exact fun f value hvalue => by cases hvalue
    · exact absurd (fun f => by simp [Twin.sides, Deltas.missing, hdesired]) hsync
  · have hsides : w'.sides service document = w.sides service document := by
      rw [Twin.sides, Twin.sides, hshadow, hpayload, hdeltas]
    refine ⟨hstill, ?_, by rw [hshadow]; exact ht.desired, by rw [hdeltas]; exact ht.deltas, ?_⟩
    · rw [Twin.Reports, hshadow, hpayload]
      exact ht.reports
    · rw [hsides]
      exact ht.announced

/-- What is newly desired is announced, if it is not held. -/
theorem desire_tracks {values : Delta Field Int} (hv : service.Documented document)
    (ht : Tracks service document w) (hfits : Fits values)
    (h : (twin jsonObjParse service).step w (.desire values) = some (w', o)) :
    Tracks service document w' ∧ w'.sides service document = Deltas.announce
      { w.sides service document with
        desired := fun f => (values f).or (service.desired w.shadow f) } := by
  obtain ⟨hdesired, hreported, hann⟩ := hv.desire values w.shadow _ rfl
  cases h
  have hall : Fits (service.desired (service.desire values w.shadow).1) := by
    rw [hdesired]
    intro f value hvalue
    cases hf : values f with
    | none =>
      have hvalue : (values f).or (service.desired w.shadow f) = some value := hvalue
      rw [hf, Option.none_or] at hvalue
      exact ht.desired f value hvalue
    | some v =>
      have hvalue : (values f).or (service.desired w.shadow f) = some value := hvalue
      rw [hf, Option.some_or] at hvalue
      exact hfits f value (hf.trans hvalue)
  obtain ⟨htracks, hsides⟩ := announces_tracks
    (w := { w with shadow := (service.desire values w.shadow).1 }) ht.session
    (hreported.trans ht.reports) hall ht.deltas hann
  refine ⟨htracks, hsides.trans ?_⟩
  rw [Twin.sides, hdesired]
  rfl

/-- A delta message that can be decoded is applied and reported. -/
theorem delta_succeeds (he : env.Succeeds) {message : Message} {decoded : Payload × Int}
    (hdecoded : codecJsonDecodeDeltaMessage jsonObjParse message s.payload = decoded)
    (hok : decoded.2 = 0) :
    s.onDataReceived jsonObjParse .updateDelta message env =
      ({ s with payload := decoded.1 }, [notifyChange decoded.1 .onoff,
        notifyChange decoded.1 .levelControl,
        .awsIotSend (.reported (signedText updateRoot decoded.1)) 0]) := by
  obtain ⟨hstate, hcases⟩ := decodeAndNotify_cases jsonObjParse message env s hdecoded rfl
  obtain ⟨herr, -⟩ | ⟨-, hno, -⟩ | ⟨-, -, hno, -⟩ | ⟨-, -, -, hcalls⟩ := hcases
  · exact absurd hok herr
  · rw [he.onoff] at hno; cases hno
  · rw [he.levelControl] at hno; cases hno
  · rw [onDataReceived_delta jsonObjParse message env s rfl, hcalls, hstate,
      shadowUpdate_sends he.encode, he.send]
    rfl

/-- A delta message in flight is applied, reported and answered with what is still missing. -/
theorem deliver_tracks (hd : Documented spill document jsonObjParse)
    (hv : service.Documented document) (he : env.Succeeds) (ht : Tracks service document w)
    (hne : w.deltas ≠ []) :
    ∃ w' o, (twin jsonObjParse service).step w (.deliver env) = some (w', o) ∧
      Tracks service document w' ∧
        w'.sides service document = (w.sides service document).deliver := by
  obtain ⟨message, deltas, hq⟩ := List.exists_cons_of_ne_nil hne
  have hr : Readable (document message) := ht.deltas message (by rw [hq]; exact List.mem_cons_self)
  have hok : (codecJsonDecodeDeltaMessage jsonObjParse message w.integration.payload).2 = 0 :=
    (decode_eq_zero_iff hd _ _).mpr (decodes_readable hr)
  have hheld : (codecJsonDecodeDeltaMessage jsonObjParse message w.integration.payload).1.held =
      Deltas.override (deltaOf (document message)) w.integration.payload.held := by
    rw [decode_payload hd, held_store hr]
  generalize hdecoded : codecJsonDecodeDeltaMessage jsonObjParse message
    w.integration.payload = decoded at hok hheld
  obtain ⟨r, hupdate⟩ : ∃ r, service.update (.reported (signedText updateRoot decoded.1)) w.shadow =
    r := ⟨_, rfl⟩
  have hstep : (twin jsonObjParse service).step w (.deliver env) = some
      (⟨{ w.integration with payload := decoded.1 }, r.1, deltas ++ r.2⟩,
        [notifyChange decoded.1 .onoff, notifyChange decoded.1 .levelControl,
          .awsIotSend (.reported (signedText updateRoot decoded.1)) 0]) := by
    have hevent : (integration jsonObjParse).step w.integration
        (.aws (.dataReceived .updateDelta message) env) = some _ :=
      congrArg some (delta_succeeds he hdecoded hok)
    simp only [twin, hq, hevent, ← hupdate]
    rfl
  obtain ⟨hdesired, hreported, hann⟩ := report_held hv decoded.1 _ hupdate
  obtain ⟨htracks, hsides⟩ := announces_tracks
    (w := ⟨{ w.integration with payload := decoded.1 }, r.1, deltas⟩) ht.session hreported
    (by rw [hdesired]; exact ht.desired)
    (fun m hmem => ht.deltas m (by rw [hq]; exact List.mem_cons_of_mem _ hmem)) hann
  refine ⟨_, _, hstep, htracks, hsides.trans ?_⟩
  rw [Deltas.deliver_cons (show (w.sides service document).queue = _ by rw [Twin.sides, hq]; rfl),
    Twin.sides, hdesired, hheld]
  rfl

end steps

/-! ## Convergence -/

section converge
variable {σ Message : Type} {jsonObjParse : JsonObjParse Message} {spill : Json → Option Int}
  {document : Message → Json} {service : ShadowService σ Message} {w₀ w : Twin σ Message}
  {es : List (TwinEvent Message)} {os : List Effect} {env : CallEnv}

/-- A new session clears what was desired before; nothing of it is in flight. -/
theorem connected_tracks (hv : service.Documented document) (he : env.Succeeds)
    (hempty : w₀.deltas = [])
    (h : (twin jsonObjParse service).step w₀ (.device (.aws .connected env)) = some (w, os)) :
    Tracks service document w := by
  simp only [twin, connected_succeeds jsonObjParse he] at h
  rw [if_neg (show ¬ IsDelta (.aws .connected env : IntegrationEvent Message) from id),
    Option.map_some] at h
  cases h
  obtain ⟨shadow, hreceive, hdesired, hreported⟩ := receive_published
    (w := { w₀ with integration := { w₀.integration with
      connectWork := w₀.integration.connectWork.cancelDelayable, isConnectedToAwsIot := true } })
    hv w₀.integration.payload
  rw [hreceive]
  refine ⟨rfl, hreported, ?_, fun message hmem => ?_, fun hsync => ?_⟩
  · rw [hdesired]
    exact fun f value hvalue => by cases hvalue
  · rw [hempty] at hmem
    cases hmem
  · exact absurd (fun f => by simp [Twin.sides, Deltas.missing, hdesired]) hsync

theorem run_tracks (hd : Documented spill document jsonObjParse) (hv : service.Documented document)
    (hsmooth : ∀ e ∈ es, Smooth e) (ht : Tracks service document w₀)
    (h : (twin jsonObjParse service).run w₀ es = some (w, os)) : Tracks service document w := by
  refine Machine.run_induct (motive := fun es _ w => (∀ e ∈ es, Smooth e) →
    Tracks service document w) (fun _ => ht) ?_ h hsmooth
  intro es os t e o u _ ih hs hsmooth
  have ht := ih fun e he => hsmooth e (List.mem_append_left _ he)
  have he := hsmooth e (List.mem_append_right _ (List.mem_singleton_self _))
  cases e with
  | desire values => exact (desire_tracks hv ht he hs).1
  | device e => exact device_tracks hv ht he hs
  | deliver env =>
    have hne : t.deltas ≠ [] := by
      intro hempty
      simp [twin, hempty] at hs
    obtain ⟨u', o', hstep, htracks, -⟩ := deliver_tracks hd hv he ht hne
    rw [hstep] at hs
    cases hs
    exact htracks

/-- Deliveries of the twin are those of its two sides, for as long as there are any. -/
theorem deliveries (hd : Documented spill document jsonObjParse) (hv : service.Documented document)
    (he : env.Succeeds) (ht : Tracks service document w) (n : Nat) :
    ∃ m ≤ n, ∃ u os, (twin jsonObjParse service).run w (List.replicate m (.deliver env)) =
      some (u, os) ∧ Tracks service document u ∧
        u.sides service document = Deltas.deliver^[n] (w.sides service document) := by
  induction n with
  | zero => exact ⟨0, Nat.le_refl _, w, [], rfl, ht, rfl⟩
  | succ n ih =>
    obtain ⟨m, hm, u, os, hrun, htracks, hsides⟩ := ih
    rw [Function.iterate_succ_apply', ← hsides]
    cases hq : u.deltas with
    | nil =>
      have hdone : (u.sides service document).deliver = u.sides service document := by
        rw [Deltas.deliver, show (u.sides service document).queue = [] by rw [Twin.sides, hq]; rfl]
      exact ⟨m, Nat.le_succ_of_le hm, u, os, hrun, htracks, hdone.symm⟩
    | cons message deltas =>
      obtain ⟨v, o, hstep, hv', hvsides⟩ := deliver_tracks hd hv he htracks (by rw [hq]; simp)
      refine ⟨m + 1, Nat.succ_le_succ hm, v, os ++ o, ?_, hv', hvsides⟩
      rw [List.replicate_succ']
      exact Machine.run_snoc_iff.mpr ⟨u, os, o, hrun, hstep, rfl⟩

/-- **The device and its shadow converge.** In a session in which nothing fails, the shadow has
at any time the numbers that the device holds; and from then on, as long as nothing new is
desired, the delta messages in flight run out within three times their number, and leave the
device with all that is desired of it. -/
theorem shadow_converges (hd : Documented spill document jsonObjParse)
    (hv : service.Documented document) (he : env.Succeeds) (hempty : w₀.deltas = [])
    (hsmooth : ∀ e ∈ es, Smooth e)
    (h : (twin jsonObjParse service).run w₀ (.device (.aws .connected env) :: es) = some (w, os)) :
    (∀ f, service.reported w.shadow f = some (w.integration.payload.get f).toInt) ∧
      ∃ m ≤ 3 * w.deltas.length, ∃ u os, (twin jsonObjParse service).run w
        (List.replicate m (.deliver env)) = some (u, os) ∧ u.deltas = [] ∧
          service.desired u.shadow = service.desired w.shadow ∧
            ∀ f value, service.desired u.shadow f = some value →
              (u.integration.payload.get f).toInt = value := by
  obtain ⟨w₁, o, os, hconnected, hrest, rfl⟩ := Machine.run_cons_iff.mp h
  have ht := run_tracks hd hv hsmooth (connected_tracks hv he hempty hconnected) hrest
  obtain ⟨n, hn, hdrained, hsync, hdesired⟩ := (w.sides service document).deliver_converges ht.announced
  obtain ⟨m, hm, u, os, hrun, -, hsides⟩ := deliveries hd hv he ht n
  rw [← hsides] at hdrained hsync hdesired
  have hn : n ≤ 3 * w.deltas.length := by simpa [Twin.sides] using hn
  refine ⟨congrFun ht.reports, m, Nat.le_trans hm hn, u, os, hrun, List.map_eq_nil_iff.mp hdrained,
    hdesired, fun f value hvalue => ?_⟩
  have hheld := hsync f
  unfold Deltas.missing at hheld
  split at hheld
  · rename_i heq
    exact Option.some.inj (heq.symm.trans hvalue)
  · have hnone : service.desired u.shadow f = none := hheld
    rw [hvalue] at hnone
    cases hnone

end converge

/-! ## A service that keeps the two sections -/

/-- A shadow document. -/
structure Shadow where
  desired : Delta Field Int
  reported : Delta Field Int

/-- A delta message with nothing but the delta. -/
def deltaDocument (delta : Delta Field Int) : Json :=
  .object [("state", .object (((delta .onoff).map fun n => ("onoff", .number n)).toList ++
    ((delta .levelControl).map fun n => ("level_control", .number n)).toList))]

namespace Shadow

def difference (shadow : Shadow) : Delta Field Int := fun f =>
  if shadow.desired f = shadow.reported f then none else shadow.desired f

def announce (shadow : Shadow) : Shadow × List Json :=
  (shadow, if ∀ f, shadow.difference f = none then [] else [deltaDocument shadow.difference])

/-- What is reported is read by the descriptors that wrote it. -/
def update : ShadowDocument → Shadow → Shadow × List Json
  | .desiredClear, shadow => ({ shadow with desired := fun _ => none }, [])
  | .reported message, shadow =>
    let values := Descr.scanDocument updateRoot message
    { shadow with reported := fun f => (values.lookup f).or (shadow.reported f) }.announce

def desire (values : Delta Field Int) (shadow : Shadow) : Shadow × List Json :=
  { shadow with desired := fun f => (values f).or (shadow.desired f) }.announce

end Shadow

def shadowService : ShadowService Shadow Json where
  update := Shadow.update
  desire := Shadow.desire
  desired := Shadow.desired
  reported := Shadow.reported

theorem deltaDocument_gives (delta : Delta Field Int) : Gives (deltaDocument delta) delta where
  wellFormed := by
    unfold deltaDocument
    cases delta .onoff <;> cases delta .levelControl <;> rfl
  state := ⟨_, rfl⟩
  given f := by
    unfold deltaDocument
    cases f <;> cases delta .onoff <;> cases delta .levelControl <;> rfl

theorem announce_announces (shadow : Shadow) :
    shadowService.Announces id shadow shadow.announce.2 := by
  unfold ShadowService.Announces
  by_cases hnone : ∀ f, shadowService.difference shadow f = none
  · rw [if_pos hnone]
    exact if_pos hnone
  · rw [if_neg hnone]
    exact ⟨_, if_neg hnone, deltaDocument_gives _⟩

theorem shadowService_documented : shadowService.Documented id where
  clear shadow := ⟨rfl, rfl, rfl⟩
  desire values shadow r hr := by
    subst hr
    exact ⟨rfl, rfl, announce_announces _⟩
  report values shadow r hr := by
    subst hr
    refine ⟨rfl, ?_, announce_announces _⟩
    rw [← textDocument_updateRoot]
    show (fun f => ((Descr.scanDocument updateRoot _).lookup f).or (shadow.reported f)) = _
    rw [Descr.scanDocument_textDocument]
    funext f
    cases f <;> rfl

/-- ON is desired, and OFF at level 50 before the first delta message arrives. -/
def desiredTwice : List (TwinEvent Json) :=
  [.desire fun f => if f = .onoff then some 1 else none,
    .desire fun f => if f = .onoff then some 0 else some 50]

/-- The device with a shadow of which nothing is known. -/
def twinAt (uptime : Nat) : Twin Shadow Json :=
  ⟨startedAt uptime, ⟨fun _ => none, fun _ => none⟩, []⟩

theorem desiredTwice_converges :
    ∃ w os, (twin parseDocument shadowService).run (twinAt 0)
        (.device (.aws .connected {}) :: desiredTwice) = some (w, os) ∧
      ∃ m ≤ 3 * w.deltas.length, ∃ u os, (twin parseDocument shadowService).run w
        (List.replicate m (.deliver {})) = some (u, os) ∧ u.deltas = [] := by
  obtain ⟨w, os, hrun, -⟩ : ∃ w os, (twin parseDocument shadowService).run (twinAt 0)
      (.device (.aws .connected {}) :: desiredTwice) = some (w, os) ∧ True :=
    Machine.run_eval (by decide +kernel)
  have hsmooth : ∀ e ∈ desiredTwice, Smooth e := by
    intro e he
    rcases List.mem_cons.mp he with rfl | he
    · show Fits _
      decide
    · rw [List.mem_singleton.mp he]
      show Fits _
      decide
  obtain ⟨-, m, hm, u, os', hdrain, hempty, -⟩ := shadow_converges parseDocument_documented
    shadowService_documented succeeds_default rfl hsmooth hrun
  exact ⟨w, os, hrun, m, hm, u, os', hdrain, hempty⟩

end ThreadSwitch.AwsIot
