import ThreadSwitch.AwsIot.Integration

/-!
# Connecting and reconnecting

`connect_work` is rescheduled on a new network, on a lost session and on a timed-out
attempt, and cancelled on a new session.

- `reconnect_not_lost`: with a network and without a session, an attempt is pending or
  running, or the session it opened is still to be announced; except where the reconnect
  comes due in a call that has been canceled. The library's side is the machine
  `sessions`, which drives the integration (`sessions_drive`).
- `no_second_session`: `aws_iot_connect` is called during a session only if a step
  left `connect_work` pending there: a network that comes up during the session, or a
  timed-out attempt that ends during it.
-/

namespace ThreadSwitch.AwsIot

open ThreadSwitch.Zephyr ThreadSwitch.Lib

variable {Message : Type} (jsonObjParse : JsonObjParse Message)

/-! ## The library's sessions -/

/-- What the library announces of a session. -/
inductive SessionEvt where
  | connected
  | disconnected
  deriving DecidableEq, Repr

def SessionEvt.toEvt : SessionEvt → AwsIotEvt Message
  | connected => .connected
  | disconnected => .disconnected

/-- The integration and the library's sessions. -/
structure Sessions where
  integration : Integration
  /-- The call of `aws_iot_connect` in progress has opened its session. -/
  opened : Bool
  /-- Sessions that have not ended. -/
  live : Nat
  /-- Announcements still to be handled, oldest first. -/
  queue : List SessionEvt
  deriving DecidableEq, Repr

inductive SessionsEvent (Message : Type) where
  /-- An event that is not the library's: of the network, a work, data, an attribute. -/
  | other (e : IntegrationEvent Message)
  /-- A session opens during the call of `aws_iot_connect`. -/
  | opens
  /-- The call returns; success without a session so far opens it now. -/
  | returns (err : Int)
  /-- A session is lost or closed. -/
  | ends
  /-- The oldest announcement is handled. -/
  | announce (env : CallEnv)

/-- The event is the library's to cause. -/
def FromLibrary : IntegrationEvent Message → Prop
  | .connectReturned _ | .aws .connected _ | .aws .disconnected _ => True
  | _ => False

instance : ∀ e : IntegrationEvent Message, Decidable (FromLibrary e)
  | .connectReturned _ | .aws .connected _ | .aws .disconnected _ => isTrue trivial
  | .net _ _ | .connectDue | .connectWork _ | .aws .connecting _ | .aws (.dataReceived _ _) _
  | .aws (.other _) _ | .attributeSet _ _ _ | .elapse _ => isFalse id

/-- The library announces each session it opens, once, and its end after that, in order. -/
def sessions : Machine Sessions (SessionsEvent Message) (IntegrationEvent Message) where
  step w
    | .other e =>
      if FromLibrary e then none
      else ((integration jsonObjParse).step w.integration e).map fun r =>
        ({ w with integration := r.1 }, [e])
    | .opens =>
      if w.integration.connectWork.run ≠ .idle ∧ w.opened = false then
        some ({ w with
          opened := true, live := w.live + 1, queue := w.queue ++ [.connected] }, [])
      else none
    | .returns err =>
      if w.opened = true ∧ err ≠ 0 then none
      else
        ((integration jsonObjParse).step w.integration (.connectReturned err)).map fun r =>
          if w.opened = false ∧ err = 0 then
            (⟨r.1, false, w.live + 1, w.queue ++ [.connected]⟩, [.connectReturned err])
          else (⟨r.1, false, w.live, w.queue⟩, [.connectReturned err])
    | .ends =>
      if w.live = 0 then none
      else some ({ w with live := w.live - 1, queue := w.queue ++ [.disconnected] }, [])
    | .announce env =>
      match w.queue with
      | evt :: queue =>
        ((integration jsonObjParse).step w.integration (.aws evt.toEvt env)).map fun r =>
          ({ w with integration := r.1, queue := queue }, [.aws evt.toEvt env])
      | [] => none

variable {jsonObjParse}

section steps
variable {w w' : Sessions} {o : List (IntegrationEvent Message)}

theorem sessions_other {e : IntegrationEvent Message}
    (h : (sessions jsonObjParse).step w (.other e) = some (w', o)) :
    ¬ FromLibrary e ∧
      (∃ x, (integration jsonObjParse).step w.integration e = some (w'.integration, x)) ∧
        w'.opened = w.opened ∧ w'.queue = w.queue ∧ o = [e] := by
  simp only [sessions] at h
  split at h
  · cases h
  · rename_i he
    obtain ⟨r, hr, hw⟩ := Option.map_eq_some_iff.mp h
    cases hw
    exact ⟨he, ⟨r.2, hr⟩, rfl, rfl, rfl⟩

theorem sessions_opens (h : (sessions jsonObjParse).step w .opens = some (w', o)) :
    w.integration.connectWork.run ≠ .idle ∧ w'.integration = w.integration ∧ w'.opened = true ∧
      w'.queue = w.queue ++ [.connected] ∧ o = [] := by
  simp only [sessions] at h
  split at h
  · rename_i hc
    cases h
    exact ⟨hc.1, rfl, rfl, rfl, rfl⟩
  · cases h

theorem sessions_returns {err : Int}
    (h : (sessions jsonObjParse).step w (.returns err) = some (w', o)) :
    (w.opened = true → err = 0) ∧
      (∃ x, (integration jsonObjParse).step w.integration (.connectReturned err) =
        some (w'.integration, x)) ∧
      w'.opened = false ∧
      w'.queue = w.queue ++ (if w.opened = false ∧ err = 0 then [.connected] else []) ∧
      o = [.connectReturned err] := by
  simp only [sessions] at h
  split at h
  · cases h
  · rename_i he
    obtain ⟨r, hr, hw⟩ := Option.map_eq_some_iff.mp h
    refine ⟨fun ho => by_contra fun hne => he ⟨ho, hne⟩, ?_⟩
    split at hw <;> rename_i hc <;> cases hw
    · exact ⟨⟨r.2, hr⟩, rfl, by rw [if_pos hc], rfl⟩
    · exact ⟨⟨r.2, hr⟩, rfl, by rw [if_neg hc, List.append_nil], rfl⟩

theorem sessions_ends (h : (sessions jsonObjParse).step w .ends = some (w', o)) :
    w'.integration = w.integration ∧ w'.opened = w.opened ∧
      w'.queue = w.queue ++ [.disconnected] ∧ o = [] := by
  simp only [sessions] at h
  split at h
  · cases h
  · cases h; exact ⟨rfl, rfl, rfl, rfl⟩

theorem sessions_announce {env : CallEnv}
    (h : (sessions jsonObjParse).step w (.announce env) = some (w', o)) :
    ∃ evt : SessionEvt, w.queue = evt :: w'.queue ∧
      (∃ x, (integration jsonObjParse).step w.integration (.aws evt.toEvt env) =
        some (w'.integration, x)) ∧
      w'.opened = w.opened ∧ o = [.aws evt.toEvt env] := by
  cases hq : w.queue with
  | nil => simp [sessions, hq] at h
  | cons evt queue =>
    simp only [sessions, hq] at h
    obtain ⟨r, hr, hw⟩ := Option.map_eq_some_iff.mp h
    cases hw
    exact ⟨evt, rfl, ⟨r.2, hr⟩, rfl, rfl⟩

end steps

theorem sessions_drive :
    Machine.Drives (sessions jsonObjParse) (integration jsonObjParse) Sessions.integration := by
  intro w e w' o h
  cases e with
  | other e =>
    obtain ⟨-, ⟨x, hx⟩, -, -, rfl⟩ := sessions_other h
    exact ⟨x, Machine.run_single.trans hx⟩
  | opens =>
    obtain ⟨-, hw, -, -, rfl⟩ := sessions_opens h
    exact ⟨[], by rw [hw]; rfl⟩
  | returns err =>
    obtain ⟨-, ⟨x, hx⟩, -, -, rfl⟩ := sessions_returns h
    exact ⟨x, Machine.run_single.trans hx⟩
  | ends =>
    obtain ⟨hw, -, -, rfl⟩ := sessions_ends h
    exact ⟨[], by rw [hw]; rfl⟩
  | announce env =>
    obtain ⟨evt, -, ⟨x, hx⟩, -, rfl⟩ := sessions_announce h
    exact ⟨x, Machine.run_single.trans hx⟩

/-! ## The reconnect is never lost -/

/-- The call is not one of `aws_iot_init` that fails. -/
def InitSucceeds : Effect → Prop
  | .awsIotInit err => err = 0
  | _ => True

instance : DecidablePred InitSucceeds
  | .awsIotInit _ => inferInstanceAs (Decidable (_ = _))
  | .handler _ | .awsIotConnect | .awsIotDisconnect _ | .awsIotSend _ _ => isTrue trivial

/-- If `aws_iot_connect` returns an error, it is `-EAGAIN`. -/
def ReturnsAgain : IntegrationEvent Message → Prop
  | .connectReturned err => err = 0 ∨ err = -eagain
  | _ => True

instance : DecidablePred (@ReturnsAgain Message)
  | .connectReturned _ => inferInstanceAs (Decidable (_ ∨ _))
  | .net _ _ | .connectDue | .connectWork _ | .aws _ _ | .attributeSet _ _ _ | .elapse _ =>
    isTrue trivial

/-- `aws_iot_init` has not failed, and `aws_iot_connect` with `-EAGAIN` only. -/
structure OnlyTimesOut (ds : List (IntegrationEvent Message)) (os : List Effect) : Prop where
  init : ∀ x ∈ os, InitSucceeds x
  connect : ∀ d ∈ ds, ReturnsAgain d

instance (ds : List (IntegrationEvent Message)) (os : List Effect) :
    Decidable (OnlyTimesOut ds os) :=
  decidable_of_iff ((∀ x ∈ os, InitSucceeds x) ∧ ∀ d ∈ ds, ReturnsAgain d)
    ⟨fun h => ⟨h.1, h.2⟩, fun h => ⟨h.init, h.connect⟩⟩

/-- With a network and without a session, an attempt is pending or running, or a session is
still to be announced. -/
def Reconnects (w : Sessions) : Prop :=
  w.integration.isConnectedToNetwork = true → w.integration.isConnectedToAwsIot = false →
    w.integration.connectWork.Pending ∨ w.integration.connectWork.run ≠ .idle ∨
      .connected ∈ w.queue

instance (w : Sessions) : Decidable (Reconnects w) := inferInstanceAs (Decidable (_ → _ → _ ∨ _ ∨ _))

/-- The timeout of `connect_work` does not expire in a call that is canceled while the network
is up and the session that the call opened is lost. -/
def KeepsAttempt (w : Sessions) : SessionsEvent Message → Prop
  | .other .connectDue =>
    w.integration.connectWork.run = .canceling → w.opened = true →
      w.integration.isConnectedToNetwork = true →
        w.integration.isConnectedToAwsIot = true ∨ .connected ∈ w.queue
  | _ => True

instance (w : Sessions) : ∀ e : SessionsEvent Message, Decidable (KeepsAttempt w e)
  | .other .connectDue => inferInstanceAs (Decidable (_ → _ → _ → _ ∨ _))
  | .other (.net _ _) | .other (.connectWork _) | .other (.connectReturned _) | .other (.aws _ _)
  | .other (.attributeSet _ _ _) | .other (.elapse _) | .opens | .returns _ | .ends
  | .announce _ => isTrue trivial

/-- A call in progress has opened a session only while there is one; with a network and
without a session an attempt is pending, or in its call with no session opened by it,
or a session is still to be announced. -/
structure Recovers (w : Sessions) : Prop where
  opened : w.opened = true → w.integration.connectWork.run ≠ .idle
  attempt : w.integration.isConnectedToNetwork = true → w.integration.isConnectedToAwsIot = false →
    w.integration.connectWork.Pending ∨
      (w.integration.connectWork.run ≠ .idle ∧ w.opened = false) ∨ .connected ∈ w.queue

theorem Recovers.reconnects {w : Sessions} (hr : Recovers w) : Reconnects w := fun hnet haws =>
  (hr.attempt hnet haws).imp id (Or.imp And.left id)

/-- What the integration does on its own leaves an attempt. -/
theorem recovers_other {w w' : Sessions} {e : IntegrationEvent Message} {x : List Effect}
    (hr : Recovers w) (hk : KeepsAttempt w (.other e)) (he : ¬ FromLibrary e)
    (hi : ∀ c ∈ x, InitSucceeds c)
    (hs : (integration jsonObjParse).step w.integration e = some (w'.integration, x))
    (ho : w'.opened = w.opened) (hq : w'.queue = w.queue) : Recovers w' := by
  by_cases hl : e.IsLink
  · cases e with
    | net mgmtEvent err =>
      rcases step_net hs with ⟨rfl, -, hw⟩ | ⟨rfl, -, hw⟩
      · exact ⟨by rw [hw, ho]; exact hr.opened, fun _ _ => .inl (by
          rw [hw]; exact Work.rescheduleForQueue_pending _ _ _)⟩
      · refine ⟨by rw [hw, ho]; exact hr.opened, fun hnet _ => ?_⟩
        rw [hw] at hnet
        cases hnet
    | connectDue =>
      obtain ⟨-, -, hw⟩ := step_connectDue hs
      refine ⟨by rw [hw, ho]; simpa using hr.opened, fun hnet haws => ?_⟩
      rw [hw] at hnet haws ⊢
      rw [ho, hq]
      -- in a canceled call the work is abandoned, and what is left is the call or its session
      by_cases hrun : w.integration.connectWork.run = .canceling
      · right
        cases hopened : w.opened with
        | false => exact .inl ⟨by simp [hrun], rfl⟩
        | true =>
          refine .inr ((hk hrun hopened hnet).resolve_left fun hon => ?_)
          rw [haws] at hon
          cases hon
      · exact .inl (Work.timeout_pending_iff _ |>.mpr hrun)
    | connectWork initErr =>
      obtain ⟨-, hidle, hrun⟩ := step_connectWork hs
      have hopened : w.opened = false := Bool.eq_false_iff.mpr fun h => hr.opened h hidle
      rw [← ho] at hopened
      refine ⟨fun h => (by rw [hopened] at h; cases h), fun hnet _ => ?_⟩
      rcases hrun with ⟨hdown, -, hw⟩ | ⟨hne, hx, -⟩ | ⟨-, -, hw⟩
      · rw [hw, hdown] at hnet
        cases hnet
      · exact absurd (hi (.awsIotInit initErr) (by simp [hx])) hne
      · exact .inr (.inl ⟨by simp [hw], hopened⟩)
    | connectReturned err => exact absurd trivial he
    | aws evt env =>
      cases evt with
      | connected => exact absurd trivial he
      | disconnected => exact absurd trivial he
      | _ => cases hl
    | _ => cases hl
  · obtain ⟨⟨uptime, payload, hw⟩, -⟩ := step_aside hl hs
    refine ⟨by rw [hw, ho]; exact hr.opened, ?_⟩
    rw [hw, ho, hq]
    exact hr.attempt

/-- A step keeps an attempt, as long as initialization does not fail and a call fails
only with `-EAGAIN`. -/
theorem recovers_next {w w' : Sessions} {e : SessionsEvent Message}
    {o : List (IntegrationEvent Message)} {x : List Effect} (hr : Recovers w)
    (hk : KeepsAttempt w e) (h : (sessions jsonObjParse).step w e = some (w', o))
    (hx : (integration jsonObjParse).run w.integration o = some (w'.integration, x))
    (hf : OnlyTimesOut o x) : Recovers w' := by
  cases e with
  | other e =>
    obtain ⟨he, -, ho, hq, rfl⟩ := sessions_other h
    exact recovers_other hr hk he hf.init (Machine.run_single.symm.trans hx) ho hq
  | opens =>
    obtain ⟨hcon, hw, ho, hq, -⟩ := sessions_opens h
    exact ⟨fun _ => by rw [hw]; exact hcon, fun _ _ => .inr (.inr (by rw [hq]; simp))⟩
  | returns err =>
    obtain ⟨hopened, ⟨x', hs⟩, ho, hq, rfl⟩ := sessions_returns h
    obtain ⟨hcon, -, hw⟩ := step_connectReturned hs
    refine ⟨fun h => (by rw [ho] at h; cases h), fun hnet haws => ?_⟩
    rw [hw] at hnet haws ⊢
    rcases hf.connect (.connectReturned err) (by simp) with rfl | rfl
    · rcases hr.attempt hnet haws with hwork | ⟨-, hnew⟩ | hmem
      · exact .inl hwork
      · exact .inr (.inr (by rw [hq]; simp [hnew]))
      · exact .inr (.inr (by rw [hq]; exact List.mem_append_left _ hmem))
    · exact .inl (Work.rescheduleForQueue_pending _ _ _)
  | ends =>
    obtain ⟨hw, ho, hq, -⟩ := sessions_ends h
    refine ⟨by rw [hw, ho]; exact hr.opened, fun hnet haws => ?_⟩
    rw [hw] at hnet haws ⊢
    rw [ho, hq]
    exact (hr.attempt hnet haws).imp id (Or.imp id (List.mem_append_left _))
  | announce env =>
    obtain ⟨evt, hq, ⟨x', hs⟩, ho, -⟩ := sessions_announce h
    cases evt with
    | connected =>
      obtain ⟨hw, -⟩ := step_connected hs
      refine ⟨fun h => ?_, fun _ haws => ?_⟩
      · rw [hw]; simpa using hr.opened (ho ▸ h)
      · rw [hw] at haws; cases haws
    | disconnected =>
      obtain ⟨hw, -⟩ := step_disconnected hs
      exact ⟨by rw [hw, ho]; exact hr.opened, fun _ _ => .inl (by
        rw [hw]; exact Work.rescheduleForQueue_pending _ _ _)⟩

theorem onlyTimesOut_append {ds ds' : List (IntegrationEvent Message)} {os os' : List Effect} :
    OnlyTimesOut (ds ++ ds') (os ++ os') ↔ OnlyTimesOut ds os ∧ OnlyTimesOut ds' os' := by
  refine ⟨fun ⟨hi, hc⟩ => ?_, fun ⟨hf, hf'⟩ => ⟨?_, ?_⟩⟩
  · obtain ⟨hi, hi'⟩ := List.forall_mem_append.mp hi
    obtain ⟨hc, hc'⟩ := List.forall_mem_append.mp hc
    exact ⟨⟨hi, hc⟩, ⟨hi', hc'⟩⟩
  · exact List.forall_mem_append.mpr ⟨hf.init, hf'.init⟩
  · exact List.forall_mem_append.mpr ⟨hf.connect, hf'.connect⟩

/-- Both sides at the start. -/
def sessionsAt (uptime : Nat) : Sessions := ⟨startedAt uptime, false, 0, []⟩

section run
variable {uptime : Nat} {w : Sessions} {es : List (SessionsEvent Message)}
  {ds : List (IntegrationEvent Message)} {os : List Effect}

theorem run_recovers (h : (sessions jsonObjParse).run (sessionsAt uptime) es = some (w, ds))
    (hs : (integration jsonObjParse).run (startedAt uptime) ds = some (w.integration, os))
    (hf : OnlyTimesOut ds os)
    (hk : (sessions jsonObjParse).Along KeepsAttempt (sessionsAt uptime) es) : Recovers w := by
  refine Machine.run_induct (motive := fun es ds w => ∀ os,
    (integration jsonObjParse).run (startedAt uptime) ds = some (w.integration, os) →
      OnlyTimesOut ds os → (sessions jsonObjParse).Along KeepsAttempt (sessionsAt uptime) es →
        Recovers w)
    (fun _ _ _ _ => ⟨fun h => (by cases h), fun h => (by cases h)⟩) ?_ h os hs hf hk
  intro es ds v e o w hrun ih hstep os hos hf hk
  obtain ⟨x, hpre⟩ := sessions_drive.run hrun
  obtain ⟨_, _, y, hpre', hlast, rfl⟩ := Machine.run_append_iff.mp hos
  cases hpre.symm.trans hpre'
  obtain ⟨hf, hf'⟩ := onlyTimesOut_append.mp hf
  obtain ⟨hkpre, hkeeps⟩ := Machine.along_snoc.mp hk
  exact recovers_next (ih x hpre hf hkpre) (hkeeps v ds hrun) hstep hlast hf'

end run

/-- A timeout that expires in a canceled call leaves nothing when the call returns. -/
theorem dropped_of_not_keeps {w : Sessions} {e : SessionsEvent Message} (hk : ¬ KeepsAttempt w e)
    {w' : Sessions} {o : List (IntegrationEvent Message)}
    (h : (sessions jsonObjParse).step w e = some (w', o)) :
    o = [.connectDue] ∧ ∃ u, (sessions jsonObjParse).step w' (.returns 0) =
      some (u, [.connectReturned 0]) ∧ ¬ Reconnects u := by
  unfold KeepsAttempt at hk
  split at hk
  · simp only [Classical.not_imp, not_or, Bool.not_eq_true] at hk
    obtain ⟨hrun, hopened, hnet, haws, hq⟩ := hk
    obtain ⟨-, ⟨x, hs⟩, ho', hq', rfl⟩ := sessions_other h
    obtain ⟨-, -, hw⟩ := step_connectDue hs
    refine ⟨rfl, ⟨w'.integration.connectWorkReturned, false, w'.live, w'.queue⟩, ?_, fun hr => ?_⟩
    · have hbusy : w'.integration.connectWork.run ≠ .idle := by simp [hw, hrun]
      simp [sessions, integration, Integration.connectReturned, ho', hopened, hbusy, eagain]
    · rcases hr (by rw [hw]; exact hnet) (by rw [hw]; exact haws) with hp | hbusy | hmem
      · rw [hw] at hp
        exact (Work.timeout_pending_iff _).mp hp hrun
      · exact hbusy rfl
      · exact hq (hq' ▸ hmem)
  · exact absurd trivial hk

/-- **The reconnect is never lost** in the runs in which the timeout of `connect_work` expires in
no canceled call whose session is lost, as long as `aws_iot_init` has not failed and
`aws_iot_connect` has returned no error other than `-EAGAIN`; and where it does, the reconnect
is lost as soon as the call returns. -/
theorem reconnect_not_lost {uptime : Nat} {w : Sessions} {es : List (SessionsEvent Message)}
    {ds : List (IntegrationEvent Message)} {os : List Effect}
    (h : (sessions jsonObjParse).run (sessionsAt uptime) es = some (w, ds))
    (hs : (integration jsonObjParse).run (startedAt uptime) ds = some (w.integration, os))
    (hf : OnlyTimesOut ds os) :
    ((sessions jsonObjParse).Along KeepsAttempt (sessionsAt uptime) es → Reconnects w) ∧
    ∀ pre e post v ds', es = pre ++ e :: post →
      (sessions jsonObjParse).run (sessionsAt uptime) pre = some (v, ds') → ¬ KeepsAttempt v e →
        ∃ u ds os, (sessions jsonObjParse).run (sessionsAt uptime) (pre ++ [e, .returns 0]) =
            some (u, ds) ∧
          (integration jsonObjParse).run (startedAt uptime) ds = some (u.integration, os) ∧
            OnlyTimesOut ds os ∧ ¬ Reconnects u := by
  refine ⟨fun hk => (run_recovers h hs hf hk).reconnects, ?_⟩
  rintro pre e post v ds' rfl hpre hk
  obtain ⟨v', o, ds₂, hstep, hpost, rfl⟩ := Machine.run_split_of h hpre
  obtain ⟨rfl, u, hreturns, hlost⟩ := dropped_of_not_keeps hk hstep
  have hrun : (sessions jsonObjParse).run (sessionsAt uptime) (pre ++ [e, .returns 0]) =
      some (u, ds' ++ [.connectDue, .connectReturned 0]) :=
    Machine.run_append_iff.mpr ⟨v, ds', _, hpre, Machine.run_cons_iff.mpr
      ⟨v', _, _, hstep, Machine.run_single.trans hreturns, rfl⟩, rfl⟩
  obtain ⟨x, hdrive⟩ := sessions_drive.run hrun
  obtain ⟨t, x₁, x₂, hcalls, hend, rfl⟩ := Machine.run_append_iff.mp hdrive
  obtain ⟨_, _, _, hcalls', -, rfl⟩ := Machine.run_append_iff.mp hs
  cases hcalls.symm.trans hcalls'
  obtain ⟨t', o₁, o₂, hdue, hreturned, rfl⟩ := Machine.run_cons_iff.mp hend
  obtain ⟨-, rfl, -⟩ := step_connectDue hdue
  obtain ⟨-, rfl, -⟩ := step_connectReturned (Machine.run_single.symm.trans hreturned)
  have hend : OnlyTimesOut ([.connectDue, .connectReturned 0] : List (IntegrationEvent Message)) [] :=
    ⟨by simp, by simp [ReturnsAgain]⟩
  exact ⟨u, _, _, hrun, hdrive, onlyTimesOut_append.mpr ⟨(onlyTimesOut_append.mp hf).1, hend⟩, hlost⟩

/-- A session opens during the first attempt and is lost at once. -/
def lostSession : List (SessionsEvent Json) :=
  [.other (.net .l4Connected 0), .other (.elapse 5000), .other .connectDue,
    .other (.connectWork 0), .opens, .ends, .announce {}, .returns 0, .announce {}]

theorem lostSession_reconnects :
    ∃ w ds, (sessions parseDocument).run (sessionsAt 0) lostSession = some (w, ds) ∧
      Reconnects w := by
  obtain ⟨w, ds, hrun, ⟨⟨_, os⟩, hcalls, rfl, hf⟩, hkeeps⟩ : ∃ w ds,
      (sessions parseDocument).run (sessionsAt 0) lostSession = some (w, ds) ∧
        (∃ r ∈ (integration parseDocument).run (startedAt 0) ds,
          r.1 = w.integration ∧ OnlyTimesOut ds r.2) ∧
        (sessions parseDocument).Along KeepsAttempt (sessionsAt 0) lostSession :=
    Machine.run_eval (by decide +kernel)
  exact ⟨w, ds, hrun, (reconnect_not_lost hrun hcalls hf).1 hkeeps⟩

/-- The session that the first attempt opens is announced and lost before the call returns. -/
def lostInCall : List (SessionsEvent Json) :=
  [.other (.net .l4Connected 0), .other (.elapse 5000), .other .connectDue,
    .other (.connectWork 0), .opens, .announce {}, .ends, .announce {}, .other (.elapse 5000),
    .other .connectDue, .returns 0]

theorem reconnect_abandoned :
    ¬ ∀ es w ds os, (sessions parseDocument).run (sessionsAt 0) es = some (w, ds) →
      (integration parseDocument).run (startedAt 0) ds = some (w.integration, os) →
        OnlyTimesOut ds os → Reconnects w := by
  intro hall
  obtain ⟨w, ds, hrun, ⟨⟨_, os⟩, hcalls, rfl, hf⟩, hlost⟩ : ∃ w ds,
      (sessions parseDocument).run (sessionsAt 0) lostInCall = some (w, ds) ∧
        (∃ r ∈ (integration parseDocument).run (startedAt 0) ds,
          r.1 = w.integration ∧ OnlyTimesOut ds r.2) ∧ ¬ Reconnects w :=
    Machine.run_eval (by decide +kernel)
  exact hlost (hall _ _ _ _ hrun hcalls hf)

/-! ## No second session -/

/-- `aws_iot_connect` is not called while a session is announced. -/
def ConnectsApart (jsonObjParse : JsonObjParse Message) (s : Integration)
    (e : IntegrationEvent Message) : Prop :=
  ∀ r ∈ (integration jsonObjParse).step s e, .awsIotConnect ∈ r.2 → s.isConnectedToAwsIot = false

instance (s : Integration) (e : IntegrationEvent Message) :
    Decidable (ConnectsApart jsonObjParse s e) :=
  inferInstanceAs (Decidable (∀ r ∈ (integration jsonObjParse).step s e,
    .awsIotConnect ∈ r.2 → s.isConnectedToAwsIot = false))

/-- The step does not leave `connect_work` pending with a network and a session. -/
def LeavesNoAttempt (s : Integration) : IntegrationEvent Message → Prop
  | .net .l4Connected _ => s.isConnectedToAwsIot = false
  | .connectReturned err =>
    err = -eagain → s.isConnectedToAwsIot = false ∨ s.isConnectedToNetwork = false
  | _ => True

instance (s : Integration) : ∀ e : IntegrationEvent Message, Decidable (LeavesNoAttempt s e)
  | .net .l4Connected _ => inferInstanceAs (Decidable (s.isConnectedToAwsIot = false))
  | .connectReturned err => inferInstanceAs (Decidable (err = -eagain → _ ∨ _))
  | .net .l4Disconnected _ | .connectDue | .connectWork _ | .aws _ _ | .attributeSet _ _ _
  | .elapse _ => isTrue trivial

/-- With a network and a session no attempt is pending. -/
def NoAttempt (s : Integration) : Prop :=
  s.isConnectedToNetwork = true → s.isConnectedToAwsIot = true → ¬ s.connectWork.Pending

section attempt
variable {s s' : Integration} {e : IntegrationEvent Message} {o : List Effect}

theorem noAttempt_next (hn : NoAttempt s) (hp : LeavesNoAttempt s e)
    (h : (integration jsonObjParse).step s e = some (s', o)) : NoAttempt s' := by
  intro hnet haws
  by_cases hl : e.IsLink
  · cases e with
    | net mgmtEvent err =>
      rcases step_net h with ⟨rfl, -, rfl⟩ | ⟨rfl, -, rfl⟩
      · have hp : s.isConnectedToAwsIot = false := hp
        simp [hp] at haws
      · cases hnet
    | connectDue =>
      obtain ⟨⟨deadline, hdue, -⟩, -, rfl⟩ := step_connectDue h
      exact absurd (.inl (Option.ne_none_iff_exists'.mpr ⟨deadline, hdue⟩)) (hn hnet haws)
    | connectWork initErr =>
      obtain ⟨hqueued, -, ⟨-, -, rfl⟩ | ⟨-, -, rfl⟩ | ⟨hnet, -, rfl⟩⟩ := step_connectWork h <;>
        exact absurd (.inr hqueued) (hn hnet haws)
    | connectReturned err =>
      obtain ⟨-, -, rfl⟩ := step_connectReturned h
      dsimp only at hnet haws ⊢
      by_cases hagain : err = -eagain
      · rcases hp hagain with hoff | hdown
        · rw [hoff] at haws; cases haws
        · rw [hdown] at hnet; cases hnet
      · rw [if_neg hagain]
        exact hn hnet haws
    | aws evt env =>
      cases evt with
      | connected => obtain ⟨rfl, -⟩ := step_connected h; simp [Work.Pending]
      | disconnected => obtain ⟨rfl, -⟩ := step_disconnected h; cases haws
      | _ => cases hl
    | _ => cases hl
  · obtain ⟨⟨uptime, payload, rfl⟩, -⟩ := step_aside hl h
    exact hn hnet haws

/-- Without a pending attempt no session is doubled. -/
theorem connectsApart_of_noAttempt (hn : NoAttempt s) : ConnectsApart jsonObjParse s e := by
  rintro ⟨s', o⟩ h hmem
  by_cases hl : e.IsLink
  · cases e with
    | net mgmtEvent err =>
      rcases step_net h with ⟨-, rfl, -⟩ | ⟨-, rfl, -⟩ <;> simp at hmem
    | connectDue => rw [(step_connectDue h).2.1] at hmem; cases hmem
    | connectWork initErr =>
      obtain ⟨hqueued, -, ⟨-, rfl, -⟩ | ⟨-, rfl, -⟩ | ⟨hnet, -, -⟩⟩ := step_connectWork h
      · cases hmem
      · simp [notifyError] at hmem
      · exact Bool.eq_false_iff.mpr fun haws => hn hnet haws (.inr hqueued)
    | connectReturned err =>
      rw [(step_connectReturned h).2.1] at hmem
      split at hmem <;> simp [notifyError] at hmem
    | aws evt env =>
      cases evt with
      | connected => exact absurd hmem (step_connected h).2
      | disconnected => rw [(step_disconnected h).2] at hmem; cases hmem
      | _ => cases hl
    | _ => cases hl
  · exact absurd hmem (step_aside hl h).2

/-- A step that does leave an attempt there leaves `connect_work` scheduled with a network
and a session. -/
theorem attempt_of_not_leaves (hp : ¬ LeavesNoAttempt s e)
    (h : (integration jsonObjParse).step s e = some (s', o)) :
    s'.isConnectedToNetwork = true ∧ s'.isConnectedToAwsIot = true ∧
      ∃ deadline, s'.connectWork.delayed = some deadline := by
  cases e with
  | net mgmtEvent err =>
    rcases step_net h with ⟨rfl, -, rfl⟩ | ⟨rfl, -, -⟩
    · exact ⟨rfl, Bool.not_eq_false _ ▸ hp, _, rfl⟩
    · exact absurd trivial hp
  | connectReturned err =>
    simp only [LeavesNoAttempt, Classical.not_imp, not_or, Bool.not_eq_false] at hp
    obtain ⟨hagain, haws, hnet⟩ := hp
    obtain ⟨-, -, rfl⟩ := step_connectReturned h
    exact ⟨hnet, haws, s.uptime + 30000, by simp [hagain]⟩
  | _ => exact absurd trivial hp

/-- An attempt that is submitted calls `aws_iot_connect`. -/
theorem queued_attempt_connects (hnet : s.isConnectedToNetwork = true)
    (haws : s.isConnectedToAwsIot = true) (hqueued : s.connectWork.queued = true)
    (hidle : s.connectWork.run = .idle) : ¬ ConnectsApart jsonObjParse s (.connectWork 0) := by
  intro hap
  have hstep : (integration jsonObjParse).step s (.connectWork 0) =
      some ({ s with connectWork := s.connectWork.start }.connectWorkFn 0) := by
    simp [integration, hqueued, hidle]
  have hcall : .awsIotConnect ∈ ({ s with connectWork := s.connectWork.start }.connectWorkFn 0).2 := by
    unfold Integration.connectWorkFn Integration.connect
    cases s.init <;> simp [hnet]
  rw [hap _ hstep hcall] at haws
  cases haws

/-- An attempt that is scheduled does, when it is due. -/
theorem scheduled_attempt_connects {deadline : Nat} (hnet : s.isConnectedToNetwork = true)
    (haws : s.isConnectedToAwsIot = true) (hdelayed : s.connectWork.delayed = some deadline)
    (hidle : s.connectWork.run = .idle) :
    ¬ (integration jsonObjParse).Along (ConnectsApart jsonObjParse) s
      [.elapse (deadline - s.uptime), .connectDue, .connectWork 0] := by
  intro hal
  have hdue : (integration jsonObjParse).step
      { s with uptime := s.uptime + (deadline - s.uptime) } .connectDue =
      some ({ s with
        uptime := s.uptime + (deadline - s.uptime), connectWork := s.connectWork.timeout }, []) := by
    refine if_pos ⟨deadline, hdelayed, ?_⟩
    show deadline ≤ s.uptime + (deadline - s.uptime)
    omega
  exact queued_attempt_connects
    (s := { s with uptime := s.uptime + (deadline - s.uptime), connectWork := s.connectWork.timeout })
    hnet haws (by simp [hidle]) (by simp [hidle]) ((hal.2 _ rfl).2 _ hdue).1

/-- So it does once the call in progress has returned. -/
theorem attempt_connects {deadline : Nat} (hnet : s.isConnectedToNetwork = true)
    (haws : s.isConnectedToAwsIot = true) (hdelayed : s.connectWork.delayed = some deadline) :
    ∃ es, ¬ (integration jsonObjParse).Along (ConnectsApart jsonObjParse) s es := by
  by_cases hidle : s.connectWork.run = .idle
  · exact ⟨_, scheduled_attempt_connects hnet haws hdelayed hidle⟩
  · have hstep : (integration jsonObjParse).step s (.connectReturned 0) =
        some (s.connectWorkReturned, []) := by
      simp [integration, hidle, Integration.connectReturned, eagain]
    exact ⟨.connectReturned 0 :: _, fun hal => scheduled_attempt_connects
      (s := s.connectWorkReturned) hnet haws hdelayed rfl (hal.2 _ hstep)⟩

end attempt

/-- **A second session is never opened on top of a live one** in the runs whose steps leave no
attempt pending there, and any step that does can be continued to a run in which
`aws_iot_connect` is called during the session. -/
theorem no_second_session {uptime : Nat} {es : List (IntegrationEvent Message)} {s : Integration}
    {os : List Effect} (h : (integration jsonObjParse).run (startedAt uptime) es = some (s, os)) :
    ((integration jsonObjParse).Along LeavesNoAttempt (startedAt uptime) es →
      (integration jsonObjParse).Along (ConnectsApart jsonObjParse) (startedAt uptime) es) ∧
    ∀ pre e post t os, es = pre ++ e :: post →
      (integration jsonObjParse).run (startedAt uptime) pre = some (t, os) →
        ¬ LeavesNoAttempt t e → ∃ fs, ¬ (integration jsonObjParse).Along
          (ConnectsApart jsonObjParse) (startedAt uptime) (pre ++ e :: fs) := by
  refine ⟨Machine.Along.of_inv (I := NoAttempt) (fun t e u o => noAttempt_next)
    (fun t e hn _ => connectsApart_of_noAttempt hn) (fun h => by cases h), ?_⟩
  rintro pre e post t os rfl hpre hp
  obtain ⟨t', o, -, hstep, -⟩ := Machine.run_split_of h hpre
  obtain ⟨hnet, haws, deadline, hdelayed⟩ := attempt_of_not_leaves hp hstep
  obtain ⟨fs, hfs⟩ := attempt_connects hnet haws hdelayed
  exact ⟨fs, fun hal => hfs (((Machine.along_append.mp hal).2 t _ hpre).2 _ hstep)⟩

/-- An attempt that times out, and one that opens a session. -/
def retriedSession : List (IntegrationEvent Json) :=
  [.net .l4Connected 0, .elapse 5000, .connectDue, .connectWork 0, .connectReturned (-eagain),
    .elapse 30000, .connectDue, .connectWork 0, .aws .connected {}, .connectReturned 0]

theorem retriedSession_apart :
    (integration parseDocument).Along (ConnectsApart parseDocument) (startedAt 0) retriedSession := by
  obtain ⟨s, os, hrun, hleaves⟩ : ∃ s os,
      (integration parseDocument).run (startedAt 0) retriedSession = some (s, os) ∧
        (integration parseDocument).Along LeavesNoAttempt (startedAt 0) retriedSession :=
    Machine.run_eval (by decide +kernel)
  exact (no_second_session hrun).1 hleaves

/-- The network is announced again during the session. -/
def networkDuringSession : List (SessionsEvent Json) :=
  [.other (.net .l4Connected 0), .other (.elapse 5000), .other .connectDue,
    .other (.connectWork 0), .returns 0, .announce {}, .other (.net .l4Connected 0),
    .other (.elapse 5000), .other .connectDue, .other (.connectWork 0)]

theorem network_opens_second_session :
    ¬ ∀ es w ds, (sessions parseDocument).run (sessionsAt 0) es = some (w, ds) →
      (integration parseDocument).Along (ConnectsApart parseDocument) (startedAt 0) ds := by
  intro hall
  obtain ⟨w, ds, hrun, hdouble⟩ : ∃ w ds,
      (sessions parseDocument).run (sessionsAt 0) networkDuringSession = some (w, ds) ∧
        ¬ (integration parseDocument).Along (ConnectsApart parseDocument) (startedAt 0) ds :=
    Machine.run_eval (by decide +kernel)
  exact hdouble (hall _ _ _ hrun)

end ThreadSwitch.AwsIot
