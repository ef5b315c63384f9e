import ThreadSwitch.AwsIot.Connection

/-!
# Reconnecting in time

`never_left_offline`: when `connect_work` runs on time and its reconnect is not abandoned in a
canceled call, a device with a network and without a session waits no longer than the reconnect
interval for its next attempt. The wait starts anew when the network comes up, also when it was
never down, when a session is lost and when an attempt ends.
-/

namespace ThreadSwitch.AwsIot

open ThreadSwitch.Zephyr ThreadSwitch.Lib

variable {Message : Type} {jsonObjParse : JsonObjParse Message}

/-- Timeouts expire on time, also during a call of `aws_iot_connect`, and a work that is submitted
runs before time goes on, unless the run before it is still in its call. -/
def Punctual (s : Integration) : IntegrationEvent Message → Prop
  | .elapse ms =>
    (∀ deadline ∈ s.connectWork.delayed, s.uptime + ms ≤ deadline) ∧
      (s.connectWork.queued = true → s.connectWork.run = .idle → ms = 0)
  | _ => True

instance (s : Integration) : ∀ e : IntegrationEvent Message, Decidable (Punctual s e)
  | .elapse ms => inferInstanceAs (Decidable
      ((∀ deadline ∈ s.connectWork.delayed, s.uptime + ms ≤ deadline) ∧ (_ → _ → _)))
  | .net _ _ | .connectDue | .connectWork _ | .connectReturned _ | .aws _ _ | .attributeSet _ _ _ =>
    isTrue trivial

def waitAfter (wait : Nat) : IntegrationEvent Message → Nat
  | .net .l4Connected _ | .aws .disconnected _ | .connectReturned _ => 0
  | .elapse ms => wait + ms
  | .net .l4Disconnected _ | .connectDue | .connectWork _ | .aws _ _ | .attributeSet _ _ _ => wait

/-- The time since the network came up, a session was lost or an attempt ended. -/
def waited (es : List (IntegrationEvent Message)) : Nat := es.foldl waitAfter 0

/-- A timeout that is still to expire was scheduled no later than the wait started; a work that
may run has not waited too long. -/
structure Due (wait : Nat) (s : Integration) : Prop where
  soon : ∀ deadline ∈ s.connectWork.delayed,
    deadline + wait ≤ s.uptime + 1000 * reconnectIntervalSeconds
  ahead : ∀ deadline ∈ s.connectWork.delayed, s.uptime ≤ deadline
  submitted : s.connectWork.queued = true → s.connectWork.run = .idle →
    wait ≤ 1000 * reconnectIntervalSeconds

section steps
variable {s s' : Integration} {o : List Effect} {e : IntegrationEvent Message} {wait : Nat}

/-- Data and attribute changes take no time. -/
theorem aside_uptime (he : ¬ e.IsLink) (ht : ∀ ms, e ≠ .elapse ms)
    (h : (integration jsonObjParse).step s e = some (s', o)) : s'.uptime = s.uptime := by
  cases e with
  | net mgmtEvent err => exact absurd trivial he
  | connectDue => exact absurd trivial he
  | connectWork initErr => exact absurd trivial he
  | connectReturned err => exact absurd trivial he
  | aws evt env =>
    cases evt with
    | connected => exact absurd trivial he
    | disconnected => exact absurd trivial he
    | connecting => cases h; rfl
    | other type => cases h; rfl
    | dataReceived topic message =>
      cases topic with
      | other type => cases h; rfl
      | updateDelta =>
        obtain ⟨hstate, -⟩ := decodeAndNotify_cases jsonObjParse message env s rfl rfl
        have hs := (onDataReceived_delta jsonObjParse message env s rfl).symm.trans
          (Option.some.inj h)
        cases hs
        rw [hstate]
  | attributeSet id value env =>
    rcases attributeSet_cases id value env s (Option.some.inj h) with hr | ⟨payload, _, hst, -⟩
    · cases hr; rfl
    · dsimp only at hst
      rw [hst]
  | elapse ms => exact absurd rfl (ht ms)

/-- What is scheduled when the wait starts is due within the reconnect interval. -/
theorem due_of_restart {delay : Nat} (hd : delay ≤ 1000 * reconnectIntervalSeconds)
    (h : s.connectWork.delayed = some (s.uptime + delay)) : Due 0 s := by
  refine ⟨fun deadline hmem => ?_, fun deadline hmem => ?_, fun _ _ => Nat.zero_le _⟩
  · rw [h] at hmem
    cases hmem
    omega
  · rw [h] at hmem
    cases hmem
    omega

theorem due_next (hd : Due wait s) (hp : Punctual s e)
    (h : (integration jsonObjParse).step s e = some (s', o)) : Due (waitAfter wait e) s' := by
  by_cases hl : e.IsLink
  · cases e with
    | net mgmtEvent err =>
      rcases step_net h with ⟨rfl, -, rfl⟩ | ⟨rfl, -, rfl⟩
      · exact due_of_restart (by decide) rfl
      · exact ⟨hd.soon, hd.ahead, hd.submitted⟩
    | connectDue =>
      obtain ⟨⟨deadline, hmem, hdue⟩, -, rfl⟩ := step_connectDue h
      refine ⟨by simp, by simp, fun _ _ => ?_⟩
      -- it expires on time, so the wait is over just now
      have hsoon := hd.soon deadline hmem
      have hahead := hd.ahead deadline hmem
      show wait ≤ _
      omega
    | connectWork initErr =>
      obtain ⟨-, -, ⟨-, -, rfl⟩ | ⟨-, -, rfl⟩ | ⟨-, -, rfl⟩⟩ := step_connectWork h <;>
        exact ⟨hd.soon, hd.ahead, by simp⟩
    | connectReturned err =>
      obtain ⟨-, -, rfl⟩ := step_connectReturned h
      by_cases hagain : err = -eagain
      · exact due_of_restart (Nat.le_refl _) (by rw [if_pos hagain]; rfl)
      · -- a work that was scheduled during the call stays so
        rw [if_neg hagain]
        refine ⟨fun deadline hmem => ?_, hd.ahead, fun _ _ => Nat.zero_le _⟩
        exact Nat.le_trans (Nat.le_add_right _ _) (hd.soon deadline hmem)
    | aws evt env =>
      cases evt with
      | connected =>
        obtain ⟨rfl, -⟩ := step_connected h
        exact ⟨by simp, by simp, by simp⟩
      | disconnected =>
        obtain ⟨rfl, -⟩ := step_disconnected h
        exact due_of_restart (by decide) rfl
      | _ => cases hl
    | _ => cases hl
  · obtain ⟨⟨uptime, payload, rfl⟩, -⟩ := step_aside hl h
    by_cases ht : ∃ ms, e = .elapse ms
    · obtain ⟨ms, rfl⟩ := ht
      cases h
      refine ⟨fun deadline hmem => ?_, hp.1, fun hqueued hidle => ?_⟩
      · have := hd.soon deadline hmem
        show deadline + (wait + ms) ≤ s.uptime + ms + _
        omega
      · have hnow : ms = 0 := hp.2 hqueued hidle
        rw [hnow]
        exact hd.submitted hqueued hidle
    · have huptime := aside_uptime hl (fun ms hms => ht ⟨ms, hms⟩) h
      have hwait : waitAfter wait e = wait := by
        cases e with
        | elapse ms => exact absurd ⟨ms, rfl⟩ ht
        | aws evt env =>
          cases evt with
          | connected => exact absurd trivial hl
          | disconnected => exact absurd trivial hl
          | _ => rfl
        | attributeSet id value env => rfl
        | _ => exact absurd trivial hl
      dsimp only at huptime
      rw [hwait, huptime]
      exact ⟨hd.soon, hd.ahead, hd.submitted⟩

theorem run_due {uptime : Nat} {es : List (IntegrationEvent Message)} {os : List Effect}
    (hp : (integration jsonObjParse).Along Punctual (startedAt uptime) es)
    (h : (integration jsonObjParse).run (startedAt uptime) es = some (s, os)) :
    Due (waited es) s := by
  refine Machine.run_induct (motive := fun es _ s =>
    (integration jsonObjParse).Along Punctual (startedAt uptime) es → Due (waited es) s)
    (fun _ => ⟨fun _ h => (by cases h), fun _ h => (by cases h), fun h => (by cases h)⟩) ?_ h hp
  intro es os t e o u hrun ih hs hp
  obtain ⟨hpre, hlast⟩ := Machine.along_snoc.mp hp
  rw [waited, List.foldl_append]
  exact due_next (ih hpre) (hlast t os hrun) hs

end steps

/-- **No device is left offline.** As long as `aws_iot_init` has not failed, `aws_iot_connect` has
returned no error other than `-EAGAIN` and no reconnect has come due in a canceled call whose
session was lost, a device that has a network, no session and none still to be announced, and is
not in an attempt, has waited for at most the reconnect interval; its next attempt is submitted,
or due within what is left of the interval. -/
theorem never_left_offline {uptime : Nat} {w : Sessions} {es : List (SessionsEvent Message)}
    {ds : List (IntegrationEvent Message)} {os : List Effect}
    (h : (sessions jsonObjParse).run (sessionsAt uptime) es = some (w, ds))
    (hs : (integration jsonObjParse).run (startedAt uptime) ds = some (w.integration, os))
    (hf : OnlyTimesOut ds os)
    (hk : (sessions jsonObjParse).Along KeepsAttempt (sessionsAt uptime) es)
    (hp : (integration jsonObjParse).Along Punctual (startedAt uptime) ds)
    (hnet : w.integration.isConnectedToNetwork = true)
    (haws : w.integration.isConnectedToAwsIot = false)
    (hidle : w.integration.connectWork.run = .idle) (hq : .connected ∉ w.queue) :
    waited ds ≤ 1000 * reconnectIntervalSeconds ∧
      (w.integration.connectWork.queued = true ∨
        ∃ deadline, w.integration.connectWork.delayed = some deadline ∧
          deadline + waited ds ≤ w.integration.uptime + 1000 * reconnectIntervalSeconds) := by
  obtain ⟨hsoon, hahead, hsubmitted⟩ := run_due hp hs
  have hpending : w.integration.connectWork.Pending := by
    rcases (run_recovers h hs hf hk).attempt hnet haws with hwork | ⟨hbusy, -⟩ | hmem
    · exact hwork
    · exact absurd hidle hbusy
    · exact absurd hmem hq
  rcases hpending with hdelayed | hqueued
  · obtain ⟨deadline, hdeadline⟩ := Option.ne_none_iff_exists'.mp hdelayed
    have hdue := hsoon deadline hdeadline
    have hlate := hahead deadline hdeadline
    exact ⟨by omega, .inr ⟨deadline, hdeadline, hdue⟩⟩
  · exact ⟨hsubmitted hqueued hidle, .inl hqueued⟩

/-- A first attempt times out, and 20 s pass. -/
def timedOut : List (SessionsEvent Json) :=
  [.other (.net .l4Connected 0), .other (.elapse 5000), .other .connectDue,
    .other (.connectWork 0), .other (.elapse 8000), .returns (-eagain), .other (.elapse 20000)]

theorem timedOut_not_left_offline :
    ∃ w ds, (sessions parseDocument).run (sessionsAt 0) timedOut = some (w, ds) ∧
      waited ds = 20000 ∧ (w.integration.connectWork.queued = true ∨
        ∃ deadline, w.integration.connectWork.delayed = some deadline ∧
          deadline + 20000 ≤ w.integration.uptime + 1000 * reconnectIntervalSeconds) := by
  have hrun : (sessions parseDocument).run (sessionsAt 0) timedOut =
      some (⟨{ startedAt 0 with
        uptime := 33000, isConnectedToNetwork := true, init := true
        connectWork := Work.defined.rescheduleForQueue 13000 30000 }, false, 0, []⟩,
        [.net .l4Connected 0, .elapse 5000, .connectDue, .connectWork 0, .elapse 8000,
          .connectReturned (-eagain), .elapse 20000]) := rfl
  have hcalls : (integration parseDocument).run (startedAt 0)
      [.net .l4Connected 0, .elapse 5000, .connectDue, .connectWork 0, .elapse 8000,
        .connectReturned (-eagain), .elapse 20000] = some (_, [.awsIotInit 0, .awsIotConnect]) := rfl
  exact ⟨_, _, hrun, rfl, (never_left_offline hrun hcalls (by decide) (by decide) (by decide)
    rfl rfl rfl (by simp)).2⟩

end ThreadSwitch.AwsIot
