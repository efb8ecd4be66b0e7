import Aitsm.Original.Agreement

/-!
# What `bd_seq` counts

`aitsm_measurement_service_mqtt_disconnected` advances `bd_seq`, and four event
handlers call it. A session may be ended by none of them (a second MQTT_CONNECTED
comes first), by one, or by several, and some are handled when there is no
session. `Counted` is the balance of these cases, in every run of the
application.
-/

namespace Aitsm.Original

open Library
open Library.System (anyStep)

variable {cfg : Config} {rcfg : ReconnectConfig}

/-! ## The service between two reports -/

namespace Service

@[simp] theorem requestPublish_bdSeq (s : Service cfg) (now delayMs : ℕ) :
    (s.requestPublish now delayMs).bdSeq = s.bdSeq := by
  obtain ⟨work, hwork⟩ := s.requestPublish_eq now delayMs
  rw [hwork]

@[simp] theorem publishReturned_bdSeq (s : Service cfg) (now : ℕ) (answer : Except Errno Unit) :
    (s.publishReturned now answer).bdSeq = s.bdSeq := by
  obtain ⟨work, hwork⟩ := s.publishReturned_eq now answer
  rw [hwork]

@[simp] theorem publishWorkHandler_bdSeq (s : Service cfg) (now : ℕ) (timestampMs : UInt64)
    (token : Option UInt32) (answer : Except Errno Unit) :
    (s.publishWorkHandler now timestampMs token answer).bdSeq = s.bdSeq := by
  unfold publishWorkHandler submitted
  dsimp only
  split
  · simp [publishStarted]
  · simp [publishStarted]
  split
  · simp [publishStarted]
  split <;> rfl

@[simp] theorem sample_bdSeq (s : Service cfg) (now : ℕ) (reading : Except Errno Measurement) :
    (s.sample now reading).1.bdSeq = s.bdSeq := by
  obtain ⟨_, _, _, _, _, hsample, -⟩ := s.sample_eq now reading
  rw [hsample]

@[simp] theorem publishResult_bdSeq (s : Service cfg) (now : ℕ) (token : UInt32) (result : ℤ) :
    (s.publishResult now token result).1.bdSeq = s.bdSeq := by
  unfold publishResult birthResult dataResult
  split
  · rfl
  dsimp only
  split
  · split <;> simp
  split
  · split <;> simp
  · simp

@[simp] theorem onMqttConnected_bdSeq (s : Service cfg) (now : ℕ) :
    (s.onMqttConnected now).bdSeq = s.bdSeq := by
  simp [onMqttConnected]

@[simp] theorem onMqttDisconnected_bdSeq (s : Service cfg) :
    s.onMqttDisconnected.bdSeq = sparkplugNextSeq s.bdSeq := rfl

end Service

/-- A step of a recorded run. -/
abbrev AppStep (cfg : Config) := System.Step (App cfg) App.Action App.Event

namespace AppStep

/-- The event this step handles. -/
def handles (x : AppStep cfg) : Option AppEvent :=
  match x.action, x.before.queue with
  | .handle _, e :: _ => some e.event
  | _, _ => none

/-- An MQTT_CONNECTED is passed to the service. -/
def opens (x : AppStep cfg) : Bool :=
  match x.handles with
  | some .mqttConnected => x.before.reconnect.lteAvailable
  | _ => false

/-- The service is told that the connection ended. -/
def closes (x : AppStep cfg) : Bool :=
  match x.handles with
  | some .lteSearching | some .lteDisconnected | some .mqttDisconnected | some .mqttError => true
  | _ => false

/-- An MQTT_CONNECTED is passed to the service while a session is on. -/
def reopens (x : AppStep cfg) : Bool := x.opens && x.before.service.mqttConnected

/-- The service is told that the connection ended while no session is on. -/
def closesNothing (x : AppStep cfg) : Bool := x.closes && !x.before.service.mqttConnected

/-- What `publish_work` hands to the MQTT client. -/
def submission (x : AppStep cfg) : Option Submission :=
  match x.action with
  | .service (.publishWork _ timestampMs _ _) =>
    match x.before.service.publishStarted.publishBuffer timestampMs with
    | .ok submission => submission
    | .error _ => none
  | _ => none

theorem of_submission {x : AppStep cfg} {submission : Submission}
    (h : x.submission = some submission) :
    ∃ timestampMs, x.before.service.publishStarted.publishBuffer timestampMs =
      .ok (some submission) := by
  unfold AppStep.submission at h
  split at h
  · rename_i timestampMs _ _ _
    refine ⟨timestampMs, ?_⟩
    split at h
    · rename_i hbuffer
      rw [hbuffer, h]
    · cases h
  · cases h

end AppStep

namespace App

@[simp] theorem applyReconnect_service (s : App cfg) (answers : Answers) (e : ReconnectEvent) :
    (s.applyReconnect rcfg answers e).1.service = s.service := by
  unfold applyReconnect perform mqttConnect
  dsimp only
  split
  · rfl
  · split <;> rfl
  · rfl
  · rfl

/-- What a handler tells the service. -/
theorem handleEvent_service (s : App cfg) (answers : Answers) (e : AppEvent) :
    (s.handleEvent rcfg answers e).1.service =
      match e with
      | .lteSearching | .lteDisconnected | .mqttDisconnected | .mqttError =>
        s.service.onMqttDisconnected
      | .mqttConnected =>
        if s.reconnect.lteAvailable then s.service.onMqttConnected answers.now else s.service
      | .lteConnected => s.service
      | .mqttPublishResult serial result =>
        (s.service.publishResult answers.now (UInt32.ofNat serial) result).1 := by
  cases e with
  | lteSearching => simp [handleEvent, lteLost, ledStatusSet]
  | lteDisconnected => simp [handleEvent, lteLost, ledStatusSet]
  | lteConnected =>
    simp only [handleEvent, applyReconnect_service]
    split <;> rfl
  | mqttConnected =>
    simp only [handleEvent]
    rcases h : s.reconnect.lteAvailable <;> simp [ledStatusSet]
  | mqttDisconnected =>
    simp only [handleEvent, applyReconnect_service]
    split
    · rfl
    split <;> rfl
  | mqttError =>
    simp only [handleEvent, applyReconnect_service]
    split <;> rfl
  | mqttPublishResult serial result =>
    simp only [handleEvent]
    split
    · rfl
    split <;> rfl

theorem ofService_bdSeq {s : Service cfg} {a : Wakeup.Action} {r : Service cfg × List Empty}
    (hown : ofService a) (h : Wakeup.step s a = some r) : r.1.bdSeq = s.bdSeq := by
  cases a with
  | sample now reading =>
    obtain rfl := Option.some.inj h
    exact s.sample_bdSeq now reading
  | publishWork now timestampMs token answer =>
    simp only [Wakeup.step] at h
    split at h
    · obtain rfl := Option.some.inj h
      exact s.publishWorkHandler_bdSeq now timestampMs token answer
    · cases h
  | mqttConnected now => cases hown
  | mqttDisconnected => cases hown
  | publishResult now token result => cases hown

/-- A step ends a session, starts one, or leaves both variables alone. -/
theorem step_service {s s' : App cfg} {a : Action} {es : List Event}
    (h : step rcfg s a = some (s', es)) :
    (AppStep.closes ⟨s, a, s', es⟩ ∧ AppStep.opens ⟨s, a, s', es⟩ = false ∧
      s'.service = s.service.onMqttDisconnected) ∨
    (AppStep.closes ⟨s, a, s', es⟩ = false ∧ AppStep.opens ⟨s, a, s', es⟩ ∧
      ∃ now, s'.service = s.service.onMqttConnected now) ∨
    AppStep.closes ⟨s, a, s', es⟩ = false ∧ AppStep.opens ⟨s, a, s', es⟩ = false ∧
      s'.service.bdSeq = s.service.bdSeq ∧
      s'.service.mqttConnected = s.service.mqttConnected := by
  unfold AppStep.closes AppStep.opens AppStep.handles
  cases a with
  | handle answers =>
    simp only [step] at h
    split at h
    · cases h
    rename_i e rest hq
    obtain ⟨event, attempt⟩ := e
    obtain rfl : _ = s' := congrArg Prod.fst (Option.some.inj h)
    have hservice := @handleEvent_service _ rcfg { s with queue := rest } answers event
    cases event with
    | lteSearching | lteDisconnected | mqttDisconnected | mqttError =>
      exact .inl ⟨by simp [hq], by simp [hq], hservice⟩
    | lteConnected =>
      exact .inr (.inr ⟨by simp [hq], by simp [hq], congrArg Service.bdSeq hservice,
        congrArg Service.mqttConnected hservice⟩)
    | mqttConnected =>
      rcases hlte : s.reconnect.lteAvailable
      · have hsame := hservice.trans (if_neg (by simp [hlte]))
        exact .inr (.inr ⟨by simp [hq], by simp [hq], congrArg Service.bdSeq hsame,
          congrArg Service.mqttConnected hsame⟩)
      · have hnew := hservice.trans (if_pos (by exact hlte))
        exact .inr (.inl ⟨by simp [hq], by simp [hq], _, hnew⟩)
    | mqttPublishResult serial result =>
      exact .inr (.inr ⟨by simp [hq], by simp [hq], by simp [hservice], by simp [hservice]⟩)
  | service a =>
    simp only [step] at h
    split at h
    · rename_i hown
      obtain ⟨r, hr, heq⟩ := Option.map_eq_some_iff.mp h
      obtain ⟨rfl, -⟩ := Prod.mk.inj heq
      exact .inr (.inr ⟨rfl, rfl, ofService_bdSeq hown hr, ofService_mqttConnected hown hr⟩)
    · cases h
  | reconnectWork answers =>
    simp only [step] at h
    split at h
    · obtain ⟨rfl, -⟩ := Prod.mk.inj (Option.some.inj h)
      have hservice := @applyReconnect_service _ rcfg { s with reconnectWork := .idle } answers
        .timer
      exact .inr (.inr ⟨rfl, rfl, congrArg _ hservice, congrArg _ hservice⟩)
    · cases h
  | expire =>
    simp only [step] at h
    split at h
    · obtain ⟨rfl, -⟩ := Prod.mk.inj (Option.some.inj h)
      exact .inr (.inr ⟨rfl, rfl, rfl, rfl⟩)
    · cases h
  | _ =>
    obtain ⟨rfl, -⟩ := Prod.mk.inj (Option.some.inj h)
    exact .inr (.inr ⟨rfl, rfl, rfl, rfl⟩)

/-! ## The balance -/

/-- What the service says about the steps so far. -/
structure Counted (s : App cfg) (ρ : List (AppStep cfg)) : Prop where
  losses : s.service.bdSeq.toNat = ρ.countP AppStep.closes % 256
  sessions : ρ.countP AppStep.opens + ρ.countP AppStep.closesNothing =
    ρ.countP AppStep.closes + ρ.countP AppStep.reopens + s.service.mqttConnected.toNat

theorem Counted.step {s s' : App cfg} {ρ : List (AppStep cfg)} {a : Action} {es : List Event}
    (h : Counted s ρ) (hs : App.step rcfg s a = some (s', es)) :
    Counted s' (ρ ++ [⟨s, a, s', es⟩]) := by
  obtain ⟨hlosses, hsessions⟩ := h
  rcases step_service hs with ⟨hcloses, hopens, hservice⟩ | ⟨hcloses, hopens, now, hservice⟩ |
    ⟨hcloses, hopens, hbd, hconnected⟩
  · constructor
    · simp only [List.countP_append, List.countP_singleton, hcloses, if_true, hservice,
        Service.onMqttDisconnected_bdSeq, sparkplugNextSeq_toNat, hlosses]
      omega
    · rcases hon : s.service.mqttConnected <;>
        simp [AppStep.closesNothing, AppStep.reopens, hcloses, hopens, hservice, hon] at hsessions ⊢ <;>
        omega
  · constructor
    · simpa [hcloses, hservice] using hlosses
    · rcases hon : s.service.mqttConnected <;>
        simp [AppStep.closesNothing, AppStep.reopens, hcloses, hopens, hservice, hon] at hsessions ⊢ <;>
        omega
  · constructor
    · simpa [hcloses, hbd] using hlosses
    · simpa [AppStep.closesNothing, AppStep.reopens, hcloses, hopens, hconnected] using hsessions

theorem Counted.of_run {s : App cfg} {ρ : List (AppStep cfg)}
    (hr : (application cfg rcfg).record.Run anyStep s ρ) : Counted s ρ := by
  refine hr.invariant (I := fun s ρ => Counted s ρ) ⟨rfl, rfl⟩ ?_
  intro s ρ a s' xs h _ hs
  obtain ⟨es, hstep, rfl⟩ := System.record_step hs
  exact h.step hstep

/-- **What `bd_seq` counts.** In every run, an NBIRTH submitted in the `k`-th
session carries `k - 1`, modulo 256, if and only if the reports of a lost
connection that found no session and the connections that found one are equally
many so far, modulo 256. -/
theorem bdSeq_counts_connections_iff {s : App cfg} {ρ : List (AppStep cfg)}
    (hr : (application cfg rcfg).record.Run anyStep s ρ) :
    ∀ ρ₁ x ρ₂ submission, ρ = ρ₁ ++ x :: ρ₂ → AppStep.submission x = some submission →
      submission.publication.type = .nbirth →
      1 ≤ ρ₁.countP AppStep.opens ∧
      (submission.publication.bdSeq.toNat = (ρ₁.countP AppStep.opens - 1) % 256 ↔
        ρ₁.countP AppStep.closesNothing % 256 = ρ₁.countP AppStep.reopens % 256) := by
  intro ρ₁ x ρ₂ submission heq hx htype
  obtain ⟨hrun, -, -, -⟩ := hr.split heq
  obtain ⟨hlosses, hsessions⟩ := Counted.of_run hrun
  obtain ⟨timestampMs, hbuffer⟩ := AppStep.of_submission hx
  obtain ⟨hon, -, hkind⟩ := Service.publishBuffer_some hbuffer
  have hbd : submission.publication.bdSeq = x.before.service.bdSeq := by
    rcases hkind with ⟨-, hbirth⟩ | ⟨-, hdata⟩
    · exact (nbirthPublication_ok (Service.publishBirth_ok hbirth).1).2.2.1
    · exact (ndataPublication_ok (Service.publishData_ok hdata).2.2.1).2.2.1
  have hnothing : ρ₁.countP AppStep.closesNothing ≤ ρ₁.countP AppStep.closes :=
    List.countP_mono_left fun y _ hy => by
      simp only [AppStep.closesNothing, Bool.and_eq_true] at hy
      exact hy.1
  have hon : x.before.service.mqttConnected = true := hon
  rw [hon, Bool.toNat_true] at hsessions
  rw [hbd, hlosses]
  refine ⟨by omega, ?_⟩
  constructor <;> intro h <;> omega

/-- The handlers of the modem's and the client's events, and then the publish work. -/
def publishAfter (events : List AppEvent) : List Action :=
  events.flatMap (fun e => [.post e, .handle ⟨0, .ok (), {}⟩]) ++
    [.service (.publishWork 0 0 (some 1) ⟨.ok (), nofun⟩)]

/-- LTE, then MQTT. -/
def firstConnection : List Action := publishAfter [.lteConnected, .mqttConnected]

theorem firstConnection_replays :
    ((application singleConfig defaultReconnect).record.replay anyStep
      (application singleConfig defaultReconnect).start [] firstConnection).isSome := by
  decide +kernel

theorem firstConnection_submits :
    (AppStep.submission (((application singleConfig defaultReconnect).record.replay anyStep
      (application singleConfig defaultReconnect).start []
      firstConnection).get firstConnection_replays).2[4]).isSome := by
  decide +kernel

theorem bdSeq_counts_connections_iff_firstConnection :
    ∃ s ρ, ∃ submission : Submission,
      (application singleConfig defaultReconnect).record.Run anyStep s ρ ∧
      submission.publication.type = .nbirth ∧ submission.publication.bdSeq.toNat = 0 := by
  have hr := System.Run.of_isSome_at firstConnection_replays 4 (by decide +kernel)
  have hsent := (Option.some_get firstConnection_submits).symm
  obtain ⟨-, hiff⟩ := bdSeq_counts_connections_iff hr _ _ _ _ rfl hsent (by decide +kernel)
  refine ⟨_, _, (AppStep.submission _).get firstConnection_submits, hr, by decide +kernel, ?_⟩
  exact (hiff.mpr (by decide +kernel)).trans (by decide +kernel)

/-- The modem searches before it registers. -/
def searchFirst : List Action := publishAfter [.lteSearching, .lteConnected, .mqttConnected]

theorem searchFirst_replays :
    ((application singleConfig defaultReconnect).record.replay anyStep
      (application singleConfig defaultReconnect).start [] searchFirst).isSome := by
  decide +kernel

theorem searchFirst_submits :
    (AppStep.submission (((application singleConfig defaultReconnect).record.replay anyStep
      (application singleConfig defaultReconnect).start []
      searchFirst).get searchFirst_replays).2[6]).isSome := by
  decide +kernel

/-- **The first session carries bdSeq 1** after that. -/
theorem search_counts :
    ¬∀ s ρ, (application singleConfig defaultReconnect).record.Run anyStep s ρ →
      ∀ ρ₁ x ρ₂ submission, ρ = ρ₁ ++ x :: ρ₂ → AppStep.submission x = some submission →
        submission.publication.type = .nbirth →
        submission.publication.bdSeq.toNat = (ρ₁.countP AppStep.opens - 1) % 256 := by
  intro h
  have hr := System.Run.of_isSome_at searchFirst_replays 6 (by decide +kernel)
  have hsent := (Option.some_get searchFirst_submits).symm
  have := h _ _ hr _ _ _ _ rfl hsent (by decide +kernel)
  revert this
  decide +kernel

end App

end Aitsm.Original
