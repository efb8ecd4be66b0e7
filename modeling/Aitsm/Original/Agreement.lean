import Aitsm.Original.Controller
import Aitsm.Original.Led
import Aitsm.Original.Wakeup

/-!
# What the modules of the application agree on

The controller, the reconnect state machine, the measurement service, the MQTT
client's gate and the LED each remember something about the connection. Here a
handler of the system workqueue is one step (`handleEvent`,
`reconnectWorkHandler`), and everything the other threads do is an event they
post, in any order. Between two handlers the five memories agree (`Agree`).

A call of `aitsm_mqtt_connect` is answered in any way. Each call has a number,
and the MQTT_ERROR that a failed one posts carries it.
-/

namespace Aitsm.Original

open Library
open Library.System (anyStep)

/-- A work item with a timer in front of it. -/
inductive DelayableWork where
  | idle
  | scheduled (delaySeconds : UInt32)
  | queued
  deriving DecidableEq

/-- `struct aitsm_app_event`; `attempt` is the call of `aitsm_mqtt_connect` whose
failure it reports. -/
structure QueuedEvent where
  event : AppEvent
  attempt : Option ℕ := none

/-- What the application's modules remember. -/
structure App (cfg : Config) where
  reconnect : ReconnectState
  reconnectWork : DelayableWork := .idle
  service : Service cfg := {}
  led : Led
  /-- `lte_available` of `mqtt_client.c` -/
  lteAvailable : Bool := false
  /-- `aitsm_app_event_queue` -/
  queue : List QueuedEvent := []
  /-- the calls of `aitsm_mqtt_connect` so far -/
  attempts : ℕ := 0
  /-- the last one was accepted -/
  accepted : Bool := false

namespace App

variable {cfg : Config} (rcfg : ReconnectConfig)

/-- What the environment decides about one handler: the time, what
`aitsm_mqtt_connect` answers when LTE is up, and which PWM writes of the LED succeed. -/
structure Answers where
  now : ℕ
  connect : Except Errno Unit
  led : Pwm

inductive Event where
  /-- `aitsm_mqtt_connect` is called, and finds this in `lte_available` -/
  | connect (lteAvailable : Bool)

/-- `aitsm_mqtt_connect`, and the MQTT_ERROR that `apply_reconnect` posts when it fails. -/
def mqttConnect (s : App cfg) (answers : Answers) : App cfg × List Event :=
  let s := { s with attempts := s.attempts + 1 }
  match if s.lteAvailable then answers.connect else .error .enetdown with
  | .ok () => ({ s with accepted := true }, [.connect s.lteAvailable])
  | .error _ =>
    ({ s with
        accepted := false
        queue := s.queue ++ [{ event := .mqttError, attempt := some s.attempts }] },
      [.connect s.lteAvailable])

/-- What `apply_reconnect` does with the action. -/
def perform (s : App cfg) (answers : Answers) : ReconnectAction → App cfg × List Event
  | .none => (s, [])
  | .connect => s.mqttConnect answers
  | .schedule delaySeconds => ({ s with reconnectWork := .scheduled delaySeconds }, [])
  | .cancel => ({ s with reconnectWork := .idle }, [])

/-- `apply_reconnect`. -/
def applyReconnect (s : App cfg) (answers : Answers) (e : ReconnectEvent) : App cfg × List Event :=
  let r := reconnectHandle rcfg s.reconnect e
  { s with reconnect := r.1 }.perform answers r.2

/-- `reconnect_work_handler`. -/
def reconnectWorkHandler (s : App cfg) (answers : Answers) : App cfg × List Event :=
  s.applyReconnect rcfg answers .timer

/-- `led_status_set`. -/
def ledStatusSet (s : App cfg) (answers : Answers) (status : LedStatus) : App cfg :=
  { s with led := s.led.set answers.led status }

/-- `lte_lost`. -/
def lteLost (s : App cfg) (answers : Answers) : App cfg × List Event :=
  { s with lteAvailable := false, service := s.service.onMqttDisconnected }.applyReconnect
    rcfg answers .lteDown

/-- `handle_event`. What `aitsm_mqtt_disconnect` leads to is posted later. -/
def handleEvent (s : App cfg) (answers : Answers) : AppEvent → App cfg × List Event
  | .lteSearching =>
    let r := s.lteLost rcfg answers
    (r.1.ledStatusSet answers .searching, r.2)
  | .lteConnected =>
    let s := { s with lteAvailable := true }
    let s := if s.reconnect.phase ≠ .connected then s.ledStatusSet answers .lteConnected else s
    s.applyReconnect rcfg answers .lteUp
  | .lteDisconnected =>
    let r := s.lteLost rcfg answers
    (r.1.ledStatusSet answers .disconnected, r.2)
  | .mqttConnected =>
    if !s.reconnect.lteAvailable then (s, [])
    else
      let r := s.applyReconnect rcfg answers .mqttUp
      let s := r.1.ledStatusSet answers .mqttConnected
      ({ s with service := s.service.onMqttConnected answers.now }, r.2)
  | .mqttDisconnected =>
    let s :=
      if !s.reconnect.lteAvailable then s.ledStatusSet answers .disconnected
      else if s.reconnect.phase ≠ .waiting then s.ledStatusSet answers .lteConnected
      else s
    { s with service := s.service.onMqttDisconnected }.applyReconnect rcfg answers .failure
  | .mqttError =>
    let s := { s with service := s.service.onMqttDisconnected }
    let s := if s.reconnect.lteAvailable then s.ledStatusSet answers .error else s
    s.applyReconnect rcfg answers .failure
  | .mqttPublishResult serial result =>
    let r := s.service.publishResult answers.now (UInt32.ofNat serial) result
    let s := { s with service := r.1 }
    if !r.2.1 then (s, [])
    else if result = 0 then (s.ledStatusSet answers .publishOk, [])
    else (s.ledStatusSet answers .publishError, [])

inductive Action where
  /-- another thread posts an event -/
  | post (e : AppEvent)
  /-- the next event is handled -/
  | handle (answers : Answers)
  /-- the reconnect timer expires -/
  | expire
  | reconnectWork (answers : Answers)
  /-- a measurement is due, or `publish_work` runs -/
  | service (a : Wakeup.Action)
  | blinkWork (busy : Bool) (pwm : Pwm)
  | transientWork (busy : Bool) (pwm : Pwm)

/-- The controller is told of connections; the service works by itself otherwise. -/
def ofService : Wakeup.Action → Bool
  | .sample _ _ | .publishWork _ _ _ _ => true
  | _ => false

/-- One action. -/
def step (s : App cfg) : Action → Option (App cfg × List Event)
  | .post e => some ({ s with queue := s.queue ++ [{ event := e }] }, [])
  | .handle answers =>
    match s.queue with
    | [] => none
    | e :: rest => some ({ s with queue := rest }.handleEvent rcfg answers e.event)
  | .expire =>
    match s.reconnectWork with
    | .scheduled _ => some ({ s with reconnectWork := .queued }, [])
    | _ => none
  | .reconnectWork answers =>
    if s.reconnectWork = .queued then
      some ({ s with reconnectWork := .idle }.reconnectWorkHandler rcfg answers)
    else none
  | .service a =>
    if ofService a then
      (Wakeup.step s.service a).map fun r => ({ s with service := r.1 }, [])
    else none
  | .blinkWork busy pwm => some ({ s with led := s.led.blink busy pwm }, [])
  | .transientWork busy pwm => some ({ s with led := s.led.transient busy pwm }, [])

end App

/-- The application on the system workqueue, as `main` leaves it to LTE. -/
def application (cfg : Config) (rcfg : ReconnectConfig) : System (App cfg) App.Action App.Event where
  start := { reconnect := reconnectInit rcfg, led := (Led.init {}).set {} .searching }
  step := App.step rcfg

namespace App

variable {cfg : Config} {rcfg : ReconnectConfig}

/-- The report of the last failed call of `aitsm_mqtt_connect` is queued. -/
def failureQueued (s : App cfg) : Prop :=
  ∃ e ∈ s.queue, e.event = .mqttError ∧ e.attempt = some s.attempts

/-- What holds between two handlers. -/
structure Agree (s : App cfg) : Prop where
  timer : s.reconnectWork ≠ .idle ↔ s.reconnect.phase = .waiting
  service : s.service.mqttConnected ↔ s.reconnect.phase = .connected
  led : s.led.stableStatus = .mqttConnected ↔ s.reconnect.phase = .connected
  offline : s.reconnect.phase = .offline ↔ s.reconnect.lteAvailable = false
  lte : s.lteAvailable = s.reconnect.lteAvailable
  attempt : s.reconnect.phase = .connecting → s.accepted ∨ s.failureQueued

@[simp] theorem ledIsTransient_stable :
    ledStatusIsTransient .searching = false ∧ ledStatusIsTransient .lteConnected = false ∧
    ledStatusIsTransient .mqttConnected = false ∧ ledStatusIsTransient .disconnected = false ∧
    ledStatusIsTransient .error = false ∧ ledStatusIsTransient .publishOk ∧
    ledStatusIsTransient .publishError := by
  decide

/-! ## The service's own work -/

@[simp] theorem requestPublish_mqttConnected (s : Service cfg) (now delayMs : ℕ) :
    (s.requestPublish now delayMs).mqttConnected = s.mqttConnected := by
  obtain ⟨work, hwork⟩ := Service.requestPublish_eq s now delayMs
  rw [hwork]

@[simp] theorem publishReturned_mqttConnected (s : Service cfg) (now : ℕ)
    (answer : Except Errno Unit) :
    (s.publishReturned now answer).mqttConnected = s.mqttConnected := by
  obtain ⟨work, hwork⟩ := Service.publishReturned_eq s now answer
  rw [hwork]

@[simp] theorem publishWorkHandler_mqttConnected (s : Service cfg) (now : ℕ)
    (timestampMs : UInt64) (token : Option UInt32) (answer : Except Errno Unit) :
    (s.publishWorkHandler now timestampMs token answer).mqttConnected = s.mqttConnected := by
  unfold Service.publishWorkHandler Service.submitted
  dsimp only
  split
  · simp [Service.publishStarted]
  · simp [Service.publishStarted]
  split
  · simp [Service.publishStarted]
  split <;> rfl

@[simp] theorem sample_mqttConnected (s : Service cfg) (now : ℕ)
    (reading : Except Errno Measurement) :
    (s.sample now reading).1.mqttConnected = s.mqttConnected := by
  obtain ⟨_, _, _, _, _, hsample, -⟩ := s.sample_eq now reading
  rw [hsample]

@[simp] theorem publishResult_mqttConnected (s : Service cfg) (now : ℕ) (token : UInt32)
    (result : ℤ) : (s.publishResult now token result).1.mqttConnected = s.mqttConnected := by
  unfold Service.publishResult Service.birthResult Service.dataResult
  split
  · rfl
  dsimp only
  split
  · split <;> simp
  split
  · split <;> simp
  · simp

@[simp] theorem onMqttConnected_mqttConnected (s : Service cfg) (now : ℕ) :
    (s.onMqttConnected now).mqttConnected := by
  simp [Service.onMqttConnected]

@[simp] theorem onMqttDisconnected_mqttConnected (s : Service cfg) :
    s.onMqttDisconnected.mqttConnected = false := rfl

theorem mqttConnect_agree {s : App cfg} (answers : Answers)
    (hwork : s.reconnectWork = .idle) (hphase : s.reconnect.phase = .connecting)
    (hservice : s.service.mqttConnected = false) (hled : s.led.stableStatus ≠ .mqttConnected)
    (hlte : s.reconnect.lteAvailable) (hgate : s.lteAvailable) :
    Agree (s.mqttConnect answers).1 := by
  unfold mqttConnect
  dsimp only
  split
  · constructor <;> simp_all
  · constructor <;> simp_all [failureQueued]

/-! ## What the state machine answers -/

theorem reconnectHandle_lteUp {r : ReconnectState} (h : r.lteAvailable = false) :
    reconnectHandle rcfg r .lteUp =
      ({ r with lteAvailable := true, phase := .connecting }, .connect) :=
  if_pos (by simp [h])

theorem reconnectHandle_lteUp_again {r : ReconnectState} (h : r.lteAvailable) :
    reconnectHandle rcfg r .lteUp = (r, .none) :=
  if_neg (by simp [h])

theorem reconnectHandle_mqttUp {r : ReconnectState} (h : r.lteAvailable) :
    reconnectHandle rcfg r .mqttUp =
      ({ r with phase := .connected, nextDelaySeconds := rcfg.initialDelaySeconds }, .cancel) :=
  if_pos h

theorem reconnectHandle_failure {r : ReconnectState}
    (h : r.lteAvailable ∧ r.phase ≠ .waiting) :
    reconnectHandle rcfg r .failure =
      ({ r with
          phase := .waiting
          nextDelaySeconds := min (r.nextDelaySeconds * 2) rcfg.maxDelaySeconds },
        .schedule r.nextDelaySeconds) :=
  if_pos h

theorem reconnectHandle_failure_ignored {r : ReconnectState}
    (h : ¬(r.lteAvailable ∧ r.phase ≠ .waiting)) :
    reconnectHandle rcfg r .failure = (r, .none) :=
  if_neg h

theorem reconnectHandle_timer {r : ReconnectState} (h : r.lteAvailable ∧ r.phase = .waiting) :
    reconnectHandle rcfg r .timer = ({ r with phase := .connecting }, .connect) :=
  if_pos h

theorem applyReconnect_of {s : App cfg} {answers : Answers} {e : ReconnectEvent}
    {reconnect : ReconnectState} {action : ReconnectAction}
    (h : reconnectHandle rcfg s.reconnect e = (reconnect, action)) :
    s.applyReconnect rcfg answers e = { s with reconnect := reconnect }.perform answers action := by
  unfold applyReconnect
  rw [h]

/-- An event the state machine ignores. -/
theorem applyReconnect_ignored {s : App cfg} {answers : Answers} {e : ReconnectEvent}
    (h : reconnectHandle rcfg s.reconnect e = (s.reconnect, .none)) :
    s.applyReconnect rcfg answers e = (s, []) :=
  applyReconnect_of h

/-- A failure always ends in a phase without an attempt. -/
theorem failure_agree {s : App cfg} (answers : Answers)
    (htimer : s.reconnectWork ≠ .idle ↔ s.reconnect.phase = .waiting)
    (hservice : s.service.mqttConnected = false) (hled : s.led.stableStatus ≠ .mqttConnected)
    (hoffline : s.reconnect.phase = .offline ↔ s.reconnect.lteAvailable = false)
    (hlte : s.lteAvailable = s.reconnect.lteAvailable) :
    Agree (s.applyReconnect rcfg answers .failure).1 := by
  by_cases h : s.reconnect.lteAvailable ∧ s.reconnect.phase ≠ .waiting
  · rw [applyReconnect_of (reconnectHandle_failure h), perform]
    constructor <;> simp_all
  · rw [applyReconnect_ignored (reconnectHandle_failure_ignored h)]
    have hphase : s.reconnect.phase = .offline ∨ s.reconnect.phase = .waiting := by
      by_cases hup : s.reconnect.lteAvailable
      · exact .inr (by simpa [hup] using h)
      · exact .inl (hoffline.mpr (by simpa using hup))
    rcases hphase with hphase | hphase <;> constructor <;> simp_all

theorem lteLost_agree {s : App cfg} (answers : Answers)
    (htimer : s.reconnectWork ≠ .idle ↔ s.reconnect.phase = .waiting)
    (hoffline : s.reconnect.phase = .offline ↔ s.reconnect.lteAvailable = false)
    (status : LedStatus) (hstatus : ledStatusIsTransient status = false)
    (hled : status ≠ .mqttConnected) :
    Agree ((s.lteLost rcfg answers).1.ledStatusSet answers status) := by
  unfold lteLost
  rw [applyReconnect_of rfl]
  by_cases hup : s.reconnect.lteAvailable
  · rw [if_pos hup, perform]
    constructor <;> simp_all [reconnectInit, ledStatusSet]
  · have hphase := hoffline.mpr (by simpa using hup)
    rw [if_neg hup, perform]
    constructor <;> simp_all [reconnectInit, ledStatusSet]

theorem Agree.lteConnected {s : App cfg} (ha : Agree s) (answers : Answers) :
    Agree (s.handleEvent rcfg answers .lteConnected).1 := by
  obtain ⟨htimer, hservice, hled, hoffline, hlte, hattempt⟩ := ha
  unfold handleEvent
  dsimp only
  by_cases hup : s.reconnect.lteAvailable
  · by_cases hphase : s.reconnect.phase = .connected
    · rw [if_neg (by simp [hphase]), applyReconnect_ignored (reconnectHandle_lteUp_again (by exact hup))]
      constructor <;> simp_all
    · rw [if_pos hphase, applyReconnect_ignored (reconnectHandle_lteUp_again (by exact hup))]
      constructor <;> simp_all [failureQueued, ledStatusSet]
  · have hphase := hoffline.mpr (by simpa using hup)
    rw [if_pos (by simp [hphase]), applyReconnect_of (reconnectHandle_lteUp (by simpa [ledStatusSet] using hup)),
      perform]
    apply mqttConnect_agree <;> simp_all [ledStatusSet]

theorem Agree.mqttConnected {s : App cfg} (ha : Agree s) (answers : Answers) :
    Agree (s.handleEvent rcfg answers .mqttConnected).1 := by
  unfold handleEvent
  by_cases hup : s.reconnect.lteAvailable
  · obtain ⟨htimer, hservice, hled, hoffline, hlte, hattempt⟩ := ha
    rw [if_neg (by simp [hup]), applyReconnect_of (reconnectHandle_mqttUp hup), perform]
    constructor <;> simp_all [ledStatusSet]
  · rw [if_pos (by simp [hup])]
    exact ha

theorem Agree.mqttPublishResult {s : App cfg} (ha : Agree s) (answers : Answers) (serial : ℕ)
    (result : ℤ) : Agree (s.handleEvent rcfg answers (.mqttPublishResult serial result)).1 := by
  obtain ⟨htimer, hservice', hled, hoffline, hlte, hattempt⟩ := ha
  unfold handleEvent
  dsimp only
  split
  · constructor <;> simp_all [failureQueued]
  split <;> constructor <;> simp_all [failureQueued, ledStatusSet]

/-- Between two reports of the controller the service does not change its mind. -/
theorem ofService_mqttConnected {s : Service cfg} {a : Wakeup.Action} {r : Service cfg × List Empty}
    (hown : ofService a) (h : Wakeup.step s a = some r) : r.1.mqttConnected = s.mqttConnected := by
  cases a with
  | sample now reading =>
    obtain rfl := Option.some.inj h
    exact sample_mqttConnected s now reading
  | publishWork now timestampMs token answer =>
    simp only [Wakeup.step] at h
    split at h
    · obtain rfl := Option.some.inj h
      exact publishWorkHandler_mqttConnected s now timestampMs token answer
    · cases h
  | mqttConnected now => cases hown
  | mqttDisconnected => cases hown
  | publishResult now token result => cases hown

/-! ## Every handler keeps the agreement -/

theorem Agree.handleEvent {s : App cfg} (ha : Agree s) {e : QueuedEvent} {rest : List QueuedEvent}
    (hq : s.queue = e :: rest) (answers : Answers) :
    Agree ({ s with queue := rest }.handleEvent rcfg answers e.event).1 := by
  -- an event other than MQTT_ERROR leaves the report of a failure in the queue
  have hrest : e.event ≠ .mqttError → Agree { s with queue := rest } := by
    intro hne
    refine ⟨ha.timer, ha.service, ha.led, ha.offline, ha.lte, fun hphase => ?_⟩
    rcases ha.attempt hphase with haccepted | ⟨f, hf, herror, hattempt⟩
    · exact .inl haccepted
    · refine .inr ⟨f, ?_, herror, hattempt⟩
      rw [hq] at hf
      rcases List.mem_cons.mp hf with rfl | hf
      · exact absurd herror hne
      · exact hf
  cases he : e.event with
  | lteSearching =>
    exact lteLost_agree answers (by exact ha.timer) (by exact ha.offline) .searching rfl (by simp)
  | lteDisconnected =>
    exact lteLost_agree answers (by exact ha.timer) (by exact ha.offline) .disconnected rfl (by simp)
  | lteConnected => exact (hrest (by simp [he])).lteConnected answers
  | mqttConnected => exact (hrest (by simp [he])).mqttConnected answers
  | mqttPublishResult serial result =>
    exact (hrest (by simp [he])).mqttPublishResult answers serial result
  | mqttDisconnected =>
    obtain ⟨htimer, hservice, hled, hoffline, hlte, -⟩ := ha
    simp only [App.handleEvent]
    split
    · apply failure_agree <;> simp_all [ledStatusSet]
    split
    · apply failure_agree <;> simp_all [ledStatusSet]
    · apply failure_agree <;> simp_all
  | mqttError =>
    obtain ⟨htimer, hservice, hled, hoffline, hlte, -⟩ := ha
    simp only [App.handleEvent]
    split
    · apply failure_agree <;> simp_all [ledStatusSet]
    · have hphase := hoffline.mpr (by simp_all)
      apply failure_agree <;> simp_all

theorem Agree.reconnectWorkHandler {s : App cfg} (ha : Agree s) (hwork : s.reconnectWork = .queued)
    (answers : Answers) :
    Agree ({ s with reconnectWork := .idle }.reconnectWorkHandler rcfg answers).1 := by
  obtain ⟨htimer, hservice, hled, hoffline, hlte, -⟩ := ha
  have hphase : s.reconnect.phase = .waiting := htimer.mp (by simp [hwork])
  have hup : s.reconnect.lteAvailable := by
    by_contra hdown
    rw [hphase] at hoffline
    exact absurd (hoffline.mpr (by simpa using hdown)) (by simp)
  unfold App.reconnectWorkHandler
  rw [applyReconnect_of (reconnectHandle_timer (by exact ⟨hup, hphase⟩)), perform]
  apply mqttConnect_agree <;> simp_all

theorem step_agree {s s' : App cfg} {a : Action} {es : List Event} (ha : Agree s)
    (h : step rcfg s a = some (s', es)) : Agree s' := by
  cases a with
  | post e =>
    obtain ⟨rfl, -⟩ := Prod.mk.inj (Option.some.inj h)
    refine ⟨ha.timer, ha.service, ha.led, ha.offline, ha.lte, fun hphase => ?_⟩
    exact (ha.attempt hphase).imp_right fun ⟨f, hf, hboth⟩ =>
      ⟨f, List.mem_append_left _ hf, hboth⟩
  | handle answers =>
    simp only [step] at h
    split at h
    · cases h
    · rename_i e rest hq
      obtain rfl : _ = s' := congrArg Prod.fst (Option.some.inj h)
      exact ha.handleEvent hq answers
  | expire =>
    simp only [step] at h
    split at h
    · rename_i delaySeconds hwork
      obtain ⟨rfl, -⟩ := Prod.mk.inj (Option.some.inj h)
      exact ⟨by simpa [hwork] using ha.timer, ha.service, ha.led, ha.offline, ha.lte, ha.attempt⟩
    · cases h
  | reconnectWork answers =>
    simp only [step] at h
    split at h
    · rename_i hwork
      obtain rfl : _ = s' := congrArg Prod.fst (Option.some.inj h)
      exact ha.reconnectWorkHandler hwork answers
    · cases h
  | service a =>
    simp only [step] at h
    split at h
    · rename_i hown
      obtain ⟨r, hr, heq⟩ := Option.map_eq_some_iff.mp h
      obtain ⟨rfl, -⟩ := Prod.mk.inj heq
      have hsame := ofService_mqttConnected hown hr
      exact ⟨ha.timer, by simpa [hsame] using ha.service, ha.led, ha.offline, ha.lte, ha.attempt⟩
    · cases h
  | blinkWork busy pwm =>
    obtain ⟨rfl, -⟩ := Prod.mk.inj (Option.some.inj h)
    exact ⟨ha.timer, ha.service, by simpa using ha.led, ha.offline, ha.lte, ha.attempt⟩
  | transientWork busy pwm =>
    obtain ⟨rfl, -⟩ := Prod.mk.inj (Option.some.inj h)
    exact ⟨ha.timer, ha.service, by simpa using ha.led, ha.offline, ha.lte, ha.attempt⟩

theorem Agree.of_run {s : App cfg} {τ : List Event}
    (hr : (application cfg rcfg).Run anyStep s τ) : Agree s :=
  hr.invariant_state (I := Agree)
    (by constructor <;> simp [application, reconnectInit])
    fun _ _ _ _ _ ha _ hs => step_agree ha hs

/-! ## When a connection is attempted -/

/-- The call finds LTE up. -/
def Event.gated : Event → Prop
  | .connect lteAvailable => lteAvailable

/-- The state machine asks for a connection when LTE comes up or is up. -/
theorem reconnectHandle_connect {r : ReconnectState} {e : ReconnectEvent}
    (h : (reconnectHandle rcfg r e).2 = .connect) :
    e = .lteUp ∨ e = .timer ∧ r.lteAvailable := by
  cases e with
  | lteUp => exact .inl rfl
  | lteDown =>
    simp only [reconnectHandle] at h
    split at h <;> cases h
  | mqttUp =>
    simp only [reconnectHandle] at h
    split at h <;> cases h
  | failure =>
    simp only [reconnectHandle] at h
    split at h <;> cases h
  | timer =>
    simp only [reconnectHandle] at h
    split at h
    · rename_i hup
      exact .inr ⟨rfl, hup.1⟩
    · cases h

theorem mqttConnect_gated {s : App cfg} (answers : Answers) (hup : s.lteAvailable) :
    ∀ e ∈ (s.mqttConnect answers).2, e.gated := by
  unfold mqttConnect
  dsimp only
  split <;> simp [Event.gated, hup]

theorem applyReconnect_gated {s : App cfg} (answers : Answers) {e : ReconnectEvent}
    (h : e = .lteUp ∨ e = .timer ∧ s.reconnect.lteAvailable → s.lteAvailable) :
    ∀ x ∈ (s.applyReconnect rcfg answers e).2, x.gated := by
  unfold applyReconnect perform
  dsimp only
  split
  · simp
  · rename_i hconnect
    exact mqttConnect_gated answers (h (reconnectHandle_connect hconnect))
  · simp
  · simp

theorem handleEvent_gated (s : App cfg) (answers : Answers) (e : AppEvent) :
    ∀ x ∈ (s.handleEvent rcfg answers e).2, x.gated := by
  cases e with
  | lteSearching => exact applyReconnect_gated answers (by simp)
  | lteDisconnected => exact applyReconnect_gated answers (by simp)
  | lteConnected =>
    refine applyReconnect_gated answers fun _ => ?_
    split <;> rfl
  | mqttConnected =>
    simp only [handleEvent]
    split
    · simp
    · exact applyReconnect_gated answers (by simp)
  | mqttDisconnected => exact applyReconnect_gated answers (by simp)
  | mqttError => exact applyReconnect_gated answers (by simp)
  | mqttPublishResult serial result =>
    simp only [handleEvent]
    split
    · simp
    split <;> simp

theorem step_gated {s s' : App cfg} {a : Action} {es : List Event} (ha : Agree s)
    (h : step rcfg s a = some (s', es)) : ∀ e ∈ es, e.gated := by
  cases a with
  | handle answers =>
    simp only [step] at h
    split at h
    · cases h
    · obtain rfl : _ = es := congrArg Prod.snd (Option.some.inj h)
      exact handleEvent_gated _ answers _
  | reconnectWork answers =>
    simp only [step] at h
    split at h
    · obtain rfl : _ = es := congrArg Prod.snd (Option.some.inj h)
      refine applyReconnect_gated answers fun hup => ?_
      rcases hup with hup | ⟨-, hup⟩
      · cases hup
      · exact ha.lte.trans hup
    · cases h
  | service a =>
    simp only [step] at h
    split at h
    · obtain ⟨r, -, heq⟩ := Option.map_eq_some_iff.mp h
      obtain ⟨-, rfl⟩ := Prod.mk.inj heq
      simp
    · cases h
  | expire =>
    simp only [step] at h
    split at h
    · obtain ⟨-, rfl⟩ := Prod.mk.inj (Option.some.inj h)
      simp
    · cases h
  | post e =>
    obtain ⟨-, rfl⟩ := Prod.mk.inj (Option.some.inj h)
    simp
  | blinkWork busy pwm =>
    obtain ⟨-, rfl⟩ := Prod.mk.inj (Option.some.inj h)
    simp
  | transientWork busy pwm =>
    obtain ⟨-, rfl⟩ := Prod.mk.inj (Option.some.inj h)
    simp

/-- **The application agrees with itself** after every handler, in whatever order
events arrive and the reconnect timer runs; and it never asks for a connection
without LTE. -/
theorem application_agrees {s : App cfg} {τ : List Event}
    (hr : (application cfg rcfg).Run anyStep s τ) :
    (s.reconnectWork ≠ .idle ↔ s.reconnect.phase = .waiting) ∧
    ((s.service.mqttConnected ↔ s.reconnect.phase = .connected) ∧
      (s.led.stableStatus = .mqttConnected ↔ s.reconnect.phase = .connected)) ∧
    ((s.reconnect.phase = .offline ↔ s.reconnect.lteAvailable = false) ∧
      s.lteAvailable = s.reconnect.lteAvailable) ∧
    (s.reconnect.phase = .connecting → s.accepted ∨ s.failureQueued) ∧
    ∀ e ∈ τ, e.gated := by
  have ha := Agree.of_run hr
  refine ⟨ha.timer, ⟨ha.service, ha.led⟩, ⟨ha.offline, ha.lte⟩, ha.attempt, ?_⟩
  exact hr.invariant_with (J := fun s _ => Agree s) (I := fun _ τ => ∀ e ∈ τ, e.gated)
    Agree.of_run (by simp) fun _ _ _ _ _ ha hτ _ hs e he =>
      (List.mem_append.mp he).elim (hτ e) (step_gated ha hs e)

/-- LTE comes up, the first attempt fails, and the second is accepted. -/
def secondAttempt : List Action :=
  [.post .lteConnected, .handle ⟨0, .error .ebusy, {}⟩, .handle ⟨0, .ok (), {}⟩, .expire,
    .reconnectWork ⟨5000, .ok (), {}⟩, .post .mqttConnected, .handle ⟨6000, .ok (), {}⟩]

theorem secondAttempt_replays :
    ((application singleConfig defaultReconnect).replay anyStep
      (application singleConfig defaultReconnect).start [] secondAttempt).isSome := by
  decide +kernel

theorem application_agrees_secondAttempt :
    ∃ s τ, (application singleConfig defaultReconnect).Run anyStep s τ ∧
      s.reconnect.phase = .connected ∧ s.service.mqttConnected :=
  ⟨_, _, .of_isSome secondAttempt_replays, by decide +kernel,
    (application_agrees (.of_isSome secondAttempt_replays)).2.1.1.mpr (by decide +kernel)⟩

end App

end Aitsm.Original
