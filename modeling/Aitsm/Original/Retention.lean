import Aitsm.Original.Calls
import Aitsm.Original.Service

/-!
# The Original drops no measurement it has not delivered

The measurement service on top of the client, with the queue of publish results
between them. The functions of the service are single steps of the system
workqueue, which runs them only when it is not inside the client; a submission
is the exception, and waits in `submission` while the client works on it step by
step.

The claim has two halves. What left the buffer and what is still in it make up,
in order, what was added (`conserved`). And what left was in a payload that the
client wrote and the broker acknowledged (`Confirmed`): the token of the result
is the token of the publication in flight, because tokens do not wrap around
while a result is queued (`NoWrap`), and a result 0 for a token proves that its
message was acknowledged (`Client.Traced`).
-/

namespace Aitsm.Original

open Library Library.Wire
open Library.System (EachEvent anyStep)

/-- The message a submission hands to the client. -/
def Submission.message (submission : Submission) : Message :=
  { topic := submission.topic, payload := submission.publication.payload }

namespace Retention

variable {cfg : Config} {ccfg : ClientConfig}

/-- The service, the client, and what is on its way between them. -/
structure State (cfg : Config) where
  service : Service cfg := {}
  client : Client := {}
  /-- handed to the client, which has not returned yet -/
  submission : Option Submission := none
  /-- the publish results in `aitsm_app_event_queue` -/
  results : List (ℕ × ℤ) := []
  uptimeMs : ℕ := 0

inductive Action where
  /-- a step of the client, except for the call the service makes -/
  | client (a : Client.Action)
  /-- `aitsm_measurement_service_mqtt_connected` -/
  | connected
  /-- `aitsm_measurement_service_mqtt_disconnected` -/
  | disconnected
  /-- `publish_work_handler` -/
  | publishWork (timestampMs : UInt64)
  /-- `measurement_work_handler` -/
  | sample (reading : Except Errno Measurement)
  /-- the oldest queued result is handled -/
  | publishResult
  | elapse (ms : ℕ)

inductive Event where
  | client (e : Client.Event)
  /-- the client accepted its `serial`-th submission -/
  | submitted (serial : ℕ) (submission : Submission)
  /-- `aitsm_data_transmission_add` accepted it -/
  | added (m : Measurement)
  | committed (ms : List Measurement)
  /-- `aitsm_data_transmission_commit` returned an error -/
  | commitRefused (err : Errno)

/-- The system workqueue is between two functions. -/
def free (s : State cfg) : Prop := s.client.caller = .idle ∧ s.submission = none

instance (s : State cfg) : Decidable (free s) := by
  unfold free
  exact decidable_of_iff (s.client.caller = .idle ∧ s.submission.isNone) (by simp)

/-- What an event of the client means for the service. -/
def observe (s : State cfg) : Client.Event → State cfg × List Event
  | .accepted serial m =>
    match s.submission with
    | some submission =>
      ({ s with
          submission := none
          service := s.service.submitted s.uptimeMs submission (some (UInt32.ofNat serial))
            (.ok ()) },
        [.client (.accepted serial m), .submitted serial submission])
    | none => (s, [.client (.accepted serial m)])
  | .refused err serial =>
    match s.submission with
    | some submission =>
      ({ s with
          submission := none
          service := s.service.submitted s.uptimeMs submission (serial.map UInt32.ofNat)
            (.error err) },
        [.client (.refused err serial)])
    | none => (s, [.client (.refused err serial)])
  | .posted (.mqttPublishResult serial result) =>
    ({ s with results := s.results ++ [(serial, result)] },
      [.client (.posted (.mqttPublishResult serial result))])
  | e => (s, [.client e])

/-- The events of one step of the client. -/
def observeAll (s : State cfg) : List Client.Event → State cfg × List Event
  | [] => (s, [])
  | e :: es =>
    let r := observeAll (observe s e).1 es
    (r.1, (observe s e).2 ++ r.2)

/-- `publish_work_handler`, up to the point where the client has been called. -/
def publishWork (ccfg : ClientConfig) (s : State cfg) (timestampMs : UInt64) :
    State cfg × List Event :=
  let service := s.service.publishStarted
  match service.publishBuffer timestampMs with
  | .ok none => ({ s with service := service }, [])
  | .error err => ({ s with service := service.publishReturned s.uptimeMs (.error err) }, [])
  | .ok (some submission) =>
    let r := s.client.callPublish ccfg submission.message
    observeAll { s with service := service, client := r.1, submission := some submission } r.2

/-- What a result does to the buffer, as events. -/
def outcomeEvents : Service.Outcome → List Event
  | .none => []
  | .committed ms => [.committed ms]
  | .refused err => [.commitRefused err]

/-- One action. -/
def step (ccfg : ClientConfig) (s : State cfg) : Action → Option (State cfg × List Event)
  | .client (.callPublish _) => none
  | .client a =>
    match s.client.step ccfg a with
    | some (c, es) => some (observeAll { s with client := c } es)
    | none => none
  | .connected =>
    if free s then some ({ s with service := s.service.onMqttConnected s.uptimeMs }, []) else none
  | .disconnected =>
    if free s then some ({ s with service := s.service.onMqttDisconnected }, []) else none
  | .publishWork timestampMs =>
    if free s ∧ ∃ due ∈ s.service.publishWork, due ≤ s.uptimeMs then
      some (publishWork ccfg s timestampMs)
    else none
  | .sample reading =>
    if free s then
      let r := s.service.sample s.uptimeMs reading
      some ({ s with service := r.1 }, r.2.toList.map .added)
    else none
  | .publishResult =>
    match s.results with
    | [] => none
    | (serial, result) :: rest =>
      if free s then
        let r := s.service.publishResult s.uptimeMs (UInt32.ofNat serial) result
        some ({ s with service := r.1, results := rest }, outcomeEvents r.2.2)
      else none
  | .elapse ms => some ({ s with uptimeMs := s.uptimeMs + ms }, [])

/-- The measurement service and the MQTT client. -/
def firmware (cfg : Config) (ccfg : ClientConfig) : System (State cfg) Action Event where
  start := {}
  step := step ccfg

/-- Fewer than 2³² tokens are handed out while a result is queued. -/
def NoWrap (s : State cfg) (_ : List Event) : Action → Prop
  | .publishResult => ∀ r ∈ s.results.head?, s.client.nextPublishToken < r.1 + 2 ^ 32
  | _ => True

/-! ## What a history says -/

def clientEvents (τ : List Event) : List Client.Event :=
  τ.filterMap fun | .client e => some e | _ => none

/-- The measurements accepted by `aitsm_data_transmission_add`. -/
def added (τ : List Event) : List Measurement :=
  τ.filterMap fun | .added m => some m | _ => none

/-- The measurements removed by commits. -/
def committed (τ : List Event) : List Measurement :=
  τ.flatMap fun | .committed ms => ms | _ => []

@[simp] theorem clientEvents_append (τ es : List Event) :
    clientEvents (τ ++ es) = clientEvents τ ++ clientEvents es :=
  List.filterMap_append

@[simp] theorem added_append (τ es : List Event) : added (τ ++ es) = added τ ++ added es :=
  List.filterMap_append

@[simp] theorem committed_append (τ es : List Event) :
    committed (τ ++ es) = committed τ ++ committed es :=
  List.flatMap_append

@[simp] theorem clientEvents_map (es : List Client.Event) :
    clientEvents (es.map .client) = es := by
  simp [clientEvents, List.filterMap_map]

@[simp] theorem added_map (es : List Client.Event) : added (es.map .client) = [] := by
  simp [added, List.filterMap_map]

@[simp] theorem committed_map (es : List Client.Event) : committed (es.map .client) = [] := by
  simp [committed, List.flatMap_map, List.flatMap_eq_nil_iff]

/-- The submission carries the NDATA of these measurements. -/
structure IsNdata (cfg : Config) (submission : Submission) (ms : List Measurement) : Prop where
  encoded : ∃ seq bdSeq, ndataPublication cfg.payloadSize ms seq bdSeq cfg.batch =
    .ok submission.publication
  topic : sparkplugTopic cfg.groupId cfg.edgeNodeId topicSize .ndata = .ok submission.topic

/-- These measurements were submitted in one NDATA; its payload was written and
left, and then a PUBACK with result 0 arrived for the message id it was written
with. -/
def Confirmed (cfg : Config) (τ : List Event) (ms : List Measurement) : Prop :=
  ∃ submission w τ₁ τ₂ τ₃, IsNdata cfg submission ms ∧ .submitted w.serial submission ∈ τ ∧
    clientEvents τ = τ₁ ++ .written w submission.message true :: τ₂ ++ .puback w.id 0 :: τ₃

/-- What may happen after a history. -/
def OnlyConfirmed (cfg : Config) (τ : List Event) : Event → Prop
  | .committed ms => Confirmed cfg τ ms
  | .commitRefused _ => False
  | _ => True

/-! ## The service agrees with the client -/

/-- What is submitted now, by type: an NDATA is everything that is buffered. -/
def Prepared (cfg : Config) (service : Service cfg) (submission : Submission) : Prop :=
  match submission.publication.type with
  | .nbirth => True
  | .ndata =>
    submission.count = service.transmission.count ∧ 0 < service.transmission.count ∧
      IsNdata cfg submission service.transmission.items

/-- What is in flight, by type: an NDATA is a prefix of what is buffered. -/
def InFlight (cfg : Config) (service : Service cfg) (submission : Submission) : Prop :=
  match submission.publication.type with
  | .nbirth => service.birthInFlight
  | .ndata =>
    service.birthInFlight = false ∧ 0 < service.pendingMeasurementCount ∧
      service.pendingMeasurementCount ≤ service.transmission.count ∧
      IsNdata cfg submission
        (service.transmission.items.take service.pendingMeasurementCount)

/-- What holds in every state, about the buffer, the submission and the results. -/
structure Retained (s : State cfg) (τ : List Event) : Prop where
  conserved : committed τ ++ s.service.transmission.items = added τ
  initialized : s.service.transmission.initialized
  quiet : s.service.publishInFlight = false → s.service.birthInFlight = false
  waiting : ∀ submission, s.submission = some submission →
    s.client.caller.publishing ∧ s.service.publishInFlight = false ∧
      Prepared cfg s.service submission ∧
      ∀ m, s.client.carried = some m → m = submission.message
  resting : s.submission = none → s.client.caller.publishing = false
  flying : s.service.publishInFlight → ∃ submission,
    .submitted s.client.nextPublishToken submission ∈ τ ∧
      s.service.pendingPublishToken = UInt32.ofNat s.client.nextPublishToken ∧
      InFlight cfg s.service submission
  results : ∀ serial result, (serial, result) ∈ s.results →
    .posted (.mqttPublishResult serial result) ∈ clientEvents τ
  submitted : ∀ serial submission, .submitted serial submission ∈ τ →
    .accepted serial submission.message ∈ clientEvents τ

namespace Retained

variable {s : State cfg} {τ : List Event}

theorem start : Retained (firmware cfg ccfg).start [] := by
  constructor <;>
    simp [firmware, committed, added, Transmission.init, Client.Caller.publishing]

/-- A function of the service that touches neither the publication in flight nor
the buffer, except that it may append to it. -/
theorem withService (h : Retained s τ) {service : Service cfg} {ms : List Measurement}
    (hnone : s.submission = none)
    (hflight : service.publishInFlight = s.service.publishInFlight)
    (hbirth : service.birthInFlight = s.service.birthInFlight)
    (htoken : service.pendingPublishToken = s.service.pendingPublishToken)
    (hcount : service.pendingMeasurementCount = s.service.pendingMeasurementCount)
    (hitems : service.transmission.items = s.service.transmission.items ++ ms)
    (hinit : service.transmission.initialized = s.service.transmission.initialized) :
    Retained { s with service := service } (τ ++ ms.map .added) := by
  have hclient : clientEvents (ms.map Event.added) = [] := by
    simp [clientEvents, List.filterMap_map]
  have hadded : added (ms.map Event.added) = ms := by
    simp [added, List.filterMap_map]
  have hcommitted : committed (ms.map Event.added) = [] := by
    simp [committed, List.flatMap_map]
  refine ⟨?_, hinit.trans h.initialized, fun hf => ?_, fun submission hs => ?_, h.resting,
    fun hf => ?_, fun serial result hr => ?_, fun serial submission hs => ?_⟩
  · rw [committed_append, added_append, hcommitted, hadded, hitems, ← h.conserved]
    simp
  · rw [hbirth]
    exact h.quiet (hflight ▸ hf)
  · rw [hnone] at hs
    cases hs
  · obtain ⟨submission, hs, htok, hin⟩ := h.flying (hflight ▸ hf)
    refine ⟨submission, List.mem_append_left _ hs, htoken.trans htok, ?_⟩
    unfold InFlight at hin ⊢
    cases htype : submission.publication.type with
    | nbirth =>
      rw [htype] at hin
      exact hbirth.trans hin
    | ndata =>
      rw [htype] at hin
      obtain ⟨hb, hpos, hle, hndata⟩ := hin
      dsimp only
      rw [hbirth, hcount, Transmission.count, hitems, List.take_append_of_le_length hle]
      refine ⟨hb, hpos, ?_, hndata⟩
      rw [List.length_append]
      exact le_trans hle (Nat.le_add_right _ _)
  · rw [clientEvents_append, hclient, List.append_nil]
    exact h.results serial result hr
  · rw [clientEvents_append, hclient, List.append_nil]
    refine h.submitted serial submission ?_
    simpa using hs

/-- The flags of the session and the time of `publish_work` play no part. -/
theorem withSession (h : Retained s τ) {service : Service cfg} (hnone : s.submission = none)
    (hflight : service.publishInFlight = s.service.publishInFlight)
    (hbirth : service.birthInFlight = s.service.birthInFlight)
    (htoken : service.pendingPublishToken = s.service.pendingPublishToken)
    (hcount : service.pendingMeasurementCount = s.service.pendingMeasurementCount)
    (htrans : service.transmission = s.service.transmission) :
    Retained { s with service := service } τ := by
  have : Retained { s with service := service } (τ ++ ([] : List Measurement).map .added) :=
    h.withService hnone hflight hbirth htoken hcount (by rw [htrans, List.append_nil])
      (by rw [htrans])
  rwa [List.map_nil, List.append_nil] at this

theorem onConnected (h : Retained s τ) (hnone : s.submission = none) (now : ℕ) :
    Retained { s with service := s.service.onMqttConnected now } τ := by
  obtain ⟨work, hwork⟩ := Service.requestPublish_eq
    { s.service with mqttConnected := true, birthPending := true } now 0
  rw [Service.onMqttConnected, hwork]
  exact h.withSession hnone rfl rfl rfl rfl rfl

theorem onDisconnected (h : Retained s τ) (hnone : s.submission = none) :
    Retained { s with service := s.service.onMqttDisconnected } τ :=
  ⟨h.conserved, h.initialized, fun _ => rfl, fun submission hs => by simp [hnone] at hs,
    h.resting, nofun, h.results, h.submitted⟩

theorem onSample (h : Retained s τ) (hnone : s.submission = none) (now : ℕ)
    (reading : Except Errno Measurement) :
    Retained { s with service := (s.service.sample now reading).1 }
      (τ ++ (s.service.sample now reading).2.toList.map .added) := by
  obtain ⟨dropped, sinceLog, last, work, transmission, hs, hitems, -, hinit⟩ :=
    s.service.sample_eq now reading
  rw [hs]
  exact h.withService hnone rfl rfl rfl rfl hitems hinit

/-- An NBIRTH's result leaves the buffer alone, and so does any failure. -/
theorem landed (h : Retained s τ) {service : Service cfg} {rest : List (ℕ × ℤ)}
    (hnone : s.submission = none) (hflight : service.publishInFlight = false)
    (hbirth : service.birthInFlight = false)
    (hitems : service.transmission.items = s.service.transmission.items)
    (hinit : service.transmission.initialized = s.service.transmission.initialized)
    (hrest : ∀ r ∈ rest, r ∈ s.results) :
    Retained { s with service := service, results := rest } τ := by
  refine ⟨?_, hinit.trans h.initialized, fun _ => hbirth, fun submission hs => ?_, h.resting,
    fun hf => ?_, fun serial result hr => h.results serial result (hrest _ hr), h.submitted⟩
  · dsimp only
    rw [hitems, h.conserved]
  · rw [hnone] at hs
    cases hs
  · rw [hflight] at hf
    cases hf

/-- A commit moves a prefix from the buffer to the history. -/
theorem onCommit (h : Retained s τ) {service : Service cfg} {rest : List (ℕ × ℤ)} {n : ℕ}
    (hnone : s.submission = none) (hflight : service.publishInFlight = false)
    (hbirth : service.birthInFlight = false)
    (hitems : service.transmission.items = s.service.transmission.items.drop n)
    (hinit : service.transmission.initialized) (hrest : ∀ r ∈ rest, r ∈ s.results) :
    Retained { s with service := service, results := rest }
      (τ ++ [.committed (s.service.transmission.items.take n)]) := by
  refine ⟨?_, hinit, fun _ => hbirth, fun submission hs => ?_, h.resting, fun hf => ?_,
    fun serial result hr => ?_, fun serial submission hs => ?_⟩
  · dsimp only
    rw [hitems, committed_append, added_append, List.append_assoc]
    simpa [committed, added] using h.conserved
  · rw [hnone] at hs
    cases hs
  · rw [hflight] at hf
    cases hf
  · simpa [clientEvents] using h.results serial result (hrest _ hr)
  · simpa [clientEvents] using h.submitted serial submission (by simpa using hs)

/-- A step of the client that answers no call. -/
theorem quietStep (h : Retained s τ) {c : Client} {es : List Client.Event}
    (ha : Client.Answers s.client c es) (hes : es.any Client.Event.isAnswer = false)
    {results : List (ℕ × ℤ)}
    (hresults : ∀ serial result, (serial, result) ∈ results → (serial, result) ∈ s.results ∨
      .posted (.mqttPublishResult serial result) ∈ es) :
    Retained { s with client := c, results := results } (τ ++ es.map .client) := by
  refine ⟨?_, h.initialized, h.quiet, fun submission hs => ?_, fun hs => ?_, fun hf => ?_,
    fun serial result hr => ?_, fun serial submission hs => ?_⟩
  · rw [committed_append, added_append, committed_map, added_map, List.append_nil,
      List.append_nil]
    exact h.conserved
  · obtain ⟨hpub, hidle, hprep, hmsg⟩ := h.waiting submission hs
    refine ⟨by rw [ha.ends hpub, hes]; rfl, hidle, hprep, fun m hm => ?_⟩
    rcases ha.carried with heq | heq
    · exact hmsg m (heq ▸ hm)
    · rw [heq] at hm
      cases hm
  · by_contra hpub
    have := ha.stays (by simpa using hpub)
    rw [h.resting hs] at this
    cases this
  · obtain ⟨submission, hs, htok, hin⟩ := h.flying hf
    have hnot : s.client.caller.publishing = false := by
      rcases hsub : s.submission with _ | submission'
      · exact h.resting hsub
      · rw [(h.waiting submission' hsub).2.1] at hf
        cases hf
    dsimp only
    rw [ha.numbered hnot]
    exact ⟨submission, List.mem_append_left _ hs, htok, hin⟩
  · rw [clientEvents_append, clientEvents_map, List.mem_append]
    exact (hresults serial result hr).imp (h.results serial result) id
  · rw [clientEvents_append, List.mem_append]
    exact .inl (h.submitted serial submission (by simpa using hs))

/-- The client refuses what was submitted. -/
theorem onRefused (h : Retained s τ) {c : Client} {submission : Submission}
    (hsub : s.submission = some submission) (hpub : c.caller.publishing = false) (now : ℕ)
    (err : Errno) (serial : Option ℕ) :
    Retained
      { s with
        client := c
        submission := none
        service := s.service.submitted now submission (serial.map UInt32.ofNat) (.error err) }
      (τ ++ [.client (.refused err serial)]) := by
  obtain ⟨work, hwork⟩ := Service.publishReturned_eq
    { s.service with
      pendingPublishToken := (serial.map UInt32.ofNat).getD s.service.pendingPublishToken } now
    (.error err)
  rw [Service.submitted, hwork]
  have hidle := (h.waiting submission hsub).2.1
  refine ⟨?_, h.initialized, h.quiet, nofun, fun _ => hpub, fun hf => ?_,
    fun serial result hr => ?_, fun serial submission hs => ?_⟩
  · rw [committed_append, added_append]
    simpa [committed, added] using h.conserved
  · simp [hidle] at hf
  · rw [clientEvents_append]
    exact List.mem_append_left _ (h.results serial result hr)
  · rw [clientEvents_append]
    exact List.mem_append_left _ (h.submitted serial submission (by simpa using hs))

/-- The client accepts what was submitted. -/
theorem onAccepted (h : Retained s τ) {c : Client} {m : Message} {submission : Submission}
    (hsub : s.submission = some submission) (hpub : c.caller.publishing = false)
    (hmsg : s.client.carried = some m) (now : ℕ) :
    Retained
      { s with
        client := c
        submission := none
        service := s.service.submitted now submission
          (some (UInt32.ofNat c.nextPublishToken)) (.ok ()) }
      (τ ++ [.client (.accepted c.nextPublishToken m),
        .submitted c.nextPublishToken submission]) := by
  obtain ⟨-, hidle, hprep, hcarried⟩ := h.waiting submission hsub
  obtain rfl := hcarried m hmsg
  have hresults : ∀ serial result, (serial, result) ∈ s.results →
      .posted (.mqttPublishResult serial result) ∈ clientEvents (τ ++
        [.client (.accepted c.nextPublishToken submission.message),
          .submitted c.nextPublishToken submission]) := by
    intro serial result hr
    rw [clientEvents_append]
    exact List.mem_append_left _ (h.results serial result hr)
  have hsubmitted : ∀ serial submission', .submitted serial submission' ∈ τ ++
        [.client (.accepted c.nextPublishToken submission.message),
          .submitted c.nextPublishToken submission] →
      .accepted serial submission'.message ∈ clientEvents (τ ++
        [.client (.accepted c.nextPublishToken submission.message),
          .submitted c.nextPublishToken submission]) := by
    intro serial submission' hs
    rw [clientEvents_append, List.mem_append]
    rcases List.mem_append.mp hs with hold | hnew
    · exact .inl (h.submitted serial submission' hold)
    · obtain ⟨rfl, rfl⟩ : serial = c.nextPublishToken ∧ submission' = submission := by
        simpa using hnew
      exact .inr (by simp [clientEvents])
  have hconserved : committed (τ ++
        [.client (.accepted c.nextPublishToken submission.message),
          .submitted c.nextPublishToken submission]) ++ s.service.transmission.items =
      added (τ ++ [.client (.accepted c.nextPublishToken submission.message),
        .submitted c.nextPublishToken submission]) := by
    rw [committed_append, added_append]
    simpa [committed, added] using h.conserved
  rw [Service.submitted]
  unfold Prepared at hprep
  cases htype : submission.publication.type with
  | nbirth =>
    refine ⟨hconserved, h.initialized, nofun, nofun, fun _ => hpub, fun _ => ?_, hresults,
      hsubmitted⟩
    exact ⟨submission, by simp, rfl, by simp [InFlight, htype]⟩
  | ndata =>
    rw [htype] at hprep
    obtain ⟨hcount, hpos, hndata⟩ := hprep
    refine ⟨hconserved, h.initialized, nofun, nofun, fun _ => hpub, fun _ => ?_, hresults,
      hsubmitted⟩
    refine ⟨submission, by simp, rfl, ?_⟩
    unfold InFlight
    rw [htype]
    refine ⟨h.quiet hidle, hcount ▸ hpos, hcount.le, ?_⟩
    rw [hcount, Transmission.count, List.take_length]
    exact hndata

/-- What the events of a step of the client do to the service. -/
theorem observe (h : Retained s τ) {c : Client} {es : List Client.Event}
    (hlen : es.length ≤ 1) (ha : Client.Answers s.client c es)
    (haccepted : ∀ serial m, .accepted serial m ∈ es →
      serial = c.nextPublishToken) :
    Retained (observeAll { s with client := c } es).1
      (τ ++ (observeAll { s with client := c } es).2) := by
  rcases es with _ | ⟨e, rest⟩
  · exact h.quietStep ha rfl fun _ _ => .inl
  obtain rfl : rest = [] := List.eq_nil_of_length_eq_zero (by simpa using hlen)
  by_cases hanswer : e.isAnswer
  · have hpub : s.client.caller.publishing := by
      by_contra hnot
      have := ha.silent (by simpa using hnot)
      simp [hanswer] at this
    have hdone : c.caller.publishing = false := by
      rw [ha.ends hpub]
      simp [hanswer]
    rcases hsub : s.submission with _ | submission
    · rw [h.resting hsub] at hpub
      cases hpub
    cases e with
    | accepted serial m =>
      obtain rfl := haccepted serial m List.mem_cons_self
      have hmsg := ha.accepted _ m List.mem_cons_self
      simpa [observeAll, Retention.observe, hsub] using h.onAccepted hsub hdone hmsg s.uptimeMs
    | refused err serial =>
      simpa [observeAll, Retention.observe, hsub] using h.onRefused hsub hdone s.uptimeMs err serial
    | _ => cases hanswer
  · have hquiet : [e].any Client.Event.isAnswer = false := by simpa using hanswer
    by_cases hposted : ∃ serial result, e = .posted (.mqttPublishResult serial result)
    · obtain ⟨serial, result, rfl⟩ := hposted
      refine h.quietStep ha hquiet fun serial' result' hr => ?_
      rcases List.mem_append.mp hr with hold | hnew
      · exact .inl hold
      · obtain ⟨rfl, rfl⟩ : serial' = serial ∧ result' = result := by simpa using hnew
        exact .inr List.mem_cons_self
    · have hobserve : ∀ s : State cfg, Retention.observe s e = (s, [.client e]) := by
        intro s
        unfold Retention.observe
        split <;> first | rfl | simp_all [Client.Event.isAnswer]
      rw [observeAll, observeAll, hobserve]
      exact h.quietStep ha hquiet fun _ _ => .inl

/-- `publish_buffer` prepares a submission and calls the client. -/
theorem onPublishWork (h : Retained s τ) (hfree : free s) (timestampMs : UInt64) :
    Retained (publishWork ccfg s timestampMs).1
      (τ ++ (publishWork ccfg s timestampMs).2) := by
  have hstarted : Retained { s with service := s.service.publishStarted } τ :=
    h.withSession hfree.2 rfl rfl rfl rfl rfl
  unfold publishWork
  dsimp only
  rcases hp : s.service.publishStarted.publishBuffer timestampMs with err | _ | submission
  · obtain ⟨work, hwork⟩ := s.service.publishStarted.publishReturned_eq s.uptimeMs (.error err)
    dsimp only
    rw [hwork, List.append_nil]
    exact h.withSession hfree.2 rfl rfl rfl rfl rfl
  · rw [List.append_nil]
    exact hstarted
  · obtain ⟨-, hidle, hkind⟩ := Service.publishBuffer_some hp
    have hprep : Prepared cfg s.service submission := by
      unfold Prepared
      rcases hkind with ⟨-, hpub⟩ | ⟨-, hpub⟩
      · obtain ⟨htype, -⟩ := nbirthPublication_ok (Service.publishBirth_ok hpub).1
        rw [htype]
        trivial
      · obtain ⟨hcount, hpos, hndata, htopic⟩ := Service.publishData_ok hpub
        obtain ⟨htype, -⟩ := ndataPublication_ok hndata
        rw [htype]
        exact ⟨hcount, hpos, ⟨_, _, hndata⟩, htopic⟩
    -- with the call, the submission waits
    have hwaiting : ∀ c : Client, c = { s.client with caller := .publishLte submission.message } →
        Retained
          { s with
            service := s.service.publishStarted, client := c, submission := some submission }
          τ := by
      rintro c rfl
      refine ⟨h.conserved, h.initialized, h.quiet, ?_, nofun, h.flying, h.results, h.submitted⟩
      rintro submission' hs
      obtain rfl := Option.some.inj hs
      refine ⟨rfl, hidle, hprep, fun m hm => ?_⟩
      exact (Option.some.inj hm).symm
    rcases Client.callPublish_cases ccfg s.client submission.message with ⟨err, hcall⟩ | hcall
    · dsimp only
      rw [hcall]
      have := (hwaiting _ rfl).onRefused rfl (h.resting hfree.2) s.uptimeMs err none
      simpa [observeAll, Retention.observe] using this
    · dsimp only
      rw [hcall, observeAll, List.append_nil]
      exact hwaiting _ rfl

/-- A result for another publication than the one in flight is dropped. -/
theorem dropResult (h : Retained s τ) {rest : List (ℕ × ℤ)} (hrest : ∀ r ∈ rest, r ∈ s.results) :
    Retained { s with results := rest } τ :=
  ⟨h.conserved, h.initialized, h.quiet, h.waiting, h.resting, h.flying,
    fun serial result hr => h.results serial result (hrest _ hr), h.submitted⟩

/-- A result either leaves the buffer as it is, or it is a result 0 for the
submission in flight, an NDATA, and takes out the measurements of that. -/
theorem publishResult_cases (h : Retained s τ) (hnone : s.submission = none) {serial : ℕ}
    (hle : serial ≤ s.client.nextPublishToken)
    (hwrap : s.client.nextPublishToken < serial + 2 ^ 32) {rest : List (ℕ × ℤ)}
    (hrest : ∀ r ∈ rest, r ∈ s.results) (now : ℕ) (result : ℤ) :
    (∃ service handled,
      s.service.publishResult now (UInt32.ofNat serial) result = (service, handled, .none) ∧
      Retained { s with service := service, results := rest } τ) ∨
    (result = 0 ∧ ∃ service handled submission ms, .submitted serial submission ∈ τ ∧
      IsNdata cfg submission ms ∧
      s.service.publishResult now (UInt32.ofNat serial) result =
        (service, handled, .committed ms) ∧
      Retained { s with service := service, results := rest } (τ ++ [.committed ms])) := by
  by_cases hstale : s.service.publishInFlight = false ∨
      UInt32.ofNat serial ≠ s.service.pendingPublishToken
  · exact .inl ⟨_, _, Service.publishResult_stale hstale now result, h.dropResult hrest⟩
  obtain ⟨hflight, htoken⟩ := not_or.mp hstale
  rw [Bool.not_eq_false] at hflight
  rw [ne_eq, not_not] at htoken
  obtain ⟨submission, hs, htok, hin⟩ := h.flying hflight
  -- the token is that of the publication in flight, and so is the number
  have hserial : serial = s.client.nextPublishToken := by
    have := congrArg UInt32.toNat (htoken.trans htok)
    simp only [UInt32.toNat_ofNat'] at this
    omega
  unfold InFlight at hin
  cases htype : submission.publication.type with
  | nbirth =>
    rw [htype] at hin
    obtain ⟨work, hres⟩ := Service.publishResult_birth hflight htoken hin now result
    refine .inl ⟨_, _, hres, h.landed hnone rfl rfl ?_ ?_ hrest⟩
    · dsimp only
      split <;> rfl
    · dsimp only
      split <;> rfl
  | ndata =>
    rw [htype] at hin
    obtain ⟨hbirth, hpos, hcount, hndata⟩ := hin
    by_cases hr : result = 0
    · subst hr
      obtain ⟨work, transmission, hres, hitems, -, hinit⟩ := Service.publishResult_data hflight
        htoken hbirth h.initialized hpos hcount now
      exact .inr ⟨rfl, _, _, submission, _, hserial ▸ hs, hndata, hres,
        h.onCommit hnone rfl hbirth hitems hinit hrest⟩
    · obtain ⟨work, hres⟩ := Service.publishResult_failed hflight htoken hbirth hr now
      exact .inl ⟨_, _, hres, h.landed hnone rfl hbirth rfl rfl hrest⟩

end Retained

/-! ## Runs -/

theorem observe_client (s : State cfg) (e : Client.Event) :
    (observe s e).1.client = s.client ∧ clientEvents (observe s e).2 = [e] := by
  unfold observe
  split <;> try split
  all_goals exact ⟨rfl, rfl⟩

theorem observeAll_client (s : State cfg) (es : List Client.Event) :
    (observeAll s es).1.client = s.client ∧ clientEvents (observeAll s es).2 = es := by
  induction es generalizing s with
  | nil => exact ⟨rfl, rfl⟩
  | cons e es ih =>
    obtain ⟨hclient, hevents⟩ := observe_client s e
    obtain ⟨hclient', hevents'⟩ := ih (observe s e).1
    refine ⟨hclient'.trans hclient, ?_⟩
    rw [observeAll, clientEvents_append, hevents, hevents']
    rfl

/-- A step of the client in the firmware is a step of the client. -/
theorem step_client {s s' : State cfg} {a : Client.Action} {es : List Event}
    (h : step ccfg s (.client a) = some (s', es)) :
    (∀ m, a ≠ .callPublish m) ∧ ∃ c es', s.client.step ccfg a = some (c, es') ∧
      observeAll { s with client := c } es' = (s', es) := by
  unfold step at h
  split at h
  · cases h
  · rename_i a' hnot heq
    obtain rfl := Action.client.inj heq
    rcases hs : s.client.step ccfg a with _ | ⟨c, es'⟩
    · rw [hs] at h
      cases h
    · rw [hs] at h
      exact ⟨fun m hm => hnot m (hm ▸ rfl), c, es', rfl, Option.some.inj h⟩
  all_goals rename_i heq; cases heq

/-- Seen from the client, `publish_work_handler` is a call or nothing. -/
theorem publishWork_client (ccfg : ClientConfig) {s : State cfg} (hfree : free s) (timestampMs : UInt64) :
    (∃ a, s.client.step ccfg a = some ((publishWork ccfg s timestampMs).1.client,
      clientEvents (publishWork ccfg s timestampMs).2)) ∨
    ((publishWork ccfg s timestampMs).1.client = s.client ∧
      clientEvents (publishWork ccfg s timestampMs).2 = []) := by
  unfold publishWork
  dsimp only
  rcases s.service.publishStarted.publishBuffer timestampMs with err | _ | submission
  · exact .inr ⟨rfl, rfl⟩
  · exact .inr ⟨rfl, rfl⟩
  · obtain ⟨hclient, hevents⟩ := observeAll_client
      { s with
        service := s.service.publishStarted
        client := (s.client.callPublish ccfg submission.message).1
        submission := some submission }
      (s.client.callPublish ccfg submission.message).2
    refine .inl ⟨.callPublish submission.message, ?_⟩
    dsimp only
    rw [hclient, hevents, Client.step, Client.call, if_pos hfree.1]

/-- Every run of the firmware is a run of the client. -/
theorem client_run {s : State cfg} {τ : List Event} (hr : (firmware cfg ccfg).Run NoWrap s τ) :
    (mqttClient ccfg).Run anyStep s.client (clientEvents τ) := by
  refine hr.invariant (I := fun s τ => (mqttClient ccfg).Run anyStep s.client (clientEvents τ))
    .start ?_
  intro s τ a s' es ih _ hs
  rw [clientEvents_append]
  have hidle : s'.client = s.client → clientEvents es = [] →
      (mqttClient ccfg).Run anyStep s'.client (clientEvents τ ++ clientEvents es) := by
    intro hclient hevents
    rw [hclient, hevents, List.append_nil]
    exact ih
  cases a with
  | client a =>
    obtain ⟨-, c, es', hstep, hobs⟩ := step_client hs
    obtain ⟨hclient, hevents⟩ := observeAll_client { s with client := c } es'
    rw [hobs] at hclient hevents
    dsimp only at hclient hevents
    rw [hclient, hevents]
    exact .step ih trivial hstep
  | publishWork timestampMs =>
    obtain ⟨⟨hfree, -⟩, heq⟩ := Option.ite_none_right_eq_some.mp hs
    obtain ⟨rfl, rfl⟩ := Prod.mk.inj (Option.some.inj heq)
    rcases publishWork_client ccfg hfree timestampMs with ⟨a', hstep⟩ | ⟨hc, he⟩
    · exact .step ih trivial hstep
    · exact hidle hc he
  | connected | disconnected =>
    obtain ⟨-, heq⟩ := Option.ite_none_right_eq_some.mp hs
    obtain ⟨rfl, rfl⟩ := Prod.mk.inj (Option.some.inj heq)
    exact hidle rfl rfl
  | sample reading =>
    obtain ⟨-, heq⟩ := Option.ite_none_right_eq_some.mp hs
    obtain ⟨rfl, rfl⟩ := Prod.mk.inj (Option.some.inj heq)
    exact hidle rfl (by simp [clientEvents, List.filterMap_map])
  | publishResult =>
    rcases hres : s.results with _ | ⟨⟨serial, result⟩, rest⟩
    · simp [firmware, step, hres] at hs
    · simp only [firmware, step, hres, Option.ite_none_right_eq_some, Option.some.injEq,
        Prod.mk.injEq] at hs
      obtain ⟨-, rfl, rfl⟩ := hs
      refine hidle rfl ?_
      generalize (Service.publishResult _ _ _ _).2.2 = outcome
      cases outcome <;> rfl
  | elapse ms =>
    obtain ⟨rfl, rfl⟩ := Prod.mk.inj (Option.some.inj hs)
    exact hidle rfl rfl

/-- No event of the client is about the buffer. -/
theorem observe_harmless (s : State cfg) (e : Client.Event) :
    ∀ e' ∈ (observe s e).2, ∀ τ, OnlyConfirmed cfg τ e' := by
  unfold observe
  split <;> try split
  all_goals simp [OnlyConfirmed]

theorem observeAll_harmless (s : State cfg) (es : List Client.Event) :
    ∀ e ∈ (observeAll s es).2, ∀ τ, OnlyConfirmed cfg τ e := by
  induction es generalizing s with
  | nil => nofun
  | cons e es ih =>
    intro e' he'
    rcases List.mem_append.mp he' with h | h
    · exact observe_harmless s e e' h
    · exact ih _ e' h

theorem publishWork_harmless (s : State cfg) (timestampMs : UInt64) :
    ∀ e ∈ (publishWork ccfg s timestampMs).2, ∀ τ, OnlyConfirmed cfg τ e := by
  unfold publishWork
  dsimp only
  rcases s.service.publishStarted.publishBuffer timestampMs with err | _ | submission
  · nofun
  · nofun
  · exact observeAll_harmless _ _

/-- A result 0 for a submitted NDATA confirms its measurements. -/
theorem Retained.confirmed {s : State cfg} {τ : List Event} (h : Retained s τ)
    (ht : Client.Traced s.client (clientEvents τ)) {serial : ℕ} (hres : (serial, 0) ∈ s.results)
    {submission : Submission} (hsub : .submitted serial submission ∈ τ)
    {ms : List Measurement} (hndata : IsNdata cfg submission ms) : Confirmed cfg τ ms := by
  obtain ⟨τ₁, τ₃, id, hτ, τ₀, τ₂, w, m, rfl, rfl, rfl, hacc⟩ :=
    ht.posted serial (h.results serial 0 hres)
  -- one token, one message
  have hmem : .accepted w.serial m ∈ clientEvents τ := by
    rw [hτ]
    exact List.mem_append_left _ (List.mem_append_left _ hacc)
  obtain rfl := ht.unique w.serial _ _ hmem (h.submitted w.serial submission hsub)
  exact ⟨submission, w, τ₀, τ₂, τ₃, hndata, hsub, by simpa using hτ⟩

/-- What one step adds to the history is allowed, and keeps the invariant. -/
theorem Retained.step {s s' : State cfg} {τ : List Event} {a : Action} {es : List Event}
    (hc : (mqttClient ccfg).Run anyStep s.client (clientEvents τ)) (h : Retained s τ)
    (hok : NoWrap s τ a) (hs : step ccfg s a = some (s', es)) :
    Retained s' (τ ++ es) ∧ EachEvent (fun es₁ e => OnlyConfirmed cfg (τ ++ es₁) e) es := by
  cases a with
  | client a =>
    obtain ⟨ha, c, es', hstep, hobs⟩ := step_client hs
    have hbacked := Client.Backed.step (Client.Owned.of_run hc) (Client.UnderWay.of_run hc) hstep
    have := h.observe (Client.step_events hstep) (Client.Answers.step ha hstep)
      fun serial m hm => by
        obtain ⟨-, -, hserial, -, hsame⟩ := hbacked.accepted serial m hm
        rw [hserial, hsame]
    have hharmless := observeAll_harmless { s with client := c } es'
    rw [hobs] at this hharmless
    exact ⟨this, .of_forall fun e he _ => hharmless e he _⟩
  | publishWork timestampMs =>
    obtain ⟨⟨hfree, -⟩, heq⟩ := Option.ite_none_right_eq_some.mp hs
    obtain ⟨rfl, rfl⟩ := Prod.mk.inj (Option.some.inj heq)
    exact ⟨h.onPublishWork hfree timestampMs,
      .of_forall fun e he _ => publishWork_harmless s timestampMs e he _⟩
  | connected =>
    obtain ⟨hfree, heq⟩ := Option.ite_none_right_eq_some.mp hs
    obtain ⟨rfl, rfl⟩ := Prod.mk.inj (Option.some.inj heq)
    rw [List.append_nil]
    exact ⟨h.onConnected hfree.2 s.uptimeMs, .nil⟩
  | disconnected =>
    obtain ⟨hfree, heq⟩ := Option.ite_none_right_eq_some.mp hs
    obtain ⟨rfl, rfl⟩ := Prod.mk.inj (Option.some.inj heq)
    rw [List.append_nil]
    exact ⟨h.onDisconnected hfree.2, .nil⟩
  | sample reading =>
    obtain ⟨hfree, heq⟩ := Option.ite_none_right_eq_some.mp hs
    obtain ⟨rfl, rfl⟩ := Prod.mk.inj (Option.some.inj heq)
    refine ⟨h.onSample hfree.2 s.uptimeMs reading, .of_forall fun e he _ => ?_⟩
    obtain ⟨m, -, rfl⟩ := List.mem_map.mp he
    trivial
  | publishResult =>
    rcases hres : s.results with _ | ⟨⟨serial, result⟩, rest⟩
    · simp [Retention.step, hres] at hs
    have hmem : (serial, result) ∈ s.results := by simp [hres]
    have hrest : ∀ r ∈ rest, r ∈ s.results := fun r hr => by simp [hres, hr]
    have ht := Client.Traced.of_run hc
    have hwrap : s.client.nextPublishToken < serial + 2 ^ 32 := 
      hok (serial, result) (by simp [hres])
    simp only [Retention.step, hres, Option.ite_none_right_eq_some, Option.some.injEq,
      Prod.mk.injEq] at hs
    obtain ⟨hfree, rfl, rfl⟩ := hs
    rcases h.publishResult_cases hfree.2 (ht.counted serial result (h.results _ _ hmem)) hwrap
      hrest s.uptimeMs result with ⟨service, handled, heq, hret⟩ |
      ⟨rfl, service, handled, submission, ms, hsub, hndata, heq, hret⟩
    · rw [heq, outcomeEvents, List.append_nil]
      exact ⟨hret, .nil⟩
    · rw [heq, outcomeEvents]
      refine ⟨hret, .singleton ?_⟩
      rw [List.append_nil]
      exact h.confirmed ht hmem hsub hndata
  | elapse ms =>
    obtain ⟨rfl, rfl⟩ := Prod.mk.inj (Option.some.inj hs)
    rw [List.append_nil]
    exact ⟨⟨h.conserved, h.initialized, h.quiet, h.waiting, h.resting, h.flying, h.results,
      h.submitted⟩, .nil⟩

theorem Retained.of_run {s : State cfg} {τ : List Event}
    (hr : (firmware cfg ccfg).Run NoWrap s τ) : Retained s τ :=
  hr.invariant_with (J := fun s τ => (mqttClient ccfg).Run anyStep s.client (clientEvents τ))
    (I := fun s τ => Retained s τ) client_run .start
    fun _ _ _ _ _ hc h hok hs => (h.step hc hok hs).1

/-- **The Original drops no measurement it has not delivered.** In every run, what
was committed and what is buffered make up, in order, what was added; and a
commit never fails and removes exactly the measurements of one NDATA whose
payload was written and acknowledged. -/
theorem nothing_undelivered_is_removed {s : State cfg} {τ : List Event}
    (hr : (firmware cfg ccfg).Run NoWrap s τ) :
    committed τ ++ s.service.transmission.items = added τ ∧
    EachEvent (OnlyConfirmed cfg) τ := by
  refine ⟨(Retained.of_run hr).conserved, ?_⟩
  exact hr.eachEvent
    (I := fun s τ => (mqttClient ccfg).Run anyStep s.client (clientEvents τ) ∧ Retained s τ)
    (fun hr => ⟨client_run hr, Retained.of_run hr⟩)
    fun _ _ _ _ _ ⟨hc, h⟩ hok hs => (h.step hc hok hs).2

/-- `aitsm_mqtt_publish_payload` runs through, and the worker writes the message
and waits for its PUBACK. -/
def publish (timestampMs : UInt64) (id : UInt16) : List Action :=
  .publishWork timestampMs :: List.replicate 8 (.client .caller) ++
    [.client .worker, .client (.workerMessageId id), .client (.workerWrite true),
      .client (.workerSent 0), .client .worker, .client .worker,
      .client (.pollPuback id 0), .client .poll, .publishResult]

/-- The measurement of the schedule below. -/
def roomTemperature : Measurement := ⟨1700000000, 2150, 9000⟩

/-- One measurement is taken and sent, after the NBIRTH. -/
def sentOnce : List Action :=
  List.flatten
    [[.client (.callSetLteAvailable true), .client .caller, .client .callConnect],
      List.replicate 4 (.client .caller), List.replicate 4 (.client .worker),
      [.client (.workerConnect false), .client (.pollConnack true)],
      List.replicate 6 (.client .poll),
      [.sample (.ok roomTemperature), .connected], publish 0 1, publish 0 2]

instance (s : State cfg) (τ : List Event) (a : Action) : Decidable (NoWrap s τ a) := by
  cases a <;> unfold NoWrap <;> infer_instance

theorem sentOnce_replays :
    ((firmware singleConfig defaultClient).replay NoWrap
      (firmware singleConfig defaultClient).start [] sentOnce).isSome := by
  decide +kernel

theorem nothing_undelivered_is_removed_sentOnce :
    ∃ s τ, committed τ = [roomTemperature] ∧
      committed τ ++ (s : State singleConfig).service.transmission.items = added τ ∧
      EachEvent (OnlyConfirmed singleConfig) τ := by
  obtain ⟨hconserved, heach⟩ := nothing_undelivered_is_removed (.of_isSome sentOnce_replays)
  exact ⟨_, _, by decide +kernel, hconserved, heach⟩

end Retention

end Aitsm.Original
