import Aitsm.Original.Transmission

/-!
# The measurement service (`measurement_service.c`)

Every function here runs on the system workqueue, one at a time. The only call
that reaches another thread is `aitsm_mqtt_publish_payload`; `publish_buffer` is
therefore cut there: `publishBuffer` is what happens before the call and
`submitted` what happens after it, with the client's answer in between.

`publishWork` is the delayable work `publish_work`: when it is due, if it is
scheduled. Times are in milliseconds of uptime.
-/

namespace Aitsm.Original

open Library Library.Wire

/-- `TOPIC_SIZE`. -/
def topicSize : ℕ := 64

/-- The module's variables, with the transmission buffer it feeds and drains. -/
structure Service (cfg : Config) where
  pendingMeasurementCount : ℕ := 0
  pendingPublishToken : UInt32 := 0
  publishInFlight : Bool := false
  mqttConnected : Bool := false
  birthPending : Bool := false
  birthInFlight : Bool := false
  bdSeq : UInt8 := 0
  droppedSamples : UInt32 := 0
  dropsSinceLog : UInt32 := 0
  lastSampleTimestamp : Int64 := 0
  publishWork : Option ℕ := none
  transmission : Transmission cfg := .init

/-- A message with the topic it is published under and the number of
measurements it takes from the buffer. -/
structure Submission where
  publication : Publication
  topic : Bytes
  count : ℕ

namespace Service

variable {cfg : Config}

/-- The measurement interval, in milliseconds. -/
def intervalMs (cfg : Config) : ℕ := cfg.measurementIntervalSeconds * 1000

/-- `k_work_schedule`, which keeps an existing deadline. -/
def schedule (work : Option ℕ) (due : ℕ) : Option ℕ := some (work.getD due)

/-- `request_publish`. -/
def requestPublish (s : Service cfg) (now delayMs : ℕ) : Service cfg :=
  if s.mqttConnected ∧ !s.publishInFlight then
    { s with publishWork := schedule s.publishWork (now + delayMs) }
  else s

/-- `publish_birth`, up to the call of the client. -/
def publishBirth (s : Service cfg) (timestampMs : UInt64) : Except Errno Submission := do
  let p ← nbirthPublication cfg.payloadSize timestampMs s.bdSeq
  let topic ← sparkplugTopic cfg.groupId cfg.edgeNodeId topicSize .nbirth
  return { publication := p, topic := topic, count := 0 }

/-- The NDATA branch of `publish_buffer`, up to the call of the client. -/
def publishData (s : Service cfg) : Except Errno Submission := do
  let (p, count) ← s.transmission.format cfg.payloadSize s.bdSeq
  let topic ← sparkplugTopic cfg.groupId cfg.edgeNodeId topicSize .ndata
  return { publication := p, topic := topic, count := count }

/-- `publish_buffer`, up to the call of the client; `none` when there is nothing
to do. -/
def publishBuffer (s : Service cfg) (timestampMs : UInt64) : Except Errno (Option Submission) :=
  if !s.mqttConnected ∨ s.publishInFlight then .ok none
  else if s.birthPending then (s.publishBirth timestampMs).map some
  else s.publishData.map some

/-- The rest of `publish_work_handler`, once `publish_buffer` has returned. -/
def publishReturned (s : Service cfg) (now : ℕ) : Except Errno Unit → Service cfg
  | .ok () => s
  | .error .enodata => s
  | .error _ => s.requestPublish now (intervalMs cfg)

/-- The rest of `publish_buffer`, once the client has answered; `token` is what
the client wrote through its pointer, if it came that far. -/
def submitted (s : Service cfg) (now : ℕ) (submission : Submission) (token : Option UInt32)
    (answer : Except Errno Unit) : Service cfg :=
  let s := { s with pendingPublishToken := token.getD s.pendingPublishToken }
  match answer with
  | .error err => s.publishReturned now (.error err)
  | .ok () =>
    match submission.publication.type with
    | .nbirth => { s with publishInFlight := true, birthInFlight := true }
    | .ndata =>
      { s with pendingMeasurementCount := submission.count, publishInFlight := true }

/-- The start of `publish_work_handler`: the work is no longer scheduled. -/
def publishStarted (s : Service cfg) : Service cfg := { s with publishWork := none }

/-- `measurement_work_handler`, with what `aitsm_measurement_read` answers. -/
def sample (s : Service cfg) (now : ℕ) (reading : Except Errno Measurement) :
    Service cfg × Option Measurement :=
  if !s.transmission.hasCapacity then
    ({ s with
      droppedSamples := if s.droppedSamples ≠ 0xFFFFFFFF then s.droppedSamples + 1
        else s.droppedSamples
      dropsSinceLog := if s.dropsSinceLog ≠ 0xFFFFFFFF then s.dropsSinceLog + 1
        else s.dropsSinceLog }, none)
  else
    let s := { s with dropsSinceLog := 0 }
    match reading with
    | .error _ => (s, none)
    | .ok m =>
      match s.transmission.add m with
      | .error _ => (s, none)
      | .ok transmission =>
        let s := { s with transmission := transmission, lastSampleTimestamp := m.timestamp }
        if s.pendingMeasurementCount ≠ 0 ∨ s.transmission.shouldFlush s.lastSampleTimestamp then
          (s.requestPublish now 0, some m)
        else (s, some m)

/-- `aitsm_measurement_service_mqtt_connected`. -/
def onMqttConnected (s : Service cfg) (now : ℕ) : Service cfg :=
  { s with mqttConnected := true, birthPending := true }.requestPublish now 0

/-- `aitsm_measurement_service_mqtt_disconnected`. -/
def onMqttDisconnected (s : Service cfg) : Service cfg :=
  { s with
    mqttConnected := false
    publishWork := none
    publishInFlight := false
    birthInFlight := false
    birthPending := false
    bdSeq := sparkplugNextSeq s.bdSeq }

/-- What a result did to the buffer. -/
inductive Outcome where
  /-- nothing: an earlier publish or session, a failure, or an NBIRTH -/
  | none
  /-- these measurements were removed -/
  | committed (measurements : List Measurement)
  /-- `aitsm_data_transmission_commit` returned an error -/
  | refused (err : Errno)

/-- The branch of `aitsm_measurement_service_publish_result` for an NBIRTH. -/
def birthResult (s : Service cfg) (now : ℕ) (result : ℤ) : Service cfg :=
  if result = 0 then
    { s with
      birthPending := false
      transmission := s.transmission.startSession }.requestPublish now 0
  else s.requestPublish now (intervalMs cfg)

/-- And for an NDATA. -/
def dataResult (s : Service cfg) (now : ℕ) (result : ℤ) : Service cfg × Outcome :=
  if result = 0 then
    let r : Transmission cfg × Outcome :=
      match s.transmission.commit s.pendingMeasurementCount with
      | .ok transmission =>
        (transmission, .committed (s.transmission.items.take s.pendingMeasurementCount))
      | .error err => (s.transmission, .refused err)
    let s := { s with transmission := r.1, pendingMeasurementCount := 0 }
    (if s.transmission.shouldFlush s.lastSampleTimestamp then s.requestPublish now 0 else s, r.2)
  else (s.requestPublish now (intervalMs cfg), .none)

/-- `aitsm_measurement_service_publish_result`. -/
def publishResult (s : Service cfg) (now : ℕ) (token : UInt32) (result : ℤ) :
    Service cfg × Bool × Outcome :=
  if !s.publishInFlight ∨ token ≠ s.pendingPublishToken then (s, false, .none)
  else
    let s := { s with publishInFlight := false }
    if s.birthInFlight then
      ({ s with birthInFlight := false }.birthResult now result, true, .none)
    else
      let r := s.dataResult now result
      (r.1, true, r.2)

/-! ## What the functions do

`request_publish` only schedules `publish_work`; everything else about the state
is settled before it is called. -/

theorem requestPublish_eq (s : Service cfg) (now delayMs : ℕ) :
    ∃ work, s.requestPublish now delayMs = { s with publishWork := work } := by
  unfold requestPublish
  split
  · exact ⟨_, rfl⟩
  · exact ⟨s.publishWork, rfl⟩

theorem publishReturned_eq (s : Service cfg) (now : ℕ) (answer : Except Errno Unit) :
    ∃ work, s.publishReturned now answer = { s with publishWork := work } := by
  unfold publishReturned
  split
  · exact ⟨s.publishWork, rfl⟩
  · exact ⟨s.publishWork, rfl⟩
  · exact s.requestPublish_eq _ _

theorem publishBirth_ok {s : Service cfg} {timestampMs : UInt64} {submission : Submission}
    (h : s.publishBirth timestampMs = .ok submission) :
    nbirthPublication cfg.payloadSize timestampMs s.bdSeq = .ok submission.publication ∧
    sparkplugTopic cfg.groupId cfg.edgeNodeId topicSize .nbirth = .ok submission.topic := by
  unfold publishBirth at h
  rcases hp : nbirthPublication cfg.payloadSize timestampMs s.bdSeq with err | p
  · rw [hp] at h
    cases h
  rcases ht : sparkplugTopic cfg.groupId cfg.edgeNodeId topicSize .nbirth with err | topic
  · rw [hp, ht] at h
    cases h
  · rw [hp, ht] at h
    obtain rfl := Except.ok.inj h
    exact ⟨rfl, rfl⟩

theorem publishData_ok {s : Service cfg} {submission : Submission}
    (h : s.publishData = .ok submission) :
    submission.count = s.transmission.count ∧ 0 < s.transmission.count ∧
    ndataPublication cfg.payloadSize s.transmission.items s.transmission.nextSeq s.bdSeq
      cfg.batch = .ok submission.publication ∧
    sparkplugTopic cfg.groupId cfg.edgeNodeId topicSize .ndata = .ok submission.topic := by
  unfold publishData at h
  rcases hf : s.transmission.format cfg.payloadSize s.bdSeq with err | ⟨p, count⟩
  · rw [hf] at h
    cases h
  obtain ⟨hcount, hpos, hp⟩ := Transmission.format_ok hf
  rcases ht : sparkplugTopic cfg.groupId cfg.edgeNodeId topicSize .ndata with err | topic
  · rw [hf, ht] at h
    cases h
  · rw [hf, ht] at h
    obtain rfl := Except.ok.inj h
    exact ⟨hcount, hpos, hp, rfl⟩

/-- What is submitted, and in which state. -/
theorem publishBuffer_some {s : Service cfg} {timestampMs : UInt64} {submission : Submission}
    (h : s.publishBuffer timestampMs = .ok (some submission)) :
    s.mqttConnected ∧ s.publishInFlight = false ∧
    ((s.birthPending ∧ s.publishBirth timestampMs = .ok submission) ∨
      (s.birthPending = false ∧ s.publishData = .ok submission)) := by
  unfold publishBuffer at h
  split at h
  · cases h
  rename_i hidle
  simp only [Bool.not_eq_true', not_or, Bool.not_eq_false, Bool.not_eq_true] at hidle
  refine ⟨hidle.1, hidle.2, ?_⟩
  split at h
  · rename_i hb
    rcases hp : s.publishBirth timestampMs with err | q
    · rw [hp] at h
      cases h
    · rw [hp] at h
      obtain rfl := Option.some.inj (Except.ok.inj h)
      exact .inl ⟨hb, rfl⟩
  · rename_i hb
    rcases hp : s.publishData with err | q
    · rw [hp] at h
      cases h
    · rw [hp] at h
      obtain rfl := Option.some.inj (Except.ok.inj h)
      exact .inr ⟨by simpa using hb, rfl⟩

/-- Sampling touches the session in no way; it may append one measurement. -/
theorem sample_eq (s : Service cfg) (now : ℕ) (reading : Except Errno Measurement) :
    ∃ dropped sinceLog last work transmission,
      (s.sample now reading).1 = { s with
        droppedSamples := dropped, dropsSinceLog := sinceLog, lastSampleTimestamp := last,
        publishWork := work, transmission := transmission } ∧
      transmission.items = s.transmission.items ++ (s.sample now reading).2.toList ∧
      transmission.nextSeq = s.transmission.nextSeq ∧
      transmission.initialized = s.transmission.initialized := by
  unfold sample
  split
  · exact ⟨_, _, _, _, _, rfl, (List.append_nil _).symm, rfl, rfl⟩
  rename_i hcapacity
  rcases reading with err | m
  · exact ⟨_, _, _, _, _, rfl, (List.append_nil _).symm, rfl, rfl⟩
  dsimp only
  rcases hadd : s.transmission.add m with err | transmission
  · exact ⟨_, _, _, _, _, rfl, (List.append_nil _).symm, rfl, rfl⟩
  obtain ⟨hitems, hseq, hinit⟩ := Transmission.add_ok hadd
  have hinit' : s.transmission.initialized := by
    simp only [Transmission.hasCapacity, Bool.not_eq_true', Bool.and_eq_false_iff,
      not_or, Bool.not_eq_false] at hcapacity
    exact hcapacity.1
  dsimp only
  split
  · obtain ⟨work, hwork⟩ := requestPublish_eq
      { s with
        dropsSinceLog := 0, transmission := transmission, lastSampleTimestamp := m.timestamp }
      now 0
    rw [hwork]
    exact ⟨_, _, _, _, _, rfl, hitems, hseq, hinit.trans hinit'.symm⟩
  · exact ⟨_, _, _, _, _, rfl, hitems, hseq, hinit.trans hinit'.symm⟩

/-- A result for another token, or for none, changes nothing. -/
theorem publishResult_stale {s : Service cfg} {token : UInt32}
    (h : s.publishInFlight = false ∨ token ≠ s.pendingPublishToken) (now : ℕ) (result : ℤ) :
    s.publishResult now token result = (s, false, .none) := by
  unfold publishResult
  rw [if_pos (by simpa using h)]

theorem publishResult_birth {s : Service cfg} {token : UInt32} (hf : s.publishInFlight)
    (ht : token = s.pendingPublishToken) (hb : s.birthInFlight) (now : ℕ) (result : ℤ) :
    ∃ work, s.publishResult now token result =
      ({ s with
          publishInFlight := false
          birthInFlight := false
          birthPending := if result = 0 then false else s.birthPending
          transmission := if result = 0 then s.transmission.startSession else s.transmission
          publishWork := work }, true, .none) := by
  unfold publishResult
  rw [if_neg (by simp [hf, ht])]
  dsimp only
  rw [if_pos hb, birthResult]
  split
  all_goals
    obtain ⟨work, hwork⟩ := requestPublish_eq _ now _
    rw [hwork]
    exact ⟨work, rfl⟩

/-- A successful result for an NDATA removes the prefix it was made of. -/
theorem publishResult_data {s : Service cfg} {token : UInt32} (hf : s.publishInFlight)
    (ht : token = s.pendingPublishToken) (hb : s.birthInFlight = false)
    (hinit : s.transmission.initialized) (hpos : 0 < s.pendingMeasurementCount)
    (hle : s.pendingMeasurementCount ≤ s.transmission.count) (now : ℕ) :
    ∃ work transmission, s.publishResult now token 0 =
      ({ s with
          publishInFlight := false
          pendingMeasurementCount := 0
          transmission := transmission
          publishWork := work }, true,
        .committed (s.transmission.items.take s.pendingMeasurementCount)) ∧
      transmission.items = s.transmission.items.drop s.pendingMeasurementCount ∧
      transmission.nextSeq = sparkplugNextSeq s.transmission.nextSeq ∧
      transmission.initialized := by
  obtain ⟨transmission, hcommit, hspec⟩ := Transmission.commit_prefix hinit hpos hle
  unfold publishResult
  rw [if_neg (by simp [hf, ht])]
  dsimp only
  rw [if_neg (by simp [hb]), dataResult, if_pos rfl]
  dsimp only
  rw [hcommit]
  dsimp only
  split
  · obtain ⟨work, hwork⟩ := requestPublish_eq _ now _
    rw [hwork]
    exact ⟨work, transmission, rfl, hspec⟩
  · exact ⟨_, transmission, rfl, hspec⟩

theorem publishResult_failed {s : Service cfg} {token : UInt32} (hf : s.publishInFlight)
    (ht : token = s.pendingPublishToken) (hb : s.birthInFlight = false) {result : ℤ}
    (hr : result ≠ 0) (now : ℕ) :
    ∃ work, s.publishResult now token result =
      ({ s with publishInFlight := false, publishWork := work }, true, .none) := by
  unfold publishResult
  rw [if_neg (by simp [hf, ht])]
  dsimp only
  rw [if_neg (by simp [hb]), dataResult, if_neg hr]
  obtain ⟨work, hwork⟩ := requestPublish_eq _ now _
  rw [hwork]
  exact ⟨work, rfl⟩

end Service

end Aitsm.Original
