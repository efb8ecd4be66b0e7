import Aitsm.Library.System
import Aitsm.Original.Service

/-!
# The service is always woken up

Nothing polls the transmission buffer: data is sent because `publish_work` is
scheduled, and six places in `measurement_service.c` have to remember to do so.
The invariant `Awake` says that they do: whenever there is something to send, a
connection, and no publication in flight, the work is scheduled.

`k_work_schedule` keeps an existing deadline, so after a failure the next
attempt is one measurement interval away, and nothing but the attempt itself or
the end of the connection changes that (`Run.since`).
-/

namespace Aitsm.Original

open Library Library.Wire
open Library.System (anyStep Step)

variable {cfg : Config}

namespace Transmission

theorem shouldFlush_count {t : Transmission cfg} {now : Int64} (h : t.shouldFlush now) :
    0 < t.count := by
  unfold shouldFlush at h
  split at h
  · cases h
  split at h
  · exact of_decide_eq_true h
  · exact (of_decide_eq_true h).1

/-- Only an empty buffer has no data. -/
theorem format_enodata {t : Transmission cfg} {capacity : ℕ} {bdSeq : UInt8}
    (h : t.format capacity bdSeq = .error .enodata) : t.count = 0 := by
  unfold format at h
  split at h
  · cases h
  split at h
  · cases h
  split at h
  · assumption
  · rcases hp : ndataPublication capacity t.items t.nextSeq bdSeq cfg.batch with err | p
    · rw [hp] at h
      cases h
      rcases ndataPublication_error hp with herr | herr <;> cases herr
    · rw [hp] at h
      cases h

end Transmission

namespace Service

/-- `publish_work_handler`, with the time, what the client writes through the
pointer to the token, and what it answers. -/
def publishWorkHandler (s : Service cfg) (now : ℕ) (timestampMs : UInt64)
    (token : Option UInt32) (answer : Except Errno Unit) : Service cfg :=
  let s := s.publishStarted
  match s.publishBuffer timestampMs with
  | .error err => s.publishReturned now (.error err)
  | .ok none => s.publishReturned now (.ok ())
  | .ok (some submission) => s.submitted now submission token answer

/-- What `publish_buffer` returns. -/
def publishBufferResult (s : Service cfg) (timestampMs : UInt64) (answer : Except Errno Unit) :
    Except Errno Unit :=
  match s.publishBuffer timestampMs with
  | .error err => .error err
  | .ok none => .ok ()
  | .ok (some _) => answer

/-- There is something to send. -/
def due (s : Service cfg) : Prop :=
  s.birthPending ∨ s.transmission.shouldFlush s.lastSampleTimestamp

/-- The connection is up and free. -/
def ready (s : Service cfg) : Prop := s.mqttConnected ∧ s.publishInFlight = false

/-- While a publication is in flight nothing is scheduled, and no NBIRTH waits
behind an NDATA. -/
def waitsForResult (s : Service cfg) : Prop :=
  s.publishInFlight → s.mqttConnected ∧ s.publishWork = none ∧
    (s.birthInFlight = false → s.birthPending = false)

/-- The work is scheduled when it is needed. -/
structure Awake (s : Service cfg) : Prop where
  scheduled : s.ready → s.due → s.publishWork.isSome
  inFlight : s.waitsForResult

/-! ## What a request does -/

theorem requestPublish_ready {s : Service cfg} (h : s.ready) (now delayMs : ℕ) :
    s.requestPublish now delayMs =
      { s with publishWork := some (s.publishWork.getD (now + delayMs)) } := by
  unfold requestPublish
  rw [if_pos (by simp [h.1, h.2])]
  rfl

theorem requestPublish_not_ready {s : Service cfg} (h : ¬s.ready) (now delayMs : ℕ) :
    s.requestPublish now delayMs = s := by
  unfold requestPublish
  rw [if_neg]
  rintro ⟨hconnected, hfree⟩
  exact h ⟨hconnected, by simpa using hfree⟩

/-- After a request the work is scheduled if it can do anything. -/
theorem Awake.request {s : Service cfg} (hinFlight : s.waitsForResult) (now delayMs : ℕ) :
    Awake (s.requestPublish now delayMs) := by
  by_cases h : s.ready
  · rw [requestPublish_ready h]
    exact ⟨fun _ _ => rfl, fun hf => absurd hf (by simp [h.2])⟩
  · rw [requestPublish_not_ready h]
    exact ⟨fun hr => absurd hr h, hinFlight⟩

/-- A request does not move a deadline. -/
theorem requestPublish_deadline {s : Service cfg} {d : ℕ} (h : s.publishWork = some d)
    (now delayMs : ℕ) : (s.requestPublish now delayMs).publishWork = some d := by
  by_cases hready : s.ready
  · rw [requestPublish_ready hready, h]
    rfl
  · rw [requestPublish_not_ready hready, h]

/-! ## What the entry points do -/

/-- When `publish_buffer` has no data there is nothing to send. -/
theorem publishBuffer_enodata {s : Service cfg} {timestampMs : UInt64}
    (h : s.publishBuffer timestampMs = .error .enodata) :
    s.birthPending = false ∧ s.transmission.count = 0 := by
  unfold publishBuffer at h
  split at h
  · cases h
  split at h
  · unfold publishBirth at h
    rcases hp : nbirthPublication cfg.payloadSize timestampMs s.bdSeq with err | p
    · obtain rfl := nbirthPublication_error hp
      rw [hp] at h
      cases h
    · rcases ht : sparkplugTopic cfg.groupId cfg.edgeNodeId topicSize .nbirth with err | topic
      · obtain rfl := sparkplugTopic_error ht
        rw [hp, ht] at h
        cases h
      · rw [hp, ht] at h
        cases h
  · rename_i hbirth
    refine ⟨by simpa using hbirth, ?_⟩
    unfold publishData at h
    rcases hf : s.transmission.format cfg.payloadSize s.bdSeq with err | ⟨p, count⟩
    · rw [hf] at h
      cases h
      exact Transmission.format_enodata hf
    · rcases ht : sparkplugTopic cfg.groupId cfg.edgeNodeId topicSize .ndata with err | topic
      · obtain rfl := sparkplugTopic_error ht
        rw [hf, ht] at h
        cases h
      · rw [hf, ht] at h
        cases h

theorem publishBuffer_none {s : Service cfg} {timestampMs : UInt64}
    (h : s.publishBuffer timestampMs = .ok none) : ¬s.ready := by
  rintro ⟨hconnected, hfree⟩
  unfold publishBuffer at h
  rw [if_neg (by simp [hconnected, hfree])] at h
  split at h
  · rcases hp : s.publishBirth timestampMs with err | q <;> rw [hp] at h <;> cases h
  · rcases hp : s.publishData with err | q <;> rw [hp] at h <;> cases h

theorem publishBuffer_error {s : Service cfg} {timestampMs : UInt64} {err : Errno}
    (h : s.publishBuffer timestampMs = .error err) : s.ready := by
  unfold publishBuffer at h
  split at h
  · cases h
  · rename_i hidle
    obtain ⟨hconnected, hfree⟩ := not_or.mp hidle
    exact ⟨by simpa using hconnected, by simpa using hfree⟩

/-- An NDATA is only submitted when no NBIRTH is pending. -/
theorem publishBuffer_ndata {s : Service cfg} {timestampMs : UInt64} {submission : Submission}
    (h : s.publishBuffer timestampMs = .ok (some submission))
    (htype : submission.publication.type = .ndata) : s.birthPending = false := by
  obtain ⟨-, -, ⟨-, hbirth⟩ | ⟨hbirth, -⟩⟩ := publishBuffer_some h
  · have hnbirth := (nbirthPublication_ok (publishBirth_ok hbirth).1).1
    rw [htype] at hnbirth
    cases hnbirth
  · exact hbirth

/-- After `publish_buffer` failed, the work is scheduled unless there is nothing to send. -/
theorem Awake.publishReturned {s : Service cfg} {err : Errno} (hfree : s.publishInFlight = false)
    (hnodata : err = .enodata → s.birthPending = false ∧ s.transmission.count = 0) (now : ℕ) :
    Awake (s.publishReturned now (.error err)) := by
  have hinFlight : s.waitsForResult := fun hf => absurd hf (by simp [hfree])
  unfold Service.publishReturned
  split
  · contradiction
  · rename_i herr
    obtain ⟨hbirth, hcount⟩ := hnodata (Except.error.inj herr)
    refine ⟨fun _ hdue => ?_, hinFlight⟩
    rcases hdue with hb | hflush
    · simp [hbirth] at hb
    · have := Transmission.shouldFlush_count hflush
      omega
  · exact Awake.request hinFlight _ _

theorem Awake.publishWorkHandler {s : Service cfg} (ha : Awake s) (now : ℕ) (timestampMs : UInt64)
    (token : Option UInt32) {answer : Except Errno Unit} (hanswer : answer ≠ .error .enodata) :
    Awake (s.publishWorkHandler now timestampMs token answer) := by
  unfold Service.publishWorkHandler
  dsimp only
  split
  · rename_i err herr
    refine Awake.publishReturned (publishBuffer_error herr).2 (fun h => ?_) now
    exact publishBuffer_enodata (h ▸ herr)
  · rename_i hnone
    refine ⟨fun hr => absurd hr (publishBuffer_none hnone), fun hf => ?_⟩
    obtain ⟨hconnected, -, hbirth⟩ := ha.inFlight hf
    exact ⟨hconnected, rfl, hbirth⟩
  · rename_i submission hsome
    obtain ⟨hconnected, hfree, -⟩ := publishBuffer_some hsome
    unfold submitted
    dsimp only
    split
    · rename_i err
      refine Awake.publishReturned (by exact hfree) (fun h => ?_) now
      exact absurd (congrArg Except.error h) hanswer
    · split
      · refine ⟨fun hr => absurd hr.2 (by simp), fun _ => ⟨hconnected, rfl, fun hb => ?_⟩⟩
        exact absurd hb (by simp)
      · rename_i htype
        have hbirth : s.birthPending = false := publishBuffer_ndata hsome htype
        exact ⟨fun hr => absurd hr.2 (by simp), fun _ => ⟨hconnected, rfl, fun _ => hbirth⟩⟩

theorem Awake.sample {s : Service cfg} (ha : Awake s) (now : ℕ)
    (reading : Except Errno Measurement) : Awake (s.sample now reading).1 := by
  unfold Service.sample
  split
  · exact ⟨ha.scheduled, ha.inFlight⟩
  rcases reading with err | m
  · exact ⟨ha.scheduled, ha.inFlight⟩
  dsimp only
  rcases s.transmission.add m with err | transmission
  · exact ⟨ha.scheduled, ha.inFlight⟩
  dsimp only
  split
  · exact Awake.request (by exact ha.inFlight) _ _
  · rename_i hnot
    refine ⟨fun hr hdue => ?_, ha.inFlight⟩
    rcases hdue with hbirth | hflush
    · exact ha.scheduled hr (.inl hbirth)
    · exact absurd (.inr hflush) hnot

theorem Awake.onMqttConnected {s : Service cfg} (ha : Awake s) (hs : s.mqttConnected = false)
    (now : ℕ) : Awake (s.onMqttConnected now) := by
  refine Awake.request (fun hf => ?_) _ _
  exact absurd (ha.inFlight hf).1 (by simp [hs])

theorem Awake.onMqttDisconnected (s : Service cfg) : Awake s.onMqttDisconnected :=
  ⟨fun hr => absurd hr.1 (by simp [Service.onMqttDisconnected]),
    fun hf => absurd hf (by simp [Service.onMqttDisconnected])⟩

/-- The request that follows a commit. -/
theorem Awake.flush {s : Service cfg} (hfree : s.publishInFlight = false)
    (hbirth : s.birthPending = false) (now : ℕ) :
    Awake (if s.transmission.shouldFlush s.lastSampleTimestamp then s.requestPublish now 0
      else s) := by
  have hinFlight : s.waitsForResult := fun hf => absurd hf (by simp [hfree])
  split
  · exact Awake.request hinFlight _ _
  · rename_i hnot
    refine ⟨fun _ hdue => ?_, hinFlight⟩
    rcases hdue with hb | hflush
    · exact absurd hb (by simp [hbirth])
    · exact absurd hflush hnot

theorem Awake.publishResult {s : Service cfg} (ha : Awake s) (now : ℕ) (token : UInt32)
    (result : ℤ) : Awake (s.publishResult now token result).1 := by
  unfold Service.publishResult
  split
  · exact ha
  rename_i hcurrent
  have hf : s.publishInFlight := by
    simpa using (not_or.mp hcurrent).1
  dsimp only
  split
  · unfold birthResult
    split <;> exact Awake.request (fun hf => absurd hf (by simp)) _ _
  · rename_i hbirth
    have hpending := (ha.inFlight hf).2.2 (by simpa using hbirth)
    unfold dataResult
    split
    · dsimp only
      rcases s.transmission.commit s.pendingMeasurementCount with err | transmission
      · exact Awake.flush (s := { s with
          publishInFlight := false, pendingMeasurementCount := 0 }) rfl hpending now
      · exact Awake.flush (s := { s with
          publishInFlight := false, transmission := transmission, pendingMeasurementCount := 0 })
          rfl hpending now
    · exact Awake.request (fun hf => absurd hf (by simp)) _ _

end Service

/-! ## Runs -/

/-- What `aitsm_mqtt_publish_payload` returns. Neither the client nor
`k_work_submit_to_queue` knows -ENODATA. -/
abbrev ClientAnswer : Type := { answer : Except Errno Unit // answer ≠ .error .enodata }

namespace Wakeup

/-- The entry points of the service; the times are those at which they run. -/
inductive Action where
  | sample (now : ℕ) (reading : Except Errno Measurement)
  | publishWork (now : ℕ) (timestampMs : UInt64) (token : Option UInt32) (answer : ClientAnswer)
  | mqttConnected (now : ℕ)
  | mqttDisconnected
  | publishResult (now : ℕ) (token : UInt32) (result : ℤ)

/-- One entry point. The work runs when it is due, and the controller reports a
connection only when the last one has ended. -/
def step (s : Service cfg) : Action → Option (Service cfg × List Empty)
  | .sample now reading => some ((s.sample now reading).1, [])
  | .publishWork now timestampMs token answer =>
    if s.publishWork.any (· ≤ now) then
      some (s.publishWorkHandler now timestampMs token answer, [])
    else none
  | .mqttConnected now => if s.mqttConnected then none else some (s.onMqttConnected now, [])
  | .mqttDisconnected => some (s.onMqttDisconnected, [])
  | .publishResult now token result => some ((s.publishResult now token result).1, [])

/-- When an entry point learns that a publication failed. -/
def failedAt (s : Service cfg) : Action → Option ℕ
  | .publishWork now timestampMs _ answer =>
    match s.publishStarted.publishBufferResult timestampMs answer with
    | .error err => if err = .enodata then none else some now
    | .ok () => none
  | .publishResult now token result =>
    if s.publishInFlight ∧ token = s.pendingPublishToken ∧ result ≠ 0 then some now else none
  | _ => none

/-- The work does not run, and the connection does not end. -/
def Action.waits : Action → Bool
  | .publishWork _ _ _ _ | .mqttDisconnected => false
  | _ => true

end Wakeup

/-- The measurement service, entered in any order. -/
def wakeup (cfg : Config) : Library.System (Service cfg) Wakeup.Action Empty where
  start := {}
  step := Wakeup.step

namespace Service

open Wakeup

theorem Awake.step {s s' : Service cfg} {a : Action} {es : List Empty} (ha : Awake s)
    (h : Wakeup.step s a = some (s', es)) : Awake s' := by
  cases a with
  | sample now reading =>
    obtain ⟨rfl, -⟩ := Prod.mk.inj (Option.some.inj h)
    exact ha.sample now reading
  | publishWork now timestampMs token answer =>
    simp only [Wakeup.step] at h
    split at h
    · obtain ⟨rfl, -⟩ := Prod.mk.inj (Option.some.inj h)
      exact ha.publishWorkHandler now timestampMs token answer.2
    · cases h
  | mqttConnected now =>
    simp only [Wakeup.step] at h
    split at h
    · cases h
    · rename_i hs
      obtain ⟨rfl, -⟩ := Prod.mk.inj (Option.some.inj h)
      exact ha.onMqttConnected (by simpa using hs) now
  | mqttDisconnected =>
    obtain ⟨rfl, -⟩ := Prod.mk.inj (Option.some.inj h)
    exact Awake.onMqttDisconnected s
  | publishResult now token result =>
    obtain ⟨rfl, -⟩ := Prod.mk.inj (Option.some.inj h)
    exact ha.publishResult now token result

theorem Awake.of_run {ok : Service cfg → List (Step (Service cfg) Action Empty) → Action → Prop}
    {s : Service cfg} {ρ : List (Step (Service cfg) Action Empty)}
    (hr : (wakeup cfg).record.Run ok s ρ) : Awake s :=
  hr.unrecord.invariant_state
    ⟨fun hr => absurd hr.1 (by simp [wakeup]), fun hf => absurd hf (by simp [wakeup])⟩
    fun _ _ _ _ _ ha _ hs => ha.step hs

/-- A request made when nothing is scheduled sets the deadline. -/
theorem requestPublish_free {s : Service cfg} (hready : s.ready) (hwork : s.publishWork = none)
    (now delayMs : ℕ) : (s.requestPublish now delayMs).publishWork = some (now + delayMs) := by
  rw [requestPublish_ready hready, hwork]
  rfl

theorem publishReturned_deadline {s : Service cfg} {err : Errno} (hready : s.ready)
    (hwork : s.publishWork = none) (herr : err ≠ .enodata) (now : ℕ) :
    (s.publishReturned now (.error err)).publishWork = some (now + intervalMs cfg) := by
  unfold publishReturned
  split
  · contradiction
  · rename_i h
    exact absurd (Except.error.inj h) herr
  · exact requestPublish_free hready hwork _ _

theorem publishWorkHandler_deadline {s : Service cfg} {timestampMs : UInt64}
    {answer : Except Errno Unit} {err : Errno} (herr : err ≠ .enodata)
    (h : s.publishStarted.publishBufferResult timestampMs answer = .error err) (now : ℕ)
    (token : Option UInt32) :
    (s.publishWorkHandler now timestampMs token answer).publishWork
      = some (now + intervalMs cfg) := by
  unfold publishBufferResult at h
  unfold publishWorkHandler
  dsimp only
  rcases hbuffer : s.publishStarted.publishBuffer timestampMs with err' | _ | submission
  · rw [hbuffer] at h
    obtain rfl := Except.error.inj h
    exact publishReturned_deadline (publishBuffer_error hbuffer) rfl herr now
  · rw [hbuffer] at h
    cases h
  · rw [hbuffer] at h
    dsimp only at h ⊢
    obtain ⟨hconnected, hfree, -⟩ := publishBuffer_some hbuffer
    subst h
    exact publishReturned_deadline (by exact ⟨hconnected, hfree⟩) (by rfl) herr now

theorem publishResult_deadline {s : Service cfg} {token : UInt32} {result : ℤ} (ha : Awake s)
    (hf : s.publishInFlight) (ht : token = s.pendingPublishToken) (hresult : result ≠ 0)
    (now : ℕ) :
    (s.publishResult now token result).1.publishWork = some (now + intervalMs cfg) := by
  obtain ⟨hconnected, hwork, -⟩ := ha.inFlight hf
  unfold publishResult
  rw [if_neg (by simp [hf, ht])]
  dsimp only
  split
  · rw [birthResult, if_neg hresult]
    exact requestPublish_free ⟨by exact hconnected, by rfl⟩ (by exact hwork) _ _
  · rw [dataResult, if_neg hresult]
    exact requestPublish_free ⟨by exact hconnected, by rfl⟩ (by exact hwork) _ _

/-- After a failure the next attempt is one interval away. -/
theorem failed_deadline {s s' : Service cfg} {a : Action} {es : List Empty} {now : ℕ}
    (ha : Awake s) (h : Wakeup.step s a = some (s', es)) (hfailed : failedAt s a = some now) :
    s'.publishWork = some (now + intervalMs cfg) := by
  cases a with
  | publishWork now' timestampMs token answer =>
    simp only [failedAt] at hfailed
    simp only [Wakeup.step] at h
    split at hfailed
    · rename_i err herr
      split at hfailed
      · cases hfailed
      · rename_i hne
        obtain rfl := Option.some.inj hfailed
        split at h
        · obtain ⟨rfl, -⟩ := Prod.mk.inj (Option.some.inj h)
          exact publishWorkHandler_deadline hne herr _ token
        · cases h
    · cases hfailed
  | publishResult now' token result =>
    simp only [failedAt] at hfailed
    split at hfailed
    · rename_i hcurrent
      obtain rfl := Option.some.inj hfailed
      obtain ⟨rfl, -⟩ := Prod.mk.inj (Option.some.inj h)
      exact publishResult_deadline ha hcurrent.1 hcurrent.2.1 hcurrent.2.2 _
    · cases hfailed
  | sample now' reading => cases hfailed
  | mqttConnected now' => cases hfailed
  | mqttDisconnected => cases hfailed

/-- Nothing but the work itself and the end of the connection moves a deadline. -/
theorem waits_deadline {s s' : Service cfg} {a : Action} {es : List Empty} {d : ℕ}
    (ha : Awake s) (h : Wakeup.step s a = some (s', es)) (hwaits : a.waits)
    (hd : s.publishWork = some d) : s'.publishWork = some d := by
  cases a with
  | publishWork now timestampMs token answer => cases hwaits
  | mqttDisconnected => cases hwaits
  | sample now reading =>
    obtain ⟨rfl, -⟩ := Prod.mk.inj (Option.some.inj h)
    unfold Service.sample
    split
    · exact hd
    rcases reading with err | m
    · exact hd
    dsimp only
    rcases s.transmission.add m with err | transmission
    · exact hd
    dsimp only
    split
    · exact requestPublish_deadline (by exact hd) _ _
    · exact hd
  | mqttConnected now =>
    simp only [Wakeup.step] at h
    split at h
    · cases h
    · obtain ⟨rfl, -⟩ := Prod.mk.inj (Option.some.inj h)
      exact requestPublish_deadline (by exact hd) _ _
  | publishResult now token result =>
    obtain ⟨rfl, -⟩ := Prod.mk.inj (Option.some.inj h)
    have hfree : s.publishInFlight = false := by
      by_contra hf
      obtain ⟨-, hnone, -⟩ := ha.inFlight (by simpa using hf)
      rw [hnone] at hd
      cases hd
    rw [publishResult_stale (.inl hfree)]
    exact hd

/-- **Transmission does not stall.** Between two handlers the work is scheduled
whenever there is a connection, nothing in flight, and something to send; and
once a publication failed the next attempt stays where it was put, one interval
later, until it is made or the connection ends. -/
theorem transmission_never_stalls {s : Service cfg}
    {ρ : List (Step (Service cfg) Action Empty)} (hr : (wakeup cfg).record.Run anyStep s ρ) :
    (s.mqttConnected → s.publishInFlight = false →
      s.birthPending ∨ s.transmission.shouldFlush s.lastSampleTimestamp →
        s.publishWork.isSome) ∧
    ∀ ρ₁ x ρ₂ now, ρ = ρ₁ ++ x :: ρ₂ → failedAt x.before x.action = some now →
      (∀ y ∈ ρ₂, y.action.waits) → s.publishWork = some (now + intervalMs cfg) := by
  refine ⟨fun hconnected hfree hdue => (Awake.of_run hr).scheduled ⟨hconnected, hfree⟩ hdue, ?_⟩
  intro ρ₁ x ρ₂ now hρ hfailed hwaits
  exact hr.since (J := Awake) (P := fun x => failedAt x.before x.action = some now)
    (K := fun y => y.action.waits) (I := fun _ _ s => s.publishWork = some (now + intervalMs cfg))
    Awake.of_run (fun x ha hs hf => failed_deadline ha hs hf)
    (fun x _ y ha hs hw hd => waits_deadline ha hs hw hd) ρ₁ x ρ₂ hρ hfailed hwaits

/-- The client refuses the NBIRTH, and a measurement comes in before the next attempt. -/
def refusedThenSampled : List Action :=
  [.mqttConnected 0, .publishWork 0 0 none ⟨.error .ebusy, nofun⟩, .sample 1000 (.ok ⟨1, 2, 3⟩)]

theorem refusedThenSampled_replays :
    ((wakeup singleConfig).record.replay anyStep {} [] refusedThenSampled).isSome := by
  decide +kernel

theorem transmission_never_stalls_refused :
    ∃ s ρ, (wakeup singleConfig).record.Run anyStep s ρ ∧ s.birthPending ∧
      s.publishWork.isSome :=
  ⟨_, _, .of_isSome refusedThenSampled_replays, by decide +kernel,
    (transmission_never_stalls (.of_isSome refusedThenSampled_replays)).1
      (by decide +kernel) (by decide +kernel) (.inl (by decide +kernel))⟩

/-- The measurement is due at once, but the attempt stays where it was. -/
example : (((wakeup singleConfig).replay anyStep {} [] refusedThenSampled).map fun r =>
    (r.1.transmission.shouldFlush r.1.lastSampleTimestamp, r.1.publishWork))
      = some (true, some 15000) := by
  decide +kernel

end Service

end Aitsm.Original
