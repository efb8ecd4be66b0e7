import Aitsm.Original.Frames

/-!
# Who owns the copied payload

`publish_pending` is the lock of `publish_payload`, `publish_topic` and
`publish_token`. Its owner is the caller that is about to fill them, the publish
job in the queue, or the worker that writes them; there is never more than one
(`Owned`). A message that is active has no such job and no such caller, so the
copied payload stays what it was when the message was accepted.
-/

namespace Aitsm.Original.Client

open Library Library.Wire
open Library.System (anyStep)

/-- The caller has taken `publish_pending`. -/
def Caller.owns : Caller → Bool
  | .publishActive _ | .publishRelease | .publishCopy _ | .publishGeneration | .publishToken
  | .publishSubmit | .publishNotSubmitted _ => true
  | _ => false

/-- The caller has found no active message and may write the buffers. -/
def Caller.writes : Caller → Bool
  | .publishCopy _ | .publishGeneration | .publishToken | .publishSubmit
  | .publishNotSubmitted _ => true
  | _ => false

/-- The worker has taken `publish_pending`, itself or with the publish job. -/
def Worker.owns : Worker → Bool
  | .publish | .release | .send _ | .sending _ | .sent _ _ | .postFailed _ _ | .timeoutId
  | .timeoutPublishGeneration _ | .timeoutToken _ _ | .timeoutLte _ | .timeoutConnected _
  | .timeoutGeneration _ => true
  | _ => false

/-- `publish_pending` has one owner at most, and none when it is clear. -/
structure Owned (c : Client) : Prop where
  nodup : c.queue.Nodup
  free : c.publishPending = false →
    c.caller.owns = false ∧ .publish ∉ c.queue ∧ c.worker.owns = false
  caller : c.caller.owns → .publish ∉ c.queue ∧ c.worker.owns = false
  queued : .publish ∈ c.queue → c.worker.owns = false
  active : c.activePublishId ≠ 0 →
    c.caller.writes = false ∧ .publish ∉ c.queue ∧ c.worker ≠ .publish

theorem Caller.owns_of_writes {x : Caller} (h : x.writes) : x.owns := by
  cases x <;> first | rfl | cases h

namespace Owned

variable {cfg : ClientConfig} {c c' : Client} {es : List Event}

/-! ## What the steps are made of -/

theorem not_caller (ho : Owned c) (hown : c.worker.owns) : c.caller.owns = false := by
  by_contra hx
  simp [(ho.caller (by simpa using hx)).2] at hown

theorem not_queued (ho : Owned c) (hown : c.worker.owns) : .publish ∉ c.queue := by
  intro hq
  simp [ho.queued hq] at hown

theorem not_writes {x : Caller} (hx : x.owns = false) : x.writes = false := by
  by_contra hwrites
  simp [Caller.owns_of_writes (by simpa using hwrites)] at hx

/-- The caller moves on and owns what it owned. -/
theorem withCaller (ho : Owned c) {x : Caller} (howns : x.owns = c.caller.owns)
    (hactive : c.activePublishId ≠ 0 → x.writes = false) : Owned { c with caller := x } where
  nodup := ho.nodup
  free hp := ⟨howns.trans (ho.free hp).1, (ho.free hp).2⟩
  caller hx := ho.caller (howns.symm.trans hx)
  queued := ho.queued
  active ha := ⟨hactive ha, (ho.active ha).2⟩

/-- The caller takes `publish_pending`. -/
theorem callerTakes (ho : Owned c) {x : Caller} (hp : c.publishPending = false)
    (hx : x.writes = false) : Owned { c with caller := x, publishPending := true } where
  nodup := ho.nodup
  free := nofun
  caller _ := (ho.free hp).2
  queued := ho.queued
  active ha := ⟨hx, (ho.active ha).2⟩

/-- The caller clears `publish_pending`. -/
theorem callerReleases (ho : Owned c) {x : Caller} (hown : c.caller.owns)
    (hx : x.owns = false) : Owned { c with caller := x, publishPending := false } where
  nodup := ho.nodup
  free _ := ⟨hx, ho.caller hown⟩
  caller h := absurd h (by simp [hx])
  queued := ho.queued
  active ha := ⟨not_writes hx, (ho.active ha).2⟩

/-- The worker moves on and owns what it owned. -/
theorem withWorker (ho : Owned c) {x : Worker} (howns : x.owns = c.worker.owns)
    (hx : x ≠ .publish) : Owned { c with worker := x } where
  nodup := ho.nodup
  free hp := ⟨(ho.free hp).1, (ho.free hp).2.1, howns.trans (ho.free hp).2.2⟩
  caller hc := ⟨(ho.caller hc).1, howns.trans (ho.caller hc).2⟩
  queued hq := howns.trans (ho.queued hq)
  active ha := ⟨(ho.active ha).1, (ho.active ha).2.1, hx⟩

/-- The worker takes `publish_pending`. -/
theorem workerTakes (ho : Owned c) {x : Worker} (hp : c.publishPending = false)
    (hx : x ≠ .publish) : Owned { c with worker := x, publishPending := true } where
  nodup := ho.nodup
  free := nofun
  caller hc := absurd hc (by simp [(ho.free hp).1])
  queued hq := absurd hq (ho.free hp).2.1
  active ha := ⟨(ho.active ha).1, (ho.active ha).2.1, hx⟩

/-- The worker clears `publish_pending`. -/
theorem workerReleases (ho : Owned c) {x : Worker} (hown : c.worker.owns)
    (hx : x.owns = false) : Owned { c with worker := x, publishPending := false } where
  nodup := ho.nodup
  free _ := ⟨ho.not_caller hown, ho.not_queued hown, hx⟩
  caller hc := ⟨(ho.caller hc).1, hx⟩
  queued _ := hx
  active ha := ⟨(ho.active ha).1, (ho.active ha).2.1, by rintro rfl; cases hx⟩

/-- A job other than the publish job is nobody's ownership. -/
theorem submit (ho : Owned c) {job : Job} (hjob : job ≠ .publish) : Owned (c.submit job) := by
  unfold Client.submit
  split
  · exact ho
  have hmem : .publish ∈ c.queue ++ [job] ↔ .publish ∈ c.queue := by simp [hjob.symm]
  constructor
  case nodup => simpa using ho.nodup.concat ‹_›
  all_goals simp only [hmem]
  exacts [ho.free, ho.caller, ho.queued, ho.active]

/-- The caller leaves its ownership to the publish job. -/
theorem submitPublish (ho : Owned c) {x : Caller} (hwrites : c.caller.writes)
    (hx : x.owns = false) : Owned ({ c with caller := x }.submit .publish) := by
  have hown := Caller.owns_of_writes hwrites
  obtain ⟨hq, hw⟩ := ho.caller hown
  have hp : c.publishPending ≠ false := fun hp => by simp [(ho.free hp).1] at hown
  have ha : c.activePublishId = 0 := by
    by_contra ha
    simp [(ho.active ha).1] at hwrites
  rw [Client.submit, if_neg hq]
  constructor
  case nodup => simpa using ho.nodup.concat hq
  case free => exact fun h => absurd h hp
  case caller => exact fun h => absurd h (by simp [hx])
  case queued => exact fun _ => hw
  case active => exact fun h => absurd ha h

/-- No message is active any more. -/
theorem inactive (ho : Owned c) : Owned { c with activePublishId := 0 } :=
  { ho with active := fun h => absurd rfl h }

theorem cancelTimeout (ho : Owned c) : Owned c.cancelTimeout := by
  have hmem : .publish ∈ c.queue.filter (· ≠ .pubackTimeout) ↔ .publish ∈ c.queue := by simp
  constructor <;> simp only [Client.cancelTimeout, hmem]
  exacts [ho.nodup.filter _, ho.free, ho.caller, ho.queued, ho.active]

theorem invalidate (ho : Owned c) : Owned c.invalidate :=
  cancelTimeout { ho.inactive with }

theorem closeConnected (ho : Owned c) : Owned c.closeConnected := { ho with }

theorem closePublish (ho : Owned c) : Owned c.closePublish :=
  cancelTimeout { ho.inactive with }

/-- The message of the publish job becomes the active one. -/
theorem activate (ho : Owned c) {x : Worker} {id : UInt16} (hown : c.worker.owns)
    (hpublish : x ≠ .publish) : Owned { c with worker := x, activePublishId := id } where
  nodup := ho.nodup
  free hp := by simp [(ho.free hp).2.2] at hown
  caller hc := by simp [ho.not_caller hown] at hc
  queued hq := absurd hq (ho.not_queued hown)
  active _ := ⟨not_writes (ho.not_caller hown), ho.not_queued hown, hpublish⟩

/-- Taking a job hands its ownership from the queue to the worker. -/
theorem take (ho : Owned c) {job : Job} {rest : List Job} (hq : c.queue = job :: rest) :
    Owned { c with worker := job.handler, queue := rest } := by
  obtain ⟨hnot, hnodup⟩ := List.nodup_cons.mp (hq ▸ ho.nodup)
  have hrest (h : .publish ∈ rest) : .publish ∈ c.queue := hq ▸ List.mem_cons_of_mem _ h
  cases job with
  | publish =>
    have hmem : .publish ∈ c.queue := by simp [hq]
    exact
      { nodup := hnodup
        free := fun hp => absurd hmem (ho.free hp).2.1
        caller := fun hc => absurd hmem (ho.caller hc).1
        queued := fun h => absurd h hnot
        active := fun ha => absurd hmem (ho.active ha).2.1 }
  | connect | disconnect | pubackTimeout =>
    exact
      { nodup := hnodup
        free := fun hp => ⟨(ho.free hp).1, fun h => (ho.free hp).2.1 (hrest h), rfl⟩
        caller := fun hc => ⟨fun h => (ho.caller hc).1 (hrest h), rfl⟩
        queued := fun _ => rfl
        active := fun ha => ⟨(ho.active ha).1, fun h => (ho.active ha).2.1 (hrest h), by simp [Job.handler]⟩ }

/-! ## The steps -/

theorem callerStep (ho : Owned c) (h : c.callerStep = some (c', es)) : Owned c' := by
  have hactive (ha : c.activePublishId ≠ 0) : c.caller.writes = false := (ho.active ha).1
  cases hc : c.caller <;> rw [hc] at hactive <;> simp only [Client.callerStep, hc] at h
  case idle => cases h
  case publishTake m =>
    split at h <;> rename_i hp <;> cases h
    · exact ho.withCaller (by simp [hc, Caller.owns]) fun _ => rfl
    · exact ho.callerTakes (by simpa using hp) rfl
  case publishActive m =>
    split at h <;> cases h
    · exact ho.withCaller (by simp [hc, Caller.owns]) fun _ => rfl
    · exact ho.withCaller (by simp [hc, Caller.owns]) fun ha => absurd ha ‹_›
  case publishRelease | publishNotSubmitted err =>
    cases h
    exact ho.callerReleases (by simp [hc, Caller.owns]) rfl
  case publishCopy m | publishGeneration | publishToken =>
    cases h
    exact { ho.withCaller (by simp [hc, Caller.owns]) hactive with }
  case publishSubmit =>
    cases h
    exact ho.submitPublish (by simp [hc, Caller.writes]) rfl
  case connectSubmit | disconnectSubmit =>
    cases h
    exact (ho.withCaller (by simp [hc, Caller.owns]) fun _ => rfl).submit (by simp)
  case invalidate =>
    split at h <;> cases h
    exact (ho.withCaller (by simp [hc, Caller.owns]) fun _ => rfl).invalidate
  case lteSet | connectNotSubmitted err =>
    cases h
    exact { ho.withCaller (by simp [hc, Caller.owns]) fun _ => rfl with }
  all_goals
    split at h <;> cases h
    all_goals exact { ho.withCaller (by simp [hc, Caller.owns]) fun _ => rfl with }

theorem publishSent (ho : Owned c) {w : Write} {err : ℤ} (hown : c.worker.owns) :
    Owned (c.publishSent w err).1 := by
  have hmove {x : Worker} (hx : x.owns) (hpublish : x ≠ .publish) : Owned { c with worker := x } :=
    ho.withWorker (hx.trans hown.symm) hpublish
  unfold Client.publishSent
  split
  · exact (hmove (x := .postFailed w.serial err) rfl (by simp)).inactive.cancelTimeout
  split
  · exact { hmove (x := .release) rfl (by simp) with }
  · exact hmove rfl (by simp)

theorem workerStep (ho : Owned c) (h : c.workerStep cfg = some (c', es)) : Owned c' := by
  cases hw : c.worker <;> simp only [Client.workerStep, hw] at h
  case idle =>
    split at h
    · cases h
    · cases h
      exact ho.take ‹_›
  case release =>
    cases h
    exact ho.workerReleases (by simp [hw, Worker.owns]) rfl
  case connectRelease | connectGeneration | connectSetGeneration g | connectFailed g
      | connectPostError | postFailed serial err | timeoutId | timeoutPublishGeneration id =>
    cases h
    exact { ho.withWorker (by simp [hw, Worker.owns]) (by simp) with }
  case sent w err =>
    split at h
    · cases h
    · obtain rfl := congrArg Prod.fst (Option.some.inj h)
      exact ho.publishSent (by simp [hw, Worker.owns])
  case timeoutTake =>
    split at h <;> rename_i hp <;> cases h
    · exact ho.withWorker (by simp [hw, Worker.owns]) (by simp)
    · exact ho.workerTakes (by simpa using hp) (by simp)
  case onDisconnect x =>
    cases x <;> simp only at h
    case publish =>
      cases h
      exact closePublish (ho.withWorker (by simp [hw, Worker.owns]) (by simp))
    case connected =>
      split at h <;> cases h
      exact closeConnected (ho.withWorker (by simp [hw, Worker.owns]) (by simp))
    all_goals
      cases h
      exact { ho.withWorker (by simp [hw, Worker.owns]) (by simp) with }
  case publish =>
    split at h <;> try split at h
    all_goals cases h
    exact ho.withWorker (by simp [hw, Worker.owns]) (by simp)
  case connectHelper | send | sending => cases h
  all_goals
    split at h <;> cases h
    all_goals exact { ho.withWorker (by simp [hw, Worker.owns]) (by simp) with }

theorem pollStep (ho : Owned c) (h : c.pollStep = some (c', es)) : Owned c' := by
  have hmove {x : Poll} : Owned { c with poll := x } := { ho with }
  cases hp : c.poll <;> simp only [Client.pollStep, hp] at h
  case connackInvalidate =>
    split at h <;> cases h
    exact hmove.invalidate
  case connackSubmit =>
    cases h
    exact hmove.submit (by simp)
  case onDisconnect x =>
    cases x <;> simp only at h
    case connected =>
      split at h <;> cases h
      exact hmove.closeConnected
    case pending =>
      cases h
      exact { ho with }
    case publish =>
      cases h
      exact hmove.closePublish
    case post =>
      cases h
      exact hmove
  case connackLte | connackGeneration g | refusedLte | refusedGeneration g =>
    split at h <;> cases h
    all_goals exact hmove
  all_goals cases h
  all_goals exact { ho with }

theorem step {a : Action} (ho : Owned c) (h : c.step cfg a = some (c', es)) : Owned c' := by
  cases a with
  | caller => exact ho.callerStep h
  | worker => exact ho.workerStep h
  | poll => exact ho.pollStep h
  | callPublish m =>
    obtain ⟨hidle, hstart⟩ := call_eq_some h
    rcases callPublish_cases cfg c m with ⟨err, hcase⟩ | hcase
    · cases hcase.symm.trans hstart
      exact ho
    · cases hcase.symm.trans hstart
      exact ho.withCaller (by simp [hidle, Caller.owns]) fun _ => rfl
  | callConnect | callDisconnect =>
    obtain ⟨hidle, ⟨⟩⟩ := call_eq_some h
    exact ho.withCaller (by simp [hidle, Caller.owns]) fun _ => rfl
  | callSetLteAvailable available =>
    obtain ⟨hidle, ⟨⟩⟩ := call_eq_some h
    cases available
    all_goals exact ho.withCaller (by simp [hidle, Caller.owns]) fun _ => rfl
  | callerNoSubmit err =>
    obtain ⟨hc, -, rfl⟩ | ⟨hc, -, rfl⟩ | ⟨hc, -, rfl⟩ := callerNoSubmit_cases h
    · refine ho.withCaller (by simp [hc, Caller.owns]) fun ha => ?_
      have hwrites := (ho.active ha).1
      rw [hc] at hwrites
      exact hwrites
    all_goals exact ho.withCaller (by simp [hc, Caller.owns]) fun _ => rfl
  | workerConnect failed =>
    obtain ⟨g, hw, -, rfl | ⟨-, rfl⟩⟩ := workerConnect_cases h
    all_goals exact { ho.withWorker (by simp [hw, Worker.owns]) (by simp) with }
  | workerMessageId id =>
    obtain ⟨hw, -, -, rfl⟩ := workerMessageId_cases h
    exact { ho.activate (by simp [hw, Worker.owns]) (by simp) with }
  | workerWrite transmitted =>
    obtain ⟨w, hw, -, rfl⟩ := workerWrite_cases h
    exact { ho.withWorker (by simp [hw, Worker.owns]) (by simp) with }
  | workerSent err =>
    obtain ⟨w, hw, -, rfl⟩ := workerSent_cases h
    exact { ho.withWorker (by simp [hw, Worker.owns]) (by simp) with }
  | pollConnack accepted | pollDisconnect | pollError =>
    obtain ⟨-, -, -, rfl⟩ := pollStart_cases h
    exact { ho with }
  | pollPuback id result =>
    obtain ⟨-, -, -, ⟨-, rfl⟩ | rfl⟩ := pollPuback_cases h
    · exact cancelTimeout { ho.inactive with }
    · exact ho
  | expire =>
    obtain ⟨-, -, rfl⟩ := expire_cases h
    have hi : Owned { c with timer := false } := { ho with }
    exact hi.submit (by simp)
  | forget id =>
    cases h
    exact { ho with }

theorem of_run {c : Client} {τ : List Event} (hr : (mqttClient cfg).Run anyStep c τ) : Owned c :=
  hr.invariant_state (by constructor <;> simp [mqttClient, Caller.owns, Worker.owns])
    fun _ _ _ _ _ ho _ hs => ho.step hs

end Owned

end Aitsm.Original.Client
