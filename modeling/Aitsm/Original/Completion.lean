import Aitsm.Original.Retry

/-!
# Every accepted publication completes at most once

A token can still be answered as long as somebody holds a claim to it: the
publication itself, until its message id is taken (`unanswered`), or a thread
that has taken the id and is about to post the result. A step hands a claim on
or spends it on a result, and only a new token brings a new one (`Spends`).
-/

namespace Aitsm.Original.Client

open Library Library.Wire
open Library.System (anyStep Step reports)

variable {cfg : ClientConfig} {c c' : Client} {es : List Event}

/-- The publication was accepted, or is about to be, and the worker has not
chosen its message id. -/
def unsent (c : Client) : Prop :=
  .publish ∈ c.queue ∨ c.worker = .publish ∨ c.caller = .publishSubmit

/-- The publication is queued, being written or waiting for its PUBACK. -/
def unanswered (c : Client) (serial : ℕ) : Prop :=
  serial = c.publishToken ∧ (c.unsent ∨ c.activePublishId ≠ 0)

instance (c : Client) : Decidable c.unsent := by unfold unsent; infer_instance
instance (c : Client) (serial : ℕ) : Decidable (c.unanswered serial) := by
  unfold unanswered; infer_instance

/-- `mqtt_on_puback` is about to post the result. -/
def Poll.answering : Poll → ℕ → Bool
  | .pubackPost serial' _, serial => serial' = serial
  | _, _ => false

/-- `publish_sent` is about to post the error. -/
def Worker.answering : Worker → ℕ → Bool
  | .postFailed serial' _, serial => serial' = serial
  | _, _ => false

/-- How many results can still be posted for a token. -/
def claims (c : Client) (serial : ℕ) : ℕ :=
  (decide (c.unanswered serial)).toNat + (c.poll.answering serial).toNat
    + (c.worker.answering serial).toNat

/-- A result for the token. -/
def Event.isResult (serial : ℕ) : Event → Bool
  | .posted (.mqttPublishResult serial' _) => serial' = serial
  | _ => false

example : [Event.posted (.mqttPublishResult 7 0), .posted .mqttConnected,
    .posted (.mqttPublishResult 8 0)].countP (Event.isResult 7) = 1 := by decide +kernel

/-- A step spends claims on results; only a new token brings a claim. -/
def Spends (c c' : Client) (es : List Event) : Prop :=
  ∀ serial, es.countP (Event.isResult serial) + c'.claims serial ≤ c.claims serial ∨
    c.claims serial = 0 ∧ es = [] ∧ serial = c.nextPublishToken + 1 ∧
      c'.nextPublishToken = c.nextPublishToken + 1 ∧ c'.claims serial = 1

theorem Poll.of_answering {p : Poll} {serial : ℕ} (h : p.answering serial) :
    ∃ result, p = .pubackPost serial result := by
  cases p with
  | pubackPost serial' result =>
    obtain rfl : serial' = serial := of_decide_eq_true h
    exact ⟨result, rfl⟩
  | _ => cases h

theorem Worker.of_answering {w : Worker} {serial : ℕ} (h : w.answering serial) :
    ∃ err, w = .postFailed serial err := by
  cases w with
  | postFailed serial' err =>
    obtain rfl : serial' = serial := of_decide_eq_true h
    exact ⟨err, rfl⟩
  | _ => cases h

theorem claims_le {serial : ℕ} (hheld : c'.unanswered serial → c.unanswered serial)
    (hpoll : c'.poll.answering serial → c.poll.answering serial)
    (hworker : c'.worker.answering serial → c.worker.answering serial) :
    c'.claims serial ≤ c.claims serial := by
  unfold claims
  refine Nat.add_le_add (Nat.add_le_add ?_ ?_) ?_
  · exact Bool.toNat_le_toNat fun h => decide_eq_true (hheld (of_decide_eq_true h))
  · exact Bool.toNat_le_toNat hpoll
  · exact Bool.toNat_le_toNat hworker

/-- The publication hands its claim to a thread. -/
theorem claims_handOn {serial : ℕ} (hheld : c.unanswered serial) (hdrop : ¬c'.unanswered serial)
    (hother : c'.poll = c.poll ∨ c'.worker = c.worker) : c'.claims serial ≤ c.claims serial := by
  unfold claims
  have hpoll := Bool.toNat_le (c'.poll.answering serial)
  have hworker := Bool.toNat_le (c'.worker.answering serial)
  rw [decide_eq_true hheld, decide_eq_false hdrop, Bool.toNat_false, Bool.toNat_true]
  rcases hother with hsame | hsame
  · rw [hsame]
    omega
  · rw [hsame]
    omega

/-- No token gains a claim. -/
def ClaimsLe (c c' : Client) : Prop := ∀ serial, c'.claims serial ≤ c.claims serial

namespace ClaimsLe

variable {c'' : Client}

theorem spends (h : ClaimsLe c c') (hes : ∀ serial, es.countP (Event.isResult serial) = 0) :
    Spends c c' es := by
  intro serial
  rw [hes serial, Nat.zero_add]
  exact .inl (h serial)

theorem trans (h : ClaimsLe c c') (h' : ClaimsLe c' c'') : ClaimsLe c c'' :=
  fun serial => (h' serial).trans (h serial)

theorem of_frame (htoken : c'.publishToken = c.publishToken)
    (hheld : c'.unsent ∨ c'.activePublishId ≠ 0 → c.unsent ∨ c.activePublishId ≠ 0)
    (hpoll : ∀ serial, c'.poll.answering serial → c.poll.answering serial)
    (hworker : ∀ serial, c'.worker.answering serial → c.worker.answering serial) : ClaimsLe c c' :=
  fun serial => claims_le (fun h => ⟨h.1.trans htoken, hheld h.2⟩) (hpoll serial) (hworker serial)

/-- The caller moves on. -/
theorem withCaller (hx : c'.caller ≠ .publishSubmit) (hqueue : c'.queue = c.queue := by rfl)
    (hworker : c'.worker = c.worker := by rfl) (hpoll : c'.poll = c.poll := by rfl)
    (htoken : c'.publishToken = c.publishToken := by rfl)
    (hactive : c'.activePublishId = c.activePublishId := by rfl) : ClaimsLe c c' := by
  refine of_frame htoken ?_ (by simp [hpoll]) (by simp [hworker])
  rw [unsent, hqueue, hworker, hactive]
  rintro ((hq | hw | hc) | ha)
  · exact .inl (.inl hq)
  · exact .inl (.inr (.inl hw))
  · exact absurd hc hx
  · exact .inr ha

/-- The worker moves on. -/
theorem withWorker (hx : c'.worker ≠ .publish)
    (hanswering : ∀ serial, c'.worker.answering serial = false)
    (hqueue : c'.queue = c.queue := by rfl) (hcaller : c'.caller = c.caller := by rfl)
    (hpoll : c'.poll = c.poll := by rfl) (htoken : c'.publishToken = c.publishToken := by rfl)
    (hactive : c'.activePublishId = c.activePublishId := by rfl) : ClaimsLe c c' := by
  refine of_frame htoken ?_ (by simp [hpoll]) (by simp [hanswering])
  rw [unsent, hqueue, hcaller, hactive]
  rintro ((hq | hw | hc) | ha)
  · exact .inl (.inl hq)
  · exact absurd hw hx
  · exact .inl (.inr (.inr hc))
  · exact .inr ha

/-- The poll thread moves on. -/
theorem withPoll (hanswering : ∀ serial, c'.poll.answering serial = false)
    (hqueue : c'.queue = c.queue := by rfl) (hcaller : c'.caller = c.caller := by rfl)
    (hworker : c'.worker = c.worker := by rfl) (htoken : c'.publishToken = c.publishToken := by rfl)
    (hactive : c'.activePublishId = c.activePublishId := by rfl) : ClaimsLe c c' := by
  refine of_frame htoken ?_ (by simp [hanswering]) (by simp [hworker])
  rw [unsent, unsent, hqueue, hcaller, hworker, hactive]
  exact id

/-- A job other than the publish job. -/
theorem submit {job : Job} (hjob : job ≠ .publish) : ClaimsLe c (c.submit job) := by
  rw [Client.submit]
  split
  · exact fun _ => le_rfl
  · refine of_frame rfl ?_ (fun _ => id) fun _ => id
    simp [unsent, hjob.symm]

/-- The caller leaves its claim to the publish job. -/
theorem submitPublish (hc : c.caller = .publishSubmit) :
    ClaimsLe c ({ c with caller := .idle }.submit .publish) := by
  have hunsent : c.unsent := .inr (.inr hc)
  rw [Client.submit]
  split
  · exact of_frame rfl (fun _ => .inl hunsent) (fun _ => id) fun _ => id
  · exact of_frame rfl (fun _ => .inl hunsent) (fun _ => id) fun _ => id

theorem inactive : ClaimsLe c { c with activePublishId := 0 } :=
  of_frame rfl (Or.imp_right fun h => absurd rfl h) (fun _ => id) fun _ => id

theorem cancelTimeout : ClaimsLe c c.cancelTimeout := by
  refine of_frame rfl ?_ (fun _ => id) fun _ => id
  simp [unsent, Client.cancelTimeout]

theorem invalidate : ClaimsLe c c.invalidate :=
  (inactive (c := { c with generation := c.generation + 1 })).trans cancelTimeout

theorem closeConnected : ClaimsLe c c.closeConnected :=
  of_frame rfl id (fun _ => id) fun _ => id

theorem closePublish : ClaimsLe c c.closePublish :=
  (inactive (c := { c with lock := false, generation := c.generation + 1 })).trans cancelTimeout

/-- Taking the publish job hands its claim to the worker. -/
theorem take {job : Job} {rest : List Job} (hq : c.queue = job :: rest) :
    ClaimsLe c { c with worker := job.handler, queue := rest } := by
  refine of_frame rfl ?_ (fun _ => id) fun serial h => ?_
  · rintro ((hrest | hw | hc) | ha)
    · exact .inl (.inl (hq ▸ List.mem_cons_of_mem _ hrest))
    · have hjob : job = .publish := by
        cases job with
        | publish => rfl
        | connect | disconnect | pubackTimeout => cases hw
      exact .inl (.inl (by simp [hq, hjob]))
    · exact .inl (.inr (.inr hc))
    · exact .inr ha
  · cases job <;> cases h

/-- The publication hands its claim to a thread. -/
theorem handOn {serial : ℕ} (hheld : c.unanswered serial) (htoken : c'.publishToken = serial)
    (hdrop : ¬(c'.unsent ∨ c'.activePublishId ≠ 0))
    (hpoll : ∀ serial' ≠ serial, c'.poll.answering serial' → c.poll.answering serial')
    (hworker : ∀ serial' ≠ serial, c'.worker.answering serial' → c.worker.answering serial')
    (hother : c'.poll = c.poll ∨ c'.worker = c.worker) : ClaimsLe c c' := by
  intro serial'
  by_cases hs : serial' = serial
  · subst hs
    exact claims_handOn hheld (fun h => hdrop h.2) hother
  · exact claims_le (fun h => absurd (h.1.trans htoken) hs) (hpoll serial' hs) (hworker serial' hs)

end ClaimsLe

namespace Spends

/-- A new token brings its claim. -/
theorem publishToken (ho : Owned c) (hu : UnderWay c) (hcaller : c.caller = .publishToken)
    (h : c.callerStep = some (c', es)) : Spends c c' es := by
  simp only [Client.callerStep, hcaller] at h
  obtain ⟨rfl, rfl⟩ := Prod.mk.inj (Option.some.inj h)
  have hown : c.caller.owns := by rw [hcaller]; rfl
  have hidle : ∀ serial, ¬c.unanswered serial := by
    rintro serial ⟨-, (hq | hw | hc) | ha⟩
    · exact (ho.caller hown).1 hq
    · have hfree := (ho.caller hown).2
      rw [hw] at hfree
      cases hfree
    · rw [hcaller] at hc
      cases hc
    · have hwrites := (ho.active ha).1
      rw [hcaller] at hwrites
      cases hwrites
  intro serial
  by_cases hnew : serial = c.nextPublishToken + 1
  · have hpoll : c.poll.answering serial = false := by
      by_contra ha
      obtain ⟨result, hp⟩ := Poll.of_answering (by simpa using ha)
      have := hu.puback serial result hp
      omega
    have hworker : c.worker.answering serial = false := by
      by_contra ha
      obtain ⟨err, hw⟩ := Worker.of_answering (by simpa using ha)
      have := (hu.postFailed serial err hw).2
      omega
    refine .inr ⟨?_, rfl, hnew, rfl, ?_⟩
    · simp [claims, hidle serial, hpoll, hworker]
    · subst hnew
      simp [claims, unanswered, unsent, hpoll, hworker]
  · refine .inl ?_
    rw [List.countP_nil, Nat.zero_add]
    exact claims_le (fun h => absurd h.1 hnew) id id

theorem callerStep (ho : Owned c) (hu : UnderWay c) (h : c.callerStep = some (c', es)) :
    Spends c c' es := by
  have hmove {x : Caller} (hx : x ≠ .publishSubmit) : ClaimsLe c { c with caller := x } :=
    .withCaller hx
  cases hc : c.caller
  case publishToken => exact publishToken ho hu hc h
  all_goals simp only [Client.callerStep, hc] at h
  case idle => cases h
  case publishSubmit =>
    cases h
    exact (ClaimsLe.submitPublish hc).spends fun _ => rfl
  case connectSubmit | disconnectSubmit =>
    cases h
    exact ((hmove (x := .idle) (by simp)).trans (.submit (by simp))).spends fun _ => rfl
  case invalidate =>
    split at h <;> cases h
    exact ((hmove (x := .disconnectSubmit) (by simp)).trans .invalidate).spends fun _ => rfl
  case publishRelease | publishCopy | publishGeneration | publishNotSubmitted
      | connectNotSubmitted | lteSet =>
    cases h
    exact (ClaimsLe.withCaller (by simp)).spends fun _ => rfl
  all_goals
    split at h <;> cases h
    all_goals exact (ClaimsLe.withCaller (by simp)).spends fun _ => rfl

/-- A write that failed gives the claim of the publication to the worker. -/
theorem publishSent (ho : Owned c) (hu : UnderWay c) {w : Write} {err : ℤ}
    (hw : c.worker = .sent w err) : Spends c (c.publishSent w err).1 (c.publishSent w err).2 := by
  obtain ⟨hid, hserial, -⟩ := hu.write w (by rw [hw]; rfl)
  have hown : c.worker.owns := by rw [hw]; rfl
  rw [Client.publishSent]
  split
  · rename_i hfailed
    refine ClaimsLe.spends ?_ fun _ => rfl
    have hheld : c.unanswered w.serial := ⟨hserial, .inr (hfailed.2.2 ▸ hid)⟩
    refine .handOn hheld hserial.symm ?_ (fun _ _ => id) (fun serial' hs h => ?_) (.inl rfl)
    · rintro ((hq | hpublish | hc) | ha)
      · exact ho.not_queued hown (List.mem_of_mem_filter hq)
      · cases hpublish
      · have hidle := ho.not_caller hown
        rw [show c.caller = .publishSubmit from hc] at hidle
        cases hidle
      · exact ha rfl
    · exact absurd (of_decide_eq_true h).symm hs
  split
  · exact (ClaimsLe.withWorker (by simp) (fun _ => rfl)).spends fun _ => rfl
  · exact (ClaimsLe.withWorker (by simp) (fun _ => rfl)).spends fun _ => rfl

/-- The worker spends its claim. -/
theorem postFailed {serial : ℕ} {err : ℤ} (hw : c.worker = .postFailed serial err) :
    Spends c { c with worker := .release } [.posted (.mqttPublishResult serial err)] := by
  intro serial'
  have hheld : (decide ({ c with worker := .release }.unanswered serial')).toNat
      ≤ (decide (c.unanswered serial')).toNat := by
    refine Bool.toNat_le_toNat fun h => decide_eq_true ?_
    obtain ⟨htoken, (hq | hrelease | hc) | ha⟩ := of_decide_eq_true h
    · exact ⟨htoken, .inl (.inl hq)⟩
    · cases hrelease
    · exact ⟨htoken, .inl (.inr (.inr hc))⟩
    · exact ⟨htoken, .inr ha⟩
  refine .inl ?_
  rw [claims, claims, hw, List.countP_singleton]
  by_cases hs : serial = serial' <;> simp only [Worker.answering, Event.isResult, hs] <;> simp <;>
    omega

theorem workerStep (ho : Owned c) (hu : UnderWay c) (h : c.workerStep cfg = some (c', es)) :
    Spends c c' es := by
  have hmove {x : Worker} (hx : x ≠ .publish) (hanswering : ∀ serial, x.answering serial = false) :
      ClaimsLe c { c with worker := x } := .withWorker hx hanswering
  cases hw : c.worker <;> simp only [Client.workerStep, hw] at h
  case idle =>
    split at h <;> cases h
    exact (ClaimsLe.take ‹_›).spends fun _ => rfl
  case sent w err =>
    split at h
    · cases h
    · obtain ⟨rfl, rfl⟩ := Prod.mk.inj (Option.some.inj h)
      exact publishSent ho hu hw
  case postFailed serial err =>
    cases h
    exact postFailed hw
  case onDisconnect x =>
    cases x <;> simp only at h
    case connected =>
      split at h <;> cases h
      exact ((hmove (x := .onDisconnect .pending) (by simp) fun _ => rfl).trans
        .closeConnected).spends fun _ => rfl
    case publish =>
      cases h
      exact ((hmove (x := .onDisconnect .post) (by simp) fun _ => rfl).trans
        .closePublish).spends fun _ => rfl
    case pending | post =>
      cases h
      exact (ClaimsLe.withWorker (by simp) fun _ => rfl).spends fun _ => rfl
  case publish =>
    split at h <;> try split at h
    all_goals cases h
    exact (ClaimsLe.withWorker (by simp) fun _ => rfl).spends fun _ => rfl
  case connectHelper | send | sending => cases h
  case connectRelease | connectGeneration | connectSetGeneration | connectFailed | connectPostError
      | release | timeoutId | timeoutPublishGeneration =>
    cases h
    exact (ClaimsLe.withWorker (by simp) fun _ => rfl).spends fun _ => rfl
  all_goals
    split at h <;> cases h
    all_goals exact (ClaimsLe.withWorker (by simp) fun _ => rfl).spends fun _ => rfl

/-- `mqtt_on_puback` spends its claim. -/
theorem pubackPost {serial : ℕ} {result : ℤ} (hp : c.poll = .pubackPost serial result) :
    Spends c { c with poll := .idle } [.posted (.mqttPublishResult serial result)] := by
  intro serial'
  have hsame : ({ c with poll := .idle } : Client).unanswered = c.unanswered := rfl
  refine .inl ?_
  simp only [claims, hsame, hp, Poll.answering, List.countP_singleton, Event.isResult]
  by_cases hs : serial = serial' <;> simp [hs]
  omega

theorem pollStep (h : c.pollStep = some (c', es)) : Spends c c' es := by
  have hmove {x : Poll} (hanswering : ∀ serial, x.answering serial = false) :
      ClaimsLe c { c with poll := x } := .withPoll hanswering
  cases hp : c.poll <;> simp only [Client.pollStep, hp] at h
  case idle => cases h
  case pubackPost serial result =>
    cases h
    exact pubackPost hp
  case connackInvalidate =>
    split at h <;> cases h
    exact ((hmove (x := .connackSubmit) fun _ => rfl).trans .invalidate).spends fun _ => rfl
  case connackSubmit =>
    cases h
    exact ((hmove (x := .idle) fun _ => rfl).trans (.submit (by simp))).spends fun _ => rfl
  case onDisconnect x =>
    cases x <;> simp only at h
    case connected =>
      split at h <;> cases h
      exact ((hmove (x := .onDisconnect .pending) fun _ => rfl).trans
        .closeConnected).spends fun _ => rfl
    case publish =>
      cases h
      exact ((hmove (x := .onDisconnect .post) fun _ => rfl).trans
        .closePublish).spends fun _ => rfl
    case pending | post =>
      cases h
      exact (ClaimsLe.withPoll fun _ => rfl).spends fun _ => rfl
  case connackLte | connackGeneration | refusedLte | refusedGeneration =>
    split at h <;> cases h
    all_goals exact (ClaimsLe.withPoll fun _ => rfl).spends fun _ => rfl
  case connack accepted =>
    cases h
    cases accepted
    all_goals exact (ClaimsLe.withPoll fun _ => rfl).spends fun _ => rfl
  all_goals
    cases h
    exact (ClaimsLe.withPoll fun _ => rfl).spends fun _ => rfl

/-- An accepted PUBACK takes the claim of the publication. -/
theorem pollPuback (ho : Owned c) (hu : UnderWay c) {id : UInt16} {result : ℤ}
    (h : c.pollPuback id result = some (c', es)) : Spends c c' es := by
  obtain ⟨-, hexpected, rfl, ⟨⟨-, -, rfl⟩, rfl⟩ | rfl⟩ := pollPuback_cases h
  · have hid : c.activePublishId ≠ 0 := fun hzero => hu.nonzero (hzero ▸ hexpected)
    have htoken := hu.active hid
    obtain ⟨hwrites, hqueue, hpublish⟩ := ho.active hid
    have hheld : c.unanswered c.activePublishToken := ⟨htoken, .inr hid⟩
    refine ClaimsLe.spends ?_ fun _ => rfl
    refine .handOn hheld htoken.symm ?_ (fun serial' hs h => ?_) (fun _ _ h => h) (.inr rfl)
    · rintro ((hq | hw | hc) | ha)
      · exact hqueue (List.mem_of_mem_filter hq)
      · exact hpublish hw
      · rw [show c.caller = .publishSubmit from hc] at hwrites
        cases hwrites
      · exact ha rfl
    · exact absurd (of_decide_eq_true h).symm hs
  · exact ClaimsLe.spends (fun _ => le_rfl) fun _ => rfl

theorem step {a : Action} (ho : Owned c) (hu : UnderWay c)
    (h : c.step cfg a = some (c', es)) : Spends c c' es := by
  cases a with
  | caller => exact callerStep ho hu h
  | worker => exact workerStep ho hu h
  | poll => exact pollStep h
  | pollPuback id result => exact pollPuback ho hu h
  | callPublish m =>
    obtain ⟨hidle, hstart⟩ := call_eq_some h
    obtain ⟨x, hx, rfl⟩ := callPublish_caller cfg hidle hstart
    refine (ClaimsLe.withCaller hx).spends fun serial => List.countP_eq_zero.mpr fun e he => ?_
    obtain ⟨err, rfl⟩ := callPublish_events cfg c m e (by rw [hstart]; exact he)
    exact Bool.false_ne_true
  | callConnect | callDisconnect =>
    obtain ⟨-, ⟨⟩⟩ := call_eq_some h
    exact (ClaimsLe.withCaller (by simp)).spends fun _ => rfl
  | callSetLteAvailable available =>
    obtain ⟨-, ⟨⟩⟩ := call_eq_some h
    exact (ClaimsLe.withCaller (by cases available <;> simp)).spends fun _ => rfl
  | callerNoSubmit err =>
    obtain ⟨-, rfl, rfl⟩ | ⟨-, rfl, rfl⟩ | ⟨-, rfl, rfl⟩ := callerNoSubmit_cases h
    all_goals exact (ClaimsLe.withCaller (by simp)).spends fun _ => rfl
  | workerConnect failed =>
    obtain ⟨g, -, rfl, rfl | ⟨-, rfl⟩⟩ := workerConnect_cases h
    all_goals exact (ClaimsLe.withWorker (by simp) fun _ => rfl).spends fun _ => rfl
  | workerMessageId id =>
    obtain ⟨hw, rfl, -, rfl⟩ := workerMessageId_cases h
    -- the claim of the job becomes that of the active message
    refine ClaimsLe.spends ?_ fun _ => rfl
    exact .of_frame rfl (fun _ => .inl (.inr (.inl hw))) (fun _ h => h)
      (by simp [Worker.answering])
  | workerWrite transmitted =>
    obtain ⟨w, -, rfl, rfl⟩ := workerWrite_cases h
    exact (ClaimsLe.withWorker (by simp) fun _ => rfl).spends fun _ => rfl
  | workerSent err =>
    obtain ⟨w, -, rfl, rfl⟩ := workerSent_cases h
    exact (ClaimsLe.withWorker (by simp) fun _ => rfl).spends fun _ => rfl
  | pollConnack accepted | pollDisconnect | pollError =>
    obtain ⟨-, -, rfl, rfl⟩ := pollStart_cases h
    exact (ClaimsLe.withPoll fun _ => rfl).spends fun _ => rfl
  | expire =>
    obtain ⟨-, rfl, rfl⟩ := expire_cases h
    exact (ClaimsLe.submit (c := { c with timer := false }) (by simp)).spends fun _ => rfl
  | forget id =>
    cases h
    exact ClaimsLe.spends (fun _ => le_rfl) fun _ => rfl

end Spends

/-- A token that was never given has no claims; the others have one result at most. -/
theorem results_le {c : Client} {τ : List Event} (hr : (mqttClient cfg).Run anyStep c τ) :
    ∀ serial, τ.countP (Event.isResult serial) + c.claims serial ≤
      if serial ≤ c.nextPublishToken then 1 else 0 := by
  refine hr.invariant_with (J := fun c _ => Owned c ∧ UnderWay c)
    (I := fun c τ => ∀ serial, τ.countP (Event.isResult serial) + c.claims serial ≤
      if serial ≤ c.nextPublishToken then 1 else 0)
    (fun hr => ⟨Owned.of_run hr, UnderWay.of_run hr⟩) ?_ ?_
  · intro serial
    simp [mqttClient, claims, unanswered, unsent, Poll.answering, Worker.answering]
  · intro c τ a c' es hinv hle _ hs serial
    obtain ⟨ho, hu⟩ := hinv
    have hgrows := (Backed.step ho hu hs).grows
    rw [List.countP_append]
    have := hle serial
    rcases Spends.step ho hu hs serial with hspent | ⟨hnone, rfl, hnew, hnext, hone⟩
    · split at this <;> split <;> omega
    · rw [List.countP_nil, hone]
      split at this <;> split <;> omega

/-! ## The generation of the acknowledgement -/

/-- A recorded run of the client. -/
abbrev Record : Type := List (Step Client Action Event)

/-- The message accepted under the token `serial` was handed to the helper under
`id`, in the generation `g`, and left. -/
def HandedIn (g : ℕ) (id : UInt16) (serial : ℕ) (ρ : Record) : Prop :=
  ∃ ρ₁ z ρ₂ w m, ρ = ρ₁ ++ z :: ρ₂ ∧ .written w m true ∈ z.events ∧ w.id = id ∧
    w.serial = serial ∧ z.before.generation = g ∧ .accepted serial m ∈ reports ρ₁

/-- And afterwards, in the same generation, a PUBACK with result 0 arrived. -/
def AckedIn (serial : ℕ) (ρ : Record) : Prop :=
  ∃ ρ₁ y ρ₂ id, ρ = ρ₁ ++ y :: ρ₂ ∧ .puback id 0 ∈ y.events ∧
    HandedIn y.before.generation id serial ρ₁

theorem HandedIn.append {g : ℕ} {id : UInt16} {serial : ℕ} {ρ : Record}
    (h : HandedIn g id serial ρ) (xs : Record) : HandedIn g id serial (ρ ++ xs) := by
  obtain ⟨ρ₁, z, ρ₂, w, m, rfl, hz⟩ := h
  exact ⟨ρ₁, z, ρ₂ ++ xs, w, m, by simp, hz⟩

theorem AckedIn.append {serial : ℕ} {ρ : Record} (h : AckedIn serial ρ) (xs : Record) :
    AckedIn serial (ρ ++ xs) := by
  obtain ⟨ρ₁, y, ρ₂, id, rfl, hy⟩ := h
  exact ⟨ρ₁, y, ρ₂ ++ xs, id, by simp, hy⟩

/-- Where the active message and the accepted acknowledgement come from. -/
structure TracedIn (c : Client) (ρ : Record) : Prop where
  handed : c.activePublishId ≠ 0 → c.activePublishId ∈ c.expected →
    HandedIn c.generation c.activePublishId c.publishToken ρ
  puback : ∀ serial, c.poll = .pubackPost serial 0 → AckedIn serial ρ

theorem TracedIn.step {a : Action} {ρ : Record} (ht : TracedIn c ρ)
    (hreports : Traced c (reports ρ)) (hb : Backed c c' es) (h : c.step cfg a = some (c', es)) :
    TracedIn c' (ρ ++ [⟨c, a, c', es⟩]) := by
  refine ⟨fun hactive hx => ?_, fun serial hp => ?_⟩
  · rw [(lasts h).of_active hactive]
    obtain ⟨htok, hact, hold | ⟨w, rfl, hid, hserial⟩⟩ := hb.expected hactive hx
    · rw [hact] at hactive ⊢
      rw [htok]
      exact (ht.handed hactive hold).append _
    · rw [hact] at hactive ⊢
      rw [htok]
      exact ⟨ρ, _, [], w, c.message, rfl, List.mem_cons_self, hid, hserial, rfl,
        hreports.accepted (.inr (.inr (.inl hactive)))⟩
  · rcases hb.poll serial hp with hold | ⟨id, rfl, rfl, hne, hx, rfl⟩
    · exact (ht.puback serial hold).append _
    · exact ⟨ρ, _, [], c.activePublishId, rfl, List.mem_cons_self, ht.handed hne hx⟩

theorem TracedIn.of_run {c : Client} {ρ : Record}
    (hr : (mqttClient cfg).record.Run anyStep c ρ) : TracedIn c ρ := by
  refine hr.invariant_with (J := fun c ρ => Owned c ∧ UnderWay c ∧ Traced c (reports ρ))
    (fun hr => ⟨Owned.of_run hr.unrecord, UnderWay.of_run hr.unrecord, Traced.of_run hr.unrecord⟩)
    ⟨by simp [mqttClient, Library.System.record], by simp [mqttClient, Library.System.record]⟩ ?_
  intro c ρ a c' xs hinv ht _ hs
  obtain ⟨ho, hu, htraced⟩ := hinv
  obtain ⟨es, hstep, rfl⟩ := Library.System.record_step hs
  exact ht.step htraced (Backed.step ho hu hstep) hstep

/-- A result 0 follows the acknowledgement of its own message. -/
theorem posted_ackedIn {c : Client} {ρ : Record} (hr : (mqttClient cfg).record.Run anyStep c ρ)
    {ρ₁ ρ₂ : Record} {x : Step Client Action Event} {serial : ℕ} (hρ : ρ = ρ₁ ++ x :: ρ₂)
    (hposted : .posted (.mqttPublishResult serial 0) ∈ x.events) : AckedIn serial ρ₁ := by
  obtain ⟨hbefore, -, hstep, -⟩ := hr.split hρ
  have hb := Backed.step (Owned.of_run hbefore.unrecord) (UnderWay.of_run hbefore.unrecord) hstep
  exact (TracedIn.of_run hbefore).puback serial ((hb.posted serial 0 hposted).2 rfl)

/-! ## A publication without a result -/

/-- A call of `aitsm_mqtt_publish_payload` starts. -/
def Action.isPublish : Action → Bool
  | .callPublish _ => true
  | _ => false

/-- While a call is under way, the run contains its start. -/
def Called (c : Client) (ρ : Record) : Prop :=
  ∀ m, c.carried = some m → ∃ ρ₁ x ρ₂, ρ = ρ₁ ++ x :: ρ₂ ∧ x.action = .callPublish m ∧
    ∀ z ∈ ρ₂, z.action.isPublish = false

theorem Called.of_run {c : Client} {ρ : Record}
    (hr : (mqttClient cfg).record.Run anyStep c ρ) : Called c ρ := by
  refine hr.invariant (I := Called) (by intro m h; cases h) ?_
  intro c ρ a c' xs hcalled _ hs m hm
  obtain ⟨es, hstep, rfl⟩ := Library.System.record_step hs
  rcases ha : a.isPublish with _ | _
  · have hanswers : Answers c c' es := Answers.step (by rintro m rfl; cases ha) hstep
    rcases hanswers.carried with hsame | hnone
    · obtain ⟨ρ₁, x, ρ₂, rfl, hx, hρ₂⟩ := hcalled m (hsame ▸ hm)
      refine ⟨ρ₁, x, ρ₂ ++ [⟨c, a, c', es⟩], by simp, hx, fun z hz => ?_⟩
      rcases List.mem_append.mp hz with hz | hz
      · exact hρ₂ z hz
      · obtain rfl := List.mem_singleton.mp hz
        exact ha
    · rw [hnone] at hm
      cases hm
  · cases a with
    | callPublish m' =>
      obtain ⟨hidle, hstart⟩ := call_eq_some hstep
      rcases callPublish_cases cfg c m' with ⟨err, hcase⟩ | hcase
      · cases hcase.symm.trans hstart
        rw [carried, hidle] at hm
        cases hm
      · cases hcase.symm.trans hstart
        cases hm
        exact ⟨ρ, _, [], rfl, rfl, by simp⟩
    | _ => cases ha

/-- The step costs the client LTE or the connection, or ends the generation. -/
def loses (x : Step Client Action Event) : Prop :=
  x.before.lteAvailable ∧ x.after.lteAvailable = false ∨
  x.before.helperConnected ∧ x.after.helperConnected = false ∨
  x.after.generation ≠ x.before.generation

/-- The caller has found LTE up. -/
def Caller.sawLte : Caller → Bool
  | .publishConnected _ | .publishTake _ | .publishActive _ | .publishCopy _ | .publishGeneration
  | .publishToken | .publishSubmit => true
  | _ => false

/-- The caller has found the connection up. -/
def Caller.sawConnected : Caller → Bool
  | .publishTake _ | .publishActive _ | .publishCopy _ | .publishGeneration | .publishToken
  | .publishSubmit => true
  | _ => false

/-- The caller has read the generation. -/
def Caller.sawGeneration : Caller → Bool
  | .publishToken | .publishSubmit => true
  | _ => false

/-- What a call has seen is still the case. -/
structure Entered (c : Client) : Prop where
  lte : c.caller.sawLte → c.lteAvailable
  connected : c.caller.sawConnected → c.helperConnected
  generation : c.caller.sawGeneration → c.publishGeneration = c.generation

/-- The publication is on its way, and nothing has happened to stop it. -/
def onItsWay (c : Client) (serial : ℕ) : Prop :=
  serial = c.publishToken ∧
    ((.publish ∈ c.queue ∨ c.worker = .publish) ∧ c.lteAvailable ∧ c.helperConnected ∧
        c.publishGeneration = c.generation ∨
      c.activePublishId ≠ 0) ∨
  c.poll.answering serial ∨ c.worker.answering serial

/-- A step that loses nothing keeps what a call can have seen. -/
theorem kept_of_not_loses {x : Step Client Action Event} (h : ¬loses x) :
    (x.before.lteAvailable → x.after.lteAvailable) ∧
    (x.before.helperConnected → x.after.helperConnected) ∧
    x.after.generation = x.before.generation := by
  simp only [loses, not_or, not_and, Bool.not_eq_false, not_not] at h
  exact h

namespace Entered

theorem of_unseen (h : c.caller.sawLte = false) : Entered c := by
  have hnone : c.caller.sawConnected = false ∧ c.caller.sawGeneration = false := by
    cases hc : c.caller <;> rw [hc] at h <;> first | exact ⟨rfl, rfl⟩ | cases h
  exact ⟨fun hs => absurd (h.symm.trans hs) Bool.false_ne_true,
    fun hs => absurd (hnone.1.symm.trans hs) Bool.false_ne_true,
    fun hs => absurd (hnone.2.symm.trans hs) Bool.false_ne_true⟩

theorem callerStep (he : Entered c) (h : c.callerStep = some (c', es)) : Entered c' := by
  have hunseen (job : Job) : Entered ({ c with caller := .idle }.submit job) := by
    refine of_unseen ?_
    rw [submit]
    split <;> rfl
  cases hc : c.caller <;> simp only [Client.callerStep, hc] at h
  case idle => cases h
  case publishLte m =>
    split at h <;> cases h
    · exact ⟨fun _ => ‹_›, fun hs => absurd hs Bool.false_ne_true,
        fun hs => absurd hs Bool.false_ne_true⟩
    · exact of_unseen rfl
  case publishConnected m =>
    have hlte := he.lte (by rw [hc]; rfl)
    split at h <;> cases h
    · exact ⟨fun _ => hlte, fun _ => ‹_›, fun hs => absurd hs Bool.false_ne_true⟩
    · exact of_unseen rfl
  case publishTake m | publishActive m =>
    have hlte := he.lte (by rw [hc]; rfl)
    have hconnected := he.connected (by rw [hc]; rfl)
    split at h <;> cases h
    all_goals first
      | exact of_unseen rfl
      | exact ⟨fun _ => hlte, fun _ => hconnected, fun hs => absurd hs Bool.false_ne_true⟩
  case publishCopy m =>
    cases h
    exact ⟨fun _ => he.lte (by rw [hc]; rfl), fun _ => he.connected (by rw [hc]; rfl),
      fun hs => absurd hs Bool.false_ne_true⟩
  case publishGeneration =>
    cases h
    exact ⟨fun _ => he.lte (by rw [hc]; rfl), fun _ => he.connected (by rw [hc]; rfl),
      fun _ => rfl⟩
  case publishToken =>
    cases h
    exact ⟨fun _ => he.lte (by rw [hc]; rfl), fun _ => he.connected (by rw [hc]; rfl),
      fun _ => he.generation (by rw [hc]; rfl)⟩
  case publishSubmit | connectSubmit | disconnectSubmit =>
    cases h
    exact hunseen _
  case invalidate =>
    split at h <;> cases h
    exact of_unseen rfl
  case publishRelease | publishNotSubmitted | connectNotSubmitted | lteSet =>
    cases h
    exact of_unseen rfl
  all_goals
    split at h <;> cases h
    all_goals exact of_unseen rfl

theorem step {a : Action} (he : Entered c) (ha : a.isPublish = false)
    (h : c.step cfg a = some (c', es)) (hkept : ¬loses ⟨c, a, c', es⟩) : Entered c' := by
  cases hcaller : a.isCaller with
  | false =>
    obtain ⟨hlte, hconnected, hgeneration⟩ := kept_of_not_loses hkept
    have hframe := OtherCaller.step hcaller h
    refine ⟨fun hs => ?_, fun hs => ?_, fun hs => ?_⟩ <;> rw [hframe.caller] at hs
    · exact hlte (he.lte hs)
    · exact hconnected (he.connected hs)
    · rw [hframe.publishGeneration]
      exact (he.generation hs).trans hgeneration.symm
  | true =>
    cases a with
    | callPublish m => cases ha
    | caller => exact he.callerStep h
    | callerNoSubmit err =>
      obtain ⟨-, rfl, rfl⟩ | ⟨-, rfl, rfl⟩ | ⟨-, rfl, rfl⟩ := callerNoSubmit_cases h
      all_goals exact of_unseen rfl
    | callConnect | callDisconnect =>
      obtain ⟨-, ⟨⟩⟩ := call_eq_some h
      exact of_unseen rfl
    | callSetLteAvailable available =>
      obtain ⟨-, ⟨⟩⟩ := call_eq_some h
      cases available <;> exact of_unseen rfl
    | _ => cases hcaller

/-- A publish call starts without having seen anything. -/
theorem of_call {m : Message} (h : c.step cfg (.callPublish m) = some (c', es)) :
    Entered c' := by
  obtain ⟨hidle, hstart⟩ := call_eq_some h
  rcases callPublish_cases cfg c m with ⟨err, hcase⟩ | hcase
  · cases hcase.symm.trans hstart
    exact .of_unseen (by rw [hidle]; rfl)
  · cases hcase.symm.trans hstart
    exact .of_unseen rfl

/-- An accepted publication is on its way if its call saw what is still the case. -/
theorem accepted {a : Action} {serial : ℕ} {m : Message} (he : Entered c)
    (h : c.step cfg a = some (c', es)) (hm : .accepted serial m ∈ es) : c'.onItsWay serial := by
  obtain ⟨-, hc, rfl, rfl⟩ := accepted_step h hm
  obtain ⟨rfl, -⟩ := Event.accepted.inj (List.mem_singleton.mp hm)
  have hlte := he.lte (by rw [hc]; rfl)
  have hconnected := he.connected (by rw [hc]; rfl)
  have hgeneration := he.generation (by rw [hc]; rfl)
  rw [submit]
  split
  · exact .inl ⟨rfl, .inl ⟨.inl ‹_›, hlte, hconnected, hgeneration⟩⟩
  · exact .inl ⟨rfl, .inl ⟨.inl (List.mem_append_right _ List.mem_cons_self), hlte, hconnected,
      hgeneration⟩⟩

end Entered

namespace onItsWay

variable {serial : ℕ}

/-- The step neither brings the publication on nor stops it. -/
theorem keep {a : Action} (hway : c.onItsWay serial) (hkept : ¬loses ⟨c, a, c', es⟩)
    (hqueued : .publish ∈ c.queue ∨ c.worker = .publish →
      .publish ∈ c'.queue ∨ c'.worker = .publish)
    (hpoll : c.poll.answering serial → c'.poll.answering serial)
    (hworker : c.worker.answering serial → c'.worker.answering serial)
    (htoken : c'.publishToken = c.publishToken := by rfl)
    (hgeneration : c'.publishGeneration = c.publishGeneration := by rfl)
    (hactive : c'.activePublishId = c.activePublishId := by rfl) : c'.onItsWay serial := by
  obtain ⟨hlte, hconnected, hkept⟩ := kept_of_not_loses hkept
  rcases hway with ⟨hserial, ⟨hq, hl, hc, hg⟩ | ha⟩ | hp | hw
  · refine .inl ⟨hserial.trans htoken.symm, .inl ⟨hqueued hq, hlte hl, hconnected hc, ?_⟩⟩
    exact hgeneration.trans (hg.trans hkept.symm)
  · exact .inl ⟨hserial.trans htoken.symm, .inr (hactive ▸ ha)⟩
  · exact .inr (.inl (hpoll hp))
  · exact .inr (.inr (hworker hw))

theorem submit (hway : c.onItsWay serial) (job : Job) : (c.submit job).onItsWay serial := by
  rw [Client.submit]
  split
  · exact hway
  · exact hway.imp_left fun h => ⟨h.1, h.2.imp_left fun hq =>
      ⟨hq.1.imp_left fun hmem => List.mem_append_left _ hmem, hq.2⟩⟩

/-- A caller that writes the buffers has no publication on its way but one that is
just being answered. -/
theorem answering_of_writes (ho : Owned c) (hwrites : c.caller.writes)
    (hway : c.onItsWay serial) : c.poll.answering serial ∨ c.worker.answering serial := by
  have hunused := ho.not_inUse hwrites
  refine hway.resolve_left fun ⟨_, h⟩ => hunused ?_
  rcases h with ⟨hq | hw, -⟩ | ha
  · exact .inl hq
  · exact .inr (.inl hw)
  · exact .inr (.inr (.inl ha))

theorem callerStep (ho : Owned c) (hway : c.onItsWay serial) (h : c.callerStep = some (c', es))
    (hkept : ¬loses ⟨c, .caller, c', es⟩) : c'.onItsWay serial := by
  obtain ⟨hlte, -, hlasts⟩ := kept_of_not_loses hkept
  cases hc : c.caller <;> simp only [Client.callerStep, hc] at h
  case idle => cases h
  case publishGeneration | publishToken =>
    cases h
    have hanswering := answering_of_writes ho (by rw [hc]; rfl) hway
    exact .inr hanswering
  case publishSubmit | connectSubmit | disconnectSubmit =>
    cases h
    exact submit (c := { c with caller := .idle }) hway _
  case invalidate =>
    split at h <;> cases h
    exact absurd hlasts (Nat.succ_ne_self _)
  case lteSet =>
    cases h
    exact hway.keep hkept id id id
  case lteClear =>
    split at h <;> cases h
    · exact hway.keep hkept id id id
    · exact hway
  case publishRelease | publishCopy | publishNotSubmitted | connectNotSubmitted =>
    cases h
    exact hway
  all_goals
    split at h <;> cases h
    all_goals exact hway

/-- The worker moves on, and did not have the publication in hand. -/
theorem withWorker {a : Action} (hway : c.onItsWay serial) (hkept : ¬loses ⟨c, a, c', es⟩)
    (hpublish : c.worker ≠ .publish) (hanswering : c.worker.answering serial = false)
    (hqueue : .publish ∈ c.queue → .publish ∈ c'.queue := by exact fun h => h)
    (hpoll : c'.poll = c.poll := by rfl) (htoken : c'.publishToken = c.publishToken := by rfl)
    (hgeneration : c'.publishGeneration = c.publishGeneration := by rfl)
    (hactive : c'.activePublishId = c.activePublishId := by rfl) : c'.onItsWay serial := by
  refine hway.keep hkept ?_ (hpoll ▸ id) (fun h => ?_) htoken hgeneration hactive
  · rintro (hq | hw)
    · exact .inl (hqueue hq)
    · exact absurd hw hpublish
  · exact absurd (hanswering.symm.trans h) Bool.false_ne_true

/-- Taking the publish job brings the publication on. -/
theorem take {job : Job} {rest : List Job} (hw : c.worker = .idle) (hq : c.queue = job :: rest)
    (hway : c.onItsWay serial) :
    onItsWay { c with worker := job.handler, queue := rest } serial := by
  refine hway.imp (fun ⟨hserial, h⟩ => ⟨hserial, h.imp_left fun ⟨hqueued, hkept⟩ => ⟨?_, hkept⟩⟩)
    (fun h => .inl (h.resolve_right (by simp [hw, Worker.answering])))
  rcases hqueued with hmem | hpublish
  · rw [hq] at hmem
    rcases List.mem_cons.mp hmem with rfl | hmem
    · exact .inr rfl
    · exact .inl hmem
  · cases hw.symm.trans hpublish

/-- `publish_sent` takes the answer in hand, or leaves the message active. -/
theorem publishSent (ho : Owned c) (hu : UnderWay c) {w : Write} {err : ℤ}
    (hw : c.worker = .sent w err) (hway : c.onItsWay serial) :
    (c.publishSent w err).1.onItsWay serial := by
  have hown : c.worker.owns := by rw [hw]; rfl
  have hqueue := ho.not_queued hown
  have hserial := (hu.write w (by rw [hw]; rfl)).2.1
  have hcases : serial = c.publishToken ∧ c.activePublishId ≠ 0 ∨ c.poll.answering serial := by
    rcases hway with ⟨hs, ⟨hq | hpublish, -⟩ | ha⟩ | hp | hanswering
    · exact absurd hq hqueue
    · cases hw.symm.trans hpublish
    · exact .inl ⟨hs, ha⟩
    · exact .inr hp
    · rw [hw] at hanswering
      cases hanswering
  rw [Client.publishSent]
  split
  · rcases hcases with ⟨hs, -⟩ | hp
    · exact .inr (.inr (decide_eq_true (hserial.trans hs.symm)))
    · exact .inr (.inl hp)
  split
  all_goals
    rcases hcases with ⟨hs, ha⟩ | hp
    · exact .inl ⟨hs, .inr ha⟩
    · exact .inr (.inl hp)

theorem workerStep (ho : Owned c) (hu : UnderWay c) (hway : c.onItsWay serial)
    (h : c.workerStep cfg = some (c', es)) (hkept : ¬loses ⟨c, .worker, c', es⟩)
    (hsilent : ∀ result, .posted (.mqttPublishResult serial result) ∉ es) :
    c'.onItsWay serial := by
  have hlasts := (kept_of_not_loses hkept).2.2
  cases hw : c.worker <;> simp only [Client.workerStep, hw] at h
  case idle =>
    split at h <;> cases h
    exact hway.take hw ‹_›
  case sent w err =>
    split at h
    · cases h
    · obtain ⟨rfl, rfl⟩ := Prod.mk.inj (Option.some.inj h)
      exact hway.publishSent ho hu hw
  case postFailed serial' err =>
    cases h
    refine hway.keep hkept (Or.imp_right fun hpublish => ?_) id fun hanswering => ?_
    · cases hw.symm.trans hpublish
    · rw [hw] at hanswering
      obtain rfl : serial' = serial := of_decide_eq_true hanswering
      exact absurd List.mem_cons_self (hsilent err)
  case publish =>
    split at h
    · cases h
    split at h <;> cases h
    rename_i hrefused
    have hinactive : c.activePublishId = 0 := by
      by_contra ha
      exact (ho.active ha).2.2 hw
    rcases hway with ⟨-, ⟨-, hl, hc, hg⟩ | ha⟩ | hp | hanswering
    · simp [hl, hc, hg] at hrefused
    · exact absurd hinactive ha
    · exact .inr (.inl hp)
    · rw [hw] at hanswering
      cases hanswering
  case onDisconnect x =>
    have hpublish : c.worker ≠ .publish := by simp [hw]
    have hanswering : c.worker.answering serial = false := by rw [hw]; rfl
    cases x <;> simp only at h
    case connected =>
      split at h <;> cases h
      exact hway.withWorker hkept hpublish hanswering
    case publish =>
      cases h
      exact absurd hlasts (Nat.succ_ne_self _)
    case pending | post =>
      cases h
      exact hway.withWorker hkept hpublish hanswering
  case connectHelper | send | sending => cases h
  case connectRelease | connectGeneration | connectSetGeneration | connectFailed | connectPostError
      | release | timeoutId | timeoutPublishGeneration =>
    cases h
    exact hway.withWorker hkept (by simp [hw]) (by rw [hw]; rfl)
  all_goals
    split at h <;> cases h
    all_goals exact hway.withWorker hkept (by simp [hw]) (by rw [hw]; rfl)

theorem pollStep (hway : c.onItsWay serial) (h : c.pollStep = some (c', es))
    (hkept : ¬loses ⟨c, .poll, c', es⟩)
    (hsilent : ∀ result, .posted (.mqttPublishResult serial result) ∉ es) :
    c'.onItsWay serial := by
  have hlasts := (kept_of_not_loses hkept).2.2
  cases hp : c.poll <;> simp only [Client.pollStep, hp] at h
  case idle => cases h
  case pubackPost serial' result =>
    cases h
    refine hway.keep hkept id (fun hanswering => ?_) id
    rw [hp] at hanswering
    obtain rfl : serial' = serial := of_decide_eq_true hanswering
    exact absurd List.mem_cons_self (hsilent result)
  case connackInvalidate =>
    split at h <;> cases h
    exact absurd hlasts (Nat.succ_ne_self _)
  case connackSubmit =>
    cases h
    have hidle : onItsWay { c with poll := .idle } serial :=
      hway.imp_right (Or.imp_left fun hanswering => by rw [hp] at hanswering; cases hanswering)
    exact hidle.submit _
  case onDisconnect x =>
    cases x <;> simp only at h
    case connected =>
      split at h <;> cases h
      exact hway.keep hkept id (by simp [hp, Poll.answering]) id
    case publish =>
      cases h
      exact absurd hlasts (Nat.succ_ne_self _)
    case pending | post =>
      cases h
      exact hway.keep hkept id (by simp [hp, Poll.answering]) id
  case connackLte | connackGeneration | refusedLte | refusedGeneration =>
    split at h <;> cases h
    all_goals exact hway.keep hkept id (by simp [hp, Poll.answering]) id
  all_goals
    cases h
    exact hway.keep hkept id (by simp [hp, Poll.answering]) id

/-- The PUBACK of the active message brings its answer. -/
theorem pollPuback {id : UInt16} {result : ℤ} (hu : UnderWay c) (hway : c.onItsWay serial)
    (h : c.pollPuback id result = some (c', es)) : c'.onItsWay serial := by
  obtain ⟨hidle, hexpected, -, ⟨⟨-, -, rfl⟩, rfl⟩ | rfl⟩ := pollPuback_cases h
  · have hactive : c.activePublishId ≠ 0 := fun hzero => hu.nonzero (hzero ▸ hexpected)
    rcases hway with ⟨hserial, -⟩ | hp | hw
    · exact .inr (.inl (decide_eq_true ((hu.active hactive).trans hserial.symm)))
    · rw [hidle] at hp
      cases hp
    · exact .inr (.inr hw)
  · exact hway

theorem step {a : Action} (ho : Owned c) (hu : UnderWay c)
    (hway : c.onItsWay serial) (h : c.step cfg a = some (c', es))
    (hkept : ¬loses ⟨c, a, c', es⟩)
    (hsilent : ∀ result, .posted (.mqttPublishResult serial result) ∉ es) :
    c'.onItsWay serial := by
  cases a with
  | caller => exact hway.callerStep ho h hkept
  | worker => exact hway.workerStep ho hu h hkept hsilent
  | poll => exact hway.pollStep h hkept hsilent
  | pollPuback id result => exact hway.pollPuback hu h
  | callPublish m =>
    obtain ⟨hidle, hstart⟩ := call_eq_some h
    obtain ⟨x, -, rfl⟩ := callPublish_caller cfg hidle hstart
    exact hway
  | callConnect | callDisconnect | callSetLteAvailable =>
    obtain ⟨-, ⟨⟩⟩ := call_eq_some h
    exact hway
  | callerNoSubmit err =>
    obtain ⟨-, rfl, rfl⟩ | ⟨-, rfl, rfl⟩ | ⟨-, rfl, rfl⟩ := callerNoSubmit_cases h
    all_goals exact hway
  | workerConnect failed =>
    obtain ⟨g, hw, rfl, rfl | ⟨-, rfl⟩⟩ := workerConnect_cases h
    all_goals exact hway.withWorker hkept (by simp [hw]) (by rw [hw]; rfl)
  | workerMessageId id =>
    obtain ⟨hw, rfl, ⟨-, -, -, hid, -⟩, rfl⟩ := workerMessageId_cases h
    -- the message becomes active
    refine hway.imp (fun h => ⟨h.1, .inr hid⟩) (Or.imp_right fun hanswering => ?_)
    rw [hw] at hanswering
    cases hanswering
  | workerWrite transmitted =>
    obtain ⟨w, hw, rfl, rfl⟩ := workerWrite_cases h
    exact hway.withWorker hkept (by simp [hw]) (by rw [hw]; rfl)
  | workerSent err =>
    obtain ⟨w, hw, rfl, rfl⟩ := workerSent_cases h
    exact hway.withWorker hkept (by simp [hw]) (by rw [hw]; rfl)
  | pollConnack | pollDisconnect | pollError =>
    obtain ⟨hp, -, rfl, rfl⟩ := pollStart_cases h
    exact hway.keep hkept id (by simp [hp, Poll.answering]) id
  | expire =>
    obtain ⟨-, rfl, rfl⟩ := expire_cases h
    exact submit (c := { c with timer := false }) hway _
  | forget id =>
    cases h
    exact hway

end onItsWay

theorem onItsWay.unanswered_or {serial : ℕ} (h : c.onItsWay serial) :
    c.unanswered serial ∨ c.poll.answering serial ∨ c.worker.answering serial := by
  rcases h with ⟨hserial, ⟨hqueued | hworker, -⟩ | hactive⟩ | hanswering
  · exact .inl ⟨hserial, .inl (.inl hqueued)⟩
  · exact .inl ⟨hserial, .inl (.inr (.inl hworker))⟩
  · exact .inl ⟨hserial, .inr hactive⟩
  · exact .inr hanswering

/-- An accepted publication without a result is still under way, unless something
was lost since its call began. -/
theorem accepted_underWay {c : Client} {ρ ρ₁ ρ₂ : Record} {y : Step Client Action Event}
    {serial : ℕ} {m : Message} (hr : (mqttClient cfg).record.Run anyStep c ρ)
    (hρ : ρ = ρ₁ ++ y :: ρ₂) (hm : .accepted serial m ∈ y.events) :
    ∃ ρ₀ x ρ₀', ρ₁ = ρ₀ ++ x :: ρ₀' ∧ x.action = .callPublish m ∧
      (∀ z ∈ ρ₀', z.action.isPublish = false) ∧
      ((∃ result, .posted (.mqttPublishResult serial result) ∈ reports ρ₂) ∨
        c.unanswered serial ∨ (c.poll.answering serial ∨ c.worker.answering serial) ∨
        ∃ z ∈ ρ₀' ++ y :: ρ₂, loses z) := by
  obtain ⟨hbefore, -, hstep, -⟩ := hr.split hρ
  have ho := Owned.of_run hbefore.unrecord
  have hu := UnderWay.of_run hbefore.unrecord
  obtain ⟨ρ₀, x, ρ₀', rfl, hx, hquiet⟩ :=
    Called.of_run hbefore m (carried_of_accepted hstep hm)
  refine ⟨ρ₀, x, ρ₀', rfl, hx, hquiet, ?_⟩
  by_contra hnothing
  simp only [not_or, not_exists, not_and] at hnothing
  obtain ⟨hsilent, hanswered, hidle, hkept⟩ := hnothing
  -- the call saw LTE, the connection and the generation, and they are still there
  have hentered : Entered y.before :=
    hbefore.since (J := fun _ => True) (P := fun x => x.action.isPublish)
      (K := fun z => z.action.isPublish = false ∧ ¬loses z) (I := fun _ _ s => Entered s)
      (fun _ => trivial)
      (fun x _ hs hcall => by
        obtain ⟨before, a, after, es⟩ := x
        cases a with
        | callPublish m' => exact Entered.of_call hs
        | _ => cases hcall)
      (fun _ _ z _ hs hz he => he.step hz.1 hs hz.2)
      ρ₀ x ρ₀' rfl (by rw [hx]; rfl) fun z hz => ⟨hquiet z hz, hkept z (List.mem_append_left _ hz)⟩
  have hway : y.after.onItsWay serial :=
    hentered.accepted hstep hm
  have hlast : c.onItsWay serial :=
    hr.since (J := fun c => Owned c ∧ UnderWay c) (P := fun x => x.after.onItsWay serial)
      (K := fun z => ¬loses z ∧ ∀ result, .posted (.mqttPublishResult serial result) ∉ z.events)
      (I := fun _ _ s => s.onItsWay serial)
      (fun hr => ⟨Owned.of_run hr.unrecord, UnderWay.of_run hr.unrecord⟩)
      (fun _ _ _ h => h) (fun _ _ z hJ hs hz hw => hw.step hJ.1 hJ.2 hs hz.1 hz.2)
      _ y ρ₂ hρ hway fun z hz =>
        ⟨hkept z (List.mem_append_right _ (List.mem_cons_of_mem _ hz)),
          fun result hresult => hsilent result (List.mem_flatMap.mpr ⟨z, hz, hresult⟩)⟩
  rcases hlast.unanswered_or with h | h
  · exact hanswered h
  · exact h.elim hidle.1 hidle.2

/-- **Every accepted publication completes at most once, and with its own token.**
A result 0 follows a PUBACK that arrived in the generation in which the message
was handed over; and without a result the publication is under way, its result
is just being posted, or LTE, the connection or the generation was lost since its
call began. -/
theorem completes_once {c : Client} {ρ : Record} (hr : (mqttClient cfg).record.Run anyStep c ρ) :
    (∀ serial, (reports ρ).countP (Event.isResult serial) ≤ 1) ∧
    (∀ ρ₁ x ρ₂ serial, ρ = ρ₁ ++ x :: ρ₂ →
      .posted (.mqttPublishResult serial 0) ∈ x.events → AckedIn serial ρ₁) ∧
    ∀ ρ₁ y ρ₂ serial m, ρ = ρ₁ ++ y :: ρ₂ → .accepted serial m ∈ y.events →
      ∃ ρ₀ x ρ₀', ρ₁ = ρ₀ ++ x :: ρ₀' ∧ x.action = .callPublish m ∧
        (∀ z ∈ ρ₀', z.action.isPublish = false) ∧
        ((∃ result, .posted (.mqttPublishResult serial result) ∈ reports ρ₂) ∨
          c.unanswered serial ∨ (c.poll.answering serial ∨ c.worker.answering serial) ∨
          ∃ z ∈ ρ₀' ++ y :: ρ₂, loses z) := by
  refine ⟨fun serial => ?_, fun _ _ _ _ hρ hx => posted_ackedIn hr hρ hx,
    fun _ _ _ _ _ hρ hm => accepted_underWay hr hρ hm⟩
  have := results_le hr.unrecord serial
  split at this <;> omega

deriving instance DecidableEq for Event

instance (x : Step Client Action Event) : Decidable (loses x) := by
  unfold loses
  infer_instance

/-- A publication is sent and acknowledged. -/
def sentAndAcknowledged : List Action :=
  List.flatten [sendOnce, [.pollPuback 1 0, .poll]]

theorem sentAndAcknowledged_replays :
    ((mqttClient defaultClient).record.replay anyStep {} [] sentAndAcknowledged).isSome := by
  decide +kernel

theorem completes_once_acknowledged :
    ∃ c ρ, (mqttClient defaultClient).record.Run anyStep c ρ ∧
      (reports ρ).countP (Event.isResult 1) = 1 :=
  ⟨_, _, .of_isSome sentAndAcknowledged_replays,
    le_antisymm ((completes_once (.of_isSome sentAndAcknowledged_replays)).1 1) (by decide +kernel)⟩

/-- The connection ends while a publish call stands between its look at
`helper_connected` and its look at the generation. -/
def acceptedTooLate : List Action :=
  List.flatten [[.callSetLteAvailable true, .caller, .callConnect], List.replicate 4 .caller,
    List.replicate 4 .worker, [.workerConnect false, .pollConnack true], List.replicate 6 .poll,
    [.callPublish ⟨[1], [2]⟩, .caller, .caller, .pollDisconnect], List.replicate 4 .poll,
    List.replicate 5 .caller]

/-- And the worker discards the accepted publication. -/
def discarded : List Action := [.caller, .worker, .worker, .worker]

theorem discarded_replays :
    ((mqttClient defaultClient).record.replay anyStep {} []
      (List.flatten [acceptedTooLate, discarded])).isSome := by
  decide +kernel

/-- **An accepted publication can be dropped without a result** although nothing
was lost since it was accepted: the connection had ended before, during the call. -/
theorem dropped_without_loss :
    ∃ c ρ₁ ρ₂, (mqttClient defaultClient).record.Run anyStep c (ρ₁ ++ ρ₂) ∧
      .accepted 1 ⟨[1], [2]⟩ ∈ reports (ρ₂.take 1) ∧ (∀ z ∈ ρ₂, ¬loses z) ∧
      (reports ρ₂).countP (Event.isResult 1) = 0 ∧ ¬c.unanswered 1 ∧
      c.poll = .idle ∧ c.worker = .idle := by
  refine ⟨_, _, _, .of_isSome_cut discarded_replays acceptedTooLate.length, ?_⟩
  decide +kernel

end Aitsm.Original.Client
