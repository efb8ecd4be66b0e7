import Aitsm.Original.Client

/-!
# What the other threads leave alone

Each thread keeps its own place and most of the variables it writes to itself:
nobody else numbers a message or reads the generation for it (`OtherCaller`), and
nobody else sets a message active or arms its wait (`OtherWorker`). What the
other threads can do to the message under way is to end it.
-/

namespace Aitsm.Original.Client

variable {cfg : ClientConfig} {c c' : Client} {es : List Event}

/-- The system workqueue acts. -/
def Action.isCaller : Action → Bool
  | .callPublish _ | .callConnect | .callDisconnect | .callSetLteAvailable _ | .caller
  | .callerNoSubmit _ => true
  | _ => false

/-- The worker acts, or the helper answers it. -/
def Action.isWorker : Action → Bool
  | .worker | .workerConnect _ | .workerMessageId _ | .workerWrite _ | .workerSent _ => true
  | _ => false

/-- The return of a call. -/
def Event.isCaller : Event → Bool
  | .accepted _ _ | .refused _ _ | .connectReturned _ | .returned => true
  | _ => false

/-- What only the worker makes visible. -/
def Event.isWorker : Event → Bool
  | .connecting | .written _ _ _ | .armed _ => true
  | _ => false

/-- The generation lasts, or the message that was active is given up with it. -/
def Lasts (c c' : Client) : Prop :=
  c'.generation = c.generation ∨ c'.generation = c.generation + 1 ∧ c'.activePublishId = 0

/-- Some thread other than the system workqueue has moved. -/
structure OtherCaller (c c' : Client) (es : List Event) : Prop where
  caller : c'.caller = c.caller
  message : c'.message = c.message
  lteAvailable : c'.lteAvailable = c.lteAvailable
  publishGeneration : c'.publishGeneration = c.publishGeneration
  publishToken : c'.publishToken = c.publishToken
  nextPublishToken : c'.nextPublishToken = c.nextPublishToken
  generation : Lasts c c'
  silent : ∀ e ∈ es, e.isCaller = false
  single : es.length ≤ 1

/-- Some thread other than the worker has moved. -/
structure OtherWorker (c c' : Client) (es : List Event) : Prop where
  worker : c'.worker = c.worker
  activePublishId : c'.activePublishId = c.activePublishId ∨ c'.activePublishId = 0
  activePublishGeneration : c'.activePublishGeneration = c.activePublishGeneration
  activePublishToken : c'.activePublishToken = c.activePublishToken
  pubackDelaySeconds : c'.pubackDelaySeconds = c.pubackDelaySeconds
  queue : ∀ job ≠ .pubackTimeout, job ∈ c.queue → job ∈ c'.queue
  publish : .publish ∈ c'.queue → .publish ∈ c.queue ∨ c.caller = .publishSubmit
  generation : Lasts c c'
  silent : ∀ e ∈ es, e.isWorker = false
  single : es.length ≤ 1

/-! ## Other threads than the caller -/

namespace OtherCaller

/-- The others write none of the variables. -/
theorem of_eq (hlasts : Lasts c c') (hcaller : c'.caller = c.caller := by rfl)
    (hmessage : c'.message = c.message := by rfl)
    (hlte : c'.lteAvailable = c.lteAvailable := by rfl)
    (hgeneration : c'.publishGeneration = c.publishGeneration := by rfl)
    (htoken : c'.publishToken = c.publishToken := by rfl)
    (hnext : c'.nextPublishToken = c.nextPublishToken := by rfl)
    (hsilent : ∀ e ∈ es, e.isCaller = false := by simp [Event.isCaller])
    (hsingle : es.length ≤ 1 := by simp) : OtherCaller c c' es :=
  ⟨hcaller, hmessage, hlte, hgeneration, htoken, hnext, hlasts, hsilent, hsingle⟩

theorem submit (h : OtherCaller c c' es) (job : Job) : OtherCaller c (c'.submit job) es := by
  rw [Client.submit]
  split
  · exact h
  · exact { h with }

theorem publishSent (w : Write) (err : ℤ) :
    OtherCaller c (c.publishSent w err).1 (c.publishSent w err).2 := by
  rw [Client.publishSent]
  split
  · exact .of_eq (.inl rfl)
  split
  · exact .of_eq (.inl rfl)
  · exact .of_eq (.inl rfl)

theorem workerStep (h : c.workerStep cfg = some (c', es)) : OtherCaller c c' es := by
  cases hw : c.worker <;> simp only [Client.workerStep, hw] at h
  case connectHelper | send | sending => cases h
  case sent w err =>
    split at h
    · cases h
    · obtain ⟨rfl, rfl⟩ := Prod.mk.inj (Option.some.inj h)
      exact publishSent w err
  case onDisconnect x =>
    cases x <;> simp only at h
    case connected =>
      split at h <;> cases h
      exact .of_eq (.inl rfl)
    case publish =>
      cases h
      exact .of_eq (.inr ⟨rfl, rfl⟩)
    case pending | post =>
      cases h
      exact .of_eq (.inl rfl)
  case publish =>
    split at h <;> try split at h
    all_goals cases h
    exact .of_eq (.inl rfl)
  case connectRelease | connectGeneration | connectSetGeneration | connectFailed | connectPostError
      | release | postFailed | timeoutId | timeoutPublishGeneration =>
    cases h
    exact .of_eq (.inl rfl)
  all_goals
    split at h <;> cases h
    all_goals exact .of_eq (.inl rfl)

theorem pollStep (h : c.pollStep = some (c', es)) : OtherCaller c c' es := by
  cases hp : c.poll <;> simp only [Client.pollStep, hp] at h
  case idle => cases h
  case connackSubmit =>
    cases h
    have hpoll : OtherCaller c { c with poll := .idle } [] := .of_eq (.inl rfl)
    exact hpoll.submit .disconnect
  case onDisconnect x =>
    cases x <;> simp only at h
    case connected =>
      split at h <;> cases h
      exact .of_eq (.inl rfl)
    case publish =>
      cases h
      exact .of_eq (.inr ⟨rfl, rfl⟩)
    case pending | post =>
      cases h
      exact .of_eq (.inl rfl)
  case connackInvalidate =>
    split at h <;> cases h
    exact .of_eq (.inr ⟨rfl, rfl⟩)
  case connackLte | connackGeneration | refusedLte | refusedGeneration =>
    split at h <;> cases h
    all_goals exact .of_eq (.inl rfl)
  all_goals
    cases h
    exact .of_eq (.inl rfl)

theorem step {a : Action} (ha : a.isCaller = false) (h : c.step cfg a = some (c', es)) :
    OtherCaller c c' es := by
  cases a with
  | callPublish | callConnect | callDisconnect | callSetLteAvailable | caller | callerNoSubmit =>
    cases ha
  | worker => exact workerStep h
  | poll => exact pollStep h
  | workerConnect failed =>
    obtain ⟨g, -, rfl, rfl | ⟨-, rfl⟩⟩ := workerConnect_cases h
    all_goals exact .of_eq (.inl rfl)
  | workerMessageId id =>
    obtain ⟨-, rfl, -, rfl⟩ := workerMessageId_cases h
    exact .of_eq (.inl rfl)
  | workerWrite transmitted =>
    obtain ⟨w, -, rfl, rfl⟩ := workerWrite_cases h
    exact .of_eq (.inl rfl)
  | workerSent err =>
    obtain ⟨w, -, rfl, rfl⟩ := workerSent_cases h
    exact .of_eq (.inl rfl)
  | pollConnack | pollDisconnect | pollError =>
    obtain ⟨-, -, rfl, rfl⟩ := pollStart_cases h
    exact .of_eq (.inl rfl)
  | pollPuback id result =>
    obtain ⟨-, -, rfl, ⟨-, rfl⟩ | rfl⟩ := pollPuback_cases h
    all_goals exact .of_eq (.inl rfl)
  | expire =>
    obtain ⟨-, rfl, rfl⟩ := expire_cases h
    have htimer : OtherCaller c { c with timer := false } [] := .of_eq (.inl rfl)
    exact htimer.submit .pubackTimeout
  | forget id =>
    cases h
    exact .of_eq (.inl rfl)

end OtherCaller

example : Action.isCaller .caller ∧ ¬ Action.isCaller .worker ∧ ¬ Action.isCaller .expire := by
  decide +kernel

/-! ## Other threads than the worker -/

namespace OtherWorker

theorem of_eq (hworker : c'.worker = c.worker := by rfl)
    (hactive : c'.activePublishId = c.activePublishId := by rfl)
    (hgeneration : c'.activePublishGeneration = c.activePublishGeneration := by rfl)
    (htoken : c'.activePublishToken = c.activePublishToken := by rfl)
    (hdelay : c'.pubackDelaySeconds = c.pubackDelaySeconds := by rfl)
    (hqueue : c'.queue = c.queue := by rfl) (hkept : c'.generation = c.generation := by rfl)
    (hsilent : ∀ e ∈ es, e.isWorker = false := by simp [Event.isWorker])
    (hsingle : es.length ≤ 1 := by simp) : OtherWorker c c' es :=
  ⟨hworker, .inl hactive, hgeneration, htoken, hdelay, fun _ _ => hqueue ▸ id,
    fun h => .inl (hqueue ▸ h), .inl hkept, hsilent, hsingle⟩

/-- The message that was active is given up. -/
theorem ended (hle : c'.generation = c.generation ∨ c'.generation = c.generation + 1)
    (hsilent : ∀ e ∈ es, e.isWorker = false := by simp [Event.isWorker])
    (hsingle : es.length ≤ 1 := by simp)
    (hworker : c'.worker = c.worker := by rfl) (hactive : c'.activePublishId = 0 := by rfl)
    (hgeneration : c'.activePublishGeneration = c.activePublishGeneration := by rfl)
    (htoken : c'.activePublishToken = c.activePublishToken := by rfl)
    (hdelay : c'.pubackDelaySeconds = c.pubackDelaySeconds := by rfl)
    (hqueue : c'.queue = c.queue.filter (· ≠ .pubackTimeout) := by rfl) : OtherWorker c c' es := by
  refine ⟨hworker, .inr hactive, hgeneration, htoken, hdelay, fun job hjob hmem => ?_,
    fun h => .inl ?_, hle.imp_right fun h => ⟨h, hactive⟩, hsilent, hsingle⟩
  · rw [hqueue]
    exact List.mem_filter.mpr ⟨hmem, by simp [hjob]⟩
  · rw [hqueue] at h
    exact List.mem_of_mem_filter h

theorem submit (h : OtherWorker c c' es) {job : Job}
    (hjob : job ≠ .publish ∨ c.caller = .publishSubmit) : OtherWorker c (c'.submit job) es := by
  rw [Client.submit]
  split
  · exact h
  · refine { h with
      queue := fun _ hjob hmem => List.mem_append_left _ (h.queue _ hjob hmem)
      publish := fun hmem => ?_ }
    rcases List.mem_append.mp hmem with hmem | hmem
    · exact h.publish hmem
    · exact hjob.imp_left fun hne => absurd (List.mem_singleton.mp hmem).symm hne

theorem callerStep (h : c.callerStep = some (c', es)) : OtherWorker c c' es := by
  cases hc : c.caller <;> simp only [Client.callerStep, hc] at h
  case idle => cases h
  case publishSubmit =>
    cases h
    have hidle : OtherWorker c { c with caller := .idle } [.accepted c.publishToken c.message] :=
      .of_eq
    exact hidle.submit (.inr hc)
  case connectSubmit =>
    cases h
    have hidle : OtherWorker c { c with caller := .idle } [.connectReturned (.ok ())] := .of_eq
    exact hidle.submit (.inl (by simp))
  case disconnectSubmit =>
    cases h
    have hidle : OtherWorker c { c with caller := .idle } [.returned] := .of_eq
    exact hidle.submit (.inl (by simp))
  case invalidate =>
    split at h <;> cases h
    exact .ended (.inr rfl)
  case publishRelease | publishCopy | publishGeneration | publishToken | publishNotSubmitted
      | connectNotSubmitted | lteSet =>
    cases h
    exact .of_eq
  all_goals
    split at h <;> cases h
    all_goals exact .of_eq

theorem pollStep (h : c.pollStep = some (c', es)) : OtherWorker c c' es := by
  cases hp : c.poll <;> simp only [Client.pollStep, hp] at h
  case idle => cases h
  case connackSubmit =>
    cases h
    have hidle : OtherWorker c { c with poll := .idle } [] := .of_eq
    exact hidle.submit (.inl (by simp))
  case onDisconnect x =>
    cases x <;> simp only at h
    case connected =>
      split at h <;> cases h
      exact .of_eq
    case publish =>
      cases h
      exact .ended (.inr rfl)
    case pending | post =>
      cases h
      exact .of_eq
  case connackInvalidate =>
    split at h <;> cases h
    exact .ended (.inr rfl)
  case connackLte | connackGeneration | refusedLte | refusedGeneration =>
    split at h <;> cases h
    all_goals exact .of_eq
  all_goals
    cases h
    exact .of_eq

theorem step {a : Action} (ha : a.isWorker = false) (h : c.step cfg a = some (c', es)) :
    OtherWorker c c' es := by
  cases a with
  | worker | workerConnect | workerMessageId | workerWrite | workerSent => cases ha
  | caller => exact callerStep h
  | poll => exact pollStep h
  | callPublish m =>
    obtain ⟨-, hstart⟩ := call_eq_some h
    rcases callPublish_cases cfg c m with ⟨err, hcase⟩ | hcase
    all_goals
      cases hcase.symm.trans hstart
      exact .of_eq
  | callConnect | callDisconnect | callSetLteAvailable =>
    obtain ⟨-, ⟨⟩⟩ := call_eq_some h
    exact .of_eq
  | callerNoSubmit err =>
    obtain ⟨-, rfl, rfl⟩ | ⟨-, rfl, rfl⟩ | ⟨-, rfl, rfl⟩ := callerNoSubmit_cases h
    all_goals exact .of_eq
  | pollConnack | pollDisconnect | pollError =>
    obtain ⟨-, -, rfl, rfl⟩ := pollStart_cases h
    exact .of_eq
  | pollPuback id result =>
    obtain ⟨-, -, rfl, ⟨-, rfl⟩ | rfl⟩ := pollPuback_cases h
    · exact .ended (.inl rfl)
    · exact .of_eq
  | expire =>
    obtain ⟨-, rfl, rfl⟩ := expire_cases h
    have htimer : OtherWorker c { c with timer := false } [] := .of_eq
    exact htimer.submit (.inl (by simp))
  | forget id =>
    cases h
    exact .of_eq

end OtherWorker

/-! ## The caller -/

/-- Only one step of the caller numbers a message, and one reads the generation. -/
theorem callerStep_writes (h : c.callerStep = some (c', es)) :
    (c.caller = .publishToken ∨
      c'.publishToken = c.publishToken ∧ c'.caller ≠ .publishSubmit) ∧
    (c.caller = .publishGeneration ∨ c'.publishGeneration = c.publishGeneration) := by
  cases hc : c.caller <;> simp only [Client.callerStep, hc] at h
  case idle => cases h
  case publishToken =>
    cases h
    exact ⟨.inl rfl, .inr rfl⟩
  case publishGeneration =>
    cases h
    exact ⟨.inr ⟨rfl, by simp⟩, .inl rfl⟩
  case publishSubmit | connectSubmit | disconnectSubmit =>
    cases h
    rw [submit]
    split <;> exact ⟨.inr ⟨rfl, by simp⟩, .inr rfl⟩
  case invalidate =>
    split at h <;> cases h
    exact ⟨.inr ⟨rfl, by simp [invalidate, cancelTimeout]⟩, .inr rfl⟩
  case publishRelease | publishCopy | publishNotSubmitted | connectNotSubmitted | lteSet =>
    cases h
    exact ⟨.inr ⟨rfl, by simp⟩, .inr rfl⟩
  all_goals
    split at h <;> cases h
    all_goals exact ⟨.inr ⟨rfl, by simp⟩, .inr rfl⟩

/-- A call that begins or is refused writes neither. -/
theorem call_writes {a : Action} (ha : a.isCaller) (hcaller : a ≠ .caller)
    (h : c.step cfg a = some (c', es)) :
    c'.publishToken = c.publishToken ∧ c'.caller ≠ .publishSubmit ∧
      c'.publishGeneration = c.publishGeneration := by
  cases a with
  | caller => exact absurd rfl hcaller
  | callPublish m =>
    obtain ⟨hidle, hstart⟩ := call_eq_some h
    obtain ⟨x, hx, rfl⟩ := callPublish_caller cfg hidle hstart
    exact ⟨rfl, hx, rfl⟩
  | callConnect | callDisconnect =>
    obtain ⟨-, ⟨⟩⟩ := call_eq_some h
    exact ⟨rfl, by simp, rfl⟩
  | callSetLteAvailable available =>
    obtain ⟨-, ⟨⟩⟩ := call_eq_some h
    exact ⟨rfl, by cases available <;> simp, rfl⟩
  | callerNoSubmit err =>
    obtain ⟨-, -, rfl⟩ | ⟨-, -, rfl⟩ | ⟨-, -, rfl⟩ := callerNoSubmit_cases h
    all_goals exact ⟨rfl, by simp, rfl⟩
  | _ => cases ha

/-! ## Any step -/

theorem Action.isWorker_of_isCaller {a : Action} (ha : a.isCaller) : a.isWorker = false := by
  cases a <;> first | rfl | cases ha

theorem lasts {a : Action} (h : c.step cfg a = some (c', es)) : Lasts c c' := by
  cases ha : a.isCaller with
  | false => exact (OtherCaller.step ha h).generation
  | true => exact (OtherWorker.step (Action.isWorker_of_isCaller ha) h).generation

/-- A generation that has ended does not come back. -/
theorem Lasts.le (h : Lasts c c') : c.generation ≤ c'.generation := by
  rcases h with h | ⟨h, -⟩ <;> omega

/-- As long as a message is active, its generation lasts. -/
theorem Lasts.of_active (h : Lasts c c') (hactive : c'.activePublishId ≠ 0) :
    c'.generation = c.generation :=
  h.resolve_right fun hended => hactive hended.2

/-- A step makes one event visible at most. -/
theorem step_events {a : Action} (h : c.step cfg a = some (c', es)) : es.length ≤ 1 := by
  cases ha : a.isCaller with
  | false => exact (OtherCaller.step ha h).single
  | true => exact (OtherWorker.step (Action.isWorker_of_isCaller ha) h).single

end Aitsm.Original.Client
