import Mathlib.Data.List.Infix
import Aitsm.Original.Retransmission

/-!
# Work that waits in the queue

A publish job that is queued when LTE is lost finds a later generation when it
runs, so its message is not written. A connect job carries no generation, and a
disconnect job no session: they look only at `lte_available` and
`helper_connected`. So a connect job runs if LTE is back before its handler
looks, and a disconnect job closes whatever connection there is by then. As long
as neither happens (`Orderly`), nothing that is queued reaches the helper when it
should not (`queued_work_withheld`); `flap` is a run in which both do.
-/

namespace Aitsm.Original.Client

open Library Library.Wire
open Library.System (anyStep Step reports)

variable {cfg : ClientConfig} {c c' : Client} {es : List Event}

/-- `aitsm_mqtt_set_lte_available(false)` takes effect. -/
def losesLte (x : Step Client Action Event) : Prop :=
  x.before.lteAvailable ∧ x.after.lteAvailable = false

/-- The job is queued, and was not before. -/
def queues (job : Job) (x : Step Client Action Event) : Prop :=
  job ∉ x.before.queue ∧ job ∈ x.after.queue

/-- The broker accepts the connection. -/
def accepts (x : Step Client Action Event) : Prop := x.action = .pollConnack true

/-- `mqtt_helper_disconnect` finds an open connection. -/
def closes (x : Step Client Action Event) : Prop :=
  x.action = .worker ∧ x.before.worker = .disconnectHelper ∧ x.before.helper = .up

/-- The job has been in the queue all along. -/
def Queued (job : Job) (ρ : Record) : Prop := ∀ y ∈ ρ, job ∈ y.after.queue

/-- The job has been in the queue until its handler started, which still runs. -/
def Runs (job : Job) (ρ : Record) : Prop :=
  ∃ ρ₁ d ρ₂, ρ = ρ₁ ++ d :: ρ₂ ∧ Queued job ρ₁ ∧ d.before.worker = .idle ∧
    d.after.worker = job.handler ∧ ∀ y ∈ ρ₂, y.after.worker ≠ .idle

/-- The job has been in the queue, or its handler has not gone further than its start. -/
def Waits (job : Job) (ρ : Record) : Prop :=
  ∀ y ∈ ρ, job ∈ y.after.queue ∨ y.after.worker = job.handler

/-- A connect job that was queued when LTE was lost has not yet looked at `lte_available`. -/
def ConnectWaits (ρ : Record) : Prop :=
  ∃ ρ' ∈ ρ.tails, ∃ z ∈ ρ'.head?, losesLte z ∧ .connect ∈ z.before.queue ∧ Waits .connect ρ'.tail

/-- LTE does not come back while such a connect job waits, and no connection is
accepted while a disconnect job does. -/
def Orderly (c : Client) (ρ : Record) : Action → Prop
  | .caller => c.caller = .lteSet → ¬ConnectWaits ρ
  | .pollConnack true =>
    .disconnect ∉ c.queue ∧ c.worker ≠ .disconnect ∧ c.worker ≠ .disconnectHelper
  | _ => True

/-- No connect job that was queued when LTE was lost calls `mqtt_helper_connect`. -/
def ConnectWithheld (ρ : Record) : Prop :=
  ∀ ρ₁ z ρ₂ x ρ₃, ρ = ρ₁ ++ z :: (ρ₂ ++ x :: ρ₃) → losesLte z → .connect ∈ z.before.queue →
    Runs .connect ρ₂ → .connecting ∉ x.events

/-- No publish job that was queued when LTE was lost calls `mqtt_helper_publish`. -/
def PublishWithheld (ρ : Record) : Prop :=
  ∀ ρ₁ z ρ₂ x ρ₃, ρ = ρ₁ ++ z :: (ρ₂ ++ x :: ρ₃) → losesLte z → .publish ∈ z.before.queue →
    Runs .publish ρ₂ → ∀ w m t, .written w m t ∉ x.events

/-- No disconnect job closes a connection that was accepted after it was queued. -/
def DisconnectWithheld (ρ : Record) : Prop :=
  ∀ ρ₁ q ρ₂ x ρ₃, ρ = ρ₁ ++ q :: (ρ₂ ++ x :: ρ₃) → queues .disconnect q →
    Runs .disconnect ρ₂ → closes x → ∀ y ∈ ρ₂, ¬accepts y

/-! ## One step -/

/-- How a step moves the handlers on, and where LTE comes and goes. -/
structure Moves (c : Client) (a : Action) (c' : Client) (es : List Event) : Prop where
  lost : c.lteAvailable → c'.lteAvailable = false → c'.caller = .invalidate ∧ c'.queue = c.queue
  back : c.lteAvailable = false → c'.lteAvailable → a = .caller ∧ c.caller = .lteSet
  connectLte : c.worker = .connectLte → c.lteAvailable = false →
    c'.worker = .connectLte ∨ c'.worker = .connectRelease
  connectRelease : c.worker = .connectRelease →
    c'.worker = .connectRelease ∨ c'.worker = .idle
  publish : c.worker = .publish → c.lteAvailable = false ∨ c.publishGeneration ≠ c.generation →
    c'.worker = .publish ∨ c'.worker = .release
  release : c.worker = .release → c'.worker = .release ∨ c'.worker = .idle
  disconnect : c.worker = .disconnect →
    c'.worker = .disconnect ∨ c'.worker = .disconnectHelper ∨ c'.worker = .idle
  disconnectHelper : c.worker = .disconnectHelper →
    c'.worker = .disconnectHelper ∨ (∃ x, c'.worker = .onDisconnect x) ∨ c'.worker = .idle
  onDisconnect : ∀ x, c.worker = .onDisconnect x →
    (∃ x, c'.worker = .onDisconnect x) ∨ c'.worker = .idle
  connecting : .connecting ∈ es → ∃ g, c.worker = .connectHelper g
  /-- a caller in `aitsm_mqtt_set_lte_available(false)` stays until it has ended the generation -/
  invalidate : c.caller = .invalidate →
    c'.caller = .invalidate ∧ c'.lteAvailable = c.lteAvailable ∨ c.generation < c'.generation

namespace Moves

variable {a : Action}

/-- A step of another thread than the worker and the caller. -/
theorem other (hworker : OtherWorker c c' es) (hcaller : OtherCaller c c' es) :
    Moves c a c' es where
  lost hup hdown := by rw [hcaller.lteAvailable, hup] at hdown; cases hdown
  back hdown hup := by rw [hcaller.lteAvailable, hdown] at hup; cases hup
  connectLte hw _ := .inl (hworker.worker.trans hw)
  connectRelease hw := .inl (hworker.worker.trans hw)
  publish hw _ := .inl (hworker.worker.trans hw)
  release hw := .inl (hworker.worker.trans hw)
  disconnect hw := .inl (hworker.worker.trans hw)
  disconnectHelper hw := .inl (hworker.worker.trans hw)
  onDisconnect x hw := .inl ⟨x, hworker.worker.trans hw⟩
  connecting hm := by cases hworker.silent _ hm
  invalidate hc := .inl ⟨hcaller.caller.trans hc, hcaller.lteAvailable⟩

/-- A step of the caller. -/
theorem ofCaller (h : OtherWorker c c' es)
    (hlost : c.lteAvailable → c'.lteAvailable = false →
      c'.caller = .invalidate ∧ c'.queue = c.queue)
    (hback : c.lteAvailable = false → c'.lteAvailable → a = .caller ∧ c.caller = .lteSet)
    (hinvalidate : c.caller = .invalidate →
      c'.caller = .invalidate ∧ c'.lteAvailable = c.lteAvailable ∨
        c.generation < c'.generation) : Moves c a c' es where
  lost := hlost
  back := hback
  connectLte hw _ := .inl (h.worker.trans hw)
  connectRelease hw := .inl (h.worker.trans hw)
  publish hw _ := .inl (h.worker.trans hw)
  release hw := .inl (h.worker.trans hw)
  disconnect hw := .inl (h.worker.trans hw)
  disconnectHelper hw := .inl (h.worker.trans hw)
  onDisconnect x hw := .inl ⟨x, h.worker.trans hw⟩
  connecting hm := by cases h.silent _ hm
  invalidate := hinvalidate

/-- The caller moves on and leaves LTE as it is. -/
theorem sameLte (h : OtherWorker c c' es) (hc : c.caller ≠ .invalidate)
    (hlte : c'.lteAvailable = c.lteAvailable := by rfl) : Moves c a c' es :=
  ofCaller h (fun hup hdown => by rw [hlte, hup] at hdown; cases hdown)
    (fun hdown hup => by rw [hlte, hdown] at hup; cases hup) fun h => absurd h hc

theorem caller (h : c.callerStep = some (c', es)) : Moves c .caller c' es := by
  have hframe := OtherWorker.callerStep h
  cases hc : c.caller <;> simp only [Client.callerStep, hc] at h
  case idle => cases h
  case publishSubmit | connectSubmit | disconnectSubmit =>
    cases h
    refine sameLte hframe (by simp [hc]) ?_
    rw [submit]
    split <;> rfl
  case lteSet =>
    cases h
    exact ofCaller hframe (by simp) (fun _ _ => ⟨rfl, hc⟩) (by simp [hc])
  case lteClear =>
    split at h <;> cases h
    · exact ofCaller hframe (fun _ _ => ⟨rfl, rfl⟩) (by simp) (by simp [hc])
    · exact sameLte hframe (by simp [hc])
  case invalidate =>
    split at h <;> cases h
    refine ofCaller hframe (fun hup hdown => ?_) (fun hdown hup => ?_)
      fun _ => .inr (Nat.lt_succ_self _)
    · cases hdown.symm.trans hup
    · cases hdown.symm.trans hup
  case publishRelease | publishCopy | publishGeneration | publishToken | publishNotSubmitted
      | connectNotSubmitted =>
    cases h
    exact sameLte hframe (by simp [hc])
  all_goals
    split at h <;> cases h
    all_goals exact sameLte hframe (by simp [hc])

/-- A step of the worker, along its handlers. -/
theorem ofWorker (h : OtherCaller c c' es)
    (hhandlers :
      (c.worker = .connectLte → c.lteAvailable = false →
        c'.worker = .connectLte ∨ c'.worker = .connectRelease) ∧
      (c.worker = .connectRelease → c'.worker = .connectRelease ∨ c'.worker = .idle) ∧
      (c.worker = .publish → c.lteAvailable = false ∨ c.publishGeneration ≠ c.generation →
        c'.worker = .publish ∨ c'.worker = .release) ∧
      (c.worker = .release → c'.worker = .release ∨ c'.worker = .idle) ∧
      (c.worker = .disconnect →
        c'.worker = .disconnect ∨ c'.worker = .disconnectHelper ∨ c'.worker = .idle) ∧
      (c.worker = .disconnectHelper →
        c'.worker = .disconnectHelper ∨ (∃ x, c'.worker = .onDisconnect x) ∨ c'.worker = .idle) ∧
      ∀ x, c.worker = .onDisconnect x → (∃ x, c'.worker = .onDisconnect x) ∨ c'.worker = .idle)
    (hconnecting : .connecting ∈ es → ∃ g, c.worker = .connectHelper g := by simp) :
    Moves c a c' es := by
  obtain ⟨hlte, hrelease, hpublish, hfree, hdisconnect, hhelper, hclosing⟩ := hhandlers
  refine ⟨fun hup hdown => ?_, fun hdown hup => ?_, hlte, hrelease, hpublish, hfree, hdisconnect,
    hhelper, hclosing, hconnecting, fun hc => .inl ⟨h.caller.trans hc, h.lteAvailable⟩⟩
  · rw [h.lteAvailable, hup] at hdown
    cases hdown
  · rw [h.lteAvailable, hdown] at hup
    cases hup

theorem worker (h : c.workerStep cfg = some (c', es)) : Moves c .worker c' es := by
  have hframe := OtherCaller.workerStep h
  cases hw : c.worker <;> simp only [Client.workerStep, hw] at h
  case idle =>
    split at h <;> cases h
    exact ofWorker hframe (by simp [hw])
  case connectLte =>
    split at h <;> rename_i hlte <;> cases h
    · exact ofWorker hframe (by simp [hw, hlte])
    · exact ofWorker hframe (by simp [hw])
  case sent w err =>
    split at h
    · cases h
    · obtain ⟨rfl, rfl⟩ := Prod.mk.inj (Option.some.inj h)
      refine ofWorker hframe (by simp [hw]) fun hm => ?_
      cases publishSent_events c w err _ hm
  case onDisconnect x =>
    cases x <;> simp only at h
    case connected =>
      split at h <;> cases h
      exact ofWorker hframe (by simp [hw, closeConnected])
    case publish =>
      cases h
      exact ofWorker hframe (by simp [hw, closePublish, cancelTimeout])
    case pending | post =>
      cases h
      exact ofWorker hframe (by simp [hw])
  case publish =>
    split at h <;> try split at h
    all_goals cases h
    exact ofWorker hframe (by simp [hw])
  case connectHelper | send | sending => cases h
  case connectRelease | connectGeneration | connectSetGeneration | connectFailed | connectPostError
      | release | postFailed | timeoutId | timeoutPublishGeneration =>
    cases h
    exact ofWorker hframe (by simp [hw])
  all_goals
    split at h <;> cases h
    all_goals exact ofWorker hframe (by simp [hw])

theorem step (h : c.step cfg a = some (c', es)) : Moves c a c' es := by
  cases hc : a.isCaller with
  | true =>
    cases a with
    | caller => exact caller h
    | callPublish m =>
      have hframe := OtherWorker.step (Action.isWorker_of_isCaller hc) h
      obtain ⟨hidle, hstart⟩ := call_eq_some h
      obtain ⟨x, -, rfl⟩ := callPublish_caller cfg hidle hstart
      exact sameLte hframe (by simp [hidle])
    | callConnect | callDisconnect | callSetLteAvailable =>
      have hframe := OtherWorker.step (Action.isWorker_of_isCaller hc) h
      obtain ⟨hidle, ⟨⟩⟩ := call_eq_some h
      exact sameLte hframe (by simp [hidle])
    | callerNoSubmit err =>
      have hframe := OtherWorker.step (Action.isWorker_of_isCaller hc) h
      obtain ⟨hc, -, rfl⟩ | ⟨hc, -, rfl⟩ | ⟨hc, -, rfl⟩ := callerNoSubmit_cases h
      all_goals exact sameLte hframe (by simp [hc])
    | _ => cases hc
  | false =>
    have hframe := OtherCaller.step hc h
    cases hworker : a.isWorker with
    | false => exact other (OtherWorker.step hworker h) hframe
    | true =>
      cases a with
      | worker => exact worker h
      | workerConnect failed =>
        obtain ⟨g, hw, rfl, rfl | ⟨-, rfl⟩⟩ := workerConnect_cases h
        all_goals exact ofWorker hframe (by simp [hw]) fun _ => ⟨g, hw⟩
      | workerMessageId id =>
        obtain ⟨hw, rfl, ⟨hlte, -, hgeneration, -⟩, rfl⟩ := workerMessageId_cases h
        exact ofWorker hframe (by simp [hw, hlte, hgeneration])
      | workerWrite transmitted =>
        obtain ⟨w, hw, rfl, rfl⟩ := workerWrite_cases h
        exact ofWorker hframe (by simp [hw])
      | workerSent err =>
        obtain ⟨w, hw, rfl, rfl⟩ := workerSent_cases h
        exact ofWorker hframe (by simp [hw])
      | _ => cases hworker

end Moves

/-! ## The handler of a queued job -/

section Handlers

variable {job : Job} {ρ : Record} {y : Step Client Action Event}

theorem Queued.of_append (h : Queued job (ρ ++ [y])) : Queued job ρ ∧ job ∈ y.after.queue :=
  ⟨fun x hx => h x (List.mem_append_left _ hx), h y (List.mem_append_right _ List.mem_cons_self)⟩

theorem Waits.of_append (h : Waits job (ρ ++ [y])) : Waits job ρ :=
  fun x hx => h x (List.mem_append_left _ hx)

theorem Waits.append (h : Waits job ρ) (hy : job ∈ y.after.queue ∨ y.after.worker = job.handler) :
    Waits job (ρ ++ [y]) := by
  intro x hx
  rcases List.mem_append.mp hx with hx | hx
  · exact h x hx
  · rw [List.mem_singleton.mp hx]
    exact hy

/-- The last step has started the handler, or left it running. -/
theorem Runs.of_append (h : Runs job (ρ ++ [y])) :
    (Queued job ρ ∧ y.before.worker = .idle ∧ y.after.worker = job.handler) ∨
    Runs job ρ ∧ y.after.worker ≠ .idle := by
  obtain ⟨ρ₁, d, ρ₂, hρ, hqueued, hidle, htaken, hrunning⟩ := h
  rcases List.eq_nil_or_concat ρ₂ with rfl | ⟨ρ₂, y', rfl⟩
  · obtain ⟨rfl, hy⟩ := List.append_inj' hρ rfl
    obtain rfl := (List.cons.inj hy).1
    exact .inl ⟨hqueued, hidle, htaken⟩
  · rw [List.concat_eq_append, ← List.cons_append, ← List.append_assoc] at hρ
    obtain ⟨rfl, hy⟩ := List.append_inj' hρ rfl
    obtain rfl := (List.cons.inj hy).1
    rw [List.concat_eq_append] at hrunning
    exact .inr ⟨⟨ρ₁, d, ρ₂, rfl, hqueued, hidle, htaken,
      fun x hx => hrunning x (List.mem_append_left _ hx)⟩,
      hrunning y (List.mem_append_right _ List.mem_cons_self)⟩

theorem not_runs_nil : ¬Runs job [] := by
  rintro ⟨ρ₁, d, ρ₂, hρ, -⟩
  simp at hρ

end Handlers

/-- The publication that is queued belongs to a generation that has ended, or is
just being ended. -/
def Stale (c : Client) : Prop :=
  c.lteAvailable = false ∧ c.caller = .invalidate ∨ c.publishGeneration < c.generation

theorem Stale.step {a : Action} (ho : Owned c) (hd : Dated c) (hqueued : c.publishQueued)
    (hs : Stale c) (h : c.step cfg a = some (c', es)) : Stale c' := by
  have hkept : c'.publishGeneration = c.publishGeneration := by
    refine (Effect.step h).publishGeneration.resolve_right fun ⟨hcaller, _⟩ => ?_
    obtain ⟨hqueue, hworker⟩ := ho.caller (by rw [hcaller]; rfl)
    rcases hqueued with hqueued | hqueued
    · exact hqueue hqueued
    · rw [hqueued] at hworker
      cases hworker
  have hle := (Effect.step h).generation
  rcases hs with ⟨hlte, hcaller⟩ | hlt
  · rcases (Moves.step h).invalidate hcaller with ⟨hcaller', hlte'⟩ | hlt
    · exact .inl ⟨hlte'.trans hlte, hcaller'⟩
    · exact .inr (hkept ▸ hd.bounded.trans_lt hlt)
  · exact .inr (hkept ▸ hlt.trans_le hle)

theorem Stale.refuses (hs : Stale c) :
    c.lteAvailable = false ∨ c.publishGeneration ≠ c.generation :=
  hs.imp And.left fun hlt => hlt.ne

/-- What a publish job that was queued when LTE was lost can still do. -/
structure Discarded (ρ : Record) (c : Client) : Prop where
  queued : Queued .publish ρ → .publish ∈ c.queue ∧ Stale c
  runs : Runs .publish ρ → c.worker = .publish ∧ Stale c ∨ c.worker = .release

theorem discarded_of_run {c : Client} {ρ : Record}
    (hr : (mqttClient cfg).record.Run anyStep c ρ) :
    ∀ ρ₁ z ρ₂, ρ = ρ₁ ++ z :: ρ₂ → losesLte z ∧ .publish ∈ z.before.queue → Discarded ρ₂ c := by
  refine hr.since_with (J := fun c => Owned c ∧ Dated c) (I := fun _ ρ c => Discarded ρ c)
    (fun hr => ⟨Owned.of_run hr.unrecord, Dated.of_run hr.unrecord⟩) ?_ ?_
  · intro z _ hs ⟨⟨hup, hdown⟩, hqueued⟩
    obtain ⟨hcaller, hqueue⟩ := (Moves.step hs).lost hup hdown
    exact ⟨fun _ => ⟨hqueue ▸ hqueued, .inl ⟨hdown, hcaller⟩⟩, fun h => absurd h not_runs_nil⟩
  · intro _ z ρ y ⟨ho, hd⟩ _ hs _ hold
    refine ⟨fun h => ?_, fun h => ?_⟩
    · obtain ⟨hqueued, hafter⟩ := h.of_append
      obtain ⟨hqueue, hstale⟩ := hold.queued hqueued
      exact ⟨hafter, hstale.step ho hd (.inl hqueue) hs⟩
    · rcases h.of_append with ⟨hqueued, -, htaken⟩ | ⟨hruns, hrunning⟩
      · obtain ⟨hqueue, hstale⟩ := hold.queued hqueued
        exact .inl ⟨htaken, hstale.step ho hd (.inl hqueue) hs⟩
      · rcases hold.runs hruns with ⟨hworker, hstale⟩ | hworker
        · exact ((Moves.step hs).publish hworker hstale.refuses).imp_left fun hworker' =>
            ⟨hworker', hstale.step ho hd (.inr hworker) hs⟩
        · exact .inr (((Moves.step hs).release hworker).resolve_right hrunning)

theorem publish_withheld {c : Client} {ρ : Record}
    (hr : (mqttClient cfg).record.Run anyStep c ρ) : PublishWithheld ρ := by
  intro ρ₁ z ρ₂ x ρ₃ hρ hlost hqueued hruns w m t hm
  rw [← List.cons_append, ← List.append_assoc] at hρ
  obtain ⟨hbefore, -, hstep, -⟩ := hr.split hρ
  obtain ⟨-, hw, -⟩ := (Effect.step hstep).written w m t hm
  rcases (discarded_of_run hbefore ρ₁ z ρ₂ rfl ⟨hlost, hqueued⟩).runs hruns with ⟨h, -⟩ | h
  · rw [h] at hw
    cases hw
  · rw [h] at hw
    cases hw

/-! ## Connect jobs and disconnect jobs -/

theorem ConnectWaits.of_waits {ρ₁ ρ₂ : Record} {z : Step Client Action Event} (hlost : losesLte z)
    (hqueued : .connect ∈ z.before.queue) (hwaits : Waits .connect ρ₂) :
    ConnectWaits (ρ₁ ++ z :: ρ₂) :=
  ⟨z :: ρ₂, (List.mem_tails _ _).mpr (List.suffix_append ρ₁ _), z, rfl, hlost, hqueued, hwaits⟩

/-- What a connect job that was queued when LTE was lost can still do. -/
structure Cancelled (ρ : Record) (c : Client) : Prop where
  waits : Waits .connect ρ → c.lteAvailable = false
  runs : Runs .connect ρ →
    c.worker = .connectLte ∧ Waits .connect ρ ∨ c.worker = .connectRelease

theorem cancelled_of_run {c : Client} {ρ : Record}
    (hr : (mqttClient cfg).record.Run Orderly c ρ) :
    ∀ ρ₁ z ρ₂, ρ = ρ₁ ++ z :: ρ₂ → losesLte z ∧ .connect ∈ z.before.queue → Cancelled ρ₂ c := by
  refine hr.since_with (J := fun _ => True) (I := fun _ ρ c => Cancelled ρ c)
    (fun _ => trivial) ?_ ?_
  · intro z _ _ ⟨⟨_, hdown⟩, _⟩
    exact ⟨fun _ => hdown, fun h => absurd h not_runs_nil⟩
  · intro ρ₁ z ρ y _ hok hs ⟨hlost, hqueued⟩ hold
    refine ⟨fun h => ?_, fun h => ?_⟩
    · have hdown := hold.waits h.of_append
      by_contra hup
      obtain ⟨haction, hcaller⟩ := (Moves.step hs).back hdown (by simpa using hup)
      rw [haction] at hok
      exact hok hcaller (.of_waits hlost hqueued h.of_append)
    · rcases h.of_append with ⟨hqueued, -, htaken⟩ | ⟨hruns, hrunning⟩
      · have hwaits : Waits .connect ρ := fun x hx => .inl (hqueued x hx)
        exact .inl ⟨htaken, hwaits.append (.inr htaken)⟩
      · rcases hold.runs hruns with ⟨hworker, hwaits⟩ | hworker
        · exact ((Moves.step hs).connectLte hworker (hold.waits hwaits)).imp_left fun hworker' =>
            ⟨hworker', hwaits.append (.inr hworker')⟩
        · exact .inr (((Moves.step hs).connectRelease hworker).resolve_right hrunning)

/-- What a disconnect job can still do. -/
structure Closes (ρ : Record) (c : Client) : Prop where
  queued : Queued .disconnect ρ → .disconnect ∈ c.queue ∧ ∀ y ∈ ρ, ¬accepts y
  runs : Runs .disconnect ρ →
    (c.worker = .disconnect ∨ c.worker = .disconnectHelper) ∧ (∀ y ∈ ρ, ¬accepts y) ∨
    ∃ x, c.worker = .onDisconnect x

theorem closes_of_run {c : Client} {ρ : Record} (hr : (mqttClient cfg).record.Run Orderly c ρ) :
    ∀ ρ₁ q ρ₂, ρ = ρ₁ ++ q :: ρ₂ → queues .disconnect q → Closes ρ₂ c := by
  refine hr.since_with (J := fun _ => True) (I := fun _ ρ c => Closes ρ c)
    (fun _ => trivial) ?_ ?_
  · intro q _ _ hqueues
    exact ⟨fun _ => ⟨hqueues.2, by simp⟩, fun h => absurd h not_runs_nil⟩
  · intro ρ₁ q ρ y _ hok hs _ hold
    have haccepts : accepts y → .disconnect ∉ y.before.queue ∧ y.before.worker ≠ .disconnect ∧
        y.before.worker ≠ .disconnectHelper := fun ha => by
      rw [ha] at hok
      exact hok
    have happend : (∀ x ∈ ρ, ¬accepts x) → ¬accepts y → ∀ x ∈ ρ ++ [y], ¬accepts x := by
      intro hρ hy x hx
      rcases List.mem_append.mp hx with hx | hx
      · exact hρ x hx
      · rw [List.mem_singleton.mp hx]
        exact hy
    refine ⟨fun h => ?_, fun h => ?_⟩
    · obtain ⟨hqueued, hafter⟩ := h.of_append
      obtain ⟨hqueue, hnone⟩ := hold.queued hqueued
      exact ⟨hafter, happend hnone fun ha => (haccepts ha).1 hqueue⟩
    · rcases h.of_append with ⟨hqueued, -, htaken⟩ | ⟨hruns, hrunning⟩
      · obtain ⟨hqueue, hnone⟩ := hold.queued hqueued
        exact .inl ⟨.inl htaken, happend hnone fun ha => (haccepts ha).1 hqueue⟩
      · rcases hold.runs hruns with ⟨hworker, hnone⟩ | ⟨x, hworker⟩
        · rcases hworker with hworker | hworker
          · refine .inl ⟨?_, happend hnone fun ha => (haccepts ha).2.1 hworker⟩
            rcases (Moves.step hs).disconnect hworker with h | h | h
            · exact .inl h
            · exact .inr h
            · exact absurd h hrunning
          · rcases (Moves.step hs).disconnectHelper hworker with h | h | h
            · exact .inl ⟨.inr h, happend hnone fun ha => (haccepts ha).2.2 hworker⟩
            · exact .inr h
            · exact absurd h hrunning
        · exact .inr (((Moves.step hs).onDisconnect x hworker).resolve_right hrunning)

/-- **Work that is queued when LTE is lost stays away from the helper**, in every
run in which LTE does not come back, and no connection is accepted, too early
for it. -/
theorem queued_work_withheld {c : Client} {ρ : Record}
    (hr : (mqttClient cfg).record.Run Orderly c ρ) :
    ConnectWithheld ρ ∧ PublishWithheld ρ ∧ DisconnectWithheld ρ := by
  refine ⟨?_, publish_withheld (hr.mono fun _ _ _ _ => trivial), ?_⟩
  · intro ρ₁ z ρ₂ x ρ₃ hρ hlost hqueued hruns hconnecting
    rw [← List.cons_append, ← List.append_assoc] at hρ
    obtain ⟨hbefore, -, hstep, -⟩ := hr.split hρ
    obtain ⟨g, hw⟩ := (Moves.step hstep).connecting hconnecting
    rcases (cancelled_of_run hbefore ρ₁ z ρ₂ rfl ⟨hlost, hqueued⟩).runs hruns with ⟨h, -⟩ | h
    · rw [h] at hw
      cases hw
    · rw [h] at hw
      cases hw
  · intro ρ₁ q ρ₂ x ρ₃ hρ hqueues hruns ⟨_, hworker, _⟩
    rw [← List.cons_append, ← List.append_assoc] at hρ
    obtain ⟨hbefore, -, -, -⟩ := hr.split hρ
    rcases (closes_of_run hbefore ρ₁ q ρ₂ rfl hqueues).runs hruns with ⟨-, hnone⟩ | ⟨x', h⟩
    · exact hnone
    · rw [h] at hworker
      cases hworker

instance (c : Client) (ρ : Record) (a : Action) : Decidable (Orderly c ρ a) := by
  unfold Orderly ConnectWaits losesLte Waits
  split <;> infer_instance

/-- LTE is lost while a connect job is queued, and the worker finds it before LTE is back. -/
def lostWhileQueued : List Action :=
  List.flatten [[.callSetLteAvailable true, .caller, .callConnect], List.replicate 4 .caller,
    [.callSetLteAvailable false], List.replicate 3 .caller, List.replicate 5 .worker,
    [.callSetLteAvailable true, .caller]]

theorem lostWhileQueued_replays :
    ((mqttClient defaultClient).record.replay Orderly {} [] lostWhileQueued).isSome := by
  decide +kernel

theorem queued_work_withheld_lostWhileQueued :
    ∃ c ρ, (mqttClient defaultClient).record.Run Orderly c ρ ∧ (∃ z ∈ ρ, losesLte z) ∧
      ConnectWithheld ρ :=
  ⟨_, _, .of_isSome lostWhileQueued_replays, by unfold losesLte; decide +kernel,
    (queued_work_withheld (.of_isSome lostWhileQueued_replays)).1⟩

/-- LTE comes back before the worker gets to the connect job; the connection is
accepted, and then it gets to the disconnect job of the lost one. -/
def flap : List Action :=
  List.flatten [[.callSetLteAvailable true, .caller, .callConnect], List.replicate 4 .caller,
    [.callSetLteAvailable false], List.replicate 3 .caller, [.callSetLteAvailable true, .caller],
    List.replicate 4 .worker, [.workerConnect false, .pollConnack true], List.replicate 6 .poll,
    List.replicate 3 .worker]

theorem flap_replays :
    ((mqttClient defaultClient).record.replay anyStep {} [] flap).isSome := by
  decide +kernel

theorem cut_at (ρ : Record) (k : ℕ) (hk : k < ρ.length) :
    ρ = ρ.take k ++ ρ[k] :: ρ.drop (k + 1) := by
  rw [← List.drop_eq_getElem_cons hk, List.take_append_drop]

theorem cut_twice (ρ : Record) (i k : ℕ) (hi : i < ρ.length)
    (hk : k < (ρ.drop (i + 1)).length) :
    ρ = ρ.take i ++ ρ[i] :: ((ρ.drop (i + 1)).take k ++
      (ρ.drop (i + 1))[k] :: (ρ.drop (i + 1)).drop (k + 1)) := by
  rw [← cut_at _ k hk]
  exact cut_at ρ i hi

instance (job : Job) (ρ : Record) : Decidable (Queued job ρ) := by
  unfold Queued
  infer_instance

theorem Runs.of_cut {job : Job} {ρ : Record} (k : ℕ) (hk : k < ρ.length)
    (h : Queued job (ρ.take k) ∧ ρ[k].before.worker = .idle ∧ ρ[k].after.worker = job.handler ∧
      ∀ y ∈ ρ.drop (k + 1), y.after.worker ≠ .idle) : Runs job ρ :=
  ⟨_, _, _, cut_at ρ k hk, h⟩

/-- **Queued work can reach the helper after all**: the connect job of before the
loss connects, and the disconnect job of the loss closes that connection. -/
theorem queued_work_reaches_helper :
    ∃ c ρ, (mqttClient defaultClient).record.Run anyStep c ρ ∧ ¬ConnectWithheld ρ ∧
      ¬DisconnectWithheld ρ := by
  refine ⟨_, _, .of_isSome flap_replays, fun h => ?_, fun h => ?_⟩
  · refine h _ _ _ _ _ (cut_twice _ 8 8 (by decide +kernel) (by decide +kernel)) ?_ ?_
      (.of_cut 4 (by decide +kernel) (by decide +kernel)) (by decide +kernel)
    · unfold losesLte
      decide +kernel
    · decide +kernel
  · refine absurd ?_ (h _ _ _ _ _ (cut_twice _ 10 16 (by decide +kernel) (by decide +kernel)) ?_
      (.of_cut 14 (by decide +kernel) (by decide +kernel)) ?_ _
      (List.getElem_mem (n := 7) ?_))
    · rfl
    · unfold queues
      decide +kernel
    · exact ⟨rfl, by decide +kernel, by decide +kernel⟩
    · decide +kernel

end Aitsm.Original.Client
