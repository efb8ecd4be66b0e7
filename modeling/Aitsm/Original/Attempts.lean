import Aitsm.Original.Queued

/-!
# One connection attempt at a time

`connect_pending` is meant to keep attempts apart: `aitsm_mqtt_connect` takes it,
and the callbacks clear it when the attempt is over. But neither side takes a
lock. `mqtt_on_connack` clears it before it sets `helper_connected`, and
`mqtt_on_disconnect` clears it whatever has happened since the connection ended.
A call that takes it in between (`secondAttempt`) starts a second attempt.
Without such a call (`Apart`), attempts exclude each other and everything that
could clear the flag (`Exclusive`).
-/

namespace Aitsm.Original.Client

open Library Library.Wire
open Library.System (anyStep Step reports)

variable {cfg : ClientConfig} {c c' : Client} {es : List Event}

/-- `aitsm_mqtt_connect` has taken `connect_pending`. -/
def Caller.connects : Caller → Bool
  | .connectSubmit | .connectNotSubmitted _ => true
  | _ => false

/-- The worker is in `mqtt_connect_work_handler`, up to the end of the attempt. -/
def Worker.connects : Worker → Bool
  | .connectLte | .connectRelease | .connectGeneration | .connectSetGeneration _
  | .connectHelper _ | .connectFailed _ => true
  | _ => false

/-- `mqtt_on_disconnect` has yet to clear `connect_pending`. -/
def Closing.clears : Closing → Bool
  | .connected | .pending => true
  | .publish | .post => false

@[inherit_doc Closing.clears]
def Worker.clears : Worker → Bool
  | .onDisconnect x => x.clears
  | _ => false

@[inherit_doc Closing.clears]
def Poll.clears : Poll → Bool
  | .onDisconnect x => x.clears
  | _ => false

/-- The worker neither connects nor disconnects. -/
def Worker.bystands : Worker → Bool
  | .disconnectHelper => false
  | x => !x.connects && !x.clears

/-- `mqtt_on_connack` is about to set `helper_connected`. -/
def Poll.accepts : Poll → Bool
  | .connack true | .connackConnected => true
  | _ => false

/-- `mqtt_on_connack` has not cleared `connect_pending`, or not set `helper_connected`. -/
def Poll.connects : Poll → Bool
  | .connack _ | .connackConnected => true
  | _ => false

@[inherit_doc Worker.bystands]
def Poll.bystands (x : Poll) : Bool := !x.connects && !x.clears

/-- An attempt was accepted and has not been resolved. -/
def attempting (c : Client) : Prop :=
  .connect ∈ c.queue ∨ c.worker.connects ∨ c.helper = .connecting

/-- The attempt ends: by a callback, or in the handler. -/
def resolves (x : Step Client Action Event) : Prop :=
  x.before.helper = .connecting ∧ x.after.helper ≠ .connecting ∨
  x.before.worker.connects ∧ x.after.worker.connects = false ∧ x.after.helper ≠ .connecting

/-- `aitsm_mqtt_connect` takes `connect_pending` only when no connection has been
accepted meanwhile, and no `mqtt_on_disconnect` is due to clear it. -/
def Apart (c : Client) (_ : Record) : Action → Prop
  | .caller => c.caller = .connectTake → c.connectPending = false →
      c.helperConnected = false ∧ c.poll ≠ .connackConnected ∧
        c.poll.clears = false ∧ c.worker.clears = false ∧ c.helper ≠ .refused
  | _ => True

/-- There is one attempt at most, and while there is one, nobody else is about to
change the flags. -/
structure Exclusive (c : Client) : Prop where
  caller : c.caller.connects → .connect ∉ c.queue ∧ c.worker.connects = false
  queued : .connect ∈ c.queue → c.worker.connects = false
  attempt : c.caller.connects ∨ .connect ∈ c.queue ∨ c.worker.connects →
    c.connectPending ∧ c.helperConnected = false ∧ c.helper = .down ∧ c.poll.clears = false ∧
      c.worker.clears = false ∧ c.poll.connects = false
  connecting : c.helper = .connecting →
    c.connectPending ∧ c.helperConnected = false ∧ c.poll.clears = false ∧
      c.worker.clears = false ∧ c.poll.connects = false ∧ c.worker ≠ .disconnectHelper
  up : c.helper = .up → c.helperConnected ∨ c.poll.accepts
  connack : ∀ b, c.poll = .connack b →
    c.connectPending ∧ c.helperConnected = false ∧ c.helper = if b then .up else .refused
  connackConnected : c.poll = .connackConnected → c.helperConnected = false ∧ c.helper = .up
  connected : c.helperConnected → c.helper = .up ∨ c.poll = .onDisconnect .connected ∨
    c.worker = .onDisconnect .connected
  disconnectHelper : c.worker = .disconnectHelper →
    c.helper = .down ∨ c.helper = .up ∧ c.helperConnected
  pollClears : c.poll.clears → c.helper = .down
  workerClears : c.worker.clears → c.helper = .down ∧ c.poll.clears = false

attribute [local grind] Caller.connects Worker.connects Closing.clears Worker.clears Poll.clears
  Poll.accepts Poll.connects Job.handler
attribute [local grind] submit cancelTimeout invalidate closeConnected closePublish publishSent
attribute [local grind cases eager] Exclusive

namespace Exclusive

/-- While `connect_pending` is clear, no attempt is under way. -/
theorem free (hx : Exclusive c) (hpending : c.connectPending = false) :
    c.caller.connects = false ∧ .connect ∉ c.queue ∧ c.worker.connects = false ∧
      c.helper ≠ .connecting ∧ ∀ b, c.poll ≠ .connack b := by
  have hnone : ¬(c.caller.connects ∨ .connect ∈ c.queue ∨ c.worker.connects) := fun h => by
    exact Bool.false_ne_true (hpending.symm.trans (hx.attempt h).1)
  simp only [not_or, Bool.not_eq_true] at hnone
  refine ⟨hnone.1, hnone.2.1, hnone.2.2, fun h => ?_, fun b h => ?_⟩
  · exact Bool.false_ne_true (hpending.symm.trans (hx.connecting h).1)
  · exact Bool.false_ne_true (hpending.symm.trans (hx.connack b h).1)

/-- Then `aitsm_mqtt_connect` may take it, if nobody else is about to change the flags. -/
theorem connectTake (hx : Exclusive c) (hpending : c.connectPending = false)
    (hconnected : c.helperConnected = false) (hpoll : c.poll ≠ .connackConnected)
    (hclears : c.poll.clears = false) (hworker : c.worker.clears = false)
    (hrefused : c.helper ≠ .refused) :
    Exclusive { c with caller := .connectSubmit, connectPending := true } := by
  obtain ⟨-, hqueue, hconnects, hconnecting, hconnack⟩ := hx.free hpending
  have hanswer : c.poll.connects = false ∧ c.poll.accepts = false := by
    cases hp : c.poll with
    | connack b => exact absurd hp (hconnack b)
    | connackConnected => exact absurd hp hpoll
    | _ => exact ⟨rfl, rfl⟩
  have hdown : c.helper = .down := by
    cases hh : c.helper with
    | down => rfl
    | connecting => exact absurd hh hconnecting
    | refused => exact absurd hh hrefused
    | up => simpa [hconnected, hanswer.2] using hx.up hh
  refine ⟨fun _ => ⟨hqueue, hconnects⟩, hx.queued,
    fun _ => ⟨rfl, hconnected, hdown, hclears, hworker, hanswer.1⟩, fun h => absurd h hconnecting,
    hx.up, fun b h => absurd h (hconnack b), hx.connackConnected, hx.connected,
    hx.disconnectHelper, hx.pollClears, hx.workerClears⟩

/-- The invariant does not tell two workers apart that bystand, or that connect. -/
theorem worker_same {x y : Worker}
    (h : y = x ∨ x.bystands ∧ y.bystands ∨ x.connects ∧ y.connects) :
    y.connects = x.connects ∧ y.clears = x.clears ∧ (y = .disconnectHelper ↔ x = .disconnectHelper) ∧
      (y = .onDisconnect .connected ↔ x = .onDisconnect .connected) := by
  have hnone : ∀ x : Worker, x.bystands ∨ x.connects → x.clears = false ∧
      x ≠ .disconnectHelper ∧ x ≠ .onDisconnect .connected := by
    intro x hx
    cases x with
    | onDisconnect x =>
      cases x <;> simp_all [Worker.bystands, Worker.connects, Worker.clears, Closing.clears]
    | _ => simp_all [Worker.bystands, Worker.connects, Worker.clears]
  have hidle : ∀ x : Worker, x.bystands → x.connects = false := by
    intro x hx
    cases x <;> first | rfl | cases hx
  rcases h with rfl | ⟨h, h'⟩ | ⟨h, h'⟩
  · exact ⟨rfl, rfl, .rfl, .rfl⟩
  · obtain ⟨h1, h2, h3⟩ := hnone _ (.inl h)
    obtain ⟨h1', h2', h3'⟩ := hnone _ (.inl h')
    simp [hidle _ h, hidle _ h', h1, h2, h3, h1', h2', h3']
  · obtain ⟨h1, h2, h3⟩ := hnone _ (.inr h)
    obtain ⟨h1', h2', h3'⟩ := hnone _ (.inr h')
    simp [h, h', h1, h2, h3, h1', h2', h3']

/-- Nor two poll threads that bystand. -/
theorem poll_same {x y : Poll} (h : y = x ∨ x.bystands ∧ y.bystands) :
    y.connects = x.connects ∧ y.clears = x.clears ∧ y.accepts = x.accepts ∧
      (∀ b, y = .connack b ↔ x = .connack b) ∧ (y = .connackConnected ↔ x = .connackConnected) ∧
      (y = .onDisconnect .connected ↔ x = .onDisconnect .connected) := by
  have hbystands : ∀ x : Poll, x.bystands → x.connects = false ∧ x.clears = false ∧
      x.accepts = false ∧ (∀ b, x ≠ .connack b) ∧ x ≠ .connackConnected ∧
      x ≠ .onDisconnect .connected := by
    intro x hx
    cases x with
    | onDisconnect x =>
      cases x <;>
        simp_all [Poll.bystands, Poll.connects, Poll.clears, Poll.accepts, Closing.clears]
    | _ => simp_all [Poll.bystands, Poll.connects, Poll.clears, Poll.accepts]
  rcases h with rfl | ⟨h, h'⟩
  · exact ⟨rfl, rfl, rfl, fun _ => .rfl, .rfl, .rfl⟩
  · obtain ⟨h1, h2, h3, h4, h5, h6⟩ := hbystands _ h
    obtain ⟨h1', h2', h3', h4', h5', h6'⟩ := hbystands _ h'
    simp [h1, h2, h3, h4, h5, h6, h1', h2', h3', h4', h5', h6']

/-- A step that leaves the connection alone. -/
theorem of_frame (hx : Exclusive c) (hcaller : c'.caller.connects = c.caller.connects)
    (hqueue : .connect ∈ c'.queue ↔ .connect ∈ c.queue)
    (hworker : c'.worker = c.worker ∨ c.worker.bystands ∧ c'.worker.bystands ∨
      c.worker.connects ∧ c'.worker.connects)
    (hpoll : c'.poll = c.poll ∨ c.poll.bystands ∧ c'.poll.bystands)
    (hpending : c'.connectPending = c.connectPending)
    (hconnected : c'.helperConnected = c.helperConnected) (hhelper : c'.helper = c.helper) :
    Exclusive c' := by
  obtain ⟨hconnects, hclears, hdisconnect, hclosing⟩ := worker_same hworker
  obtain ⟨hanswers, hends, haccepts, hconnack, hconnack', hclosing'⟩ := poll_same hpoll
  refine ⟨?_, ?_, ?_, ?_, ?_, ?_, ?_, ?_, ?_, ?_, ?_⟩
  · simpa only [hcaller, hqueue, hconnects] using hx.caller
  · simpa only [hqueue, hconnects] using hx.queued
  · simpa only [hcaller, hqueue, hconnects, hpending, hconnected, hhelper, hanswers, hends,
      hclears] using hx.attempt
  · simpa only [hhelper, hpending, hconnected, hanswers, hends, hclears, ne_eq, hdisconnect] using
      hx.connecting
  · simpa only [hhelper, hconnected, haccepts] using hx.up
  · simpa only [hconnack, hpending, hconnected, hhelper] using hx.connack
  · simpa only [hconnack', hconnected, hhelper] using hx.connackConnected
  · simpa only [hconnected, hhelper, hclosing', hclosing] using hx.connected
  · simpa only [hdisconnect, hhelper, hconnected] using hx.disconnectHelper
  · simpa only [hends, hhelper] using hx.pollClears
  · simpa only [hclears, hhelper, hends] using hx.workerClears

attribute [local grind] Worker.bystands Poll.bystands

theorem callerStep (hx : Exclusive c) (hok : Apart c [] .caller)
    (h : c.callerStep = some (c', es)) : Exclusive c' := by
  cases hcaller : c.caller with
  | connectTake =>
    simp only [Client.callerStep, hcaller] at h
    split at h
    · obtain ⟨rfl, -⟩ := Prod.mk.inj (Option.some.inj h)
      apply hx.of_frame <;> clear hx hok <;> grind -ring -linarith -order -lia
    · rename_i hpending
      obtain ⟨rfl, -⟩ := Prod.mk.inj (Option.some.inj h)
      have hpending : c.connectPending = false := by simpa using hpending
      obtain ⟨hconnected, hpoll, hclears, hworker, hrefused⟩ := hok hcaller hpending
      exact hx.connectTake hpending hconnected hpoll hclears hworker hrefused
  | connectSubmit | connectNotSubmitted =>
    simp only [Client.callerStep, hcaller] at h
    constructor <;> grind -ring -linarith -order -lia
  | _ =>
    simp only [Client.callerStep, hcaller] at h
    apply hx.of_frame <;> clear hx hok <;> grind -ring -linarith -order -lia

theorem take (hx : Exclusive c) (hn : c.queue.Nodup) {job : Job} {rest : List Job}
    (hw : c.worker = .idle) (hq : c.queue = job :: rest) :
    Exclusive { c with worker := job.handler, queue := rest } := by
  cases job with
  | connect => constructor <;> grind -ring -linarith -order -lia
  | _ => apply hx.of_frame <;> clear hx <;> grind -ring -linarith -order -lia

theorem workerStep (hx : Exclusive c) (hn : c.queue.Nodup)
    (h : c.workerStep cfg = some (c', es)) : Exclusive c' := by
  cases hw : c.worker with
  | idle =>
    simp only [Client.workerStep, hw] at h
    split at h
    · cases h
    · obtain ⟨rfl, -⟩ := Prod.mk.inj (Option.some.inj h)
      exact hx.take hn hw ‹_›
  | onDisconnect x =>
    cases x with
    | connected | pending =>
      simp only [Client.workerStep, hw] at h
      constructor <;> grind -ring -linarith -order -lia
    | publish | post =>
      simp only [Client.workerStep, hw] at h
      apply hx.of_frame <;> clear hx hn <;> grind -ring -linarith -order -lia
  | connectRelease | connectFailed | disconnect | disconnectHelper =>
    simp only [Client.workerStep, hw] at h
    constructor <;> grind -ring -linarith -order -lia
  | _ =>
    simp only [Client.workerStep, hw] at h
    apply hx.of_frame <;> clear hx hn <;> grind -ring -linarith -order -lia

theorem pollStep (hx : Exclusive c) (h : c.pollStep = some (c', es)) : Exclusive c' := by
  cases hp : c.poll with
  | onDisconnect x =>
    cases x with
    | connected | pending =>
      simp only [Client.pollStep, hp] at h
      constructor <;> grind -ring -linarith -order -lia
    | publish | post =>
      simp only [Client.pollStep, hp] at h
      apply hx.of_frame <;> clear hx <;> grind -ring -linarith -order -lia
  | connack b =>
    cases b <;> simp only [Client.pollStep, hp] at h <;>
      constructor <;> grind -ring -linarith -order -lia
  | connackConnected =>
    simp only [Client.pollStep, hp] at h
    constructor <;> grind -ring -linarith -order -lia
  | _ =>
    simp only [Client.pollStep, hp] at h
    apply hx.of_frame <;> clear hx <;> grind -ring -linarith -order -lia

theorem step {a : Action} (hx : Exclusive c) (hn : c.queue.Nodup) (hok : Apart c [] a)
    (h : c.step cfg a = some (c', es)) : Exclusive c' := by
  cases a with
  | caller => exact hx.callerStep hok h
  | worker => exact hx.workerStep hn h
  | poll => exact hx.pollStep h
  | workerConnect failed =>
    constructor <;> grind -ring -linarith -order -lia [Client.step, workerConnect]
  | pollConnack accepted =>
    cases accepted <;>
      constructor <;> grind -ring -linarith -order -lia [Client.step, pollStart]
  | pollDisconnect =>
    constructor <;> grind -ring -linarith -order -lia [Client.step, pollStart]
  | _ =>
    simp only [Client.step, call, callPublish, callerNoSubmit, workerMessageId, workerWrite,
      workerSent, pollPuback, pollStart] at h
    apply hx.of_frame <;> clear hx hn hok <;> grind -ring -linarith -order -lia

theorem of_run {c : Client} {ρ : Record} (hr : (mqttClient cfg).record.Run Apart c ρ) :
    Exclusive c := by
  refine hr.invariant_with (J := fun c _ => Owned c) (I := fun c _ => Exclusive c)
    (fun hr => Owned.of_run hr.unrecord) ?_ ?_
  · constructor <;> simp [mqttClient, Library.System.record, Caller.connects, Worker.connects,
      Poll.clears, Worker.clears]
  · intro c ρ a c' xs ho hx hok hs
    obtain ⟨es, hstep, -⟩ := Library.System.record_step hs
    exact hx.step ho.nodup hok hstep

end Exclusive

/-! ## Calls and attempts -/

attribute [local grind] attempting resolves

/-- How a step answers a call, and what it leaves of an attempt. -/
structure Answered (c : Client) (a : Action) (c' : Client) (es : List Event) : Prop where
  accepted : .connectReturned (.ok ()) ∈ es → .connect ∈ c'.queue
  answer : ∀ answer, .connectReturned answer ∈ es → answer = .error .ealready ∨
    answer = .error .enetdown ∧ c.lteAvailable = false ∨ c.caller.connects
  lasts : c.attempting → ¬resolves ⟨c, a, c', es⟩ → c'.attempting

namespace Answered

theorem take {job : Job} {rest : List Job} (hq : c.queue = job :: rest) :
    Answered c .worker { c with worker := job.handler, queue := rest } [] := by
  cases job <;> constructor <;> grind -ring -linarith -order -lia

theorem worker (h : c.workerStep cfg = some (c', es)) : Answered c .worker c' es := by
  cases hw : c.worker with
  | idle =>
    simp only [Client.workerStep, hw] at h
    split at h
    · cases h
    · obtain ⟨rfl, rfl⟩ := Prod.mk.inj (Option.some.inj h)
      exact take ‹_›
  | onDisconnect x =>
    cases x <;> simp only [Client.workerStep, hw] at h <;>
      constructor <;> grind -ring -linarith -order -lia
  | _ =>
    simp only [Client.workerStep, hw] at h
    constructor <;> grind -ring -linarith -order -lia

theorem step {a : Action} (h : c.step cfg a = some (c', es)) : Answered c a c' es := by
  cases a with
  | worker => exact worker h
  | caller =>
    unfold Client.step Client.callerStep at h
    split at h <;> try split at h
    all_goals constructor <;> grind -ring -linarith -order -lia
  | poll =>
    unfold Client.step Client.pollStep at h
    split at h <;> try split at h
    all_goals constructor <;> grind -ring -linarith -order -lia
  | _ =>
    simp only [Client.step, call, callPublish, callerNoSubmit, workerConnect, workerMessageId,
      workerWrite, workerSent, pollPuback, pollStart] at h
    constructor <;> grind -ring -linarith -order -lia

end Answered

/-- An accepted attempt is under way until it is resolved. -/
theorem attempting_of_run {ok : Client → Record → Action → Prop} {c : Client} {ρ : Record}
    (hr : (mqttClient cfg).record.Run ok c ρ) :
    ∀ ρ₁ y ρ₂, ρ = ρ₁ ++ y :: ρ₂ → .connectReturned (.ok ()) ∈ y.events →
      (∀ z ∈ ρ₂, ¬resolves z) → c.attempting :=
  hr.since (J := fun _ => True) (I := fun _ _ c => c.attempting) (fun _ => trivial)
    (fun _ _ hs hy => .inl ((Answered.step hs).accepted hy))
    fun _ _ _ _ hs hz hold => (Answered.step hs).lasts hold hz

/-- `mqtt_helper_connect` is never called while a connection is open or about to
be, nor during another attempt. -/
def ConnectsApart (ρ : Record) : Prop :=
  ∀ ρ₁ x ρ₂, ρ = ρ₁ ++ x :: ρ₂ → .connecting ∈ x.events →
    x.before.helperConnected = false ∧ x.before.poll.accepts = false ∧
      x.before.helper ≠ .connecting

/-- While an accepted attempt is not resolved, `aitsm_mqtt_connect` returns
-EALREADY, or -ENETDOWN when it finds `lte_available` cleared. -/
def CallsApart (ρ : Record) : Prop :=
  ∀ ρ₁ y ρ₂ x ρ₃, ρ = ρ₁ ++ y :: (ρ₂ ++ x :: ρ₃) → .connectReturned (.ok ()) ∈ y.events →
    (∀ z ∈ ρ₂, ¬resolves z) → ∀ answer, .connectReturned answer ∈ x.events →
      answer = .error .ealready ∨
        answer = .error .enetdown ∧ x.before.lteAvailable = false

/-- **Connection attempts never overlap**, in every run in which
`aitsm_mqtt_connect` does not take `connect_pending` from a callback that still
uses it. -/
theorem attempts_apart {c : Client} {ρ : Record} (hr : (mqttClient cfg).record.Run Apart c ρ) :
    ConnectsApart ρ ∧ CallsApart ρ := by
  refine ⟨fun ρ₁ x ρ₂ hρ hconnecting => ?_, fun ρ₁ y ρ₂ x ρ₃ hρ hy hunresolved answer hx => ?_⟩
  · obtain ⟨hbefore, -, hstep, -⟩ := hr.split hρ
    obtain ⟨g, hw⟩ := (Moves.step hstep).connecting hconnecting
    have hattempt := (Exclusive.of_run hbefore).attempt (.inr (.inr (by rw [hw]; rfl)))
    obtain ⟨-, hconnected, hdown, -, -, hpoll⟩ := hattempt
    refine ⟨hconnected, ?_, by simp [hdown]⟩
    cases hp : x.before.poll with
    | connack b => simp [hp, Poll.connects] at hpoll
    | connackConnected => simp [hp, Poll.connects] at hpoll
    | _ => rfl
  · rw [← List.cons_append, ← List.append_assoc] at hρ
    obtain ⟨hbefore, -, hstep, -⟩ := hr.split hρ
    have hattempting := attempting_of_run hbefore ρ₁ y ρ₂ rfl hy hunresolved
    rcases (Answered.step hstep).answer answer hx with h | h | hconnects
    · exact .inl h
    · exact .inr h
    · -- a call that has taken the flag excludes the attempt
      have hx := Exclusive.of_run hbefore
      obtain ⟨hqueue, hworker⟩ := hx.caller hconnects
      have hdown := (hx.attempt (.inl hconnects)).2.2.1
      rcases hattempting with h | h | h
      · exact absurd h hqueue
      · exact absurd h (by simp [hworker])
      · exact absurd h (by simp [hdown])

instance (c : Client) (ρ : Record) (a : Action) : Decidable (Apart c ρ a) := by
  unfold Apart
  split <;> infer_instance

/-- A second call while the first attempt is under way. -/
def secondCall : List Action :=
  List.flatten [[.callSetLteAvailable true, .caller, .callConnect], List.replicate 4 .caller,
    List.replicate 4 .worker, [.workerConnect false, .callConnect], List.replicate 3 .caller]

theorem secondCall_replays :
    ((mqttClient defaultClient).record.replay Apart {} [] secondCall).isSome := by
  decide +kernel

theorem attempts_apart_secondCall :
    ∃ c ρ, (mqttClient defaultClient).record.Run Apart c ρ ∧
      .connectReturned (.error .ealready) ∈ reports ρ ∧ ConnectsApart ρ :=
  ⟨_, _, .of_isSome secondCall_replays, by decide +kernel,
    (attempts_apart (.of_isSome secondCall_replays)).1⟩

/-- `mqtt_on_connack` has cleared `connect_pending` and not yet set
`helper_connected` when `aitsm_mqtt_connect` is called. -/
def secondAttempt : List Action :=
  List.flatten [[.callSetLteAvailable true, .caller, .callConnect], List.replicate 4 .caller,
    List.replicate 4 .worker, [.workerConnect false, .pollConnack true, .poll, .callConnect],
    List.replicate 4 .caller, List.replicate 5 .poll, List.replicate 4 .worker,
    [.workerConnect true]]

theorem secondAttempt_replays :
    ((mqttClient defaultClient).record.replay anyStep {} [] secondAttempt).isSome := by
  decide +kernel

/-- **Attempts can overlap**: `mqtt_helper_connect` is called on an open connection. -/
theorem attempts_overlap :
    ∃ c ρ, (mqttClient defaultClient).record.Run anyStep c ρ ∧ ¬ConnectsApart ρ := by
  refine ⟨_, _, .of_isSome secondAttempt_replays, fun h => ?_⟩
  have := h _ _ _ (cut_at _ 28 (by decide +kernel)) (by decide +kernel)
  revert this
  decide +kernel

end Aitsm.Original.Client
