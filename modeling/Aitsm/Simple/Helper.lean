import Aitsm.Simple.Delivery

/-!
# The application state and the state of the helper

`mqtt_state` follows the helper through two event bits. A connection that ends
is always noticed (`Ends`). The converse is where it could go wrong: DISCONNECTED
may be posted twice for one connection, by the helper and by
`check_puback_timeout` itself, and the second bit may survive the iteration that
handles the first one. It is harmless as long as it is consumed while
`mqtt_state` is idle, and it is consumed then because `schedule_reconnect` puts
the next attempt at least five seconds off: the same call of `update_connection`
must not find that time over (`Prompt`). `Follows` is what holds of such runs,
and `staleDisconnected` is a run of the other kind.
-/

namespace Aitsm.Simple

open Library Library.Wire
open Library.System (anyStep)

variable {cfg : Config}

/-- `EVENT_MQTT_DISCONNECTED` is pending, or in the snapshot being processed. -/
def State.disconnectedLive (s : State cfg) : Prop :=
  s.events.mqttDisconnected ∨ s.pc.unseen.mqttDisconnected

/-- `EVENT_MQTT_CONNECTED` is pending, or in the snapshot being processed. -/
def State.connectedLive (s : State cfg) : Prop :=
  s.events.mqttConnected ∨ s.pc.unseen.mqttConnected

attribute [local grind] Pc.early Pc.late Pc.starting Pc.closing Pc.publishing Pc.unseen
attribute [local grind] State.disconnectedLive State.connectedLive
attribute [local grind] handlePuback updateConnection scheduleReconnect collectMeasurement
  Events.any
attribute [local grind cases eager] Control

/-! ## A connection that ended is noticed -/

/-- Without a helper connection, a state other than idle has a DISCONNECTED coming. -/
structure Ends (s : State cfg) : Prop where
  ended : s.app.mqttState ≠ .idle → s.helper = .down → s.disconnectedLive
  started : s.pc = .connectStarted → s.helper = .down → s.events.mqttDisconnected

attribute [local grind cases eager] Ends

theorem Ends.move {s s' : State cfg} {es : List Event} (hc : Control s) (hi : Ends s)
    (hm : Move s s' es) : Ends s' := by
  constructor <;> cases hm <;> grind -ring -linarith -order [publishNext_cases]

theorem Ends.of_run {ok : State cfg → List Event → Action → Prop} {s : State cfg}
    {τ : List Event} (hr : (firmware cfg).Run ok s τ) : Ends s :=
  hr.invariant_with (J := fun s _ => Control s) (I := fun s _ => Ends s) Control.of_run
    ⟨fun h => absurd rfl h, nofun⟩ fun _ _ _ _ _ hc hi _ hs => hi.move hc (step_cases hs)

/-! ## An idle application has no connection -/

/-- The reconnect time that `schedule_reconnect` has just set is not over when
the same call of `update_connection` asks for it. -/
def Prompt (s : State cfg) (_ : List Event) (a : Action) : Prop :=
  s.pc = .reconnectTime true → a = .main → s.uptimeMs < s.app.reconnectAtMs

instance (s : State cfg) (τ : List Event) (a : Action) : Decidable (Prompt s τ a) :=
  inferInstanceAs (Decidable (s.pc = .reconnectTime true → a = .main →
    s.uptimeMs < s.app.reconnectAtMs))

/-- What `mqtt_state` says about the helper, and which bits can be live. -/
structure Follows (s : State cfg) : Prop where
  idle : s.app.mqttState = .idle → s.pc ≠ .connectStarted → s.helper = .down
  live : s.disconnectedLive → s.helper = .down
  /-- an idle application that has not just become idle has no bit left over -/
  clean : s.app.mqttState = .idle → s.pc.early ∨ s.pc = .reconnect false ∨
    s.pc = .reconnectTime false ∨ s.pc = .connect → s.events.mqttDisconnected = false
  connecting : s.helper = .connecting →
    ¬s.connectedLive ∧ (s.app.mqttState = .connecting ∨ s.pc = .connectStarted)
  connected : s.connectedLive → s.app.mqttState = .connecting ∨ s.pc = .connectStarted
  once : s.events.mqttConnected →
    s.pc.unseen.mqttConnected = false ∧ s.pc.unseen.mqttDisconnected = false
  posting : (∃ e, s.pc = .postDisconnected e) → s.helper = .down

attribute [local grind cases eager] Follows

/-- The way to `aitsm_mqtt_connect` goes through the time check. -/
theorem due_of_connect {s s' : State cfg} {es : List Event} {a : Action} {r : Bool}
    (h : step s a = some (s', es)) (hpc : s.pc = .reconnectTime r) (hpc' : s'.pc = .connect) :
    a = .main ∧ s.app.reconnectAtMs ≤ s.uptimeMs := by
  cases a with
  | main =>
    simp only [step, mainStep, hpc] at h
    split at h
    · exact ⟨rfl, ‹_›⟩
    · obtain ⟨rfl, -⟩ := Prod.mk.inj (Option.some.inj h)
      cases hpc'
  | _ =>
    grind -ring -linarith -order [step, mainTime, mainConnect, mainMessageId, mainPublish,
      onConnack, onDisconnect, onPuback, measure]

section

variable {s s' : State cfg} {es : List Event} (hc : Control s) (hf : Follows s)
  (hm : Move s s' es)
include hc hf hm

theorem Follows.move_clean (hp : ∀ r, s.pc = .reconnectTime r → s'.pc = .connect → r = false) :
    s'.app.mqttState = .idle → s'.pc.early ∨ s'.pc = .reconnect false ∨
      s'.pc = .reconnectTime false ∨ s'.pc = .connect → s'.events.mqttDisconnected = false := by
  cases hm <;> grind -ring -linarith -order [publishNext_cases]

theorem Follows.move_connecting : s'.helper = .connecting →
    ¬s'.connectedLive ∧ (s'.app.mqttState = .connecting ∨ s'.pc = .connectStarted) := by
  cases hm <;> grind -ring -linarith -order [publishNext_cases]

theorem Follows.move_posting : (∃ e, s'.pc = .postDisconnected e) → s'.helper = .down := by
  cases hm with
  | noDisconnect events hpc hh =>
    intro _
    rcases hs : s.helper with _ | _ | _
    · rfl
    · -- a helper that connects belongs to an application that connects
      have hclosing := hc.closing (by rw [hpc]; rfl)
      rcases (hf.connecting hs).2 with h | h
      · rw [hclosing] at h
        cases h
      · rw [hpc] at h
        cases h
    · exact absurd hs hh
  | _ => grind -ring -linarith -order [publishNext_cases]

theorem Follows.move (hp : ∀ r, s.pc = .reconnectTime r → s'.pc = .connect → r = false) :
    Follows s' := by
  refine ⟨?_, ?_, hf.move_clean hc hm hp, hf.move_connecting hc hm, ?_, ?_,
    hf.move_posting hc hm⟩ <;>
    cases hm <;> grind -ring -linarith -order [publishNext_cases]

end

theorem Follows.of_run {s : State cfg} {τ : List Event} (hr : (firmware cfg).Run Prompt s τ) :
    Follows s := by
  refine hr.invariant_with (J := fun s _ => Control s) (I := fun s _ => Follows s) Control.of_run
    ?_ ?_
  · exact ⟨fun _ _ => rfl, fun _ => rfl, fun _ _ => rfl, nofun, fun h => by cases h <;> trivial,
      nofun, fun _ => rfl⟩
  · intro s τ a s' es hc hf hok hs
    refine hf.move hc (step_cases hs) fun r hpc hpc' => ?_
    obtain ⟨rfl, hdue⟩ := due_of_connect hs hpc hpc'
    cases r with
    | false => rfl
    | true => exact absurd hdue (not_le.mpr (hok hpc rfl))

/-! ## Agreement -/

/-- The head of an iteration, the sleep, and the call of `aitsm_mqtt_connect`. -/
def Pc.observed : Pc → Bool
  | .head | .sleeping _ | .connect => true
  | _ => false

/-- **The application state and the helper agree.** In every run a connection
that ended is noticed, `awaiting_puback` means connected, and a connected
application that waits for nothing has no pending message id, so that
`aitsm_mqtt_publish` never returns -EBUSY. In every run in which a reconnect
delay is not over within the call that scheduled it, an idle application has a
helper that is down, so that no connection attempt is refused because of an old
connection, and every CONNECTED finds the application connecting. -/
theorem app_agrees_with_helper {s : State cfg} {τ : List Event}
    (hr : (firmware cfg).Run anyStep s τ) :
    (s.app.mqttState ≠ .idle → s.helper = .down → s.disconnectedLive) ∧
    (s.app.awaitingPuback → s.app.mqttState = .connected) ∧
    (s.pc.observed ∨ (∃ p, s.pc = .publish p) → s.app.mqttState = .connected →
      s.app.awaitingPuback = false → s.pendingMessageId = 0) ∧
    (∀ p id, s.pc = .compareAndSwap p id → s.pendingMessageId = 0) ∧
    ((firmware cfg).Run Prompt s τ →
      (s.pc.observed → s.app.mqttState = .idle → s.helper = .down) ∧
      ∀ events, s.pc = .update events → events.mqttConnected →
        s.app.mqttState = .connecting) := by
  have hc := Control.of_run hr
  have hb := Bits.of_run hr
  refine ⟨(Ends.of_run hr).ended, hc.awaiting, fun hpc hstate ha => ?_, fun p id hpc => ?_,
    fun hr' => ⟨fun hpc hidle => ?_, fun events hpc he => ?_⟩⟩
  · by_contra hne
    rcases hb.waiting hne with h | ⟨-, h | h⟩
    · rw [hstate] at h
      cases h
    · rw [ha] at h
      cases h
    · rcases hpc with hpc | ⟨p, hpc⟩
      · cases hpc' : s.pc <;> simp_all [Pc.observed, Pc.owner]
      · rw [hpc] at h
        cases h
  · have hpub := hc.publishing (by rw [hpc]; rfl)
    by_contra hne
    rcases hb.waiting hne with h | ⟨-, h | h⟩
    · rw [hpub.1] at h
      cases h
    · rw [hpub.2] at h
      cases h
    · rw [hpc] at h
      cases h
  · refine (Follows.of_run hr').idle hidle fun h => ?_
    rw [h] at hpc
    cases hpc
  · have hlive : s.connectedLive := .inr (by rw [hpc]; exact he)
    refine ((Follows.of_run hr').connected hlive).resolve_right fun h => ?_
    rw [hpc] at h
    cases h

/-- A schedule in which the connection ends while the NBIRTH is not acknowledged, and the loop
comes back to its head. -/
def lostAwaiting : List Action :=
  List.flatten
    [[.network true], statements 8, [.mainConnect false], statements 2, [.onConnack],
      statements 8, [.mainTime 0, .main, .mainMessageId 1], statements 2,
      [.mainPublish false, .onDisconnect], statements 9]

theorem lostAwaiting_replays :
    ((firmware singleConfig).replay Prompt (firmware singleConfig).start []
      lostAwaiting).isSome := by
  decide +kernel

theorem app_agrees_with_helper_lostAwaiting :
    ∃ s τ, (firmware singleConfig).Run Prompt s τ ∧ s.pc = .head ∧ s.app.mqttState = .idle ∧
      s.helper = .down := by
  have hr := System.Run.of_isSome lostAwaiting_replays
  have hidle := ((app_agrees_with_helper (hr.mono fun _ _ _ _ => trivial)).2.2.2.2 hr).1
  exact ⟨_, _, hr, by decide +kernel, by decide +kernel,
    hidle (by decide +kernel) (by decide +kernel)⟩

/-- A schedule in which the NBIRTH is not acknowledged, the connection ends, the timeout posts a
second DISCONNECTED, and the reconnect delay is over before the same call asks for it. -/
def staleDisconnected : List Action :=
  List.flatten
    [[.network true], statements 8, [.mainConnect false], statements 2, [.onConnack],
      statements 8, [.mainTime 0, .main, .mainMessageId 1], statements 2,
      [.mainPublish false, .tick 120000, .onDisconnect], statements 9,
      [.tick 5000, .main, .mainConnect false], statements 11]

theorem staleDisconnected_replays :
    ((firmware singleConfig).replay anyStep (firmware singleConfig).start []
      staleDisconnected).isSome := by
  decide +kernel

/-- With that schedule the application goes idle although the helper is connecting. -/
theorem idle_while_connecting :
    ¬∀ s τ, (firmware singleConfig).Run anyStep s τ → s.pc.observed →
      s.app.mqttState = .idle → s.helper = .down := by
  intro h
  have := h _ _ (.of_isSome staleDisconnected_replays)
  revert this
  decide +kernel

end Aitsm.Simple
