import Aitsm.Simple.BdSeq
import Aitsm.Simple.Deadline
import Aitsm.Simple.Helper

/-!
# The loop sleeps when there is nothing to do

Everything that another thread does is announced by a bit, and the loop looks at the
bits when it goes to sleep. So a loop that sleeps with no bit set has handled all that
has happened (`Noticed`): the queue is empty, the deadline is the one `next_wakeup` would
give now, and what `mqtt_state` waits for is still to come (`nothing_slept_through`).
-/

namespace Aitsm.Simple

open Library Library.Wire
open Library.System (anyStep)

variable {cfg : Config}

attribute [local grind] Pc.early Pc.late Pc.starting Pc.closing Pc.publishing Pc.unseen
attribute [local grind] Pc.unseenPuback Pc.owner
attribute [local grind] State.disconnectedLive State.connectedLive
attribute [local grind] handlePuback updateConnection scheduleReconnect collectMeasurement
  Events.any nextWakeup
attribute [local grind cases eager] Control Ends

/-! ## Nothing is slept through -/

/-- What has happened is handled, or a bit tells of it. -/
structure Noticed (s : State cfg) : Prop where
  deadline : ∀ d, s.pc = .sleeping d →
    s.events.network ∨ d = nextWakeup s.app s.networkConnected
  queue : s.measurementQueue = [] ∨ s.measuring ∨ s.events.measurement ∨ ∃ e, s.pc = .collect e
  connecting : s.app.mqttState = .connecting →
    s.helper = .connecting ∨ s.connectedLive ∨ s.disconnectedLive
  started : s.pc = .connectStarted →
    s.helper = .connecting ∨ s.events.mqttConnected ∨ s.events.mqttDisconnected
  /-- a connection that was announced is there, or its end is announced, too -/
  announced : s.events.mqttConnected → s.helper = .up ∨ s.events.mqttDisconnected
  unseen : s.pc.unseen.mqttConnected → s.helper = .up ∨ s.disconnectedLive
  established : s.app.mqttState = .connected ∨ s.app.mqttState = .disconnecting →
    s.helper = .up ∨ s.disconnectedLive
  owner : ∀ id, s.pc.owner = some id →
    s.pendingMessageId = id ∨ s.events.mqttPuback ≠ [] ∨ s.events.mqttDisconnected
  awaiting : s.app.awaitingPuback → s.pendingMessageId ≠ 0 ∨ s.events.mqttPuback ≠ [] ∨
    s.pc.unseenPuback ≠ [] ∨ s.disconnectedLive

attribute [local grind cases eager] Noticed

namespace Noticed

variable {s s' : State cfg} {es : List Event}

section

variable (hn : Noticed s) (hm : Move s s' es)
include hn hm

theorem move_announced : s'.events.mqttConnected →
    s'.helper = .up ∨ s'.events.mqttDisconnected := by
  cases hm <;> grind -ring -linarith -order [publishNext_cases]

theorem move_unseen : s'.pc.unseen.mqttConnected → s'.helper = .up ∨ s'.disconnectedLive := by
  cases hm <;> grind -ring -linarith -order [publishNext_cases]

variable (hc : Control s)
include hc

theorem move_deadline : ∀ d, s'.pc = .sleeping d →
    s'.events.network ∨ d = nextWakeup s'.app s'.networkConnected := by
  cases hm <;> grind -ring -linarith -order [publishNext_cases]

theorem move_queue : s'.measurementQueue = [] ∨ s'.measuring ∨ s'.events.measurement ∨
    ∃ e, s'.pc = .collect e := by
  cases hm <;> grind -ring -linarith -order [publishNext_cases]

theorem move_connecting : s'.app.mqttState = .connecting →
    s'.helper = .connecting ∨ s'.connectedLive ∨ s'.disconnectedLive := by
  cases hm <;> grind -ring -linarith -order [publishNext_cases]

theorem move_started : s'.pc = .connectStarted →
    s'.helper = .connecting ∨ s'.events.mqttConnected ∨ s'.events.mqttDisconnected := by
  cases hm <;> grind -ring -linarith -order [publishNext_cases]

theorem move_established : s'.app.mqttState = .connected ∨ s'.app.mqttState = .disconnecting →
    s'.helper = .up ∨ s'.disconnectedLive := by
  cases hm <;> grind -ring -linarith -order [publishNext_cases]

theorem move_owner : ∀ id, s'.pc.owner = some id →
    s'.pendingMessageId = id ∨ s'.events.mqttPuback ≠ [] ∨ s'.events.mqttDisconnected := by
  cases hm <;> grind -ring -linarith -order [publishNext_cases, List.append_eq_nil_iff]

theorem move_awaiting : s'.app.awaitingPuback → s'.pendingMessageId ≠ 0 ∨
    s'.events.mqttPuback ≠ [] ∨ s'.pc.unseenPuback ≠ [] ∨ s'.disconnectedLive := by
  cases hm with
  | accepted p id hpc =>
    -- the id is still the message's own, or a callback took it and posted its bit
    intro _
    have hid := hc.chosen id (by rw [hpc]; rfl)
    rcases hn.owner id (by rw [hpc]; rfl) with h | h | h
    · exact .inl (h ▸ hid)
    · exact .inr (.inl h)
    · exact .inr (.inr (.inr (.inl h)))
  | _ => grind -ring -linarith -order [publishNext_cases, List.append_eq_nil_iff]

theorem move : Noticed s' :=
  { deadline := move_deadline hn hm hc
    queue := move_queue hn hm hc
    connecting := move_connecting hn hm hc
    started := move_started hn hm hc
    announced := move_announced hn hm
    unseen := move_unseen hn hm
    established := move_established hn hm hc
    owner := move_owner hn hm hc
    awaiting := move_awaiting hn hm hc }

end

theorem start : Noticed (firmware cfg).start := by
  constructor <;> simp [firmware, Pc.unseen, Pc.owner]

theorem of_run {ok : State cfg → List Event → Action → Prop} {τ : List Event}
    (hr : (firmware cfg).Run ok s τ) : Noticed s :=
  hr.invariant_with (J := fun s _ => Control s) (I := fun s _ => Noticed s) Control.of_run start
    fun _ _ _ _ _ hc hn _ hs => hn.move (step_cases hs) hc

end Noticed

/-- What `mqtt_state` waits for has not happened yet. -/
def State.outstanding (s : State cfg) (deadline : Option ℕ) : Prop :=
  match s.app.mqttState with
  | .idle => s.networkConnected → deadline = some s.app.reconnectAtMs
  | .connecting => s.helper = .connecting
  | .connected => s.helper = .up ∧
    (s.app.awaitingPuback → deadline = some s.app.pubackDeadlineMs ∧ s.pendingMessageId ≠ 0)
  | .disconnecting => s.helper = .up

/-- **No wake-up is lost.** In every run, whenever the loop sleeps and no bit is set:
every measurement in the queue is about to be announced, the loop sleeps until the
time that `next_wakeup` would give now, and the next step is up to the network, the
broker or the clock. -/
theorem nothing_slept_through {s : State cfg} {τ : List Event}
    (hr : (firmware cfg).Run anyStep s τ) {d : Option ℕ} (hpc : s.pc = .sleeping d)
    (hquiet : s.events.any = false) :
    (s.measurementQueue = [] ∨ s.measuring) ∧ d = nextWakeup s.app s.networkConnected ∧
      s.outstanding d := by
  have hc := Control.of_run hr
  have hn := Noticed.of_run hr
  simp only [Events.any, Bool.or_eq_false_iff, Bool.not_eq_false', List.isEmpty_iff] at hquiet
  obtain ⟨⟨⟨⟨hmeasurement, hnetwork⟩, hconnected⟩, hdisconnected⟩, hpuback⟩ := hquiet
  have hlive : ¬s.connectedLive ∧ ¬s.disconnectedLive := by
    simp [State.connectedLive, State.disconnectedLive, hconnected, hdisconnected, hpc, Pc.unseen]
  have hd : d = nextWakeup s.app s.networkConnected := by
    rcases hn.deadline d hpc with h | h
    · rw [hnetwork] at h
      cases h
    · exact h
  refine ⟨?_, hd, ?_⟩
  · rcases hn.queue with h | h | h | ⟨e, h⟩
    · exact .inl h
    · exact .inr h
    · rw [hmeasurement] at h
      cases h
    · rw [hpc] at h
      cases h
  rw [State.outstanding]
  cases hstate : s.app.mqttState with
  | idle =>
    intro hnet
    have hawaiting : s.app.awaitingPuback = false := by
      by_contra h
      have := hc.awaiting (by simpa using h)
      rw [hstate] at this
      cases this
    simp [hd, nextWakeup, hawaiting, hstate, hnet]
  | connecting =>
    rcases hn.connecting hstate with h | h | h
    · exact h
    · exact absurd h hlive.1
    · exact absurd h hlive.2
  | connected =>
    refine ⟨(hn.established (.inl hstate)).resolve_right hlive.2, fun hawaiting => ⟨?_, ?_⟩⟩
    · simp [hd, nextWakeup, hawaiting]
    · rcases hn.awaiting hawaiting with h | h | h | h
      · exact h
      · exact absurd hpuback h
      · rw [hpc] at h
        exact absurd rfl h
      · exact absurd h hlive.2
  | disconnecting => exact (hn.established (.inr hstate)).resolve_right hlive.2

/-- A loop that sleeps until a PUBACK waits for one that can still come. -/
theorem nothing_slept_through_sleepsForPuback :
    ∃ s τ, (firmware singleConfig).Run anyStep s τ ∧ s.app.awaitingPuback ∧
      s.outstanding (some 120000) :=
  ⟨_, _, .of_isSome sleepsForPuback_replays, by decide +kernel,
    (nothing_slept_through (d := some 120000) (.of_isSome sleepsForPuback_replays)
      (by decide +kernel) (by decide +kernel)).2.2⟩

end Aitsm.Simple
