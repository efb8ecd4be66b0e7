import Aitsm.Simple.Delivery

/-!
# Waiting for the broker

Two answers of the broker move the loop on: the CONNACK in MQTT_CONNECTING and
the PUBACK while `awaiting_puback`. `next_wakeup` bounds the wait for the second
one, and the iteration that runs at the deadline closes the connection. For the
first one it returns `K_FOREVER`: only a callback of the helper ends that wait.
-/

namespace Aitsm.Simple

open Library Library.Wire
open Library.System (anyStep)

variable {cfg : Config}

/-- The next progress is an answer of the broker. -/
def App.waitsForBroker (app : App cfg) : Prop := app.mqttState = .connecting ∨ app.awaitingPuback

/-- The rest of an iteration of the loop, up to its head, with no other thread
in between. -/
def iteration : ℕ → State cfg → Option (State cfg)
  | 0, _ => none
  | fuel + 1, s =>
    match mainStep s with
    | none => none
    | some (s', _) => if s'.pc = .head then some s' else iteration fuel s'

theorem iteration_step {s s' r : State cfg} {es : List Event} {n : ℕ}
    (h : mainStep s = some (s', es)) (hpc : s'.pc ≠ .head) (hr : iteration n s' = some r) :
    iteration (n + 1) s = some r := by
  rw [iteration, h]
  dsimp only
  rw [if_neg hpc, hr]

/-- The loop has given up the connection: it asked the helper to close it, or will find
DISCONNECTED. -/
structure Abandoned (s : State cfg) : Prop where
  head : s.pc = .head
  awaiting : s.app.awaitingPuback = false
  closing : s.app.mqttState = .disconnecting
  ends : s.helper = .up ∨ s.events.mqttDisconnected

/-- At the deadline of `next_wakeup`, an iteration without a callback gives the
connection up. -/
def State.abandonsInTime (s : State cfg) : Prop :=
  ∃ t, s.pc = .sleeping (some t) ∧ ∀ ms, t ≤ s.uptimeMs + ms →
    ∃ n s', iteration n { s with uptimeMs := s.uptimeMs + ms } = some s' ∧ Abandoned s'

/-! ## The iteration at the deadline -/

theorem collectMeasurement_eq (app : App cfg) (m : Measurement) :
    ∃ batch skipped, (collectMeasurement app m).1 =
      { app with batch := batch, skippedMeasurements := skipped } := by
  unfold collectMeasurement
  split
  · exact ⟨_, app.skippedMeasurements, rfl⟩
  · exact ⟨app.batch, _, rfl⟩

/-- From `check_puback_timeout` on. -/
theorem abandons_from_timeout {s : State cfg} (hpc : s.pc = .pubackTimeout {})
    (hawaiting : s.app.awaitingPuback) (hdue : s.app.pubackDeadlineMs ≤ s.uptimeMs) :
    ∃ n s', iteration n s = some s' ∧ Abandoned s' := by
  by_cases hup : s.helper = .up
  · refine ⟨5, { s with
      pc := .head
      app := { s.app with awaitingPuback := false, mqttState := .disconnecting } }, ?_, ?_⟩
    · simp [iteration, mainStep, hpc, hawaiting, not_lt.mpr hdue, hup, updateConnection,
        publishNext]
    · exact ⟨rfl, rfl, rfl, .inl hup⟩
  · refine ⟨6, { s with
      pc := .head
      app := { s.app with awaitingPuback := false, mqttState := .disconnecting }
      events := { s.events with mqttDisconnected := true } }, ?_, ?_⟩
    · simp [iteration, mainStep, hpc, hawaiting, not_lt.mpr hdue, hup, updateConnection,
        publishNext]
    · exact ⟨rfl, rfl, rfl, .inr rfl⟩

/-- From `collect_measurements` on, by induction on what is in the queue. -/
theorem abandons_from_collect (queue : List Measurement) :
    ∀ {s : State cfg}, s.pc = .collect {} → s.measurementQueue = queue → s.app.awaitingPuback →
      s.app.pubackDeadlineMs ≤ s.uptimeMs → ∃ n s', iteration n s = some s' ∧ Abandoned s' := by
  induction queue with
  | nil =>
    intro s hpc hqueue hawaiting hdue
    obtain ⟨n, s', hs', hdone⟩ := abandons_from_timeout (s := { s with pc := .pubackTimeout {} })
      rfl hawaiting hdue
    have hcollected : mainStep s = some ({ s with pc := .puback {} }, []) := by
      simp [mainStep, hpc, hqueue]
    have hpuback : mainStep { s with pc := .puback {} } =
        some ({ s with pc := .pubackTimeout {} }, []) := by
      simp [mainStep]
    exact ⟨n + 2, s', iteration_step hcollected (by simp) (iteration_step hpuback (by simp) hs'),
      hdone⟩
  | cons m rest ih =>
    intro s hpc hqueue hawaiting hdue
    obtain ⟨batch, skipped, hcollect⟩ := collectMeasurement_eq s.app m
    obtain ⟨n, s', hs', hdone⟩ := ih
      (s := { s with app := (collectMeasurement s.app m).1, measurementQueue := rest }) hpc rfl
      (by rw [hcollect]; exact hawaiting) (by rw [hcollect]; exact hdue)
    have hstep : mainStep s =
        some ({ s with app := (collectMeasurement s.app m).1, measurementQueue := rest },
          (collectMeasurement s.app m).2) := by
      simp [mainStep, hpc, hqueue]
    refine ⟨n + 1, s', iteration_step hstep ?_ hs', hdone⟩
    rw [hpc]
    nofun

/-! ## What the loop sleeps for -/

/-- What `next_wakeup` said still holds while the loop sleeps. -/
structure Sleeps (s : State cfg) : Prop where
  bounded : ∀ d, s.pc = .sleeping d → s.app.awaitingPuback → d = some s.app.pubackDeadlineMs
  forever : ∀ d, s.pc = .sleeping d → s.app.awaitingPuback = false → s.app.mqttState ≠ .idle →
    d = none

theorem Sleeps.move {s s' : State cfg} {es : List Event} (h : Sleeps s) (hm : Move s s' es) :
    Sleeps s' := by
  obtain ⟨hbounded, hforever⟩ := h
  constructor <;> cases hm <;> grind -ring -linarith -order [nextWakeup, publishNext_cases]

theorem Sleeps.of_run {ok : State cfg → List Event → Action → Prop} {s : State cfg}
    {τ : List Event} (hr : (firmware cfg).Run ok s τ) : Sleeps s :=
  hr.invariant_state (I := Sleeps) (by constructor <;> simp [firmware]) fun _ _ _ _ _ h _ hs => h.move (step_cases hs)

/-- **The wait for the broker is bounded exactly when it is for a PUBACK.** In
every reachable state in which the loop sleeps and the next progress is an
answer of the broker: `next_wakeup` returned a deadline at which the connection
is given up, if and only if the loop is not waiting for the CONNACK. -/
theorem abandons_in_time_iff {s : State cfg} {τ : List Event}
    (hr : (firmware cfg).Run anyStep s τ) {d : Option ℕ} (hpc : s.pc = .sleeping d)
    (hquiet : s.events.any = false) (hwaits : s.app.waitsForBroker) :
    s.abandonsInTime ↔ s.app.mqttState ≠ .connecting := by
  have hsleeps := Sleeps.of_run hr
  constructor
  · rintro ⟨t, ht, -⟩ hconnecting
    have hawaiting : s.app.awaitingPuback = false := by
      by_contra h
      have := (Control.of_run hr).awaiting (by simpa using h)
      rw [hconnecting] at this
      cases this
    have := hsleeps.forever _ ht hawaiting (by simp [hconnecting])
    cases this
  · intro hconnecting
    have hawaiting : s.app.awaitingPuback := hwaits.resolve_left hconnecting
    obtain rfl := hsleeps.bounded d hpc hawaiting
    refine ⟨_, hpc, fun ms hms => ?_⟩
    obtain ⟨n, s', hs', hdone⟩ := abandons_from_collect s.measurementQueue
      (s := { s with pc := .collect {}, uptimeMs := s.uptimeMs + ms }) rfl rfl hawaiting hms
    have hwake : mainStep { s with uptimeMs := s.uptimeMs + ms } =
        some ({ s with pc := .collect {}, uptimeMs := s.uptimeMs + ms }, []) := by
      simp [mainStep, hpc, hquiet, hms]
    exact ⟨n + 1, s', iteration_step hwake (by simp) hs', hdone⟩

/-- The loop sleeps until the PUBACK of the NBIRTH. -/
def sleepsForPuback : List Action :=
  List.flatten
    [[.network true], statements 8, [.mainConnect false], statements 2, [.onConnack],
      statements 8, [.mainTime 0, .main, .mainMessageId 1], statements 2,
      [.mainPublish false, .main]]

theorem sleepsForPuback_replays :
    ((firmware singleConfig).replay anyStep (firmware singleConfig).start []
      sleepsForPuback).isSome := by
  decide +kernel

theorem abandons_in_time_iff_sleepsForPuback :
    ∃ s τ, (firmware singleConfig).Run anyStep s τ ∧ s.app.awaitingPuback ∧ s.abandonsInTime :=
  ⟨_, _, .of_isSome sleepsForPuback_replays, by decide +kernel,
    (abandons_in_time_iff (d := some 120000) (.of_isSome sleepsForPuback_replays)
      (by decide +kernel) (by decide +kernel) (.inr (by decide +kernel))).mpr (by decide +kernel)⟩

/-- The loop sleeps until the CONNACK of the first attempt. -/
def sleepsForConnack : List Action :=
  List.flatten [[.network true], statements 8, [.mainConnect false], statements 3]

theorem sleepsForConnack_replays :
    ((firmware singleConfig).replay anyStep (firmware singleConfig).start []
      sleepsForConnack).isSome := by
  decide +kernel

/-- **The wait for the CONNACK has no deadline.** -/
theorem connack_without_deadline :
    ¬∀ s τ, (firmware singleConfig).Run anyStep s τ → (∃ d, s.pc = .sleeping d) →
      s.events.any = false → s.app.waitsForBroker → s.abandonsInTime := by
  intro h
  obtain ⟨t, ht, -⟩ := h _ _ (.of_isSome sleepsForConnack_replays) ⟨none, by decide +kernel⟩
    (by decide +kernel) (.inl (by decide +kernel))
  have hforever : (((firmware singleConfig).replay anyStep (firmware singleConfig).start []
      sleepsForConnack).get sleepsForConnack_replays).1.pc = .sleeping none := by
    decide +kernel
  rw [hforever] at ht
  cases ht

end Aitsm.Simple
