import Aitsm.Library.Backoff
import Aitsm.Simple.BdSeq
import Aitsm.Simple.Helper

/-!
# One backoff step per ended attempt

`schedule_reconnect` has two callers: `update_connection` after a DISCONNECTED,
and after a refused `aitsm_mqtt_connect`. Each ends one attempt, so that calls
of `aitsm_mqtt_connect` and of `schedule_reconnect` alternate (`Backs.balance`),
and the delay is the one of the schedules since the last CONNECTED
(`Backs.delay`). A DISCONNECTED that was posted twice is harmless in the runs of
`Prompt`, as it is consumed while `mqtt_state` is idle.
-/

namespace Aitsm.Simple

open Library Library.Wire
open Library.System (EachEvent anyStep reports)

variable {cfg : Config}

namespace LoopStep

/-- The call of `aitsm_mqtt_connect`. -/
def connects (x : LoopStep cfg) : Bool :=
  match x.action, x.before.pc with
  | .mainConnect _, .connect => true
  | _, _ => false

/-- It is refused. -/
def refused (x : LoopStep cfg) : Bool :=
  match x.action, x.before.pc with
  | .mainConnect true, .connect => true
  | _, _ => false

/-- A connection attempt or a session ends: the call is refused, or `mqtt_helper` reports the end
of what it accepted. -/
def ends (x : LoopStep cfg) : Bool :=
  x.refused || x.before.helper ≠ .down && x.after.helper = .down

/-- `schedule_reconnect` runs. -/
def schedules (x : LoopStep cfg) : Bool := x.loses || x.refused

/-- The loop wakes up. -/
def wakes (x : LoopStep cfg) : Bool :=
  match x.action, x.before.pc with
  | .main, .sleeping _ => x.after.pc ≠ x.before.pc
  | _, _ => false

/-- `update_connection` asks for the network, and finds it registered. -/
def findsNetwork (x : LoopStep cfg) : Bool :=
  match x.action, x.before.pc with
  | .main, .reconnect _ => x.before.networkConnected && x.before.app.mqttState = .idle
  | _, _ => false

end LoopStep

/-- The schedules since the last CONNECTED the loop acted on. -/
def schedulesSinceConnected (ρ : List (LoopStep cfg)) : ℕ :=
  countSince LoopStep.establishes LoopStep.schedules ρ

/-- There is an attempt or a session that has not been given up. -/
def State.engaged (s : State cfg) : Bool := s.app.mqttState ≠ .idle || s.pc = .connectStarted

attribute [local grind] Pc.starting Pc.closing Pc.early Pc.unseen collectMeasurement handlePuback
  State.engaged
attribute [local grind cases eager] Control

/-- One step: the call of `update_connection`, the call of `aitsm_mqtt_connect`,
or one that leaves the backoff alone. -/
theorem step_backoff {s s' : State cfg} {es : List Event} {a : Action} (hc : Control s)
    (h : step s a = some (s', es)) :
    (∃ events, LoopStep.updates ⟨s, a, s', es⟩ = some events ∧ s.pc = .update events ∧
      (∃ r, s'.pc = .reconnect r) ∧ s'.app = (updateConnection s.uptimeMs events s.app).1 ∧
      LoopStep.connects ⟨s, a, s', es⟩ = false ∧ LoopStep.refused ⟨s, a, s', es⟩ = false) ∨
    (LoopStep.updates ⟨s, a, s', es⟩ = none ∧ LoopStep.connects ⟨s, a, s', es⟩ ∧
      s.pc = .connect ∧ s.app.mqttState = .idle ∧
      (LoopStep.refused ⟨s, a, s', es⟩ ∧ s'.pc = .publishNext ∧
          s'.app = scheduleReconnect s.uptimeMs s.app ∨
        LoopStep.refused ⟨s, a, s', es⟩ = false ∧ s'.pc = .connectStarted ∧ s'.app = s.app)) ∨
    LoopStep.updates ⟨s, a, s', es⟩ = none ∧ LoopStep.connects ⟨s, a, s', es⟩ = false ∧
      LoopStep.refused ⟨s, a, s', es⟩ = false ∧
      s'.app.reconnectDelaySeconds = s.app.reconnectDelaySeconds ∧
      s'.app.reconnectAtMs = s.app.reconnectAtMs ∧ s'.engaged = s.engaged := by
  by_cases hu : a = .main ∧ ∃ events, s.pc = .update events
  · obtain ⟨rfl, events, hpc⟩ := hu
    simp only [step, mainStep, hpc] at h
    obtain ⟨rfl, -⟩ := Prod.mk.inj (Option.some.inj h)
    exact .inl ⟨events, by simp [LoopStep.updates, hpc], hpc, ⟨_, rfl⟩, rfl, rfl, rfl⟩
  by_cases hcall : (∃ failed, a = .mainConnect failed) ∧ s.pc = .connect
  · obtain ⟨⟨failed, rfl⟩, hpc⟩ := hcall
    have hidle := hc.starting (by rw [hpc]; rfl)
    refine .inr (.inl ⟨rfl, by simp [LoopStep.connects, hpc], hpc, hidle, ?_⟩)
    simp only [step, mainConnect, hpc] at h
    cases failed
    · right
      simp only [Bool.false_eq_true, if_false] at h
      split at h
      · obtain ⟨rfl, -⟩ := Prod.mk.inj (Option.some.inj h)
        exact ⟨rfl, rfl, rfl⟩
      · cases h
    · left
      obtain ⟨rfl, -⟩ := Prod.mk.inj (Option.some.inj h)
      exact ⟨by simp [LoopStep.refused, hpc], rfl, rfl⟩
  refine .inr (.inr ⟨?_, ?_, ?_, ?_⟩)
  · unfold LoopStep.updates
    split
    · rename_i events ha hpc
      exact absurd ⟨ha, events, hpc⟩ hu
    · rfl
  · unfold LoopStep.connects
    split
    · rename_i failed ha hpc
      exact absurd ⟨⟨failed, ha⟩, hpc⟩ hcall
    · rfl
  · unfold LoopStep.refused
    split
    · rename_i ha hpc
      exact absurd ⟨⟨true, ha⟩, hpc⟩ hcall
    · rfl
  cases a with
  | main =>
    cases mainStep_cases h with
    | update events hpc => exact absurd ⟨rfl, events, hpc⟩ hu
    | connectFailed hpc => simp [step, mainStep, hpc] at h
    | connect hpc => simp [step, mainStep, hpc] at h
    | _ => grind -ring -linarith -order [publishNext_cases]
  | mainConnect failed =>
    simp only [step, mainConnect] at h
    split at h
    · exact absurd ⟨⟨failed, rfl⟩, ‹_›⟩ hcall
    · cases h
  | _ =>
    grind -ring -linarith -order [step, mainTime, mainMessageId, mainPublish,
      onConnack, onDisconnect, onPuback, measure]

/-- What `update_connection` does to the backoff. -/
theorem updateConnection_backoff (now : ℕ) (events : Events) (app : App cfg) :
    let lost := events.mqttDisconnected && app.mqttState ≠ .idle
    let delay := if events.mqttConnected && app.mqttState = .connecting then reconnectInitialSeconds
      else app.reconnectDelaySeconds
    (updateConnection now events app).1.reconnectDelaySeconds =
        (if lost then min (delay * 2) reconnectMaxSeconds else delay) ∧
      (updateConnection now events app).1.reconnectAtMs =
        (if lost then now + delay * 1000 else app.reconnectAtMs) ∧
      ((updateConnection now events app).1.mqttState = .idle ↔
        lost ∨ app.mqttState = .idle) := by
  unfold updateConnection scheduleReconnect
  dsimp only
  rcases hstate : app.mqttState <;> rcases hup : events.mqttConnected <;>
    rcases hdown : events.mqttDisconnected <;> simp [hstate]

/-! ## Counting -/

/-- The delay after `n` schedules. -/
def backoffDelay (n : ℕ) : ℕ := Backoff.delay reconnectInitialSeconds reconnectMaxSeconds n

theorem backoffDelay_zero : backoffDelay 0 = reconnectInitialSeconds := rfl

theorem backoffDelay_succ (n : ℕ) :
    backoffDelay (n + 1) = min (backoffDelay n * 2) reconnectMaxSeconds :=
  Backoff.delay_succ n

/-- What the variables say about the steps so far. -/
structure Backs (s : State cfg) (ρ : List (LoopStep cfg)) : Prop where
  delay : s.app.reconnectDelaySeconds = backoffDelay (schedulesSinceConnected ρ)
  balance : ρ.countP LoopStep.connects = ρ.countP LoopStep.schedules + s.engaged.toNat

theorem Backs.start : Backs (firmware cfg).start [] := ⟨rfl, rfl⟩

theorem Backs.step {s s' : State cfg} {ρ : List (LoopStep cfg)} {es : List Event} {a : Action}
    (hc : Control s) (h : Backs s ρ) (hs : step s a = some (s', es)) :
    Backs s' (ρ ++ [⟨s, a, s', es⟩]) := by
  obtain ⟨hdelay, hbalance⟩ := h
  rcases step_backoff hc hs with ⟨events, hu, hpc, ⟨r, hpc'⟩, happ, hconnects, hrefused⟩ |
    ⟨hu, hconnects, hpc, hidle, hcall⟩ | ⟨hu, hconnects, hrefused, hsame, -, hengaged⟩
  · obtain ⟨hd, -, hstate⟩ := updateConnection_backoff s.uptimeMs events s.app
    rw [← happ] at hd hstate
    have hschedules : LoopStep.schedules ⟨s, a, s', es⟩ = LoopStep.loses ⟨s, a, s', es⟩ := by
      rw [LoopStep.schedules, hrefused, Bool.or_false]
    have hloses : LoopStep.loses ⟨s, a, s', es⟩ =
        (events.mqttDisconnected && decide (s.app.mqttState ≠ .idle)) := by
      simp only [LoopStep.loses, hu]
    have hestablishes : LoopStep.establishes ⟨s, a, s', es⟩ =
        (events.mqttConnected && decide (s.app.mqttState = .connecting)) := by
      simp only [LoopStep.establishes, hu]
    constructor
    · rw [hd, schedulesSinceConnected, countSince_concat, hschedules, ← hloses, ← hestablishes,
        hdelay, ← backoffDelay_zero]
      rcases LoopStep.establishes ⟨s, a, s', es⟩ <;> rcases LoopStep.loses ⟨s, a, s', es⟩ <;>
        simp [backoffDelay_succ, schedulesSinceConnected]
    · rw [List.countP_append, List.countP_append, List.countP_singleton, List.countP_singleton,
        hconnects, hschedules, hbalance]
      have hbefore : s.engaged = decide (s.app.mqttState ≠ .idle) := by
        simp [State.engaged, hpc]
      have hafter : s'.engaged = decide (s'.app.mqttState ≠ .idle) := by
        simp [State.engaged, hpc']
      rw [hbefore, hafter, hloses]
      by_cases hidle : s.app.mqttState = .idle <;> rcases hdown : events.mqttDisconnected <;>
        simp [hidle, hdown, hstate]
  · obtain ⟨hloses, hestablishes⟩ : LoopStep.loses ⟨s, a, s', es⟩ = false ∧
        LoopStep.establishes ⟨s, a, s', es⟩ = false := by
      simp [LoopStep.loses, LoopStep.establishes, hu]
    rcases hcall with ⟨hrefused, hpc', happ⟩ | ⟨hrefused, hpc', happ⟩
    · constructor
      · rw [happ, scheduleReconnect, hdelay, ← backoffDelay_succ]
        simp [schedulesSinceConnected, LoopStep.schedules, hloses, hestablishes, hrefused]
      · simp [LoopStep.schedules, hloses, hrefused, hconnects, hbalance, State.engaged, hpc, hpc',
          happ, scheduleReconnect, hidle]
    · constructor
      · rw [happ, hdelay]
        simp [schedulesSinceConnected, LoopStep.schedules, hloses, hestablishes, hrefused]
      · simp [LoopStep.schedules, hloses, hrefused, hconnects, hbalance, State.engaged, hpc, hpc',
          hidle]
  · constructor
    · rw [hsame, hdelay, schedulesSinceConnected, schedulesSinceConnected, countSince_concat]
      simp [LoopStep.establishes, LoopStep.schedules, LoopStep.loses, hu, hrefused]
    · simpa [LoopStep.schedules, LoopStep.loses, hu, hrefused, hconnects, hengaged] using hbalance

theorem Backs.of_run {ok : State cfg → List (LoopStep cfg) → Action → Prop} {s : State cfg}
    {ρ : List (LoopStep cfg)} (hr : (firmware cfg).record.Run ok s ρ) : Backs s ρ := by
  refine hr.invariant_with (J := fun s _ => Control s) (I := fun s ρ => Backs s ρ)
    (fun hr => .of_run hr.unrecord) .start ?_
  intro s ρ a s' xs hc h _ hs
  obtain ⟨es, hstep, rfl⟩ := System.record_step hs
  exact h.step hc hstep

theorem Backs.bounds {s : State cfg} {ρ : List (LoopStep cfg)} (h : Backs s ρ) :
    5 ≤ s.app.reconnectDelaySeconds ∧ s.app.reconnectDelaySeconds ≤ 60 := by
  rw [h.delay]
  exact ⟨Backoff.le_delay (by decide) _, Backoff.delay_le _⟩

/-- What a schedule leaves behind: nothing to give up, and the time of the next attempt. -/
theorem Backs.schedule {s s' : State cfg} {ρ : List (LoopStep cfg)} {es : List Event} {a : Action}
    (hc : Control s) (h : Backs s ρ) (hs : Simple.step s a = some (s', es))
    (hx : LoopStep.schedules ⟨s, a, s', es⟩) :
    s'.engaged = false ∧
    s'.app.reconnectAtMs = s.uptimeMs +
      backoffDelay (schedulesSinceConnected (ρ ++ [⟨s, a, s', es⟩]) - 1) * 1000 := by
  have hcount : schedulesSinceConnected (ρ ++ [⟨s, a, s', es⟩]) - 1 =
      if LoopStep.establishes ⟨s, a, s', es⟩ then 0 else schedulesSinceConnected ρ := by
    rw [schedulesSinceConnected, countSince_concat, hx]
    simp [schedulesSinceConnected]
  rcases step_backoff hc hs with ⟨events, hu, -, ⟨r, hpc'⟩, happ, -, hrefused⟩ |
    ⟨hu, -, -, -, hcall⟩ | ⟨hu, -, hrefused, -⟩
  · obtain ⟨-, hat, hstate⟩ := updateConnection_backoff s.uptimeMs events s.app
    rw [← happ] at hat hstate
    have hlost : (events.mqttDisconnected && decide (s.app.mqttState ≠ .idle)) = true := by
      simpa only [LoopStep.schedules, hrefused, Bool.or_false, LoopStep.loses, hu] using hx
    have hestablishes : LoopStep.establishes ⟨s, a, s', es⟩ =
        (events.mqttConnected && decide (s.app.mqttState = .connecting)) := by
      simp only [LoopStep.establishes, hu]
    refine ⟨by simp [State.engaged, hpc', hstate.mpr (.inl hlost)], ?_⟩
    rw [hat, if_pos hlost, hcount, ← hestablishes, h.delay, ← backoffDelay_zero]
    split <;> rfl
  · have hestablishes : LoopStep.establishes ⟨s, a, s', es⟩ = false := by
      simp [LoopStep.establishes, hu]
    rcases hcall with ⟨-, hpc', happ⟩ | ⟨hrefused, -⟩
    · refine ⟨by simp [State.engaged, hpc', happ, scheduleReconnect], ?_⟩
      rw [hcount, hestablishes, happ, scheduleReconnect, h.delay]
      rfl
    · simp [LoopStep.schedules, LoopStep.loses, hu, hrefused] at hx
  · simp [LoopStep.schedules, LoopStep.loses, hu, hrefused] at hx

/-- Only a schedule sets the time. -/
theorem reconnectAt_of_not_schedules {s s' : State cfg} {es : List Event} {a : Action}
    (hc : Control s) (hs : Simple.step s a = some (s', es))
    (hx : LoopStep.schedules ⟨s, a, s', es⟩ = false) :
    s'.app.reconnectAtMs = s.app.reconnectAtMs := by
  rcases step_backoff hc hs with ⟨events, hu, -, -, happ, -, hrefused⟩ |
    ⟨hu, -, -, -, hcall⟩ | ⟨-, -, -, -, hsame, -⟩
  · obtain ⟨-, hat, -⟩ := updateConnection_backoff s.uptimeMs events s.app
    have hlost : (events.mqttDisconnected && decide (s.app.mqttState ≠ .idle)) = false := by
      simpa only [LoopStep.schedules, hrefused, Bool.or_false, LoopStep.loses, hu] using hx
    rw [happ, hat, hlost]
    rfl
  · rcases hcall with ⟨hrefused, -⟩ | ⟨-, -, happ⟩
    · simp [LoopStep.schedules, hrefused] at hx
    · rw [happ]
  · exact hsame

theorem reconnectAt_since {ok : State cfg → List (LoopStep cfg) → Action → Prop} {s : State cfg}
    {ρ : List (LoopStep cfg)} (hr : (firmware cfg).record.Run ok s ρ) (ρ₁ : List (LoopStep cfg))
    (x : LoopStep cfg) (ρ₂ : List (LoopStep cfg)) (heq : ρ = ρ₁ ++ x :: ρ₂)
    (hρ : ∀ y ∈ ρ₂, LoopStep.schedules y = false) :
    s.app.reconnectAtMs = x.after.app.reconnectAtMs := by
  refine hr.since (J := fun s => Control s) (P := fun _ => True)
    (K := fun y : LoopStep cfg => y.schedules = false)
    (I := fun x _ s => s.app.reconnectAtMs = x.after.app.reconnectAtMs)
    (fun hr => .of_run hr.unrecord) (fun _ _ _ _ => rfl) ?_ ρ₁ x ρ₂ heq trivial hρ
  intro x ρ y hc hs hy hold
  exact (reconnectAt_of_not_schedules hc hs hy).trans hold

/-! ## The next attempt -/

/-- The call of `aitsm_mqtt_connect` comes after the time was found over. -/
theorem due_of_run {ok : State cfg → List Event → Action → Prop} {s : State cfg}
    {τ : List Event} (hr : (firmware cfg).Run ok s τ) :
    s.pc = .connect → s.app.reconnectAtMs ≤ s.uptimeMs := by
  refine hr.invariant_state (I := fun s => s.pc = .connect → s.app.reconnectAtMs ≤ s.uptimeMs)
    (by simp [firmware]) ?_
  intro s τ a s' es h _ hs
  cases step_cases hs <;> grind -ring -linarith -order [publishNext_cases]

/-- The time is asked for, or the call is next. -/
def Pc.asked : Pc → Bool
  | .reconnectTime _ | .connect => true
  | _ => false

theorem findsNetwork_of_asked {s s' : State cfg} {es : List Event} {a : Action}
    (h : step s a = some (s', es)) (hpc : s'.pc.asked) :
    LoopStep.findsNetwork ⟨s, a, s', es⟩ ∨ s.pc.asked := by
  cases a with
  | main =>
    cases mainStep_cases h <;>
      grind -ring -linarith -order [Pc.asked, LoopStep.findsNetwork, publishNext_cases]
  | _ =>
    grind -ring -linarith -order [Pc.asked, step, mainTime, mainConnect, mainMessageId,
      mainPublish, onConnack, onDisconnect, onPuback, measure]

/-- The network was found registered on the way to the call, in the same call of
`update_connection`. -/
theorem network_of_run {ok : State cfg → List (LoopStep cfg) → Action → Prop} {s : State cfg}
    {ρ : List (LoopStep cfg)} (hr : (firmware cfg).record.Run ok s ρ) :
    s.pc.asked → ∃ ρ₁ z ρ₂, ρ = ρ₁ ++ z :: ρ₂ ∧ LoopStep.findsNetwork z ∧
      ∀ w ∈ ρ₂, w.before.pc.asked := by
  refine hr.invariant (I := fun s ρ => s.pc.asked → ∃ ρ₁ z ρ₂, ρ = ρ₁ ++ z :: ρ₂ ∧
    LoopStep.findsNetwork z ∧ ∀ w ∈ ρ₂, w.before.pc.asked) (fun h => absurd h Bool.false_ne_true) ?_
  intro s ρ a s' xs ih _ hs hpc
  obtain ⟨es, hstep, rfl⟩ := System.record_step hs
  rcases findsNetwork_of_asked hstep hpc with hfound | hasked
  · exact ⟨ρ, _, [], rfl, hfound, fun w hw => absurd hw List.not_mem_nil⟩
  · obtain ⟨ρ₁, z, ρ₂, rfl, hz, hρ⟩ := ih hasked
    refine ⟨ρ₁, z, ρ₂ ++ [⟨s, a, s', es⟩], by simp, hz, ?_⟩
    intro w hw
    rcases List.mem_append.mp hw with hw | hw
    · exact hρ w hw
    · rw [List.mem_singleton.mp hw]
      exact hasked

/-! ## What ends is followed by one schedule -/

/-- One step keeps the calls in step with what ended and what is still on. -/
theorem step_helper {s s' : State cfg} {es : List Event} {a : Action}
    (h : step s a = some (s', es)) :
    (LoopStep.connects ⟨s, a, s', es⟩).toNat + (decide (s.helper ≠ .down)).toNat =
      (LoopStep.ends ⟨s, a, s', es⟩).toNat + (decide (s'.helper ≠ .down)).toNat := by
  cases a with
  | main =>
    have hhelper : s'.helper = s.helper := by
      simp only [step, mainStep] at h
      grind -ring -linarith -order
    simp [LoopStep.connects, LoopStep.ends, LoopStep.refused, hhelper]
  | mainConnect failed =>
    simp only [step, mainConnect] at h
    split at h
    · rename_i hpc
      cases failed with
      | true =>
        obtain ⟨rfl, -⟩ := Prod.mk.inj (Option.some.inj h)
        simp [LoopStep.connects, LoopStep.ends, LoopStep.refused, hpc]
      | false =>
        simp only [Bool.false_eq_true, if_false] at h
        split at h
        · rename_i hdown
          obtain ⟨rfl, -⟩ := Prod.mk.inj (Option.some.inj h)
          simp [LoopStep.connects, LoopStep.ends, LoopStep.refused, hpc, hdown]
        · cases h
    · cases h
  | onConnack =>
    simp only [step, onConnack] at h
    split at h
    · rename_i hconnecting
      obtain ⟨rfl, -⟩ := Prod.mk.inj (Option.some.inj h)
      simp [LoopStep.connects, LoopStep.ends, LoopStep.refused, hconnecting]
    · cases h
  | onDisconnect =>
    simp only [step, onDisconnect] at h
    split at h
    · cases h
    · rename_i hup
      obtain ⟨rfl, -⟩ := Prod.mk.inj (Option.some.inj h)
      simp [LoopStep.connects, LoopStep.ends, LoopStep.refused, hup]
  | _ =>
    have hhelper : s'.helper = s.helper := by
      grind -ring -linarith -order [step, mainTime, mainMessageId, mainPublish, onPuback, measure]
    simp [LoopStep.connects, LoopStep.ends, LoopStep.refused, hhelper]

theorem ends_of_run {ok : State cfg → List (LoopStep cfg) → Action → Prop} {s : State cfg}
    {ρ : List (LoopStep cfg)} (hr : (firmware cfg).record.Run ok s ρ) :
    ρ.countP LoopStep.connects =
      ρ.countP LoopStep.ends + (decide (s.helper ≠ .down)).toNat := by
  refine hr.invariant (I := fun s ρ => ρ.countP LoopStep.connects =
    ρ.countP LoopStep.ends + (decide (s.helper ≠ .down)).toNat) rfl ?_
  intro s ρ a s' xs ih _ hs
  obtain ⟨es, hstep, rfl⟩ := System.record_step hs
  have hcount := step_helper hstep
  rw [List.countP_append, List.countP_append, List.countP_singleton, List.countP_singleton, ih]
  simp only [Bool.toNat, cond_eq_ite] at hcount ⊢
  omega

/-- What ended and was not given up has its bit. -/
theorem Ends.disconnectedLive {s : State cfg} (h : Ends s) (hengaged : s.engaged)
    (hdown : s.helper = .down) : s.disconnectedLive := by
  have hcases : s.app.mqttState ≠ .idle ∨ s.pc = .connectStarted := by
    simpa [State.engaged] using hengaged
  rcases hcases with hstate | hpc
  · exact h.ended hstate hdown
  · exact .inl (h.started hpc hdown)

theorem engaged_of_wakes {x : LoopStep cfg} (hx : x.wakes) (h : x.before.engaged) :
    x.before.app.mqttState ≠ .idle := by
  unfold LoopStep.wakes at hx
  split at hx
  · rename_i hpc
    simpa [State.engaged, hpc] using h
  · cases hx

/-- The loop wakes up without a connection: the bit is in its snapshot. -/
theorem unseen_of_wakes {s s' : State cfg} {es : List Event} {a : Action} (hends : Ends s)
    (hs : step s a = some (s', es)) (hx : LoopStep.wakes ⟨s, a, s', es⟩)
    (hstate : s.app.mqttState ≠ .idle) (hdown : s.helper = .down) :
    s'.pc.early ∧ s'.pc.unseen.mqttDisconnected ∧ s'.app.mqttState ≠ .idle := by
  unfold LoopStep.wakes at hx
  split at hx
  · rename_i ha hpc
    obtain rfl : a = .main := ha
    have hpc : s.pc = _ := hpc
    have hpending : s.events.mqttDisconnected := by
      refine (hends.ended hstate hdown).resolve_right fun h => ?_
      rw [hpc] at h
      cases h
    have hany : s.events.any := by simp [Events.any, hpending]
    simp only [step, mainStep, hpc, hany, if_true] at hs
    obtain ⟨rfl, -⟩ := Prod.mk.inj (Option.some.inj hs)
    exact ⟨rfl, hpending, hstate⟩
  · cases hx

/-- And stays there until `update_connection` runs. -/
theorem unseen_of_not_updates {s s' : State cfg} {es : List Event} {a : Action}
    (hs : step s a = some (s', es)) (hx : LoopStep.updates ⟨s, a, s', es⟩ = none)
    (h : s.pc.early ∧ s.pc.unseen.mqttDisconnected ∧ s.app.mqttState ≠ .idle) :
    s'.pc.early ∧ s'.pc.unseen.mqttDisconnected ∧ s'.app.mqttState ≠ .idle := by
  cases a with
  | main =>
    cases mainStep_cases hs with
    | update events hpc => simp [LoopStep.updates, hpc] at hx
    | _ => grind -ring -linarith -order
  | _ =>
    grind -ring -linarith -order [step, mainTime, mainConnect, mainMessageId, mainPublish,
      onConnack, onDisconnect, onPuback, measure]

theorem unseen_since_wake {ok : State cfg → List (LoopStep cfg) → Action → Prop} {s : State cfg}
    {ρ : List (LoopStep cfg)} (hr : (firmware cfg).record.Run ok s ρ) (ρ₁ : List (LoopStep cfg))
    (x : LoopStep cfg) (ρ₂ : List (LoopStep cfg)) (heq : ρ = ρ₁ ++ x :: ρ₂) (hx : x.wakes)
    (hstate : x.before.app.mqttState ≠ .idle) (hdown : x.before.helper = .down)
    (hρ : ∀ y ∈ ρ₂, LoopStep.updates y = none) :
    s.pc.early ∧ s.pc.unseen.mqttDisconnected ∧ s.app.mqttState ≠ .idle :=
  hr.since (J := Ends)
    (P := fun x => LoopStep.wakes x ∧ x.before.app.mqttState ≠ .idle ∧ x.before.helper = .down)
    (K := fun y : LoopStep cfg => y.updates = none)
    (I := fun _ _ s => s.pc.early ∧ s.pc.unseen.mqttDisconnected ∧ s.app.mqttState ≠ .idle)
    (fun hr => .of_run hr.unrecord)
    (fun _ hends hs hx => unseen_of_wakes hends hs hx.1 hx.2.1 hx.2.2)
    (fun _ _ _ _ hs hy h => unseen_of_not_updates hs hy h) ρ₁ x ρ₂ heq ⟨hx, hstate, hdown⟩ hρ

theorem schedules_of_unseen {y : LoopStep cfg} (hy : y.updates.isSome)
    (hunseen : y.before.pc.unseen.mqttDisconnected) (hstate : y.before.app.mqttState ≠ .idle) :
    y.schedules := by
  unfold LoopStep.updates at hy
  split at hy
  · rename_i events ha hpc
    rw [hpc] at hunseen
    have hevents : events.mqttDisconnected := hunseen
    simp [LoopStep.schedules, LoopStep.loses, LoopStep.updates, ha, hpc, hevents, hstate]
  · cases hy

/-! ## The reconnect schedule -/

/-- What is true of a call of `schedule_reconnect` after `ρ`: nothing that ended is left, and the
next attempt is put off by the delay of this one. -/
structure Schedule (ρ : List (LoopStep cfg)) (x : LoopStep cfg) : Prop where
  settled : (ρ ++ [x]).countP LoopStep.ends = (ρ ++ [x]).countP LoopStep.schedules
  idle : x.after.app.mqttState = .idle
  delay : x.after.app.reconnectAtMs = x.before.uptimeMs +
    min (5 * 2 ^ (schedulesSinceConnected (ρ ++ [x]) - 1)) 60 * 1000

/-- What is true of a call of `aitsm_mqtt_connect` after `ρ`: everything before it has ended and
was scheduled once, the delay since the last schedule is over, and the same call of
`update_connection` found the network registered. -/
structure Call (ρ : List (LoopStep cfg)) (x : LoopStep cfg) : Prop where
  settled : ρ.countP LoopStep.connects = ρ.countP LoopStep.ends ∧
    ρ.countP LoopStep.ends = ρ.countP LoopStep.schedules
  idle : x.before.app.mqttState = .idle
  due : ∀ ρ₁ w ρ₂, ρ = ρ₁ ++ w :: ρ₂ → LoopStep.schedules w →
    (∀ y ∈ ρ₂, LoopStep.connects y = false) →
    w.before.uptimeMs + min (5 * 2 ^ (schedulesSinceConnected (ρ₁ ++ [w]) - 1)) 60 * 1000 ≤
      x.before.uptimeMs
  network : ∃ ρ₁ z ρ₂, ρ = ρ₁ ++ z :: ρ₂ ∧ LoopStep.findsNetwork z ∧
    ∀ w ∈ ρ₂, w.before.pc.asked

/-- The runs in which a reconnect delay is not over within the call that scheduled it. -/
abbrev PromptRun (s : State cfg) (ρ : List (LoopStep cfg)) : Prop :=
  (firmware cfg).record.Run (fun s ρ a => Prompt s (reports ρ) a) s ρ

theorem PromptRun.ends_eq {s : State cfg} {ρ : List (LoopStep cfg)} (hr : PromptRun s ρ) :
    ρ.countP LoopStep.ends =
      ρ.countP LoopStep.schedules + (s.engaged && s.helper = .down).toNat := by
  have hf := Follows.of_run (hr.unrecord_of fun _ _ _ h => h)
  have hbalance := (Backs.of_run hr).balance
  rw [ends_of_run hr] at hbalance
  rcases hengaged : s.engaged
  · obtain ⟨hidle, hpc⟩ : s.app.mqttState = .idle ∧ s.pc ≠ .connectStarted := by
      simpa [State.engaged] using hengaged
    simpa [hengaged, hf.idle hidle hpc] using hbalance
  · by_cases hdown : s.helper = .down <;> simpa [hengaged, hdown] using hbalance

theorem PromptRun.schedule {s : State cfg} {ρ : List (LoopStep cfg)} (hr : PromptRun s ρ) :
    EachEvent (fun ρ₁ x => x.schedules → Schedule ρ₁ x) ρ := by
  rintro ρ₁ x ρ₂ rfl hx
  obtain ⟨hbefore, -, hs, hafter⟩ := hr.split rfl
  obtain ⟨hengaged, hat⟩ :=
    (Backs.of_run hbefore).schedule (.of_run hbefore.unrecord) hs hx
  refine ⟨?_, ?_, hat⟩
  · have := PromptRun.ends_eq hafter
    simpa [hengaged] using this
  · have : x.after.app.mqttState = .idle ∧ x.after.pc ≠ .connectStarted := by
      simpa [State.engaged] using hengaged
    exact this.1

/-- After a schedule and before the next call there is no other schedule. -/
theorem not_schedules_of_not_connects {s : State cfg} {ρ₁ ρ₂ : List (LoopStep cfg)}
    {w : LoopStep cfg} (hr : PromptRun s (ρ₁ ++ w :: ρ₂)) (hw : w.schedules)
    (hρ : ∀ y ∈ ρ₂, LoopStep.connects y = false) : ∀ y ∈ ρ₂, LoopStep.schedules y = false := by
  obtain ⟨hbefore, -, hs, hafter⟩ := hr.split rfl
  have hengaged := ((Backs.of_run hbefore).schedule (.of_run hbefore.unrecord) hs hw).1
  have hthen := (Backs.of_run hafter).balance
  have hnow := (Backs.of_run hr).balance
  have hconnects : ρ₂.countP LoopStep.connects = 0 :=
    List.countP_eq_zero.mpr fun y hy => by simp [hρ y hy]
  rw [hengaged] at hthen
  rw [List.append_cons] at hnow
  generalize ρ₁ ++ [w] = σ at hthen hnow
  rw [List.countP_append, List.countP_append, hconnects] at hnow
  have hschedules : ρ₂.countP LoopStep.schedules = 0 := by
    simp only [Bool.toNat_false] at hthen
    omega
  intro y hy
  simpa using List.countP_eq_zero.mp hschedules y hy

theorem PromptRun.call {s : State cfg} {ρ : List (LoopStep cfg)} (hr : PromptRun s ρ) :
    EachEvent (fun ρ₁ x => x.connects → Call ρ₁ x) ρ := by
  rintro ρ₁ x ρ₂ rfl hx
  obtain ⟨hbefore, -, hs, -⟩ := hr.split rfl
  have hpc : x.before.pc = .connect := by
    unfold LoopStep.connects at hx
    split at hx
    · assumption
    · cases hx
  have hidle := (Control.of_run hbefore.unrecord).starting (by rw [hpc]; rfl)
  have hengaged : x.before.engaged = false := by simp [State.engaged, hpc, hidle]
  have hends := PromptRun.ends_eq hbefore
  have hbalance := (Backs.of_run hbefore).balance
  refine ⟨?_, hidle, ?_, network_of_run hbefore (by rw [hpc]; rfl)⟩
  · rw [hengaged] at hends hbalance
    exact ⟨hbalance.trans hends.symm, hends⟩
  · rintro ρ₁ w ρ₂ rfl hw hρ
    have hquiet := not_schedules_of_not_connects hbefore hw hρ
    obtain ⟨hbefore', -, hs', -⟩ := hbefore.split rfl
    have hat := ((Backs.of_run hbefore').schedule (.of_run hbefore'.unrecord) hs' hw).2
    have hsince := reconnectAt_since hbefore _ _ _ rfl hquiet
    have hdue := due_of_run hbefore.unrecord hpc
    rw [hsince, hat] at hdue
    exact hdue

/-- **One backoff step per ended attempt.** In every run in which a reconnect
delay is not over within the call that scheduled it: what has ended was
followed by exactly one `schedule_reconnect`, but for the last attempt or session
while its DISCONNECTED is pending, and the first `update_connection` after the
wake-up schedules it; the `k`-th schedule since the last CONNECTED waits
`min (5 * 2 ^ (k - 1)) 60` seconds, and the next call of `aitsm_mqtt_connect`
comes no earlier, with the application idle and the network found registered;
the delay stays between 5 and 60. -/
theorem backoff_once_per_end {s : State cfg} {ρ : List (LoopStep cfg)} (hr : PromptRun s ρ) :
    ρ.countP LoopStep.ends =
      ρ.countP LoopStep.schedules + (s.engaged && s.helper = .down).toNat ∧
    (s.engaged → s.helper = .down → s.disconnectedLive) ∧
    (∀ ρ₁ w ρ₂ y ρ₃, ρ = ρ₁ ++ w :: ρ₂ ++ y :: ρ₃ → LoopStep.wakes w →
      w.before.engaged → w.before.helper = .down →
      (∀ z ∈ ρ₂, LoopStep.updates z = none) → (LoopStep.updates y).isSome →
      LoopStep.schedules y) ∧
    EachEvent (fun ρ₁ x => x.schedules → Schedule ρ₁ x) ρ ∧
    EachEvent (fun ρ₁ x => x.connects → Call ρ₁ x) ρ ∧
    5 ≤ s.app.reconnectDelaySeconds ∧ s.app.reconnectDelaySeconds ≤ 60 := by
  refine ⟨hr.ends_eq, (Ends.of_run hr.unrecord).disconnectedLive, ?_, hr.schedule, hr.call,
    (Backs.of_run hr).bounds⟩
  intro ρ₁ w ρ₂ y ρ₃ heq hw hengaged hdown hρ hy
  obtain ⟨hbefore, -, -, -⟩ := hr.split heq
  obtain ⟨-, hunseen, hstate⟩ :=
    unseen_since_wake hbefore ρ₁ w ρ₂ rfl hw (engaged_of_wakes hw hengaged) hdown hρ
  exact schedules_of_unseen hy hunseen hstate

/-- Two refused attempts, one that ends before CONNECTED, a session whose DISCONNECTED is posted by
the helper and by `check_puback_timeout`, and the next call. -/
def fourEnds : List Action :=
  List.flatten
    [[.network true], statements 8, [.mainConnect true], statements 2, [.tick 5000], statements 7,
      [.mainConnect true], statements 2, [.tick 10000], statements 7, [.mainConnect false],
      statements 2, [.onDisconnect], statements 10, [.tick 20000], statements 7,
      [.mainConnect false], statements 2, [.onConnack], statements 8,
      [.mainTime 0, .main, .mainMessageId 1], statements 2,
      [.mainPublish false, .tick 120000, .onDisconnect], statements 21, [.tick 5000],
      statements 7, [.mainConnect false]]

theorem fourEnds_replays :
    ((firmware singleConfig).record.replay (fun s ρ a => Prompt s (reports ρ) a)
      (firmware singleConfig).start [] fourEnds).isSome := by
  decide +kernel

theorem backoff_once_per_end_fourEnds :
    ∃ (s : State singleConfig) (ρ : List (LoopStep singleConfig)) (x : LoopStep singleConfig),
      PromptRun s (ρ ++ [x]) ∧ ρ.countP LoopStep.ends = 4 ∧ Call ρ x :=
  have hr := System.Run.of_isSome_at fourEnds_replays 102 (by decide +kernel)
  ⟨_, _, _, hr, by decide +kernel,
    (backoff_once_per_end hr).2.2.2.2.1 _ _ _ rfl (by decide +kernel)⟩

/-- The network is lost between `aitsm_network_is_connected` and `aitsm_mqtt_connect`. -/
def lostBeforeCall : List Action :=
  List.flatten [[.network true], statements 8, [.network false, .mainConnect false]]

theorem lostBeforeCall_replays :
    ((firmware singleConfig).record.replay (fun s ρ a => Prompt s (reports ρ) a)
      (firmware singleConfig).start [] lostBeforeCall).isSome := by
  decide +kernel

/-- **The network may be gone when the call is made.** -/
theorem connects_without_network :
    ¬∀ (s : State singleConfig) (ρ : List (LoopStep singleConfig)), PromptRun s ρ →
      EachEvent (fun _ x => LoopStep.connects x → x.before.networkConnected) ρ := by
  intro h
  have := h _ _ (System.Run.of_isSome_at lostBeforeCall_replays 10 (by decide +kernel)) _ _ _ rfl
    (by decide +kernel)
  revert this
  decide +kernel

end Aitsm.Simple
