import Aitsm.Library.Backoff
import Aitsm.Original.Controller

/-!
# The reconnect state machine over whole runs (`mqtt_reconnect.c`)

`aitsm_reconnect_handle` is fed any sequence of events from
`aitsm_reconnect_init`. The state remembers of the history what its next answer
needs: the delay is the one of the failures since the last reset (`Backed`), a
SCHEDULE is answered once per attempt because the phase WAITING lasts until a
CONNECT or a CANCEL, and a CONNECT needs LTE.
-/

namespace Aitsm.Original

open Library
open Library.System (Step EachEvent anyStep)

/-- The ranges of the Kconfig symbols, and the build assertion. -/
structure ReconnectConfig.Valid (cfg : ReconnectConfig) : Prop where
  positive : 1 ≤ cfg.initialDelaySeconds.toNat
  ordered : cfg.initialDelaySeconds.toNat ≤ cfg.maxDelaySeconds.toNat
  bounded : cfg.maxDelaySeconds.toNat ≤ 3600

/-- The state machine, and what it answers. -/
def reconnectMachine (cfg : ReconnectConfig) :
    System ReconnectState ReconnectEvent ReconnectAction where
  start := reconnectInit cfg
  step r e := some ((reconnectHandle cfg r e).1, [(reconnectHandle cfg r e).2])

/-- One call of `aitsm_reconnect_handle`. -/
abbrev ReconnectCall := Step ReconnectState ReconnectEvent ReconnectAction

namespace ReconnectCall

/-- The backoff starts over: LTE_DOWN, or MQTT_UP while LTE is available. -/
def resets (x : ReconnectCall) : Bool :=
  match x.action with
  | .lteDown => true
  | .mqttUp => x.before.lteAvailable
  | _ => false

/-- The answer is SCHEDULE. -/
def schedules (x : ReconnectCall) : Bool :=
  match x.events with
  | [.schedule _] => true
  | _ => false

/-- The answer is CONNECT or CANCEL. -/
def ends (x : ReconnectCall) : Prop := x.events = [.connect] ∨ x.events = [.cancel]

end ReconnectCall

variable {cfg : ReconnectConfig}

/-! ## What one call can do -/

/-- Everything one call can do. -/
inductive Handling (cfg : ReconnectConfig) (r : ReconnectState) :
    ReconnectEvent → ReconnectState → ReconnectAction → Prop where
  | lteUp (h : r.lteAvailable = false) :
    Handling cfg r .lteUp { r with lteAvailable := true, phase := .connecting } .connect
  | lteDown (h : r.lteAvailable) : Handling cfg r .lteDown (reconnectInit cfg) .cancel
  | lteStillDown (h : r.lteAvailable = false) : Handling cfg r .lteDown (reconnectInit cfg) .none
  | mqttUp (h : r.lteAvailable) :
    Handling cfg r .mqttUp
      { r with phase := .connected, nextDelaySeconds := cfg.initialDelaySeconds } .cancel
  | failure (h : r.lteAvailable) (hphase : r.phase ≠ .waiting) :
    Handling cfg r .failure
      { r with
        phase := .waiting
        nextDelaySeconds := min (r.nextDelaySeconds * 2) cfg.maxDelaySeconds }
      (.schedule r.nextDelaySeconds)
  | timer (h : r.lteAvailable) (hphase : r.phase = .waiting) :
    Handling cfg r .timer { r with phase := .connecting } .connect
  | ignored (e) (hdown : e ≠ .lteDown) (hup : e = .mqttUp → r.lteAvailable = false)
      (hlte : e = .lteUp → r.lteAvailable) : Handling cfg r e r .none

theorem reconnectHandle_cases (cfg : ReconnectConfig) (r : ReconnectState) (e : ReconnectEvent) :
    Handling cfg r e (reconnectHandle cfg r e).1 (reconnectHandle cfg r e).2 := by
  cases e with
  | lteUp =>
    rcases h : r.lteAvailable
    · simpa [reconnectHandle, h] using Handling.lteUp h
    · simpa [reconnectHandle, h] using Handling.ignored .lteUp nofun nofun fun _ => h
  | lteDown =>
    rcases h : r.lteAvailable
    · simpa [reconnectHandle, h] using Handling.lteStillDown h
    · simpa [reconnectHandle, h] using Handling.lteDown h
  | mqttUp =>
    rcases h : r.lteAvailable
    · simpa [reconnectHandle, h] using Handling.ignored .mqttUp nofun (fun _ => h) nofun
    · simpa [reconnectHandle, h] using Handling.mqttUp h
  | failure =>
    by_cases h : r.lteAvailable ∧ r.phase ≠ .waiting
    · simpa [reconnectHandle, h] using Handling.failure h.1 h.2
    · simpa [reconnectHandle, if_neg h] using Handling.ignored .failure nofun nofun nofun
  | timer =>
    by_cases h : r.lteAvailable ∧ r.phase = .waiting
    · simpa [reconnectHandle, h] using Handling.timer h.1 h.2
    · simpa [reconnectHandle, if_neg h] using Handling.ignored .timer nofun nofun nofun

theorem handling_of_step {r r' : ReconnectState} {e : ReconnectEvent} {as : List ReconnectAction}
    (h : (reconnectMachine cfg).step r e = some (r', as)) :
    ∃ a, as = [a] ∧ Handling cfg r e r' a := by
  obtain ⟨rfl, rfl⟩ := Prod.mk.inj (Option.some.inj h)
  exact ⟨_, rfl, reconnectHandle_cases cfg r e⟩

/-! ## What the state remembers -/

/-- The number of failures that were answered since the last reset. -/
def failures (ρ : List ReconnectCall) : ℕ :=
  countSince ReconnectCall.resets ReconnectCall.schedules ρ

/-- The number of LTE_UPs since the last LTE_DOWN. -/
def lteUps (ρ : List ReconnectCall) : ℕ :=
  countSince (fun x => x.action = .lteDown) (fun x => x.action = .lteUp) ρ

/-- What the state says about the calls so far. -/
structure Backed (cfg : ReconnectConfig) (r : ReconnectState) (ρ : List ReconnectCall) : Prop where
  delay : r.nextDelaySeconds.toNat =
    Backoff.delay cfg.initialDelaySeconds.toNat cfg.maxDelaySeconds.toNat (failures ρ)
  offline : r.lteAvailable = false → r.phase = .offline ∧ lteUps ρ = 0
  online : r.lteAvailable → lteUps ρ ≠ 0

namespace Backed

variable {r : ReconnectState} {ρ : List ReconnectCall}

theorem start (hcfg : cfg.Valid) : Backed cfg (reconnectInit cfg) [] :=
  ⟨(Backoff.delay_zero hcfg.ordered).symm, fun _ => ⟨rfl, rfl⟩, nofun⟩

/-- The next delay is never more than the maximum, so doubling it is exact. -/
theorem double_lt (h : Backed cfg r ρ) (hcfg : cfg.Valid) :
    r.nextDelaySeconds.toNat * 2 < 2 ^ 32 := by
  have hle : r.nextDelaySeconds.toNat ≤ cfg.maxDelaySeconds.toNat := by
    rw [h.delay]
    exact Backoff.delay_le _
  have hbounded := hcfg.bounded
  omega

theorem doubled (h : Backed cfg r ρ) (hcfg : cfg.Valid) :
    (min (r.nextDelaySeconds * 2) cfg.maxDelaySeconds).toNat =
      Backoff.delay cfg.initialDelaySeconds.toNat cfg.maxDelaySeconds.toNat (failures ρ + 1) := by
  have hmul : (r.nextDelaySeconds * 2).toNat = r.nextDelaySeconds.toNat * 2 := by
    rw [UInt32.toNat_mul]
    exact Nat.mod_eq_of_lt (h.double_lt hcfg)
  rw [Backoff.delay_succ, ← h.delay, ← hmul, UInt32.toNat_min]

theorem handled (h : Backed cfg r ρ) (hcfg : cfg.Valid) {e : ReconnectEvent} {r' : ReconnectState}
    {a : ReconnectAction} (hx : Handling cfg r e r' a) :
    Backed cfg r' (ρ ++ [⟨r, e, r', [a]⟩]) := by
  have hreset := (Backoff.delay_zero hcfg.ordered).symm
  cases hx with
  | lteUp hdown =>
    refine ⟨?_, nofun, fun _ => by simp [lteUps]⟩
    simpa [failures, ReconnectCall.resets, ReconnectCall.schedules] using h.delay
  | lteDown hup =>
    refine ⟨?_, fun _ => ⟨rfl, by simp [lteUps]⟩, nofun⟩
    simpa [failures, ReconnectCall.resets, ReconnectCall.schedules, reconnectInit] using hreset
  | lteStillDown hdown =>
    refine ⟨?_, fun _ => ⟨rfl, by simp [lteUps]⟩, nofun⟩
    simpa [failures, ReconnectCall.resets, ReconnectCall.schedules, reconnectInit] using hreset
  | mqttUp hup =>
    refine ⟨?_, fun hd => absurd hup (by simpa using hd), fun _ => ?_⟩
    · simpa [failures, ReconnectCall.resets, ReconnectCall.schedules, hup] using hreset
    · simpa [lteUps] using h.online hup
  | failure hup hphase =>
    refine ⟨?_, fun hd => absurd hup (by simpa using hd), fun _ => ?_⟩
    · simpa [failures, ReconnectCall.resets, ReconnectCall.schedules] using h.doubled hcfg
    · simpa [lteUps] using h.online hup
  | timer hup hphase =>
    refine ⟨?_, fun hd => absurd hup (by simpa using hd), fun _ => ?_⟩
    · simpa [failures, ReconnectCall.resets, ReconnectCall.schedules] using h.delay
    · simpa [lteUps] using h.online hup
  | ignored _ hnotDown hmqtt hlte =>
    have hfailures : failures (ρ ++ [⟨r, e, r, [.none]⟩]) = failures ρ := by
      rcases e with _ | _ | _ | _ | _ <;>
        simp_all [failures, ReconnectCall.resets, ReconnectCall.schedules]
    refine ⟨hfailures ▸ h.delay, fun hdown => ⟨(h.offline hdown).1, ?_⟩, fun hup => ?_⟩
    · have hnotUp : e ≠ .lteUp := fun he => absurd (hlte he) (by simp [hdown])
      simpa [lteUps, hnotUp, hnotDown] using (h.offline hdown).2
    · simpa [lteUps, hnotDown] using fun h0 => absurd h0 (h.online hup)

theorem of_run (hcfg : cfg.Valid) (hr : (reconnectMachine cfg).record.Run anyStep r ρ) :
    Backed cfg r ρ := by
  refine hr.invariant (I := fun r ρ => Backed cfg r ρ) (start hcfg) ?_
  intro r ρ e r' xs h _ hs
  obtain ⟨as, hstep, rfl⟩ := System.record_step hs
  obtain ⟨a, rfl, hx⟩ := handling_of_step hstep
  exact h.handled hcfg hx

end Backed

/-! ## When it answers -/

theorem Handling.schedule {r r' : ReconnectState} {e : ReconnectEvent} {d : UInt32}
    (h : Handling cfg r e r' (.schedule d)) :
    d = r.nextDelaySeconds ∧ r'.lteAvailable ∧ r'.phase = .waiting := by
  cases h with
  | failure hup => exact ⟨rfl, hup, rfl⟩

theorem Handling.connect {r r' : ReconnectState} {e : ReconnectEvent}
    (h : Handling cfg r e r' .connect) :
    r'.lteAvailable ∧
    (e = .lteUp ∧ r.lteAvailable = false ∨ e = .timer ∧ r.lteAvailable ∧ r.phase = .waiting) := by
  cases h with
  | lteUp hdown => exact ⟨rfl, .inl ⟨rfl, hdown⟩⟩
  | timer hup hphase => exact ⟨hup, .inr ⟨rfl, hup, hphase⟩⟩

/-- In WAITING the answer is CONNECT or CANCEL, or nothing happens. -/
theorem Handling.waiting {r r' : ReconnectState} {e : ReconnectEvent} {a : ReconnectAction}
    (h : Handling cfg r e r' a) (hup : r.lteAvailable) (hphase : r.phase = .waiting) :
    (a = .connect ∨ a = .cancel) ∧ e ≠ .failure ∨ r' = r ∧ a = .none := by
  cases h with
  | lteUp => exact .inl ⟨.inl rfl, nofun⟩
  | lteDown => exact .inl ⟨.inr rfl, nofun⟩
  | lteStillDown hdown => simp [hdown] at hup
  | mqttUp => exact .inl ⟨.inr rfl, nofun⟩
  | failure _ hnot => exact absurd hphase hnot
  | timer => exact .inl ⟨.inl rfl, nofun⟩
  | ignored => exact .inr ⟨rfl, rfl⟩

theorem ReconnectCall.of_schedules {x : ReconnectCall} (h : x.schedules) :
    ∃ d, x.events = [.schedule d] := by
  unfold schedules at h
  split at h
  · exact ⟨_, ‹_›⟩
  · cases h

/-- WAITING lasts until a CONNECT or a CANCEL. -/
theorem waiting_since {r : ReconnectState} {ρ : List ReconnectCall}
    (hr : (reconnectMachine cfg).record.Run anyStep r ρ) (ρ₁ : List ReconnectCall)
    (x : ReconnectCall) (ρ₂ : List ReconnectCall) (heq : ρ = ρ₁ ++ x :: ρ₂)
    (hx : x.schedules) (hρ : ∀ z ∈ ρ₂, ¬z.ends) : r.lteAvailable ∧ r.phase = .waiting := by
  refine hr.since (J := fun _ => True) (P := fun x : ReconnectCall => x.schedules)
    (K := fun z : ReconnectCall => ¬z.ends)
    (I := fun _ _ r => r.lteAvailable ∧ r.phase = .waiting)
    (fun _ => trivial) ?_ ?_ ρ₁ x ρ₂ heq hx hρ
  · intro x _ hs hx
    obtain ⟨d, hd⟩ := ReconnectCall.of_schedules hx
    obtain ⟨a, ha, hhandling⟩ := handling_of_step hs
    obtain rfl := (List.cons.inj (ha.symm.trans hd)).1
    exact hhandling.schedule.2
  · intro x ρ y _ hs hy hw
    obtain ⟨a, ha, hhandling⟩ := handling_of_step hs
    rcases hhandling.waiting hw.1 hw.2 with ⟨rfl | rfl, -⟩ | ⟨hsame, -⟩
    · exact absurd (.inl ha) hy
    · exact absurd (.inr ha) hy
    · rw [hsame]
      exact hw

/-- **The backoff is exact over whole runs.** A SCHEDULE carries the initial
delay, doubled for each SCHEDULE since the last reset and clamped, and no
doubling overflows. Between two SCHEDULEs there is a CONNECT or a CANCEL, and
until then a failure changes nothing. A CONNECT answers the LTE_UP that ends an
offline period, or a TIMER in WAITING. -/
theorem backoff_exact (hcfg : cfg.Valid) {r : ReconnectState} {ρ : List ReconnectCall}
    (hr : (reconnectMachine cfg).record.Run anyStep r ρ) :
    EachEvent (fun ρ₁ x => ∀ d, x.events = [.schedule d] →
      d.toNat = min (cfg.initialDelaySeconds.toNat * 2 ^ failures ρ₁)
        cfg.maxDelaySeconds.toNat) ρ ∧
    (∀ x ∈ ρ, x.before.nextDelaySeconds.toNat * 2 < 2 ^ 32) ∧
    (∀ ρ₁ (x : ReconnectCall) ρ₂ (y : ReconnectCall) ρ₃, ρ = ρ₁ ++ x :: (ρ₂ ++ y :: ρ₃) →
      x.schedules → (∀ z ∈ ρ₂, ¬z.ends) →
      y.schedules = false ∧ (y.action = .failure → y.after = y.before ∧ y.events = [.none])) ∧
    EachEvent (fun ρ₁ x => x.events = [.connect] → x.after.lteAvailable ∧
      (x.action = .lteUp ∧ x.before.phase = .offline ∧ lteUps ρ₁ = 0 ∨
        x.action = .timer ∧ x.before.lteAvailable ∧ x.before.phase = .waiting)) ρ := by
  refine ⟨?_, ?_, ?_, ?_⟩
  · rintro ρ₁ x ρ₂ heq d hd
    obtain ⟨hrun, -, hs, -⟩ := hr.split heq
    obtain ⟨a, ha, hhandling⟩ := handling_of_step hs
    obtain rfl := (List.cons.inj (ha.symm.trans hd)).1
    rw [hhandling.schedule.1, (Backed.of_run hcfg hrun).delay, Backoff.delay]
  · intro x hx
    obtain ⟨ρ₁, ρ₂, heq⟩ := List.append_of_mem hx
    exact (Backed.of_run hcfg (hr.split heq).1).double_lt hcfg
  · rintro ρ₁ x ρ₂ y ρ₃ heq hx hρ
    rw [← List.cons_append, ← List.append_assoc] at heq
    obtain ⟨hrun, -, hs, -⟩ := hr.split heq
    obtain ⟨hup, hphase⟩ := waiting_since hrun ρ₁ x ρ₂ rfl hx hρ
    obtain ⟨a, ha, hhandling⟩ := handling_of_step hs
    rw [ReconnectCall.schedules, ha]
    rcases hhandling.waiting hup hphase with ⟨rfl | rfl, he⟩ | ⟨hsame, rfl⟩
    · exact ⟨rfl, fun h => absurd h he⟩
    · exact ⟨rfl, fun h => absurd h he⟩
    · exact ⟨rfl, fun _ => ⟨hsame, rfl⟩⟩
  · rintro ρ₁ x ρ₂ heq hconnect
    obtain ⟨hrun, -, hs, -⟩ := hr.split heq
    obtain ⟨a, ha, hhandling⟩ := handling_of_step hs
    obtain rfl := (List.cons.inj (ha.symm.trans hconnect)).1
    obtain ⟨hafter, hwhy⟩ := hhandling.connect
    refine ⟨hafter, hwhy.imp_left fun hup => ?_⟩
    exact ⟨hup.1, (Backed.of_run hcfg hrun).offline hup.2⟩

/-- The delays of the unit tests. -/
def testDelays : ReconnectConfig := { initialDelaySeconds := 3, maxDelaySeconds := 19 }

/-- Four attempts fail; the last delay is the maximum. -/
def cappedBackoff : List ReconnectEvent :=
  .lteUp :: (List.replicate 3 [.failure, .timer]).flatten ++ [.failure]

theorem cappedBackoff_replays :
    ((reconnectMachine testDelays).record.replay anyStep (reconnectMachine testDelays).start []
      cappedBackoff).isSome := by
  decide +kernel

theorem backoff_exact_cappedBackoff :
    ∃ r ρ, (reconnectMachine testDelays).record.Run anyStep r ρ ∧ failures ρ = 4 ∧
      r.phase = .waiting ∧ ∀ x ∈ ρ, x.before.nextDelaySeconds.toNat * 2 < 2 ^ 32 :=
  ⟨_, _, .of_isSome cappedBackoff_replays, by decide +kernel, by decide +kernel,
    (backoff_exact ⟨by decide, by decide, by decide⟩ (.of_isSome cappedBackoff_replays)).2.1⟩

end Aitsm.Original
