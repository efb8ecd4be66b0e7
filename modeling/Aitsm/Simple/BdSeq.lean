import Aitsm.Simple.Delivery

/-!
# What `bd_seq` counts

`update_connection` advances `bd_seq` for every DISCONNECTED it acts on. Most of
them end a session, but a connection attempt that was accepted and broke off
before CONNECTED ends in the same branch. `Counted` relates the three: the
losses are the ended sessions and the aborted attempts together.

A step of a recorded run is looked at through the snapshot `update_connection`
is given (`updates`).
-/

namespace Aitsm.Simple

open Library Library.Wire
open Library.System (anyStep)

variable {cfg : Config}

/-- A step of a recorded run. -/
abbrev LoopStep (cfg : Config) := System.Step (State cfg) Action Event

namespace LoopStep

/-- The snapshot this call of `update_connection` is given. -/
def updates (x : LoopStep cfg) : Option Events :=
  match x.action, x.before.pc with
  | .main, .update events => some events
  | _, _ => none

/-- The loop acts on CONNECTED: a session is established. -/
def establishes (x : LoopStep cfg) : Bool :=
  match x.updates with
  | some events => events.mqttConnected && x.before.app.mqttState = .connecting
  | none => false

/-- The loop acts on DISCONNECTED. -/
def loses (x : LoopStep cfg) : Bool :=
  match x.updates with
  | some events => events.mqttDisconnected && x.before.app.mqttState ≠ .idle
  | none => false

/-- It does so for an attempt that never became a session. -/
def aborts (x : LoopStep cfg) : Bool :=
  x.loses && x.before.app.mqttState = .connecting && !x.establishes

/-- It does so before the NBIRTH was acknowledged. -/
def losesUnborn (x : LoopStep cfg) : Bool := x.loses && !x.before.app.birthAcknowledged

/-- The loop acts on the PUBACK of an NBIRTH. -/
def bears (x : LoopStep cfg) : Bool :=
  !x.before.app.birthAcknowledged && x.after.app.birthAcknowledged

end LoopStep

/-- A session is on, as the application sees it. -/
def MqttState.inSession (state : MqttState) : Bool := state = .connected || state = .disconnecting

attribute [local grind] Pc.starting collectMeasurement handlePuback scheduleReconnect
  MqttState.inSession
attribute [local grind cases eager] Control

/-- What one step does to the variables that matter here: either it is the call
of `update_connection`, or these change as the rest of the loop allows. -/
theorem step_updates {s s' : State cfg} {es : List Event} {a : Action} (hc : Control s)
    (h : step s a = some (s', es)) :
    (∃ events, LoopStep.updates ⟨s, a, s', es⟩ = some events ∧
      s'.app = (updateConnection s.uptimeMs events s.app).1) ∨
    LoopStep.updates ⟨s, a, s', es⟩ = none ∧ s'.app.bdSeq = s.app.bdSeq ∧
      s'.app.mqttState.inSession = s.app.mqttState.inSession ∧
      (s.app.birthAcknowledged → s'.app.birthAcknowledged) := by
  by_cases hu : a = .main ∧ ∃ events, s.pc = .update events
  · obtain ⟨rfl, events, hpc⟩ := hu
    refine .inl ⟨events, by simp [LoopStep.updates, hpc], ?_⟩
    simp only [step, mainStep, hpc] at h
    obtain ⟨rfl, -⟩ := Prod.mk.inj (Option.some.inj h)
    rfl
  · refine .inr ⟨?_, ?_⟩
    · unfold LoopStep.updates
      split
      · rename_i events ha hpc
        exact absurd ⟨ha, events, hpc⟩ hu
      · rfl
    cases a with
    | main =>
      cases mainStep_cases h with
      | update events hpc => exact absurd ⟨rfl, events, hpc⟩ hu
      | _ => grind -ring -linarith -order [publishNext_cases]
    | _ =>
      grind -ring -linarith -order [step, mainTime, mainConnect, mainMessageId, mainPublish,
        onConnack, onDisconnect, onPuback, measure]

/-! ## The counts -/

/-- What the variables say about the steps so far. -/
structure Counted (s : State cfg) (ρ : List (LoopStep cfg)) : Prop where
  losses : s.app.bdSeq.toNat = ρ.countP LoopStep.loses % 256
  sessions : ρ.countP LoopStep.establishes + ρ.countP LoopStep.aborts =
    ρ.countP LoopStep.loses + s.app.mqttState.inSession.toNat
  births : ρ.countP LoopStep.bears + ρ.countP LoopStep.losesUnborn =
    ρ.countP LoopStep.loses + s.app.birthAcknowledged.toNat

/-- The call of `update_connection`, with what it does to the counts. -/
theorem updateConnection_counts (now : ℕ) (events : Events) (app : App cfg) :
    let lost := events.mqttDisconnected && app.mqttState ≠ .idle
    let established := events.mqttConnected && app.mqttState = .connecting
    (updateConnection now events app).1.bdSeq =
        (if lost then sparkplugNextSeq app.bdSeq else app.bdSeq) ∧
      (updateConnection now events app).1.mqttState.inSession =
        (!lost && (established || app.mqttState.inSession)) ∧
      (updateConnection now events app).1.birthAcknowledged = (!lost && app.birthAcknowledged) := by
  unfold updateConnection scheduleReconnect MqttState.inSession
  dsimp only
  rcases hstate : app.mqttState <;> rcases hup : events.mqttConnected <;>
    rcases hdown : events.mqttDisconnected <;> simp [hstate]

theorem Counted.step {s s' : State cfg} {ρ : List (LoopStep cfg)} {es : List Event} {a : Action}
    (hc : Control s) (h : Counted s ρ) (hs : step s a = some (s', es)) :
    Counted s' (ρ ++ [⟨s, a, s', es⟩]) := by
  obtain ⟨hlosses, hsessions, hbirths⟩ := h
  rcases step_updates hc hs with ⟨events, hu, happ⟩ | ⟨hu, hbd, hsession, hborn⟩
  · obtain ⟨hbd, hsession, hborn⟩ := updateConnection_counts s.uptimeMs events s.app
    rw [← happ] at hbd hsession hborn
    constructor
    · rw [hbd, List.countP_append, List.countP_singleton]
      simp only [LoopStep.loses, hu]
      split
      · rw [sparkplugNextSeq_toNat, hlosses]
        omega
      · simpa using hlosses
    · rw [hsession]
      simp only [List.countP_append, List.countP_singleton, LoopStep.aborts, LoopStep.loses,
        LoopStep.establishes, hu]
      rcases hstate : s.app.mqttState <;> rcases events.mqttConnected <;>
        rcases events.mqttDisconnected <;> simp [hstate, MqttState.inSession] at hsessions ⊢ <;>
        omega
    · rw [hborn]
      simp only [List.countP_append, List.countP_singleton, LoopStep.losesUnborn, LoopStep.loses,
        LoopStep.bears, hu, hborn]
      rcases hb : s.app.birthAcknowledged <;>
        rcases (events.mqttDisconnected && decide (s.app.mqttState ≠ .idle)) <;>
        simp [hb] at hbirths ⊢ <;> omega
  · constructor
    · simpa [LoopStep.loses, hu, hbd] using hlosses
    · simpa [LoopStep.aborts, LoopStep.loses, LoopStep.establishes, hu, hsession] using hsessions
    · by_cases hb : s.app.birthAcknowledged
      · simpa [LoopStep.losesUnborn, LoopStep.loses, LoopStep.bears, hu, hb, hborn hb]
          using hbirths
      · rcases hb' : s'.app.birthAcknowledged <;>
          simp [LoopStep.losesUnborn, LoopStep.loses, LoopStep.bears, hu, hb, hb'] at hbirths ⊢ <;>
          omega

theorem Counted.of_run {s : State cfg} {ρ : List (LoopStep cfg)}
    (hr : (firmware cfg).record.Run anyStep s ρ) : Counted s ρ := by
  refine hr.invariant_with (J := fun s _ => Control s) (I := fun s ρ => Counted s ρ)
    (fun hr => .of_run hr.unrecord) ⟨rfl, rfl, rfl⟩ ?_
  intro s ρ a s' xs hc h _ hs
  obtain ⟨es, hstep, rfl⟩ := System.record_step hs
  exact h.step hc hstep

/-! ## The NBIRTHs -/

/-- The NBIRTH that is acknowledged carries `bd_seq`, and a session is on. -/
theorem acknowledged_birth {s s' : State cfg} {τ es : List Event} {a : Action} (hc : Control s)
    (hl : Linked s (flight τ)) (h : step s a = some (s', es))
    (hx : LoopStep.bears ⟨s, a, s', es⟩) :
    s.app.mqttState = .connected ∧ s.app.birthAcknowledged = false ∧
    ∃ id p, (flight τ).sent = some (id, p) ∧ (flight τ).outstanding ∧ p.type = .nbirth ∧
      p.bdSeq = s.app.bdSeq := by
  obtain ⟨hborn, hborn'⟩ : s.app.birthAcknowledged = false ∧ s'.app.birthAcknowledged := by
    simpa [LoopStep.bears] using hx
  have hawaiting : s.app.awaitingPuback := by
    cases step_cases h <;>
      grind -ring -linarith -order [updateConnection, publishNext_cases]
  obtain ⟨id, p, hsent, hout, hcur, -⟩ := hl.awaiting hawaiting
  refine ⟨hc.awaiting hawaiting, hborn, id, p, hsent, hout, ?_, hcur.bdSeq⟩
  rcases hcur.type_cases with ⟨htype, -⟩ | ⟨-, hdata, -⟩
  · exact htype
  · simp [hborn] at hdata

theorem add_mod_eq_iff (k e : ℕ) : (k + e) % 256 = k % 256 ↔ 256 ∣ e := by
  constructor <;> intro h <;> omega

/-- **What `bd_seq` counts.** In every run, the NBIRTH that is acknowledged in
the `k`-th established session carries `k - 1`, modulo 256, if and only if the
number of attempts that ended before CONNECTED is a multiple of 256 so far. If
only sessions with an acknowledged NBIRTH are counted, the same holds with the
connections that were lost before that. -/
theorem bdSeq_counts_sessions_iff {s : State cfg} {ρ : List (LoopStep cfg)}
    (hr : (firmware cfg).record.Run anyStep s ρ) :
    ∀ ρ₁ x ρ₂, ρ = ρ₁ ++ x :: ρ₂ → LoopStep.bears x →
      ∃ id p, (flight (System.reports ρ₁)).sent = some (id, p) ∧
        (flight (System.reports ρ₁)).outstanding ∧ p.type = .nbirth ∧
        1 ≤ ρ₁.countP LoopStep.establishes ∧
        (p.bdSeq.toNat = (ρ₁.countP LoopStep.establishes - 1) % 256 ↔
          256 ∣ ρ₁.countP LoopStep.aborts) ∧
        (p.bdSeq.toNat = ρ₁.countP LoopStep.bears % 256 ↔
          256 ∣ ρ₁.countP LoopStep.losesUnborn) := by
  intro ρ₁ x ρ₂ heq hx
  obtain ⟨hrun, -, hs, -⟩ := hr.split heq
  obtain ⟨hstate, hborn, id, p, hsent, hout, htype, hbd⟩ :=
    acknowledged_birth (.of_run hrun.unrecord) (.of_run hrun.unrecord) hs hx
  obtain ⟨hlosses, hsessions, hbirths⟩ := Counted.of_run hrun
  have hon : x.before.app.mqttState.inSession = true := by
    rw [hstate]
    rfl
  rw [hon, Bool.toNat_true] at hsessions
  rw [hborn, Bool.toNat_false] at hbirths
  have hpos : 1 ≤ ρ₁.countP LoopStep.establishes := by
    have haborts : ρ₁.countP LoopStep.aborts ≤ ρ₁.countP LoopStep.loses :=
      List.countP_mono_left fun y _ hy => by
        simp only [LoopStep.aborts, Bool.and_eq_true] at hy
        exact hy.1.1
    omega
  refine ⟨id, p, hsent, hout, htype, hpos, ?_, ?_⟩
  · rw [hbd, hlosses, ← add_mod_eq_iff (ρ₁.countP LoopStep.establishes - 1)]
    congr! 2
    omega
  · rw [hbd, hlosses, ← add_mod_eq_iff (ρ₁.countP LoopStep.bears), hbirths]
    rfl

/-- One session, in which the NBIRTH is acknowledged in the last step. -/
def firstBirth : List Action :=
  List.flatten
    [[.network true], statements 8, [.mainConnect false], statements 2, [.onConnack],
      statements 8, [.mainTime 0, .main, .mainMessageId 1], statements 2,
      [.mainPublish false, .onPuback 1 false], statements 4]

theorem firstBirth_replays :
    ((firmware singleConfig).record.replay anyStep (firmware singleConfig).start []
      firstBirth).isSome := by
  decide +kernel

theorem bdSeq_counts_sessions_iff_firstBirth :
    ∃ s ρ id p, (firmware singleConfig).record.Run anyStep s ρ ∧ s.app.birthAcknowledged ∧
      (flight (System.reports (ρ.take 31))).sent = some (id, p) ∧ p.bdSeq.toNat = 0 := by
  have hr := System.Run.of_isSome_at firstBirth_replays 31 (by decide +kernel)
  obtain ⟨id, p, hsent, -, -, -, hiff, -⟩ :=
    bdSeq_counts_sessions_iff hr _ _ _ rfl (by decide +kernel)
  refine ⟨_, _, id, p, .of_isSome firstBirth_replays, by decide +kernel, hsent, ?_⟩
  exact (hiff.mpr (by decide +kernel)).trans (by decide +kernel)

/-- The first attempt is accepted and ends before CONNECTED; the second becomes a session,
and its NBIRTH is acknowledged in the last step. -/
def abortedAttempt : List Action :=
  List.flatten
    [[.network true], statements 8, [.mainConnect false], statements 2, [.onDisconnect],
      statements 9, [.tick 5000], statements 8, [.mainConnect false], statements 2, [.onConnack],
      statements 8, [.mainTime 0, .main, .mainMessageId 1], statements 2,
      [.mainPublish false, .onPuback 1 false], statements 4]

theorem abortedAttempt_replays :
    ((firmware singleConfig).record.replay anyStep (firmware singleConfig).start []
      abortedAttempt).isSome := by
  decide +kernel

/-- **The first session carries bdSeq 1** after an aborted attempt, however sessions are
counted. -/
theorem aborted_attempt_counts :
    ¬∀ s ρ, (firmware singleConfig).record.Run anyStep s ρ →
      ∀ ρ₁ x ρ₂, ρ = ρ₁ ++ x :: ρ₂ → LoopStep.bears x →
        ∀ id p, (flight (System.reports ρ₁)).sent = some (id, p) →
          p.bdSeq.toNat = (ρ₁.countP LoopStep.establishes - 1) % 256 ∨
            p.bdSeq.toNat = ρ₁.countP LoopStep.bears % 256 := by
  intro h
  have hr := System.Run.of_isSome_at abortedAttempt_replays 53 (by decide +kernel)
  have hsent : (flight (System.reports ((((firmware singleConfig).record.replay anyStep
      (firmware singleConfig).start [] abortedAttempt).get abortedAttempt_replays).2.take
      53))).sent.isSome := by
    decide +kernel
  have := h _ _ hr _ _ _ rfl (by decide +kernel) _ _ (Option.some_get hsent).symm
  revert this
  decide +kernel

end Aitsm.Simple
