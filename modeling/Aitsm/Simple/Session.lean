import Aitsm.Simple.Delivery

/-!
# Order and numbering in a Sparkplug session

A session lasts from one DISCONNECTED that `update_connection` acts on to the
next. `Session` counts what an observer of the run has seen in it so far, and
`Numbered` ties the counts to `birth_acknowledged`, `seq` and `awaiting_puback`.
The publication that `aitsm_mqtt_publish` accepts next is then determined: an
NBIRTH with sequence number 0 in a session that has sent nothing, or an NDATA
with the next number after the NBIRTH and the NDATAs acknowledged so far.
-/

namespace Aitsm.Simple

open Library Library.Wire
open Library.System (EachEvent anyStep)

variable {cfg : Config}

/-- What was accepted and acknowledged in the current session. -/
structure Session where
  births : ℕ := 0
  birthsAcknowledged : ℕ := 0
  datas : ℕ := 0
  datasAcknowledged : ℕ := 0
  /-- accepted, and neither acknowledged nor lost -/
  outstanding : Option MessageType := none
  deriving DecidableEq

/-- Follow one event. -/
def Session.observe (σ : Session) : Event → Session
  | .accepted _ p =>
    match p.type with
    | .nbirth => { σ with births := σ.births + 1, outstanding := some .nbirth }
    | .ndata => { σ with datas := σ.datas + 1, outstanding := some .ndata }
  | .acknowledged _ =>
    match σ.outstanding with
    | some .nbirth =>
      { σ with birthsAcknowledged := σ.birthsAcknowledged + 1, outstanding := none }
    | some .ndata =>
      { σ with datasAcknowledged := σ.datasAcknowledged + 1, outstanding := none }
    | none => σ
  | .lost => {}
  | .added _ | .removed _ | .handed _ _ | .puback _ => σ

/-- The session after a history. -/
def session (τ : List Event) : Session := τ.foldl Session.observe {}

@[simp] theorem session_append (τ es : List Event) :
    session (τ ++ es) = es.foldl Session.observe (session τ) :=
  List.foldl_append ..

/-- What ties the session to the variables of the loop. -/
structure Numbered (s : State cfg) (σ : Session) : Prop where
  silent : s.app.mqttState = .idle ∨ s.app.mqttState = .connecting →
    σ = {} ∧ s.app.birthAcknowledged = false
  outstanding : s.app.mqttState = .connected → s.app.awaitingPuback = false →
    σ.outstanding = none
  birth : s.app.birthAcknowledged = false →
    σ.birthsAcknowledged = 0 ∧ σ.datas = 0 ∧ σ.datasAcknowledged = 0 ∧
    (s.app.awaitingPuback → σ.births = 1 ∧ σ.outstanding = some .nbirth) ∧
    (s.app.mqttState = .connected → s.app.awaitingPuback = false → σ.births = 0)
  data : s.app.birthAcknowledged →
    σ.births = 1 ∧ σ.birthsAcknowledged = 1 ∧
    s.app.seq.toNat = (1 + σ.datasAcknowledged) % 256 ∧
    (s.app.awaitingPuback → σ.outstanding = some .ndata)

/-- Acting on a PUBACK bit counts the message that was outstanding. -/
theorem Numbered.handlePuback {s : State cfg} {σ : Session} (hc : Control s)
    (hn : Numbered s σ) (pc : Pc) (ids : List UInt16) :
    Numbered { s with pc := pc, app := (handlePuback s.app ids).1 }
      ((handlePuback s.app ids).2.foldl Session.observe σ) := by
  unfold Simple.handlePuback
  split
  · exact ⟨hn.silent, hn.outstanding, hn.birth, hn.data⟩
  rename_i ha
  have ha : s.app.awaitingPuback := by simpa using ha
  have hconnected := hc.awaiting ha
  split
  · rename_i hb
    obtain ⟨hacked, -, hdatas, hunder, -⟩ := hn.birth (by simpa using hb)
    obtain ⟨hbirths, hout⟩ := hunder ha
    simp only [List.foldl_cons, List.foldl_nil, Session.observe, hout]
    refine ⟨fun h => ?_, fun _ _ => rfl, nofun, fun _ => ⟨hbirths, ?_, ?_, nofun⟩⟩
    · simp [hconnected] at h
    · simp [hacked]
    · simp [hdatas]
  · rename_i hb
    obtain ⟨hbirths, hacked, hseq, hunder⟩ := hn.data (by simpa using hb)
    have hout := hunder ha
    simp only [List.foldl_cons, List.foldl_nil, Session.observe, hout]
    refine ⟨fun h => ?_, fun _ _ => rfl, fun h => absurd h (by simpa using hb),
      fun _ => ⟨hbirths, hacked, ?_, nofun⟩⟩
    · simp [hconnected] at h
    · rw [sparkplugNextSeq_toNat, hseq]
      dsimp only
      omega

/-- An accepted publication is counted by its kind. -/
theorem Numbered.accepted {s : State cfg} {σ : Session} {p : Publication} (hn : Numbered s σ)
    (hstate : s.app.mqttState = .connected) (ha : s.app.awaitingPuback = false)
    (hcur : Current s.app p) (pc : Pc) (deadline : ℕ) (id : UInt16) :
    Numbered { s with
        pc := pc
        app := { s.app with awaitingPuback := true, pubackDeadlineMs := deadline } }
      (σ.observe (.accepted id p)) := by
  rcases hcur.type_cases with ⟨htype, hb, -⟩ | ⟨htype, hb, -⟩ <;>
    simp only [Session.observe, htype]
  · obtain ⟨hacked, hdatas, hdacked, -, hbirths⟩ := hn.birth hb
    refine ⟨fun h => by simp [hstate] at h, nofun,
      fun _ => ⟨hacked, hdatas, hdacked, fun _ => ⟨?_, rfl⟩, nofun⟩,
      fun h => by simp [hb] at h⟩
    rw [hbirths hstate ha]
  · obtain ⟨hbirths, hacked, hseq, -⟩ := hn.data hb
    exact ⟨fun h => by simp [hstate] at h, nofun, fun h => by simp [hb] at h,
      fun _ => ⟨hbirths, hacked, hseq, fun _ => rfl⟩⟩

attribute [local grind] Pc.starting Pc.closing Pc.publishing
attribute [local grind] updateConnection scheduleReconnect collectMeasurement Session.observe
attribute [local grind cases eager] Control Numbered

theorem Numbered.move {s s' : State cfg} {es : List Event} {σ : Session} (hc : Control s)
    (hn : Numbered s σ) (hm : Move s s' es) : Numbered s' (es.foldl Session.observe σ) := by
  cases hm with
  | puback events hpc he => exact hn.handlePuback hc _ _
  | accepted p id hpc =>
    obtain ⟨hstate, ha⟩ := hc.publishing (by rw [hpc]; rfl)
    exact hn.accepted hstate ha (hc.carried p (by rw [hpc]; rfl)) _ _ id
  | _ => constructor <;> grind -ring -linarith -order [publishNext_cases]

theorem Numbered.of_run {ok : State cfg → List Event → Action → Prop} {s : State cfg}
    {τ : List Event} (hr : (firmware cfg).Run ok s τ) : Numbered s (session τ) := by
  refine hr.invariant_with (J := fun s _ => Control s) (I := fun s τ => Numbered s (session τ))
    Control.of_run ⟨fun _ => ⟨rfl, rfl⟩, nofun, ?_, nofun⟩ ?_
  · intro _
    exact ⟨rfl, rfl, rfl, nofun, nofun⟩
  · intro s τ a s' es hc hn _ hs
    rw [session_append]
    exact hn.move hc (step_cases hs)

/-! ## What is accepted -/

/-- What may be accepted after a history: nothing is outstanding, and the
publication is the session's only NBIRTH, with sequence number 0, or an NDATA
that follows the acknowledged NBIRTH and counts the acknowledged NDATAs. -/
def InOrder (τ : List Event) : Event → Prop
  | .accepted _ p =>
    (session τ).outstanding = none ∧
    match p.type with
    | .nbirth => p.seq = 0 ∧ (session τ).births = 0 ∧ (session τ).datas = 0
    | .ndata => (session τ).births = 1 ∧ (session τ).birthsAcknowledged = 1 ∧
        p.seq.toNat = (1 + (session τ).datasAcknowledged) % 256
  | _ => True

theorem Numbered.inOrder {s : State cfg} {τ : List Event} {p : Publication} {id : UInt16}
    {refused : Bool} (hc : Control s) (hn : Numbered s (session τ))
    (hpc : s.pc = .sent p id refused) : InOrder τ (.accepted id p) := by
  obtain ⟨hstate, ha⟩ := hc.publishing (by rw [hpc]; rfl)
  refine ⟨hn.outstanding hstate ha, ?_⟩
  rcases (hc.carried p (by rw [hpc]; rfl)).type_cases with ⟨htype, hb, hseq⟩ | ⟨htype, hb, hseq⟩
  · obtain ⟨-, hdatas, -, -, hbirths⟩ := hn.birth hb
    rw [htype]
    exact ⟨hseq, hbirths hstate ha, hdatas⟩
  · obtain ⟨hbirths, hacked, hnext, -⟩ := hn.data hb
    rw [htype]
    exact ⟨hbirths, hacked, hseq ▸ hnext⟩

/-- The only step that accepts a publication. -/
theorem Move.accepts {s s' : State cfg} {es : List Event} (hm : Move s s' es) :
    (∃ p id, s.pc = .sent p id false ∧ es = [.accepted id p]) ∨
    ∀ e ∈ es, ∀ τ, InOrder τ e := by
  cases hm with
  | accepted p id hpc => exact .inl ⟨p, id, hpc, rfl⟩
  | puback events =>
    right
    unfold handlePuback
    split
    · nofun
    split <;> simp [InOrder]
  | collect events m rest =>
    right
    unfold collectMeasurement
    split <;> simp [InOrder]
  | update events =>
    right
    unfold updateConnection
    dsimp only
    split <;> split <;> simp [InOrder]
  | _ => exact .inr (by simp [InOrder])

theorem inOrder_of_run {ok : State cfg → List Event → Action → Prop} {s : State cfg}
    {τ : List Event} (hr : (firmware cfg).Run ok s τ) : EachEvent InOrder τ := by
  refine hr.eachEvent (I := fun s τ => Control s ∧ Numbered s (session τ))
    (fun hr => ⟨.of_run hr, .of_run hr⟩) ?_
  intro s τ a s' es ⟨hc, hn⟩ _ hs
  rcases (step_cases hs).accepts with ⟨p, id, hpc, rfl⟩ | hquiet
  · refine .singleton ?_
    rw [List.append_nil]
    exact hn.inOrder hc hpc
  · exact .of_forall fun e he τ₁ => hquiet e he _

/-- **Order and numbering of the publications**, for every interleaving of the
callbacks with the loop: each accepted publication is the one the session so
far calls for, and what the session counts as acknowledged was acknowledged by
a PUBACK for that very message. -/
theorem publications_in_order {s : State cfg} {τ : List Event}
    (hr : (firmware cfg).Run anyStep s τ) :
    EachEvent InOrder τ ∧ EachEvent CreditsFlight τ :=
  ⟨inOrder_of_run hr, (events_of_run hr).imp fun _ _ h => h.1⟩

theorem publications_in_order_acknowledgedBatch :
    ∃ τ, session τ = ⟨1, 1, 1, 1, none⟩ ∧ EachEvent InOrder τ ∧ EachEvent CreditsFlight τ :=
  ⟨_, by decide +kernel, publications_in_order (.of_isSome acknowledgedBatch_replays)⟩

end Aitsm.Simple
