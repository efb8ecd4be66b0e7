import Aitsm.Simple.Flags

/-!
# Nothing is removed that was not acknowledged

The history of a run tells, at each point, which message was handed to the MQTT
library last in the current session and what the broker has answered since
(`Flight`). The invariant `Linked` ties that to the variables of the loop: while
the loop waits for a PUBACK, the message under way is the last one handed over,
it carries exactly the first `sent_count` measurements of the buffer, and every
PUBACK bit the loop can still see was posted for this message.
-/

namespace Aitsm.Simple

open Library Library.Wire
open Library.System (EachEvent anyStep)

variable {cfg : Config}

/-! ## What the history says -/

/-- The message under way, as an observer of the run sees it. -/
structure Flight where
  /-- the last message handed to the helper in this session -/
  sent : Option (UInt16 × Publication) := none
  /-- it was accepted and `handle_puback` has not acted on it yet -/
  outstanding : Bool := false
  /-- the PUBACKs that arrived since it was handed over -/
  pubacks : List UInt16 := []

/-- Follow one event. -/
def Flight.observe (f : Flight) : Event → Flight
  | .handed id p => { sent := some (id, p) }
  | .accepted _ _ => { f with outstanding := true }
  | .puback id => { f with pubacks := f.pubacks ++ [id] }
  | .acknowledged _ => { f with outstanding := false }
  | .lost => {}
  | .added _ | .removed _ => f

/-- The message under way after a history. -/
def flight (τ : List Event) : Flight := τ.foldl Flight.observe {}

/-- Everything `aitsm_batch_add` accepted, in order. -/
def added (τ : List Event) : List Measurement :=
  τ.flatMap fun e => match e with
    | .added m => [m]
    | _ => []

/-- Everything `aitsm_batch_remove` took out, in order. -/
def removed (τ : List Event) : List Measurement :=
  τ.flatMap fun e => match e with
    | .removed ms => ms
    | _ => []

@[simp] theorem flight_append (τ es : List Event) :
    flight (τ ++ es) = es.foldl Flight.observe (flight τ) :=
  List.foldl_append ..

@[simp] theorem added_append (τ es : List Event) : added (τ ++ es) = added τ ++ added es :=
  List.flatMap_append ..

@[simp] theorem removed_append (τ es : List Event) :
    removed (τ ++ es) = removed τ ++ removed es :=
  List.flatMap_append ..

/-! ## The buffer is a queue -/

theorem collectMeasurement_queue (app : App cfg) (m : Measurement) :
    (collectMeasurement app m).1.batch.items =
      app.batch.items ++ added (collectMeasurement app m).2 ∧
    removed (collectMeasurement app m).2 = [] := by
  rw [collectMeasurement]
  rcases hadd : app.batch.add m with err | batch
  · simp [added, removed]
  · simp [added, removed, Batch.items_of_add hadd]

theorem handlePuback_queue (app : App cfg) (ids : List UInt16) :
    app.batch.items =
      removed (handlePuback app ids).2 ++ (handlePuback app ids).1.batch.items ∧
    added (handlePuback app ids).2 = [] := by
  unfold handlePuback
  split
  · simp [added, removed]
  split
  · simp [added, removed]
  · simp [added, removed, Batch.removedItems_append_remove]

theorem updateConnection_queue (now : ℕ) (events : Events) (app : App cfg) :
    (updateConnection now events app).1.batch = app.batch ∧
    added (updateConnection now events app).2.2 = [] ∧
    removed (updateConnection now events app).2.2 = [] := by
  unfold updateConnection scheduleReconnect
  dsimp only
  split <;> split <;> exact ⟨rfl, rfl, rfl⟩

/-- What one step adds and removes is what happens to the buffer. -/
theorem Move.queue {s s' : State cfg} {es : List Event} (hm : Move s s' es) :
    s.app.batch.items ++ added es = removed es ++ s'.app.batch.items := by
  cases hm with
  | collect events m rest hpc hq =>
    obtain ⟨hitems, hremoved⟩ := collectMeasurement_queue s.app m
    rw [hitems, hremoved]
    rfl
  | puback events hpc he =>
    obtain ⟨hitems, hadded⟩ := handlePuback_queue s.app events.mqttPuback
    rw [hadded, List.append_nil]
    exact hitems
  | update events hpc =>
    obtain ⟨hbatch, hadded, hremoved⟩ := updateConnection_queue s.uptimeMs events s.app
    simp only [hbatch, hadded, hremoved, List.append_nil, List.nil_append]
  | publishNext hpc =>
    rcases publishNext_cases s.app with h | ⟨-, -, -, h⟩ | ⟨-, -, -, p, -, h⟩ | ⟨-, -, -, h⟩ <;>
      simp [h, added, removed]
  | _ => simp [added, removed, scheduleReconnect]

theorem queue_of_run {ok : State cfg → List Event → Action → Prop} {s : State cfg}
    {τ : List Event} (hr : (firmware cfg).Run ok s τ) :
    removed τ ++ s.app.batch.items = added τ := by
  refine hr.invariant (I := fun s τ => removed τ ++ s.app.batch.items = added τ) rfl ?_
  intro s τ a s' es ih _ hs
  rw [removed_append, added_append, ← ih, List.append_assoc, List.append_assoc,
    (step_cases hs).queue]

/-! ## The message under way -/

/-- A PUBACK bit posted for `ids` is not set, or was posted for the message
under way after it was handed over. -/
def Flight.Answers (f : Flight) (id : UInt16) (ids : List UInt16) : Prop :=
  ids = [] ∨ ids = [id] ∧ id ∈ f.pubacks

/-- What ties the history to the variables of the loop. -/
structure Linked (s : State cfg) (f : Flight) : Prop where
  handed : ∀ p id, s.pc = .sent p id false →
    f.sent = some (id, p) ∧ f.Answers id s.events.mqttPuback
  awaiting : s.app.awaitingPuback → ∃ id p, f.sent = some (id, p) ∧ f.outstanding ∧
    Current s.app p ∧ (s.pendingMessageId = id ∨ s.pendingMessageId = 0) ∧
    f.Answers id s.events.mqttPuback ∧ f.Answers id s.pc.unseenPuback

attribute [local grind] Pc.early Pc.late Pc.starting Pc.closing Pc.publishing Pc.publication
  Pc.chosen Pc.owner Pc.unsent Pc.unhanded Pc.unseen Pc.unseenPuback
attribute [local grind] handlePuback updateConnection scheduleReconnect Events.any
  Flight.observe Flight.Answers
attribute [local grind cases eager] Control Bits Linked
attribute [local grind] Current

theorem Linked.move_handed {s s' : State cfg} {es : List Event} {f : Flight} (hc : Control s)
    (hb : Bits s) (hl : Linked s f) (hm : Move s s' es) :
    ∀ p id, s'.pc = .sent p id false →
      (es.foldl Flight.observe f).sent = some (id, p) ∧
      (es.foldl Flight.observe f).Answers id s'.events.mqttPuback := by
  cases hm <;> grind -ring -linarith -order [publishNext_cases]

theorem Linked.move_awaiting {s s' : State cfg} {es : List Event} {f : Flight} (hc : Control s)
    (hb : Bits s) (hl : Linked s f) (hm : Move s s' es) :
    s'.app.awaitingPuback → ∃ id p, (es.foldl Flight.observe f).sent = some (id, p) ∧
      (es.foldl Flight.observe f).outstanding ∧ Current s'.app p ∧
      (s'.pendingMessageId = id ∨ s'.pendingMessageId = 0) ∧
      (es.foldl Flight.observe f).Answers id s'.events.mqttPuback ∧
      (es.foldl Flight.observe f).Answers id s'.pc.unseenPuback := by
  cases hm with
  | collect events m rest hpc hq =>
    intro h
    have heq : (collectMeasurement s.app m).1.awaitingPuback = s.app.awaitingPuback := by
      unfold collectMeasurement
      split <;> rfl
    obtain ⟨id, p, hsent, hout, hcur, hpend, hbits, hunseen⟩ := hl.awaiting (heq ▸ h)
    have hobs : (collectMeasurement s.app m).2.foldl Flight.observe f = f := by
      unfold collectMeasurement
      split <;> rfl
    rw [hobs]
    exact ⟨id, p, hsent, hout, hcur.collect m, hpend, hbits, hunseen⟩
  | accepted p id hpc =>
    intro _
    obtain ⟨hsent, hbits⟩ := hl.handed p id hpc
    have hcur := hc.carried p (by rw [hpc]; rfl)
    have hpend := hb.owner id (by rw [hpc]; rfl)
    exact ⟨id, p, hsent, rfl, ⟨hcur.bdSeq, hcur.birth, hcur.data⟩, hpend, hbits, .inl rfl⟩
  | _ => grind -ring -linarith -order [publishNext_cases]

theorem Linked.of_run {ok : State cfg → List Event → Action → Prop} {s : State cfg}
    {τ : List Event} (hr : (firmware cfg).Run ok s τ) : Linked s (flight τ) := by
  refine hr.invariant_with (J := fun s _ => Control s ∧ Bits s)
    (I := fun s τ => Linked s (flight τ)) (fun hr => ⟨.of_run hr, .of_run hr⟩) ⟨nofun, nofun⟩ ?_
  intro s τ a s' es ⟨hc, hb⟩ hl _ hs
  have hm := step_cases hs
  rw [flight_append]
  exact ⟨hl.move_handed hc hb hm, hl.move_awaiting hc hb hm⟩

/-! ## What is acknowledged and what is removed -/

/-- `handle_puback` acted on a bit that was posted for the message under way. -/
def CreditsFlight (τ : List Event) : Event → Prop
  | .acknowledged ids => ∃ id p, (flight τ).sent = some (id, p) ∧ (flight τ).outstanding ∧
      ids = [id] ∧ id ∈ (flight τ).pubacks
  | _ => True

/-- What is removed is what the NDATA under way carries, and the broker has
acknowledged it. -/
def RemovesAcknowledged (cfg : Config) (τ : List Event) : Event → Prop
  | .removed ms => ∃ id p, (flight τ).sent = some (id, p) ∧ p.type = .ndata ∧
      p.measurements = ms ∧ encodeData cfg ms p.seq p.bdSeq = .ok p ∧ id ∈ (flight τ).pubacks
  | _ => True

theorem handlePuback_credits {s : State cfg} {τ : List Event} {events : Events}
    (hl : Linked s (flight τ)) (hpc : s.pc = .puback events) (he : events.mqttPuback ≠ []) :
    EachEvent (fun es e => CreditsFlight (τ ++ es) e ∧ RemovesAcknowledged cfg (τ ++ es) e)
      (handlePuback s.app events.mqttPuback).2 := by
  unfold handlePuback
  split
  · exact .nil
  rename_i ha
  obtain ⟨id, p, hsent, hout, hcur, -, -, hunseen⟩ := hl.awaiting (by simpa using ha)
  obtain ⟨hids, hack⟩ : events.mqttPuback = [id] ∧ id ∈ (flight τ).pubacks := by
    rw [hpc] at hunseen
    exact hunseen.resolve_left he
  have hcredit : CreditsFlight (τ ++ []) (.acknowledged events.mqttPuback) := by
    rw [List.append_nil]
    exact ⟨id, p, hsent, hout, hids, hack⟩
  split
  · exact .singleton ⟨hcredit, trivial⟩
  rename_i hb
  refine EachEvent.append (τ := [_]) (.singleton ⟨hcredit, trivial⟩) (.singleton ⟨trivial, ?_⟩)
  have htype : p.type = .ndata := by
    rcases hcur.type_cases with ⟨-, hbirth, -⟩ | ⟨htype, -, -⟩
    · exact absurd hbirth (by simpa using hb)
    · exact htype
  obtain ⟨-, -, hle, hms, hpayload⟩ := hcur.data htype
  have hremoved : s.app.batch.removedItems s.app.sentCount = p.measurements := by
    rw [Batch.removedItems, min_eq_left hle, hms]
  refine ⟨id, p, ?_, htype, hremoved.symm, hremoved ▸ hpayload, ?_⟩ <;>
    rw [List.append_nil, flight_append]
  · exact hsent
  · exact hack

/-- Only `handle_puback` acknowledges and removes. -/
theorem Move.acknowledges {s s' : State cfg} {es : List Event} (hm : Move s s' es) :
    (∃ events, s.pc = .puback events ∧ events.mqttPuback ≠ [] ∧
      es = (handlePuback s.app events.mqttPuback).2) ∨
    ∀ e ∈ es, ∀ τ, CreditsFlight τ e ∧ RemovesAcknowledged cfg τ e := by
  cases hm with
  | puback events hpc he => exact .inl ⟨events, hpc, he, rfl⟩
  | collect events m rest =>
    right
    unfold collectMeasurement
    split <;> simp [CreditsFlight, RemovesAcknowledged]
  | update events =>
    right
    unfold updateConnection
    dsimp only
    split <;> split <;> simp [CreditsFlight, RemovesAcknowledged]
  | _ => exact .inr (by simp [CreditsFlight, RemovesAcknowledged])

theorem events_of_run {ok : State cfg → List Event → Action → Prop} {s : State cfg}
    {τ : List Event} (hr : (firmware cfg).Run ok s τ) :
    EachEvent (fun τ e => CreditsFlight τ e ∧ RemovesAcknowledged cfg τ e) τ := by
  refine hr.eachEvent (I := fun s τ => Linked s (flight τ)) Linked.of_run ?_
  intro s τ a s' es hl _ hs
  rcases (step_cases hs).acknowledges with ⟨events, hpc, he, rfl⟩ | hquiet
  · exact handlePuback_credits hl hpc he
  · exact .of_forall fun e he τ₁ => hquiet e he _

/-- **Nothing is dropped that was not acknowledged**, whatever the callbacks do
between two statements of the loop: the buffer is what was added and not yet
removed; while the loop waits for the PUBACK of an NDATA, the first `sent_count`
measurements of the buffer are the ones encoded in it; a PUBACK bit that
`handle_puback` acts on was posted for the message then outstanding, after that
message was handed over; and what `aitsm_batch_remove` takes out is what an
NDATA carried that the broker acknowledged in this session. -/
theorem nothing_unacknowledged_is_removed {s : State cfg} {τ : List Event}
    (hr : (firmware cfg).Run anyStep s τ) :
    removed τ ++ s.app.batch.items = added τ ∧
    (s.app.awaitingPuback → s.app.birthAcknowledged →
      ∃ id p, (flight τ).sent = some (id, p) ∧ (flight τ).outstanding ∧ p.type = .ndata ∧
        s.app.sentCount ≤ s.app.batch.count ∧
        p.measurements = s.app.batch.items.take s.app.sentCount ∧
        encodeData cfg p.measurements p.seq p.bdSeq = .ok p) ∧
    EachEvent CreditsFlight τ ∧ EachEvent (RemovesAcknowledged cfg) τ := by
  have hevents := events_of_run hr
  refine ⟨queue_of_run hr, fun ha hb => ?_, hevents.imp fun _ _ h => h.1,
    hevents.imp fun _ _ h => h.2⟩
  obtain ⟨id, p, hsent, hout, hcur, -, -, -⟩ := (Linked.of_run hr).awaiting ha
  have htype : p.type = .ndata := by
    rcases hcur.type_cases with ⟨-, hbirth, -⟩ | ⟨htype, -, -⟩
    · exact absurd hbirth (by simpa using hb)
    · exact htype
  obtain ⟨-, -, hle, hms, hpayload⟩ := hcur.data htype
  exact ⟨id, p, hsent, hout, htype, hle, hms, hpayload⟩

/-- A configuration that sends each measurement by itself. -/
def singleConfig : Config :=
  { batchSize := 1, batchCapacity := 2, groupId := cString "g", edgeNodeId := cString "e" }

/-- `n` statements of the loop. -/
def statements (n : ℕ) : List Action := List.replicate n .main

/-- A schedule in which one measurement is made, the NBIRTH and then the NDATA are sent, and
both are acknowledged. -/
def acknowledgedBatch : List Action :=
  List.flatten
    [[.network true, .measure ⟨1700000000, 2150, 9000⟩, .measured], statements 9,
      [.mainConnect false], statements 2, [.onConnack], statements 8,
      [.mainTime 0, .main, .mainMessageId 1], statements 2,
      [.mainPublish false, .onPuback 1 false], statements 9, [.mainMessageId 2], statements 2,
      [.mainPublish false, .onPuback 2 false], statements 4]

theorem acknowledgedBatch_replays :
    ((firmware singleConfig).replay anyStep (firmware singleConfig).start []
      acknowledgedBatch).isSome := by
  decide +kernel

theorem nothing_unacknowledged_is_removed_acknowledgedBatch :
    ∃ s τ, removed τ = [⟨1700000000, 2150, 9000⟩] ∧
      removed τ ++ (s : State singleConfig).app.batch.items = added τ ∧
      EachEvent (RemovesAcknowledged singleConfig) τ := by
  obtain ⟨hqueue, -, -, hremoved⟩ :=
    nothing_unacknowledged_is_removed (.of_isSome acknowledgedBatch_replays)
  exact ⟨_, _, by decide +kernel, hqueue, hremoved⟩

end Aitsm.Simple
