import Aitsm.Simple.Loop

/-!
# What the flags, the bits and the program counter say about each other

Four mode flags (`mqtt_state`, `awaiting_puback`, `birth_acknowledged`, the
helper's state), `pending_message_id` and the event bits are changed at
different places by different threads. The invariants here relate them in every
reachable state, whatever the other threads do:

* `Control` — the flags only the application thread writes, and the message it
  carries from `publish_next` to `mqtt_helper_publish`.
* `Bits` — `pending_message_id` and the bits the callbacks set. The point of it
  all is `Bits.once` and `Bits.onceUnseen`: while a message waits for its
  PUBACK, a PUBACK bit can only stem from that message.

A bit counts as *unseen* while it is in the snapshot of the current iteration
and the code that reads it has not run yet.
-/

namespace Aitsm.Simple

open Library Library.Wire

variable {cfg : Config}

namespace Pc

/-- Between the wake-up and `update_connection`. -/
def early : Pc → Bool
  | .collect _ | .puback _ | .pubackTimeout _ | .disconnect _ | .postDisconnected _
  | .update _ => true
  | _ => false

/-- After `update_connection` and not yet inside `aitsm_mqtt_publish`. -/
def late : Pc → Bool
  | .reconnect _ | .reconnectTime _ | .connect | .connectStarted | .publishNext | .birth
  | .publish _ | .messageId _ | .compareAndSwap _ _ => true
  | _ => false

/-- On the way to `aitsm_mqtt_connect`, or just behind it. -/
def starting : Pc → Bool
  | .reconnectTime _ | .connect | .connectStarted => true
  | _ => false

/-- Inside `check_puback_timeout`, with the state already changed. -/
def closing : Pc → Bool
  | .disconnect _ | .postDisconnected _ => true
  | _ => false

/-- Inside `publish_next`, with a message to send. -/
def publishing : Pc → Bool
  | .birth | .publish _ | .messageId _ | .compareAndSwap _ _ | .send _ _ | .sent _ _ _ => true
  | _ => false

/-- The message on its way to the helper. -/
def publication : Pc → Option Publication
  | .publish p | .messageId p | .compareAndSwap p _ | .send p _ | .sent p _ _ => some p
  | _ => none

/-- The id `mqtt_helper_msg_id_get` chose. -/
def chosen : Pc → Option UInt16
  | .compareAndSwap _ id | .send _ id | .sent _ id _ => some id
  | _ => none

/-- The id `aitsm_mqtt_publish` has put into `pending_message_id`. -/
def owner : Pc → Option UInt16
  | .send _ id | .sent _ id _ => some id
  | _ => none

/-- `mqtt_helper_publish` is about to be called, or was called in vain. -/
def unsent : Pc → Bool
  | .send _ _ | .sent _ _ true => true
  | _ => false

/-- A chosen id that has not been handed over. -/
def unhanded : Pc → Option UInt16
  | .compareAndSwap _ id | .send _ id => some id
  | _ => none

/-- The snapshot that `update_connection` has not seen yet. -/
def unseen : Pc → Events
  | .collect e | .puback e | .pubackTimeout e | .disconnect e | .postDisconnected e
  | .update e => e
  | _ => {}

/-- The messages of a PUBACK bit that `handle_puback` has not seen yet. -/
def unseenPuback : Pc → List UInt16
  | .collect e | .puback e => e.mqttPuback
  | _ => []

end Pc

attribute [local grind] Pc.early Pc.late Pc.starting Pc.closing Pc.publishing Pc.publication
  Pc.chosen Pc.owner Pc.unsent Pc.unhanded Pc.unseen Pc.unseenPuback

attribute [local grind] collectMeasurement handlePuback updateConnection scheduleReconnect
  publishNext Events.any

/-! ## The application's own variables -/

/-- `p` is the message `publish_next` makes of the variables as they stand. -/
structure Current (app : App cfg) (p : Publication) : Prop where
  bdSeq : p.bdSeq = app.bdSeq
  birth : p.type = .nbirth → app.birthAcknowledged = false ∧ p.seq = 0 ∧
    ∃ nowMs, encodeBirth cfg nowMs app.bdSeq = .ok p
  data : p.type = .ndata → app.birthAcknowledged ∧ p.seq = app.seq ∧
    app.sentCount ≤ app.batch.count ∧ p.measurements = app.batch.items.take app.sentCount ∧
    encodeData cfg p.measurements p.seq p.bdSeq = .ok p

theorem current_of_encodeBirth {app : App cfg} {nowMs : UInt64} {p : Publication}
    (hb : app.birthAcknowledged = false) (h : encodeBirth cfg nowMs app.bdSeq = .ok p) :
    Current app p := by
  obtain ⟨htype, hseq, hbd, -⟩ := nbirthPublication_ok h
  refine ⟨hbd, fun _ => ⟨hb, hseq, nowMs, h⟩, fun ht => ?_⟩
  rw [htype] at ht
  cases ht

theorem current_of_encodeData {app : App cfg} {p : Publication}
    (hb : app.birthAcknowledged) (hc : app.sentCount = app.batch.count)
    (h : encodeData cfg (app.batch.items.take app.sentCount) app.seq app.bdSeq = .ok p) :
    Current app p := by
  obtain ⟨htype, hseq, hbd, hms⟩ := ndataPublication_ok h
  refine ⟨hbd, fun ht => ?_, fun _ => ⟨hb, hseq, hc.le, hms, ?_⟩⟩
  · rw [htype] at ht
    cases ht
  · rwa [hms, hseq, hbd]

/-- Which kind of message is sent depends on `birth_acknowledged`. -/
theorem Current.type_cases {app : App cfg} {p : Publication} (h : Current app p) :
    (p.type = .nbirth ∧ app.birthAcknowledged = false ∧ p.seq = 0) ∨
    (p.type = .ndata ∧ app.birthAcknowledged ∧ p.seq = app.seq) := by
  rcases ht : p.type with _ | _
  · exact .inl ⟨rfl, (h.birth ht).1, (h.birth ht).2.1⟩
  · exact .inr ⟨rfl, (h.data ht).1, (h.data ht).2.1⟩

/-- New measurements go behind the ones that were sent. -/
theorem Current.collect {app : App cfg} {p : Publication} (h : Current app p)
    (m : Measurement) : Current (collectMeasurement app m).1 p := by
  rw [collectMeasurement]
  rcases hadd : app.batch.add m with err | batch
  · exact ⟨h.bdSeq, h.birth, h.data⟩
  · have hitems := Batch.items_of_add hadd
    refine ⟨h.bdSeq, h.birth, fun ht => ?_⟩
    obtain ⟨hb, hs, hle, hm, he⟩ := h.data ht
    refine ⟨hb, hs, ?_, ?_, he⟩
    · simp only [Batch.count, hitems, List.length_append]
      exact le_trans hle (Nat.le_add_right _ _)
    · simp only [hitems]
      rw [List.take_append_of_le_length hle]
      exact hm

/-- What `publish_next` can come to. -/
theorem publishNext_cases (app : App cfg) :
    publishNext app = (app, .head) ∨
    (app.mqttState = .connected ∧ app.awaitingPuback = false ∧ app.birthAcknowledged = false ∧
      publishNext app = (app, .birth)) ∨
    (app.mqttState = .connected ∧ app.awaitingPuback = false ∧ app.birthAcknowledged ∧
      ∃ p, encodeData cfg (app.batch.items.take app.batch.count) app.seq app.bdSeq = .ok p ∧
        publishNext app = ({ app with sentCount := app.batch.count }, .publish p)) ∨
    (app.mqttState = .connected ∧ app.awaitingPuback = false ∧ app.birthAcknowledged ∧
      publishNext app = ({ app with sentCount := app.batch.count }, .head)) := by
  unfold publishNext
  split
  · exact .inl rfl
  split
  · grind -ring -linarith -order
  split
  · dsimp only
    split <;> grind -ring -linarith -order
  · exact .inl rfl

/-- What only the application thread changes. -/
structure Control (s : State cfg) : Prop where
  awaiting : s.app.awaitingPuback → s.app.mqttState = .connected
  starting : s.pc.starting → s.app.mqttState = .idle
  closing : s.pc.closing → s.app.mqttState = .disconnecting
  publishing : s.pc.publishing → s.app.mqttState = .connected ∧ s.app.awaitingPuback = false
  birth : s.pc = .birth → s.app.birthAcknowledged = false
  carried : ∀ p, s.pc.publication = some p → Current s.app p
  nonzero : 0 ∉ s.expected
  chosen : ∀ id, s.pc.chosen = some id → id ≠ 0
  fresh : ∀ id, s.pc.unhanded = some id → id ∉ s.expected

namespace Control

variable {s s' : State cfg} {es : List Event}

theorem move_carried (hc : Control s) (hm : Move s s' es) :
    ∀ p, s'.pc.publication = some p → Current s'.app p := by
  have hcarried := hc.carried
  cases hm with
  | birth nowMs p hpc hp =>
    intro q hq
    obtain rfl := Option.some.inj hq
    exact current_of_encodeBirth (hc.birth hpc) hp
  | publishNext hpc =>
    intro q hq
    rcases publishNext_cases s.app with h | ⟨-, -, -, h⟩ | ⟨-, -, hb, p, hp, h⟩ | ⟨-, -, -, h⟩ <;>
      rw [h] at hq ⊢
    · cases hq
    · cases hq
    · obtain rfl := Option.some.inj hq
      exact current_of_encodeData hb rfl hp
    · cases hq
  | _ => grind -ring -linarith -order

theorem move (hc : Control s) (hm : Move s s' es) : Control s' := by
  have hcarried := move_carried hc hm
  obtain ⟨h1, h2, h3, h4, h5, -, h7, h8, h9⟩ := hc
  refine ⟨?_, ?_, ?_, ?_, ?_, hcarried, ?_, ?_, ?_⟩ <;> cases hm <;>
    grind -ring -linarith -order

theorem start : Control (firmware cfg).start := by
  constructor <;> simp [firmware, Pc.starting, Pc.closing, Pc.publishing, Pc.publication,
    Pc.chosen, Pc.unhanded]

end Control

theorem Control.of_run {ok : State cfg → List Event → Action → Prop} {s : State cfg}
    {τ : List Event} (hr : (firmware cfg).Run ok s τ) : Control s :=
  hr.invariant_state Control.start fun _ _ _ _ _ hc _ hs => hc.move (step_cases hs)

/-! ## `pending_message_id` and the bits -/

/-- What the callbacks change, too. -/
structure Bits (s : State cfg) : Prop where
  /-- without a connection nothing is pending, but for a message that cannot be sent -/
  down : s.helper ≠ .up → s.pendingMessageId = 0 ∨ s.pc.unsent
  owner : ∀ id, s.pc.owner = some id → s.pendingMessageId = id ∨ s.pendingMessageId = 0
  disconnected : s.events.mqttDisconnected → s.pendingMessageId = 0 ∨ s.pc.unsent
  unseenDisconnected : s.pc.unseen.mqttDisconnected → s.pendingMessageId = 0
  postDisconnected : (∃ e, s.pc = .postDisconnected e) → s.pendingMessageId = 0
  connectStarted : s.pc = .connectStarted → s.pendingMessageId = 0
  connectedDown : s.events.mqttDisconnected → s.app.mqttState = .connected → s.helper = .down
  connectingDown : s.events.mqttDisconnected → s.pc.early → s.app.mqttState = .connecting →
    s.helper = .down
  /-- what is pending is waited for, or the connection is being closed -/
  waiting : s.pendingMessageId ≠ 0 → s.app.mqttState = .disconnecting ∨
    s.app.mqttState = .connected ∧ (s.app.awaitingPuback ∨ s.pc.owner.isSome)
  pubackEarly : s.events.mqttPuback ≠ [] → s.pc.early →
    s.app.mqttState = .disconnecting ∨ s.app.mqttState = .connected ∧ s.app.awaitingPuback
  pubackLate : s.events.mqttPuback ≠ [] → s.pc.late → s.app.mqttState = .connected →
    s.app.awaitingPuback
  pubackOwner : ∀ id, s.pc.owner = some id →
    s.events.mqttPuback = [] ∨ s.events.mqttPuback = [id] ∧ s.pendingMessageId = 0
  pubackUnhanded : ∀ id, s.pc.unhanded = some id → s.events.mqttPuback = []
  /-- a PUBACK bit that is set while a message waits used up `pending_message_id` -/
  once : s.app.awaitingPuback → s.pendingMessageId ≠ 0 →
    s.events.mqttPuback = [] ∧ s.pc.unseenPuback = []
  /-- and it can do so only once -/
  onceUnseen : s.app.awaitingPuback → s.pc.unseenPuback ≠ [] → s.events.mqttPuback = []

theorem Pc.owner_of_early {pc : Pc} (h : pc.early) : pc.owner = none := by
  cases pc <;> grind -ring -linarith -order

theorem Pc.owner_of_late {pc : Pc} (h : pc.late) : pc.owner = none := by
  cases pc <;> grind -ring -linarith -order

theorem Pc.owner_of_unhanded {pc : Pc} {id : UInt16} (h : pc.unhanded = some id) :
    pc.publishing ∧ (pc.owner = some id ∨ pc.owner = none) := by
  cases pc <;> grind -ring -linarith -order

attribute [local grind →] Pc.owner_of_early Pc.owner_of_late Pc.owner_of_unhanded

attribute [local grind cases eager] Control Bits

namespace Bits

section

variable {s s' : State cfg} {es : List Event} (hc : Control s) (hb : Bits s) (hm : Move s s' es)
include hc hb hm

theorem move_down : s'.helper ≠ .up → s'.pendingMessageId = 0 ∨ s'.pc.unsent := by
  cases hm <;> grind -ring -linarith -order

theorem move_owner : ∀ id, s'.pc.owner = some id →
    s'.pendingMessageId = id ∨ s'.pendingMessageId = 0 := by
  cases hm <;> grind -ring -linarith -order

theorem move_disconnected : s'.events.mqttDisconnected → s'.pendingMessageId = 0 ∨ s'.pc.unsent := by
  cases hm <;> grind -ring -linarith -order

theorem move_unseenDisconnected : s'.pc.unseen.mqttDisconnected → s'.pendingMessageId = 0 := by
  cases hm <;> grind -ring -linarith -order

theorem move_postDisconnected : (∃ e, s'.pc = .postDisconnected e) → s'.pendingMessageId = 0 := by
  cases hm <;> grind -ring -linarith -order

theorem move_connectStarted : s'.pc = .connectStarted → s'.pendingMessageId = 0 := by
  cases hm <;> grind -ring -linarith -order

theorem move_connectedDown : s'.events.mqttDisconnected → s'.app.mqttState = .connected →
    s'.helper = .down := by
  cases hm <;> grind -ring -linarith -order

theorem move_connectingDown : s'.events.mqttDisconnected → s'.pc.early →
    s'.app.mqttState = .connecting → s'.helper = .down := by
  cases hm <;> grind -ring -linarith -order

theorem move_waiting : s'.pendingMessageId ≠ 0 → s'.app.mqttState = .disconnecting ∨
    s'.app.mqttState = .connected ∧ (s'.app.awaitingPuback ∨ s'.pc.owner.isSome) := by
  cases hm <;> grind -ring -linarith -order

theorem move_pubackEarly : s'.events.mqttPuback ≠ [] → s'.pc.early →
    s'.app.mqttState = .disconnecting ∨ s'.app.mqttState = .connected ∧ s'.app.awaitingPuback := by
  cases hm <;> grind -ring -linarith -order

theorem move_pubackLate : s'.events.mqttPuback ≠ [] → s'.pc.late → s'.app.mqttState = .connected →
    s'.app.awaitingPuback := by
  cases hm <;> grind -ring -linarith -order

theorem move_pubackOwner : ∀ id, s'.pc.owner = some id →
    s'.events.mqttPuback = [] ∨ s'.events.mqttPuback = [id] ∧ s'.pendingMessageId = 0 := by
  cases hm <;> grind -ring -linarith -order

theorem move_pubackUnhanded : ∀ id, s'.pc.unhanded = some id → s'.events.mqttPuback = [] := by
  cases hm <;> grind -ring -linarith -order

theorem move_once : s'.app.awaitingPuback → s'.pendingMessageId ≠ 0 →
    s'.events.mqttPuback = [] ∧ s'.pc.unseenPuback = [] := by
  cases hm <;> grind -ring -linarith -order

theorem move_onceUnseen : s'.app.awaitingPuback → s'.pc.unseenPuback ≠ [] → s'.events.mqttPuback = [] := by
  cases hm <;> grind -ring -linarith -order

theorem move : Bits s' :=
  { down := move_down hc hb hm
    owner := move_owner hc hb hm
    disconnected := move_disconnected hc hb hm
    unseenDisconnected := move_unseenDisconnected hc hb hm
    postDisconnected := move_postDisconnected hc hb hm
    connectStarted := move_connectStarted hc hb hm
    connectedDown := move_connectedDown hc hb hm
    connectingDown := move_connectingDown hc hb hm
    waiting := move_waiting hc hb hm
    pubackEarly := move_pubackEarly hc hb hm
    pubackLate := move_pubackLate hc hb hm
    pubackOwner := move_pubackOwner hc hb hm
    pubackUnhanded := move_pubackUnhanded hc hb hm
    once := move_once hc hb hm
    onceUnseen := move_onceUnseen hc hb hm }

end

theorem start : Bits (firmware cfg).start := by
  constructor <;> simp [firmware, Pc.owner, Pc.unseen, Pc.early, Pc.late, Pc.unhanded,
    Pc.unseenPuback]

end Bits

theorem Bits.of_run {ok : State cfg → List Event → Action → Prop} {s : State cfg}
    {τ : List Event} (hr : (firmware cfg).Run ok s τ) : Bits s :=
  hr.invariant_with (J := fun s _ => Control s) (I := fun s _ => Bits s) Control.of_run
    Bits.start fun _ _ _ _ _ hc hb _ hs => hb.move hc (step_cases hs)

end Aitsm.Simple
