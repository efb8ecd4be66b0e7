import Aitsm.Library.System
import Aitsm.Firmware.Sparkplug

/-!
# The application thread of the Simple firmware (`main.c`, `mqtt_client.c`, `batch.c`)

One thread runs the main loop; the callbacks of the LTE and MQTT libraries run
in other threads and touch only `pending_message_id` and the event bits. The
loop is modelled statement by statement: a program counter `Pc` stands before
each access to something another thread can change, and between two such
points the statements of the loop are one step, since nobody can see them apart.

* `State.app` — the variables "only used by the application thread".
* `State.events` — `app_events`. Bits are level flags; for the PUBACK bit the
  model also remembers for which messages it was posted since it was last
  cleared, and the bit is set exactly when that list is not empty.
* `State.helper`, `State.expected` — `mqtt_helper` and the broker behind it: the
  state of the connection, and the message ids whose PUBACK can still arrive.
  Ids are nonzero and not handed out while they are expected.

`Action.main` and its variants are the next statement of the loop (the variants
carry the answer of a library call); all other actions are other threads and
may come at any point.
-/

namespace Aitsm.Simple

open Library Library.Wire

/-! ## Configuration and the batch buffer -/

/-- The Kconfig symbols the loop reads. -/
structure Config where
  /-- `CONFIG_AITSM_BATCH_SIZE` -/
  batchSize : ℕ
  /-- `CONFIG_AITSM_BATCH_CAPACITY` -/
  batchCapacity : ℕ
  /-- `CONFIG_AITSM_SPARKPLUG_GROUP_ID` -/
  groupId : Bytes
  /-- `CONFIG_AITSM_SPARKPLUG_EDGE_NODE_ID` -/
  edgeNodeId : Bytes

/-- `PAYLOAD_SIZE`. -/
def Config.payloadSize (cfg : Config) : ℕ :=
  max (sparkplugNdataMaxSize cfg.batchCapacity) sparkplugNbirthMaxSize

/-- The buffer of `batch.c`, oldest measurement first; it cannot hold more than
its capacity. -/
structure Batch (capacity : ℕ) where
  items : List Measurement
  fits : items.length ≤ capacity

namespace Batch

variable {capacity : ℕ}

/-- `aitsm_batch_reset`, also the initial buffer. -/
def reset : Batch capacity := ⟨[], Nat.zero_le _⟩

/-- `aitsm_batch_count`. -/
def count (b : Batch capacity) : ℕ := b.items.length

/-- `aitsm_batch_add`. -/
def add (b : Batch capacity) (m : Measurement) : Except Errno (Batch capacity) :=
  if h : b.count < capacity then
    .ok ⟨b.items ++ [m], by
      rw [List.length_append]
      exact h⟩
  else .error .enospc

/-- `aitsm_batch_remove`: the `removed` oldest, or all of them. -/
def remove (b : Batch capacity) (removed : ℕ) : Batch capacity :=
  ⟨b.items.drop (min removed b.count), by
    rw [List.length_drop]
    exact le_trans (Nat.sub_le _ _) b.fits⟩

/-- What `aitsm_batch_remove` takes out. -/
def removedItems (b : Batch capacity) (removed : ℕ) : List Measurement :=
  b.items.take (min removed b.count)

theorem removedItems_append_remove (b : Batch capacity) (n : ℕ) :
    b.removedItems n ++ (b.remove n).items = b.items :=
  List.take_append_drop _ _

theorem items_of_add {b b' : Batch capacity} {m : Measurement} (h : b.add m = .ok b') :
    b'.items = b.items ++ [m] := by
  unfold add at h
  split at h
  · obtain rfl := Except.ok.inj h
    rfl
  · cases h

/-- Only a full buffer takes no more. -/
theorem full_of_add {b : Batch capacity} {m : Measurement} {e : Errno}
    (h : b.add m = .error e) : b.count = capacity := by
  unfold add at h
  split at h
  · cases h
  · rename_i hfull
    exact le_antisymm b.fits (not_lt.mp hfull)

end Batch

/-- `aitsm_batch_is_ready`. -/
def batchIsReady (cfg : Config) (b : Batch cfg.batchCapacity) : Bool := cfg.batchSize ≤ b.count

/-! ## State -/

/-- `enum mqtt_state`. -/
inductive MqttState where
  | idle | connecting | connected | disconnecting
  deriving DecidableEq, Repr

/-- The connection as `mqtt_helper` sees it. -/
inductive HelperState where
  | down | connecting | up
  deriving DecidableEq, Repr

/-- `app_events`. -/
structure Events where
  measurement : Bool := false
  network : Bool := false
  mqttConnected : Bool := false
  mqttDisconnected : Bool := false
  /-- the messages `EVENT_MQTT_PUBACK` was posted for since it was last cleared -/
  mqttPuback : List UInt16 := []
  deriving DecidableEq, Repr

/-- Some bit of `EVENT_ALL` is set. -/
def Events.any (e : Events) : Bool :=
  e.measurement || e.network || e.mqttConnected || e.mqttDisconnected || !e.mqttPuback.isEmpty

/-- Where the loop stands. `events` is the local variable of that name. -/
inductive Pc where
  /-- `update_led()` and the evaluation of `next_wakeup()` -/
  | head
  /-- in `k_event_wait_safe`, with its deadline -/
  | sleeping (deadline : Option ℕ)
  /-- in the loop of `collect_measurements` -/
  | collect (events : Events)
  /-- before `handle_puback` -/
  | puback (events : Events)
  /-- before `check_puback_timeout` -/
  | pubackTimeout (events : Events)
  /-- before the call of `aitsm_mqtt_disconnect` -/
  | disconnect (events : Events)
  /-- before the `k_event_post` after it -/
  | postDisconnected (events : Events)
  /-- before the two event branches of `update_connection` -/
  | update (events : Events)
  /-- before its third branch, which asks for the network first; `rescheduled` when
  `schedule_reconnect` ran in this call -/
  | reconnect (rescheduled : Bool)
  /-- and then for the time -/
  | reconnectTime (rescheduled : Bool)
  /-- before the call of `aitsm_mqtt_connect` -/
  | connect
  /-- after it returned 0 -/
  | connectStarted
  /-- before `publish_next` -/
  | publishNext
  /-- before `date_time_now` -/
  | birth
  /-- before the call of `publish` -/
  | publish (p : Publication)
  /-- before `mqtt_helper_msg_id_get` -/
  | messageId (p : Publication)
  /-- before the `atomic_cas` of `aitsm_mqtt_publish` -/
  | compareAndSwap (p : Publication) (id : UInt16)
  /-- before the call of `mqtt_helper_publish` -/
  | send (p : Publication) (id : UInt16)
  /-- before its return; `refused` when the helper was not connected -/
  | sent (p : Publication) (id : UInt16) (refused : Bool)
  deriving DecidableEq

/-- The variables of the application thread. -/
structure App (cfg : Config) where
  mqttState : MqttState := .idle
  reconnectDelaySeconds : ℕ := 5
  reconnectAtMs : ℕ := 0
  birthAcknowledged : Bool := false
  bdSeq : UInt8 := 0
  seq : UInt8 := 0
  awaitingPuback : Bool := false
  pubackDeadlineMs : ℕ := 0
  sentCount : ℕ := 0
  skippedMeasurements : UInt32 := 0
  batch : Batch cfg.batchCapacity := .reset

/-- The whole system. -/
structure State (cfg : Config) where
  pc : Pc := .head
  app : App cfg := {}
  events : Events := {}
  pendingMessageId : UInt16 := 0
  helper : HelperState := .down
  expected : List UInt16 := []
  networkConnected : Bool := false
  measurementQueue : List Measurement := []
  /-- the measurement thread has put a measurement and not yet posted the bit -/
  measuring : Bool := false
  uptimeMs : ℕ := 0

/-- What a run makes visible. -/
inductive Event where
  /-- `aitsm_batch_add` accepted a measurement -/
  | added (m : Measurement)
  /-- `aitsm_batch_remove` took these out -/
  | removed (ms : List Measurement)
  /-- a publication was handed to a connected `mqtt_helper_publish` -/
  | handed (id : UInt16) (p : Publication)
  /-- `aitsm_mqtt_publish` accepted a publication (returned 0) -/
  | accepted (id : UInt16) (p : Publication)
  /-- the broker's PUBACK arrived, with result 0 -/
  | puback (id : UInt16)
  /-- `handle_puback` acted on a bit that was posted for `ids` -/
  | acknowledged (ids : List UInt16)
  /-- `update_connection` acted on `EVENT_MQTT_DISCONNECTED` -/
  | lost
  deriving DecidableEq

/-- The next statement of the loop, or a step of another thread. -/
inductive Action where
  /-- the next statement of the loop -/
  | main
  /-- `date_time_now` leaves this in `now_ms` (0 when it fails) -/
  | mainTime (nowMs : UInt64)
  /-- `mqtt_helper_connect` returns -/
  | mainConnect (failed : Bool)
  /-- `mqtt_helper_msg_id_get` returns -/
  | mainMessageId (id : UInt16)
  /-- `mqtt_helper_publish` returns -/
  | mainPublish (failed : Bool)
  /-- the broker accepts the connection: `on_connack` (a refusal only logs, and
  `on_disconnect` follows) -/
  | onConnack
  /-- the connection or the attempt ends: `on_disconnect` -/
  | onDisconnect
  /-- `on_puback` -/
  | onPuback (id : UInt16) (failed : Bool)
  /-- the PUBACK of an id can no longer arrive -/
  | forget (id : UInt16)
  /-- the LTE callback: `network_handler` -/
  | network (connected : Bool)
  /-- the measurement thread puts a measurement into the queue -/
  | measure (m : Measurement)
  /-- and posts its bit -/
  | measured
  /-- time passes -/
  | tick (ms : ℕ)
  deriving DecidableEq

/-! ## The statements of the loop -/

/-- `PUBACK_TIMEOUT_SECONDS`, in milliseconds. -/
def pubackTimeoutMs : ℕ := 120 * 1000

/-- `RECONNECT_INITIAL_SECONDS`. -/
def reconnectInitialSeconds : ℕ := 5

/-- `RECONNECT_MAX_SECONDS`. -/
def reconnectMaxSeconds : ℕ := 60

/-- `TOPIC_SIZE`. -/
def topicSize : ℕ := 64

/-- `MEASUREMENT_QUEUE_LENGTH`. -/
def measurementQueueLength : ℕ := 8

variable {cfg : Config}

/-- `schedule_reconnect`. -/
def scheduleReconnect (now : ℕ) (app : App cfg) : App cfg :=
  { app with
    mqttState := .idle
    reconnectAtMs := now + app.reconnectDelaySeconds * 1000
    reconnectDelaySeconds := min (app.reconnectDelaySeconds * 2) reconnectMaxSeconds }

/-- `next_wakeup`: `none` is `K_FOREVER`. -/
def nextWakeup (app : App cfg) (networkConnected : Bool) : Option ℕ :=
  if app.awaitingPuback then some app.pubackDeadlineMs
  else if app.mqttState = .idle ∧ networkConnected then some app.reconnectAtMs
  else none

/-- One round of `collect_measurements`, with the measurement it took out of
the queue. -/
def collectMeasurement (app : App cfg) (m : Measurement) : App cfg × List Event :=
  match app.batch.add m with
  | .ok batch => ({ app with batch := batch }, [.added m])
  | .error _ => ({ app with skippedMeasurements := app.skippedMeasurements + 1 }, [])

/-- `handle_puback`, called for a bit that was posted for `ids`. -/
def handlePuback (app : App cfg) (ids : List UInt16) : App cfg × List Event :=
  if !app.awaitingPuback then (app, [])
  else if !app.birthAcknowledged then
    ({ app with awaitingPuback := false, birthAcknowledged := true, seq := 1 },
      [.acknowledged ids])
  else
    ({ app with
        awaitingPuback := false
        batch := app.batch.remove app.sentCount
        seq := sparkplugNextSeq app.seq },
      [.acknowledged ids, .removed (app.batch.removedItems app.sentCount)])

/-- The two event branches of `update_connection`. The flag tells whether
`schedule_reconnect` ran. -/
def updateConnection (now : ℕ) (events : Events) (app : App cfg) :
    App cfg × Bool × List Event :=
  let app :=
    if events.mqttConnected ∧ app.mqttState = .connecting then
      { app with
        mqttState := .connected
        reconnectDelaySeconds := reconnectInitialSeconds }
    else app
  if events.mqttDisconnected ∧ app.mqttState ≠ .idle then
    (scheduleReconnect now
      { app with
        awaitingPuback := false
        birthAcknowledged := false
        bdSeq := sparkplugNextSeq app.bdSeq }, true, [.lost])
  else (app, false, [])

/-- The NBIRTH of this session, if it can be encoded. -/
def encodeBirth (cfg : Config) (nowMs : UInt64) (bdSeq : UInt8) : Except Errno Publication :=
  nbirthPublication cfg.payloadSize nowMs bdSeq

/-- The NDATA for these measurements, if it can be encoded. -/
def encodeData (cfg : Config) (measurements : List Measurement) (seq bdSeq : UInt8) :
    Except Errno Publication :=
  ndataPublication cfg.payloadSize measurements seq bdSeq true

/-- `publish_next` up to the answer of `date_time_now` or the call of
`publish`. -/
def publishNext (app : App cfg) : App cfg × Pc :=
  if app.mqttState ≠ .connected ∨ app.awaitingPuback then (app, .head)
  else if !app.birthAcknowledged then (app, .birth)
  else if batchIsReady cfg app.batch then
    let count := app.batch.count
    match encodeData cfg (app.batch.items.take count) app.seq app.bdSeq with
    | .ok p => ({ app with sentCount := count }, .publish p)
    | .error _ => ({ app with sentCount := count }, .head)
  else (app, .head)

/-- The next statement of the loop, where no library call answers. -/
def mainStep (s : State cfg) : Option (State cfg × List Event) :=
  match s.pc with
  | .head => some ({ s with pc := .sleeping (nextWakeup s.app s.networkConnected) }, [])
  | .sleeping deadline =>
    if s.events.any then some ({ s with pc := .collect s.events, events := {} }, [])
    else
      match deadline with
      | some t => if t ≤ s.uptimeMs then some ({ s with pc := .collect {} }, []) else none
      | none => none
  | .collect events =>
    match s.measurementQueue with
    | [] => some ({ s with pc := .puback events }, [])
    | m :: rest =>
      let r := collectMeasurement s.app m
      some ({ s with app := r.1, measurementQueue := rest }, r.2)
  | .puback events =>
    if events.mqttPuback.isEmpty then some ({ s with pc := .pubackTimeout events }, [])
    else
      let r := handlePuback s.app events.mqttPuback
      some ({ s with pc := .pubackTimeout events, app := r.1 }, r.2)
  | .pubackTimeout events =>
    if !s.app.awaitingPuback ∨ s.uptimeMs < s.app.pubackDeadlineMs then
      some ({ s with pc := .update events }, [])
    else
      some ({ s with
        pc := .disconnect events
        app := { s.app with awaitingPuback := false, mqttState := .disconnecting } }, [])
  | .disconnect events =>
    -- `mqtt_helper_disconnect` returns 0 exactly when there is a connection to close; its
    -- callback may come at once or later
    if s.helper = .up then some ({ s with pc := .update events }, [])
    else some ({ s with pc := .postDisconnected events }, [])
  | .postDisconnected events =>
    some ({ s with
      pc := .update events
      events := { s.events with mqttDisconnected := true } }, [])
  | .update events =>
    let r := updateConnection s.uptimeMs events s.app
    some ({ s with pc := .reconnect r.2.1, app := r.1 }, r.2.2)
  | .reconnect rescheduled =>
    if s.app.mqttState = .idle ∧ s.networkConnected then
      some ({ s with pc := .reconnectTime rescheduled }, [])
    else some ({ s with pc := .publishNext }, [])
  | .reconnectTime _ =>
    if s.app.reconnectAtMs ≤ s.uptimeMs then some ({ s with pc := .connect }, [])
    else some ({ s with pc := .publishNext }, [])
  | .connectStarted =>
    some ({ s with pc := .publishNext, app := { s.app with mqttState := .connecting } }, [])
  | .publishNext =>
    let r := publishNext s.app
    some ({ s with pc := r.2, app := r.1 }, [])
  | .publish p =>
    match sparkplugTopic cfg.groupId cfg.edgeNodeId topicSize p.type with
    | .ok _ => some ({ s with pc := .messageId p }, [])
    | .error _ => some ({ s with pc := .head }, [])
  | .compareAndSwap p id =>
    if s.pendingMessageId = 0 then
      some ({ s with pc := .send p id, pendingMessageId := id }, [])
    else some ({ s with pc := .head }, [])
  | .send p id =>
    if s.helper = .up then
      some ({ s with pc := .sent p id false, expected := id :: s.expected }, [.handed id p])
    else some ({ s with pc := .sent p id true }, [])
  | .connect | .birth | .messageId _ | .sent _ _ _ => none

/-- `date_time_now` answers and the NBIRTH is encoded. -/
def mainTime (s : State cfg) (nowMs : UInt64) : Option (State cfg × List Event) :=
  match s.pc with
  | .birth =>
    match encodeBirth cfg nowMs s.app.bdSeq with
    | .ok p => some ({ s with pc := .publish p }, [])
    | .error _ => some ({ s with pc := .head }, [])
  | _ => none

/-- `mqtt_helper_connect` answers; it succeeds only when there is no
connection. -/
def mainConnect (s : State cfg) (failed : Bool) : Option (State cfg × List Event) :=
  match s.pc with
  | .connect =>
    if failed then
      some ({ s with pc := .publishNext, app := scheduleReconnect s.uptimeMs s.app }, [])
    else if s.helper = .down then
      some ({ s with pc := .connectStarted, helper := .connecting }, [])
    else none
  | _ => none

/-- `mqtt_helper_msg_id_get` answers: a nonzero id that no PUBACK is expected
for. -/
def mainMessageId (s : State cfg) (id : UInt16) : Option (State cfg × List Event) :=
  match s.pc with
  | .messageId p =>
    if id ≠ 0 ∧ id ∉ s.expected then some ({ s with pc := .compareAndSwap p id }, []) else none
  | _ => none

/-- `mqtt_helper_publish` answers; it fails when it was called without a
connection. -/
def mainPublish (s : State cfg) (failed : Bool) : Option (State cfg × List Event) :=
  match s.pc with
  | .sent p id refused =>
    if failed then some ({ s with pc := .head, pendingMessageId := 0 }, [])
    else if refused then none
    else
      some ({ s with
        pc := .head
        app := { s.app with
          awaitingPuback := true
          pubackDeadlineMs := s.uptimeMs + pubackTimeoutMs } }, [.accepted id p])
  | _ => none

/-! ## The other threads -/

/-- `on_connack`, for an accepted connection. -/
def onConnack (s : State cfg) : Option (State cfg × List Event) :=
  if s.helper = .connecting then
    some ({ s with helper := .up, events := { s.events with mqttConnected := true } }, [])
  else none

/-- `on_disconnect`. -/
def onDisconnect (s : State cfg) : Option (State cfg × List Event) :=
  if s.helper = .down then none
  else
    some ({ s with
      helper := .down
      pendingMessageId := 0
      events := { s.events with mqttDisconnected := true } }, [])

/-- `on_puback`. -/
def onPuback (s : State cfg) (id : UInt16) (failed : Bool) : Option (State cfg × List Event) :=
  if id ∈ s.expected then
    if failed then some (s, [])
    else if s.pendingMessageId = id then
      some ({ s with
        pendingMessageId := 0
        events := { s.events with mqttPuback := s.events.mqttPuback ++ [id] } }, [.puback id])
    else some (s, [.puback id])
  else none

/-- The measurement thread puts a measurement; a full queue drops it. -/
def measure (s : State cfg) (m : Measurement) : Option (State cfg × List Event) :=
  if s.measuring then none
  else if s.measurementQueue.length < measurementQueueLength then
    some ({ s with measurementQueue := s.measurementQueue ++ [m], measuring := true }, [])
  else some (s, [])

/-- One action. -/
def step (s : State cfg) : Action → Option (State cfg × List Event)
  | .main => mainStep s
  | .mainTime nowMs => mainTime s nowMs
  | .mainConnect failed => mainConnect s failed
  | .mainMessageId id => mainMessageId s id
  | .mainPublish failed => mainPublish s failed
  | .onConnack => onConnack s
  | .onDisconnect => onDisconnect s
  | .onPuback id failed => onPuback s id failed
  | .forget id => some ({ s with expected := s.expected.filter (· ≠ id) }, [])
  | .network connected =>
    some ({ s with
      networkConnected := connected
      events := { s.events with network := true } }, [])
  | .measure m => measure s m
  | .measured =>
    if s.measuring then
      some ({ s with measuring := false, events := { s.events with measurement := true } }, [])
    else none
  | .tick ms => some ({ s with uptimeMs := s.uptimeMs + ms }, [])

/-- The Simple firmware, from the start of the main loop. -/
def firmware (cfg : Config) : System (State cfg) Action Event where
  start := {}
  step := step

/-! ## What one step can do

`step` computes; `Move` says once, branch by branch, what can come out, so that
the proofs about runs need not take `step` apart again. -/

/-- Everything one step can do. -/
inductive Move (s : State cfg) : State cfg → List Event → Prop where
  | head (hpc : s.pc = .head) :
    Move s { s with pc := .sleeping (nextWakeup s.app s.networkConnected) } []
  | wake (deadline) (hpc : s.pc = .sleeping deadline) (hany : s.events.any) :
    Move s { s with pc := .collect s.events, events := {} } []
  | timeout (t) (hpc : s.pc = .sleeping (some t)) (hany : s.events.any = false)
      (ht : t ≤ s.uptimeMs) :
    Move s { s with pc := .collect {} } []
  | collected (events) (hpc : s.pc = .collect events) (hq : s.measurementQueue = []) :
    Move s { s with pc := .puback events } []
  | collect (events m rest) (hpc : s.pc = .collect events)
      (hq : s.measurementQueue = m :: rest) :
    Move s { s with app := (collectMeasurement s.app m).1, measurementQueue := rest }
      (collectMeasurement s.app m).2
  | noPuback (events) (hpc : s.pc = .puback events) (he : events.mqttPuback = []) :
    Move s { s with pc := .pubackTimeout events } []
  | puback (events) (hpc : s.pc = .puback events) (he : events.mqttPuback ≠ []) :
    Move s { s with
        pc := .pubackTimeout events
        app := (handlePuback s.app events.mqttPuback).1 }
      (handlePuback s.app events.mqttPuback).2
  | noTimeout (events) (hpc : s.pc = .pubackTimeout events)
      (hd : s.app.awaitingPuback = false ∨ s.uptimeMs < s.app.pubackDeadlineMs) :
    Move s { s with pc := .update events } []
  | pubackTimeout (events) (hpc : s.pc = .pubackTimeout events) (ha : s.app.awaitingPuback)
      (hd : s.app.pubackDeadlineMs ≤ s.uptimeMs) :
    Move s { s with
        pc := .disconnect events
        app := { s.app with awaitingPuback := false, mqttState := .disconnecting } } []
  | disconnect (events) (hpc : s.pc = .disconnect events) (hh : s.helper = .up) :
    Move s { s with pc := .update events } []
  | noDisconnect (events) (hpc : s.pc = .disconnect events) (hh : s.helper ≠ .up) :
    Move s { s with pc := .postDisconnected events } []
  | postDisconnected (events) (hpc : s.pc = .postDisconnected events) :
    Move s { s with
        pc := .update events
        events := { s.events with mqttDisconnected := true } } []
  | update (events) (hpc : s.pc = .update events) :
    Move s { s with
        pc := .reconnect (updateConnection s.uptimeMs events s.app).2.1
        app := (updateConnection s.uptimeMs events s.app).1 }
      (updateConnection s.uptimeMs events s.app).2.2
  | reconnect (r) (hpc : s.pc = .reconnect r) (hidle : s.app.mqttState = .idle)
      (hn : s.networkConnected) :
    Move s { s with pc := .reconnectTime r } []
  | noReconnect (hpc : (∃ r, s.pc = .reconnect r) ∨ ∃ r, s.pc = .reconnectTime r) :
    Move s { s with pc := .publishNext } []
  | reconnectTime (r) (hpc : s.pc = .reconnectTime r) (ht : s.app.reconnectAtMs ≤ s.uptimeMs) :
    Move s { s with pc := .connect } []
  | connect (hpc : s.pc = .connect) (hh : s.helper = .down) :
    Move s { s with pc := .connectStarted, helper := .connecting } []
  | connectFailed (hpc : s.pc = .connect) :
    Move s { s with pc := .publishNext, app := scheduleReconnect s.uptimeMs s.app } []
  | connectStarted (hpc : s.pc = .connectStarted) :
    Move s { s with pc := .publishNext, app := { s.app with mqttState := .connecting } } []
  | publishNext (hpc : s.pc = .publishNext) :
    Move s { s with pc := (publishNext s.app).2, app := (publishNext s.app).1 } []
  | birth (nowMs p) (hpc : s.pc = .birth) (hp : encodeBirth cfg nowMs s.app.bdSeq = .ok p) :
    Move s { s with pc := .publish p } []
  | giveUp (hpc : s.pc = .birth ∨ (∃ p, s.pc = .publish p) ∨
      ∃ p id, s.pc = .compareAndSwap p id ∧ s.pendingMessageId ≠ 0) :
    Move s { s with pc := .head } []
  | publish (p) (hpc : s.pc = .publish p) : Move s { s with pc := .messageId p } []
  | messageId (p id) (hpc : s.pc = .messageId p) (hid : id ≠ 0) (hx : id ∉ s.expected) :
    Move s { s with pc := .compareAndSwap p id } []
  | swap (p id) (hpc : s.pc = .compareAndSwap p id) (hp : s.pendingMessageId = 0) :
    Move s { s with pc := .send p id, pendingMessageId := id } []
  | send (p id) (hpc : s.pc = .send p id) (hh : s.helper = .up) :
    Move s { s with pc := .sent p id false, expected := id :: s.expected } [.handed id p]
  | refused (p id) (hpc : s.pc = .send p id) (hh : s.helper ≠ .up) :
    Move s { s with pc := .sent p id true } []
  | sendFailed (p id r) (hpc : s.pc = .sent p id r) :
    Move s { s with pc := .head, pendingMessageId := 0 } []
  | accepted (p id) (hpc : s.pc = .sent p id false) :
    Move s { s with
        pc := .head
        app := { s.app with
          awaitingPuback := true
          pubackDeadlineMs := s.uptimeMs + pubackTimeoutMs } } [.accepted id p]
  | onConnack (hh : s.helper = .connecting) :
    Move s { s with helper := .up, events := { s.events with mqttConnected := true } } []
  | onDisconnect (hh : s.helper ≠ .down) :
    Move s { s with
        helper := .down
        pendingMessageId := 0
        events := { s.events with mqttDisconnected := true } } []
  | onPuback (id) (hx : id ∈ s.expected) (hp : s.pendingMessageId = id) :
    Move s { s with
        pendingMessageId := 0
        events := { s.events with mqttPuback := s.events.mqttPuback ++ [id] } } [.puback id]
  | ignoredPuback (id) (hx : id ∈ s.expected) (hp : s.pendingMessageId ≠ id) :
    Move s s [.puback id]
  | forget (id) : Move s { s with expected := s.expected.filter (· ≠ id) } []
  | network (connected) :
    Move s { s with
        networkConnected := connected
        events := { s.events with network := true } } []
  | measure (m) :
    Move s { s with measurementQueue := s.measurementQueue ++ [m], measuring := true } []
  | measured :
    Move s { s with measuring := false, events := { s.events with measurement := true } } []
  | tick (ms) : Move s { s with uptimeMs := s.uptimeMs + ms } []
  /-- a refused PUBACK, or a measurement that found the queue full -/
  | nothing : Move s s []

theorem mainStep_cases {s s' : State cfg} {es : List Event} (h : mainStep s = some (s', es)) :
    Move s s' es := by
  unfold mainStep at h
  split at h
  all_goals try split at h
  all_goals try split at h
  all_goals try split at h
  all_goals try cases h
  all_goals
    grind -ring -linarith -order [Move.head, Move.wake, Move.timeout, Move.collected,
      Move.collect, Move.noPuback, Move.puback, Move.noTimeout, Move.pubackTimeout,
      Move.disconnect, Move.noDisconnect, Move.postDisconnected, Move.update, Move.reconnect,
      Move.noReconnect, Move.reconnectTime, Move.connectStarted, Move.publishNext, Move.giveUp,
      Move.publish, Move.swap, Move.send, Move.refused]

/-- Every step is one of the moves. -/
theorem step_cases {s s' : State cfg} {es : List Event} {a : Action}
    (h : step s a = some (s', es)) : Move s s' es := by
  cases a with
  | main => exact mainStep_cases h
  | mainTime nowMs => grind -ring -linarith -order [step, mainTime, Move.birth, Move.giveUp]
  | mainConnect failed =>
    grind -ring -linarith -order [step, mainConnect, Move.connect, Move.connectFailed]
  | mainMessageId id => grind -ring -linarith -order [step, mainMessageId, Move.messageId]
  | mainPublish failed =>
    grind -ring -linarith -order [step, mainPublish, Move.sendFailed, Move.accepted]
  | onConnack => grind -ring -linarith -order [step, onConnack, Move.onConnack]
  | onDisconnect => grind -ring -linarith -order [step, onDisconnect, Move.onDisconnect]
  | onPuback id failed =>
    grind -ring -linarith -order [step, onPuback, Move.onPuback, Move.ignoredPuback, Move.nothing]
  | forget id =>
    obtain ⟨rfl, rfl⟩ := Prod.mk.inj (Option.some.inj h)
    exact .forget id
  | network connected =>
    obtain ⟨rfl, rfl⟩ := Prod.mk.inj (Option.some.inj h)
    exact .network connected
  | measure m => grind -ring -linarith -order [step, measure, Move.measure, Move.nothing]
  | measured => grind -ring -linarith -order [step, Move.measured]
  | tick ms =>
    obtain ⟨rfl, rfl⟩ := Prod.mk.inj (Option.some.inj h)
    exact .tick ms

end Aitsm.Simple
