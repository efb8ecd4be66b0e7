import Aitsm.Library.System
import Aitsm.Original.Transmission

/-!
# The MQTT client (`mqtt_client.c`)

Three threads meet in this module: the system workqueue, which calls the API
(`caller`), the client's own workqueue (`worker`), and the poll thread of
`mqtt_helper`, which runs the callbacks (`poll`). Each has a program counter
that stands before its next access to something another thread can see. Every
atomic access is one step, every region under `publish_state_lock` is one step,
and so is every operation on a work item or timer; the region of
`mqtt_on_disconnect` is even divided, because its flags are also read without
the lock.

* `helper`, `expected` — `mqtt_helper` and the broker behind it: the state of
  the connection, and the message ids whose PUBACK can still arrive. Message
  ids are nonzero and not handed out while they are expected.
* Tokens and generations are counted without wrapping around; the token the
  application sees is the count modulo 2³².
* The client is initialized, as it is before LTE is started.
-/

namespace Aitsm.Original

open Library Library.Wire

/-- `enum aitsm_app_event_type`, with the values somebody reads. A publish
result carries the token as a count. -/
inductive AppEvent where
  | lteSearching
  | lteConnected
  | lteDisconnected
  | mqttConnected
  | mqttDisconnected
  | mqttError
  | mqttPublishResult (serial : ℕ) (result : ℤ)
  deriving DecidableEq

/-- What `aitsm_mqtt_publish_payload` copies. -/
structure Message where
  topic : Bytes
  payload : Bytes
  deriving DecidableEq

namespace Client

/-- The work items of `mqtt_workqueue`. -/
inductive Job where
  | connect
  | publish
  | disconnect
  | pubackTimeout
  deriving DecidableEq

/-- The connection as `mqtt_helper` sees it; `refused` is a CONNACK with an
error, after which only `on_disconnect` can follow. -/
inductive Helper where
  | down
  | connecting
  | refused
  | up
  deriving DecidableEq

/-- Where `mqtt_on_disconnect` stands. It holds the lock from the first to the
third of these. -/
inductive Closing where
  /-- before `helper_connected` is cleared -/
  | connected
  /-- before `connect_pending` is cleared -/
  | pending
  /-- before `active_publish_id` is cleared, the timer cancelled and `generation` advanced -/
  | publish
  /-- before DISCONNECTED is posted -/
  | post
  deriving DecidableEq

/-- Where the system workqueue stands in the client. -/
inductive Caller where
  | idle
  /-- `aitsm_mqtt_publish_payload`, before `lte_available` is read -/
  | publishLte (m : Message)
  | publishConnected (m : Message)
  | publishTake (m : Message)
  | publishActive (m : Message)
  /-- a message is active; before `publish_pending` is cleared again -/
  | publishRelease
  | publishCopy (m : Message)
  | publishGeneration
  | publishToken
  | publishSubmit
  /-- the submission failed; before `publish_pending` is cleared again -/
  | publishNotSubmitted (err : Errno)
  /-- `aitsm_mqtt_connect`, before `lte_available` is read -/
  | connectLte
  | connectConnected
  | connectTake
  | connectSubmit
  /-- the submission failed; before `connect_pending` is cleared again -/
  | connectNotSubmitted (err : Errno)
  /-- `aitsm_mqtt_set_lte_available` -/
  | lteSet
  | lteClear
  /-- `aitsm_mqtt_disconnect`, before its region under the lock -/
  | invalidate
  | disconnectSubmit
  deriving DecidableEq

/-- A publication the worker is about to write, or is writing. -/
structure Write where
  id : UInt16
  generation : ℕ
  serial : ℕ
  duplicate : Bool
  deriving DecidableEq

/-- Where the client's workqueue stands. -/
inductive Worker where
  | idle
  /-- `mqtt_connect_work_handler`, before `lte_available` is read -/
  | connectLte
  /-- before `connect_pending` is cleared -/
  | connectRelease
  | connectGeneration
  | connectSetGeneration (generation : ℕ)
  /-- before `mqtt_helper_connect` -/
  | connectHelper (generation : ℕ)
  /-- it failed; before `connect_pending` is cleared -/
  | connectFailed (generation : ℕ)
  | connectErrorLte (generation : ℕ)
  | connectErrorGeneration (generation : ℕ)
  | connectPostError
  /-- `mqtt_publish_work_handler`, before its region under the lock -/
  | publish
  /-- before `publish_pending` is cleared, at the end of either handler -/
  | release
  /-- before `mqtt_helper_publish` -/
  | send (w : Write)
  /-- before it returns -/
  | sending (w : Write)
  /-- before the region of `publish_sent` -/
  | sent (w : Write) (err : ℤ)
  /-- before the result of a failed write is posted -/
  | postFailed (serial : ℕ) (err : ℤ)
  /-- `mqtt_puback_timeout_handler`, before `publish_pending` is taken -/
  | timeoutTake
  | timeoutId
  | timeoutPublishGeneration (id : UInt16)
  | timeoutToken (id : UInt16) (generation : ℕ)
  | timeoutLte (w : Write)
  | timeoutConnected (w : Write)
  | timeoutGeneration (w : Write)
  /-- `mqtt_disconnect_work_handler`, before `helper_connected` is read -/
  | disconnect
  /-- before `mqtt_helper_disconnect` -/
  | disconnectHelper
  /-- in `mqtt_on_disconnect`, called by it -/
  | onDisconnect (c : Closing)
  deriving DecidableEq

/-- Where the poll thread stands in a callback. -/
inductive Poll where
  | idle
  /-- `mqtt_on_connack`, before `connect_pending` is cleared -/
  | connack (accepted : Bool)
  | connackConnected
  | connackLte
  | connackConnectGeneration
  | connackGeneration (connectGeneration : ℕ)
  /-- before MQTT_CONNECTED is posted -/
  | connackPost
  /-- in `aitsm_mqtt_disconnect`, called by it -/
  | connackInvalidate
  | connackSubmit
  | refusedLte
  | refusedConnectGeneration
  | refusedGeneration (connectGeneration : ℕ)
  /-- before MQTT_ERROR is posted -/
  | postError
  | onDisconnect (c : Closing)
  /-- `mqtt_on_puback`, before the result is posted -/
  | pubackPost (serial : ℕ) (result : ℤ)
  deriving DecidableEq

end Client

/-- The constants the client is built with. -/
structure ClientConfig where
  /-- `AITSM_DATA_TRANSMISSION_PAYLOAD_SIZE` -/
  payloadSize : ℕ
  /-- `CONFIG_AITSM_MQTT_PUBACK_TIMEOUT_SECONDS` -/
  pubackTimeoutSeconds : ℕ
  /-- `CONFIG_AITSM_MQTT_PUBACK_MAX_DELAY_SECONDS` -/
  pubackMaxDelaySeconds : ℕ

/-- The constants of the default configuration. -/
def defaultClient : ClientConfig :=
  { payloadSize := 2048, pubackTimeoutSeconds := 30, pubackMaxDelaySeconds := 300 }

/-- The variables of `mqtt_client.c`, its threads, and the helper. -/
structure Client where
  caller : Client.Caller := .idle
  worker : Client.Worker := .idle
  poll : Client.Poll := .idle
  /-- `publish_state_lock` is held across steps, by `mqtt_on_disconnect` -/
  lock : Bool := false
  /-- `publish_topic` and `publish_payload`, with their lengths -/
  message : Message := ⟨[], []⟩
  publishPending : Bool := false
  lteAvailable : Bool := false
  helperConnected : Bool := false
  connectPending : Bool := false
  generation : ℕ := 0
  connectGeneration : ℕ := 0
  activePublishId : UInt16 := 0
  activePublishGeneration : ℕ := 0
  activePublishToken : ℕ := 0
  nextPublishToken : ℕ := 0
  publishGeneration : ℕ := 0
  publishToken : ℕ := 0
  pubackDelaySeconds : ℕ := 0
  /-- `mqtt_workqueue` -/
  queue : List Client.Job := []
  /-- `puback_timeout` is running -/
  timer : Bool := false
  helper : Client.Helper := .down
  expected : List UInt16 := []

namespace Client

/-- What a step makes visible. -/
inductive Event where
  /-- `aitsm_mqtt_publish_payload` returns 0 with the token `serial`, having copied `m` -/
  | accepted (serial : ℕ) (m : Message)
  /-- it returns an error; `serial` if it had written a token by then -/
  | refused (err : Errno) (serial : Option ℕ)
  /-- `aitsm_mqtt_connect` returns -/
  | connectReturned (answer : Except Errno Unit)
  /-- `aitsm_mqtt_disconnect` or `aitsm_mqtt_set_lte_available` returns -/
  | returned
  | posted (e : AppEvent)
  /-- `mqtt_helper_connect` is called -/
  | connecting
  /-- `mqtt_helper_publish` is called, and the message leaves or does not -/
  | written (w : Write) (m : Message) (transmitted : Bool)
  /-- `puback_timeout` is started -/
  | armed (seconds : ℕ)
  /-- the helper calls `on_puback` -/
  | puback (id : UInt16) (result : ℤ)

/-- A call from outside, the next step of a thread, or something the helper does. -/
inductive Action where
  | callPublish (m : Message)
  | callConnect
  | callDisconnect
  | callSetLteAvailable (available : Bool)
  | caller
  /-- `k_work_submit_to_queue` fails -/
  | callerNoSubmit (err : Errno)
  | worker
  /-- `mqtt_helper_connect` returns -/
  | workerConnect (failed : Bool)
  /-- `mqtt_helper_msg_id_get` returns, in the region of the publish handler -/
  | workerMessageId (id : UInt16)
  | workerWrite (transmitted : Bool)
  /-- `mqtt_helper_publish` returns -/
  | workerSent (err : ℤ)
  | poll
  | pollConnack (accepted : Bool)
  | pollDisconnect
  | pollError
  | pollPuback (id : UInt16) (result : ℤ)
  /-- `puback_timeout` expires -/
  | expire
  /-- the PUBACK of an id can no longer arrive -/
  | forget (id : UInt16)

/-! ## The steps -/

/-- `k_work_submit_to_queue`. -/
def submit (c : Client) (job : Job) : Client :=
  if job ∈ c.queue then c else { c with queue := c.queue ++ [job] }

/-- `k_work_cancel_delayable(&puback_timeout)`. -/
def cancelTimeout (c : Client) : Client :=
  { c with timer := false, queue := c.queue.filter (· ≠ .pubackTimeout) }

/-- The region of `aitsm_mqtt_disconnect`. -/
def invalidate (c : Client) : Client :=
  { c with generation := c.generation + 1, activePublishId := 0 }.cancelTimeout

/-- The first access of `mqtt_on_disconnect`, which takes the lock. -/
def closeConnected (c : Client) : Client := { c with lock := true, helperConnected := false }

/-- The end of its region. -/
def closePublish (c : Client) : Client :=
  { c with lock := false, generation := c.generation + 1, activePublishId := 0 }.cancelTimeout

variable (cfg : ClientConfig)

/-- `AITSM_MQTT_TOPIC_SIZE`. -/
def topicSize : ℕ := 64

/-- `aitsm_mqtt_publish_payload`, up to its first look at a shared variable. -/
def callPublish (c : Client) (m : Message) : Client × List Event :=
  if m.payload = [] then (c, [.refused .einval none])
  else if m.topic = [] ∨ topicSize ≤ m.topic.length then (c, [.refused .emsgsize none])
  else if cfg.payloadSize < m.payload.length then (c, [.refused .emsgsize none])
  else ({ c with caller := .publishLte m }, [])

/-- A publish call is either refused at once or carries its message. -/
theorem callPublish_cases (c : Client) (m : Message) :
    (∃ err, c.callPublish cfg m = (c, [.refused err none])) ∨
    c.callPublish cfg m = ({ c with caller := .publishLte m }, []) := by
  unfold callPublish
  split
  · exact .inl ⟨_, rfl⟩
  split
  · exact .inl ⟨_, rfl⟩
  split
  · exact .inl ⟨_, rfl⟩
  · exact .inr rfl

/-- A call starts without touching a shared variable. -/
theorem callPublish_caller {c c' : Client} {es : List Event} {m : Message}
    (hidle : c.caller = .idle) (h : c.callPublish cfg m = (c', es)) :
    ∃ caller, caller ≠ .publishSubmit ∧ c' = { c with caller := caller } := by
  rcases callPublish_cases cfg c m with ⟨err, hstart⟩ | hstart
  · obtain ⟨rfl, -⟩ := Prod.mk.inj (hstart.symm.trans h)
    exact ⟨c.caller, by simp [hidle], rfl⟩
  · obtain ⟨rfl, -⟩ := Prod.mk.inj (hstart.symm.trans h)
    exact ⟨.publishLte m, by simp, rfl⟩

theorem callPublish_events (c : Client) (m : Message) :
    ∀ e ∈ (c.callPublish cfg m).2, ∃ err, e = .refused err none := by
  rcases callPublish_cases cfg c m with ⟨err, hstart⟩ | hstart
  · simp [hstart]
  · simp [hstart]

/-- The next step of the system workqueue. -/
def callerStep (c : Client) : Option (Client × List Event) :=
  match c.caller with
  | .idle => none
  | .publishLte m =>
    if c.lteAvailable then some ({ c with caller := .publishConnected m }, [])
    else some ({ c with caller := .idle }, [.refused .enotconn none])
  | .publishConnected m =>
    if c.helperConnected then some ({ c with caller := .publishTake m }, [])
    else some ({ c with caller := .idle }, [.refused .enotconn none])
  | .publishTake m =>
    if c.publishPending then some ({ c with caller := .idle }, [.refused .ebusy none])
    else some ({ c with caller := .publishActive m, publishPending := true }, [])
  | .publishActive m =>
    if c.activePublishId ≠ 0 then some ({ c with caller := .publishRelease }, [])
    else some ({ c with caller := .publishCopy m }, [])
  | .publishRelease =>
    some ({ c with caller := .idle, publishPending := false }, [.refused .ebusy none])
  | .publishCopy m => some ({ c with caller := .publishGeneration, message := m }, [])
  | .publishGeneration =>
    some ({ c with caller := .publishToken, publishGeneration := c.generation }, [])
  | .publishToken =>
    some ({ c with
      caller := .publishSubmit
      nextPublishToken := c.nextPublishToken + 1
      publishToken := c.nextPublishToken + 1 }, [])
  | .publishSubmit =>
    some ({ c with caller := .idle }.submit .publish, [.accepted c.publishToken c.message])
  | .publishNotSubmitted err =>
    -- the token has been written by now
    some ({ c with caller := .idle, publishPending := false },
      [.refused err (some c.publishToken)])
  | .connectLte =>
    if c.lteAvailable then some ({ c with caller := .connectConnected }, [])
    else some ({ c with caller := .idle }, [.connectReturned (.error .enetdown)])
  | .connectConnected =>
    if c.helperConnected then
      some ({ c with caller := .idle }, [.connectReturned (.error .ealready)])
    else some ({ c with caller := .connectTake }, [])
  | .connectTake =>
    if c.connectPending then
      some ({ c with caller := .idle }, [.connectReturned (.error .ealready)])
    else some ({ c with caller := .connectSubmit, connectPending := true }, [])
  | .connectSubmit =>
    some ({ c with caller := .idle }.submit .connect, [.connectReturned (.ok ())])
  | .connectNotSubmitted err =>
    some ({ c with caller := .idle, connectPending := false }, [.connectReturned (.error err)])
  | .lteSet => some ({ c with caller := .idle, lteAvailable := true }, [.returned])
  | .lteClear =>
    if c.lteAvailable then some ({ c with caller := .invalidate, lteAvailable := false }, [])
    else some ({ c with caller := .idle }, [.returned])
  | .invalidate =>
    if c.lock then none else some ({ c with caller := .disconnectSubmit }.invalidate, [])
  | .disconnectSubmit => some ({ c with caller := .idle }.submit .disconnect, [.returned])

/-- `k_work_submit_to_queue` fails; only `aitsm_mqtt_disconnect` does not mind. -/
def callerNoSubmit (c : Client) (err : Errno) : Option (Client × List Event) :=
  match c.caller with
  | .publishSubmit => some ({ c with caller := .publishNotSubmitted err }, [])
  | .connectSubmit => some ({ c with caller := .connectNotSubmitted err }, [])
  | .disconnectSubmit => some ({ c with caller := .idle }, [.returned])
  | _ => none

/-- Where the handler of a job starts. -/
def Job.handler : Job → Worker
  | .connect => .connectLte
  | .publish => .publish
  | .disconnect => .disconnect
  | .pubackTimeout => .timeoutTake

theorem Job.handler_publish {job : Job} (h : job.handler = .publish) : job = .publish := by
  cases job <;> first | rfl | cases h

/-- The region of `publish_sent`. -/
def publishSent (c : Client) (w : Write) (err : ℤ) : Client × List Event :=
  if err ≠ 0 ∧ w.generation = c.generation ∧ c.activePublishId = w.id then
    ({ c with worker := .postFailed w.serial err, activePublishId := 0 }.cancelTimeout, [])
  else if err = 0 ∧ w.generation = c.generation ∧ c.activePublishId = w.id then
    ({ c with worker := .release, timer := true }, [.armed c.pubackDelaySeconds])
  else ({ c with worker := .release }, [])

theorem publishSent_events (c : Client) (w : Write) (err : ℤ) :
    ∀ e ∈ (c.publishSent w err).2, e = .armed c.pubackDelaySeconds := by
  unfold publishSent
  split
  · simp
  split <;> simp

/-- The next step of the worker, where nobody answers. -/
def workerStep (c : Client) : Option (Client × List Event) :=
  match c.worker with
  | .idle =>
    match c.queue with
    | [] => none
    | job :: rest => some ({ c with worker := job.handler, queue := rest }, [])
  | .connectLte =>
    if c.lteAvailable then some ({ c with worker := .connectGeneration }, [])
    else some ({ c with worker := .connectRelease }, [])
  | .connectRelease => some ({ c with worker := .idle, connectPending := false }, [])
  | .connectGeneration => some ({ c with worker := .connectSetGeneration c.generation }, [])
  | .connectSetGeneration g =>
    some ({ c with worker := .connectHelper g, connectGeneration := g }, [])
  | .connectFailed g => some ({ c with worker := .connectErrorLte g, connectPending := false }, [])
  | .connectErrorLte g =>
    if c.lteAvailable then some ({ c with worker := .connectErrorGeneration g }, [])
    else some ({ c with worker := .idle }, [])
  | .connectErrorGeneration g =>
    if g = c.generation then some ({ c with worker := .connectPostError }, [])
    else some ({ c with worker := .idle }, [])
  | .connectPostError => some ({ c with worker := .idle }, [.posted .mqttError])
  | .publish =>
    -- the other branch of this region asks for a message id
    if c.lock then none
    else if !c.lteAvailable ∨ !c.helperConnected ∨ c.publishGeneration ≠ c.generation then
      some ({ c with worker := .release }, [])
    else none
  | .release => some ({ c with worker := .idle, publishPending := false }, [])
  | .sent w err => if c.lock then none else some (c.publishSent w err)
  | .postFailed serial err =>
    some ({ c with worker := .release }, [.posted (.mqttPublishResult serial err)])
  | .timeoutTake =>
    if c.publishPending then some ({ c with worker := .idle }, [])
    else some ({ c with worker := .timeoutId, publishPending := true }, [])
  | .timeoutId => some ({ c with worker := .timeoutPublishGeneration c.activePublishId }, [])
  | .timeoutPublishGeneration id =>
    some ({ c with worker := .timeoutToken id c.activePublishGeneration }, [])
  | .timeoutToken id g =>
    let w := { id := id, generation := g, serial := c.activePublishToken, duplicate := true }
    if id = 0 then some ({ c with worker := .release }, [])
    else some ({ c with worker := .timeoutLte w }, [])
  | .timeoutLte w =>
    if c.lteAvailable then some ({ c with worker := .timeoutConnected w }, [])
    else some ({ c with worker := .release }, [])
  | .timeoutConnected w =>
    if c.helperConnected then some ({ c with worker := .timeoutGeneration w }, [])
    else some ({ c with worker := .release }, [])
  | .timeoutGeneration w =>
    if w.generation = c.generation then
      some ({ c with
        worker := .send w
        pubackDelaySeconds := min (c.pubackDelaySeconds * 2) cfg.pubackMaxDelaySeconds }, [])
    else some ({ c with worker := .release }, [])
  | .disconnect =>
    if c.helperConnected then some ({ c with worker := .disconnectHelper }, [])
    else some ({ c with worker := .idle }, [])
  | .disconnectHelper =>
    -- an open connection is closed, and `on_disconnect` called before the helper returns
    if c.helper = .up then
      some ({ c with worker := .onDisconnect .connected, helper := .down }, [])
    else some ({ c with worker := .idle }, [])
  | .onDisconnect .connected =>
    if c.lock then none else some ({ c with worker := .onDisconnect .pending }.closeConnected, [])
  | .onDisconnect .pending =>
    some ({ c with worker := .onDisconnect .publish, connectPending := false }, [])
  | .onDisconnect .publish => some ({ c with worker := .onDisconnect .post }.closePublish, [])
  | .onDisconnect .post => some ({ c with worker := .idle }, [.posted .mqttDisconnected])
  | .connectHelper _ | .send _ | .sending _ => none

/-- `mqtt_helper_connect` returns; it succeeds only when there is no connection. -/
def workerConnect (c : Client) (failed : Bool) : Option (Client × List Event) :=
  match c.worker with
  | .connectHelper g =>
    if failed then some ({ c with worker := .connectFailed g }, [.connecting])
    else if c.helper = .down then
      some ({ c with worker := .idle, helper := .connecting }, [.connecting])
    else none
  | _ => none

/-- The region of the publish handler, when the publication can be written. -/
def workerMessageId (c : Client) (id : UInt16) : Option (Client × List Event) :=
  match c.worker with
  | .publish =>
    if !c.lock ∧ c.lteAvailable ∧ c.helperConnected ∧ c.publishGeneration = c.generation ∧
        id ≠ 0 ∧ id ∉ c.expected then
      let w := { id := id, generation := c.publishGeneration, serial := c.publishToken,
                 duplicate := false }
      some ({ c with
        worker := .send w
        pubackDelaySeconds := cfg.pubackTimeoutSeconds
        activePublishGeneration := c.publishGeneration
        activePublishToken := c.publishToken
        activePublishId := id }, [])
    else none
  | _ => none

/-- `mqtt_helper_publish` writes the copied payload. -/
def workerWrite (c : Client) (transmitted : Bool) : Option (Client × List Event) :=
  match c.worker with
  | .send w =>
    some ({ c with
      worker := .sending w
      expected := if transmitted then w.id :: c.expected else c.expected },
      [.written w c.message transmitted])
  | _ => none

/-- `mqtt_helper_publish` returns. -/
def workerSent (c : Client) (err : ℤ) : Option (Client × List Event) :=
  match c.worker with
  | .sending w => some ({ c with worker := .sent w err }, [])
  | _ => none

/-- The next step of a callback on the poll thread. -/
def pollStep (c : Client) : Option (Client × List Event) :=
  match c.poll with
  | .idle => none
  | .connack accepted =>
    some ({ c with
      poll := if accepted then .connackConnected else .refusedLte
      connectPending := false }, [])
  | .connackConnected => some ({ c with poll := .connackLte, helperConnected := true }, [])
  | .connackLte =>
    if c.lteAvailable then some ({ c with poll := .connackConnectGeneration }, [])
    else some ({ c with poll := .connackInvalidate }, [])
  | .connackConnectGeneration =>
    some ({ c with poll := .connackGeneration c.connectGeneration }, [])
  | .connackGeneration g =>
    if g = c.generation then some ({ c with poll := .connackPost }, [])
    else some ({ c with poll := .connackInvalidate }, [])
  | .connackPost => some ({ c with poll := .idle }, [.posted .mqttConnected])
  | .connackInvalidate =>
    if c.lock then none else some ({ c with poll := .connackSubmit }.invalidate, [])
  | .connackSubmit => some ({ c with poll := .idle }.submit .disconnect, [])
  | .refusedLte =>
    if c.lteAvailable then some ({ c with poll := .refusedConnectGeneration }, [])
    else some ({ c with poll := .idle }, [])
  | .refusedConnectGeneration =>
    some ({ c with poll := .refusedGeneration c.connectGeneration }, [])
  | .refusedGeneration g =>
    if g = c.generation then some ({ c with poll := .postError }, [])
    else some ({ c with poll := .idle }, [])
  | .postError => some ({ c with poll := .idle }, [.posted .mqttError])
  | .onDisconnect .connected =>
    if c.lock then none else some ({ c with poll := .onDisconnect .pending }.closeConnected, [])
  | .onDisconnect .pending =>
    some ({ c with poll := .onDisconnect .publish, connectPending := false }, [])
  | .onDisconnect .publish => some ({ c with poll := .onDisconnect .post }.closePublish, [])
  | .onDisconnect .post => some ({ c with poll := .idle }, [.posted .mqttDisconnected])
  | .pubackPost serial result =>
    some ({ c with poll := .idle }, [.posted (.mqttPublishResult serial result)])

/-- The region of `mqtt_on_puback`, for a PUBACK that can arrive. -/
def pollPuback (c : Client) (id : UInt16) (result : ℤ) : Option (Client × List Event) :=
  if c.poll = .idle ∧ !c.lock ∧ id ∈ c.expected then
    if c.lteAvailable ∧ c.activePublishGeneration = c.generation ∧ c.activePublishId = id then
      some ({ c with
        poll := .pubackPost c.activePublishToken result
        activePublishId := 0 }.cancelTimeout, [.puback id result])
    else some (c, [.puback id result])
  else none

/-- A callback other than `on_puback` starts. -/
def pollStart (c : Client) (possible : Bool) (helper : Helper) (poll : Poll) :
    Option (Client × List Event) :=
  if c.poll = .idle ∧ possible then some ({ c with poll := poll, helper := helper }, []) else none

/-- The system workqueue calls a function of the client. -/
def call (c : Client) (start : Client × List Event) : Option (Client × List Event) :=
  if c.caller = .idle then some start else none

theorem call_eq_some {c c' : Client} {es : List Event} {start : Client × List Event}
    (h : c.call start = some (c', es)) : c.caller = .idle ∧ start = (c', es) := by
  unfold call at h
  split at h
  · exact ⟨‹_›, Option.some.inj h⟩
  · cases h

/-- One action. -/
def step (c : Client) : Action → Option (Client × List Event)
  | .callPublish m => c.call (c.callPublish cfg m)
  | .callConnect => c.call ({ c with caller := .connectLte }, [])
  | .callDisconnect => c.call ({ c with caller := .invalidate }, [])
  | .callSetLteAvailable available =>
    c.call ({ c with caller := if available then .lteSet else .lteClear }, [])
  | .caller => c.callerStep
  | .callerNoSubmit err => c.callerNoSubmit err
  | .worker => c.workerStep cfg
  | .workerConnect failed => c.workerConnect failed
  | .workerMessageId id => c.workerMessageId cfg id
  | .workerWrite transmitted => c.workerWrite transmitted
  | .workerSent err => c.workerSent err
  | .poll => c.pollStep
  | .pollConnack accepted =>
    c.pollStart (c.helper = .connecting) (if accepted then .up else .refused) (.connack accepted)
  | .pollDisconnect => c.pollStart (c.helper ≠ .down) .down (.onDisconnect .connected)
  | .pollError => c.pollStart true c.helper .postError
  | .pollPuback id result => c.pollPuback id result
  | .expire =>
    if c.timer then some ({ c with timer := false }.submit .pubackTimeout, []) else none
  | .forget id => some ({ c with expected := c.expected.filter (· ≠ id) }, [])

/-! ## What an answer does -/

section Answers

variable {cfg} {c c' : Client} {es : List Event}

theorem callerNoSubmit_cases {err : Errno} (h : c.callerNoSubmit err = some (c', es)) :
    c.caller = .publishSubmit ∧ es = [] ∧ c' = { c with caller := .publishNotSubmitted err } ∨
    c.caller = .connectSubmit ∧ es = [] ∧ c' = { c with caller := .connectNotSubmitted err } ∨
    c.caller = .disconnectSubmit ∧ es = [.returned] ∧ c' = { c with caller := .idle } := by
  cases hc : c.caller <;> simp only [callerNoSubmit, hc] at h
  case publishSubmit =>
    cases h
    exact .inl ⟨rfl, rfl, rfl⟩
  case connectSubmit =>
    cases h
    exact .inr (.inl ⟨rfl, rfl, rfl⟩)
  case disconnectSubmit =>
    cases h
    exact .inr (.inr ⟨rfl, rfl, rfl⟩)
  all_goals cases h

theorem workerConnect_cases {failed : Bool} (h : c.workerConnect failed = some (c', es)) :
    ∃ g, c.worker = .connectHelper g ∧ es = [.connecting] ∧
      (c' = { c with worker := .connectFailed g } ∨
        c.helper = .down ∧ c' = { c with worker := .idle, helper := .connecting }) := by
  cases hw : c.worker <;> simp only [workerConnect, hw] at h
  case connectHelper g =>
    split at h
    · cases h
      exact ⟨g, rfl, rfl, .inl rfl⟩
    · split at h <;> cases h
      exact ⟨g, rfl, rfl, .inr ⟨‹_›, rfl⟩⟩
  all_goals cases h

theorem workerMessageId_cases {id : UInt16} (h : c.workerMessageId cfg id = some (c', es)) :
    c.worker = .publish ∧ es = [] ∧ (c.lteAvailable ∧ c.helperConnected ∧
      c.publishGeneration = c.generation ∧ id ≠ 0 ∧ id ∉ c.expected) ∧
      c' = { c with
        worker := .send { id := id, generation := c.publishGeneration, serial := c.publishToken,
                          duplicate := false }
        pubackDelaySeconds := cfg.pubackTimeoutSeconds
        activePublishGeneration := c.publishGeneration
        activePublishToken := c.publishToken
        activePublishId := id } := by
  cases hw : c.worker <;> simp only [workerMessageId, hw] at h
  case publish =>
    split at h <;> cases h
    rename_i hcan
    exact ⟨rfl, rfl, hcan.2, rfl⟩
  all_goals cases h

theorem workerWrite_cases {transmitted : Bool}
    (h : c.workerWrite transmitted = some (c', es)) :
    ∃ w, c.worker = .send w ∧ es = [.written w c.message transmitted] ∧
      c' = { c with
        worker := .sending w
        expected := if transmitted then w.id :: c.expected else c.expected } := by
  cases hw : c.worker <;> simp only [workerWrite, hw] at h
  all_goals cases h
  exact ⟨_, rfl, rfl, rfl⟩

theorem workerSent_cases {err : ℤ} (h : c.workerSent err = some (c', es)) :
    ∃ w, c.worker = .sending w ∧ es = [] ∧ c' = { c with worker := .sent w err } := by
  cases hw : c.worker <;> simp only [workerSent, hw] at h
  all_goals cases h
  exact ⟨_, rfl, rfl, rfl⟩

theorem pollStart_cases {possible : Bool} {helper : Helper} {poll : Poll}
    (h : c.pollStart possible helper poll = some (c', es)) :
    c.poll = .idle ∧ possible ∧ es = [] ∧ c' = { c with poll := poll, helper := helper } := by
  unfold pollStart at h
  split at h <;> cases h
  rename_i hcan
  exact ⟨hcan.1, hcan.2, rfl, rfl⟩

theorem pollPuback_cases {id : UInt16} {result : ℤ}
    (h : c.pollPuback id result = some (c', es)) :
    c.poll = .idle ∧ id ∈ c.expected ∧ es = [.puback id result] ∧
      ((c.lteAvailable ∧ c.activePublishGeneration = c.generation ∧ c.activePublishId = id) ∧
        c' = { c with
          poll := .pubackPost c.activePublishToken result
          activePublishId := 0 }.cancelTimeout ∨ c' = c) := by
  unfold pollPuback at h
  split at h
  · rename_i hcan
    split at h <;> cases h
    · exact ⟨hcan.1, hcan.2.2, rfl, .inl ⟨‹_›, rfl⟩⟩
    · exact ⟨hcan.1, hcan.2.2, rfl, .inr rfl⟩
  · cases h

theorem expire_cases (h : c.step cfg .expire = some (c', es)) :
    c.timer ∧ es = [] ∧ c' = { c with timer := false }.submit .pubackTimeout := by
  simp only [step] at h
  split at h <;> cases h
  exact ⟨‹_›, rfl, rfl⟩

end Answers

end Client

/-- The client, called in any order, with any behaviour of the helper. -/
def mqttClient (cfg : ClientConfig) : System Client Client.Action Client.Event where
  start := {}
  step c a := c.step cfg a

end Aitsm.Original
