import Aitsm.Original.Client

/-!
# The controller (`app_controller.c`, `mqtt_reconnect.c`)

The system workqueue takes application events from their queue and handles one
after the other. What a handler still has to do is a list of statements
(`Statement`); each is one step, except that a call of the client goes on, step
by step, in the client. The reconnect timer and the publish work run on the
same workqueue, between two handlers.

The queue of events does not overflow. The LEDs and the log are left out, and
the calls of the measurement service are only reported.
-/

namespace Aitsm.Original

open Library Library.Wire
open Library.System (anyStep)

/-! ## The reconnect state machine -/

/-- `enum aitsm_reconnect_event`. -/
inductive ReconnectEvent where
  | lteUp
  | lteDown
  | mqttUp
  | failure
  | timer
  deriving DecidableEq

/-- `enum aitsm_reconnect_phase`. -/
inductive ReconnectPhase where
  | offline
  | connecting
  | waiting
  | connected
  deriving DecidableEq

/-- `struct aitsm_reconnect_result`. -/
inductive ReconnectAction where
  | none
  | connect
  | schedule (delaySeconds : UInt32)
  | cancel
  deriving DecidableEq

/-- The Kconfig symbols of the reconnect delays. -/
structure ReconnectConfig where
  /-- `CONFIG_AITSM_MQTT_RECONNECT_INITIAL_DELAY_SECONDS` -/
  initialDelaySeconds : UInt32
  /-- `CONFIG_AITSM_MQTT_RECONNECT_MAX_DELAY_SECONDS` -/
  maxDelaySeconds : UInt32

/-- The defaults of Kconfig. -/
def defaultReconnect : ReconnectConfig := { initialDelaySeconds := 5, maxDelaySeconds := 60 }

/-- `struct aitsm_reconnect_state`. -/
structure ReconnectState where
  lteAvailable : Bool := false
  phase : ReconnectPhase
  nextDelaySeconds : UInt32

/-- `aitsm_reconnect_init`. -/
def reconnectInit (cfg : ReconnectConfig) : ReconnectState :=
  { phase := .offline, nextDelaySeconds := cfg.initialDelaySeconds }

/-- `aitsm_reconnect_handle`. -/
def reconnectHandle (cfg : ReconnectConfig) (state : ReconnectState) :
    ReconnectEvent → ReconnectState × ReconnectAction
  | .lteUp =>
    if !state.lteAvailable then
      ({ state with lteAvailable := true, phase := .connecting }, .connect)
    else (state, .none)
  | .lteDown => (reconnectInit cfg, if state.lteAvailable then .cancel else .none)
  | .mqttUp =>
    if state.lteAvailable then
      ({ state with phase := .connected, nextDelaySeconds := cfg.initialDelaySeconds }, .cancel)
    else (state, .none)
  | .failure =>
    if state.lteAvailable ∧ state.phase ≠ .waiting then
      ({ state with
          phase := .waiting
          nextDelaySeconds := min (state.nextDelaySeconds * 2) cfg.maxDelaySeconds },
        .schedule state.nextDelaySeconds)
    else (state, .none)
  | .timer =>
    if state.lteAvailable ∧ state.phase = .waiting then
      ({ state with phase := .connecting }, .connect)
    else (state, .none)

namespace Controller

/-- A call of the measurement service. -/
inductive Notification where
  | mqttConnected
  | mqttDisconnected
  | publishResult (serial : ℕ) (result : ℤ)

/-- What a handler has to do next. -/
inductive Statement where
  /-- `aitsm_mqtt_set_lte_available` -/
  | setLteAvailable (available : Bool)
  /-- `aitsm_mqtt_disconnect` -/
  | disconnect
  /-- `aitsm_mqtt_connect` -/
  | connect
  /-- it failed; MQTT_ERROR is posted -/
  | postError
  | notify (n : Notification)
  /-- `apply_reconnect`, up to what its action calls -/
  | apply (e : ReconnectEvent)

/-- `lte_lost`. -/
def lteLost : List Statement :=
  [.setLteAvailable false, .notify .mqttDisconnected, .apply .lteDown]

/-- `handle_event`. Only a handler changes `reconnect`, and it does so last. -/
def handleEvent (reconnect : ReconnectState) : AppEvent → List Statement
  | .lteSearching => lteLost
  | .lteConnected => [.setLteAvailable true, .apply .lteUp]
  | .lteDisconnected => lteLost
  | .mqttConnected =>
    if !reconnect.lteAvailable then [.disconnect] else [.apply .mqttUp, .notify .mqttConnected]
  | .mqttDisconnected => [.notify .mqttDisconnected, .apply .failure]
  | .mqttError =>
    if reconnect.lteAvailable then
      [.notify .mqttDisconnected, .disconnect, .apply .failure]
    else [.notify .mqttDisconnected, .apply .failure]
  | .mqttPublishResult serial result => [.notify (.publishResult serial result)]

/-- The controller, the client, and the queue between them. -/
structure State where
  client : Client := {}
  reconnect : ReconnectState
  /-- what the running handler still has to do -/
  program : List Statement := []
  /-- `aitsm_app_event_queue` -/
  queue : List AppEvent := []
  /-- `reconnect_work` is scheduled, with this delay -/
  reconnectTimer : Option UInt32 := none
  /-- it expired, and the work is submitted -/
  reconnectDue : Bool := false

/-- What `network.c` posts. -/
inductive LteChange where
  | searching
  | connected
  | disconnected

def LteChange.event : LteChange → AppEvent
  | .searching => .lteSearching
  | .connected => .lteConnected
  | .disconnected => .lteDisconnected

inductive Action where
  /-- a step of the client that is not a call -/
  | client (a : Client.Action)
  /-- the next statement of the running handler -/
  | statement
  /-- `app_event_work_handler` takes the next event -/
  | handle
  /-- `reconnect_work_handler` -/
  | reconnectWork
  /-- the measurement service calls `aitsm_mqtt_publish_payload` -/
  | publish (m : Message)
  /-- the modem reports a change -/
  | lte (change : LteChange)
  /-- the reconnect timer expires -/
  | expire

inductive Event where
  | client (e : Client.Event)
  | notified (n : Notification)

/-- The actions that are calls of the client. -/
def isCall : Client.Action → Bool
  | .callPublish _ | .callConnect | .callDisconnect | .callSetLteAvailable _ => true
  | _ => false

/-- What an event of the client means for the controller. -/
def observe (s : State) : Client.Event → State
  | .posted e => { s with queue := s.queue ++ [e] }
  | .connectReturned (.error _) => { s with program := .postError :: s.program }
  | _ => s

/-- The system takes a step of the client. -/
def clientStep (ccfg : ClientConfig) (s : State) (a : Client.Action) :
    Option (State × List Event) :=
  match s.client.step ccfg a with
  | some (c, es) => some (es.foldl observe { s with client := c }, es.map .client)
  | none => none

/-- What `apply_reconnect` does with the action. -/
def perform (s : State) : ReconnectAction → State
  | .none => s
  | .connect => { s with program := .connect :: s.program }
  | .schedule delaySeconds => { s with reconnectTimer := some delaySeconds }
  | .cancel => { s with reconnectTimer := none, reconnectDue := false }

/-- `apply_reconnect`. -/
def applyReconnect (rcfg : ReconnectConfig) (s : State) (e : ReconnectEvent) : State :=
  perform { s with reconnect := (reconnectHandle rcfg s.reconnect e).1 }
    (reconnectHandle rcfg s.reconnect e).2

/-- The next statement of the running handler; a call of the client has to
return first. -/
def statement (ccfg : ClientConfig) (rcfg : ReconnectConfig) (s : State) :
    Option (State × List Event) :=
  match s.program with
  | [] => none
  | next :: rest =>
    if s.client.caller = .idle then
      let s := { s with program := rest }
      match next with
      | .setLteAvailable available => clientStep ccfg s (.callSetLteAvailable available)
      | .disconnect => clientStep ccfg s .callDisconnect
      | .connect => clientStep ccfg s .callConnect
      | .postError => some ({ s with queue := s.queue ++ [.mqttError] }, [])
      | .notify n => some (s, [.notified n])
      | .apply e => some (applyReconnect rcfg s e, [])
    else none

/-- The system workqueue is between two handlers. -/
def free (s : State) : Bool := s.program.isEmpty && s.client.caller = .idle

/-- One action. -/
def step (ccfg : ClientConfig) (rcfg : ReconnectConfig) (s : State) :
    Action → Option (State × List Event)
  | .client a => if isCall a then none else clientStep ccfg s a
  | .statement => statement ccfg rcfg s
  | .handle =>
    match s.queue with
    | [] => none
    | e :: rest =>
      if free s then some ({ s with program := handleEvent s.reconnect e, queue := rest }, [])
      else none
  | .reconnectWork =>
    if free s ∧ s.reconnectDue then
      some ({ s with program := [.apply .timer], reconnectDue := false }, [])
    else none
  | .publish m => if free s then clientStep ccfg s (.callPublish m) else none
  | .lte change => some ({ s with queue := s.queue ++ [change.event] }, [])
  | .expire =>
    if s.reconnectTimer.isSome then
      some ({ s with reconnectTimer := none, reconnectDue := true }, [])
    else none

end Controller

/-- The controller and the client, with any behaviour of the modem and the helper. -/
def controller (ccfg : ClientConfig) (rcfg : ReconnectConfig) :
    System Controller.State Controller.Action Controller.Event where
  start := { reconnect := reconnectInit rcfg }
  step := Controller.step ccfg rcfg

end Aitsm.Original
