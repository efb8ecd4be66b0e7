import Aitsm.Library.System
import Aitsm.Ingest.Message

/-!
# Deliveries and acknowledgements (`DeliveryWorker`)

The broker, the two threads of the service and QuestDB, as one system.

* the broker hands out messages on a connection, and takes the PUBACKs that
  reach it;
* the network thread calls `submit` and `connection_lost`;
* the worker takes from the queue, parses, writes until QuestDB answers, and
  acknowledges.

A step of a thread ends where the other one may come in between: `submit` reads the
counter and puts the delivery into the queue in two steps, `connection_lost`
counts and takes the queue down one by one, and `is_current` and `ack` are one
step each, under the lock.

What was received before a connection broke may still be handed to `on_message`
until the network thread notices; the client does not connect again before
`on_disconnect` is done. The process may end at any time; the next one starts
anew, and its counter with it.

`Stepped` says once what a step can do, and every invariant goes through its cases.
-/

namespace Aitsm.Ingest

open Library

/-- A message that the broker hands out, under a packet id. -/
structure Delivery where
  /-- the hand-outs before this one -/
  serial : ℕ
  /-- the broker's number of the connection -/
  link : ℕ
  /-- the message -/
  id : ℕ
  /-- `message.mid` -/
  mid : ℕ
  /-- `message.qos`, 0 or 1: the service subscribes with 1 -/
  qos : ℕ
  deriving DecidableEq

/-- The connection between the client and the broker. -/
inductive Link where
  | down
  | up
  /-- broken, which the network thread has not noticed -/
  | broken
  deriving DecidableEq

/-- Where the network thread is. -/
inductive Network where
  | idle
  /-- `submit`, with the counter it has read -/
  | submitting (connection : ℕ) (d : Delivery)
  /-- the loop of `connection_lost` -/
  | draining
  deriving DecidableEq

/-- Where the worker is. -/
inductive Worker where
  /-- `self.queue.get()` -/
  | waiting
  /-- `process`, before `parse_message` -/
  | processing (connection : ℕ) (d : Delivery)
  /-- before `write_questdb` -/
  | writing (connection : ℕ) (d : Delivery) (lines : List Line) (delay : ℕ)
  /-- `retry_later` -/
  | sleeping (connection : ℕ) (d : Delivery) (lines : List Line) (delay : ℕ)
  /-- before `self.ack` -/
  | acking (connection : ℕ) (d : Delivery)
  /-- an exception has left `run` -/
  | dead

/-- What `write_questdb` comes to. -/
inductive Outcome where
  | accepted
  /-- HTTP 400 -/
  | badRequest
  /-- any other exception; the rows may have been applied all the same -/
  | failed (applied : Bool)
  deriving DecidableEq

/-- `write_questdb` comes to this without a request being made. -/
def Outcome.unsent : Outcome → Bool
  | .failed false => true
  | _ => false

/-- The system. -/
structure Service where
  /-- the messages whose PUBACK has reached the broker -/
  acknowledged : List ℕ := []
  /-- handed out on the latest connection with QoS 1, and not acknowledged -/
  outstanding : List Delivery := []
  /-- the number of hand-outs -/
  hands : ℕ := 0
  /-- the number of connections -/
  links : ℕ := 0
  link : Link := .down
  /-- on their way to the client -/
  channel : List Delivery := []
  /-- on their way to the broker -/
  pubacks : List ℕ := []
  /-- `self.connection` -/
  connection : ℕ := 0
  /-- `self.queue` -/
  queue : List (ℕ × Delivery) := []
  network : Network := .idle
  worker : Worker := .waiting

inductive Action where
  /-- the client connects, without a clean start -/
  | connect
  /-- the broker hands out a message that is not on the connection, under a packet
  id that is not in use -/
  | send (id mid qos : ℕ)
  /-- `on_message`, up to the end of the `with` of `submit` -/
  | receive
  /-- `put_nowait` -/
  | put
  | linkLost
  /-- `on_disconnect`, up to the end of the `with` of `connection_lost` -/
  | disconnected
  /-- `get_nowait` of `connection_lost` -/
  | drain
  /-- the first PUBACK on its way reaches the broker -/
  | pubackReceived
  /-- `self.queue.get()` -/
  | get
  /-- `parse_message`, with what the clock says -/
  | parse (clock : ℕ → ℤ)
  | write (outcome : Outcome)
  /-- the end of the sleep, and `is_current` -/
  | wake
  | ack
  /-- the process ends, and another one starts -/
  | restart

inductive Event where
  /-- handed out by the broker -/
  | handed (d : Delivery)
  /-- `submit` has read the counter -/
  | submitted (connection : ℕ) (d : Delivery)
  | wrote (d : Delivery) (lines : List Line) (outcome : Outcome)
  /-- `client.ack`, and what the counter says -/
  | called (connection : ℕ) (d : Delivery)
  deriving DecidableEq

/-- `MQTT_RECEIVE_MAXIMUM`. -/
def receiveMaximum : ℕ := 10

/-- `QUESTDB_RETRY_INITIAL_SECONDS`. -/
def retryInitialSeconds : ℕ := 1

/-- `QUESTDB_RETRY_MAX_SECONDS`. -/
def retryMaxSeconds : ℕ := 30

section System

variable (rt : Runtime) (content : ℕ → Message)

/-- The broker and the network thread. -/
def networkStep (h : Service) : Action → Option (Service × List Event)
  | .connect =>
    if h.link = .down ∧ h.network = .idle then
      some ({ h with link := .up, links := h.links + 1, outstanding := [] }, [])
    else none
  | .send id mid qos =>
    if h.link = .up ∧ qos ≤ 1 ∧ id ∉ h.acknowledged ∧
        ∀ d ∈ h.outstanding, d.id ≠ id ∧ d.mid ≠ mid then
      let d : Delivery := { serial := h.hands, link := h.links, id := id, mid := mid, qos := qos }
      some ({ h with
        hands := h.hands + 1,
        outstanding := if qos = 1 then h.outstanding ++ [d] else h.outstanding,
        channel := h.channel ++ [d] }, [.handed d])
    else none
  | .receive =>
    match h.network, h.channel with
    | .idle, d :: rest =>
      some ({ h with channel := rest, network := .submitting h.connection d },
        [.submitted h.connection d])
    | _, _ => none
  | .put =>
    match h.network with
    | .submitting connection d =>
      if h.queue.length < receiveMaximum then
        some ({ h with queue := h.queue ++ [(connection, d)], network := .idle }, [])
      else some ({ h with network := .idle }, [])
    | _ => none
  | .linkLost =>
    if h.link = .up then some ({ h with link := .broken, pubacks := [] }, []) else none
  | .disconnected =>
    if h.link = .broken ∧ h.network = .idle then
      some ({ h with
        link := .down, channel := [], connection := h.connection + 1, network := .draining }, [])
    else none
  | .drain =>
    match h.network, h.queue with
    | .draining, [] => some ({ h with network := .idle }, [])
    | .draining, _ :: rest => some ({ h with queue := rest }, [])
    | _, _ => none
  | .pubackReceived =>
    match h.pubacks with
    | mid :: rest =>
      some ({ h with
        pubacks := rest,
        outstanding := h.outstanding.filter (·.mid ≠ mid),
        acknowledged := h.acknowledged ++ (h.outstanding.filter (·.mid = mid)).map Delivery.id },
        [])
    | [] => none
  | .restart =>
    some ({ h with
      link := .down, channel := [], pubacks := [], connection := 0, queue := [],
      network := .idle, worker := .waiting }, [])
  | _ => none

/-- The worker. -/
def workerStep (h : Service) : Action → Option (Service × List Event)
  | .get =>
    match h.worker, h.queue with
    | .waiting, (connection, d) :: rest =>
      some ({ h with queue := rest, worker := .processing connection d }, [])
    | _, _ => none
  | .parse clock =>
    match h.worker with
    | .processing connection d =>
      match process rt clock (content d.id) with
      | .acknowledge => some ({ h with worker := .acking connection d }, [])
      | .store lines =>
        some ({ h with worker := .writing connection d lines retryInitialSeconds }, [])
      | .raised _ => some ({ h with worker := .dead }, [])
    | _ => none
  | .write outcome =>
    match h.worker with
    | .writing connection d lines delay =>
      -- the text is encoded first, and what cannot be encoded is not sent
      if outcome.unsent || encodesUtf8 (joinLines rt lines) then
        match outcome with
        | .accepted | .badRequest =>
          some ({ h with worker := .acking connection d }, [.wrote d lines outcome])
        | .failed _ =>
          some ({ h with worker := .sleeping connection d lines delay }, [.wrote d lines outcome])
      else none
    | _ => none
  | .wake =>
    match h.worker with
    | .sleeping connection d lines delay =>
      if connection = h.connection then
        let delay := min (delay * 2) retryMaxSeconds
        some ({ h with worker := .writing connection d lines delay }, [])
      else some ({ h with worker := .waiting }, [])
    | _ => none
  | .ack =>
    match h.worker with
    | .acking connection d =>
      if connection = h.connection then
        -- only QoS 1 has a PUBACK, and on a broken connection it goes nowhere
        let pubacks := if h.link = .up ∧ d.qos = 1 then h.pubacks ++ [d.mid] else h.pubacks
        some ({ h with worker := .waiting, pubacks := pubacks }, [.called h.connection d])
      else some ({ h with worker := .waiting }, [])
    | _ => none
  | _ => none

/-- One step. -/
def serviceStep (h : Service) (a : Action) : Option (Service × List Event) :=
  match a with
  | .get | .parse _ | .write _ | .wake | .ack => workerStep rt content h a
  | _ => networkStep h a

/-- The broker and the service, from the first connection on. -/
def service : System Service Action Event where
  start := {}
  step := serviceStep rt content

/-! ## What a step can do -/

/-- The delivery needs no write: its message is refused, or has no lines. -/
def Lineless (d : Delivery) : Prop :=
  (∃ clock e, parseMessage rt clock (content d.id) = .error e ∧ e.caught) ∨
    ∃ clock, parseMessage rt clock (content d.id) = .ok []

/-- The lines of a delivery. -/
def LinesOf (d : Delivery) (lines : List Line) : Prop :=
  ∃ clock, parseMessage rt clock (content d.id) = .ok lines

/-- The cases of a step. -/
inductive Stepped (h : Service) : Action → Service → List Event → Prop where
  | connect : h.link = .down → h.network = .idle →
      Stepped h .connect { h with link := .up, links := h.links + 1, outstanding := [] } []
  | send (d : Delivery) : h.link = .up → d.qos ≤ 1 → d.id ∉ h.acknowledged →
      (∀ e ∈ h.outstanding, e.id ≠ d.id ∧ e.mid ≠ d.mid) → d.serial = h.hands → d.link = h.links →
      Stepped h (.send d.id d.mid d.qos)
        { h with
          hands := h.hands + 1,
          outstanding := if d.qos = 1 then h.outstanding ++ [d] else h.outstanding,
          channel := h.channel ++ [d] } [.handed d]
  | receive {d : Delivery} {rest : List Delivery} : h.network = .idle → h.channel = d :: rest →
      Stepped h .receive { h with channel := rest, network := .submitting h.connection d }
        [.submitted h.connection d]
  | put {c : ℕ} {d : Delivery} : h.network = .submitting c d → h.queue.length < receiveMaximum →
      Stepped h .put { h with queue := h.queue ++ [(c, d)], network := .idle } []
  | full {c : ℕ} {d : Delivery} : h.network = .submitting c d → receiveMaximum ≤ h.queue.length →
      Stepped h .put { h with network := .idle } []
  | linkLost : h.link = .up → Stepped h .linkLost { h with link := .broken, pubacks := [] } []
  | disconnected : h.link = .broken → h.network = .idle →
      Stepped h .disconnected
        { h with
          link := .down, channel := [], connection := h.connection + 1, network := .draining } []
  | drained : h.network = .draining → h.queue = [] →
      Stepped h .drain { h with network := .idle } []
  | drain {e : ℕ × Delivery} {rest : List (ℕ × Delivery)} : h.network = .draining →
      h.queue = e :: rest → Stepped h .drain { h with queue := rest } []
  | pubackReceived {mid : ℕ} {rest : List ℕ} : h.pubacks = mid :: rest →
      Stepped h .pubackReceived
        { h with
          pubacks := rest,
          outstanding := h.outstanding.filter (·.mid ≠ mid),
          acknowledged := h.acknowledged ++ (h.outstanding.filter (·.mid = mid)).map Delivery.id }
        []
  | restart :
      Stepped h .restart
        { h with
          link := .down, channel := [], pubacks := [], connection := 0, queue := [],
          network := .idle, worker := .waiting } []
  | get {c : ℕ} {d : Delivery} {rest : List (ℕ × Delivery)} : h.worker = .waiting →
      h.queue = (c, d) :: rest →
      Stepped h .get { h with queue := rest, worker := .processing c d } []
  | lineless {clock : ℕ → ℤ} {c : ℕ} {d : Delivery} : h.worker = .processing c d →
      Lineless rt content d → Stepped h (.parse clock) { h with worker := .acking c d } []
  | parsed {clock : ℕ → ℤ} {c : ℕ} {d : Delivery} {lines : List Line} :
      h.worker = .processing c d → LinesOf rt content d lines →
      Stepped h (.parse clock) { h with worker := .writing c d lines retryInitialSeconds } []
  | raised {clock : ℕ → ℤ} {c : ℕ} {d : Delivery} : h.worker = .processing c d →
      Stepped h (.parse clock) { h with worker := .dead } []
  | answered {c : ℕ} {d : Delivery} {lines : List Line} {delay : ℕ} {outcome : Outcome} :
      h.worker = .writing c d lines delay → (outcome = .accepted ∨ outcome = .badRequest) →
      encodesUtf8 (joinLines rt lines) →
      Stepped h (.write outcome) { h with worker := .acking c d } [.wrote d lines outcome]
  | failed {c : ℕ} {d : Delivery} {lines : List Line} {delay : ℕ} {applied : Bool} :
      h.worker = .writing c d lines delay → (applied → encodesUtf8 (joinLines rt lines)) →
      Stepped h (.write (.failed applied)) { h with worker := .sleeping c d lines delay }
        [.wrote d lines (.failed applied)]
  | retry {c : ℕ} {d : Delivery} {lines : List Line} {delay : ℕ} :
      h.worker = .sleeping c d lines delay → c = h.connection →
      Stepped h .wake
        { h with worker := .writing c d lines (min (delay * 2) retryMaxSeconds) } []
  | givenUp {c : ℕ} {d : Delivery} {lines : List Line} {delay : ℕ} :
      h.worker = .sleeping c d lines delay → c ≠ h.connection →
      Stepped h .wake { h with worker := .waiting } []
  | acked {c : ℕ} {d : Delivery} : h.worker = .acking c d → c = h.connection →
      Stepped h .ack
        { h with
          worker := .waiting,
          pubacks := if h.link = .up ∧ d.qos = 1 then h.pubacks ++ [d.mid] else h.pubacks }
        [.called h.connection d]
  | notAcked {c : ℕ} {d : Delivery} : h.worker = .acking c d → c ≠ h.connection →
      Stepped h .ack { h with worker := .waiting } []

variable {rt content}

theorem process_acknowledge {clock : ℕ → ℤ} {d : Delivery}
    (h : process rt clock (content d.id) = .acknowledge) : Lineless rt content d := by
  unfold process at h
  split at h
  · rename_i e he
    split at h
    · exact .inl ⟨clock, e, he, ‹_›⟩
    · cases h
  · exact .inr ⟨clock, ‹_›⟩
  · cases h

theorem process_store {clock : ℕ → ℤ} {d : Delivery} {lines : List Line}
    (h : process rt clock (content d.id) = .store lines) : LinesOf rt content d lines := by
  unfold process at h
  split at h
  · split at h <;> cases h
  · cases h
  · cases h
    exact ⟨clock, ‹_›⟩

theorem networkStep_stepped {h h' : Service} {a : Action} {es : List Event}
    (hs : networkStep h a = some (h', es)) : Stepped rt content h a h' es := by
  cases a with
  | connect =>
    simp only [networkStep, Option.ite_none_right_eq_some, Option.some.injEq, Prod.mk.injEq] at hs
    obtain ⟨⟨hl, hn⟩, rfl, rfl⟩ := hs
    exact .connect hl hn
  | send id mid qos =>
    simp only [networkStep, Option.ite_none_right_eq_some, Option.some.injEq, Prod.mk.injEq] at hs
    obtain ⟨⟨hl, hq, ha, ho⟩, rfl, rfl⟩ := hs
    exact .send ⟨h.hands, h.links, id, mid, qos⟩ hl hq ha ho rfl rfl
  | receive =>
    simp only [networkStep] at hs
    split at hs
    · cases hs
      exact .receive ‹_› ‹_›
    · cases hs
  | put =>
    simp only [networkStep] at hs
    split at hs
    · split at hs
      · cases hs
        exact .put ‹_› ‹_›
      · cases hs
        exact .full ‹_› (not_lt.mp ‹_›)
    · cases hs
  | linkLost =>
    simp only [networkStep, Option.ite_none_right_eq_some, Option.some.injEq, Prod.mk.injEq] at hs
    obtain ⟨hl, rfl, rfl⟩ := hs
    exact .linkLost hl
  | disconnected =>
    simp only [networkStep, Option.ite_none_right_eq_some, Option.some.injEq, Prod.mk.injEq] at hs
    obtain ⟨⟨hl, hn⟩, rfl, rfl⟩ := hs
    exact .disconnected hl hn
  | drain =>
    simp only [networkStep] at hs
    split at hs
    · cases hs
      exact .drained ‹_› ‹_›
    · cases hs
      exact .drain ‹_› ‹_›
    · cases hs
  | pubackReceived =>
    simp only [networkStep] at hs
    split at hs
    · cases hs
      exact .pubackReceived ‹_›
    · cases hs
  | restart =>
    cases hs
    exact .restart
  | get | parse _ | write _ | wake | ack => cases hs

theorem workerStep_stepped {h h' : Service} {a : Action} {es : List Event}
    (hs : workerStep rt content h a = some (h', es)) : Stepped rt content h a h' es := by
  cases a with
  | get =>
    simp only [workerStep] at hs
    split at hs
    · cases hs
      exact .get ‹_› ‹_›
    · cases hs
  | parse clock =>
    simp only [workerStep] at hs
    split at hs
    · split at hs
      · cases hs
        exact .lineless ‹_› (process_acknowledge ‹_›)
      · cases hs
        exact .parsed ‹_› (process_store ‹_›)
      · cases hs
        exact .raised ‹_›
    · cases hs
  | write outcome =>
    simp only [workerStep] at hs
    split at hs
    · rename_i hw
      split at hs
      · rename_i hsent
        cases outcome with
        | accepted =>
          cases hs
          exact .answered hw (.inl rfl) hsent
        | badRequest =>
          cases hs
          exact .answered hw (.inr rfl) hsent
        | failed applied =>
          cases hs
          refine .failed hw fun happlied => ?_
          simpa [happlied, Outcome.unsent] using hsent
      · cases hs
    · cases hs
  | wake =>
    simp only [workerStep] at hs
    split at hs
    · split at hs
      · cases hs
        exact .retry ‹_› ‹_›
      · cases hs
        exact .givenUp ‹_› ‹_›
    · cases hs
  | ack =>
    simp only [workerStep] at hs
    split at hs
    · split at hs
      · cases hs
        exact .acked ‹_› ‹_›
      · cases hs
        exact .notAcked ‹_› ‹_›
    · cases hs
  | connect | send _ _ _ | receive | put | linkLost | disconnected | drain | pubackReceived
  | restart => cases hs

/-- **What a step can do.** -/
theorem stepped {h h' : Service} {a : Action} {es : List Event}
    (hs : (service rt content).step h a = some (h', es)) : Stepped rt content h a h' es := by
  change serviceStep rt content h a = some (h', es) at hs
  unfold serviceStep at hs
  split at hs
  · exact workerStep_stepped hs
  · exact workerStep_stepped hs
  · exact workerStep_stepped hs
  · exact workerStep_stepped hs
  · exact workerStep_stepped hs
  · exact networkStep_stepped hs

end System

end Aitsm.Ingest
