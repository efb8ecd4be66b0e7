import Aitsm.Library.System
import Aitsm.Original.Service

/-!
# Order and numbering of the Original's publications

The measurement service as a system of its own: its entry points are called in
any order, and each submission is accepted or refused as the MQTT client
pleases. Only `mqtt_connected` and `mqtt_disconnected` alternate, as the
controller calls them (`Alternating`).

`View` is what an observer of the calls knows about the current session. The
client numbers the submissions; its token for the `k`-th is `k` modulo 2³².
`Agrees` ties the service's flags, its token and the sequence number in the
transmission buffer to the view.
-/

namespace Aitsm.Original

open Library Library.Wire
open Library.System (EachEvent)

variable {cfg : Config}

namespace Numbering

/-- The service and the number of tokens the client has handed out. -/
structure State (cfg : Config) where
  service : Service cfg := {}
  submissions : ℕ := 0

/-- What `aitsm_mqtt_publish_payload` does with a submission. -/
inductive Answer where
  | accepted
  /-- refused, before or after it was given a token -/
  | refused (err : Errno) (numbered : Bool)

/-- The entry points of the service. -/
inductive Action where
  | connected (now : ℕ)
  | disconnected
  | publishWork (now : ℕ) (timestampMs : UInt64) (answer : Answer)
  | publishResult (now : ℕ) (token : UInt32) (result : ℤ)
  | sample (now : ℕ) (reading : Except Errno Measurement)

/-- What an observer sees. -/
inductive Event where
  | connected
  | disconnected
  /-- the client accepted its `serial`-th submission -/
  | accepted (serial : ℕ) (p : Publication)
  | result (token : UInt32) (result : ℤ)
  deriving DecidableEq

/-- `publish_work_handler`. -/
def publishWork (s : State cfg) (now : ℕ) (timestampMs : UInt64) (answer : Answer) :
    State cfg × List Event :=
  let service := s.service.publishStarted
  match service.publishBuffer timestampMs with
  | .ok none => ({ s with service := service }, [])
  | .error err => ({ s with service := service.publishReturned now (.error err) }, [])
  | .ok (some submission) =>
    let serial := s.submissions + 1
    match answer with
    | .accepted =>
      ({ service := service.submitted now submission (some (UInt32.ofNat serial)) (.ok ())
         submissions := serial }, [.accepted serial submission.publication])
    | .refused err true =>
      ({ service := service.submitted now submission (some (UInt32.ofNat serial)) (.error err)
         submissions := serial }, [])
    | .refused err false =>
      ({ s with service := service.submitted now submission none (.error err) }, [])

/-- One call. -/
def step (s : State cfg) : Action → State cfg × List Event
  | .connected now => ({ s with service := s.service.onMqttConnected now }, [.connected])
  | .disconnected => ({ s with service := s.service.onMqttDisconnected }, [.disconnected])
  | .publishWork now timestampMs answer => publishWork s now timestampMs answer
  | .publishResult now token result =>
    ({ s with service := (s.service.publishResult now token result).1 }, [.result token result])
  | .sample now reading => ({ s with service := (s.service.sample now reading).1 }, [])

/-- The measurement service, called in any order. -/
def entryPoints (cfg : Config) : System (State cfg) Action Event where
  start := {}
  step s a := some (step s a)

/-! ## What an observer knows -/

/-- The current session, and the publication in flight. -/
structure View where
  connected : Bool := false
  /-- an NBIRTH of this session got result 0 for its own token -/
  born : Bool := false
  /-- the NDATAs of this session that did -/
  confirmed : ℕ := 0
  /-- accepted, and neither answered nor cut off by a disconnect -/
  inFlight : Option (ℕ × MessageType) := none
  disconnections : ℕ := 0

/-- A publication of this session got a result. -/
def View.answered (v : View) (type : MessageType) (result : ℤ) : View :=
  match type with
  | .nbirth => { v with inFlight := none, born := v.born || result = 0 }
  | .ndata =>
    { v with
      inFlight := none
      confirmed := if result = 0 then v.confirmed + 1 else v.confirmed }

/-- Follow one call. -/
def View.observe (v : View) : Event → View
  | .connected => { v with connected := true, born := false, confirmed := 0 }
  | .disconnected => { disconnections := v.disconnections + 1 }
  | .accepted serial p => { v with inFlight := some (serial, p.type) }
  | .result token result =>
    match v.inFlight with
    | some (serial, type) => if UInt32.ofNat serial = token then v.answered type result else v
    | none => v

/-- The view after a history. -/
def view (τ : List Event) : View := τ.foldl View.observe {}

@[simp] theorem view_append (τ es : List Event) :
    view (τ ++ es) = es.foldl View.observe (view τ) :=
  List.foldl_append ..

/-- Between two connections there is a disconnection. -/
def Alternating (_ : State cfg) (τ : List Event) : Action → Prop
  | .connected _ => (view τ).connected = false
  | _ => True

/-! ## The service agrees with the view -/

/-- What ties the service's variables to the view. -/
structure Agrees (s : State cfg) (v : View) : Prop where
  connected : s.service.mqttConnected = v.connected
  closed : v.connected = false → v.inFlight = none
  initialized : s.service.transmission.initialized
  bdSeq : s.service.bdSeq.toNat = v.disconnections % 256
  /-- the NBIRTH is pending until it is confirmed -/
  pending : v.connected → s.service.birthPending = !v.born
  unborn : v.born = false → v.confirmed = 0
  seq : v.born → s.service.transmission.nextSeq.toNat = (1 + v.confirmed) % 256
  idle : v.inFlight = none → s.service.publishInFlight = false
  busy : ∀ serial type, v.inFlight = some (serial, type) → s.service.publishInFlight ∧
    serial = s.submissions ∧ s.service.pendingPublishToken = UInt32.ofNat serial
  birth : ∀ serial, v.inFlight = some (serial, .nbirth) →
    s.service.birthInFlight ∧ v.born = false
  data : ∀ serial, v.inFlight = some (serial, .ndata) →
    s.service.birthInFlight = false ∧ v.born ∧ 0 < s.service.pendingMeasurementCount ∧
    s.service.pendingMeasurementCount ≤ s.service.transmission.count
  quiet : v.inFlight = none → s.service.birthInFlight = false

namespace Agrees

variable {s : State cfg} {v : View}

theorem start : Agrees (entryPoints cfg).start {} := by
  constructor <;> simp [entryPoints, Transmission.init]

theorem onConnected (h : Agrees s v) (hv : v.connected = false) (now : ℕ) :
    Agrees { s with service := s.service.onMqttConnected now } (v.observe .connected) := by
  obtain ⟨work, hwork⟩ := Service.requestPublish_eq
    { s.service with mqttConnected := true, birthPending := true } now 0
  rw [Service.onMqttConnected, hwork]
  have hnone := h.closed hv
  constructor <;> simp_all [View.observe, h.initialized, h.bdSeq, h.idle hnone, h.quiet hnone]

theorem onDisconnected (h : Agrees s v) :
    Agrees { s with service := s.service.onMqttDisconnected } (v.observe .disconnected) := by
  constructor <;>
    simp [View.observe, Service.onMqttDisconnected, h.initialized, h.bdSeq, Nat.add_mod]

theorem onSample (h : Agrees s v) (now : ℕ) (reading : Except Errno Measurement) :
    Agrees { s with service := (s.service.sample now reading).1 } v := by
  obtain ⟨dropped, sinceLog, last, work, transmission, hs, hitems, hseq, hinit⟩ :=
    s.service.sample_eq now reading
  rw [hs]
  refine ⟨h.connected, h.closed, hinit.trans h.initialized, h.bdSeq, h.pending, h.unborn,
    fun hb => ?_, h.idle, h.busy, h.birth, fun serial hv => ?_, h.quiet⟩
  · dsimp only
    rw [hseq, h.seq hb]
  · obtain ⟨hbirth, hborn, hpos, hle⟩ := h.data serial hv
    refine ⟨hbirth, hborn, hpos, ?_⟩
    -- what is in flight stays a prefix when the buffer grows
    rw [Transmission.count, hitems, List.length_append]
    exact le_trans hle (Nat.le_add_right _ _)

/-- When `publish_work` is due plays no part. -/
theorem work (h : Agrees s v) (work : Option ℕ) :
    Agrees { s with service := { s.service with publishWork := work } } v :=
  ⟨h.connected, h.closed, h.initialized, h.bdSeq, h.pending, h.unborn, h.seq, h.idle, h.busy,
    h.birth, h.data, h.quiet⟩

theorem onBirthResult (h : Agrees s v) {serial : ℕ} (hv : v.inFlight = some (serial, .nbirth))
    (now : ℕ) (result : ℤ) :
    Agrees { s with
        service := (s.service.publishResult now (UInt32.ofNat serial) result).1 }
      (v.answered .nbirth result) := by
  obtain ⟨hflight, -, htoken⟩ := h.busy serial _ hv
  obtain ⟨hbirth, hborn⟩ := h.birth serial hv
  have hconn : v.connected := by
    by_contra hc
    rw [h.closed (by simpa using hc)] at hv
    cases hv
  obtain ⟨work, hs⟩ := Service.publishResult_birth hflight htoken.symm hbirth now result
  rw [hs]
  have hpending := h.pending hconn
  have hzero := h.unborn hborn
  by_cases hr : result = 0
  · constructor <;> simp_all [View.answered, h.initialized, h.bdSeq, h.connected,
      Transmission.startSession]
  · constructor <;> simp_all [View.answered, h.initialized, h.bdSeq, h.connected]

theorem onDataResult (h : Agrees s v) {serial : ℕ} (hv : v.inFlight = some (serial, .ndata))
    (now : ℕ) (result : ℤ) :
    Agrees { s with
        service := (s.service.publishResult now (UInt32.ofNat serial) result).1 }
      (v.answered .ndata result) := by
  obtain ⟨hflight, -, htoken⟩ := h.busy serial _ hv
  obtain ⟨hbirth, hborn, hpos, hle⟩ := h.data serial hv
  have hseq := h.seq hborn
  by_cases hr : result = 0
  · obtain ⟨work, transmission, hs, -, hnext, hinit⟩ := Service.publishResult_data hflight
      htoken.symm hbirth h.initialized hpos hle now
    rw [hr, hs]
    refine ⟨h.connected, fun _ => rfl, hinit, h.bdSeq, h.pending, fun hb => ?_, fun _ => ?_,
      fun _ => rfl, nofun, nofun, nofun, fun _ => hbirth⟩
    · exact absurd hborn (by simpa [View.answered] using hb)
    · simp only [View.answered, hnext, sparkplugNextSeq_toNat, hseq, if_true]
      omega
  · obtain ⟨work, hs⟩ := Service.publishResult_failed hflight htoken.symm hbirth hr now
    rw [hs]
    refine ⟨h.connected, fun _ => rfl, h.initialized, h.bdSeq, h.pending, fun hb => ?_, fun _ => ?_,
      fun _ => rfl, nofun, nofun, nofun, fun _ => hbirth⟩
    · exact absurd hborn (by simpa [View.answered] using hb)
    · simpa [View.answered, hr] using hseq

/-- A result for anything but the publication in flight changes nothing. -/
theorem stale (h : Agrees s v) {token : UInt32}
    (ht : ∀ serial type, v.inFlight = some (serial, type) → UInt32.ofNat serial ≠ token)
    (now : ℕ) (result : ℤ) :
    s.service.publishResult now token result = (s.service, false, .none) := by
  refine Service.publishResult_stale ?_ now result
  rcases hv : v.inFlight with _ | ⟨serial, type⟩
  · exact .inl (h.idle hv)
  · refine .inr fun heq => ht serial type hv ?_
    rw [heq, (h.busy serial type hv).2.2]

theorem onResult (h : Agrees s v) (now : ℕ) (token : UInt32) (result : ℤ) :
    Agrees { s with service := (s.service.publishResult now token result).1 }
      (v.observe (.result token result)) := by
  rcases hv : v.inFlight with _ | ⟨serial, type⟩
  · rw [h.stale (by simp [hv]), View.observe, hv]
    exact h
  by_cases ht : UInt32.ofNat serial = token
  · subst ht
    simp only [View.observe, hv, if_true]
    cases type with
    | nbirth => exact h.onBirthResult hv now result
    | ndata => exact h.onDataResult hv now result
  · rw [h.stale (by simp [hv, ht])]
    simp only [View.observe, hv, if_neg ht]
    exact h

/-- A submission that was refused leaves everything to the next attempt. -/
theorem onRefused (h : Agrees s v) (hidle : s.service.publishInFlight = false) (now n : ℕ)
    (submission : Submission) (token : Option UInt32) (err : Errno) :
    Agrees { service := s.service.submitted now submission token (.error err)
             submissions := n } v := by
  obtain ⟨work, hwork⟩ := Service.publishReturned_eq
    { s.service with pendingPublishToken := token.getD s.service.pendingPublishToken } now
    (.error err)
  rw [Service.submitted, hwork]
  have hnone : v.inFlight = none := by
    rcases hv : v.inFlight with _ | ⟨serial, type⟩
    · rfl
    · rw [(h.busy serial type hv).1] at hidle
      cases hidle
  refine ⟨h.connected, h.closed, h.initialized, h.bdSeq, h.pending, h.unborn, h.seq, h.idle, ?_,
    h.birth, h.data, h.quiet⟩
  rw [hnone]
  nofun

/-- A submission that was accepted is in flight. -/
theorem onAccepted (h : Agrees s v) {timestampMs : UInt64} {submission : Submission}
    (hp : s.service.publishBuffer timestampMs = .ok (some submission)) (now : ℕ) :
    Agrees
      { service := s.service.submitted now submission (some (UInt32.ofNat (s.submissions + 1)))
          (.ok ())
        submissions := s.submissions + 1 }
      (v.observe (.accepted (s.submissions + 1) submission.publication)) := by
  obtain ⟨hconn, hidle, hkind⟩ := Service.publishBuffer_some hp
  have hvconn : v.connected := h.connected ▸ hconn
  have hpending := h.pending hvconn
  have hopen : v.connected ≠ false := by simp [hvconn]
  rcases hkind with ⟨hbirth, hpub⟩ | ⟨hbirth, hpub⟩
  · obtain ⟨htype, -⟩ := nbirthPublication_ok (Service.publishBirth_ok hpub).1
    have hborn : v.born = false := by simpa [hbirth] using hpending
    simp only [Service.submitted, View.observe, htype]
    exact ⟨h.connected, fun hc => absurd hc hopen, h.initialized, h.bdSeq, h.pending, h.unborn,
      h.seq, nofun, by simp, by simp [hborn], by simp, nofun⟩
  · obtain ⟨hcount, hpos, hndata, -⟩ := Service.publishData_ok hpub
    obtain ⟨htype, -⟩ := ndataPublication_ok hndata
    have hborn : v.born := by simpa [hbirth] using hpending
    have hquiet : s.service.birthInFlight = false := by
      refine h.quiet ?_
      rcases hv : v.inFlight with _ | ⟨serial, type⟩
      · rfl
      · rw [(h.busy serial type hv).1] at hidle
        cases hidle
    simp only [Service.submitted, View.observe, htype]
    exact ⟨h.connected, fun hc => absurd hc hopen, h.initialized, h.bdSeq, h.pending, h.unborn,
      h.seq, nofun, by simp, by simp, by simp [hquiet, hborn, hcount, hpos], nofun⟩

theorem onPublishWork (h : Agrees s v) (now : ℕ) (timestampMs : UInt64) (answer : Answer) :
    Agrees (publishWork s now timestampMs answer).1
      ((publishWork s now timestampMs answer).2.foldl View.observe v) := by
  have hstarted : Agrees { s with service := s.service.publishStarted } v := h.work none
  unfold publishWork
  dsimp only
  rcases hp : s.service.publishStarted.publishBuffer timestampMs with err | _ | submission
  · obtain ⟨work, hwork⟩ := s.service.publishStarted.publishReturned_eq now (.error err)
    dsimp only
    rw [hwork]
    exact hstarted.work work
  · exact hstarted
  · obtain ⟨-, hidle, -⟩ := Service.publishBuffer_some hp
    cases answer with
    | accepted => exact hstarted.onAccepted hp now
    | refused err numbered =>
      cases numbered <;> exact hstarted.onRefused hidle now _ submission _ err

end Agrees

theorem Agrees.of_run {s : State cfg} {τ : List Event}
    (hr : (entryPoints cfg).Run Alternating s τ) : Agrees s (view τ) := by
  refine hr.invariant (I := fun s τ => Agrees s (view τ)) Agrees.start ?_
  intro s τ a s' es h hok hs
  obtain ⟨rfl, rfl⟩ := Prod.mk.inj (Option.some.inj hs)
  rw [view_append]
  cases a with
  | connected now => exact h.onConnected hok now
  | disconnected => exact h.onDisconnected
  | publishWork now timestampMs answer => exact h.onPublishWork now timestampMs answer
  | publishResult now token result => exact h.onResult now token result
  | sample now reading => exact h.onSample now reading

/-! ## What is accepted -/

/-- What may be accepted after a history: there is a session with nothing in
flight, and the publication is an NBIRTH with sequence number 0 as long as no
NBIRTH is confirmed, and afterwards an NDATA that counts the confirmed ones. Its
bdSeq is the number of disconnections. -/
def InOrder (cfg : Config) (τ : List Event) : Event → Prop
  | .accepted _ p =>
    (view τ).connected ∧ (view τ).inFlight = none ∧
    p.bdSeq.toNat = (view τ).disconnections % 256 ∧
    match p.type with
    | .nbirth => (view τ).born = false ∧ p.seq = 0 ∧
        ∃ timestampMs, nbirthPublication cfg.payloadSize timestampMs p.bdSeq = .ok p
    | .ndata => (view τ).born ∧ p.seq.toNat = (1 + (view τ).confirmed) % 256 ∧
        ndataPublication cfg.payloadSize p.measurements p.seq p.bdSeq cfg.batch = .ok p
  | _ => True

theorem Agrees.inOrder {s : State cfg} {τ : List Event} (h : Agrees s (view τ))
    {timestampMs : UInt64} {submission : Submission}
    (hp : s.service.publishBuffer timestampMs = .ok (some submission)) (serial : ℕ) :
    InOrder cfg τ (.accepted serial submission.publication) := by
  obtain ⟨hconn, hidle, hkind⟩ := Service.publishBuffer_some hp
  have hvconn : (view τ).connected := h.connected ▸ hconn
  have hpending := h.pending hvconn
  have hnone : (view τ).inFlight = none := by
    rcases hv : (view τ).inFlight with _ | ⟨k, type⟩
    · rfl
    · rw [(h.busy k type hv).1] at hidle
      cases hidle
  refine ⟨hvconn, hnone, ?_⟩
  rcases hkind with ⟨hbirth, hpub⟩ | ⟨hbirth, hpub⟩
  · have hnbirth := (Service.publishBirth_ok hpub).1
    obtain ⟨htype, hseq, hbd, -⟩ := nbirthPublication_ok hnbirth
    rw [htype, hbd]
    exact ⟨h.bdSeq, by simpa [hbirth] using hpending, hseq, timestampMs, hnbirth⟩
  · obtain ⟨-, -, hndata, -⟩ := Service.publishData_ok hpub
    obtain ⟨htype, hseq, hbd, hms⟩ := ndataPublication_ok hndata
    have hborn : (view τ).born := by simpa [hbirth] using hpending
    rw [htype, hbd, hseq, hms]
    exact ⟨h.bdSeq, hborn, h.seq hborn, hndata⟩

/-- The only call that gets a publication accepted. -/
theorem publishWork_accepts {s : State cfg} {τ : List Event} (h : Agrees s (view τ)) (now : ℕ)
    (timestampMs : UInt64) (answer : Answer) :
    EachEvent (fun es e => InOrder cfg (τ ++ es) e)
      (publishWork s now timestampMs answer).2 := by
  have hstarted : Agrees { s with service := s.service.publishStarted } (view τ) := h.work none
  unfold publishWork
  dsimp only
  rcases hp : s.service.publishStarted.publishBuffer timestampMs with err | _ | submission
  · exact .nil
  · exact .nil
  · cases answer with
    | accepted =>
      refine .singleton ?_
      rw [List.append_nil]
      exact hstarted.inOrder hp _
    | refused err numbered => cases numbered <;> exact .nil

theorem publishWork_serials (s : State cfg) (now : ℕ) (timestampMs : UInt64) (answer : Answer) :
    s.submissions ≤ (publishWork s now timestampMs answer).1.submissions ∧
    ∀ serial p, .accepted serial p ∈ (publishWork s now timestampMs answer).2 →
      serial = (publishWork s now timestampMs answer).1.submissions := by
  unfold publishWork
  dsimp only
  rcases s.service.publishStarted.publishBuffer timestampMs with err | _ | submission
  · simp
  · simp
  · cases answer with
    | accepted => simp
    | refused err numbered => cases numbered <;> simp

/-- A token in the history was handed out. -/
theorem accepted_le_submissions {s : State cfg} {τ : List Event}
    (hr : (entryPoints cfg).Run Alternating s τ) :
    ∀ serial p, .accepted serial p ∈ τ → serial ≤ s.submissions := by
  refine hr.invariant
    (I := fun s τ => ∀ serial p, .accepted serial p ∈ τ → serial ≤ s.submissions) (by simp) ?_
  intro s τ a s' es ih _ hs serial p hmem
  obtain ⟨rfl, rfl⟩ := Prod.mk.inj (Option.some.inj hs)
  rcases List.mem_append.mp hmem with hold | hnew
  · have := ih serial p hold
    cases a with
    | publishWork now timestampMs answer =>
      exact le_trans this (publishWork_serials s now timestampMs answer).1
    | _ => exact this
  · cases a with
    | publishWork now timestampMs answer =>
      exact ((publishWork_serials s now timestampMs answer).2 serial p hnew).le
    | _ => simp at hnew

/-- **Order and numbering of the Original's publications.** Every accepted
publication is the one the session so far calls for; in particular there is
never a second one in flight. And a result for the token of any publication but
the one in flight changes nothing, as long as fewer than 2³² tokens have been
handed out since. -/
theorem session_order_and_numbering {s : State cfg} {τ : List Event}
    (hr : (entryPoints cfg).Run Alternating s τ) :
    EachEvent (InOrder cfg) τ ∧
    ∀ serial p, .accepted serial p ∈ τ → s.submissions < serial + 2 ^ 32 →
      (∀ type, (view τ).inFlight ≠ some (serial, type)) →
      ∀ now result, s.service.publishResult now (UInt32.ofNat serial) result =
        (s.service, false, .none) := by
  constructor
  · refine hr.eachEvent (I := fun s τ => Agrees s (view τ)) Agrees.of_run ?_
    intro s τ a s' es h _ hs
    obtain ⟨rfl, rfl⟩ := Prod.mk.inj (Option.some.inj hs)
    cases a with
    | publishWork now timestampMs answer => exact publishWork_accepts h now timestampMs answer
    | sample now reading => exact .nil
    | _ => exact .singleton trivial
  · intro serial p hmem hwrap hnot now result
    have h := Agrees.of_run hr
    have hle := accepted_le_submissions hr serial p hmem
    refine h.stale (fun k type hv heq => ?_) now result
    obtain ⟨-, rfl, -⟩ := h.busy k type hv
    have hmod : s.submissions % 2 ^ 32 = serial % 2 ^ 32 := by
      have := congrArg UInt32.toNat heq
      simpa using this
    have : s.submissions = serial := by omega
    exact hnot type (this ▸ hv)

/-- A schedule that confirms an NBIRTH, has the NDATA refused once and then accepted. -/
def refusedOnce : List Action :=
  [.sample 0 (.ok ⟨1700000000, 2150, 9000⟩), .connected 0, .publishWork 0 0 .accepted,
    .publishResult 0 1 0, .publishWork 0 0 (.refused .other true), .publishWork 15000 0 .accepted]

instance (s : State cfg) (τ : List Event) (a : Action) : Decidable (Alternating s τ a) := by
  cases a <;> unfold Alternating <;> infer_instance

theorem refusedOnce_replays :
    ((entryPoints singleConfig).replay Alternating (entryPoints singleConfig).start []
      refusedOnce).isSome := by
  decide +kernel

/-- The NBIRTH of that schedule. -/
def firstBirth : Publication :=
  { type := .nbirth, seq := 0, bdSeq := 0, measurements := []
    payload := payloadBytes { type := .nbirth } 0 true 0 }

theorem session_order_and_numbering_refusedOnce :
    ∃ s τ, EachEvent (InOrder singleConfig) τ ∧ .accepted 1 firstBirth ∈ τ ∧
      (s : State singleConfig).service.publishResult 0 1 0 = (s.service, false, .none) := by
  obtain ⟨horder, hstale⟩ := session_order_and_numbering (.of_isSome refusedOnce_replays)
  have hmem : .accepted 1 firstBirth ∈ (((entryPoints singleConfig).replay Alternating
      (entryPoints singleConfig).start [] refusedOnce).get refusedOnce_replays).2 := by
    decide +kernel
  refine ⟨_, _, horder, hmem, hstale 1 firstBirth hmem (by decide +kernel) ?_ 0 0⟩
  intro type
  cases type <;> decide +kernel

end Numbering

end Aitsm.Original
