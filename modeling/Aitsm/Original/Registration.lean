import Aitsm.Original.Connection

/-!
# The last report of the modem wins (`network.c`)

Every report of the modem goes through the event queue; its handler opens or closes the
gate of the client, which takes several steps and may have to wait for the lock, and then
tells the reconnect state machine. What both will know in the end is what was reported
last, whatever else is queued and whatever the threads of the client do meanwhile
(`last_report_wins`).
-/

namespace Aitsm.Original

open Library Library.System

/-- What an event says about LTE. -/
def AppEvent.lte? : AppEvent → Option Bool
  | .lteConnected => some true
  | .lteSearching | .lteDisconnected => some false
  | _ => none

/-! ## The client -/

namespace Client

variable {cfg : ClientConfig} {c c' : Client} {es : List Event}

/-- `lte_available`, when the running call has set it. -/
def gate (c : Client) : Bool :=
  match c.caller with
  | .lteSet => true
  | .lteClear => false
  | _ => c.lteAvailable

/-- What an action is called with. -/
def Action.lte? : Action → Option Bool
  | .callSetLteAvailable available => some available
  | _ => none

/-- What an event posts about LTE. -/
def Event.lte? : Event → Option Bool
  | .posted e => e.lte?
  | _ => none

theorem OtherCaller.gate (h : OtherCaller c c' es) : c'.gate = c.gate := by
  rw [Client.gate, Client.gate, h.caller, h.lteAvailable]

theorem gate_of_idle (hc : c.caller = .idle) : c.gate = c.lteAvailable := by
  rw [gate, hc]

theorem submit_gate (c : Client) (job : Job) : (c.submit job).gate = c.gate := by
  rw [submit]
  split <;> rfl

theorem callerStep_gate (h : c.callerStep = some (c', es)) : c'.gate = c.gate := by
  cases hc : c.caller <;> simp only [Client.callerStep, hc] at h
  case idle => cases h
  case publishSubmit | connectSubmit | disconnectSubmit =>
    cases h
    rw [submit_gate]
    simp [gate, hc]
  case lteClear =>
    -- a gate that is closed already is not closed again
    split at h <;> cases h
    · simp [gate, hc]
    · rename_i hlte
      simpa [gate, hc] using hlte
  case invalidate =>
    split at h <;> cases h
    simp [gate, hc, invalidate, cancelTimeout]
  case lteSet | publishRelease | publishCopy | publishGeneration | publishToken
      | publishNotSubmitted | connectNotSubmitted =>
    cases h
    simp [gate, hc]
  all_goals
    split at h <;> cases h
    all_goals simp [gate, hc]

/-- Only a call of `aitsm_mqtt_set_lte_available` changes what the gate will be. -/
theorem step_gate {a : Action} (h : c.step cfg a = some (c', es)) :
    c'.gate = a.lte?.getD c.gate := by
  cases ha : a.isCaller with
  | false =>
    have hother : a.lte? = none := by cases a <;> first | rfl | cases ha
    rw [hother]
    exact (OtherCaller.step ha h).gate
  | true =>
    cases a with
    | caller => exact callerStep_gate h
    | callPublish m =>
      -- whether or not it is refused at once
      obtain ⟨hidle, hstart⟩ := call_eq_some h
      rcases callPublish_cases cfg c m with ⟨err, hcase⟩ | hcase
      all_goals
        cases hcase.symm.trans hstart
        simp [Action.lte?, gate, hidle]
    | callConnect | callDisconnect =>
      obtain ⟨hidle, ⟨⟩⟩ := call_eq_some h
      simp [Action.lte?, gate, hidle]
    | callSetLteAvailable available =>
      obtain ⟨-, ⟨⟩⟩ := call_eq_some h
      cases available <;> rfl
    | callerNoSubmit err =>
      obtain ⟨hc, -, rfl⟩ | ⟨hc, -, rfl⟩ | ⟨hc, -, rfl⟩ := callerNoSubmit_cases h
      all_goals simp [Action.lte?, gate, hc]
    | _ => cases ha

theorem callerStep_quiet (h : c.callerStep = some (c', es)) : ∀ e ∈ es, e.lte? = none := by
  cases hc : c.caller <;> simp only [Client.callerStep, hc] at h
  case idle => cases h
  all_goals try split at h
  all_goals cases h
  all_goals simp [Event.lte?]

theorem workerStep_quiet (h : c.workerStep cfg = some (c', es)) : ∀ e ∈ es, e.lte? = none := by
  cases hw : c.worker <;> simp only [Client.workerStep, hw] at h
  case connectHelper | send | sending => cases h
  case sent w err =>
    split at h
    · cases h
    · obtain ⟨rfl, rfl⟩ := Prod.mk.inj (Option.some.inj h)
      intro e he
      rw [publishSent_events c w err e he]
      rfl
  case onDisconnect x =>
    cases x <;> simp only at h
    all_goals try split at h
    all_goals cases h
    all_goals simp [Event.lte?, AppEvent.lte?]
  all_goals try split at h
  all_goals try split at h
  all_goals cases h
  all_goals simp [Event.lte?, AppEvent.lte?]

theorem pollStep_quiet (h : c.pollStep = some (c', es)) : ∀ e ∈ es, e.lte? = none := by
  cases hp : c.poll <;> simp only [Client.pollStep, hp] at h
  case idle => cases h
  case onDisconnect x =>
    cases x <;> simp only at h
    all_goals try split at h
    all_goals cases h
    all_goals simp [Event.lte?, AppEvent.lte?]
  all_goals try split at h
  all_goals cases h
  all_goals simp [Event.lte?, AppEvent.lte?]

/-- The client posts nothing about LTE. -/
theorem step_quiet {a : Action} (h : c.step cfg a = some (c', es)) :
    ∀ e ∈ es, e.lte? = none := by
  cases a with
  | caller => exact callerStep_quiet h
  | worker => exact workerStep_quiet h
  | poll => exact pollStep_quiet h
  | callPublish m =>
    obtain ⟨-, hstart⟩ := call_eq_some h
    rcases callPublish_cases cfg c m with ⟨err, hcase⟩ | hcase
    all_goals
      cases hcase.symm.trans hstart
      simp [Event.lte?]
  | callConnect | callDisconnect | callSetLteAvailable =>
    obtain ⟨-, ⟨⟩⟩ := call_eq_some h
    simp
  | callerNoSubmit err =>
    obtain ⟨-, rfl, -⟩ | ⟨-, rfl, -⟩ | ⟨-, rfl, -⟩ := callerNoSubmit_cases h
    all_goals simp [Event.lte?]
  | workerConnect failed =>
    obtain ⟨g, -, rfl, -⟩ := workerConnect_cases h
    simp [Event.lte?]
  | workerMessageId id =>
    obtain ⟨-, rfl, -⟩ := workerMessageId_cases h
    simp
  | workerWrite transmitted =>
    obtain ⟨w, -, rfl, -⟩ := workerWrite_cases h
    simp [Event.lte?]
  | workerSent err =>
    obtain ⟨w, -, rfl, -⟩ := workerSent_cases h
    simp
  | pollConnack | pollDisconnect | pollError =>
    obtain ⟨-, -, rfl, -⟩ := pollStart_cases h
    simp
  | pollPuback id result =>
    obtain ⟨-, -, rfl, -⟩ := pollPuback_cases h
    simp [Event.lte?]
  | expire =>
    obtain ⟨-, rfl, -⟩ := expire_cases h
    simp
  | forget id =>
    cases h
    simp

end Client

/-! ## The controller -/

namespace Controller

variable {ccfg : ClientConfig} {rcfg : ReconnectConfig} {s s' : State} {es : List Event}

/-- What is known after an event that is still queued. -/
def eventLte (known : Bool) (e : AppEvent) : Bool := e.lte?.getD known

/-- What the reconnect state machine knows after a statement. -/
def statementLte (known : Bool) : Statement → Bool
  | .apply .lteUp => true
  | .apply .lteDown => false
  | _ => known

/-- How the gate is after a statement. -/
def statementGate (gate : Bool) : Statement → Bool
  | .setLteAvailable available => available
  | _ => gate

/-- What the running handler leaves to the reconnect state machine. -/
def known (s : State) : Bool := s.program.foldl statementLte s.reconnect.lteAvailable

/-- How the running handler leaves the gate. -/
def gateAfter (s : State) : Bool := s.program.foldl statementGate s.client.gate

/-- What the modem reports. -/
def Action.lte? : Action → Option Bool
  | .lte change => change.event.lte?
  | _ => none

theorem handleEvent_lte (reconnect : ReconnectState) (e : AppEvent) (b : Bool) :
    (handleEvent reconnect e).foldl statementLte b = eventLte b e ∧
      (handleEvent reconnect e).foldl statementGate b = eventLte b e := by
  cases e <;> simp only [handleEvent, lteLost]
  -- what these two do depends on the state, but LTE is not in it
  case mqttConnected | mqttError => split <;> exact ⟨rfl, rfl⟩
  all_goals exact ⟨rfl, rfl⟩

theorem reconnectHandle_lteAvailable (reconnect : ReconnectState) (e : ReconnectEvent) :
    (reconnectHandle rcfg reconnect e).1.lteAvailable =
      statementLte reconnect.lteAvailable (.apply e) := by
  cases e <;> simp only [reconnectHandle, statementLte]
  case lteDown => rfl
  all_goals
    split
    · rfl
    · simp_all

/-- What the client makes visible changes neither. -/
theorem observe_quiet {es : List Client.Event} (hes : ∀ e ∈ es, e.lte? = none) (s : State) :
    (es.foldl observe s).client = s.client ∧ known (es.foldl observe s) = known s ∧
      gateAfter (es.foldl observe s) = gateAfter s ∧
      ∀ b, (es.foldl observe s).queue.foldl eventLte b = s.queue.foldl eventLte b := by
  induction es generalizing s with
  | nil => exact ⟨rfl, rfl, rfl, fun _ => rfl⟩
  | cons e es ih =>
    obtain ⟨hclient, hknown, hgate, hqueue⟩ := ih (fun e he => hes e (List.mem_cons_of_mem _ he))
      (observe s e)
    rw [List.foldl_cons, hclient, hknown, hgate]
    simp only [hqueue]
    have he := hes e List.mem_cons_self
    unfold observe
    split
    · refine ⟨rfl, rfl, rfl, fun b => ?_⟩
      rw [List.foldl_append]
      simp only [Client.Event.lte?] at he
      simp [eventLte, he]
    · exact ⟨rfl, rfl, rfl, fun _ => rfl⟩
    · exact ⟨rfl, rfl, rfl, fun _ => rfl⟩

/-- A step of the client. -/
theorem clientStep_lte {a : Client.Action} (h : clientStep ccfg s a = some (s', es)) :
    known s' = known s ∧
      gateAfter s' = s.program.foldl statementGate (a.lte?.getD s.client.gate) ∧
      ∀ b, s'.queue.foldl eventLte b = s.queue.foldl eventLte b := by
  unfold clientStep at h
  split at h
  · rename_i c es' hstep
    obtain ⟨rfl, rfl⟩ := Prod.mk.inj (Option.some.inj h)
    obtain ⟨-, hknown, hgate, hqueue⟩ :=
      observe_quiet (Client.step_quiet hstep) { s with client := c }
    refine ⟨hknown, hgate.trans ?_, hqueue⟩
    rw [gateAfter, Client.step_gate hstep]
  · cases h

/-- Both know the same when the handler has finished, and the queue tells the rest. -/
structure Informed (s : State) (reported : Bool) : Prop where
  agree : known s = gateAfter s
  queued : s.queue.foldl eventLte (known s) = reported

theorem Informed.clientStep {reported : Bool} {a : Client.Action} (hi : Informed s reported)
    (ha : a.lte? = none) (h : clientStep ccfg s a = some (s', es)) : Informed s' reported := by
  obtain ⟨hknown, hgate, hqueue⟩ := clientStep_lte h
  rw [ha] at hgate
  exact ⟨hknown.trans (hi.agree.trans hgate.symm), by rw [hqueue, hknown, hi.queued]⟩

theorem perform_lte (s : State) (action : ReconnectAction) :
    known (perform s action) = known s ∧ gateAfter (perform s action) = gateAfter s ∧
      (perform s action).queue = s.queue := by
  cases action <;> exact ⟨rfl, rfl, rfl⟩

theorem Informed.statement {reported : Bool} (hi : Informed s reported)
    (h : statement ccfg rcfg s = some (s', es)) : Informed s' reported := by
  unfold Controller.statement at h
  split at h
  · cases h
  rename_i next rest hprogram
  have hknown : known s = rest.foldl statementLte (statementLte s.reconnect.lteAvailable next) := by
    rw [known, hprogram, List.foldl_cons]
  have hgate : gateAfter s = rest.foldl statementGate (statementGate s.client.gate next) := by
    rw [gateAfter, hprogram, List.foldl_cons]
  obtain ⟨hagree, hqueued⟩ := hi
  rw [hknown] at hagree hqueued
  rw [hgate] at hagree
  split at h
  case isFalse => cases h
  cases next with
  | setLteAvailable available =>
    obtain ⟨hknown', hgate', hqueue⟩ := clientStep_lte h
    exact ⟨hknown'.trans (hagree.trans hgate'.symm), by rw [hqueue, hknown']; exact hqueued⟩
  | disconnect | connect =>
    have hrest : Informed { s with program := rest } reported := ⟨hagree, hqueued⟩
    exact hrest.clientStep rfl h
  | postError =>
    obtain ⟨rfl, rfl⟩ := Prod.mk.inj (Option.some.inj h)
    refine ⟨hagree, ?_⟩
    rw [List.foldl_append]
    exact hqueued
  | notify n =>
    obtain ⟨rfl, rfl⟩ := Prod.mk.inj (Option.some.inj h)
    exact ⟨hagree, hqueued⟩
  | apply e =>
    obtain ⟨rfl, rfl⟩ := Prod.mk.inj (Option.some.inj h)
    obtain ⟨hknown', hgate', hqueue⟩ := perform_lte
      { s with program := rest, reconnect := (reconnectHandle rcfg s.reconnect e).1 }
      (reconnectHandle rcfg s.reconnect e).2
    -- the state machine now knows what the statement says
    have hsame : known { s with
          program := rest, reconnect := (reconnectHandle rcfg s.reconnect e).1 } =
        rest.foldl statementLte (statementLte s.reconnect.lteAvailable (.apply e)) := by
      rw [known, reconnectHandle_lteAvailable]
    refine ⟨?_, ?_⟩
    · rw [applyReconnect, hknown', hgate', hsame]
      exact hagree
    · rw [applyReconnect, hknown', hqueue, hsame]
      exact hqueued

theorem isCall_lte {a : Client.Action} (h : isCall a = false) : a.lte? = none := by
  cases a with
  | callSetLteAvailable => cases h
  | _ => rfl

theorem free_program (h : free s) : s.program = [] ∧ s.client.caller = .idle := by
  simpa [free] using h

theorem Informed.step {reported : Bool} {a : Action} (hi : Informed s reported)
    (h : step ccfg rcfg s a = some (s', es)) : Informed s' (a.lte?.getD reported) := by
  cases a with
  | client a =>
    simp only [Controller.step] at h
    split at h
    · cases h
    · rename_i ha
      exact hi.clientStep (isCall_lte (by simpa using ha)) h
  | statement => exact hi.statement h
  | handle =>
    simp only [Controller.step] at h
    split at h
    · cases h
    rename_i e rest hqueue
    split at h
    case isFalse => cases h
    rename_i hfree
    obtain ⟨rfl, rfl⟩ := Prod.mk.inj (Option.some.inj h)
    obtain ⟨hprogram, -⟩ := free_program hfree
    obtain ⟨hagree, hqueued⟩ := hi
    -- the program of the handler does what the event says
    have hbefore : known s = s.reconnect.lteAvailable ∧ gateAfter s = s.client.gate := by
      rw [known, gateAfter, hprogram]
      exact ⟨rfl, rfl⟩
    rw [hqueue, List.foldl_cons, hbefore.1] at hqueued
    rw [hbefore.1, hbefore.2] at hagree
    refine ⟨?_, ?_⟩
    · rw [known, gateAfter, (handleEvent_lte _ e _).1, (handleEvent_lte _ e _).2, hagree]
    · rw [known, (handleEvent_lte _ e _).1]
      exact hqueued
  | reconnectWork =>
    simp only [Controller.step] at h
    split at h
    case isFalse => cases h
    rename_i hfree
    obtain ⟨rfl, rfl⟩ := Prod.mk.inj (Option.some.inj h)
    obtain ⟨hprogram, -⟩ := free_program hfree.1
    obtain ⟨hagree, hqueued⟩ := hi
    rw [known, hprogram] at hagree hqueued
    rw [gateAfter, hprogram] at hagree
    exact ⟨hagree, hqueued⟩
  | publish m =>
    simp only [Controller.step] at h
    split at h
    · exact hi.clientStep rfl h
    · cases h
  | lte change =>
    -- the report is the last in the queue
    obtain ⟨rfl, rfl⟩ := Prod.mk.inj (Option.some.inj h)
    refine ⟨hi.agree, ?_⟩
    rw [List.foldl_append]
    change eventLte (s.queue.foldl eventLte (known s)) change.event = _
    rw [hi.queued]
    rfl
  | expire =>
    simp only [Controller.step] at h
    split at h
    · obtain ⟨rfl, rfl⟩ := Prod.mk.inj (Option.some.inj h)
      exact ⟨hi.agree, hi.queued⟩
    · cases h

/-- What the modem has reported last; at first it is not registered. -/
def reported (ρ : List (System.Step State Action Event)) : Bool :=
  ρ.foldl (fun known x => x.action.lte?.getD known) false

theorem Informed.of_run {ρ : List (System.Step State Action Event)}
    (hr : (controller ccfg rcfg).record.Run anyStep s ρ) : Informed s (reported ρ) := by
  refine hr.invariant (I := fun s ρ => Informed s (reported ρ)) ⟨rfl, rfl⟩ ?_
  intro s ρ a s' xs hi _ hs
  obtain ⟨es, hstep, rfl⟩ := record_step hs
  rw [reported, List.foldl_append]
  exact hi.step hstep

/-- **The last report wins.** In every run, whenever the system workqueue is between two
handlers, the reconnect state machine and the gate of the client agree on LTE, and the
events that are still queued make of it what the modem has reported last. So when the queue
is empty both know the last report, as long as no event found the queue full. -/
theorem last_report_wins {ρ : List (System.Step State Action Event)}
    (hr : (controller ccfg rcfg).record.Run anyStep s ρ) (hfree : free s) :
    s.reconnect.lteAvailable = s.client.lteAvailable ∧
      s.queue.foldl eventLte s.client.lteAvailable = reported ρ := by
  obtain ⟨hprogram, hidle⟩ := free_program hfree
  obtain ⟨hagree, hqueued⟩ := Informed.of_run hr
  rw [gateAfter, hprogram, List.foldl_nil, Client.gate_of_idle hidle] at hagree
  rw [hagree] at hqueued
  rw [known, hprogram, List.foldl_nil] at hagree
  exact ⟨hagree, hqueued⟩

/-- LTE is lost while its handler still connects. -/
def lostWhileConnecting : List Action :=
  [.lte .searching, .lte .connected, .handle, .statement, .client .caller, .statement, .statement,
    .handle, .statement, .lte .searching, .client .caller, .statement, .statement] ++
    List.replicate 4 (.client .caller)

theorem lostWhileConnecting_replays :
    ((controller defaultClient defaultReconnect).record.replay anyStep
      (controller defaultClient defaultReconnect).start [] lostWhileConnecting).isSome := by
  decide +kernel

theorem last_report_wins_lostWhileConnecting :
    ∃ s ρ, (controller defaultClient defaultReconnect).record.Run anyStep s ρ ∧ free s ∧
      s.client.lteAvailable = true ∧ reported ρ = false ∧
      s.queue.foldl eventLte s.client.lteAvailable = reported ρ := by
  have hr := System.Run.of_isSome lostWhileConnecting_replays
  exact ⟨_, _, hr, by decide +kernel, by decide +kernel, by decide +kernel,
    (last_report_wins hr (by decide +kernel)).2⟩

end Controller

end Aitsm.Original
