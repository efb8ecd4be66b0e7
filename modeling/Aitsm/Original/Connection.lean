import Aitsm.Original.Calls
import Aitsm.Original.Controller

/-!
# What the controller believes about the connection

CONNECTED is posted after a check that is not made under a lock, and it does not
name its session. When the poll thread is held up between the check and the
post, the session can end and its DISCONNECTED be posted first; the controller
then believes in a connection that is gone (`connected_without_connection`).

Where no CONNECTED is posted late (`Prompt`), what the controller will believe
once everything queued is handled (`believed`) is never more than the flag of
the client and the DISCONNECTEDs still to be posted allow.
-/

namespace Aitsm.Original

open Library Library.Wire
open Library.System (anyStep)

namespace Client

/-- `mqtt_on_disconnect` has cleared `helper_connected` and not yet posted. -/
def Closing.cleared : Closing → Bool
  | .connected => false
  | .pending | .publish | .post => true

def Worker.closing : Worker → Bool
  | .onDisconnect c => c.cleared
  | _ => false

def Poll.closing : Poll → Bool
  | .onDisconnect c => c.cleared
  | _ => false

/-- A DISCONNECTED is about to be posted. -/
def closing (c : Client) : Bool := c.worker.closing || c.poll.closing

example : ¬ Poll.closing (.onDisconnect .connected) ∧ Poll.closing (.onDisconnect .post) := by
  decide +kernel

/-- What a step of the client does to the connection. -/
structure Reports (c c' : Client) (es : List Event) : Prop where
  /-- who clears the flag will post DISCONNECTED -/
  cleared : c'.helperConnected = false → c.helperConnected = false ∨ c'.closing
  closes : c.closing → c'.closing ∨ es = [.posted .mqttDisconnected]
  connected : .posted .mqttConnected ∈ es → c.poll = .connackPost ∧
    c'.closing = c.closing ∧ c'.helperConnected = c.helperConnected

variable {cfg : ClientConfig} {c c' : Client} {es : List Event}

namespace Reports

/-- The step does not touch the connection. -/
theorem quiet (hes : .posted .mqttConnected ∉ es) (hclosing : c'.closing = c.closing)
    (hhelper : c'.helperConnected = c.helperConnected := by rfl) : Reports c c' es where
  cleared h := .inl (hhelper ▸ h)
  closes h := .inl (hclosing ▸ h)
  connected hm := absurd hm hes

/-- `mqtt_on_disconnect` goes on, up to its post. -/
theorem closes_on (hes : .posted .mqttConnected ∉ es) (hclosing : c'.closing) :
    Reports c c' es where
  cleared _ := .inr hclosing
  closes _ := .inl hclosing
  connected hm := absurd hm hes

/-- It posts DISCONNECTED. -/
theorem disconnected (hhelper : c'.helperConnected = c.helperConnected := by rfl) :
    Reports c c' [.posted .mqttDisconnected] where
  cleared h := .inl (hhelper ▸ h)
  closes _ := .inr rfl
  connected hm := by simp at hm

theorem submit (h : Reports c c' es) (job : Job) : Reports c (c'.submit job) es := by
  rw [Client.submit]
  split
  · exact h
  · exact { h with }

theorem callerStep (h : c.callerStep = some (c', es)) : Reports c c' es := by
  cases hc : c.caller <;> simp only [Client.callerStep, hc] at h
  case idle => cases h
  case publishSubmit | connectSubmit | disconnectSubmit =>
    cases h
    have hidle {e : Event} (he : e ≠ .posted .mqttConnected) :
        Reports c { c with caller := .idle } [e] := quiet (by simpa using he.symm) rfl
    exact (hidle (by simp)).submit _
  case publishCopy | publishGeneration | publishToken | publishRelease | publishNotSubmitted
      | connectNotSubmitted | lteSet =>
    cases h
    exact quiet (by simp) rfl
  all_goals
    split at h <;> cases h
    all_goals exact quiet (by simp) rfl

/-- The worker moves on outside `mqtt_on_disconnect`. -/
theorem withWorker (hes : .posted .mqttConnected ∉ es) (hw : c.worker.closing = false)
    (hw' : c'.worker.closing = false) (hpoll : c'.poll = c.poll := by rfl)
    (hhelper : c'.helperConnected = c.helperConnected := by rfl) : Reports c c' es :=
  quiet hes (by rw [closing, closing, hw, hw', hpoll]) hhelper

theorem publishSent {w : Write} {err : ℤ} (hw : c.worker = .sent w err) :
    Reports c (c.publishSent w err).1 (c.publishSent w err).2 := by
  have hclosing : c.worker.closing = false := by rw [hw]; rfl
  rw [Client.publishSent]
  split
  · exact withWorker (by simp) hclosing rfl
  split
  · exact withWorker (by simp) hclosing rfl
  · exact withWorker (by simp) hclosing rfl

theorem workerStep (h : c.workerStep cfg = some (c', es)) : Reports c c' es := by
  cases hw : c.worker <;> simp only [Client.workerStep, hw] at h
  case idle =>
    split at h <;> cases h
    rename_i job _ _
    exact withWorker (by simp) (by rw [hw]; rfl) (by cases job <;> rfl)
  case sent w err =>
    split at h
    · cases h
    · obtain ⟨rfl, rfl⟩ := Prod.mk.inj (Option.some.inj h)
      exact publishSent hw
  case onDisconnect x =>
    cases x <;> simp only at h
    case connected =>
      split at h <;> cases h
      exact closes_on (by simp) rfl
    case pending | publish =>
      cases h
      exact closes_on (by simp) rfl
    case post =>
      cases h
      exact disconnected
  case publish =>
    split at h <;> try split at h
    all_goals cases h
    exact withWorker (by simp) (by rw [hw]; rfl) rfl
  case connectHelper | send | sending => cases h
  case connectRelease | connectGeneration | connectSetGeneration | connectFailed | connectPostError
      | release | postFailed | timeoutId | timeoutPublishGeneration =>
    cases h
    exact withWorker (by simp) (by rw [hw]; rfl) rfl
  all_goals
    split at h <;> cases h
    all_goals exact withWorker (by simp) (by rw [hw]; rfl) rfl

/-- The poll thread moves on outside `mqtt_on_disconnect`. -/
theorem withPoll (hes : .posted .mqttConnected ∉ es) (hp : c.poll.closing = false)
    (hp' : c'.poll.closing = false) (hworker : c'.worker = c.worker := by rfl)
    (hhelper : c'.helperConnected = c.helperConnected := by rfl) : Reports c c' es :=
  quiet hes (by rw [closing, closing, hp, hp', hworker]) hhelper

theorem pollStep (h : c.pollStep = some (c', es)) : Reports c c' es := by
  cases hp : c.poll <;> simp only [Client.pollStep, hp] at h
  case idle => cases h
  case connackPost =>
    cases h
    have hclosing : closing { c with poll := .idle } = c.closing := by
      rw [closing, closing, hp]
      rfl
    exact ⟨.inl, fun hc => .inl (hclosing ▸ hc), fun _ => ⟨hp, hclosing, rfl⟩⟩
  case connackConnected =>
    cases h
    have hclosing : closing { c with poll := .connackLte, helperConnected := true } = c.closing := by
      rw [closing, closing, hp]
      rfl
    exact ⟨fun hdown => absurd hdown (by simp), fun hc => .inl (hclosing ▸ hc), by simp⟩
  case connackSubmit =>
    cases h
    have hidle : Reports c { c with poll := .idle } [] := withPoll (by simp) (by rw [hp]; rfl) rfl
    exact hidle.submit .disconnect
  case onDisconnect x =>
    cases x <;> simp only at h
    case connected =>
      split at h <;> cases h
      exact closes_on (by simp) (Bool.or_true _)
    case pending | publish =>
      cases h
      exact closes_on (by simp) (Bool.or_true _)
    case post =>
      cases h
      exact disconnected
  case connack accepted =>
    cases h
    exact withPoll (by simp) (by rw [hp]; rfl) (by cases accepted <;> rfl)
  case connackLte | connackGeneration | connackInvalidate | refusedLte | refusedGeneration =>
    split at h <;> cases h
    all_goals exact withPoll (by simp) (by rw [hp]; rfl) rfl
  all_goals
    cases h
    exact withPoll (by simp) (by rw [hp]; rfl) rfl

theorem step {a : Action} (h : c.step cfg a = some (c', es)) : Reports c c' es := by
  cases a with
  | caller => exact callerStep h
  | worker => exact workerStep h
  | poll => exact pollStep h
  | callPublish m =>
    obtain ⟨-, hstart⟩ := call_eq_some h
    rcases callPublish_cases cfg c m with ⟨err, hcase⟩ | hcase
    all_goals
      cases hcase.symm.trans hstart
      exact quiet (by simp) rfl
  | callConnect | callDisconnect | callSetLteAvailable =>
    obtain ⟨-, ⟨⟩⟩ := call_eq_some h
    exact quiet (by simp) rfl
  | callerNoSubmit err =>
    obtain ⟨-, rfl, rfl⟩ | ⟨-, rfl, rfl⟩ | ⟨-, rfl, rfl⟩ := callerNoSubmit_cases h
    all_goals exact quiet (by simp) rfl
  | workerConnect failed =>
    obtain ⟨g, hw, rfl, rfl | ⟨-, rfl⟩⟩ := workerConnect_cases h
    all_goals exact withWorker (by simp) (by rw [hw]; rfl) rfl
  | workerMessageId id =>
    obtain ⟨hw, rfl, -, rfl⟩ := workerMessageId_cases h
    exact withWorker (by simp) (by rw [hw]; rfl) rfl
  | workerWrite transmitted =>
    obtain ⟨w, hw, rfl, rfl⟩ := workerWrite_cases h
    exact withWorker (by simp) (by rw [hw]; rfl) rfl
  | workerSent err =>
    obtain ⟨w, hw, rfl, rfl⟩ := workerSent_cases h
    exact withWorker (by simp) (by rw [hw]; rfl) rfl
  | pollConnack | pollDisconnect | pollError =>
    obtain ⟨hp, -, rfl, rfl⟩ := pollStart_cases h
    exact withPoll (by simp) (by rw [hp]; rfl) rfl
  | pollPuback id result =>
    obtain ⟨hp, -, rfl, ⟨-, rfl⟩ | rfl⟩ := pollPuback_cases h
    · exact withPoll (by simp) (by rw [hp]; rfl) rfl
    · exact quiet (by simp) rfl
  | expire =>
    obtain ⟨-, rfl, rfl⟩ := expire_cases h
    have htimer : Reports c { c with timer := false } [] := quiet (by simp) rfl
    exact htimer.submit .pubackTimeout
  | forget id =>
    cases h
    exact quiet (by simp) rfl

end Reports

/-- Only the end of `mqtt_on_connack` posts CONNECTED. -/
theorem posted_connected {a : Action} (h : c.step cfg a = some (c', es))
    (hm : .posted .mqttConnected ∈ es) : a = .poll := by
  cases a with
  | poll => rfl
  | caller =>
    cases hc : c.caller <;> simp only [step, callerStep, hc] at h
    all_goals try split at h
    all_goals cases h
    all_goals simp at hm
  | worker =>
    cases hw : c.worker <;> simp only [step, workerStep, hw] at h
    case sent w err =>
      split at h
      · cases h
      · obtain ⟨-, rfl⟩ := Prod.mk.inj (Option.some.inj h)
        cases publishSent_events c w err _ hm
    case onDisconnect x =>
      cases x <;> simp only at h
      all_goals try split at h
      all_goals cases h
      all_goals simp at hm
    case publish =>
      split at h <;> try split at h
      all_goals cases h
      cases hm
    all_goals try split at h
    all_goals cases h
    all_goals simp at hm
  | callPublish m =>
    obtain ⟨-, hstart⟩ := call_eq_some h
    obtain ⟨err, herr⟩ := callPublish_events cfg c m _ (by rw [hstart]; exact hm)
    cases herr
  | callConnect | callDisconnect | callSetLteAvailable =>
    obtain ⟨-, ⟨⟩⟩ := call_eq_some h
    cases hm
  | callerNoSubmit err =>
    obtain ⟨-, rfl, rfl⟩ | ⟨-, rfl, rfl⟩ | ⟨-, rfl, rfl⟩ := callerNoSubmit_cases h
    all_goals simp at hm
  | workerConnect failed =>
    obtain ⟨g, -, rfl, -⟩ := workerConnect_cases h
    simp at hm
  | workerMessageId id =>
    obtain ⟨-, rfl, -⟩ := workerMessageId_cases h
    cases hm
  | workerWrite transmitted =>
    obtain ⟨w, -, rfl, -⟩ := workerWrite_cases h
    simp at hm
  | workerSent err =>
    obtain ⟨w, -, rfl, -⟩ := workerSent_cases h
    cases hm
  | pollConnack | pollDisconnect | pollError =>
    obtain ⟨-, -, rfl, -⟩ := pollStart_cases h
    cases hm
  | pollPuback id result =>
    obtain ⟨-, -, rfl, -⟩ := pollPuback_cases h
    simp at hm
  | expire =>
    obtain ⟨-, rfl, -⟩ := expire_cases h
    cases hm
  | forget id =>
    cases h
    cases hm

end Client

namespace Controller

variable {ccfg : ClientConfig} {rcfg : ReconnectConfig}

/-! ## What the controller will believe -/

/-- The belief after an event that is still queued. -/
def eventBelief (belief : Bool) : AppEvent → Bool
  | .mqttConnected => true
  | .mqttDisconnected => false
  | _ => belief

/-- The belief after a statement that is still to be executed. -/
def statementBelief (belief : Bool) : Statement → Bool
  | .apply .mqttUp => true
  | .apply .failure => false
  | _ => belief

/-- What the controller will believe when the handler has finished and the queue
is empty. -/
def believed (s : State) : Bool :=
  s.queue.foldl eventBelief
    (s.program.foldl statementBelief (s.reconnect.phase = .connected))

/-- No CONNECTED is posted for a session that has ended, unless the worker is
about to post its DISCONNECTED. -/
def Prompt (s : State) (_ : List Event) : Action → Prop
  | .client .poll =>
    s.client.poll = .connackPost → s.client.helperConnected ∨ s.client.worker.closing
  | _ => True

/-- The controller will believe in a connection only if there is one, or it is
about to be told otherwise. -/
structure Honest (s : State) : Prop where
  belief : believed s → s.client.helperConnected ∨ s.client.closing
  lte : s.reconnect.phase = .connected → s.reconnect.lteAvailable

theorem eventBelief_mono {b b' : Bool} (h : b → b') (e : AppEvent) :
    eventBelief b e → eventBelief b' e := by
  cases e <;> first | exact h | exact id

theorem foldl_eventBelief_mono {b b' : Bool} (h : b → b') (es : List AppEvent) :
    es.foldl eventBelief b = true → es.foldl eventBelief b' = true := by
  induction es generalizing b b' with
  | nil => exact h
  | cons e es ih => exact ih (eventBelief_mono h e)

theorem statementBelief_mono {b b' : Bool} (h : b → b') (st : Statement) :
    statementBelief b st → statementBelief b' st := by
  rcases st with available | _ | _ | _ | n | e
  case apply => cases e <;> first | exact h | exact id
  all_goals exact h

theorem foldl_statementBelief_mono {b b' : Bool} (h : b → b') (sts : List Statement) :
    sts.foldl statementBelief b = true → sts.foldl statementBelief b' = true := by
  induction sts generalizing b b' with
  | nil => exact h
  | cons st sts ih => exact ih (statementBelief_mono h st)

/-- A handler makes of an event what was expected, or less. -/
theorem handleEvent_belief (reconnect : ReconnectState) (e : AppEvent) (b : Bool) :
    (handleEvent reconnect e).foldl statementBelief b = true → eventBelief b e = true := by
  cases e with
  | mqttConnected => exact fun _ => rfl
  | mqttDisconnected => exact id
  | mqttError =>
    simp only [handleEvent]
    split <;> exact fun h => Bool.noConfusion h
  | _ => exact id

/-- `apply_reconnect` leads to what was expected, or less. -/
theorem reconnectHandle_belief {reconnect : ReconnectState}
    (hlte : reconnect.phase = .connected → reconnect.lteAvailable) (e : ReconnectEvent)
    (h : (reconnectHandle rcfg reconnect e).1.phase = .connected) :
    statementBelief (reconnect.phase = .connected) (.apply e) := by
  unfold reconnectHandle at h
  cases e with
  | mqttUp => rfl
  | lteDown => cases h
  | failure =>
    dsimp only at h
    split at h
    · cases h
    · rename_i hnot
      exact absurd ⟨hlte h, by rw [h]; exact nofun⟩ hnot
  | lteUp =>
    dsimp only at h
    split at h
    · cases h
    · simpa [statementBelief] using h
  | timer =>
    dsimp only at h
    split at h
    · cases h
    · simpa [statementBelief] using h

theorem reconnectHandle_lte {reconnect : ReconnectState}
    (hlte : reconnect.phase = .connected → reconnect.lteAvailable) (e : ReconnectEvent)
    (h : (reconnectHandle rcfg reconnect e).1.phase = .connected) :
    (reconnectHandle rcfg reconnect e).1.lteAvailable := by
  unfold reconnectHandle at h ⊢
  cases e with
  | lteDown => cases h
  | _ =>
    dsimp only at h ⊢
    split <;> simp_all

namespace Honest

variable {s : State}

theorem start : Honest (controller ccfg rcfg).start := by
  constructor <;> simp [controller, believed, reconnectInit]

/-- A step of the client keeps the controller honest. -/
theorem clientStep (h : Honest s) {a : Client.Action}
    (hok : a = .poll → s.client.poll = .connackPost →
      s.client.helperConnected ∨ s.client.worker.closing)
    {s' : State} {es : List Event} (hs : Controller.clientStep ccfg s a = some (s', es)) :
    Honest s' := by
  unfold Controller.clientStep at hs
  rcases hstep : s.client.step ccfg a with _ | ⟨c, es'⟩
  · rw [hstep] at hs
    cases hs
  rw [hstep] at hs
  obtain ⟨rfl, rfl⟩ := Prod.mk.inj (Option.some.inj hs)
  have hr := Client.Reports.step hstep
  -- without a new event the belief may stay as it was
  have hstays : es' ≠ [.posted .mqttDisconnected] → believed s →
      c.helperConnected ∨ c.closing := by
    intro hnot hb
    by_contra hc
    obtain ⟨hdown, hopen⟩ := not_or.mp hc
    rcases hr.cleared (by simpa using hdown) with hdown' | hclosing
    · rcases h.belief hb with hup | hclosing
      · rw [hdown'] at hup
        cases hup
      · exact (hr.closes hclosing).elim hopen hnot
    · exact hopen hclosing
  rcases es' with _ | ⟨e, rest⟩
  · exact ⟨hstays (by simp), h.lte⟩
  obtain rfl : rest = [] :=
    List.eq_nil_of_length_eq_zero (by simpa using Client.step_events hstep)
  by_cases hconn : e = .posted .mqttConnected
  · subst hconn
    obtain ⟨hpoll, hclosing, hhelper⟩ := hr.connected List.mem_cons_self
    have := hok (Client.posted_connected hstep List.mem_cons_self) hpoll
    refine ⟨fun _ => ?_, h.lte⟩
    dsimp only [List.foldl, observe]
    rw [hclosing, hhelper]
    exact this.imp id fun hw => by simp [Client.closing, hw]
  by_cases hdisc : e = .posted .mqttDisconnected
  · subst hdisc
    refine ⟨fun hb => ?_, h.lte⟩
    simp [observe, believed, eventBelief] at hb
  -- no other event changes the belief
  have hsame : believed (observe { s with client := c } e) = believed s ∧
      (observe { s with client := c } e).client = c ∧
      (observe { s with client := c } e).reconnect = s.reconnect := by
    unfold observe
    split
    · rename_i e
      cases e <;> simp_all [believed, eventBelief]
    · simp [believed, statementBelief]
    · simp [believed]
  obtain ⟨hb, hc, hrec⟩ := hsame
  refine ⟨fun hb' => ?_, fun hp => ?_⟩
  · rw [List.foldl_cons, List.foldl_nil] at hb' ⊢
    rw [hc]
    exact hstays (by simpa using hdisc) (hb ▸ hb')
  · rw [List.foldl_cons, List.foldl_nil] at hp ⊢
    rw [hrec] at hp ⊢
    exact h.lte hp

/-- Less belief with the same connection. -/
theorem of_le (h : Honest s) {s' : State} (hclient : s'.client = s.client)
    (hb : believed s' → believed s)
    (hlte : s'.reconnect.phase = .connected → s'.reconnect.lteAvailable) : Honest s' := by
  refine ⟨fun hb' => ?_, hlte⟩
  rw [hclient]
  exact h.belief (hb hb')

/-- What `apply_reconnect` calls says nothing about the connection. -/
theorem perform_eq (s : State) (a : ReconnectAction) :
    believed (perform s a) = believed s ∧ (perform s a).client = s.client ∧
      (perform s a).reconnect = s.reconnect := by
  cases a <;> exact ⟨rfl, rfl, rfl⟩

/-- The next statement keeps the controller honest. -/
theorem statement (h : Honest s) {s' : State} {es : List Event}
    (hs : Controller.statement ccfg rcfg s = some (s', es)) : Honest s' := by
  unfold Controller.statement at hs
  rcases hprogram : s.program with _ | ⟨next, rest⟩
  · rw [hprogram] at hs
    cases hs
  rw [hprogram] at hs
  obtain ⟨-, hs⟩ := Option.ite_none_right_eq_some.mp hs
  dsimp only at hs
  have hbelieved : believed s = s.queue.foldl eventBelief (rest.foldl statementBelief
      (statementBelief (s.reconnect.phase = .connected) next)) := by
    rw [believed, hprogram, List.foldl_cons]
  cases next with
  | setLteAvailable available =>
    have hrest : Honest { s with program := rest } := h.of_le rfl (hbelieved ▸ id) h.lte
    exact hrest.clientStep (fun ha => by cases ha) hs
  | disconnect | connect =>
    have hrest : Honest { s with program := rest } := h.of_le rfl (hbelieved ▸ id) h.lte
    exact hrest.clientStep (fun ha => by cases ha) hs
  | postError =>
    obtain ⟨rfl, rfl⟩ := Prod.mk.inj (Option.some.inj hs)
    refine h.of_le rfl (fun hb => ?_) h.lte
    rw [believed, List.foldl_append] at hb
    exact hbelieved ▸ hb
  | notify n =>
    obtain ⟨rfl, rfl⟩ := Prod.mk.inj (Option.some.inj hs)
    exact h.of_le rfl (hbelieved ▸ id) h.lte
  | apply e =>
    obtain ⟨rfl, rfl⟩ := Prod.mk.inj (Option.some.inj hs)
    obtain ⟨hb, hclient, hreconnect⟩ := perform_eq
      { s with program := rest, reconnect := (reconnectHandle rcfg s.reconnect e).1 }
      (reconnectHandle rcfg s.reconnect e).2
    refine h.of_le hclient (fun hb' => ?_) fun hp => ?_
    · rw [applyReconnect, hb] at hb'
      rw [hbelieved]
      refine foldl_eventBelief_mono (foldl_statementBelief_mono (fun hp => ?_) rest) _ hb'
      exact reconnectHandle_belief h.lte e (by simpa using hp)
    · rw [applyReconnect, hreconnect] at hp ⊢
      exact reconnectHandle_lte h.lte e hp

theorem step (h : Honest s) {a : Action} {τ : List Event} (hok : Prompt s τ a) {s' : State}
    {es : List Event} (hs : Controller.step ccfg rcfg s a = some (s', es)) : Honest s' := by
  cases a with
  | client a =>
    simp only [Controller.step] at hs
    split at hs
    · cases hs
    · refine h.clientStep ?_ hs
      rintro rfl
      exact hok
  | statement => exact h.statement hs
  | handle =>
    simp only [Controller.step] at hs
    rcases hqueue : s.queue with _ | ⟨e, rest⟩
    · rw [hqueue] at hs
      cases hs
    rw [hqueue] at hs
    obtain ⟨hfree, hs⟩ := Option.ite_none_right_eq_some.mp hs
    obtain ⟨rfl, rfl⟩ := Prod.mk.inj (Option.some.inj hs)
    have hprogram : s.program = [] := by
      simp only [free, Bool.and_eq_true, List.isEmpty_iff] at hfree
      exact hfree.1
    refine h.of_le rfl (fun hb => ?_) h.lte
    rw [believed, hqueue, hprogram, List.foldl_nil, List.foldl_cons]
    exact foldl_eventBelief_mono (handleEvent_belief _ _ _) _ hb
  | reconnectWork =>
    obtain ⟨⟨hfree, -⟩, hs⟩ := Option.ite_none_right_eq_some.mp hs
    obtain ⟨rfl, rfl⟩ := Prod.mk.inj (Option.some.inj hs)
    have hprogram : s.program = [] := by
      simp only [free, Bool.and_eq_true, List.isEmpty_iff] at hfree
      exact hfree.1
    refine h.of_le rfl (fun hb => ?_) h.lte
    rw [believed, hprogram]
    exact hb
  | publish m =>
    obtain ⟨-, hs⟩ := Option.ite_none_right_eq_some.mp hs
    exact h.clientStep (fun ha => by cases ha) hs
  | lte change =>
    obtain ⟨rfl, rfl⟩ := Prod.mk.inj (Option.some.inj hs)
    refine h.of_le rfl (fun hb => ?_) h.lte
    rw [believed, List.foldl_append] at hb
    cases change <;> exact hb
  | expire =>
    obtain ⟨-, hs⟩ := Option.ite_none_right_eq_some.mp hs
    obtain ⟨rfl, rfl⟩ := Prod.mk.inj (Option.some.inj hs)
    exact ⟨h.belief, h.lte⟩

theorem of_run {s : State} {τ : List Event} (hr : (controller ccfg rcfg).Run Prompt s τ) :
    Honest s :=
  hr.invariant_state start fun _ _ _ _ _ h hok hs => h.step hok hs

end Honest

/-! ## When nothing is on its way -/

/-- The event reports on the connection. -/
def isMqttEvent : AppEvent → Bool
  | .mqttConnected | .mqttDisconnected | .mqttError => true
  | _ => false

/-- The worker is in the connect or the disconnect handler. -/
def inConnection : Client.Worker → Bool
  | .connectLte | .connectRelease | .connectGeneration | .connectSetGeneration _
  | .connectHelper _ | .connectFailed _ | .connectErrorLte _ | .connectErrorGeneration _
  | .connectPostError | .disconnect | .disconnectHelper | .onDisconnect _ => true
  | _ => false

/-- The poll thread is about to post an event that reports on the connection. -/
def isReporting : Client.Poll → Bool
  | .connackPost | .postError | .onDisconnect _ => true
  | _ => false

/-- The statement handles such an event, or will post one. -/
def isMqttStatement : Statement → Bool
  | .apply .mqttUp | .apply .failure | .postError => true
  | _ => false

/-- No MQTT_CONNECTED, MQTT_DISCONNECTED or MQTT_ERROR is queued, being handled or
about to be posted, and no connect or disconnect work is queued or running. -/
structure Quiet (s : State) : Prop where
  queue : ∀ e ∈ s.queue, isMqttEvent e = false
  program : ∀ st ∈ s.program, isMqttStatement st = false
  poll : isReporting s.client.poll = false
  worker : inConnection s.client.worker = false
  jobs : .connect ∉ s.client.queue ∧ .disconnect ∉ s.client.queue

instance (s : State) : Decidable (Quiet s) :=
  decidable_of_iff
    ((∀ e ∈ s.queue, isMqttEvent e = false) ∧ (∀ st ∈ s.program, isMqttStatement st = false) ∧
      isReporting s.client.poll = false ∧ inConnection s.client.worker = false ∧
      .connect ∉ s.client.queue ∧ .disconnect ∉ s.client.queue)
    ⟨fun ⟨hq, hp, hpoll, hw, hj⟩ => ⟨hq, hp, hpoll, hw, hj⟩,
      fun h => ⟨h.queue, h.program, h.poll, h.worker, h.jobs⟩⟩

theorem foldl_eventBelief_quiet {es : List AppEvent} (h : ∀ e ∈ es, isMqttEvent e = false)
    (b : Bool) : es.foldl eventBelief b = b := by
  induction es generalizing b with
  | nil => rfl
  | cons e es ih =>
    have he : eventBelief b e = b := by
      have := h e List.mem_cons_self
      cases e <;> first | rfl | cases this
    rw [List.foldl_cons, he]
    exact ih (fun e he => h e (List.mem_cons_of_mem _ he)) b

theorem foldl_statementBelief_quiet {sts : List Statement}
    (h : ∀ st ∈ sts, isMqttStatement st = false) (b : Bool) :
    sts.foldl statementBelief b = b := by
  induction sts generalizing b with
  | nil => rfl
  | cons st sts ih =>
    have hst : statementBelief b st = b := by
      have := h st List.mem_cons_self
      rcases st with available | _ | _ | _ | n | e
      case apply => cases e <;> first | rfl | cases this
      all_goals rfl
    rw [List.foldl_cons, hst]
    exact ih (fun st hst => h st (List.mem_cons_of_mem _ hst)) b

/-- **The controller believes in a connection only while there is one**, in every
run in which no CONNECTED is posted for a session that has ended: when nothing
is on its way, CONNECTED implies that `helper_connected` is set. -/
theorem connected_has_connection {s : State} {τ : List Event}
    (hr : (controller ccfg rcfg).Run Prompt s τ) (hq : Quiet s)
    (hp : s.reconnect.phase = .connected) : s.client.helperConnected := by
  have hb : believed s := by
    rw [believed, foldl_eventBelief_quiet hq.queue, foldl_statementBelief_quiet hq.program]
    simpa using hp
  refine ((Honest.of_run hr).belief hb).resolve_right fun hclosing => ?_
  rcases Bool.or_eq_true_iff.mp hclosing with hworker | hpoll
  · have := hq.worker
    cases hw : s.client.worker <;> simp_all [Client.Worker.closing, inConnection]
  · have := hq.poll
    cases hw : s.client.poll <;> simp_all [Client.Poll.closing, isReporting]

instance (s : State) (τ : List Event) (a : Action) : Decidable (Prompt s τ a) := by
  unfold Prompt
  split <;> infer_instance

/-- LTE comes up, a connection is made, and its CONNACK is found to be current;
CONNECTED is not posted yet. -/
def connackChecked : List Action :=
  List.flatten
    [[.lte .connected, .handle, .statement, .client .caller, .statement, .statement],
      List.replicate 4 (.client .caller), List.replicate 4 (.client .worker),
      [.client (.workerConnect false), .client (.pollConnack true)],
      List.replicate 5 (.client .poll)]

/-- CONNECTED is posted in time. -/
def connectedInTime : List Action :=
  connackChecked ++ [.client .poll, .handle, .statement, .statement]

/-- LTE is lost and comes back while the poll thread stands before the post. The
disconnect work is slower than the new attempt, which fails with `-EALREADY`;
ERROR and the session's DISCONNECTED are handled, and only then CONNECTED. -/
def connectedTooLate : List Action :=
  List.flatten
    [connackChecked, [.lte .searching, .lte .connected, .handle, .statement],
      List.replicate 3 (.client .caller), [.statement, .statement],
      [.handle, .statement, .client .caller, .statement, .statement],
      List.replicate 2 (.client .caller), [.statement],
      List.replicate 7 (.client .worker),
      [.handle, .statement, .statement, .client .caller, .client .caller, .statement],
      [.handle, .statement, .statement, .client .worker, .client .worker],
      [.client .poll, .handle, .statement, .statement]]

theorem connectedInTime_replays :
    ((controller defaultClient defaultReconnect).replay Prompt
      (controller defaultClient defaultReconnect).start [] connectedInTime).isSome := by
  decide +kernel

theorem connected_has_connection_connectedInTime :
    ∃ s τ, (controller defaultClient defaultReconnect).Run Prompt s τ ∧
      s.reconnect.phase = .connected ∧ s.client.helperConnected := by
  have hr := System.Run.of_isSome connectedInTime_replays
  exact ⟨_, _, hr, by decide +kernel,
    connected_has_connection hr (by decide +kernel) (by decide +kernel)⟩

theorem connectedTooLate_replays :
    ((controller defaultClient defaultReconnect).replay anyStep
      (controller defaultClient defaultReconnect).start [] connectedTooLate).isSome := by
  decide +kernel

/-- The controller is in CONNECTED and has cancelled the reconnect timer, but
there is no connection and nothing on its way. -/
theorem connected_without_connection :
    ∃ s τ, (controller defaultClient defaultReconnect).Run anyStep s τ ∧ Quiet s ∧
      s.reconnect.phase = .connected ∧ s.client.helperConnected = false ∧
      s.client.helper = .down ∧ s.reconnectTimer = none ∧ s.reconnectDue = false ∧
      s.program.isEmpty ∧ s.queue = [] ∧ s.client.queue = [] ∧ s.client.caller = .idle ∧
      s.client.worker = .idle ∧ s.client.poll = .idle := by
  refine ⟨_, _, .of_isSome connectedTooLate_replays, ?_⟩
  decide +kernel

end Controller

end Aitsm.Original
