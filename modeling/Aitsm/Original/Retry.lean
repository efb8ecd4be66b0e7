import Aitsm.Original.Calls

/-!
# The timer of a publication that waits

While a publication is active and its PUBACK has not arrived, somebody must be
about to write it again: the timer is running, its handler is queued, or the
worker has it in hand (`Awaited`). The exceptions are the moments in which the
connection is being taken down and the publication is about to be forgotten.

One step breaks this. The timeout handler takes `publish_pending` and gives up
when it is taken; a call of `aitsm_mqtt_publish_payload` takes it too, for the
moment it needs to find the active publication and return -EBUSY. When the
handler runs in that moment, nobody starts the timer again
(`waiting_without_timer`).
-/

namespace Aitsm.Original.Client

open Library Library.Wire
open Library.System (anyStep)

variable {cfg : ClientConfig} {c c' : Client} {es : List Event}

/-- The worker is in `mqtt_publish_work_handler` or `mqtt_puback_timeout_handler`. -/
def Worker.publishes : Worker → Bool
  | .timeoutTake => true
  | w => w.owns

/-- The worker has the active publication in hand, or is about to look for it. -/
def Worker.attends : Worker → Bool
  | .timeoutTake | .timeoutId | .timeoutPublishGeneration _ | .timeoutToken _ _ => true
  | w => w.write.isSome

theorem Worker.publishes_of_attends {x : Worker} (h : x.attends) : x.publishes := by
  cases x <;> first | rfl | cases h

theorem Worker.attends_of_write {x : Worker} {w : Write} (h : x.write = some w) : x.attends := by
  cases x <;> first | rfl | cases h

/-- `mqtt_on_disconnect` holds the lock, and will clear `active_publish_id`. -/
def Closing.holds : Closing → Bool
  | .pending | .publish => true
  | .connected | .post => false

def Worker.holds : Worker → Bool
  | .onDisconnect x => x.holds
  | _ => false

def Poll.holds : Poll → Bool
  | .onDisconnect x => x.holds
  | _ => false

/-- Neither handler is queued or running. -/
def quiet (c : Client) : Prop :=
  .publish ∉ c.queue ∧ .pubackTimeout ∉ c.queue ∧ c.worker.publishes = false

/-- A publication was sent on this connection and waits for its PUBACK, and
nobody is working on it. -/
structure Waiting (c : Client) : Prop where
  active : c.activePublishId ≠ 0
  generation : c.activePublishGeneration = c.generation
  lte : c.lteAvailable
  connected : c.helperConnected
  quiet : c.quiet
  idle : c.caller.publishing = false

instance (c : Client) : Decidable c.quiet := by unfold quiet; infer_instance

/-- The timeout handler does not find `publish_pending` taken while a
publication is active, which only a call that is about to be refused can do. -/
def Undisturbed (c : Client) (_ : List Event) : Action → Prop
  | .worker => c.worker = .timeoutTake → c.publishPending → c.activePublishId = 0
  | _ => True

/-- Somebody attends to the active publication, and the timer runs for nothing else. -/
structure Awaited (c : Client) : Prop where
  attended : c.activePublishId ≠ 0 → c.timer ∨ .pubackTimeout ∈ c.queue ∨ c.worker.attends ∨
    c.lteAvailable = false ∨ c.poll.holds
  lte : c.activePublishId ≠ 0 → c.lteAvailable ∨ c.caller = .invalidate
  connected : c.activePublishId ≠ 0 → c.helperConnected ∨ c.poll.holds ∨ c.worker.holds
  closed : c.poll.holds → c.helperConnected = false
  timer : c.timer → c.activePublishId ≠ 0
  generation : c.activePublishId ≠ 0 → c.activePublishGeneration = c.generation
  write : ∀ w, c.worker.write = some w → c.activePublishId ≠ 0 →
    w.generation = c.activePublishGeneration
  reading : ∀ id g, c.worker = .timeoutToken id g → c.activePublishId ≠ 0 →
    g = c.activePublishGeneration

namespace Awaited

/-! ## What the steps are made of -/

/-- Nobody attends to a message that is not active. -/
theorem of_inactive (hid : c.activePublishId = 0) (htimer : c.timer = false)
    (hclosed : c.poll.holds → c.helperConnected = false) : Awaited c where
  attended := absurd hid
  lte := absurd hid
  connected := absurd hid
  closed := hclosed
  timer ht := absurd ht (by simp [htimer])
  generation := absurd hid
  write _ _ := absurd hid
  reading _ _ _ := absurd hid

theorem withCaller (ha : Awaited c) {x : Caller} (hc : c.caller ≠ .invalidate) :
    Awaited { c with caller := x } :=
  { ha with lte := fun hid => .inl ((ha.lte hid).resolve_right hc) }

/-- The worker moves on and still attends to the publication it attended to. -/
theorem withWorker (ha : Awaited c) {x : Worker} (hattends : c.worker.attends → x.attends)
    (hholds : c.worker.holds → x.holds)
    (hwrite : ∀ w, x.write = some w → c.worker.write = some w)
    (hreading : ∀ id g, x ≠ .timeoutToken id g) : Awaited { c with worker := x } :=
  { ha with
    attended := fun hid => (ha.attended hid).imp_right (Or.imp_right (Or.imp_left hattends))
    connected := fun hid => (ha.connected hid).imp_right (Or.imp_right hholds)
    write := fun w hw => ha.write w (hwrite w hw)
    reading := fun id g hx => absurd hx (hreading id g) }

/-- The worker attends to nothing, while there is nothing or the connection is going down. -/
theorem dropped (ha : Awaited c) {x : Worker} (hx : x.attends = false)
    (hholds : c.worker.holds → x.holds)
    (hattends : c.worker.attends → c.activePublishId ≠ 0 → c.lteAvailable = false ∨ c.poll.holds) :
    Awaited { c with worker := x } := by
  refine { ha with
    attended := fun hid => ?_
    connected := fun hid => (ha.connected hid).imp_right (Or.imp_right hholds)
    write := fun w hw => ?_, reading := ?_ }
  · rcases ha.attended hid with ht | hq | hw | hdown
    · exact .inl ht
    · exact .inr (.inl hq)
    · exact .inr (.inr (.inr (hattends hw hid)))
    · exact .inr (.inr (.inr hdown))
  · simp [Worker.attends_of_write hw] at hx
  · rintro id g rfl
    cases hx

/-- The worker has nothing in hand, as before. -/
theorem withoutWrite (ha : Awaited c) {x : Worker} (hattends : c.worker.attends = false)
    (hholds : c.worker.holds = false) (hx : x.attends = false) : Awaited { c with worker := x } :=
  ha.dropped hx (by simp [hholds]) (by simp [hattends])

/-- The worker does what it likes while no message is active. -/
theorem withWorker_of_inactive (ha : Awaited c) (x : Worker) (hid : c.activePublishId = 0) :
    Awaited { c with worker := x } :=
  { ha with
    attended := absurd hid
    connected := absurd hid
    write := fun _ _ hne => absurd hid hne
    reading := fun _ _ _ hne => absurd hid hne }

theorem withPoll (ha : Awaited c) {x : Poll} (hx : x.holds = c.poll.holds) :
    Awaited { c with poll := x } :=
  { ha with
    attended := fun hid => hx ▸ ha.attended hid
    connected := fun hid => hx ▸ ha.connected hid
    closed := fun h => ha.closed (hx ▸ h) }

theorem submit (ha : Awaited c) (job : Job) : Awaited (c.submit job) := by
  unfold Client.submit
  split
  · exact ha
  · exact { ha with
      attended := fun hid =>
        (ha.attended hid).imp_right (Or.imp_left fun hq => List.mem_append_left _ hq) }

attribute [local simp] Worker.attends Worker.write Worker.holds Poll.holds Closing.holds

theorem publishSent (hu : UnderWay c) (ha : Awaited c) {w : Write} {err : ℤ}
    (hw : c.worker = .sent w err) : Awaited (c.publishSent w err).1 := by
  have hwrite : c.worker.write = some w := by rw [hw, Worker.write]
  have hsame (hid : c.activePublishId ≠ 0) :
      w.generation = c.generation ∧ c.activePublishId = w.id :=
    ⟨(ha.write w hwrite hid).trans (ha.generation hid),
      (hu.write w hwrite).2.2.2.resolve_left hid⟩
  unfold Client.publishSent
  split
  · exact of_inactive rfl rfl ha.closed
  split
  · rename_i hsent
    exact { ha with
      attended := fun _ => .inl rfl
      connected := fun hid => by simpa [hw] using ha.connected hid
      timer := fun _ => hsent.2.2 ▸ (hu.write w hwrite).1
      write := nofun
      reading := nofun }
  · rename_i hfailed hsent
    refine ha.withWorker_of_inactive .release (not_not.mp fun hid => ?_)
    rcases eq_or_ne err 0 with herr | herr
    · exact hsent ⟨herr, hsame hid⟩
    · exact hfailed ⟨herr, hsame hid⟩

/-! ## The steps -/

theorem callerStep (ha : Awaited c) (h : c.callerStep = some (c', es)) : Awaited c' := by
  cases hc : c.caller <;> simp only [Client.callerStep, hc] at h
  case publishSubmit | connectSubmit | disconnectSubmit =>
    cases h
    exact (ha.withCaller (by simp [hc])).submit _
  case lteSet =>
    cases h
    have hlte (hid : c.activePublishId ≠ 0) : c.lteAvailable = true :=
      (ha.lte hid).resolve_right (by simp [hc])
    exact { ha with
      attended := fun hid => by simpa [hlte hid] using ha.attended hid
      lte := fun _ => .inl rfl }
  case lteClear =>
    split at h <;> cases h
    · exact { ha with
        attended := fun _ => .inr (.inr (.inr (.inl rfl)))
        lte := fun _ => .inr rfl }
    · exact ha.withCaller (by simp [hc])
  case invalidate =>
    split at h <;> cases h
    exact of_inactive rfl rfl ha.closed
  all_goals try split at h
  all_goals cases h
  all_goals exact { ha.withCaller (by simp [hc]) with }

theorem take (ha : Awaited c) {job : Job} {rest : List Job} (hw : c.worker = .idle)
    (hq : c.queue = job :: rest) : Awaited { c with worker := job.handler, queue := rest } := by
  refine { ha with attended := fun hid => ?_, connected := ?_, write := ?_, reading := ?_ }
  · rcases ha.attended hid with ht | hj | hx | hrest
    · exact .inl ht
    · rw [hq] at hj
      rcases List.mem_cons.mp hj with rfl | hj
      · exact .inr (.inr (.inl rfl))
      · exact .inr (.inl hj)
    · rw [hw] at hx
      cases hx
    · exact .inr (.inr (.inr hrest))
  · have hconnected := ha.connected
    rw [hw] at hconnected
    cases job <;> exact hconnected
  · cases job <;> nofun
  · cases job <;> nofun

theorem workerStep (hu : UnderWay c) (ha : Awaited c) (hok : Undisturbed c [] .worker)
    (h : c.workerStep cfg = some (c', es)) : Awaited c' := by
  have hfree (hx : c.worker.holds = false) (hdown : ¬c.helperConnected)
      (hid : c.activePublishId ≠ 0) : c.poll.holds :=
    ((ha.connected hid).resolve_left hdown).resolve_right (by rw [hx]; simp)
  cases hw : c.worker <;> simp only [Client.workerStep, hw] at h
  case idle =>
    split at h <;> cases h
    exact ha.take hw ‹_›
  case sent w err =>
    split at h
    · cases h
    · obtain rfl := congrArg Prod.fst (Option.some.inj h)
      exact ha.publishSent hu hw
  case timeoutTake =>
    split at h <;> rename_i hp <;> cases h
    · exact ha.withWorker_of_inactive _ (hok hw hp)
    · exact
        { ha.withWorker (x := .timeoutId) (fun _ => rfl) (by simp [hw]) (by simp) (by simp) with }
  case timeoutId =>
    cases h
    exact ha.withWorker (fun _ => rfl) (by simp [hw]) (by simp) (by simp)
  case timeoutPublishGeneration id =>
    cases h
    refine { ha.withWorker (x := .timeoutId) (fun _ => rfl) (by simp [hw]) (by simp) (by simp) with
      write := by simp, reading := ?_ }
    rintro _ _ ⟨⟩ -
    rfl
  case timeoutToken id g =>
    split at h <;> rename_i hid <;> cases h
    · exact ha.withWorker_of_inactive _ (hu.unread (by rw [hw, hid, Worker.reading]))
    · refine
        { ha.withWorker (x := .timeoutId) (fun _ => rfl) (by simp [hw]) (by simp) (by simp) with
          write := ?_, reading := by simp }
      rintro _ ⟨⟩
      exact ha.reading id g hw
  case timeoutLte w =>
    split at h <;> rename_i hlte <;> cases h
    · exact ha.withWorker (fun _ => rfl) (by simp [hw]) (by simp [hw]) (by simp)
    · exact ha.dropped rfl (by simp [hw]) fun _ _ => .inl (by simpa using hlte)
  case timeoutConnected w =>
    split at h <;> rename_i hconnected <;> cases h
    · exact ha.withWorker (fun _ => rfl) (by simp [hw]) (by simp [hw]) (by simp)
    · exact ha.dropped rfl (by simp [hw]) fun _ hid => .inr (hfree (by simp [hw]) hconnected hid)
  case timeoutGeneration w =>
    split at h <;> rename_i hgen <;> cases h
    · exact
        { ha.withWorker (x := .send w) (fun _ => rfl) (by simp [hw]) (by simp [hw]) (by simp) with }
    · refine ha.withWorker_of_inactive _ (not_not.mp fun hid => hgen ?_)
      exact (ha.write w (by simp [hw]) hid).trans (ha.generation hid)
  case onDisconnect x =>
    cases x <;> simp only at h
    case connected =>
      split at h <;> cases h
      have hmove : Awaited { c with worker := .onDisconnect .pending } :=
        ha.withWorker (by simp [hw]) (fun _ => rfl) (by simp) (by simp)
      exact { hmove with connected := fun _ => .inr (.inr rfl), closed := fun _ => rfl }
    case publish =>
      cases h
      exact of_inactive rfl rfl ha.closed
    case pending =>
      cases h
      have hmove : Awaited { c with worker := .onDisconnect .publish } :=
        ha.withWorker (by simp [hw]) (fun _ => rfl) (by simp) (by simp)
      exact { hmove with }
    case post =>
      cases h
      exact ha.withoutWrite (by simp [hw]) (by simp [hw]) rfl
  case publish =>
    split at h <;> try split at h
    all_goals cases h
    exact ha.withoutWrite (by simp [hw]) (by simp [hw]) rfl
  all_goals try split at h
  all_goals cases h
  all_goals exact { ha.withoutWrite (by simp [hw]) (by simp [hw]) (by simp) with }

theorem pollStep (ha : Awaited c) (h : c.pollStep = some (c', es)) : Awaited c' := by
  have hmove {x : Poll} (hx : c.poll.holds = false) (hnot : x.holds = false) :
      Awaited { c with poll := x } := ha.withPoll (hnot.trans hx.symm)
  cases hp : c.poll <;> simp only [Client.pollStep, hp] at h
  case connack accepted =>
    cases h
    have hx := hmove (x := if accepted then .connackConnected else .refusedLte) (by simp [hp])
      (by cases accepted <;> rfl)
    exact { hx with }
  case connackConnected =>
    cases h
    exact { ha.withPoll (x := .connackLte) (by simp [hp]) with
      connected := fun _ => .inl rfl, closed := by simp }
  case connackInvalidate =>
    split at h <;> cases h
    exact of_inactive rfl rfl (by simp [invalidate, cancelTimeout])
  case connackSubmit =>
    cases h
    exact (hmove (x := .idle) (by simp [hp]) rfl).submit _
  case onDisconnect x =>
    cases x <;> simp only at h
    case connected =>
      split at h <;> cases h
      exact { ha with
        attended := fun _ => .inr (.inr (.inr (.inr rfl)))
        connected := fun _ => .inr (.inl rfl)
        closed := fun _ => rfl }
    case pending =>
      cases h
      have hx : Awaited { c with poll := .onDisconnect .publish } := ha.withPoll (by simp [hp])
      exact { hx with }
    case publish =>
      cases h
      exact of_inactive rfl rfl (by simp [closePublish, cancelTimeout])
    case post =>
      cases h
      exact hmove (by simp [hp]) rfl
  all_goals try split at h
  all_goals cases h
  all_goals exact hmove (by simp [hp]) rfl

theorem callerNoSubmit (ha : Awaited c) {err : Errno}
    (h : c.callerNoSubmit err = some (c', es)) : Awaited c' := by
  obtain ⟨hc, -, rfl⟩ | ⟨hc, -, rfl⟩ | ⟨hc, -, rfl⟩ := callerNoSubmit_cases h
  all_goals exact ha.withCaller (by simp [hc])

theorem workerConnect (ha : Awaited c) {failed : Bool}
    (h : c.workerConnect failed = some (c', es)) : Awaited c' := by
  obtain ⟨g, hw, -, hcase⟩ := workerConnect_cases h
  have hmove {x : Worker} (hx : x.attends = false) : Awaited { c with worker := x } :=
    ha.withoutWrite (by simp [hw]) (by simp [hw]) hx
  rcases hcase with rfl | ⟨-, rfl⟩
  · exact hmove rfl
  · exact { hmove (x := .idle) rfl with }

theorem workerMessageId (ha : Awaited c) {id : UInt16}
    (h : c.workerMessageId cfg id = some (c', es)) : Awaited c' := by
  obtain ⟨-, -, ⟨hlte, hconnected, hgeneration, hid, -⟩, rfl⟩ := workerMessageId_cases h
  refine
    { attended := fun _ => .inr (.inr (.inl rfl))
      lte := fun _ => .inl hlte
      connected := fun _ => .inl hconnected
      closed := ha.closed
      timer := fun _ => hid
      generation := fun _ => hgeneration
      write := ?_
      reading := nofun }
  rintro _ ⟨⟩ -
  rfl

theorem workerWrite (ha : Awaited c) {transmitted : Bool}
    (h : c.workerWrite transmitted = some (c', es)) : Awaited c' := by
  obtain ⟨w, hw, -, rfl⟩ := workerWrite_cases h
  have hmove : Awaited { c with worker := .sending w } :=
    ha.withWorker (fun _ => rfl) (by simp [hw]) (by simp [hw]) nofun
  exact { hmove with }

theorem workerSent (ha : Awaited c) {err : ℤ} (h : c.workerSent err = some (c', es)) :
    Awaited c' := by
  obtain ⟨w, hw, -, rfl⟩ := workerSent_cases h
  exact ha.withWorker (fun _ => rfl) (by simp [hw]) (by simp [hw]) nofun

theorem pollStart (ha : Awaited c) {possible : Bool} {helper : Helper} {poll : Poll}
    (hx : poll.holds = false) (h : c.pollStart possible helper poll = some (c', es)) :
    Awaited c' := by
  obtain ⟨hp, -, -, rfl⟩ := pollStart_cases h
  have hmove : Awaited { c with poll := poll } := ha.withPoll (by rw [hx, hp]; rfl)
  exact { hmove with }

theorem pollPuback (ha : Awaited c) {id : UInt16} {result : ℤ}
    (h : c.pollPuback id result = some (c', es)) : Awaited c' := by
  obtain ⟨-, -, -, ⟨-, rfl⟩ | rfl⟩ := pollPuback_cases h
  · exact of_inactive rfl rfl nofun
  · exact ha

theorem step {a : Action} (hu : UnderWay c) (ha : Awaited c) (hok : Undisturbed c [] a)
    (h : c.step cfg a = some (c', es)) : Awaited c' := by
  cases a with
  | callPublish m =>
    obtain ⟨hidle, hstart⟩ := call_eq_some h
    obtain ⟨caller, -, rfl⟩ := callPublish_caller cfg hidle hstart
    exact ha.withCaller (by simp [hidle])
  | callConnect | callDisconnect | callSetLteAvailable available =>
    obtain ⟨hidle, ⟨⟩⟩ := call_eq_some h
    exact ha.withCaller (by simp [hidle])
  | caller => exact ha.callerStep h
  | callerNoSubmit err => exact ha.callerNoSubmit h
  | worker => exact ha.workerStep hu hok h
  | workerConnect failed => exact ha.workerConnect h
  | workerMessageId id => exact ha.workerMessageId h
  | workerWrite transmitted => exact ha.workerWrite h
  | workerSent err => exact ha.workerSent h
  | poll => exact ha.pollStep h
  | pollConnack accepted => exact ha.pollStart rfl h
  | pollDisconnect => exact ha.pollStart rfl h
  | pollError => exact ha.pollStart rfl h
  | pollPuback id result => exact ha.pollPuback h
  | expire =>
    obtain ⟨-, -, rfl⟩ := expire_cases h
    unfold Client.submit
    split
    · rename_i hq
      exact { ha with attended := fun _ => .inr (.inl hq), timer := by simp }
    · exact { ha with attended := fun _ => .inr (.inl (by simp)), timer := by simp }
  | forget id =>
    cases h
    exact { ha with }

theorem of_run {c : Client} {τ : List Event} (hr : (mqttClient cfg).Run Undisturbed c τ) :
    Awaited c := by
  refine hr.invariant_with (J := fun c _ => UnderWay c) (I := fun c _ => Awaited c)
    (fun hr => UnderWay.of_run (hr.mono fun _ _ _ _ => trivial)) ?_
    fun _ _ _ _ _ hu ha hok hs => ha.step hu hok hs
  constructor <;> simp [mqttClient, Worker.write, Poll.holds]

end Awaited

/-- **A publication that waits has its timer**, in every run in which the timeout
handler does not find `publish_pending` taken by a call that is going to be
refused; and the timer runs for nothing else. -/
theorem waiting_has_timer {c : Client} {τ : List Event}
    (hr : (mqttClient cfg).Run Undisturbed c τ) :
    (c.Waiting → c.timer) ∧ (c.activePublishId = 0 → c.quiet → c.timer = false) := by
  have ha := Awaited.of_run hr
  refine ⟨fun hw => ?_, fun hidle _ => ?_⟩
  · obtain ⟨-, hqueued, hworker⟩ := hw.quiet
    rcases ha.attended hw.active with htimer | htimeout | hattends | hlte | hholds
    · exact htimer
    · exact absurd htimeout hqueued
    · exact absurd (Worker.publishes_of_attends hattends) (by simp [hworker])
    · exact absurd hw.lte (by simp [hlte])
    · exact absurd hw.connected (by simp [ha.closed hholds])
  · by_contra htimer
    exact ha.timer (by simpa using htimer) hidle

/-- Connect, and send a first publication whose PUBACK does not arrive. -/
def sendOnce : List Action :=
  List.flatten [[.callSetLteAvailable true, .caller, .callConnect],
    List.replicate 4 .caller, List.replicate 4 .worker, [.workerConnect false, .pollConnack true],
    List.replicate 6 .poll, [.callPublish ⟨[1], [2]⟩], List.replicate 8 .caller,
    [.worker, .workerMessageId 1, .workerWrite true, .workerSent 0, .worker, .worker]]

instance (c : Client) (τ : List Event) (a : Action) : Decidable (Undisturbed c τ a) := by
  unfold Undisturbed
  split <;> infer_instance

theorem sendOnce_replays :
    ((mqttClient defaultClient).replay Undisturbed {} [] sendOnce).isSome := by
  decide +kernel

theorem waiting_has_timer_sentOnce :
    ∃ c τ, (mqttClient defaultClient).Run Undisturbed c τ ∧ c.activePublishId ≠ 0 ∧ c.timer :=
  ⟨_, _, .of_isSome sendOnce_replays, by decide +kernel,
    (waiting_has_timer (.of_isSome sendOnce_replays)).1
      (by constructor <;> decide +kernel)⟩

/-- The timer expires while a second publish call holds `publish_pending`, to be
refused because the first publication is active. -/
def refusedMeanwhile : List Action :=
  List.flatten [sendOnce, [.callPublish ⟨[1], [3]⟩], List.replicate 3 .caller,
    [.expire, .worker, .worker], List.replicate 2 .caller]

theorem refusedMeanwhile_replays :
    ((mqttClient defaultClient).replay anyStep {} [] refusedMeanwhile).isSome := by
  decide +kernel

/-- **A refused call can cost the retry**: the publication waits, and nothing
will ever write it again. -/
theorem waiting_without_timer :
    ∃ c τ, (mqttClient defaultClient).Run anyStep c τ ∧ c.Waiting ∧ c.timer = false :=
  ⟨_, _, .of_isSome refusedMeanwhile_replays, by constructor <;> decide +kernel, by decide +kernel⟩

end Aitsm.Original.Client
