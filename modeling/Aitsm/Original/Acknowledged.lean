import Aitsm.Original.Ownership

/-!
# What a successful result proves

A result 0 for a token is posted only after the message accepted under that
token was handed to the helper and its PUBACK arrived (`Acked`). The argument
has two parts: what the variables say about the message under way (`UnderWay`),
and what the history says about it (`Traced`). Each step of the client extends
the history by its events, so for the second part it is enough to know where a
new claim about the variables comes from.
-/

namespace Aitsm.Original.Client

open Library Library.Wire
open Library.System (anyStep)

variable {cfg : ClientConfig} {c c' : Client} {es : List Event}

/-- The publication a handler of the worker has in hand. -/
def Worker.write : Worker → Option Write
  | .send w | .sending w | .sent w _ | .timeoutLte w | .timeoutConnected w
  | .timeoutGeneration w => some w
  | _ => none

/-- The publication the timeout handler is about to write again. -/
def Worker.retry : Worker → Option Write
  | .timeoutLte w | .timeoutConnected w | .timeoutGeneration w => some w
  | _ => none

/-- The id the timeout handler has read. -/
def Worker.reading : Worker → Option UInt16
  | .timeoutPublishGeneration id | .timeoutToken id _ => some id
  | _ => none

/-- A message has been accepted and is queued, active or in the worker's hands. -/
structure UnderWay (c : Client) : Prop where
  counted : c.publishToken = c.nextPublishToken
  active : c.activePublishId ≠ 0 → c.activePublishToken = c.publishToken
  write : ∀ w, c.worker.write = some w →
    w.id ≠ 0 ∧ w.serial = c.publishToken ∧ c.activePublishToken = c.publishToken ∧
    (c.activePublishId = 0 ∨ c.activePublishId = w.id)
  reading : ∀ id, c.worker.reading = some id → id ≠ 0 →
    c.activePublishToken = c.publishToken ∧ (c.activePublishId = 0 ∨ c.activePublishId = id)
  unread : c.worker.reading = some 0 → c.activePublishId = 0
  nonzero : 0 ∉ c.expected
  retry : ∀ w, c.worker.retry = some w → w.duplicate
  /-- nobody waits for a PUBACK of an id that was only just chosen -/
  fresh : ∀ w, c.worker = .send w → w.duplicate = false → w.id ∉ c.expected
  postFailed : ∀ serial err, c.worker = .postFailed serial err →
    err ≠ 0 ∧ serial ≤ c.nextPublishToken
  puback : ∀ serial result, c.poll = .pubackPost serial result → serial ≤ c.nextPublishToken

theorem Worker.owns_of_write {x : Worker} {w : Write} (h : x.write = some w) : x.owns := by
  cases x <;> first | rfl | cases h

theorem Worker.owns_of_reading {x : Worker} {id : UInt16} (h : x.reading = some id) :
    x.owns := by
  cases x <;> first | rfl | cases h

theorem Worker.write_of_retry {x : Worker} {w : Write} (h : x.retry = some w) :
    x.write = some w := by
  cases x <;> first | exact h | cases h

namespace UnderWay

/-! ## What the steps are made of -/

/-- The caller's position says nothing about the message under way. -/
theorem withCaller (hu : UnderWay c) (caller : Caller) : UnderWay { c with caller := caller } :=
  { hu with }

/-- The worker moves on with no more in hand than it had. -/
theorem withWorker (hu : UnderWay c) {x : Worker}
    (hwrite : ∀ w, x.write = some w → c.worker.write = some w) (hreading : x.reading = none)
    (hretry : ∀ w, x.retry = some w → w.duplicate) (hfresh : ∀ w, x = .send w → w.duplicate)
    (hfailed : ∀ serial err, x ≠ .postFailed serial err) : UnderWay { c with worker := x } :=
  { hu with
    write := fun w hw => hu.write w (hwrite w hw)
    reading := fun id hid => absurd (hreading.symm.trans hid) nofun
    unread := fun hid => absurd (hreading.symm.trans hid) nofun
    retry := hretry
    fresh := fun w hw hd => absurd (hfresh w hw) (by simp [hd])
    postFailed := fun serial err hx => absurd hx (hfailed serial err) }

/-- The worker has nothing in hand any more. -/
theorem withoutWrite (hu : UnderWay c) {x : Worker} (hwrite : x.write = none)
    (hreading : x.reading = none) (hfailed : ∀ serial err, x ≠ .postFailed serial err) :
    UnderWay { c with worker := x } := by
  refine hu.withWorker ?_ hreading (fun w hw => ?_) ?_ hfailed
  · simp [hwrite]
  · cases hwrite.symm.trans (Worker.write_of_retry hw)
  · rintro w rfl
    cases hwrite

/-- The timeout handler goes on with the publication it has in hand. -/
theorem withRetry (hu : UnderWay c) {x : Worker} {w : Write} (hretry : c.worker.retry = some w)
    (hx : x.write = some w) (hreading : x.reading = none) : UnderWay { c with worker := x } := by
  have hdup (w' : Write) (hw : x.write = some w') : w'.duplicate := by
    obtain rfl := Option.some.inj (hx.symm.trans hw)
    exact hu.retry w hretry
  refine hu.withWorker (fun w' hw => ?_) hreading
    (fun w' hw => hdup w' (Worker.write_of_retry hw)) ?_ ?_
  · exact (Worker.write_of_retry hretry).trans (hx.symm.trans hw)
  · rintro w' rfl
    exact hdup w' rfl
  · rintro serial err rfl
    cases hx

/-- The timeout handler has read an id. -/
theorem withReading (hu : UnderWay c) {x : Worker} {id : UInt16} (hx : x.reading = some id)
    (hid : id ≠ 0 → c.activePublishToken = c.publishToken ∧
      (c.activePublishId = 0 ∨ c.activePublishId = id))
    (hunread : id = 0 → c.activePublishId = 0) : UnderWay { c with worker := x } := by
  have hwrite : x.write = none := by
    cases x <;> first | rfl | cases hx
  refine { hu with
    write := ?_, reading := ?_, unread := ?_, retry := ?_, fresh := ?_, postFailed := ?_ }
  · simp [hwrite]
  · rintro id' hreading
    obtain rfl := Option.some.inj (hx.symm.trans hreading)
    exact hid
  · exact fun hzero => hunread (Option.some.inj (hx.symm.trans hzero))
  · exact fun w hw => absurd (hwrite.symm.trans (Worker.write_of_retry hw)) nofun
  · rintro w rfl
    cases hx
  · rintro serial err rfl
    cases hx

/-- The caller numbers a message while none is under way. -/
theorem number (hu : UnderWay c) (hid : c.activePublishId = 0) (hworker : c.worker.owns = false) :
    UnderWay { c with
      nextPublishToken := c.nextPublishToken + 1
      publishToken := c.nextPublishToken + 1 } where
  counted := rfl
  active ha := absurd hid ha
  write w hw := absurd (Worker.owns_of_write hw) (by simp [hworker])
  reading id hr := absurd (Worker.owns_of_reading hr) (by simp [hworker])
  unread := hu.unread
  nonzero := hu.nonzero
  retry := hu.retry
  fresh := hu.fresh
  postFailed serial err hx := ⟨(hu.postFailed serial err hx).1,
    (hu.postFailed serial err hx).2.trans (Nat.le_succ _)⟩
  puback serial result hp := (hu.puback serial result hp).trans (Nat.le_succ _)

theorem submit (hu : UnderWay c) (job : Job) : UnderWay (c.submit job) := by
  unfold Client.submit
  split
  · exact hu
  · exact { hu with }

/-- No message is active any more. -/
theorem inactive (hu : UnderWay c) : UnderWay { c with activePublishId := 0 } :=
  { hu with
    active := fun ha => absurd rfl ha
    write := fun w hw => ⟨(hu.write w hw).1, (hu.write w hw).2.1, (hu.write w hw).2.2.1, .inl rfl⟩
    reading := fun id hr hid => ⟨(hu.reading id hr hid).1, .inl rfl⟩
    unread := fun _ => rfl }

theorem cancelTimeout (hu : UnderWay c) : UnderWay c.cancelTimeout := { hu with }

theorem invalidate (hu : UnderWay c) : UnderWay c.invalidate :=
  cancelTimeout { hu.inactive with }

theorem closeConnected (hu : UnderWay c) : UnderWay c.closeConnected := { hu with }

theorem closePublish (hu : UnderWay c) : UnderWay c.closePublish :=
  cancelTimeout { hu.inactive with }

theorem publishSent (hu : UnderWay c) {w : Write} {err : ℤ} (hw : c.worker = .sent w err) :
    UnderWay (c.publishSent w err).1 := by
  have hrelease : UnderWay { c with worker := .release } := hu.withoutWrite rfl rfl nofun
  unfold Client.publishSent
  split
  · rename_i herr
    have hserial : w.serial = c.publishToken := (hu.write w (by rw [hw, Worker.write])).2.1
    refine cancelTimeout { hrelease.inactive with
      write := nofun, reading := nofun, retry := nofun, fresh := nofun, postFailed := ?_ }
    rintro _ _ ⟨⟩
    exact ⟨herr.1, (hserial.trans hu.counted).le⟩
  split
  · exact { hrelease with }
  · exact hrelease

/-! ## The steps -/

theorem callerStep (ho : Owned c) (hu : UnderWay c) (h : c.callerStep = some (c', es)) :
    UnderWay c' := by
  cases hc : c.caller <;> simp only [Client.callerStep, hc] at h
  case publishToken =>
    cases h
    have hid : c.activePublishId = 0 := by
      by_contra ha
      have hwrites := (ho.active ha).1
      rw [hc] at hwrites
      cases hwrites
    exact withCaller (hu.number hid (ho.caller (by rw [hc, Caller.owns])).2) _
  case publishSubmit | connectSubmit | disconnectSubmit =>
    cases h
    exact (hu.withCaller _).submit _
  case invalidate =>
    split at h <;> cases h
    exact (hu.withCaller _).invalidate
  all_goals try split at h
  all_goals cases h
  all_goals exact { hu with }

theorem take (hu : UnderWay c) {job : Job} {rest : List Job} :
    UnderWay { c with worker := job.handler, queue := rest } := by
  have hworker : UnderWay { c with worker := job.handler } := by
    cases job <;> exact hu.withoutWrite rfl rfl nofun
  exact { hworker with }

theorem workerStep (hu : UnderWay c) (h : c.workerStep cfg = some (c', es)) :
    UnderWay c' := by
  cases hw : c.worker <;> simp only [Client.workerStep, hw] at h
  case idle =>
    split at h <;> cases h
    exact hu.take
  case sent w err =>
    split at h
    · cases h
    · obtain rfl := congrArg Prod.fst (Option.some.inj h)
      exact hu.publishSent hw
  case timeoutId =>
    cases h
    exact hu.withReading rfl (fun hid => ⟨hu.active hid, .inr rfl⟩) id
  case timeoutPublishGeneration id =>
    cases h
    have hreading : c.worker.reading = some id := by rw [hw, Worker.reading]
    exact hu.withReading rfl (hu.reading id hreading) fun hid => hu.unread (hid ▸ hreading)
  case timeoutToken id g =>
    split at h <;> rename_i hid <;> cases h
    · exact hu.withoutWrite rfl rfl (by simp)
    · refine { hu with
        write := ?_, reading := by simp [Worker.reading], unread := by simp [Worker.reading],
        retry := ?_, fresh := by simp, postFailed := by simp }
      · rintro _ ⟨⟩
        obtain ⟨htoken, hactive⟩ := hu.reading id (by rw [hw, Worker.reading]) hid
        exact ⟨hid, htoken, htoken, hactive⟩
      · rintro _ ⟨⟩
        rfl
  case timeoutLte w | timeoutConnected w =>
    have hretry : c.worker.retry = some w := by rw [hw, Worker.retry]
    split at h <;> cases h
    · exact hu.withRetry hretry rfl rfl
    · exact hu.withoutWrite rfl rfl (by simp)
  case timeoutGeneration w =>
    have hretry : c.worker.retry = some w := by rw [hw, Worker.retry]
    split at h <;> cases h
    · exact { hu.withRetry (x := .send w) hretry rfl rfl with }
    · exact hu.withoutWrite rfl rfl (by simp)
  case onDisconnect x =>
    cases x <;> simp only at h
    case connected =>
      split at h <;> cases h
      exact closeConnected (hu.withoutWrite rfl rfl (by simp))
    case publish =>
      cases h
      exact closePublish (hu.withoutWrite rfl rfl (by simp))
    all_goals
      cases h
      exact { hu.withoutWrite (by rfl) (by rfl) (by simp) with }
  case publish =>
    split at h <;> try split at h
    all_goals cases h
    exact hu.withoutWrite rfl rfl (by simp)
  all_goals try split at h
  all_goals cases h
  all_goals exact { hu.withoutWrite (by rfl) (by rfl) (by simp) with }

theorem pollStep (hu : UnderWay c) (h : c.pollStep = some (c', es)) : UnderWay c' := by
  have hmove {x : Poll} (hx : ∀ serial result, x ≠ .pubackPost serial result) :
      UnderWay { c with poll := x } :=
    { hu with puback := fun serial result hp => absurd hp (hx serial result) }
  cases hp : c.poll <;> simp only [Client.pollStep, hp] at h
  case connack accepted =>
    cases h
    have hx := hmove (x := if accepted then .connackConnected else .refusedLte) (by
      cases accepted <;> simp)
    exact { hx with }
  case connackInvalidate =>
    split at h <;> cases h
    exact (hmove (x := .connackSubmit) (by simp)).invalidate
  case connackSubmit =>
    cases h
    exact (hmove (x := .idle) (by simp)).submit _
  case onDisconnect x =>
    cases x <;> simp only at h
    case connected =>
      split at h <;> cases h
      exact closeConnected (hmove (by simp))
    case publish =>
      cases h
      exact closePublish (hmove (by simp))
    all_goals
      cases h
      exact { hmove (by simp) with }
  all_goals try split at h
  all_goals cases h
  all_goals exact { hmove (by simp) with }

theorem callerNoSubmit (hu : UnderWay c) {err : Errno}
    (h : c.callerNoSubmit err = some (c', es)) : UnderWay c' := by
  obtain ⟨-, -, rfl⟩ | ⟨-, -, rfl⟩ | ⟨-, -, rfl⟩ := callerNoSubmit_cases h
  all_goals exact hu.withCaller _

theorem workerConnect (hu : UnderWay c) {failed : Bool}
    (h : c.workerConnect failed = some (c', es)) : UnderWay c' := by
  obtain ⟨g, -, -, rfl | ⟨-, rfl⟩⟩ := workerConnect_cases h
  all_goals exact { hu.withoutWrite (by rfl) (by rfl) (by nofun) with }

theorem workerMessageId (hu : UnderWay c) {id : UInt16}
    (h : c.workerMessageId cfg id = some (c', es)) : UnderWay c' := by
  obtain ⟨-, -, ⟨-, -, -, hid, hexpected⟩, rfl⟩ := workerMessageId_cases h
  refine { hu with
    active := fun _ => rfl, write := ?_, reading := nofun, unread := nofun, retry := nofun,
    fresh := ?_, postFailed := nofun }
  · rintro _ ⟨⟩
    exact ⟨hid, rfl, rfl, .inr rfl⟩
  · rintro _ ⟨⟩ -
    exact hexpected

theorem workerWrite (hu : UnderWay c) {transmitted : Bool}
    (h : c.workerWrite transmitted = some (c', es)) : UnderWay c' := by
  obtain ⟨w, hw, -, rfl⟩ := workerWrite_cases h
  have hwrite := hu.write w (by rw [hw, Worker.write])
  have hsending : UnderWay { c with worker := .sending w } :=
    hu.withWorker (fun _ h => by rw [hw]; exact h) rfl nofun nofun nofun
  refine { hsending with nonzero := ?_, fresh := nofun }
  split
  · exact fun h0 => (List.mem_cons.mp h0).elim (fun h0 => hwrite.1 h0.symm) hu.nonzero
  · exact hu.nonzero

theorem workerSent (hu : UnderWay c) {err : ℤ} (h : c.workerSent err = some (c', es)) :
    UnderWay c' := by
  obtain ⟨w, hw, -, rfl⟩ := workerSent_cases h
  exact hu.withWorker (fun _ h => by rw [hw]; exact h) rfl nofun nofun nofun

theorem pollStart (hu : UnderWay c) {possible : Bool} {helper : Helper} {poll : Poll}
    (hp : ∀ serial result, poll ≠ .pubackPost serial result)
    (h : c.pollStart possible helper poll = some (c', es)) : UnderWay c' := by
  obtain ⟨-, -, -, rfl⟩ := pollStart_cases h
  exact { hu with puback := fun serial result hx => absurd hx (hp serial result) }

theorem pollPuback (hu : UnderWay c) {id : UInt16} {result : ℤ}
    (h : c.pollPuback id result = some (c', es)) : UnderWay c' := by
  obtain ⟨-, hexpected, -, ⟨⟨-, -, rfl⟩, rfl⟩ | rfl⟩ := pollPuback_cases h
  · refine cancelTimeout { hu.inactive with puback := ?_ }
    rintro _ _ ⟨⟩
    have hid : c.activePublishId ≠ 0 := fun h0 => hu.nonzero (h0 ▸ hexpected)
    exact ((hu.active hid).trans hu.counted).le
  · exact hu

theorem step {a : Action} (ho : Owned c) (hu : UnderWay c)
    (h : c.step cfg a = some (c', es)) : UnderWay c' := by
  cases a with
  | callPublish m =>
    obtain ⟨hidle, hstart⟩ := call_eq_some h
    obtain ⟨caller, -, rfl⟩ := callPublish_caller cfg hidle hstart
    exact hu.withCaller caller
  | callConnect | callDisconnect | callSetLteAvailable available =>
    obtain ⟨-, ⟨⟩⟩ := call_eq_some h
    exact hu.withCaller _
  | caller => exact callerStep ho hu h
  | callerNoSubmit err => exact hu.callerNoSubmit h
  | worker => exact workerStep hu h
  | workerConnect failed => exact hu.workerConnect h
  | workerMessageId id => exact workerMessageId hu h
  | workerWrite transmitted => exact hu.workerWrite h
  | workerSent err => exact hu.workerSent h
  | poll => exact hu.pollStep h
  | pollConnack accepted => exact hu.pollStart (by simp) h
  | pollDisconnect => exact hu.pollStart (by simp) h
  | pollError => exact hu.pollStart (by simp) h
  | pollPuback id result => exact hu.pollPuback h
  | expire =>
    obtain ⟨-, rfl, rfl⟩ := expire_cases h
    have hstopped : UnderWay { c with timer := false } := { hu with }
    exact hstopped.submit _
  | forget id =>
    cases h
    exact { hu with
      nonzero := fun h0 => hu.nonzero (List.mem_filter.mp h0).1
      fresh := fun w hw hd hmem => hu.fresh w hw hd (List.mem_filter.mp hmem).1 }

theorem of_run {c : Client} {τ : List Event} (hr : (mqttClient cfg).Run anyStep c τ) :
    UnderWay c :=
  hr.invariant_with (J := fun c _ => Owned c) (I := fun c _ => UnderWay c) Owned.of_run
    (by constructor <;> simp [mqttClient, Worker.write, Worker.reading, Worker.retry])
    fun _ _ _ _ _ ho hu _ hs => step ho hu hs

end UnderWay

/-! ## Where a claim about the variables comes from -/

/-- The copied payload belongs to an accepted message. -/
def inUse (c : Client) : Prop :=
  .publish ∈ c.queue ∨ c.worker = .publish ∨ c.activePublishId ≠ 0 ∨ c.worker.write ≠ none ∨
    ∃ id, c.worker.reading = some id ∧ id ≠ 0

/-- Every claim about the message under way was made before the step, or is
backed by the step's event. -/
structure Backed (c c' : Client) (es : List Event) : Prop where
  buffer : c'.inUse →
    c.inUse ∧ c'.publishToken = c.publishToken ∧ c'.message = c.message ∨
    es = [.accepted c'.publishToken c'.message]
  expected : c'.activePublishId ≠ 0 → c'.activePublishId ∈ c'.expected →
    c'.publishToken = c.publishToken ∧ c'.activePublishId = c.activePublishId ∧
      (c.activePublishId ∈ c.expected ∨
        ∃ w, es = [.written w c.message true] ∧ w.id = c.activePublishId ∧
          w.serial = c.publishToken)
  poll : ∀ serial, c'.poll = .pubackPost serial 0 →
    c.poll = .pubackPost serial 0 ∨
    ∃ id, es = [.puback id 0] ∧ id = c.activePublishId ∧ id ≠ 0 ∧ id ∈ c.expected ∧
      serial = c.publishToken
  posted : ∀ serial result, .posted (.mqttPublishResult serial result) ∈ es →
    serial ≤ c.nextPublishToken ∧ (result = 0 → c.poll = .pubackPost serial 0)
  grows : c.nextPublishToken ≤ c'.nextPublishToken
  accepted : ∀ serial m, .accepted serial m ∈ es →
    es = [.accepted serial m] ∧ c.caller = .publishSubmit ∧ serial = c.nextPublishToken ∧
      c'.caller ≠ .publishSubmit ∧ c'.nextPublishToken = c.nextPublishToken
  numbering : c'.caller = .publishSubmit →
    c.caller = .publishSubmit ∧ c'.nextPublishToken = c.nextPublishToken ∨
    c'.nextPublishToken = c.nextPublishToken + 1

theorem Worker.write_eq_none {x : Worker} (h : x.owns = false) : x.write = none := by
  cases x <;> first | rfl | cases h

theorem Worker.reading_eq_none {x : Worker} (h : x.owns = false) : x.reading = none := by
  cases x <;> first | rfl | cases h

/-- A caller that writes the buffers has them to itself. -/
theorem Owned.not_inUse (ho : Owned c) (h : c.caller.writes) : ¬c.inUse := by
  have hfree := ho.caller (Caller.owns_of_writes h)
  rintro (hq | hw | ha | hw | ⟨id, hr, -⟩)
  · exact hfree.1 hq
  · rw [hw] at hfree
    cases hfree.2
  · rw [(ho.active ha).1] at h
    cases h
  · exact hw (Worker.write_eq_none hfree.2)
  · rw [Worker.reading_eq_none hfree.2] at hr
    cases hr

namespace Backed

/-! ## What the steps are made of -/

/-- A step that changes nothing needs no backing. -/
theorem unchanged (c : Client)
    (hposted : ∀ serial result, .posted (.mqttPublishResult serial result) ∉ es)
    (haccepted : ∀ serial m, .accepted serial m ∉ es) : Backed c c es where
  buffer h := .inl ⟨h, rfl, rfl⟩
  expected _ h := ⟨rfl, rfl, .inl h⟩
  poll _ h := .inl h
  posted serial result h := absurd h (hposted serial result)
  grows := le_rfl
  accepted serial m h := absurd h (haccepted serial m)
  numbering h := .inl ⟨h, rfl⟩

/-- A caller that moves and reports nothing but a refusal needs no backing. -/
theorem withCaller (c : Client) {caller : Caller} (hcaller : caller ≠ .publishSubmit)
    (hposted : ∀ serial result, .posted (.mqttPublishResult serial result) ∉ es)
    (haccepted : ∀ serial m, .accepted serial m ∉ es) :
    Backed c { c with caller := caller } es :=
  { unchanged c hposted haccepted with
    accepted := fun serial m h => absurd h (haccepted serial m)
    numbering := fun h => absurd h hcaller }

/-- A worker that moves and has in hand what was in use needs no backing. -/
theorem withWorker (c : Client) {x : Worker} (huse : { c with worker := x }.inUse → c.inUse)
    (hposted : ∀ serial result, .posted (.mqttPublishResult serial result) ∈ es →
      serial ≤ c.nextPublishToken ∧ (result = 0 → c.poll = .pubackPost serial 0))
    (haccepted : ∀ serial m, .accepted serial m ∉ es) :
    Backed c { c with worker := x } es where
  buffer h := .inl ⟨huse h, rfl, rfl⟩
  expected _ h := ⟨rfl, rfl, .inl h⟩
  poll _ h := .inl h
  posted := hposted
  grows := le_rfl
  accepted serial m h := absurd h (haccepted serial m)
  numbering h := .inl ⟨h, rfl⟩

/-- A callback that moves needs no backing, unless it is to post a result. -/
theorem withPoll (c : Client) {x : Poll} (hx : ∀ serial, x ≠ .pubackPost serial 0)
    (hposted : ∀ serial result, .posted (.mqttPublishResult serial result) ∈ es →
      serial ≤ c.nextPublishToken ∧ (result = 0 → c.poll = .pubackPost serial 0))
    (haccepted : ∀ serial m, .accepted serial m ∉ es) :
    Backed c { c with poll := x } es where
  buffer h := .inl ⟨h, rfl, rfl⟩
  expected _ h := ⟨rfl, rfl, .inl h⟩
  poll serial h := absurd h (hx serial)
  posted := hposted
  grows := le_rfl
  accepted serial m h := absurd h (haccepted serial m)
  numbering h := .inl ⟨h, rfl⟩

theorem inactive (hb : Backed c c' es) : Backed c { c' with activePublishId := 0 } es :=
  { hb with
    buffer := fun huse => hb.buffer (huse.imp_right (Or.imp_right (Or.imp_left (absurd rfl))))
    expected := fun ha => absurd rfl ha }

theorem cancelTimeout (hb : Backed c c' es) : Backed c c'.cancelTimeout es :=
  { hb with
    buffer := fun huse => hb.buffer (huse.imp_left fun hq => (List.mem_filter.mp hq).1) }

theorem invalidate (hb : Backed c c' es) : Backed c c'.invalidate es :=
  cancelTimeout { hb.inactive with }

theorem closeConnected (hb : Backed c c' es) : Backed c c'.closeConnected es := { hb with }

theorem closePublish (hb : Backed c c' es) : Backed c c'.closePublish es :=
  cancelTimeout { hb.inactive with }

theorem submit (hb : Backed c c' es) {job : Job} (hjob : job ≠ .publish) :
    Backed c (c'.submit job) es := by
  unfold Client.submit
  split
  · exact hb
  · refine { hb with buffer := fun huse => hb.buffer (huse.imp_left fun hq => ?_) }
    rcases List.mem_append.mp hq with hq | hq
    · exact hq
    · exact absurd (List.mem_singleton.mp hq).symm hjob

/-- The worker holds nothing that was not in use. -/
theorem withoutWrite (c : Client) {x : Worker} (hwrite : x.write = none)
    (hreading : x.reading = none) (hpublish : x ≠ .publish)
    (hposted : ∀ serial result, .posted (.mqttPublishResult serial result) ∈ es →
      serial ≤ c.nextPublishToken ∧ (result = 0 → c.poll = .pubackPost serial 0))
    (haccepted : ∀ serial m, .accepted serial m ∉ es) :
    Backed c { c with worker := x } es := by
  refine withWorker c ?_ hposted haccepted
  rintro (hq | hx | ha | hx | ⟨id, hx, -⟩)
  · exact .inl hq
  · exact absurd hx hpublish
  · exact .inr (.inr (.inl ha))
  · exact absurd hwrite hx
  · cases hreading.symm.trans hx

theorem publishSent (c : Client) (w : Write) (err : ℤ) :
    Backed c (c.publishSent w err).1 (c.publishSent w err).2 := by
  have hmove {x : Worker} (hwrite : x.write = none) (hreading : x.reading = none)
      (hpublish : x ≠ .publish) : Backed c { c with worker := x } [] :=
    withoutWrite c hwrite hreading hpublish nofun nofun
  unfold Client.publishSent
  split
  · exact (hmove (x := .postFailed w.serial err) rfl rfl nofun).inactive.cancelTimeout
  split
  · exact { withoutWrite c (x := .release) rfl rfl nofun (by simp) (by simp) with }
  · exact hmove rfl rfl nofun

/-! ## The steps -/

theorem callerStep (ho : Owned c) (hu : UnderWay c) (h : c.callerStep = some (c', es)) :
    Backed c c' es := by
  have hfree := ho.not_inUse
  cases hc : c.caller <;> simp only [Client.callerStep, hc] at h
  case publishCopy m =>
    cases h
    have hmove : Backed c { c with caller := .publishGeneration } [] :=
      withCaller c (by simp) (by simp) (by simp)
    exact { hmove with buffer := fun huse => absurd huse (hfree (by rw [hc, Caller.writes])) }
  case publishToken =>
    cases h
    have hunused : ¬c.inUse := hfree (by rw [hc, Caller.writes])
    exact
      { buffer := fun huse => absurd huse hunused
        expected := fun ha => absurd (.inr (.inr (.inl ha))) hunused
        poll := fun _ hp => .inl hp
        posted := by simp
        grows := Nat.le_succ _
        accepted := by simp
        numbering := fun _ => .inr rfl }
  case publishSubmit =>
    cases h
    have hq : .publish ∉ c.queue := (ho.caller (by rw [hc, Caller.owns])).1
    rw [Client.submit, if_neg hq]
    exact
      { buffer := fun _ => .inr rfl
        expected := fun _ hx => ⟨rfl, rfl, .inl hx⟩
        poll := fun _ hp => .inl hp
        posted := by simp
        grows := le_rfl
        accepted := by
          rintro serial m hm
          cases List.mem_singleton.mp hm
          exact ⟨rfl, hc, hu.counted, (by simp), rfl⟩
        numbering := by simp }
  case connectSubmit | disconnectSubmit =>
    cases h
    exact submit (withCaller c (by simp) (by simp) (by simp)) (by simp)
  case invalidate =>
    split at h <;> cases h
    exact invalidate (withCaller c (by simp) (by simp) (by simp))
  all_goals try split at h
  all_goals cases h
  all_goals exact { withCaller c (by simp) (by simp) (by simp) with }

theorem take {job : Job} {rest : List Job} (hq : c.queue = job :: rest) :
    Backed c { c with worker := job.handler, queue := rest } [] := by
  have hrest (h : .publish ∈ rest) : .publish ∈ c.queue := hq ▸ List.mem_cons_of_mem _ h
  cases job with
  | publish =>
    have huse : c.inUse := .inl (by simp [hq])
    exact { withWorker c (x := .publish) (fun _ => huse) (by simp) (by simp) with
      buffer := fun _ => .inl ⟨huse, rfl, rfl⟩ }
  | connect | disconnect | pubackTimeout =>
    refine { withoutWrite c (x := .idle) rfl rfl nofun (by simp) (by simp) with buffer := ?_ }
    rintro (hq | hx | ha | hx | ⟨id, hx, -⟩)
    · exact .inl ⟨.inl (hrest hq), rfl, rfl⟩
    · cases hx
    · exact .inl ⟨.inr (.inr (.inl ha)), rfl, rfl⟩
    · exact absurd rfl hx
    · cases hx

theorem workerStep (hu : UnderWay c) (h : c.workerStep cfg = some (c', es)) :
    Backed c c' es := by
  cases hw : c.worker <;> simp only [Client.workerStep, hw] at h
  case idle =>
    split at h <;> cases h
    exact take ‹_›
  case sent w err =>
    split at h
    · cases h
    · obtain rfl := congrArg Prod.fst (Option.some.inj h)
      obtain rfl := congrArg Prod.snd (Option.some.inj h)
      exact publishSent c w err
  case postFailed serial err =>
    cases h
    obtain ⟨herr, hserial⟩ := hu.postFailed serial err hw
    refine withoutWrite c rfl rfl (by simp) (fun serial' result hposted => ?_) (by simp)
    cases List.mem_singleton.mp hposted
    exact ⟨hserial, fun h0 => absurd h0 herr⟩
  case timeoutId =>
    cases h
    refine withWorker c ?_ (by simp) (by simp)
    rintro (hq | hx | ha | hx | ⟨id, ⟨⟩, hid⟩)
    · exact .inl hq
    · cases hx
    · exact .inr (.inr (.inl ha))
    · exact absurd rfl hx
    · exact .inr (.inr (.inl hid))
  case timeoutPublishGeneration id =>
    cases h
    refine withWorker c ?_ (by simp) (by simp)
    rintro (hq | hx | ha | hx | ⟨id', ⟨⟩, hid⟩)
    · exact .inl hq
    · cases hx
    · exact .inr (.inr (.inl ha))
    · exact absurd rfl hx
    · exact .inr (.inr (.inr (.inr ⟨id, by rw [hw, Worker.reading], hid⟩)))
  case timeoutToken id g =>
    split at h <;> rename_i hid <;> cases h
    · exact withoutWrite c rfl rfl (by simp) (by simp) (by simp)
    · refine withWorker c (fun _ => ?_) (by simp) (by simp)
      exact .inr (.inr (.inr (.inr ⟨id, by rw [hw, Worker.reading], hid⟩)))
  case timeoutLte w | timeoutConnected w | timeoutGeneration w =>
    have huse : c.inUse := .inr (.inr (.inr (.inl (by simp [hw, Worker.write]))))
    split at h <;> cases h
    · exact { withWorker c (fun _ => huse) (by simp) (by simp) with }
    · exact withoutWrite c rfl rfl (by simp) (by simp) (by simp)
  case onDisconnect x =>
    cases x <;> simp only at h
    case connected =>
      split at h <;> cases h
      exact closeConnected (withoutWrite c rfl rfl (by simp) (by simp) (by simp))
    case publish =>
      cases h
      exact closePublish (withoutWrite c rfl rfl (by simp) (by simp) (by simp))
    all_goals
      cases h
      exact { withoutWrite c (by rfl) (by rfl) (by simp) (by simp) (by simp) with }
  case publish =>
    split at h <;> try split at h
    all_goals cases h
    exact withoutWrite c rfl rfl (by simp) (by simp) (by simp)
  all_goals try split at h
  all_goals cases h
  all_goals exact { withoutWrite c (by rfl) (by rfl) (by simp) (by simp) (by simp) with }

theorem pollStep (hu : UnderWay c) (h : c.pollStep = some (c', es)) : Backed c c' es := by
  cases hp : c.poll <;> simp only [Client.pollStep, hp] at h
  case connack accepted =>
    cases h
    have hx : ∀ serial, (if accepted then Poll.connackConnected else .refusedLte) ≠
        .pubackPost serial 0 := by
      cases accepted <;> simp
    exact { withPoll c hx (by simp) (by simp) with }
  case connackInvalidate =>
    split at h <;> cases h
    exact invalidate (withPoll c (by simp) (by simp) (by simp))
  case connackSubmit =>
    cases h
    exact submit (withPoll c (by simp) (by simp) (by simp)) (by simp)
  case pubackPost serial result =>
    cases h
    refine withPoll c (by simp) (fun serial' result' hposted => ?_) (by simp)
    cases List.mem_singleton.mp hposted
    exact ⟨hu.puback serial result hp, fun h0 => h0 ▸ hp⟩
  case onDisconnect x =>
    cases x <;> simp only at h
    case connected =>
      split at h <;> cases h
      exact closeConnected (withPoll c (by simp) (by simp) (by simp))
    case publish =>
      cases h
      exact closePublish (withPoll c (by simp) (by simp) (by simp))
    all_goals
      cases h
      exact { withPoll c (by simp) (by simp) (by simp) with }
  all_goals try split at h
  all_goals cases h
  all_goals exact { withPoll c (by simp) (by simp) (by simp) with }

theorem callPublish {m : Message} (h : c.call (c.callPublish cfg m) = some (c', es)) :
    Backed c c' es := by
  obtain ⟨hidle, hstart⟩ := call_eq_some h
  obtain ⟨caller, hcaller, rfl⟩ := callPublish_caller cfg hidle hstart
  have hes := c.callPublish_events cfg m
  rw [hstart] at hes
  refine withCaller c hcaller (fun _ _ hm => ?_) fun _ _ hm => ?_
  · obtain ⟨_, he⟩ := hes _ hm
    cases he
  · obtain ⟨_, he⟩ := hes _ hm
    cases he

theorem callerNoSubmit {err : Errno} (h : c.callerNoSubmit err = some (c', es)) :
    Backed c c' es := by
  obtain ⟨-, rfl, rfl⟩ | ⟨-, rfl, rfl⟩ | ⟨-, rfl, rfl⟩ := callerNoSubmit_cases h
  all_goals exact withCaller c (by simp) (by simp) (by simp)

theorem workerConnect {failed : Bool} (h : c.workerConnect failed = some (c', es)) :
    Backed c c' es := by
  obtain ⟨g, -, rfl, rfl | ⟨-, rfl⟩⟩ := workerConnect_cases h
  all_goals exact { withoutWrite c (by rfl) (by rfl) (by simp) (by simp) (by simp) with }

theorem workerMessageId {id : UInt16} (h : c.workerMessageId cfg id = some (c', es)) :
    Backed c c' es := by
  obtain ⟨hw, rfl, ⟨-, -, -, -, hexpected⟩, rfl⟩ := workerMessageId_cases h
  exact
    { buffer := fun _ => .inl ⟨.inr (.inl hw), rfl, rfl⟩
      expected := fun _ hx => absurd hx hexpected
      poll := fun _ hp => .inl hp
      posted := nofun
      grows := le_rfl
      accepted := nofun
      numbering := fun hc => .inl ⟨hc, rfl⟩ }

theorem workerWrite (hu : UnderWay c) {transmitted : Bool}
    (h : c.workerWrite transmitted = some (c', es)) : Backed c c' es := by
  obtain ⟨w, hw, rfl, rfl⟩ := workerWrite_cases h
  have hwrite : c.worker.write = some w := by rw [hw, Worker.write]
  have huse : c.inUse := .inr (.inr (.inr (.inl (by simp [hwrite]))))
  refine { withWorker c (x := .sending w) (fun _ => huse) (by simp) (by simp) with
    expected := fun ha hx => ⟨rfl, rfl, ?_⟩ }
  cases transmitted with
  | false => exact .inl hx
  | true =>
    rcases List.mem_cons.mp hx with hid | hx
    · exact .inr ⟨w, rfl, hid.symm, (hu.write w hwrite).2.1⟩
    · exact .inl hx

theorem workerSent {err : ℤ} (h : c.workerSent err = some (c', es)) : Backed c c' es := by
  obtain ⟨w, hw, rfl, rfl⟩ := workerSent_cases h
  exact withWorker c (fun _ => .inr (.inr (.inr (.inl (by simp [hw, Worker.write]))))) nofun nofun

theorem pollStart {possible : Bool} {helper : Helper} {poll : Poll}
    (hp : ∀ serial result, poll ≠ .pubackPost serial result)
    (h : c.pollStart possible helper poll = some (c', es)) : Backed c c' es := by
  obtain ⟨-, -, rfl, rfl⟩ := pollStart_cases h
  exact { withPoll c (fun serial => hp serial 0) (by simp) (by simp) with }

theorem pollPuback (hu : UnderWay c) {id : UInt16} {result : ℤ}
    (h : c.pollPuback id result = some (c', es)) : Backed c c' es := by
  obtain ⟨-, hexpected, rfl, ⟨⟨-, -, hactive⟩, rfl⟩ | rfl⟩ := pollPuback_cases h
  · have hid : id ≠ 0 := fun h0 => hu.nonzero (h0 ▸ hexpected)
    have htoken := hu.active (hactive ▸ hid)
    have hpost : Backed c { c with poll := .pubackPost c.activePublishToken result }
        [.puback id result] := by
      refine { unchanged c (by simp) (by simp) with poll := ?_ }
      rintro _ ⟨⟩
      exact .inr ⟨id, rfl, hactive.symm, hid, hexpected, htoken⟩
    exact hpost.inactive.cancelTimeout
  · exact unchanged _ (by simp) (by simp)

theorem step {a : Action} (ho : Owned c) (hu : UnderWay c)
    (h : c.step cfg a = some (c', es)) : Backed c c' es := by
  cases a with
  | callPublish m => exact callPublish h
  | callConnect | callDisconnect =>
    obtain ⟨-, ⟨⟩⟩ := call_eq_some h
    exact withCaller c (by simp) (by simp) (by simp)
  | callSetLteAvailable available =>
    obtain ⟨-, ⟨⟩⟩ := call_eq_some h
    exact withCaller c (by cases available <;> simp) (by simp) (by simp)
  | caller => exact callerStep ho hu h
  | callerNoSubmit err => exact callerNoSubmit h
  | worker => exact workerStep hu h
  | workerConnect failed => exact workerConnect h
  | workerMessageId id => exact workerMessageId h
  | workerWrite transmitted => exact workerWrite hu h
  | workerSent err => exact workerSent h
  | poll => exact pollStep hu h
  | pollConnack accepted => exact pollStart (by simp) h
  | pollDisconnect => exact pollStart (by simp) h
  | pollError => exact pollStart (by simp) h
  | pollPuback id result => exact pollPuback hu h
  | expire =>
    obtain ⟨-, rfl, rfl⟩ := expire_cases h
    have hstopped : Backed c { c with timer := false } [] :=
      { unchanged c (by simp) (by simp) with }
    exact hstopped.submit (by simp)
  | forget id =>
    cases h
    exact { unchanged c (by simp) (by simp) with
      expected := fun _ hx => ⟨rfl, rfl, .inl (List.mem_filter.mp hx).1⟩ }

end Backed

/-! ## The history -/

/-- The message accepted under the token `serial` was handed to the helper with
the message id `id`, and left. -/
def Handed (id : UInt16) (serial : ℕ) (τ : List Event) : Prop :=
  ∃ τ₁ τ₂ w m, τ = τ₁ ++ .written w m true :: τ₂ ∧ w.id = id ∧ w.serial = serial ∧
    .accepted serial m ∈ τ₁

/-- And afterwards a PUBACK with result 0 arrived for that id. -/
def Acked (serial : ℕ) (τ : List Event) : Prop :=
  ∃ τ₁ τ₂ id, τ = τ₁ ++ .puback id 0 :: τ₂ ∧ Handed id serial τ₁

theorem Handed.append {id : UInt16} {serial : ℕ} {τ : List Event} (h : Handed id serial τ)
    (es : List Event) : Handed id serial (τ ++ es) := by
  obtain ⟨τ₁, τ₂, w, m, rfl, hw⟩ := h
  exact ⟨τ₁, τ₂ ++ es, w, m, by simp, hw⟩

theorem Acked.append {serial : ℕ} {τ : List Event} (h : Acked serial τ) (es : List Event) :
    Acked serial (τ ++ es) := by
  obtain ⟨τ₁, τ₂, id, rfl, hh⟩ := h
  exact ⟨τ₁, τ₂ ++ es, id, by simp, hh⟩

/-- What the history says about the message under way and about the results. -/
structure Traced (c : Client) (τ : List Event) : Prop where
  accepted : c.inUse → .accepted c.publishToken c.message ∈ τ
  handed : c.activePublishId ≠ 0 → c.activePublishId ∈ c.expected →
    Handed c.activePublishId c.publishToken τ
  puback : ∀ serial, c.poll = .pubackPost serial 0 → Acked serial τ
  posted : ∀ serial, .posted (.mqttPublishResult serial 0) ∈ τ → Acked serial τ
  counted : ∀ serial result, .posted (.mqttPublishResult serial result) ∈ τ →
    serial ≤ c.nextPublishToken
  old : ∀ serial m, .accepted serial m ∈ τ → serial ≤ c.nextPublishToken
  unused : c.caller = .publishSubmit → ∀ m, .accepted c.nextPublishToken m ∉ τ
  unique : ∀ serial m m', .accepted serial m ∈ τ → .accepted serial m' ∈ τ → m = m'

theorem Traced.step {τ : List Event} (ht : Traced c τ) (hb : Backed c c' es) :
    Traced c' (τ ++ es) := by
  refine ⟨fun h => ?_, fun h hx => ?_, fun serial h => ?_, fun serial h => ?_,
    fun serial result h => ?_, fun serial m h => ?_, fun h m hm => ?_,
    fun serial m m' h h' => ?_⟩
  · rcases hb.buffer h with ⟨hin, htok, hmsg⟩ | rfl
    · rw [htok, hmsg]
      exact List.mem_append_left _ (ht.accepted hin)
    · exact List.mem_append_right _ List.mem_cons_self
  · obtain ⟨htok, hact, hold | ⟨w, rfl, hid, hserial⟩⟩ := hb.expected h hx
    · rw [hact] at h ⊢
      rw [htok]
      exact (ht.handed h hold).append es
    · rw [hact] at h ⊢
      rw [htok]
      exact ⟨τ, [], w, c.message, rfl, hid, hserial, ht.accepted (.inr (.inr (.inl h)))⟩
  · rcases hb.poll serial h with hold | ⟨id, rfl, rfl, hne, hx, rfl⟩
    · exact (ht.puback serial hold).append es
    · exact ⟨τ, [], c.activePublishId, rfl, ht.handed hne hx⟩
  · rcases List.mem_append.mp h with hold | hnew
    · exact (ht.posted serial hold).append es
    · exact (ht.puback serial ((hb.posted serial 0 hnew).2 rfl)).append es
  · rcases List.mem_append.mp h with hold | hnew
    · exact le_trans (ht.counted serial result hold) hb.grows
    · exact le_trans (hb.posted serial result hnew).1 hb.grows
  · rcases List.mem_append.mp h with hold | hnew
    · exact le_trans (ht.old serial m hold) hb.grows
    · obtain ⟨-, -, rfl, -, hsame⟩ := hb.accepted serial m hnew
      exact hsame.ge
  · rcases List.mem_append.mp hm with hold | hnew
    · rcases hb.numbering h with ⟨hcaller, hsame⟩ | hnext
      · exact ht.unused hcaller m (hsame ▸ hold)
      · have := ht.old _ m hold
        omega
    · exact (hb.accepted _ m hnew).2.2.2.1 h
  · rcases List.mem_append.mp h with hold | hnew <;>
      rcases List.mem_append.mp h' with hold' | hnew'
    · exact ht.unique serial m m' hold hold'
    · obtain ⟨-, hcaller, rfl, -⟩ := hb.accepted serial m' hnew'
      exact absurd hold (ht.unused hcaller m)
    · obtain ⟨-, hcaller, rfl, -⟩ := hb.accepted serial m hnew
      exact absurd hold' (ht.unused hcaller m')
    · obtain ⟨rfl, -⟩ := hb.accepted serial m hnew
      cases List.mem_singleton.mp hnew'
      rfl

/-- **A result 0 is a PUBACK for the message of its own token**, in every run of
the client. -/
theorem Traced.of_run {c : Client} {τ : List Event} (hr : (mqttClient cfg).Run anyStep c τ) :
    Traced c τ := by
  refine hr.invariant_with (J := fun c _ => Owned c ∧ UnderWay c)
    (fun hr => ⟨Owned.of_run hr, UnderWay.of_run hr⟩) ?_
    fun _ _ _ _ _ ⟨ho, hu⟩ ht _ hs => ht.step (Backed.step ho hu hs)
  constructor <;> simp [mqttClient, inUse, Worker.write, Worker.reading]

end Aitsm.Original.Client
