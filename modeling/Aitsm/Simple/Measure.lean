import Aitsm.Firmware.Sensor
import Aitsm.Simple.Sleep

/-!
# The measurement thread (`main.c`, `sensor.c`)

The thread waits for the time of day, and then measures at fixed points in time
(`threadStep`). Together with the loop it is the device (`device`), and a run of the
device is a run of the loop in which the thread is one of the others (`device_run`).

Nothing is measured before the time of day is known, and the points in time do not drift
(`measurement_schedule`). A measurement that was read is delivered, in the batch, in the
queue or about to be put there, in the order of the readings, or it is one of those that
found the queue or the batch full, and were logged (`readings_accounted`).
-/

namespace Aitsm.Simple

open Library Library.Wire
open Library.System (anyStep EachEvent Step reports)

variable {cfg : Config}

/-! ## The device -/

/-- Where the measurement thread stands. -/
inductive ThreadPc where
  /-- in `aitsm_sensor_wait_for_time` -/
  | waiting
  /-- before `aitsm_sensor_read` -/
  | reading
  /-- before `k_msgq_put` -/
  | putting (m : Measurement)
  /-- before `k_event_post` -/
  | posting
  /-- in `k_sleep` -/
  | sleeping
  deriving DecidableEq

/-- The two threads. -/
structure Device (cfg : Config) where
  loop : State cfg := {}
  thread : ThreadPc := .waiting
  /-- `next_ms` -/
  nextMs : ℕ := 0
  /-- `time_ready` -/
  timeReady : Bool := false

/-- What a run of the device makes visible. -/
inductive DeviceEvent where
  | loop (e : Event)
  /-- the time of day becomes known -/
  | timeObtained
  /-- the thread takes the time of its first measurement -/
  | started (uptimeMs : ℕ)
  /-- `aitsm_sensor_read` is called -/
  | attempted (uptimeMs : ℕ)
  /-- and succeeds -/
  | read (m : Measurement)
  /-- the queue is full -/
  | dropped (m : Measurement)

inductive DeviceAction where
  /-- a step of the loop, or of a thread other than this one -/
  | loop (a : Action)
  /-- `date_time_handler` -/
  | dateTime (obtained : Bool)
  /-- the next statement of the thread; what the sensor answers, if it is asked -/
  | thread (readout : Readout)

/-- What the loop knows of the measurement thread. -/
def Action.ofThread : Action → Bool
  | .measure _ | .measured => true
  | _ => false

/-- `MEASUREMENT_INTERVAL_MS`. -/
def measurementIntervalMs (intervalSeconds : ℕ) : ℕ := intervalSeconds * 1000

namespace Device

/-- The end of a round. -/
def rest (intervalSeconds : ℕ) (d : Device cfg) : Device cfg :=
  { d with thread := .sleeping, nextMs := d.nextMs + measurementIntervalMs intervalSeconds }

/-- `k_msgq_put` on a queue that has room. -/
def put (d : Device cfg) (m : Measurement) : Device cfg :=
  { d with
    thread := .posting
    loop := { d.loop with
      measurementQueue := d.loop.measurementQueue ++ [m]
      measuring := true } }

/-- `k_event_post`, and the end of the round. -/
def post (intervalSeconds : ℕ) (d : Device cfg) : Device cfg :=
  { d.rest intervalSeconds with
    loop := { d.loop with
      measuring := false
      events := { d.loop.events with measurement := true } } }

/-- `measurement_thread`. -/
def threadStep (intervalSeconds : ℕ) (d : Device cfg) (readout : Readout) :
    Option (Device cfg × List DeviceEvent) :=
  match d.thread with
  | .waiting =>
    if d.timeReady then
      some ({ d with thread := .reading, nextMs := d.loop.uptimeMs, timeReady := false },
        [.started d.loop.uptimeMs])
    else none
  | .reading =>
    match sensorRead readout with
    | .ok m => some ({ d with thread := .putting m }, [.attempted d.loop.uptimeMs, .read m])
    | .error _ => some (d.rest intervalSeconds, [.attempted d.loop.uptimeMs])
  | .putting m =>
    if d.loop.measurementQueue.length < measurementQueueLength then some (d.put m, [])
    else some (d.rest intervalSeconds, [.dropped m])
  | .posting => some (d.post intervalSeconds, [])
  | .sleeping =>
    if d.nextMs ≤ d.loop.uptimeMs then some ({ d with thread := .reading }, []) else none

/-- One action. -/
def step (intervalSeconds : ℕ) (d : Device cfg) :
    DeviceAction → Option (Device cfg × List DeviceEvent)
  | .loop a =>
    if a.ofThread then none
    else (Simple.step d.loop a).map fun r => ({ d with loop := r.1 }, r.2.map .loop)
  | .dateTime obtained =>
    if obtained then some ({ d with timeReady := true }, [.timeObtained]) else some (d, [])
  | .thread readout => threadStep intervalSeconds d readout

end Device

/-- The Simple firmware, with its measurement thread. -/
def device (cfg : Config) (intervalSeconds : ℕ) :
    System (Device cfg) DeviceAction DeviceEvent where
  start := {}
  step := Device.step intervalSeconds

variable {intervalSeconds : ℕ}

/-! ## What a run makes visible -/

/-- What the loop makes visible. -/
def loopEvents (τ : List DeviceEvent) : List Event :=
  τ.flatMap fun e => match e with
    | .loop e => [e]
    | _ => []

/-- The measurements that were read, in order. -/
def readings (τ : List DeviceEvent) : List Measurement :=
  τ.flatMap fun e => match e with
    | .read m => [m]
    | _ => []

/-- Those that found the queue full. -/
def dropped (τ : List DeviceEvent) : List Measurement :=
  τ.flatMap fun e => match e with
    | .dropped m => [m]
    | _ => []

/-- When the thread started to measure. -/
def starts (τ : List DeviceEvent) : List ℕ :=
  τ.flatMap fun e => match e with
    | .started uptimeMs => [uptimeMs]
    | _ => []

/-- When it asked the sensor. -/
def attempts (τ : List DeviceEvent) : List ℕ :=
  τ.flatMap fun e => match e with
    | .attempted uptimeMs => [uptimeMs]
    | _ => []

@[simp] theorem loopEvents_append (τ es : List DeviceEvent) :
    loopEvents (τ ++ es) = loopEvents τ ++ loopEvents es := List.flatMap_append

@[simp] theorem readings_append (τ es : List DeviceEvent) :
    readings (τ ++ es) = readings τ ++ readings es := List.flatMap_append

@[simp] theorem dropped_append (τ es : List DeviceEvent) :
    dropped (τ ++ es) = dropped τ ++ dropped es := List.flatMap_append

@[simp] theorem starts_append (τ es : List DeviceEvent) :
    starts (τ ++ es) = starts τ ++ starts es := List.flatMap_append

@[simp] theorem attempts_append (τ es : List DeviceEvent) :
    attempts (τ ++ es) = attempts τ ++ attempts es := List.flatMap_append

/-- The events of the loop are only those. -/
theorem visible_loop (es : List Event) :
    loopEvents (es.map .loop) = es ∧ readings (es.map .loop) = [] ∧
      dropped (es.map .loop) = [] ∧ starts (es.map .loop) = [] ∧
      attempts (es.map .loop) = [] := by
  induction es with
  | nil => exact ⟨rfl, rfl, rfl, rfl, rfl⟩
  | cons e es ih =>
    obtain ⟨hloop, hread, hdropped, hstarts, hattempts⟩ := ih
    simp only [loopEvents, readings, dropped, starts, attempts] at *
    simp [hloop, hread, hdropped, hstarts, hattempts]

/-! ## What one step can do -/

/-- Everything one step of the device can do. -/
inductive Device.Move (intervalSeconds : ℕ) (d : Device cfg) :
    Device cfg → List DeviceEvent → Prop where
  | loop (a s' es) (ha : a.ofThread = false) (h : Simple.step d.loop a = some (s', es)) :
    Move intervalSeconds d { d with loop := s' } (es.map .loop)
  | timeObtained : Move intervalSeconds d { d with timeReady := true } [.timeObtained]
  | notObtained : Move intervalSeconds d d []
  | started (hpc : d.thread = .waiting) (hready : d.timeReady) :
    Move intervalSeconds d
      { d with thread := .reading, nextMs := d.loop.uptimeMs, timeReady := false }
      [.started d.loop.uptimeMs]
  | read (m) (hpc : d.thread = .reading) :
    Move intervalSeconds d { d with thread := .putting m }
      [.attempted d.loop.uptimeMs, .read m]
  | notRead (hpc : d.thread = .reading) :
    Move intervalSeconds d (d.rest intervalSeconds) [.attempted d.loop.uptimeMs]
  | put (m) (hpc : d.thread = .putting m)
      (hroom : d.loop.measurementQueue.length < measurementQueueLength) :
    Move intervalSeconds d (d.put m) []
  | dropped (m) (hpc : d.thread = .putting m)
      (hfull : measurementQueueLength ≤ d.loop.measurementQueue.length) :
    Move intervalSeconds d (d.rest intervalSeconds) [.dropped m]
  | posted (hpc : d.thread = .posting) : Move intervalSeconds d (d.post intervalSeconds) []
  | due (hpc : d.thread = .sleeping) (hdue : d.nextMs ≤ d.loop.uptimeMs) :
    Move intervalSeconds d { d with thread := .reading } []

theorem Device.step_cases {d d' : Device cfg} {es : List DeviceEvent} {a : DeviceAction}
    (h : d.step intervalSeconds a = some (d', es)) : Device.Move intervalSeconds d d' es := by
  cases a with
  | loop a =>
    cases ha : a.ofThread with
    | true => simp [Device.step, ha] at h
    | false =>
      simp only [Device.step, ha, Bool.false_eq_true, if_false] at h
      obtain ⟨⟨s', es⟩, hs, heq⟩ := Option.map_eq_some_iff.mp h
      obtain ⟨rfl, rfl⟩ := Prod.mk.inj heq
      exact .loop a s' es ha hs
  | dateTime obtained =>
    cases obtained with
    | true =>
      obtain ⟨rfl, rfl⟩ := Prod.mk.inj (Option.some.inj h)
      exact .timeObtained
    | false =>
      obtain ⟨rfl, rfl⟩ := Prod.mk.inj (Option.some.inj h)
      exact .notObtained
  | thread readout =>
    simp only [Device.step, Device.threadStep] at h
    split at h
    · rename_i hpc
      split at h
      · rename_i hready
        obtain ⟨rfl, rfl⟩ := Prod.mk.inj (Option.some.inj h)
        exact .started hpc hready
      · cases h
    · rename_i hpc
      split at h
      · obtain ⟨rfl, rfl⟩ := Prod.mk.inj (Option.some.inj h)
        exact .read _ hpc
      · obtain ⟨rfl, rfl⟩ := Prod.mk.inj (Option.some.inj h)
        exact .notRead hpc
    · rename_i m hpc
      split at h
      · rename_i hroom
        obtain ⟨rfl, rfl⟩ := Prod.mk.inj (Option.some.inj h)
        exact .put m hpc hroom
      · rename_i hfull
        obtain ⟨rfl, rfl⟩ := Prod.mk.inj (Option.some.inj h)
        exact .dropped m hpc (not_lt.mp hfull)
    · rename_i hpc
      obtain ⟨rfl, rfl⟩ := Prod.mk.inj (Option.some.inj h)
      exact .posted hpc
    · rename_i hpc
      split at h
      · rename_i hdue
        obtain ⟨rfl, rfl⟩ := Prod.mk.inj (Option.some.inj h)
        exact .due hpc hdue
      · cases h

/-! ## The loop does not notice the difference -/

/-- The loop itself leaves the thread alone, and puts nothing. -/
theorem mainStep_thread {s s' : State cfg} {es : List Event} (h : mainStep s = some (s', es)) :
    s'.measuring = s.measuring ∧
      s'.measurementQueue.length ≤ s.measurementQueue.length := by
  unfold mainStep at h
  split at h
  all_goals try split at h
  all_goals try split at h
  all_goals try split at h
  all_goals try cases h
  -- only `collect` takes something from the queue
  all_goals first | exact ⟨rfl, le_rfl⟩ | simp_all

/-- Only the measurement thread fills the queue. -/
theorem step_not_ofThread {s s' : State cfg} {es : List Event} {a : Action}
    (ha : a.ofThread = false) (h : step s a = some (s', es)) :
    s'.measuring = s.measuring ∧
      s'.measurementQueue.length ≤ s.measurementQueue.length := by
  cases a with
  | main => exact mainStep_thread h
  | measure m => cases ha
  | measured => cases ha
  | _ =>
    grind -ring -linarith -order [step, mainTime, mainConnect, mainMessageId, mainPublish,
      onConnack, onDisconnect, onPuback]

/-- The uptime does not go back. -/
theorem step_clock {s s' : State cfg} {es : List Event} {a : Action}
    (h : step s a = some (s', es)) : s.uptimeMs ≤ s'.uptimeMs := by
  cases step_cases h <;> first | exact le_rfl | exact Nat.le_add_right _ _

/-- **The device refines the loop.** A run of the device is a run of the loop, in which
the measurement thread is one of the other threads. -/
theorem device_run {ok : Device cfg → List DeviceEvent → DeviceAction → Prop} {d : Device cfg}
    {τ : List DeviceEvent} (hr : (device cfg intervalSeconds).Run ok d τ) :
    (firmware cfg).Run anyStep d.loop (loopEvents τ) ∧
      (d.loop.measuring ↔ d.thread = .posting) := by
  refine hr.invariant (I := fun d τ => (firmware cfg).Run anyStep d.loop (loopEvents τ) ∧
    (d.loop.measuring ↔ d.thread = .posting)) ⟨.start, by simp [device]⟩ ?_
  intro d τ a d' es ih _ hs
  obtain ⟨hrun, hmeasuring⟩ := ih
  rw [loopEvents_append]
  cases Device.step_cases hs with
  | loop a s' es ha h =>
    rw [(visible_loop es).1]
    refine ⟨hrun.step trivial h, ?_⟩
    simpa only [(step_not_ofThread ha h).1] using hmeasuring
  | put m hpc hroom =>
    -- the loop takes a measurement only from a thread that has posted the last one
    have hidle : d.loop.measuring = false := by simpa [hpc] using hmeasuring
    refine ⟨hrun.step (a := .measure m) trivial ?_, by simp [Device.put]⟩
    simp [firmware, step, measure, hidle, hroom, Device.put, loopEvents]
  | posted hpc =>
    refine ⟨hrun.step (a := .measured) trivial ?_, by simp [Device.post, Device.rest]⟩
    simp [firmware, step, hmeasuring.mpr hpc, Device.post, loopEvents]
  | timeObtained | notObtained => exact ⟨by simpa [loopEvents] using hrun, hmeasuring⟩
  | _ => simp_all [loopEvents, Device.rest]

/-! ## The schedule -/

/-- What the thread has done of its schedule, counted from `start`. -/
structure Scheduled (intervalSeconds start : ℕ) (d : Device cfg) (times : List ℕ) : Prop where
  /-- no measurement comes before its time -/
  notBefore : ∀ k (h : k < times.length),
    start + k * measurementIntervalMs intervalSeconds ≤ times[k]
  running : d.thread ≠ .waiting
  /-- `next_ms` is the time of the next measurement, and from `aitsm_sensor_read` to the end
  of the round of the one that was made -/
  next : d.thread = .sleeping ∨ d.thread = .reading →
    d.nextMs = start + times.length * measurementIntervalMs intervalSeconds
  made : d.thread = .posting ∨ (∃ m, d.thread = .putting m) →
    d.nextMs + measurementIntervalMs intervalSeconds =
      start + times.length * measurementIntervalMs intervalSeconds
  due : d.thread = .reading → d.nextMs ≤ d.loop.uptimeMs

namespace Scheduled

variable {start : ℕ} {d : Device cfg} {times : List ℕ}

/-- The sensor is asked. -/
theorem attempt (h : Scheduled intervalSeconds start d times) (hpc : d.thread = .reading) :
    (∀ k (hk : k < (times ++ [d.loop.uptimeMs]).length),
      start + k * measurementIntervalMs intervalSeconds ≤ (times ++ [d.loop.uptimeMs])[k]) ∧
    d.nextMs + measurementIntervalMs intervalSeconds =
      start + (times ++ [d.loop.uptimeMs]).length * measurementIntervalMs intervalSeconds := by
  have hnext := h.next (.inr hpc)
  refine ⟨fun k hk => ?_, ?_⟩
  · -- the new time is that of the last measurement
    rw [List.length_append, List.length_singleton] at hk
    rcases Nat.lt_succ_iff_lt_or_eq.mp hk with hlt | rfl
    · rw [List.getElem_append_left hlt]
      exact h.notBefore k hlt
    · rw [List.getElem_concat_length rfl, ← hnext]
      exact h.due hpc
  · rw [hnext, List.length_append, List.length_singleton, Nat.succ_mul, Nat.add_assoc]

theorem move {d' : Device cfg} {es : List DeviceEvent}
    (h : Scheduled intervalSeconds start d times)
    (hm : Device.Move intervalSeconds d d' es) :
    starts es = [] ∧ Scheduled intervalSeconds start d' (times ++ attempts es) := by
  cases hm with
  | loop a s' es ha hs =>
    obtain ⟨-, -, -, hstarts, hattempts⟩ := visible_loop es
    rw [hstarts, hattempts, List.append_nil]
    have hclock := step_clock hs
    exact ⟨rfl, ⟨h.notBefore, h.running, h.next, h.made, fun hpc => (h.due hpc).trans hclock⟩⟩
  | timeObtained | notObtained =>
    exact ⟨rfl, ⟨by simpa [attempts] using h.notBefore, h.running,
      by simpa [attempts] using h.next, by simpa [attempts] using h.made, h.due⟩⟩
  | started hpc => exact absurd hpc h.running
  | read m hpc =>
    obtain ⟨hbefore, hmade⟩ := h.attempt hpc
    exact ⟨rfl, ⟨hbefore, by simp, by simp, fun _ => hmade, by simp⟩⟩
  | notRead hpc =>
    obtain ⟨hbefore, hmade⟩ := h.attempt hpc
    exact ⟨rfl, ⟨hbefore, by simp [Device.rest], fun _ => hmade, by simp [Device.rest],
      by simp [Device.rest]⟩⟩
  | put m hpc hroom =>
    simp only [attempts, List.flatMap_nil, List.append_nil]
    exact ⟨rfl, ⟨h.notBefore, by simp [Device.put], by simp [Device.put],
      fun _ => h.made (.inr ⟨m, hpc⟩), by simp [Device.put]⟩⟩
  | dropped m hpc =>
    have hmade := h.made (.inr ⟨m, hpc⟩)
    exact ⟨rfl, ⟨by simpa [attempts] using h.notBefore, by simp [Device.rest],
      fun _ => by simpa [attempts, Device.rest] using hmade, by simp [Device.rest],
      by simp [Device.rest]⟩⟩
  | posted hpc =>
    have hmade := h.made (.inl hpc)
    exact ⟨rfl, ⟨by simpa [attempts] using h.notBefore, by simp [Device.post, Device.rest],
      fun _ => by simpa [attempts, Device.post, Device.rest] using hmade,
      by simp [Device.post, Device.rest], by simp [Device.post, Device.rest]⟩⟩
  | due hpc hdue =>
    simp only [attempts, List.flatMap_nil, List.append_nil]
    exact ⟨rfl, ⟨h.notBefore, by simp, fun _ => h.next (.inl hpc), by simp, fun _ => hdue⟩⟩

/-- The thread waits for the time of day, or is on its schedule. -/
theorem of_run {ok : Device cfg → List DeviceEvent → DeviceAction → Prop}
    {τ : List DeviceEvent} (hr : (device cfg intervalSeconds).Run ok d τ) :
    d.thread = .waiting ∧ starts τ = [] ∧ attempts τ = [] ∨
      ∃ start, starts τ = [start] ∧ Scheduled intervalSeconds start d (attempts τ) := by
  refine hr.invariant (I := fun d τ => d.thread = .waiting ∧ starts τ = [] ∧ attempts τ = [] ∨
    ∃ start, starts τ = [start] ∧ Scheduled intervalSeconds start d (attempts τ))
    (.inl ⟨rfl, rfl, rfl⟩) ?_
  intro d τ a d' es ih _ hs
  have hm := Device.step_cases hs
  rw [starts_append, attempts_append]
  rcases ih with ⟨hpc, hstarts, hattempts⟩ | ⟨start, hstarts, h⟩
  · rw [hstarts, hattempts]
    cases hm with
    | loop a s' es ha hs =>
      obtain ⟨-, -, -, hstarts, hattempts⟩ := visible_loop es
      exact .inl ⟨hpc, hstarts, hattempts⟩
    | timeObtained | notObtained => exact .inl ⟨hpc, rfl, rfl⟩
    | started _ _ =>
      refine .inr ⟨d.loop.uptimeMs, rfl, ?_⟩
      exact ⟨by simp [attempts], by simp, by simp [attempts], by simp, by simp⟩
    -- the rest is done by a thread that does not wait
    | read m h | notRead h | put m h hroom | dropped m h hfull | posted h | due h hdue =>
      simp [hpc] at h
  · obtain ⟨hnone, h'⟩ := h.move hm
    exact .inr ⟨start, by rw [hstarts, hnone, List.append_nil], h'⟩

end Scheduled

/-- A thread that does not wait, or may stop to, has been told that the time is known. -/
theorem time_known {ok : Device cfg → List DeviceEvent → DeviceAction → Prop} {d : Device cfg}
    {τ : List DeviceEvent} (hr : (device cfg intervalSeconds).Run ok d τ) :
    d.timeReady ∨ d.thread ≠ .waiting → .timeObtained ∈ τ := by
  refine hr.invariant (I := fun d τ => d.timeReady ∨ d.thread ≠ .waiting → .timeObtained ∈ τ)
    (by simp [device]) ?_
  intro d τ a d' es ih _ hs hknown
  rw [List.mem_append]
  cases Device.step_cases hs with
  | timeObtained => exact .inr List.mem_cons_self
  | loop | notObtained => exact .inl (ih hknown)
  | started hpc hready => exact .inl (ih (.inl hready))
  | read _ hpc | notRead hpc | put _ hpc | dropped _ hpc | posted hpc | due hpc =>
    exact .inl (ih (.inr (by simp [hpc])))

/-- **The schedule does not drift.** In every run, whatever the sensor answers and however
long reading it takes: nothing is measured before the time of day is known; the measurement
number `k` does not come before `start + k` intervals; and as soon as the time of the next
one has come, a thread that sleeps wakes up. -/
theorem measurement_schedule {d : Device cfg} {τ : List DeviceEvent}
    (hr : (device cfg intervalSeconds).Run anyStep d τ) :
    EachEvent (fun past e => ∀ uptimeMs, e = .started uptimeMs ∨ e = .attempted uptimeMs →
      .timeObtained ∈ past) τ ∧
    (starts τ = [] ∧ attempts τ = [] ∨
    ∃ start, starts τ = [start] ∧
      (∀ k (h : k < (attempts τ).length),
        start + k * measurementIntervalMs intervalSeconds ≤ (attempts τ)[k]) ∧
      (d.thread = .sleeping → ∀ readout,
        ((d.step intervalSeconds (.thread readout)).isSome ↔
          start + (attempts τ).length * measurementIntervalMs intervalSeconds ≤
            d.loop.uptimeMs))) := by
  refine ⟨hr.eachEvent (I := fun d τ => d.timeReady ∨ d.thread ≠ .waiting → .timeObtained ∈ τ)
    time_known fun d τ a d' es hi _ hs => ?_, ?_⟩
  · -- who starts has been told, and who measures has started
    cases Device.step_cases hs with
    | loop a s' es =>
      refine .of_forall fun e he => ?_
      obtain ⟨e', -, rfl⟩ := List.mem_map.mp he
      simp
    | started hpc hready => exact .singleton fun _ _ => by simpa using hi (.inl hready)
    | notRead hpc => exact .singleton fun _ _ => by simpa using hi (.inr (by simp [hpc]))
    | read m hpc =>
      have hknown := hi (.inr (by simp [hpc]))
      exact (EachEvent.singleton fun _ _ => by simpa using hknown).append
        (.singleton fun _ _ => by simp [hknown])
    | timeObtained | dropped => exact .singleton (by simp)
    | _ => exact .nil
  rcases Scheduled.of_run hr with ⟨-, hstarts, hattempts⟩ | ⟨start, hstarts, h⟩
  · exact .inl ⟨hstarts, hattempts⟩
  refine .inr ⟨start, hstarts, h.notBefore, fun hpc readout => ?_⟩
  rw [← h.next (.inl hpc)]
  simp only [Device.step, Device.threadStep, hpc]
  split <;> simp_all

/-- A round at this time of day: the sensor answers, and the thread sleeps 15 seconds. -/
def round (timestampMs : Int64) : List DeviceAction :=
  List.replicate 3 (.thread ⟨true, .ok timestampMs, .ok 21, .ok 3700⟩) ++
    [.loop (.tick 15000), .thread ⟨true, .ok timestampMs, .ok 21, .ok 3700⟩]

/-- The thread measures three times before the loop collects, into a batch for two; then it
measures again. -/
def fourRounds : List DeviceAction :=
  [.dateTime true, .thread ⟨true, .error (-61), .error 0, .error 0⟩] ++
    round 1790841960000 ++ round 1790841975000 ++ round 1790841990000 ++
    List.replicate 5 (.loop .main) ++
    [.thread ⟨true, .ok 1790842005000, .ok 21, .ok 3700⟩]

theorem fourRounds_replays :
    ((device singleConfig 15).replay anyStep (device singleConfig 15).start []
      fourRounds).isSome := by
  decide +kernel

theorem measurement_schedule_fourRounds :
    ∃ (d : Device singleConfig) (τ : List DeviceEvent),
      (device singleConfig 15).Run anyStep d τ ∧ attempts τ = [0, 15000, 30000, 45000] ∧
      EachEvent (fun past e => ∀ uptimeMs, e = .started uptimeMs ∨ e = .attempted uptimeMs →
        .timeObtained ∈ past) τ ∧
      ∃ start, starts τ = [start] ∧
        ∀ k (h : k < (attempts τ).length),
          start + k * measurementIntervalMs 15 ≤ (attempts τ)[k] := by
  have hr := System.Run.of_isSome fourRounds_replays
  obtain ⟨hknown, hschedule⟩ := measurement_schedule hr
  refine ⟨_, _, hr, by decide +kernel, hknown, ?_⟩
  obtain ⟨hnone, -⟩ | ⟨start, hstart, hnotBefore, -⟩ := hschedule
  · exact absurd hnone (by decide +kernel)
  · exact ⟨start, hstart, hnotBefore⟩

/-! ## What becomes of a measurement -/

/-- The measurement that the thread is about to put. -/
def ThreadPc.pending : ThreadPc → List Measurement
  | .putting m => [m]
  | _ => []

/-- One step of the device. -/
abbrev DeviceStep (cfg : Config) := Step (Device cfg) DeviceAction DeviceEvent

/-- The measurement that the step takes out of the queue and finds no room for in the
batch; `skipped_measurements` counts it. -/
def DeviceStep.skipped (x : DeviceStep cfg) : Option Measurement :=
  if x.after.loop.app.skippedMeasurements = x.before.loop.app.skippedMeasurements then none
  else x.before.loop.measurementQueue.head?

/-- All of these, in their order. -/
def skipped (ρ : List (DeviceStep cfg)) : List Measurement := ρ.filterMap DeviceStep.skipped

/-- What a step that does not fill the queue does with its measurements. -/
inductive Collects (s s' : State cfg) (es : List Event) : Prop where
  | none (hq : s'.measurementQueue = s.measurementQueue) (hadded : added es = [])
      (hskipped : s'.app.skippedMeasurements = s.app.skippedMeasurements)
  | added (m : Measurement) (hq : s.measurementQueue = m :: s'.measurementQueue)
      (hadded : added es = [m])
      (hskipped : s'.app.skippedMeasurements = s.app.skippedMeasurements)
  | skipped (m : Measurement) (hq : s.measurementQueue = m :: s'.measurementQueue)
      (hadded : added es = []) (hfull : s.app.batch.count = cfg.batchCapacity)
      (hskipped : s'.app.skippedMeasurements = s.app.skippedMeasurements + 1)

theorem Move.collects {s s' : State cfg} {es : List Event} (hm : Move s s' es)
    (hq : s'.measurementQueue.length ≤ s.measurementQueue.length) : Collects s s' es := by
  cases hm with
  | collect events m rest hpc hqueue =>
    rcases hadd : s.app.batch.add m with err | batch
    · exact .skipped m hqueue (by simp [collectMeasurement, hadd, Simple.added])
        (Batch.full_of_add hadd) (by simp [collectMeasurement, hadd])
    · exact .added m hqueue (by simp [collectMeasurement, hadd, Simple.added])
        (by simp [collectMeasurement, hadd])
  | puback events hpc he =>
    refine .none rfl (handlePuback_queue s.app events.mqttPuback).2 ?_
    change (handlePuback s.app events.mqttPuback).1.skippedMeasurements = _
    unfold handlePuback
    split <;> try split
    all_goals rfl
  | update events hpc =>
    refine .none rfl (updateConnection_queue s.uptimeMs events s.app).2.1 ?_
    change (updateConnection s.uptimeMs events s.app).1.skippedMeasurements = _
    unfold updateConnection scheduleReconnect
    dsimp only
    split <;> split <;> rfl
  | publishNext hpc =>
    rcases publishNext_cases s.app with h | ⟨-, -, -, h⟩ | ⟨-, -, -, p, -, h⟩ | ⟨-, -, -, h⟩ <;>
      exact .none rfl rfl (by simp [h])
  | measure m => simp at hq
  | _ => exact .none rfl rfl rfl

namespace DeviceStep

variable {d d' : Device cfg} {a : DeviceAction} {es : List DeviceEvent}

theorem skipped_none (h : d'.loop.app.skippedMeasurements = d.loop.app.skippedMeasurements) :
    skipped (⟨d, a, d', es⟩ : DeviceStep cfg) = none :=
  if_pos h

theorem skipped_some {m : Measurement} {rest : List Measurement}
    (h : d'.loop.app.skippedMeasurements = d.loop.app.skippedMeasurements + 1)
    (hq : d.loop.measurementQueue = m :: rest) :
    skipped (⟨d, a, d', es⟩ : DeviceStep cfg) = some m := by
  have hne : d.loop.app.skippedMeasurements + 1 ≠ d.loop.app.skippedMeasurements := by simp
  rw [skipped, if_neg (by rw [h]; exact hne), hq]
  rfl

/-- Only what finds the batch full is skipped. -/
theorem full_of_skipped (hm : Device.Move intervalSeconds d d' es)
    (hx : skipped (⟨d, a, d', es⟩ : DeviceStep cfg) ≠ none) :
    d.loop.app.batch.count = cfg.batchCapacity := by
  cases hm with
  | loop a s' es ha hs =>
    cases (step_cases hs).collects (step_not_ofThread ha hs).2 with
    | none hq hadded hsame => exact absurd (skipped_none hsame) hx
    | added m hq hadded hsame => exact absurd (skipped_none hsame) hx
    | skipped m hq hadded hfull hmore => exact hfull
  | _ => exact (hx (if_pos rfl)).elim

/-- Only what finds the queue full is dropped. -/
theorem full_of_dropped {m : Measurement} (hm : Device.Move intervalSeconds d d' es)
    (hdropped : .dropped m ∈ es) :
    measurementQueueLength ≤ d.loop.measurementQueue.length := by
  cases hm with
  | loop a s' es ha hs => simp at hdropped
  | dropped m hpc hfull => exact hfull
  | _ => simp at hdropped

end DeviceStep

/-- Every reading is somewhere, or one of those that were lost to a full batch or queue. -/
def Accounted (d : Device cfg) (τ : List DeviceEvent) (lost : List Measurement) : Prop :=
  (added (loopEvents τ) ++ d.loop.measurementQueue ++ d.thread.pending).Sublist (readings τ) ∧
  d.loop.app.skippedMeasurements = UInt32.ofNat lost.length ∧
  (readings τ).Perm
    (added (loopEvents τ) ++ d.loop.measurementQueue ++ d.thread.pending ++ dropped τ ++ lost)

theorem Accounted.move {d d' : Device cfg} {τ es : List DeviceEvent} {lost : List Measurement}
    (h : Accounted d τ lost) (hm : Device.Move intervalSeconds d d' es) (a : DeviceAction) :
    Accounted d' (τ ++ es)
      (lost ++ (DeviceStep.skipped (⟨d, a, d', es⟩ : DeviceStep cfg)).toList) := by
  generalize hx : DeviceStep.skipped (⟨d, a, d', es⟩ : DeviceStep cfg) = o
  have hnone : d'.loop.app.skippedMeasurements = d.loop.app.skippedMeasurements → o = none :=
    fun hsame => hx.symm.trans (DeviceStep.skipped_none hsame)
  obtain ⟨horder, hcounted, hall⟩ := h
  rw [Accounted, loopEvents_append, readings_append, dropped_append, added_append]
  cases hm with
  | loop b s' es hb hs =>
    obtain ⟨hloop, hreadings, hdropped, -, -⟩ := visible_loop es
    rw [hloop, hreadings, hdropped, List.append_nil, List.append_nil]
    cases (step_cases hs).collects (step_not_ofThread hb hs).2 with
    | none hq hadded hsame =>
      obtain rfl := hnone hsame
      rw [hadded, hq, Option.toList_none, List.append_nil, List.append_nil]
      exact ⟨horder, hsame.trans hcounted, hall⟩
    | added m hq hadded hsame =>
      obtain rfl := hnone hsame
      rw [hq, List.append_cons] at horder hall
      rw [hadded, Option.toList_none, List.append_nil]
      exact ⟨horder, hsame.trans hcounted, hall⟩
    | skipped m hq hadded hfull hmore =>
      obtain rfl : o = some m := hx.symm.trans (DeviceStep.skipped_some hmore hq)
      rw [hq] at horder hall
      rw [hadded, List.append_nil, Option.toList_some]
      refine ⟨List.Sublist.trans ?_ horder, ?_, hall.trans ?_⟩
      · exact ((List.sublist_cons_self _ _).append_left _).append_right _
      · rw [List.length_append, List.length_singleton, UInt32.ofNat_add, ← hcounted]
        exact hmore
      · -- `m` moves from the head of the queue to the end of those that were lost
        have hmiddle : (m :: (s'.measurementQueue ++ d.thread.pending ++ dropped τ ++ lost)).Perm
            (s'.measurementQueue ++ d.thread.pending ++ dropped τ ++ lost ++ [m]) :=
          (List.perm_append_singleton _ _).symm
        simpa only [List.append_assoc, List.cons_append] using
          hmiddle.append_left (added (loopEvents τ))
  | put m hpc hroom =>
    -- from the thread into the queue
    obtain rfl := hnone rfl
    rw [hpc] at horder hall
    simp only [loopEvents, readings, dropped, added, Device.put, ThreadPc.pending,
      List.flatMap_nil, List.append_nil, List.append_assoc, Option.toList_none] at horder hall ⊢
    exact ⟨horder, hcounted, hall⟩
  | read m hpc =>
    -- a reading is the last one, and the thread was not putting any
    obtain rfl := hnone rfl
    rw [hpc] at horder hall
    simp only [loopEvents, readings, dropped, added, ThreadPc.pending, List.flatMap_nil,
      List.flatMap_cons, List.append_nil, List.nil_append, Option.toList_none] at horder hall ⊢
    refine ⟨horder.append_right [m], hcounted, (hall.append_right [m]).trans ?_⟩
    simp only [List.append_assoc]
    refine List.Perm.append_left _ (List.Perm.append_left _ ?_)
    rw [← List.append_assoc]
    exact List.perm_append_comm
  | dropped m hpc hfull =>
    -- the order loses its last element, the account moves it
    obtain rfl := hnone rfl
    rw [hpc] at horder hall
    simp only [loopEvents, readings, dropped, added, Device.rest, ThreadPc.pending,
      List.flatMap_nil, List.flatMap_cons, List.append_nil, Option.toList_none] at horder hall ⊢
    refine ⟨(List.sublist_append_left _ _).trans horder, hcounted, hall.trans ?_⟩
    simp only [List.append_assoc]
    exact List.Perm.append_left _ (List.Perm.append_left _
      (by simpa only [List.append_assoc] using List.perm_append_comm.append_right lost))
  | timeObtained | notObtained =>
    obtain rfl := hnone rfl
    exact ⟨by simpa [loopEvents, readings, added] using horder, by simpa using hcounted,
      by simpa [loopEvents, readings, dropped, added] using hall⟩
  | started hpc | notRead hpc | posted hpc | due hpc =>
    obtain rfl := hnone rfl
    rw [hpc] at horder hall
    exact ⟨by simpa [loopEvents, readings, added, Device.rest, Device.post, ThreadPc.pending]
        using horder, by simpa [Device.rest, Device.post] using hcounted,
      by simpa [loopEvents, readings, dropped, added, Device.rest, Device.post,
        ThreadPc.pending] using hall⟩

theorem Accounted.of_run {ok : Device cfg → List (DeviceStep cfg) → DeviceAction → Prop}
    {d : Device cfg} {ρ : List (DeviceStep cfg)}
    (hr : (device cfg intervalSeconds).record.Run ok d ρ) :
    Accounted d (reports ρ) (skipped ρ) := by
  refine hr.invariant (I := fun d ρ => Accounted d (reports ρ) (skipped ρ)) ?_ ?_
  · exact ⟨by simp [System.record, device, loopEvents, readings, added, ThreadPc.pending, reports],
      rfl, by simp [System.record, device, loopEvents, readings, dropped, added, skipped,
        ThreadPc.pending, reports]⟩
  · intro d ρ a d' xs h _ hs
    obtain ⟨es, hstep, rfl⟩ := System.record_step hs
    have hnext := h.move (Device.step_cases hstep) a
    have hskipped : skipped (ρ ++ [⟨d, a, d', es⟩]) =
        skipped ρ ++ (DeviceStep.skipped (⟨d, a, d', es⟩ : DeviceStep cfg)).toList := by
      rw [skipped, List.filterMap_append, ← skipped]
      cases h : DeviceStep.skipped (⟨d, a, d', es⟩ : DeviceStep cfg) <;> simp [h]
    have hreports : reports (ρ ++ [⟨d, a, d', es⟩]) = reports ρ ++ es := by simp [reports]
    rw [hskipped, hreports]
    exact hnext

/-- **Every reading is accounted for.** In every run of the device: the measurements that
were delivered, those in the batch and in the queue and the one about to be put there are
readings, each as often as it was read and in the order of the readings; the others were
dropped before a queue that was full, or skipped before a batch that was, and
`skipped_measurements` counts the latter. -/
theorem readings_accounted {d : Device cfg} {ρ : List (DeviceStep cfg)}
    (hr : (device cfg intervalSeconds).record.Run anyStep d ρ) :
    (removed (loopEvents (reports ρ)) ++ d.loop.app.batch.items ++ d.loop.measurementQueue ++
      d.thread.pending).Sublist (readings (reports ρ)) ∧
    (readings (reports ρ)).Perm (removed (loopEvents (reports ρ)) ++ d.loop.app.batch.items ++
      d.loop.measurementQueue ++ d.thread.pending ++ dropped (reports ρ) ++ skipped ρ) ∧
    d.loop.app.skippedMeasurements = UInt32.ofNat (skipped ρ).length ∧
    ∀ x ∈ ρ, (x.skipped ≠ none → x.before.loop.app.batch.count = cfg.batchCapacity) ∧
      ∀ m, .dropped m ∈ x.events →
        measurementQueueLength ≤ x.before.loop.measurementQueue.length := by
  obtain ⟨horder, hcounted, hall⟩ := Accounted.of_run hr
  rw [queue_of_run (device_run hr.unrecord).1]
  refine ⟨horder, hall, hcounted, fun x hx => ?_⟩
  obtain ⟨ρ₁, ρ₂, hρ⟩ := List.append_of_mem hx
  obtain ⟨-, -, hstep, -⟩ := hr.split hρ
  have hm := Device.step_cases hstep
  exact ⟨DeviceStep.full_of_skipped hm, fun m => DeviceStep.full_of_dropped hm⟩

theorem fourRounds_recorded :
    ((device singleConfig 15).record.replay anyStep (device singleConfig 15).start []
      fourRounds).isSome := by
  decide +kernel

theorem readings_accounted_fourRounds :
    ∃ (d : Device singleConfig) (ρ : List (DeviceStep singleConfig)),
      (device singleConfig 15).record.Run anyStep d ρ ∧ (readings (reports ρ)).length = 4 ∧
      d.loop.app.batch.count = 2 ∧ (skipped ρ).length = 1 ∧
      d.loop.app.skippedMeasurements = UInt32.ofNat (skipped ρ).length ∧
      (removed (loopEvents (reports ρ)) ++ d.loop.app.batch.items ++ d.loop.measurementQueue ++
        d.thread.pending).Sublist (readings (reports ρ)) := by
  have hr := System.Run.of_isSome fourRounds_recorded
  obtain ⟨horder, -, hcounted, -⟩ := readings_accounted hr
  exact ⟨_, _, hr, by decide +kernel, by decide +kernel, by decide +kernel, hcounted, horder⟩

end Aitsm.Simple
