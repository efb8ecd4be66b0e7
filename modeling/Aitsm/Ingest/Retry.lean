import Aitsm.Library.Backoff
import Aitsm.Ingest.Converge

/-!
# Retries (`DeliveryWorker.process` and `retry_later`)

Whatever the service holds, old or new, it holds in the order of the hand-outs
(`holding_step`), and the worker finishes one delivery before it begins the next. So the
attempts to write a delivery are in a row: all but the last have failed, all write the
same lines, and the waits between them double from one second to half a minute
(`retries_in_a_row`). That is so across lost connections and restarts of the process.
-/

namespace Aitsm.Ingest

open Library Library.System

/-! ## The writes of a history -/

/-- A call of `write_questdb`. -/
structure Write where
  delivery : Delivery
  lines : List Line
  outcome : Outcome

/-- The call that an event is about. -/
@[simp] def Event.write? : Event → Option Write
  | .wrote d lines outcome => some ⟨d, lines, outcome⟩
  | _ => none

/-- The calls of `write_questdb`, in their order. -/
def writes (τ : List Event) : List Write := τ.filterMap Event.write?

@[simp] theorem writes_append (τ es : List Event) : writes (τ ++ es) = writes τ ++ writes es :=
  List.filterMap_append

@[simp] theorem writes_singleton (e : Event) : writes [e] = e.write?.toList := by
  cases e <;> rfl

/-- It comes to a retry. -/
def Outcome.fails : Outcome → Bool
  | .failed _ => true
  | _ => false

/-- The last `k` writes were attempts to write these lines of `d`, which have failed;
everything written before was handed out before `d`. -/
def Tried (ws : List Write) (d : Delivery) (lines : List Line) (k : ℕ) : Prop :=
  ∃ earlier attempts, ws = earlier ++ attempts ∧ attempts.length = k ∧
    (∀ w ∈ earlier, w.delivery.serial < d.serial) ∧
    ∀ w ∈ attempts, w.delivery = d ∧ w.lines = lines ∧ w.outcome.fails

theorem Tried.none {ws : List Write} {d : Delivery} {lines : List Line}
    (h : ∀ w ∈ ws, w.delivery.serial < d.serial) : Tried ws d lines 0 :=
  ⟨ws, [], (List.append_nil ws).symm, rfl, h, nofun⟩

theorem Tried.again {ws : List Write} {d : Delivery} {lines : List Line} {k : ℕ}
    (h : Tried ws d lines k) (applied : Bool) :
    Tried (ws ++ [⟨d, lines, .failed applied⟩]) d lines (k + 1) := by
  obtain ⟨earlier, attempts, rfl, rfl, hearlier, hattempts⟩ := h
  refine ⟨earlier, attempts ++ [_], List.append_assoc _ _ _, List.length_append, hearlier, ?_⟩
  intro w hw
  rcases List.mem_append.mp hw with hw | hw
  · exact hattempts w hw
  · obtain rfl := List.mem_singleton.mp hw
    exact ⟨rfl, rfl, rfl⟩

/-! ## The order of the hand-outs -/

variable {rt : Runtime} {content : ℕ → Message}

/-- Everything that was received and not finished, whatever the connection. -/
def holding (h : Service) : List Delivery := (inside h).map Prod.snd ++ h.channel

/-- What the worker has begun to write, or is done with. -/
def Worker.begun : Worker → Option Delivery
  | .writing _ d _ _ | .sleeping _ d _ _ | .acking _ d => some d
  | .waiting | .processing _ _ | .dead => none

/-- What is still to be written. -/
def ahead (h : Service) : List Delivery :=
  (if h.worker.begun.isSome then [] else h.worker.held.toList.map Prod.snd) ++
    (h.queue ++ h.network.held.toList).map Prod.snd ++ h.channel

theorem holding_eq (h : Service) : holding h = h.worker.begun.toList ++ ahead h := by
  cases hw : h.worker <;> simp [holding, ahead, inside, Worker.begun, hw]

theorem holding_step {h h' : Service} {a : Action} {es : List Event}
    (hs : Stepped rt content h a h' es) :
    (holding h').Sublist (holding h ++ handed es) := by
  cases hs with
  | send d => simp [holding, inside]
  | receive hn hch => simp [holding, inside, hn, hch]
  | put hn | full hn | drained hn hq | drain hn hq => simp [holding, inside, *]
  | disconnected hl hn => simp [holding, inside, hn]
  | restart => simp [holding, inside]
  | get hw hq => simp [holding, inside, hw, hq]
  | lineless hw | parsed hw | raised hw | answered hw | failed hw | retry hw | givenUp hw
  | acked hw | notAcked hw => simp [holding, inside, hw]
  | connect | linkLost | pubackReceived => simp [holding, inside]

theorem ahead_step {h h' : Service} {a : Action} {es : List Event}
    (hs : Stepped rt content h a h' es) : (ahead h').Sublist (ahead h ++ handed es) := by
  cases hs with
  | send d => simp [ahead]
  | receive hn hch => simp [ahead, hn, hch]
  | put hn | full hn | drained hn hq | drain hn hq => simp [ahead, *]
  | disconnected hl hn => simp [ahead, hn]
  | restart => simp [ahead]
  | get hw hq => simp [ahead, Worker.begun, hw, hq]
  | lineless hw | parsed hw | raised hw | answered hw | failed hw | retry hw | givenUp hw
  | acked hw | notAcked hw => simp [ahead, Worker.begun, hw]
  | connect | linkLost | pubackReceived => simp [ahead]

/-- Only the worker writes, what it holds. -/
theorem writes_step {h h' : Service} {a : Action} {es : List Event}
    (hs : Stepped rt content h a h' es) : writes es = [] ∨
      handed es = [] ∧ ∃ c d lines delay outcome, h.worker = .writing c d lines delay ∧
        writes es = [⟨d, lines, outcome⟩] := by
  cases hs with
  | answered hw | failed hw => exact .inr ⟨rfl, _, _, _, _, _, hw, rfl⟩
  | _ => exact .inl rfl

theorem handed_step {h h' : Service} {a : Action} {es : List Event}
    (hs : Stepped rt content h a h' es) : h.hands ≤ h'.hands ∧
      ∀ d ∈ handed es, d.serial = h.hands := by
  cases hs with
  | send d _ _ _ _ hserial => exact ⟨Nat.le_succ _, by simpa using hserial⟩
  | _ => exact ⟨le_rfl, by simp⟩

/-- Where the retries stand. -/
structure Retrying (h : Service) (τ : List Event) : Prop where
  held : (holding h).Sublist (handed τ)
  before : ∀ w ∈ writes τ, ∀ d ∈ ahead h, w.delivery.serial < d.serial
  counted : ∀ w ∈ writes τ, w.delivery.serial < h.hands
  writing : ∀ c d lines delay, h.worker = .writing c d lines delay →
    ∃ k, Tried (writes τ) d lines k ∧
      delay = Backoff.delay retryInitialSeconds retryMaxSeconds k
  sleeping : ∀ c d lines delay, h.worker = .sleeping c d lines delay →
    ∃ k, Tried (writes τ) d lines (k + 1) ∧
      delay = Backoff.delay retryInitialSeconds retryMaxSeconds k

namespace Retrying

variable {h h' : Service} {a : Action} {es τ : List Event}

/-- What is begun was handed out, and before everything ahead. -/
theorem begun (hr : Retrying h τ) (hb : Books h τ) {d : Delivery}
    (hd : h.worker.begun = some d) :
    d.serial < h.hands ∧ ∀ d' ∈ ahead h, d.serial < d'.serial := by
  have hheld : (d :: ahead h).Sublist (handed τ) := by
    simpa [holding_eq, hd] using hr.held
  have horder : (handed τ).Pairwise (·.serial < ·.serial) :=
    List.pairwise_map.mp (hb.serials ▸ List.pairwise_lt_range)
  exact ⟨hb.serial_lt (hheld.subset List.mem_cons_self),
    fun d' hd' => List.rel_of_pairwise_cons (horder.sublist hheld) hd'⟩

theorem step_before (hr : Retrying h τ) (hb : Books h τ) (hs : Stepped rt content h a h' es) :
    ∀ w ∈ writes (τ ++ es), ∀ d ∈ ahead h', w.delivery.serial < d.serial := by
  intro w hw d hd
  have hmem := List.mem_append.mp ((ahead_step hs).subset hd)
  rw [writes_append] at hw
  rcases writes_step hs with hnone | ⟨hhanded, c, e, lines, delay, outcome, hworker, hone⟩
  · rw [hnone, List.append_nil] at hw
    rcases hmem with hold | hnew
    · exact hr.before w hw d hold
    · -- a new hand-out has the next number
      rw [(handed_step hs).2 d hnew]
      exact hr.counted w hw
  · -- the worker writes what it holds, which comes before everything ahead
    rw [hhanded] at hmem
    have hold := hmem.resolve_right List.not_mem_nil
    rw [hone] at hw
    rcases List.mem_append.mp hw with hw | hw
    · exact hr.before w hw d hold
    · obtain rfl := List.mem_singleton.mp hw
      exact (hr.begun hb (by rw [hworker]; rfl)).2 d hold

theorem step_counted (hr : Retrying h τ) (hb : Books h τ) (hs : Stepped rt content h a h' es) :
    ∀ w ∈ writes (τ ++ es), w.delivery.serial < h'.hands := by
  intro w hw
  refine lt_of_lt_of_le ?_ (handed_step hs).1
  rw [writes_append] at hw
  rcases List.mem_append.mp hw with hw | hw
  · exact hr.counted w hw
  · rcases writes_step hs with hnone | ⟨-, c, e, lines, delay, outcome, hworker, hone⟩
    · rw [hnone] at hw
      cases hw
    · rw [hone] at hw
      obtain rfl := List.mem_singleton.mp hw
      exact (hr.begun hb (by rw [hworker]; rfl)).1

theorem step_writing (hr : Retrying h τ) (hs : Stepped rt content h a h' es) :
    ∀ c d lines delay, h'.worker = .writing c d lines delay →
      ∃ k, Tried (writes (τ ++ es)) d lines k ∧
        delay = Backoff.delay retryInitialSeconds retryMaxSeconds k := by
  intro c d lines delay hw'
  cases hs with
  | parsed hw hlines =>
    obtain ⟨rfl, rfl, rfl, rfl⟩ := Worker.writing.inj hw'
    -- nothing of it was written: until now it was ahead
    refine ⟨0, .none fun w hmem => ?_, (Backoff.delay_zero (by decide)).symm⟩
    rw [writes_append] at hmem
    exact hr.before w (by simpa [writes] using hmem) _ (by simp [ahead, hw, Worker.begun])
  | retry hw hcur =>
    -- the wait is doubled when it is over, not when the write fails
    obtain ⟨rfl, rfl, rfl, rfl⟩ := Worker.writing.inj hw'
    obtain ⟨k, htried, rfl⟩ := hr.sleeping _ _ _ _ hw
    exact ⟨k + 1, by simpa using htried, (Backoff.delay_succ k).symm⟩
  | restart | get | lineless | raised | answered | failed | givenUp | acked | notAcked => cases hw'
  | _ => simpa using hr.writing c d lines delay hw'

theorem step_sleeping (hr : Retrying h τ) (hs : Stepped rt content h a h' es) :
    ∀ c d lines delay, h'.worker = .sleeping c d lines delay →
      ∃ k, Tried (writes (τ ++ es)) d lines (k + 1) ∧
        delay = Backoff.delay retryInitialSeconds retryMaxSeconds k := by
  intro c d lines delay hw'
  cases hs with
  | failed hw =>
    obtain ⟨rfl, rfl, rfl, rfl⟩ := Worker.sleeping.inj hw'
    obtain ⟨k, htried, rfl⟩ := hr.writing _ _ _ _ hw
    rw [writes_append]
    exact ⟨k, htried.again _, rfl⟩
  | restart | get | lineless | parsed | raised | answered | retry | givenUp | acked | notAcked =>
    cases hw'
  | _ => simpa using hr.sleeping c d lines delay hw'

theorem step (hr : Retrying h τ) (hb : Books h τ) (hs : Stepped rt content h a h' es) :
    Retrying h' (τ ++ es) where
  held := by
    rw [handed_append]
    exact (holding_step hs).trans (hr.held.append_right _)
  before := hr.step_before hb hs
  counted := hr.step_counted hb hs
  writing := hr.step_writing hs
  sleeping := hr.step_sleeping hs

theorem of_run (hr : (service rt content).Run anyStep h τ) : Retrying h τ :=
  hr.invariant_with (J := Kept rt content) (I := Retrying) run_kept
    ⟨List.nil_sublist _, nofun, nofun, nofun, nofun⟩
    fun _ _ _ _ _ hk hi _ hs => hi.step hk.books (stepped hs)

end Retrying

/-- **The attempts to write a delivery are in a row**, in every run, whatever fails and
whenever connections are lost or the process is restarted: before each write of a delivery
stand only failed writes of the same lines of it, and before those only writes of
deliveries that were handed out earlier. After the failure number `k + 1` the worker waits
for `k` doublings of a second, and at most half a minute. -/
theorem retries_in_a_row {h : Service} {τ : List Event}
    (hr : (service rt content).Run anyStep h τ) :
    EachEvent (fun past e => ∀ w, e.write? = some w →
      ∃ k, Tried (writes past) w.delivery w.lines k) τ ∧
    ∀ c d lines delay, h.worker = .sleeping c d lines delay →
      ∃ k, Tried (writes τ) d lines (k + 1) ∧
        delay = Backoff.delay retryInitialSeconds retryMaxSeconds k := by
  refine ⟨?_, (Retrying.of_run hr).sleeping⟩
  refine hr.eachEvent (I := Retrying) Retrying.of_run ?_
  intro h τ a h' es hi _ hs
  cases stepped hs with
  | answered hw | failed hw =>
    refine .singleton fun w heq => ?_
    obtain rfl := Option.some.inj heq
    obtain ⟨k, htried, -⟩ := hi.writing _ _ _ _ hw
    exact ⟨k, by simpa [writes] using htried⟩
  | send | receive | acked => exact .singleton nofun
  | _ => exact .nil

/-- The wait of `retry_later`. -/
def Worker.waits : Worker → Option ℕ
  | .sleeping _ _ _ delay => some delay
  | _ => none

theorem Worker.sleeping_of_waits {w : Worker} {delay : ℕ} (h : w.waits = some delay) :
    ∃ c d lines, w = .sleeping c d lines delay := by
  cases w with
  | sleeping c d lines delay' =>
    obtain rfl := Option.some.inj h
    exact ⟨c, d, lines, rfl⟩
  | _ => cases h

/-- QuestDB is away for two attempts, the connection is lost, and it is away again. -/
def awayTwice : List Action :=
  [.connect, .send 0 1 1, .send 1 2 1, .receive, .put, .receive, .put, .get, .parse fun _ => 0,
    .write (.failed true), .wake, .write (.failed false), .linkLost, .disconnected, .drain,
    .drain, .wake, .connect, .send 0 1 1, .receive, .put, .get, .parse fun _ => 0,
    .write (.failed false), .wake, .write (.failed false), .wake, .write (.failed false)]

theorem awayTwice_replays : ((service bareRuntime sameTime).replay anyStep
    (service bareRuntime sameTime).start [] awayTwice).isSome := by
  decide +kernel

theorem retries_in_a_row_awayTwice :
    ∃ h τ, (service bareRuntime sameTime).Run anyStep h τ ∧
      (writes τ).map (·.delivery.serial) = [0, 0, 2, 2, 2] ∧
      ∃ c d lines, h.worker = .sleeping c d lines 4 ∧ ∃ k, Tried (writes τ) d lines (k + 1) ∧
        4 = Backoff.delay retryInitialSeconds retryMaxSeconds k := by
  have hr := System.Run.of_isSome awayTwice_replays
  refine ⟨_, _, hr, by decide +kernel, ?_⟩
  have hwaits : (((service bareRuntime sameTime).replay anyStep
      (service bareRuntime sameTime).start [] awayTwice).get awayTwice_replays).1.worker.waits =
        some 4 := by
    decide +kernel
  obtain ⟨c, d, lines, hw⟩ := Worker.sleeping_of_waits hwaits
  exact ⟨c, d, lines, hw, (retries_in_a_row hr).2 c d lines 4 hw⟩

end Aitsm.Ingest
