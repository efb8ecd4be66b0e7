import Mathlib.Data.List.Nodup
import Mathlib.Data.List.Range
import Aitsm.Ingest.Poison
import Aitsm.Ingest.Worker

/-!
# Only what is handled is acknowledged

What the client holds of the connection stands in one line (`pipeline`): the
delivery in the worker's hands, the queue, the one in `submit`, and what has not
been received. A step takes deliveries out of the line, and appends what the
broker hands out; `client.ack` takes the first one (`pipeline_step`). So the calls
come in the order of the hand-outs, and a delivery of an earlier connection is
never in the line again.

The packet ids of what is in the line and on its way back are in use at the
broker (`Packets.sent`), and the broker hands nothing out under an id in use. So
a PUBACK reaches the delivery it was meant for.
-/

namespace Aitsm.Ingest

open Library Library.System

/-! ## Histories -/

/-- The delivery that the broker hands out. -/
@[simp] def Event.handed? : Event → Option Delivery
  | .handed d => some d
  | _ => none

/-- The delivery in a call of `submit`, with the counter. -/
@[simp] def Event.submitted? : Event → Option (ℕ × Delivery)
  | .submitted c d => some (c, d)
  | _ => none

/-- The delivery in a call of `client.ack`. -/
@[simp] def Event.called? : Event → Option Delivery
  | .called _ d => some d
  | _ => none

/-- The hand-outs, in their order. -/
def handed (τ : List Event) : List Delivery := τ.filterMap Event.handed?

/-- The calls of `submit`, with what they have read. -/
def submitted (τ : List Event) : List (ℕ × Delivery) := τ.filterMap Event.submitted?

/-- The calls of `client.ack`. -/
def called (τ : List Event) : List Delivery := τ.filterMap Event.called?

section Histories

variable (e : Event) (τ es : List Event)

@[simp] theorem handed_nil : handed [] = [] := rfl

@[simp] theorem submitted_nil : submitted [] = [] := rfl

@[simp] theorem called_nil : called [] = [] := rfl

@[simp] theorem handed_singleton : handed [e] = e.handed?.toList := by
  cases e <;> rfl

@[simp] theorem submitted_singleton : submitted [e] = e.submitted?.toList := by
  cases e <;> rfl

@[simp] theorem called_singleton : called [e] = e.called?.toList := by
  cases e <;> rfl

@[simp] theorem handed_append : handed (τ ++ es) = handed τ ++ handed es :=
  List.filterMap_append

@[simp] theorem submitted_append : submitted (τ ++ es) = submitted τ ++ submitted es :=
  List.filterMap_append

@[simp] theorem called_append : called (τ ++ es) = called τ ++ called es :=
  List.filterMap_append

end Histories

/-! ## The line -/

/-- What the worker holds, with its counter. -/
def Worker.held : Worker → Option (ℕ × Delivery)
  | .processing c d | .writing c d _ _ | .sleeping c d _ _ | .acking c d => some (c, d)
  | .waiting | .dead => none

/-- What `submit` holds. -/
def Network.held : Network → Option (ℕ × Delivery)
  | .submitting c d => some (c, d)
  | .idle | .draining => none

section Held

variable (c : ℕ) (d : Delivery) (lines : List Line) (delay : ℕ)

@[simp] theorem Worker.held_waiting : Worker.waiting.held = none := rfl

@[simp] theorem Worker.held_dead : Worker.dead.held = none := rfl

@[simp] theorem Worker.held_processing : (Worker.processing c d).held = some (c, d) := rfl

@[simp] theorem Worker.held_writing : (Worker.writing c d lines delay).held = some (c, d) := rfl

@[simp] theorem Worker.held_sleeping : (Worker.sleeping c d lines delay).held = some (c, d) := rfl

@[simp] theorem Worker.held_acking : (Worker.acking c d).held = some (c, d) := rfl

@[simp] theorem Network.held_idle : Network.idle.held = none := rfl

@[simp] theorem Network.held_draining : Network.draining.held = none := rfl

@[simp] theorem Network.held_submitting : (Network.submitting c d).held = some (c, d) := rfl

end Held

/-- What the service has received and not finished, the oldest first. -/
def inside (h : Service) : List (ℕ × Delivery) :=
  h.worker.held.toList ++ h.queue ++ h.network.held.toList

/-- What the client holds of the connection, the oldest first. -/
def pipeline (h : Service) : List Delivery :=
  ((inside h).filter (·.1 = h.connection)).map Prod.snd ++ h.channel

theorem pipeline_sublist {h h' : Service} (hc : h'.connection = h.connection)
    (hi : (inside h').Sublist (inside h)) (hch : h'.channel = h.channel) :
    (pipeline h').Sublist (pipeline h) := by
  unfold pipeline
  rw [hc, hch]
  exact ((hi.filter _).map _).append (.refl _)

theorem pipeline_congr {h h' : Service} (hc : h'.connection = h.connection)
    (hi : inside h' = inside h) (hch : h'.channel = h.channel) : pipeline h' = pipeline h := by
  rw [pipeline, pipeline, hc, hi, hch]

/-- After `connection_lost` has counted, everything inside is old. -/
theorem pipeline_disconnected {h : Service} (hn : h.network = .idle)
    (hc : ∀ p ∈ inside h, p.1 ≤ h.connection) :
    pipeline { h with
      link := .down, channel := [], connection := h.connection + 1, network := .draining } = [] := by
  have hnone : (inside h).filter (·.1 = h.connection + 1) = [] := by
    refine List.filter_eq_nil_iff.mpr fun p hp => ?_
    have := hc p hp
    simp only [decide_eq_true_eq]
    omega
  have hinside : inside { h with
      link := .down, channel := [], connection := h.connection + 1, network := .draining } =
      inside h := by simp [inside, hn]
  simp [pipeline, hinside, hnone]

section Books

variable {rt : Runtime} {content : ℕ → Message}

/-- **The line moves forward.** Calls leave it at its head, hand-outs enter at its
end, and in between deliveries may only drop out. -/
theorem pipeline_step {h h' : Service} {a : Action} {es : List Event}
    (hs : Stepped rt content h a h' es) (hc : ∀ p ∈ inside h, p.1 ≤ h.connection) :
    (called es ++ pipeline h').Sublist (pipeline h ++ handed es) := by
  have hdrop : called es = [] → handed es = [] → h'.connection = h.connection →
      (inside h').Sublist (inside h) → h'.channel = h.channel →
      (called es ++ pipeline h').Sublist (pipeline h ++ handed es) := by
    intro hcalled hhanded hconnection hinside hchannel
    rw [hcalled, hhanded, List.nil_append, List.append_nil]
    exact pipeline_sublist hconnection hinside hchannel
  cases hs with
  | connect | linkLost | pubackReceived => exact hdrop rfl rfl rfl (.refl _) rfl
  | send d => simp [pipeline, inside]
  | receive hn hch => simp [pipeline, inside, hn, hch]
  | put hn => simp [pipeline, inside, hn]
  | full hn => exact hdrop rfl rfl rfl (by simp [inside]) rfl
  | disconnected hl hn => simp [pipeline_disconnected hn hc]
  | drained hn hq => exact hdrop rfl rfl rfl (by simp [inside, hn]) rfl
  | drain hn hq => exact hdrop rfl rfl rfl (by simp [inside, hn, hq]) rfl
  | restart => simp [pipeline, inside]
  | get hw hq => simp [pipeline, inside, hw, hq]
  | lineless hw | parsed hw | answered hw | failed hw | retry hw => simp [pipeline, inside, hw]
  | raised hw | givenUp hw | notAcked hw => exact hdrop rfl rfl rfl (by simp [inside, hw]) rfl
  | acked hw hcur => simp [pipeline, inside, hw, hcur]

/-- Nothing comes inside but through `submit`. -/
theorem inside_step {h h' : Service} {a : Action} {es : List Event}
    (hs : Stepped rt content h a h' es) {p : ℕ × Delivery} (hp : p ∈ inside h') :
    p ∈ inside h ∨ p ∈ submitted es ∧ p.1 = h.connection := by
  have hkeep : (inside h').Sublist (inside h) →
      p ∈ inside h ∨ p ∈ submitted es ∧ p.1 = h.connection :=
    fun hsub => .inl (hsub.subset hp)
  cases hs with
  | receive hn hch =>
    rcases List.mem_append.mp hp with hp | hp
    · exact .inl (List.mem_append_left _ hp)
    · obtain rfl : p = (h.connection, _) := by simpa using hp
      exact .inr ⟨by simp, rfl⟩
  | put hn => exact hkeep (by simp [inside, hn])
  | get hw hq => exact hkeep (by simp [inside, hw, hq])
  | drain hn hq => exact hkeep (by simp [inside, hn, hq])
  | lineless hw | parsed hw | answered hw | failed hw | retry hw | raised hw | givenUp hw
  | notAcked hw | acked hw => exact hkeep (by simp [inside, hw])
  | full | disconnected | drained | restart => exact hkeep (by simp [inside])
  | connect | send | linkLost | pubackReceived => exact hkeep (.refl _)

/-- What the broker and the client know of each other. -/
structure Books (h : Service) (τ : List Event) : Prop where
  serials : (handed τ).map Delivery.serial = List.range h.hands
  order : (called τ ++ pipeline h).Sublist (handed τ)
  arrivals : ((submitted τ).map Prod.snd ++ h.channel).Sublist (handed τ)
  counted : ∀ p ∈ inside h, p ∈ submitted τ ∧ p.1 ≤ h.connection
  down : h.link = .down → pipeline h = []
  links : ∀ d ∈ handed τ, d.link ≤ h.links
  linked : ∀ d ∈ pipeline h, d.link = h.links

theorem Books.nodup {h : Service} {τ : List Event} (hb : Books h τ) : (handed τ).Nodup :=
  .of_map _ (hb.serials ▸ List.nodup_range)

theorem Books.serial_lt {h : Service} {τ : List Event} (hb : Books h τ) {d : Delivery}
    (hd : d ∈ handed τ) : d.serial < h.hands := by
  have := List.mem_map_of_mem (f := Delivery.serial) hd
  rwa [hb.serials, List.mem_range] at this

theorem books_step {h h' : Service} {a : Action} {es τ : List Event} (hb : Books h τ)
    (hs : Stepped rt content h a h' es) : Books h' (τ ++ es) := by
  have hline := pipeline_step hs fun p hp => (hb.counted p hp).2
  constructor
  case serials =>
    cases hs with
    | send d _ _ _ _ hserial => simp [hb.serials, hserial, List.range_succ]
    | _ => simpa using hb.serials
  case order =>
    rw [called_append, handed_append, List.append_assoc]
    refine ((List.Sublist.refl _).append hline).trans ?_
    rw [← List.append_assoc]
    exact hb.order.append (.refl _)
  case arrivals =>
    have := hb.arrivals
    cases hs with
    | send d => simpa using this.append (List.Sublist.refl [d])
    | receive hn hch => simpa [hch] using this
    | disconnected | restart => simpa using (List.sublist_append_left _ _).trans this
    | _ => simpa using this
  case counted =>
    intro p hp
    have hle : h.connection ≤ h'.connection := by
      cases hs with
      | restart => simp [inside] at hp
      | disconnected => exact Nat.le_succ _
      | _ => exact le_rfl
    rw [submitted_append]
    rcases inside_step hs hp with hold | ⟨hnew, hc⟩
    · obtain ⟨hmem, hc⟩ := hb.counted p hold
      exact ⟨List.mem_append_left _ hmem, hc.trans hle⟩
    · exact ⟨List.mem_append_right _ hnew, hc.le.trans hle⟩
  case down =>
    intro hl
    cases hs with
    | connect | linkLost => cases hl
    | send d hup => cases hup.symm.trans hl
    | disconnected _ hn => exact pipeline_disconnected hn fun p hp => (hb.counted p hp).2
    | restart => simp [pipeline, inside]
    | acked => simp [hb.down hl] at hline
    | _ => simpa [hb.down hl] using hline
  case links =>
    intro d hd
    rw [handed_append, List.mem_append] at hd
    cases hs with
    | send e _ _ _ _ _ hlink =>
      rcases hd with hd | hd
      · exact hb.links d hd
      · obtain rfl : d = e := by simpa using hd
        exact hlink.le
    | connect => exact (hb.links d (by simpa using hd)).trans (Nat.le_succ _)
    | _ => exact hb.links d (by simpa using hd)
  case linked =>
    intro d hd
    have hmem := hline.subset (List.mem_append_right _ hd)
    cases hs with
    | send e _ _ _ _ _ hlink =>
      rcases List.mem_append.mp hmem with hmem | hmem
      · exact hb.linked d hmem
      · obtain rfl : d = e := by simpa using hmem
        exact hlink
    | connect hl =>
      rw [hb.down hl] at hmem
      simp at hmem
    | _ => exact hb.linked d (by simpa using hmem)

/-- The packet ids in use. -/
structure Packets (h : Service) (τ : List Event) : Prop where
  /-- what has a PUBACK on its way, or will have one, is outstanding -/
  sent : ∃ back, h.pubacks = back.map Delivery.mid ∧ (∀ d ∈ back, d ∈ called τ) ∧
    (back ++ (pipeline h).filter (·.qos = 1)).Sublist h.outstanding
  lost : h.link ≠ .up → h.pubacks = []
  distinct : h.outstanding.Pairwise (·.mid ≠ ·.mid)
  /-- nothing has been handed out later under the same packet id -/
  latest : ∀ d ∈ h.outstanding, ∀ e ∈ handed τ, e.mid = d.mid → e.serial ≤ d.serial
  acknowledged : ∀ id ∈ h.acknowledged, ∃ d ∈ called τ, d.id = id

/-- A packet id in use belongs to one delivery. -/
theorem filter_mid {d : Delivery} {l ds : List Delivery} (hd : l.Pairwise (·.mid ≠ ·.mid))
    (hl : (d :: ds).Sublist l) :
    l.filter (·.mid = d.mid) = [d] ∧ ds.Sublist (l.filter (·.mid ≠ d.mid)) := by
  have hrest : ∀ e ∈ ds, e.mid ≠ d.mid := fun e he =>
    (List.rel_of_pairwise_cons (hd.sublist hl) he).symm
  have hds : ds.filter (·.mid ≠ d.mid) = ds := by
    simpa using hrest
  constructor
  · have hmem : d ∈ l.filter (·.mid = d.mid) := by
      simp [hl.subset List.mem_cons_self]
    have hsame : ∀ e ∈ l.filter (·.mid = d.mid), e.mid = d.mid := fun e he => by
      simpa using (List.mem_filter.mp he).2
    have hdistinct := hd.filter (·.mid = d.mid)
    match h : l.filter (·.mid = d.mid) with
    | [] => simp [h] at hmem
    | [e] =>
      rw [h, List.mem_singleton] at hmem
      rw [h, hmem]
    | e :: f :: _ =>
      rw [h] at hsame hdistinct
      have hne : e.mid ≠ f.mid := List.rel_of_pairwise_cons hdistinct List.mem_cons_self
      exact absurd ((hsame e (by simp)).trans (hsame f (by simp)).symm) hne
  · have := hl.filter (·.mid ≠ d.mid)
    rwa [List.filter_cons_of_neg (by simp), hds] at this

theorem packets_step {h h' : Service} {a : Action} {es τ : List Event} (hb : Books h τ)
    (hk : Packets h τ) (hs : Stepped rt content h a h' es) : Packets h' (τ ++ es) := by
  have hline := (pipeline_step hs fun p hp => (hb.counted p hp).2).filter (·.qos = 1)
  obtain ⟨back, hback, hcalled, hsent⟩ := hk.sent
  constructor
  case sent =>
    -- nothing is sent or received
    have hkeep : h'.pubacks = h.pubacks → h.outstanding = h'.outstanding →
        ((pipeline h').filter (·.qos = 1)).Sublist ((pipeline h).filter (·.qos = 1)) →
        ∃ back, h'.pubacks = back.map Delivery.mid ∧ (∀ d ∈ back, d ∈ called (τ ++ es)) ∧
          (back ++ (pipeline h').filter (·.qos = 1)).Sublist h'.outstanding := by
      intro hp ho hsub
      refine ⟨back, hp.trans hback, fun d hd => ?_, ho ▸ ((List.Sublist.refl _).append hsub).trans hsent⟩
      rw [called_append]
      exact List.mem_append_left _ (hcalled d hd)
    cases hs with
    | connect hl =>
      refine ⟨[], hk.lost (by simp [hl]), nofun, ?_⟩
      have : pipeline { h with link := .up, links := h.links + 1, outstanding := [] } = [] :=
        (pipeline_congr rfl rfl rfl).trans (hb.down hl)
      simp [this]
    | send d =>
      refine ⟨back, hback, fun e he => ?_, ?_⟩
      · rw [called_append]
        exact List.mem_append_left _ (hcalled e he)
      · have hpipeline : ∀ o : List Delivery, pipeline { h with
            hands := h.hands + 1, outstanding := o, channel := h.channel ++ [d] } =
            pipeline h ++ [d] := fun o => by simp [pipeline, inside]
        rw [hpipeline, List.filter_append, ← List.append_assoc]
        by_cases hq : d.qos = 1
        · simpa [hq] using hsent.append (List.Sublist.refl [d])
        · simpa [hq] using hsent
    | linkLost =>
      refine ⟨[], rfl, nofun, ?_⟩
      exact (List.sublist_append_right _ _).trans hsent
    | disconnected _ hn =>
      refine ⟨back, hback, by simpa using hcalled, ?_⟩
      rw [pipeline_disconnected hn fun p hp => (hb.counted p hp).2]
      exact (List.Sublist.refl _).append (List.nil_sublist _) |>.trans hsent
    | pubackReceived hp =>
      rw [hp] at hback
      obtain ⟨d, ds, rfl, rfl, rfl⟩ := List.map_eq_cons_iff.mp hback.symm
      refine ⟨ds, rfl, fun e he => ?_, (filter_mid hk.distinct hsent).2⟩
      rw [called_append]
      exact List.mem_append_left _ (hcalled e (List.mem_cons_of_mem _ he))
    | restart => exact ⟨[], rfl, nofun, by simp [pipeline, inside]⟩
    | @acked c d hw hcur =>
      have hhead : pipeline h = d :: pipeline { h with
          worker := .waiting
          pubacks := if h.link = .up ∧ d.qos = 1 then h.pubacks ++ [d.mid] else h.pubacks } := by
        simp [pipeline, inside, hw, hcur]
      by_cases hq : h.link = .up ∧ d.qos = 1
      · refine ⟨back ++ [d], by simp [hq, hback], fun e he => ?_, ?_⟩
        · rw [called_append]
          rcases List.mem_append.mp he with he | he
          · exact List.mem_append_left _ (hcalled e he)
          · exact List.mem_append_right _ (by simpa using he)
        · rw [hhead, List.filter_cons_of_pos (by simp [hq])] at hsent
          rwa [List.append_assoc]
      · refine hkeep (if_neg hq) rfl (List.Sublist.filter _ ?_)
        exact hhead ▸ List.sublist_cons_self _ _
    | _ => exact hkeep rfl rfl (by simpa using hline)
  case lost =>
    intro hl
    cases hs with
    | connect => exact absurd rfl hl
    | linkLost | restart => rfl
    | disconnected hbroken => exact hk.lost (by simp [hbroken])
    | pubackReceived hp => cases hp.symm.trans (hk.lost hl)
    | acked => simpa [show h.link ≠ .up from hl] using hk.lost hl
    | _ => exact hk.lost hl
  case distinct =>
    have := hk.distinct
    cases hs with
    | connect => exact .nil
    | send d _ _ _ hnew =>
      split
      · refine List.pairwise_append.mpr ⟨this, List.pairwise_singleton _ _, fun e he f hf => ?_⟩
        rw [List.mem_singleton.mp hf]
        exact (hnew e he).2
      · exact this
    | pubackReceived => exact this.filter _
    | _ => exact this
  case latest =>
    intro d hd e he hmid
    rw [handed_append, List.mem_append] at he
    cases hs with
    | connect => cases hd
    | send f _ _ _ hnew hserial =>
      have hd' : d ∈ h.outstanding ∨ d = f := by
        dsimp only at hd
        split at hd
        · simpa using hd
        · exact .inl hd
      rcases hd' with hold | rfl
      · rcases he with he | he
        · exact hk.latest d hold e he hmid
        · obtain rfl : e = f := by simpa using he
          exact absurd hmid.symm (hnew d hold).2
      · rcases he with he | he
        · exact hserial ▸ (hb.serial_lt he).le
        · obtain rfl : e = d := by simpa using he
          exact le_rfl
    | pubackReceived => exact hk.latest d (List.mem_of_mem_filter hd) e (by simpa using he) hmid
    | _ => exact hk.latest d hd e (by simpa using he) hmid
  case acknowledged =>
    intro id hid
    have hold : id ∈ h.acknowledged → ∃ d ∈ called (τ ++ es), d.id = id := by
      intro hid
      obtain ⟨d, hd, rfl⟩ := hk.acknowledged id hid
      exact ⟨d, called_append τ es ▸ List.mem_append_left _ hd, rfl⟩
    cases hs with
    | pubackReceived hp =>
      rw [hp] at hback
      obtain ⟨d, ds, rfl, rfl, rfl⟩ := List.map_eq_cons_iff.mp hback.symm
      rcases List.mem_append.mp hid with hid | hid
      · exact hold hid
      · rw [(filter_mid hk.distinct hsent).1] at hid
        obtain rfl : id = d.id := by simpa using hid
        exact ⟨d, by simpa using hcalled d List.mem_cons_self, rfl⟩
    | _ => exact hold hid

end Books

/-! ## Handled deliveries -/

section Handled

variable (rt : Runtime) (content : ℕ → Message)

/-- The delivery is handled: its message is refused or has no lines, or QuestDB has
accepted its lines, or refused them with HTTP 400. -/
def Handled (τ : List Event) (d : Delivery) : Prop :=
  Lineless rt content d ∨ ∃ lines, LinesOf rt content d lines ∧
    (.wrote d lines .accepted ∈ τ ∨ .wrote d lines .badRequest ∈ τ)

/-- The worker is where it is for a reason. -/
def Worker.Justified (τ : List Event) : Worker → Prop
  | .writing _ d lines _ | .sleeping _ d lines _ => LinesOf rt content d lines
  | .acking _ d => Handled rt content τ d
  | _ => True

variable {rt content}

theorem Handled.append {τ : List Event} {d : Delivery} (hd : Handled rt content τ d)
    (es : List Event) : Handled rt content (τ ++ es) d := by
  rcases hd with hd | ⟨lines, hlines, hd⟩
  · exact .inl hd
  · exact .inr ⟨lines, hlines, hd.imp (List.mem_append_left _) (List.mem_append_left _)⟩

theorem justified_step {h h' : Service} {a : Action} {es τ : List Event}
    (hj : h.worker.Justified rt content τ) (hs : Stepped rt content h a h' es) :
    h'.worker.Justified rt content (τ ++ es) := by
  have hkeep : h.worker.Justified rt content (τ ++ es) := by
    cases hw : h.worker with
    | acking c d =>
      rw [hw] at hj
      exact Handled.append hj es
    | writing _ _ _ _ | sleeping _ _ _ _ => simpa [hw, Worker.Justified] using hj
    | _ => trivial
  cases hs with
  | lineless _ hd => exact .inl hd
  | parsed _ hlines => exact hlines
  | @answered c d lines delay outcome hw houtcome =>
    have hlines : LinesOf rt content d lines := by simpa [hw, Worker.Justified] using hj
    refine .inr ⟨lines, hlines, ?_⟩
    rcases houtcome with rfl | rfl <;> simp
  | failed hw => simpa [hw, Worker.Justified] using hj
  | retry hw => simpa [hw, Worker.Justified] using hj
  | restart | get | raised | givenUp | acked | notAcked => trivial
  | _ => exact hkeep

variable (rt content) in
/-- The state and the history of a run. -/
structure Kept (h : Service) (τ : List Event) : Prop where
  books : Books h τ
  packets : Packets h τ
  justified : h.worker.Justified rt content τ

theorem run_kept {h : Service} {τ : List Event} (hr : (service rt content).Run anyStep h τ) :
    Kept rt content h τ := by
  refine hr.invariant (I := Kept rt content) ?_ ?_
  · refine ⟨⟨rfl, .refl _, .refl _, nofun, fun _ => rfl, nofun, nofun⟩, ?_, trivial⟩
    exact ⟨⟨[], rfl, nofun, .refl _⟩, fun _ => rfl, .nil, nofun, nofun⟩
  · intro h τ a h' es hk _ hs
    have hs := stepped hs
    exact ⟨books_step hk.books hs, packets_step hk.books hk.packets hs,
      justified_step hk.justified hs⟩

variable (rt content)

/-- What is called is handled, was submitted under the counter, and has the latest
delivery of its packet id. -/
structure Due (past : List Event) (c : ℕ) (d : Delivery) : Prop where
  handled : Handled rt content past d
  counter : ∀ c', (c', d) ∈ submitted past ↔ c' = c
  connection : ∀ e ∈ handed past, e.link ≤ d.link
  latest : d.qos = 1 → ∀ e ∈ handed past, e.mid = d.mid → e.serial ≤ d.serial

variable {rt content}

theorem due {h : Service} {τ : List Event} {c : ℕ} {d : Delivery}
    (hk : Kept rt content h τ) (hw : h.worker = .acking c d)
    (hcur : c = h.connection) : Due rt content τ c d := by
  have hinside : (c, d) ∈ inside h := by simp [inside, hw]
  have hline : d ∈ pipeline h := by simp [pipeline, inside, hw, hcur]
  obtain ⟨back, -, -, hsent⟩ := hk.packets.sent
  constructor
  case handled => simpa [hw, Worker.Justified] using hk.justified
  case counter =>
    have hmem := (hk.books.counted _ hinside).1
    -- a delivery is submitted once
    have honce : ((submitted τ).map Prod.snd).Nodup :=
      ((List.sublist_append_left _ _).trans hk.books.arrivals).nodup hk.books.nodup
    refine fun c' => ⟨fun hc' => ?_, fun hc' => hc' ▸ hmem⟩
    exact congrArg Prod.fst (List.inj_on_of_nodup_map honce hc' hmem rfl)
  case connection =>
    intro e he
    rw [hk.books.linked d hline]
    exact hk.books.links e he
  case latest =>
    intro hq
    refine hk.packets.latest d (hsent.subset (List.mem_append_right _ ?_))
    exact List.mem_filter.mpr ⟨hline, by simpa using hq⟩

/-- **Only what is handled is acknowledged, on its own connection.** Whatever the
threads, the broker and QuestDB do, a delivery is acknowledged after it is
handled, while the counter is what `submit` read for it, before anything is handed
out on a later connection or under the same packet id; at most once; and on each
connection in the order of the hand-outs. What has been handed out is
unacknowledged at the broker, or handled. -/
theorem acknowledged_is_handled {h : Service} {τ : List Event}
    (hr : (service rt content).Run anyStep h τ) :
    EachEvent (fun past e => ∀ c d, e = .called c d → Due rt content past c d) τ ∧
    (called τ).Nodup ∧
    (∀ link, ((called τ).filter (·.link = link)).Sublist ((handed τ).filter (·.link = link))) ∧
    ∀ d ∈ handed τ, d.id ∉ h.acknowledged ∨ ∃ d', d'.id = d.id ∧ Handled rt content τ d' := by
  have hk := run_kept hr
  have hdue : EachEvent (fun past e => ∀ c d, e = .called c d → Due rt content past c d) τ := by
    refine hr.eachEvent run_kept fun s τ a s' es hk _ hs => ?_
    cases stepped hs with
    | acked hw hcur =>
      refine .singleton fun c d heq => ?_
      cases heq
      rw [List.append_nil]
      exact due hk (hcur ▸ hw) rfl
    | send | receive | answered | failed => exact .singleton fun c d heq => nomatch heq
    | _ => exact .nil
  have horder : (called τ).Sublist (handed τ) :=
    (List.sublist_append_left _ _).trans hk.books.order
  refine ⟨hdue, horder.nodup hk.books.nodup, fun link => horder.filter _, fun d _ => ?_⟩
  by_cases hd : d.id ∈ h.acknowledged
  · obtain ⟨d', hcalled, hid⟩ := hk.packets.acknowledged _ hd
    obtain ⟨e, he, hcall⟩ := List.mem_filterMap.mp hcalled
    obtain ⟨past, later, rfl⟩ := List.append_of_mem he
    cases e with
    | called c d₁ =>
      obtain rfl : d₁ = d' := by simpa using hcall
      exact .inr ⟨d₁, hid, (hdue past _ later rfl c d₁ rfl).handled.append _⟩
    | _ => cases hcall
  · exact .inl hd

end Handled

/-- A message that is no JSON. -/
def noJson : Message :=
  { topic := str "AITSM/thingy", payload := (str "ikke json").map UInt8.ofNat }

/-- The connection is lost while the worker has the message, which comes again under
the same packet id; the worker acknowledges the second delivery only. -/
def redelivered : List Action :=
  [.connect, .send 0 1 1, .receive, .put, .get, .linkLost, .disconnected, .drain, .connect,
    .send 0 1 1, .parse fun _ => 0, .ack, .receive, .put, .get, .parse fun _ => 0, .ack,
    .pubackReceived]

theorem redelivered_replays : ((service bareRuntime fun _ => noJson).replay anyStep
    (service bareRuntime fun _ => noJson).start [] redelivered).isSome := by
  decide +kernel

theorem acknowledged_is_handled_redelivered :
    ∃ h τ, (service bareRuntime fun _ => noJson).Run anyStep h τ ∧ h.acknowledged = [0] ∧
      EachEvent (fun past e => ∀ c d, e = .called c d →
        Due bareRuntime (fun _ => noJson) past c d) τ ∧
      (called τ).Nodup ∧
      (∀ link, ((called τ).filter (·.link = link)).Sublist ((handed τ).filter (·.link = link))) ∧
      ∀ d ∈ handed τ, d.id ∉ h.acknowledged ∨
        ∃ d', d'.id = d.id ∧ Handled bareRuntime (fun _ => noJson) τ d' := by
  have hr := System.Run.of_isSome redelivered_replays
  exact ⟨_, _, hr, by decide +kernel, acknowledged_is_handled hr⟩

end Aitsm.Ingest
