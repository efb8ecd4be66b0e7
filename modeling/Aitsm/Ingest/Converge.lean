import Aitsm.Library.Upsert
import Aitsm.Ingest.Acknowledge

/-!
# Redeliveries converge

The broker has messages `0` to `n - 1` in their order, and hands out what is not
acknowledged in this order, again from the first one after each connection. Then
what the worker writes restarts at or before the first unacknowledged message, and
the table is in the end what each accepted message leaves when it is written once
(`converges`).

The outstanding deliveries stand in three parts (`Ordered.parts`): those whose
PUBACK is on its way or lost, one that a worker was ended by, and the line. So
every message that is written comes after the ones that are settled.
-/

namespace Aitsm.Ingest

open Library Library.System Library.Wire

/-! ## Explicit timestamps -/

section Timestamps

variable (rt : Runtime)

/-- The object has a timestamp. -/
def Explicit (payload : Dict) : Prop := payload.get (str "timestamp") ≠ .none

/-- Every reading of the message has a timestamp; in a Sparkplug message it must. -/
def Timed (message : Message) : Prop :=
  (sparkplugNamespace ++ str "/").isPrefixOf message.topic ∨
    ∀ text (payload : Dict), decodeUtf8 message.payload = some text → rt.loads text = .ok (.dict payload) →
      match payload.get (str "readings") with
      | .none => Explicit payload
      | .list readings => ∀ reading, .dict reading ∈ readings → Explicit reading
      | _ => True

variable {rt}

theorem buildLine_explicit {payload : Dict} {topic : Str} (h : Explicit payload) (now : ℤ) :
    buildLine rt now payload topic = buildLine rt 0 payload topic := by
  have hparse : parseTimestamp rt now (payload.get (str "timestamp")) =
      parseTimestamp rt 0 (payload.get (str "timestamp")) := by
    unfold Explicit at h
    cases hv : payload.get (str "timestamp") with
    | none => exact absurd hv h
    | _ => rfl
  rw [buildLine, buildLine, timestampNs, timestampNs, hparse]

theorem buildReadings_explicit {payload : Dict} {topic : Str} {readings : List Value}
    (h : ∀ reading, .dict reading ∈ readings → Explicit reading) (clock : ℕ → ℤ) (i : ℕ) :
    buildReadings rt clock payload topic i readings =
      buildReadings rt (fun _ => 0) payload topic i readings := by
  induction readings generalizing i with
  | nil => rfl
  | cons r rest ih =>
    have hrest := ih (fun reading hr => h reading (List.mem_cons_of_mem _ hr)) (i + 1)
    cases r with
    | dict reading =>
      have hreading : Explicit (readingDict payload reading) := by
        rw [Explicit, Dict.get, Dict.getD, lookup_readingDict (by decide) (by decide)]
        exact h reading List.mem_cons_self
      rw [buildReadings, buildReadings, buildLine_explicit hreading, hrest]
    | _ => rfl

theorem buildLines_explicit {payload : Dict} {topic : Str}
    (h : match payload.get (str "readings") with
      | .none => Explicit payload
      | .list readings => ∀ reading, .dict reading ∈ readings → Explicit reading
      | _ => True) (clock : ℕ → ℤ) :
    buildLines rt clock payload topic = buildLines rt (fun _ => 0) payload topic := by
  unfold buildLines
  cases hr : payload.get (str "readings") with
  | none =>
    rw [hr] at h
    dsimp only
    rw [buildLine_explicit h]
  | list readings =>
    rw [hr] at h
    cases readings with
    | nil => rfl
    | cons r rest => exact buildReadings_explicit h clock 0
  | _ => rfl

/-- The clock is not read. -/
theorem parseMessage_timed {message : Message} (h : Timed rt message) (clock : ℕ → ℤ) :
    parseMessage rt clock message = parseMessage rt (fun _ => 0) message := by
  unfold parseMessage
  split
  · rfl
  · have h := h.resolve_left ‹_›
    unfold parseJson
    rcases htext : decodeUtf8 message.payload with _ | text
    · rfl
    rcases hload : rt.loads text with (_ | _) | value
    · simp only [hload]
    · simp only [hload]
    · cases value with
      | dict payload =>
        simp only [hload]
        exact buildLines_explicit (h text payload htext hload) clock
      | _ => simp only [hload]

end Timestamps

/-! ## The table -/

/-- The key `(timestamp, device_id)` of a row, and its values. -/
def Line.keyed (l : Line) : (ℤ × Str) × List (Str × PyFloat) :=
  ((l.timestampNs, l.deviceId), l.fields)

/-- The write that has been performed, if it has. -/
@[simp] def Event.applied? : Event → Option (Delivery × List Line)
  | .wrote d lines .accepted | .wrote d lines (.failed true) => some (d, lines)
  | _ => none

/-- The performed writes. -/
def applied (τ : List Event) : List (Delivery × List Line) := τ.filterMap Event.applied?

/-- Writes one after the other, each an upsert of its rows. -/
def tableOf (writes : List (List Line)) : Table (ℤ × Str) (List (Str × PyFloat)) :=
  writes.foldl (fun t lines => t.write (lines.map Line.keyed)) Table.empty

/-- What is in the table after a run. -/
def stored (τ : List Event) : Table (ℤ × Str) (List (Str × PyFloat)) :=
  tableOf ((applied τ).map Prod.snd)

section Converge

variable (rt : Runtime) (content : ℕ → Message) (n : ℕ) (refuses : List Line → Bool)

/-- The lines of a message that is accepted: it has some, and QuestDB does not
refuse them. -/
def acceptedLines (i : ℕ) : Option (List Line) :=
  match parseMessage rt (fun _ => 0) (content i) with
  | .ok lines => if refuses lines then none else some lines
  | .error _ => none

/-- The table after each accepted message has been written once, in order. -/
def exactlyOnce : Table (ℤ × Str) (List (Str × PyFloat)) :=
  tableOf ((List.range n).filterMap (acceptedLines rt content refuses))

/-- What QuestDB may answer: HTTP 400 for the rows it refuses, which are never
applied, and for no others. -/
def Answers (lines : List Line) : Outcome → Bool
  | .accepted | .failed true => !refuses lines
  | .badRequest => refuses lines
  | .failed false => true

/-- The answer is one to the lines in the worker's hands. -/
def Worker.Answered (outcome : Outcome) : Worker → Bool
  | .writing _ _ lines _ => Answers refuses lines outcome
  | _ => true

/-- The promise of the broker and of QuestDB: messages `0` to `n - 1` with QoS 1, in
order on each connection and at most as many as Receive Maximum. -/
def Orderly (h : Service) (_ : List Event) : Action → Prop
  | .send id _ qos =>
    id < n ∧ qos = 1 ∧ (∀ i < id, i ∈ h.acknowledged ∨ i ∈ h.outstanding.map Delivery.id) ∧
      h.outstanding.length < receiveMaximum
  | .write outcome => h.worker.Answered refuses outcome
  | _ => True

instance (h : Service) (τ : List Event) (a : Action) : Decidable (Orderly n refuses h τ a) :=
  match a with
  | .send _ _ _ => inferInstanceAs (Decidable (_ ∧ _))
  | .write _ => inferInstanceAs (Decidable (_ = true))
  | .connect | .receive | .put | .linkLost | .disconnected | .drain | .pubackReceived | .get
  | .parse _ | .wake | .ack | .restart => inferInstanceAs (Decidable True)

variable {n}

/-! ## What is in order -/

/-- The first message whose PUBACK is not on its way. -/
def next (h : Service) : ℕ := h.acknowledged.length + h.pubacks.length

variable (n) in
/-- The messages are acknowledged and outstanding in their order. -/
structure Ordered (h : Service) : Prop where
  first : h.acknowledged = List.range h.acknowledged.length
  numbered : h.outstanding.map Delivery.id =
    List.range' h.acknowledged.length h.outstanding.length
  limit : h.outstanding.length ≤ receiveMaximum
  known : ∀ d ∈ h.outstanding, d.id < n ∧ d.qos = 1
  /-- what has a PUBACK or had one, what a worker has been ended by, and the line -/
  parts : h.link ≠ .down → ∃ back lost, h.outstanding = back ++ lost ++ pipeline h ∧
    (h.link = .up → h.pubacks = back.map Delivery.mid) ∧ (h.worker ≠ .dead → lost = [])
  current : h.network ≠ .draining → ∀ p ∈ h.queue ++ h.network.held.toList, p.1 = h.connection
  draining : h.network = .draining → h.link = .down
  ahead : ∀ p ∈ inside h, next h ≤ p.2.id ∧ p.2.id < n

/-- The ids of a part of what is outstanding. -/
theorem part_id {h : Service} {front back : List Delivery}
    (hnum : h.outstanding.map Delivery.id =
      List.range' h.acknowledged.length h.outstanding.length)
    (hparts : h.outstanding = front ++ back) :
    back.map Delivery.id =
      List.range' (h.acknowledged.length + front.length) back.length := by
  have hlen : h.outstanding.length = front.length + back.length := by
    rw [hparts, List.length_append]
  rw [hparts, List.map_append, ← hparts, hlen, ← List.range'_append_1] at hnum
  exact (List.append_inj hnum (by simp)).2

/-- The line comes after what is settled. -/
theorem next_le {h : Service} (hnum : h.outstanding.map Delivery.id =
      List.range' h.acknowledged.length h.outstanding.length)
    (hlost : h.link ≠ .up → h.pubacks = [])
    (hparts : ∃ back lost, h.outstanding = back ++ lost ++ pipeline h ∧
      (h.link = .up → h.pubacks = back.map Delivery.mid) ∧ (h.worker ≠ .dead → lost = []))
    {d : Delivery} (hd : d ∈ pipeline h) : next h ≤ d.id := by
  obtain ⟨back, lost, hout, hback, -⟩ := hparts
  have hid := List.mem_map_of_mem (f := Delivery.id) hd
  rw [part_id hnum hout, List.mem_range'_1, List.length_append] at hid
  have hpubacks : h.pubacks.length ≤ back.length := by
    by_cases hl : h.link = .up
    · rw [hback hl, List.length_map]
    · rw [hlost hl]
      exact Nat.zero_le _
  unfold next
  omega

variable {rt content refuses}

/-- The PUBACK of the first outstanding delivery. -/
theorem filter_mid_cons {d : Delivery} {ds : List Delivery}
    (hd : (d :: ds).Pairwise (·.mid ≠ ·.mid)) :
    (d :: ds).filter (·.mid = d.mid) = [d] ∧ (d :: ds).filter (·.mid ≠ d.mid) = ds := by
  have hrest : ∀ e ∈ ds, e.mid ≠ d.mid := fun e he => (List.rel_of_pairwise_cons hd he).symm
  refine ⟨(filter_mid hd (.refl _)).1, ?_⟩
  rw [List.filter_cons_of_neg (by simp)]
  simpa using hrest

/-- The first PUBACK on its way is the first outstanding delivery's. -/
theorem pubackReceived_filter {h : Service} {τ : List Event} {mid : ℕ} {rest : List ℕ}
    (hk : Packets h τ) (ho : Ordered n h) (hp : h.pubacks = mid :: rest) :
    ∃ d ds, h.outstanding = d :: ds ∧ h.outstanding.filter (·.mid = mid) = [d] ∧
      h.outstanding.filter (·.mid ≠ mid) = ds ∧
      ∃ back lost, ds = back ++ lost ++ pipeline h ∧ rest = back.map Delivery.mid ∧
        (h.worker ≠ .dead → lost = []) := by
  have hup : h.link = .up := by
    by_contra hl
    cases hp.symm.trans (hk.lost hl)
  obtain ⟨back, lost, hout, hback, hlost⟩ := ho.parts (by simp [hup])
  have hback := hback hup
  rw [hp] at hback
  obtain ⟨d, ds, rfl, rfl, rfl⟩ := List.map_eq_cons_iff.mp hback.symm
  have hout : h.outstanding = d :: (ds ++ lost ++ pipeline h) := by simp [hout]
  obtain ⟨hone, hrest⟩ := filter_mid_cons (hout ▸ hk.distinct)
  exact ⟨d, _, hout, hout ▸ hone, hout ▸ hrest, ds, lost, rfl, rfl, hlost⟩

/-- The queue has room for what is in `submit`. -/
theorem not_full {h : Service} {c : ℕ} {d : Delivery} (ho : Ordered n h) (hl : h.link ≠ .down)
    (hn : h.network = .submitting c d) : h.queue.length < receiveMaximum := by
  obtain ⟨back, lost, hout, -⟩ := ho.parts hl
  have hcur := ho.current (by simp [hn])
  have hsub : (h.queue ++ [(c, d)]).length ≤ (pipeline h).length := by
    have hfilter : (h.queue ++ [(c, d)]).filter (·.1 = h.connection) = h.queue ++ [(c, d)] := by
      refine List.filter_eq_self.mpr fun p hp => ?_
      simpa using hcur p (by simpa [hn] using hp)
    calc (h.queue ++ [(c, d)]).length
        = (((h.queue ++ [(c, d)]).filter (·.1 = h.connection)).map Prod.snd).length := by
          rw [hfilter, List.length_map]
      _ ≤ (pipeline h).length := by
          simp only [pipeline, inside, hn, Network.held_submitting, Option.toList_some,
            List.append_assoc, List.filter_append, List.map_append, List.length_append]
          omega
  have hlimit := ho.limit
  rw [hout, List.length_append] at hlimit
  rw [List.length_append, List.length_singleton] at hsub
  omega

theorem numbered_step {h h' : Service} {a : Action} {es τ : List Event}
    (hk : Packets h τ) (ho : Ordered n h) (hok : Orderly n refuses h τ a)
    (hs : Stepped rt content h a h' es) :
    h'.acknowledged = List.range h'.acknowledged.length ∧
    h'.outstanding.map Delivery.id =
      List.range' h'.acknowledged.length h'.outstanding.length ∧
    h'.outstanding.length ≤ receiveMaximum ∧ ∀ d ∈ h'.outstanding, d.id < n ∧ d.qos = 1 := by
  have hnum := ho.numbered
  cases hs with
  | connect => exact ⟨ho.first, rfl, Nat.zero_le _, nofun⟩
  | send d _ _ hack hnew =>
    obtain ⟨hid, hqos, hbefore, hroom⟩ := hok
    -- everything before it is acknowledged or outstanding, and it is not
    have hnext : d.id = h.acknowledged.length + h.outstanding.length := by
      have hmem : ∀ i, i ∈ h.acknowledged ∨ i ∈ h.outstanding.map Delivery.id ↔
          i < h.acknowledged.length + h.outstanding.length := by
        intro i
        rw [ho.first, hnum]
        simp only [List.mem_range, List.length_range, List.mem_range'_1]
        omega
      have hnot : ¬d.id < h.acknowledged.length + h.outstanding.length := by
        rw [← hmem, not_or]
        refine ⟨hack, fun h' => ?_⟩
        obtain ⟨e, he, heq⟩ := List.mem_map.mp h'
        exact (hnew e he).1 heq
      refine le_antisymm (not_lt.mp fun hlt => ?_) (not_lt.mp hnot)
      exact lt_irrefl _ ((hmem _).mp (hbefore _ hlt))
    rw [if_pos hqos]
    refine ⟨ho.first, ?_, ?_, fun e he => ?_⟩
    · rw [List.map_append, hnum, List.length_append, ← List.range'_append_1]
      simp [hnext]
    · simpa [Nat.succ_le_iff] using hroom
    · rcases List.mem_append.mp he with he | he
      · exact ho.known e he
      · obtain rfl := List.mem_singleton.mp he
        exact ⟨hid, hqos⟩
  | pubackReceived hp =>
    obtain ⟨d, ds, hout, hone, hrest, -⟩ := pubackReceived_filter hk ho hp
    have hlimit := ho.limit
    rw [hout, List.length_cons] at hlimit
    rw [hout, List.map_cons, List.length_cons, List.range'_succ, List.cons.injEq] at hnum
    dsimp only
    rw [hone, hrest, List.length_append, List.map_singleton, List.length_singleton]
    refine ⟨?_, hnum.2, by omega, fun e he => ho.known e (by simp [hout, he])⟩
    rw [List.range_succ, ← ho.first, hnum.1]
  | _ => exact ⟨ho.first, ho.numbered, ho.limit, ho.known⟩

theorem parts_step {h h' : Service} {a : Action} {es τ : List Event} (hb : Books h τ)
    (hk : Packets h τ) (ho : Ordered n h) (hok : Orderly n refuses h τ a)
    (hs : Stepped rt content h a h' es) (hl : h'.link ≠ .down) :
    ∃ back lost, h'.outstanding = back ++ lost ++ pipeline h' ∧
      (h'.link = .up → h'.pubacks = back.map Delivery.mid) ∧ (h'.worker ≠ .dead → lost = []) := by
  have hkeep : h.link ≠ .down → h'.outstanding = h.outstanding → pipeline h' = pipeline h →
      (h'.link = .up → h.link = .up ∧ h'.pubacks = h.pubacks) →
      (h'.worker ≠ .dead → h.worker ≠ .dead) →
      ∃ back lost, h'.outstanding = back ++ lost ++ pipeline h' ∧
        (h'.link = .up → h'.pubacks = back.map Delivery.mid) ∧
        (h'.worker ≠ .dead → lost = []) := by
    intro hl hout hline hup hdead
    obtain ⟨back, lost, hparts, hback, hlost⟩ := ho.parts hl
    refine ⟨back, lost, by rw [hout, hparts, hline], fun h' => ?_, fun h' => hlost (hdead h')⟩
    rw [(hup h').2, hback (hup h').1]
  cases hs with
  | connect hdown =>
    have hline : pipeline { h with link := .up, links := h.links + 1, outstanding := [] } = [] :=
      (pipeline_congr rfl rfl rfl).trans (hb.down hdown)
    exact ⟨[], [], by rw [hline]; rfl, fun _ => hk.lost (by simp [hdown]), fun _ => rfl⟩
  | send d hup =>
    obtain ⟨back, lost, hparts, hback, hlost⟩ := ho.parts hl
    refine ⟨back, lost, ?_, hback, hlost⟩
    rw [if_pos hok.2.1, hparts]
    simp [pipeline, inside]
  | receive hn hch => exact hkeep hl rfl (by simp [pipeline, inside, hn, hch]) (⟨·, rfl⟩) id
  | put hn => exact hkeep hl rfl (by simp [pipeline, inside, hn]) (⟨·, rfl⟩) id
  | full hn hfull => exact absurd (not_full ho hl hn) (not_lt.mpr hfull)
  | linkLost hup => exact hkeep (by simp [hup]) rfl (pipeline_congr rfl rfl rfl) (by simp) id
  | disconnected | restart => exact absurd rfl hl
  | drained hn | drain hn => exact absurd (ho.draining hn) hl
  | pubackReceived hp =>
    obtain ⟨d, ds, -, -, hrest, back, lost, hds, hback, hlost⟩ := pubackReceived_filter hk ho hp
    refine ⟨back, lost, ?_, fun _ => hback, hlost⟩
    exact hrest.trans hds
  | get hw hq =>
    exact hkeep hl rfl (by simp [pipeline, inside, hw, hq]) (⟨·, rfl⟩) fun _ => by simp [hw]
  | lineless hw | parsed hw | answered hw | failed hw | retry hw =>
    exact hkeep hl rfl (by simp [pipeline, inside, hw]) (⟨·, rfl⟩) fun _ => by simp [hw]
  | givenUp hw hc | notAcked hw hc =>
    exact hkeep hl rfl (by simp [pipeline, inside, hw, hc]) (⟨·, rfl⟩) fun _ => by simp [hw]
  | @raised clock c d hw =>
    by_cases hc : c = h.connection
    · obtain ⟨back, lost, hparts, hback, hlost⟩ := ho.parts hl
      refine ⟨back, [d], ?_, hback, fun hlive => absurd rfl hlive⟩
      rw [hparts, hlost (by simp [hw])]
      simp [pipeline, inside, hw, hc]
    · exact hkeep hl rfl (by simp [pipeline, inside, hw, hc]) (⟨·, rfl⟩)
        fun hlive => absurd rfl hlive
  | @acked c d hw hc =>
    obtain ⟨back, lost, hparts, hback, hlost⟩ := ho.parts hl
    have hparts : h.outstanding = back ++ [d] ++ [] ++ pipeline { h with
        worker := .waiting
        pubacks := if h.link = .up ∧ d.qos = 1 then h.pubacks ++ [d.mid] else h.pubacks } := by
      rw [hparts, hlost (by simp [hw])]
      simp [pipeline, inside, hw, hc]
    refine ⟨back ++ [d], [], hparts, fun hup => ?_, fun _ => rfl⟩
    have hqos : d.qos = 1 := (ho.known d (by rw [hparts]; simp)).2
    have hup : h.link = .up := hup
    simp [hup, hqos, hback hup]

/-- What is settled goes on by one message at most, the one in the worker's hands. -/
theorem next_step {h h' : Service} {a : Action} {es τ : List Event} (hk : Packets h τ)
    (ho : Ordered n h) (hs : Stepped rt content h a h' es) :
    next h' ≤ next h ∨
      a = .ack ∧ ∃ c d, h.worker = .acking c d ∧ d.id = next h ∧ next h' = next h + 1 := by
  cases hs with
  | pubackReceived hpubacks =>
    obtain ⟨d, ds, -, hone, -⟩ := pubackReceived_filter hk ho hpubacks
    refine .inl (le_of_eq ?_)
    unfold next
    dsimp only
    rw [hone, hpubacks, List.length_append, List.map_singleton, List.length_singleton,
      List.length_cons]
    omega
  | linkLost | restart => exact .inl (Nat.le_add_right _ _)
  | @acked c d hw hc =>
    by_cases hup : h.link = .up ∧ d.qos = 1
    · obtain ⟨back, lost, hout, hback, hlost⟩ := ho.parts (by simp [hup])
      rw [hlost (by simp [hw]), List.append_nil] at hout
      have hid := part_id ho.numbered hout
      have hline : ∃ rest, pipeline h = d :: rest := ⟨_, by simp [pipeline, inside, hw, hc]; rfl⟩
      obtain ⟨rest, hline⟩ := hline
      rw [hline, List.map_cons, List.length_cons, List.range'_succ, List.cons.injEq] at hid
      refine .inr ⟨rfl, c, d, hw, ?_, by simp [next, hup, Nat.add_assoc]⟩
      rw [hid.1, next, hback hup.1, List.length_map]
    · exact .inl (by simp [next, hup])
  | _ => exact .inl le_rfl

theorem ordered_step {h h' : Service} {a : Action} {es τ : List Event} (hb : Books h τ)
    (hk : Packets h τ) (hk' : Packets h' (τ ++ es)) (ho : Ordered n h)
    (hok : Orderly n refuses h τ a) (hs : Stepped rt content h a h' es) : Ordered n h' := by
  obtain ⟨hfirst, hnum, hlimit, hknown⟩ := numbered_step hk ho hok hs
  have hparts := parts_step hb hk ho hok hs
  refine ⟨hfirst, hnum, hlimit, hknown, hparts, ?_, ?_, ?_⟩
  case refine_1 =>
    intro hn p hp
    cases hs with
    | receive hidle =>
      rcases List.mem_append.mp hp with hp | hp
      · exact ho.current (by simp [hidle]) p (List.mem_append_left _ hp)
      · simp only [Network.held_submitting, Option.toList_some, List.mem_singleton] at hp
        rw [hp]
    | put hsub => exact ho.current (by simp [hsub]) p (by simpa [hsub] using hp)
    | full hsub =>
      refine ho.current (by simp [hsub]) p (List.mem_append_left _ ?_)
      simpa using hp
    | disconnected => exact absurd rfl hn
    | drained hdrain hq => simp [hq] at hp
    | drain hdrain => exact absurd hdrain hn
    | restart => simp at hp
    | get hw hq =>
      refine ho.current hn p ?_
      rw [hq]
      exact List.mem_cons_of_mem _ hp
    | _ => exact ho.current hn p hp
  case refine_2 =>
    intro hn
    cases hs with
    | connect _ hidle => cases hidle.symm.trans hn
    | linkLost hup => cases hup.symm.trans (ho.draining hn)
    | receive | put | full | drained | restart => cases hn
    | disconnected => rfl
    | _ => exact ho.draining hn
  case refine_3 =>
    intro p hp
    have hold := inside_step hs hp
    have hkeep : next h' ≤ next h → p ∈ inside h → next h' ≤ p.2.id ∧ p.2.id < n :=
      fun hle hp => ⟨hle.trans (ho.ahead p hp).1, (ho.ahead p hp).2⟩
    have hnext := next_step hk ho hs
    cases hs with
    | receive hidle hch =>
      rcases hold with hold | ⟨hnew, -⟩
      · exact hkeep le_rfl hold
      · obtain rfl := List.mem_singleton.mp hnew
        have hline : _ ∈ pipeline h := List.mem_append_right _ (hch ▸ List.mem_cons_self)
        have hl : h.link ≠ .down := fun hl => by simp [hb.down hl] at hline
        refine ⟨next_le ho.numbered hk.lost (ho.parts hl) hline, ?_⟩
        obtain ⟨back, lost, hout, -⟩ := ho.parts hl
        exact (ho.known _ (hout ▸ List.mem_append_right _ hline)).1
    | @acked c d hw hc =>
      have hold : p ∈ inside h := by simpa using hold
      by_cases hup : h.link = .up ∧ d.qos = 1
      · -- all that is left inside is of the connection
        have hn : h.network ≠ .draining := fun hn => by simp [ho.draining hn] at hup
        refine ⟨next_le hnum hk'.lost (hparts (by simp [hup])) ?_, (ho.ahead p hold).2⟩
        have hcur := ho.current hn p (by simpa [inside] using hp)
        exact List.mem_append_left _ (List.mem_map_of_mem (List.mem_filter.mpr ⟨hp, by simpa⟩))
      · exact hkeep (by simp [next, hup]) hold
    | pubackReceived | linkLost | restart =>
      exact hkeep (hnext.resolve_right (by simp)) (by simpa using hold)
    | _ => exact hkeep le_rfl (by simpa using hold)

/-! ## What is settled -/

variable (rt content refuses)

/-- The rows of a message, none when it is not accepted. -/
def rowsOf (i : ℕ) : List ((ℤ × Str) × List (Str × PyFloat)) :=
  ((acceptedLines rt content refuses i).getD []).map Line.keyed

/-- The messages whose lines have been written. -/
def written (τ : List Event) : List ℕ := (applied τ).map (·.1.id)

variable (n) in
/-- Every message before the first one whose PUBACK is not on its way is settled. -/
structure Absorbed (h : Service) (τ : List Event) : Prop where
  sound : ∀ w ∈ applied τ, w.1.id < n ∧ acceptedLines rt content refuses w.1.id = some w.2
  settled : ∀ i < next h, Table.Settled (rowsOf rt content refuses) (written τ) i
  acking : ∀ c d, h.worker = .acking c d →
    Table.Settled (rowsOf rt content refuses) (written τ) d.id

variable {rt content refuses}

@[simp] theorem applied_append (τ es : List Event) : applied (τ ++ es) = applied τ ++ applied es :=
  List.filterMap_append

theorem written_append (τ es : List Event) : written (τ ++ es) = written τ ++ written es := by
  simp [written]

/-- A performed write is one of the message in the worker's hands. -/
theorem applied_step {h h' : Service} {a : Action} {es τ : List Event}
    (hok : Orderly n refuses h τ a) (hs : Stepped rt content h a h' es) :
    applied es = [] ∨ ∃ c d lines delay, h.worker = .writing c d lines delay ∧
      applied es = [(d, lines)] ∧ refuses lines = false := by
  cases hs with
  | @answered c d lines delay outcome hw houtcome =>
    rcases houtcome with rfl | rfl
    · exact .inr ⟨c, d, lines, delay, hw, rfl, by simpa [Orderly, hw, Worker.Answered, Answers] using hok⟩
    · exact .inl rfl
  | @failed c d lines delay applied hw =>
    cases applied with
    | true => exact .inr ⟨c, d, lines, delay, hw, rfl, by simpa [Orderly, hw, Worker.Answered, Answers] using hok⟩
    | false => exact .inl rfl
  | _ => exact .inl rfl

theorem acceptedLines_of {d : Delivery} {lines : List Line} (ht : Timed rt (content d.id))
    (hl : LinesOf rt content d lines) :
    acceptedLines rt content refuses d.id = if refuses lines then none else some lines := by
  obtain ⟨clock, hl⟩ := hl
  rw [parseMessage_timed ht] at hl
  rw [acceptedLines, hl]

theorem rowsOf_lineless {d : Delivery} (ht : Timed rt (content d.id))
    (hd : Lineless rt content d) : rowsOf rt content refuses d.id = [] := by
  rcases hd with ⟨clock, e, he, -⟩ | hl
  · rw [parseMessage_timed ht] at he
    rw [rowsOf, acceptedLines, he]
    rfl
  · rw [rowsOf, acceptedLines_of ht hl]
    split <;> rfl

theorem absorbed_step {h h' : Service} {a : Action} {es τ : List Event}
    (htimed : ∀ i < n, Timed rt (content i)) (hkept : Kept rt content h τ)
    (ho : Ordered n h) (ha : Absorbed rt content n refuses h τ)
    (hok : Orderly n refuses h τ a) (hs : Stepped rt content h a h' es) :
    Absorbed rt content n refuses h' (τ ++ es) := by
  have hwritten : ∀ i, Table.Settled (rowsOf rt content refuses) (written τ) i →
      (∀ d lines, applied es = [(d, lines)] → i ≤ d.id) →
      Table.Settled (rowsOf rt content refuses) (written (τ ++ es)) i := by
    intro i hi hle
    rw [written_append]
    rcases applied_step hok hs with hnone | ⟨c, d, lines, delay, -, hone, -⟩
    · simpa [written, hnone] using hi
    · rw [written, written, hone]
      exact hi.concat (hle d lines hone)
  have hwriting : ∀ c d lines delay, h.worker = .writing c d lines delay →
      d.id < n ∧ next h ≤ d.id ∧
        acceptedLines rt content refuses d.id = if refuses lines then none else some lines := by
    intro c d lines delay hw
    have hahead := ho.ahead (c, d) (by simp [inside, hw])
    have hlines : LinesOf rt content d lines := by
      simpa [hw, Worker.Justified] using hkept.justified
    exact ⟨hahead.2, hahead.1, acceptedLines_of (htimed _ hahead.2) hlines⟩
  constructor
  case sound =>
    intro w hmem
    rw [applied_append, List.mem_append] at hmem
    rcases hmem with hmem | hmem
    · exact ha.sound w hmem
    · rcases applied_step hok hs with hnone | ⟨c, d, lines, delay, hw, hone, hrefuses⟩
      · simp [hnone] at hmem
      · rw [hone, List.mem_singleton] at hmem
        obtain ⟨hid, -, hlines⟩ := hwriting c d lines delay hw
        subst hmem
        exact ⟨hid, by simp [hlines, hrefuses]⟩
  case settled =>
    intro i hi
    rcases next_step hkept.packets ho hs with hle | ⟨-, c, d, hw, hid, hnext⟩
    · refine hwritten i (ha.settled i (hi.trans_le hle)) fun d lines hone => ?_
      rcases applied_step hok hs with hnone | ⟨c, d', lines', delay, hw, hone', -⟩
      · simp [hnone] at hone
      · obtain ⟨rfl, -⟩ : d' = d ∧ lines' = lines := by simpa [hone'] using hone
        exact (hi.trans_le hle).le.trans (hwriting c d' lines' delay hw).2.1
    · have hnone : applied es = [] := by
        rcases applied_step hok hs with hnone | ⟨c', d', lines', delay, hw', -⟩
        · exact hnone
        · cases hw.symm.trans hw'
      refine hwritten i ?_ fun d lines hone => by simp [hnone] at hone
      rw [hnext] at hi
      rcases Nat.lt_succ_iff_lt_or_eq.mp hi with hlt | heq
      · exact ha.settled i hlt
      · rw [heq, ← hid]
        exact ha.acking c d hw
  case acking =>
    intro c d hw
    have hkeep : h.worker = .acking c d → applied es = [] →
        Table.Settled (rowsOf rt content refuses) (written (τ ++ es)) d.id :=
      fun hw hnone => hwritten _ (ha.acking c d hw) fun d lines hone => by simp [hnone] at hone
    cases hs with
    | lineless hw' hd =>
      cases hw
      have hahead := ho.ahead (c, d) (by simp [inside, hw'])
      exact Table.settled_of_nil (rowsOf_lineless (htimed _ hahead.2) hd)
    | @answered _ _ lines delay outcome hw' houtcome =>
      cases hw
      obtain ⟨hid, -, hlines⟩ := hwriting c d lines delay hw'
      rcases houtcome with rfl | rfl
      · rw [written_append]
        exact Table.settled_concat _ _
      · have hrefuses : refuses lines = true := by simpa [Orderly, hw', Worker.Answered, Answers] using hok
        refine Table.settled_of_nil ?_
        rw [rowsOf, hlines, if_pos hrefuses]
        rfl
    | restart | get | parsed | raised | failed | retry | givenUp | acked | notAcked => cases hw
    | _ => exact hkeep hw rfl

variable (rt content n refuses) in
/-- What a run keeps when the broker and QuestDB keep their promise. -/
structure InOrder (h : Service) (τ : List Event) : Prop where
  kept : Kept rt content h τ
  ordered : Ordered n h
  absorbed : Absorbed rt content n refuses h τ

theorem run_inOrder (htimed : ∀ i < n, Timed rt (content i)) {h : Service} {τ : List Event}
    (hr : (service rt content).Run (Orderly n refuses) h τ) :
    InOrder rt content n refuses h τ := by
  refine hr.invariant_with (J := Kept rt content) ?_ ?_ ?_
  · exact fun hr => run_kept (hr.mono fun _ _ _ _ => trivial)
  · refine ⟨run_kept .start, ⟨rfl, rfl, Nat.zero_le _, nofun, fun hl => absurd rfl hl, nofun, nofun,
      nofun⟩, nofun, nofun, nofun⟩
  · intro h τ a h' es hkept hin hok hs
    have hs := stepped hs
    have hbooks := books_step hkept.books hs
    have hpackets := packets_step hkept.books hkept.packets hs
    exact ⟨⟨hbooks, hpackets, justified_step hkept.justified hs⟩,
      ordered_step hkept.books hkept.packets hpackets hin.ordered hok hs,
      absorbed_step htimed hkept hin.ordered hin.absorbed hok hs⟩

theorem stored_eq {h : Service} {τ : List Event} (ha : Absorbed rt content n refuses h τ) :
    stored τ = Table.replay (rowsOf rt content refuses) (written τ) := by
  rw [stored, tableOf, written, Table.replay, List.foldl_map, List.foldl_map]
  refine List.foldl_ext _ _ _ fun t w hw => ?_
  rw [rowsOf, (ha.sound w hw).2, Option.getD_some]

theorem exactlyOnce_eq :
    exactlyOnce rt content n refuses = Table.replay (rowsOf rt content refuses)
      ((List.range n).filter fun i => (acceptedLines rt content refuses i).isSome) := by
  rw [exactlyOnce, tableOf, Table.replay]
  generalize List.range n = l
  generalize (Table.empty : Table (ℤ × Str) (List (Str × PyFloat))) = t
  induction l generalizing t with
  | nil => rfl
  | cons i l ih =>
    rcases hlines : acceptedLines rt content refuses i with _ | lines
    · rw [List.filterMap_cons_none hlines, List.filter_cons_of_neg (by simp [hlines]), ih]
    · rw [List.filterMap_cons_some hlines, List.filter_cons_of_pos (by simp [hlines]),
        List.foldl_cons, List.foldl_cons, ih, rowsOf, hlines, Option.getD_some]

/-- **Redeliveries converge.** The broker hands out messages `0` to `n - 1`, which
carry their timestamps, in order and within Receive Maximum, and QuestDB refuses
rows for good or fails for a while. When all are acknowledged at the broker, the
table is what the accepted messages leave when each is written once. -/
theorem converges (htimed : ∀ i < n, Timed rt (content i)) {h : Service} {τ : List Event}
    (hr : (service rt content).Run (Orderly n refuses) h τ)
    (hall : ∀ i < n, i ∈ h.acknowledged) :
    stored τ = exactlyOnce rt content n refuses := by
  obtain ⟨-, hordered, habsorbed⟩ := run_inOrder htimed hr
  have hnext : ∀ i < n, i < next h := by
    intro i hi
    have := hall i hi
    rw [hordered.first, List.mem_range] at this
    exact this.trans_le (Nat.le_add_right _ _)
  rw [stored_eq habsorbed, exactlyOnce_eq]
  refine Table.replay_eq_of_settled (fun i hi => ?_) fun i hi _ => habsorbed.settled i (hnext i hi)
  obtain ⟨w, hw, rfl⟩ := List.mem_map.mp hi
  obtain ⟨hid, hlines⟩ := habsorbed.sound w hw
  exact ⟨hid, by simp [hlines]⟩

end Converge

/-- An NDATA with one reading of the battery, at 1700000000000 ms. -/
def batteryMessage (percent : UInt8) : Message :=
  { topic := str "spBv1.0/aitsm/NDATA/thingy91x",
    payload := [0x08, 0x80, 0xd0, 0x95, 0xff, 0xbc, 0x31, 0x12, 0x0b, 0x0a, 0x07, 0x62, 0x61, 0x74,
      0x74, 0x65, 0x72, 0x79, 0x50, percent] }

/-- Two readings of the same time. -/
def sameTime (i : ℕ) : Message := batteryMessage (if i = 0 then 50 else 60)

/-- Both are written, the first one again after a failure, and both again after the
connection and the PUBACK are lost. -/
def writtenAgain : List Action :=
  [.connect, .send 0 1 1, .send 1 2 1, .receive, .put, .receive, .put, .get, .parse fun _ => 0,
    .write (.failed true), .wake, .write .accepted, .ack, .get, .parse fun _ => 0,
    .write .accepted, .linkLost, .ack, .disconnected, .drain, .connect, .send 0 1 1, .send 1 2 1,
    .receive, .put, .get, .parse fun _ => 0, .write .accepted, .ack, .pubackReceived, .receive,
    .put, .get, .parse fun _ => 0, .write (.failed false), .wake, .write .accepted, .ack,
    .pubackReceived]

theorem writtenAgain_replays : ((service bareRuntime sameTime).replay
    (Orderly 2 fun _ => false) (service bareRuntime sameTime).start [] writtenAgain).isSome := by
  decide +kernel

theorem converges_writtenAgain :
    ∃ h τ, (service bareRuntime sameTime).Run (Orderly 2 fun _ => false) h τ ∧
      (∀ i < 2, Timed bareRuntime (sameTime i)) ∧ (∀ i < 2, i ∈ h.acknowledged) ∧
      written τ = [0, 0, 1, 0, 1] ∧ stored τ = exactlyOnce bareRuntime sameTime 2 fun _ => false := by
  have hr := System.Run.of_isSome writtenAgain_replays
  have htimed : ∀ i < 2, Timed bareRuntime (sameTime i) := fun i _ => .inl (by decide +revert)
  have hall : ∀ i < 2, i ∈ (((service bareRuntime sameTime).replay (Orderly 2 fun _ => false)
      (service bareRuntime sameTime).start [] writtenAgain).get writtenAgain_replays).1.acknowledged := by
    decide +kernel
  exact ⟨_, _, hr, htimed, hall, by decide +kernel, converges htimed hr hall⟩

end Aitsm.Ingest
