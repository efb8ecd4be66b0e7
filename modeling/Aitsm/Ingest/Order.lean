import Mathlib.Data.List.Sort
import Aitsm.Ingest.Devices
import Aitsm.Ingest.Grouping

/-!
# What the order of the metrics decides

The table of a message depends on the metrics that count. Their order matters only
where two of them have the timestamp and the name in common (`readingLines_perm`),
and the payload timestamp, the sequence number and unknown fields may stand
anywhere on the wire (`decode_rearranged`), also where pairs are given twice
(`decode_interspersed`).
-/

namespace Aitsm.Ingest

open Library Library.Wire

variable {rt : Runtime}

/-! ## Two messages -/

/-- The timestamps and names of the metrics that count. -/
def Payload.pairs (p : Payload) : List (Option FieldValue × Option Str) :=
  (p.metrics.filter (·.counts)).map fun m => (m.timestamp.or p.timestamp, m.name)

theorem given_some {payloadTimestamp : Option FieldValue} {m : MetricDict} {g : Given}
    (h : m.given rt payloadTimestamp = some g) :
    m.counts ∧ m.timestamp.or payloadTimestamp = some (.int g.1) ∧ m.name = some g.2.1 := by
  unfold MetricDict.given at h
  split at h
  · rename_i hcounts
    split at h
    · rename_i ht hname hx
      obtain rfl := Option.some.inj h
      exact ⟨hcounts, ht, hname⟩
    · cases h
  · cases h

theorem given_eq_filter (p : Payload) :
    p.given rt = (p.metrics.filter (·.counts)).filterMap (·.given rt p.timestamp) := by
  rw [Payload.given, List.filterMap_filter]
  congr 1
  funext m
  cases hcounts : m.counts with
  | false => rw [given_of_not_counts hcounts]; rfl
  | true => rfl

/-- Distinct pairs are given once. -/
theorem pairs_given {p : Payload} (h : p.pairs.Nodup) :
    ((p.given rt).map fun g => (g.1, g.2.1)).Nodup := by
  rw [given_eq_filter]
  refine List.pairwise_map.mpr
    ((List.pairwise_map.mp h).filterMap _ fun m m' hne g hg g' hg' heq => hne ?_)
  obtain ⟨-, ht, hname⟩ := given_some hg
  obtain ⟨-, ht', hname'⟩ := given_some hg'
  rw [ht, ht', hname, hname', (Prod.mk.inj heq).1, (Prod.mk.inj heq).2]

/-- What is given once is the last in any order. -/
theorem lastGiven_perm {given given' : List Given} (hperm : given'.Perm given)
    (hdistinct : (given.map fun g => (g.1, g.2.1)).Nodup) (t : ℕ) (name : Str) :
    lastGiven given' t name = lastGiven given t name := by
  let here := fun g : Given => decide (g.1 = t ∧ g.2.1 = name)
  have hfilter : (given'.filter here).Perm (given.filter here) := hperm.filter here
  have honce : (given.filter here).length ≤ 1 := by
    have hpairs : (given.filter here).Pairwise fun g g' => (g.1, g.2.1) ≠ (g'.1, g'.2.1) :=
      (List.pairwise_map.mp hdistinct).filter here
    rcases hl : given.filter here with _ | ⟨a, _ | ⟨b, l⟩⟩
    · simp
    · simp
    · have hsame : ∀ g ∈ given.filter here, (g.1, g.2.1) = (t, name) := fun g hg =>
        Prod.ext (of_decide_eq_true (List.mem_filter.mp hg).2).1
          (of_decide_eq_true (List.mem_filter.mp hg).2).2
      rw [hl] at hpairs hsame
      have ha := hsame a List.mem_cons_self
      have hb := hsame b (List.mem_cons_of_mem _ List.mem_cons_self)
      exact absurd (ha.trans hb.symm) (List.rel_of_pairwise_cons hpairs List.mem_cons_self)
  have heq : given'.filter here = given.filter here := by
    rcases hl : given.filter here with _ | ⟨a, _ | ⟨b, l⟩⟩
    · rw [hl] at hfilter
      exact List.perm_nil.mp hfilter
    · rw [hl] at hfilter
      exact List.perm_singleton.mp hfilter
    · simp [hl] at honce
  exact congrArg (fun l : List Given => l.getLast?.map (·.2.2)) heq

theorem counted_iff {p p' : Payload}
    (hperm : (p'.metrics.filter (·.counts)).Perm (p.metrics.filter (·.counts))) (m : MetricDict) :
    m ∈ p'.metrics ∧ m.counts ↔ m ∈ p.metrics ∧ m.counts := by
  rw [← List.mem_filter, ← List.mem_filter, hperm.mem_iff]

section

variable {p p' : Payload} (htime : p'.timestamp = p.timestamp)
include htime

/-- Only the metrics that count are looked at. -/
theorem readingLines_counted
    (h : p'.metrics.filter (·.counts) = p.metrics.filter (·.counts)) (topic edge : Str) :
    readingLines rt topic edge p' = readingLines rt topic edge p := by
  rw [readingLines_eq, readingLines_eq, sortedReadings, sortedReadings, foldlM_addReading_filter, h,
    htime, ← foldlM_addReading_filter]

variable (hperm : (p'.metrics.filter (·.counts)).Perm (p.metrics.filter (·.counts)))
include hperm

theorem Payload.WellTyped.perm (hw : p.WellTyped rt) : p'.WellTyped rt := by
  intro m hm hcounts
  rw [htime]
  obtain ⟨hm, hcounts⟩ := (counted_iff hperm m).mp ⟨hm, hcounts⟩
  exact hw m hm hcounts

theorem accepted_iff : p'.Accepted ↔ p.Accepted := by
  have hcounted := counted_iff hperm
  constructor
  · rintro ⟨⟨m, hm, hcounts⟩, hall⟩
    refine ⟨⟨m, (hcounted m).mp ⟨hm, hcounts⟩⟩, fun m' hm' hcounts' => ?_⟩
    obtain ⟨hm', hcounts'⟩ := (hcounted m').mpr ⟨hm', hcounts'⟩
    exact htime ▸ hall m' hm' hcounts'
  · rintro ⟨⟨m, hm, hcounts⟩, hall⟩
    refine ⟨⟨m, (hcounted m).mpr ⟨hm, hcounts⟩⟩, fun m' hm' hcounts' => ?_⟩
    obtain ⟨hm', hcounts'⟩ := (hcounted m').mp ⟨hm', hcounts'⟩
    exact htime ▸ hall m' hm' hcounts'

/-- And their order does not matter, when their pairs are distinct. -/
theorem readingLines_perm (hw : p.WellTyped rt) (hdistinct : p.pairs.Nodup) (topic edge : Str) :
    readingLines rt topic edge p' = readingLines rt topic edge p := by
  have hw' : p'.WellTyped rt := hw.perm htime hperm
  by_cases hok : p.Accepted ∧ ∃ device, edgeDevice edge topic = .ok device
  · obtain ⟨haccepted, device, hdevice⟩ := hok
    obtain ⟨ts, hlines, hrise, hts⟩ := readingLines_rows hw haccepted hdevice
    obtain ⟨ts', hlines', hrise', hts'⟩ :=
      readingLines_rows hw' ((accepted_iff htime hperm).mpr haccepted) hdevice
    have htimes : ts' = ts := by
      refine hrise'.eq_of_mem_iff hrise fun {t} => ?_
      rw [hts, hts', htime]
      constructor
      · rintro ⟨m, hm, hcounts, ht⟩
        obtain ⟨hm, hcounts⟩ := (counted_iff hperm m).mp ⟨hm, hcounts⟩
        exact ⟨m, hm, hcounts, ht⟩
      · rintro ⟨m, hm, hcounts, ht⟩
        obtain ⟨hm, hcounts⟩ := (counted_iff hperm m).mpr ⟨hm, hcounts⟩
        exact ⟨m, hm, hcounts, ht⟩
    have hgiven : (p'.given rt).Perm (p.given rt) := by
      rw [given_eq_filter, given_eq_filter, htime]
      exact hperm.filterMap _
    have hrow : row rt device (p'.given rt) = row rt device (p.given rt) := by
      funext t
      rw [row, row, rowFields, rowFields, funext (lastGiven_perm hgiven (pairs_given hdistinct) t)]
    rw [hlines, hlines', htimes, hrow]
  · have hnone : p.Accepted → ∀ device, edgeDevice edge topic ≠ .ok device :=
      fun haccepted device hdevice => hok ⟨haccepted, device, hdevice⟩
    rw [readingLines_refused hw hnone, readingLines_refused hw' fun h =>
      hnone ((accepted_iff htime hperm).mp h)]

end

/-! ## Fields -/

/-- The fields that `decode_metric` reads. -/
def Field.inMetric (field : Field) : Bool := field.number ∈ [1, 3, 7, 10, 11, 12, 13, 14]

theorem metricField_unknown {metric : MetricDict} {field : Field} (h : field.inMetric = false) :
    metricField metric field = .ok metric := by
  unfold metricField
  split <;> simp_all [Field.inMetric]

/-- What `decode_metric` looks at: the fields it reads, and how the generator ends. -/
def SameBody (b b' : Bytes) : Prop :=
  (decodeFields b').raised = (decodeFields b).raised ∧
    (decodeFields b').yielded.filter (·.inMetric) = (decodeFields b).yielded.filter (·.inMetric)

/-- Unknown fields of a metric do not matter. -/
theorem decodeMetric_same {b b' : Bytes} (h : SameBody b b') : decodeMetric b' = decodeMetric b := by
  have hfilter : ∀ fields : List Field, fields.foldlM metricField {} =
      (fields.filter (·.inMetric)).foldlM metricField {} := by
    intro fields
    rw [List.foldlM_filter]
    congr 1
    funext metric field
    cases hknown : field.inMetric with
    | false => exact metricField_unknown hknown
    | true => rfl
  unfold decodeMetric Fields.forEach
  rw [h.1, hfilter, h.2, ← hfilter]

/-- The fields of a payload with this number. -/
def numbered (n : ℕ) (fields : List Field) : List Field := fields.filter (·.number = n)

/-- The metric that a field holds. -/
def Field.Decodes (field : Field) (metric : MetricDict) : Prop :=
  ∃ b, field.value = .bytes b ∧ decodeMetric b = .ok metric

theorem last_cons (field : Field) (fields : List Field) (value : Option FieldValue) :
    ((field :: fields).getLast?.map Field.value).or value =
      (fields.getLast?.map Field.value).or (some field.value) := by
  rw [List.getLast?_cons]
  cases fields.getLast? <;> rfl

/-- What the loop of `decode_sparkplug_payload` comes to. -/
theorem foldlM_payloadField {fields : List Field} {start p : Payload} :
    fields.foldlM payloadField start = .ok p ↔
      ∃ metrics, List.Forall₂ Field.Decodes (numbered 2 fields) metrics ∧
        p = { seq := ((numbered 3 fields).getLast?.map Field.value).or start.seq
              timestamp := ((numbered 1 fields).getLast?.map Field.value).or start.timestamp
              metrics := start.metrics ++ metrics } := by
  induction fields generalizing start with
  | nil =>
    constructor
    · intro h
      cases h
      exact ⟨[], .nil, by simp [numbered]⟩
    · rintro ⟨metrics, hmetrics, rfl⟩
      cases hmetrics
      simp [numbered, pure, Except.pure]
  | cons field fields ih =>
    have hskip : ∀ n, field.number ≠ n → numbered n (field :: fields) = numbered n fields :=
      fun n h => List.filter_cons_of_neg (by simpa using h)
    have htake : numbered field.number (field :: fields) = field :: numbered field.number fields :=
      List.filter_cons_of_pos (by simp)
    rw [List.foldlM_cons]
    unfold payloadField
    split
    · rename_i hnumber
      rw [hnumber] at htake
      rw [hskip 2 (by omega), hskip 3 (by omega), htake, last_cons]
      exact ih
    · rename_i hnumber
      rw [hnumber] at htake
      rw [hskip 1 (by omega), hskip 3 (by omega), htake]
      split
      · rename_i n hvalue
        refine iff_of_false (fun h => by cases h) ?_
        rintro ⟨metrics, hmetrics, -⟩
        obtain ⟨m, -, ⟨b, hb, -⟩, -, -⟩ := List.forall₂_cons_left_iff.mp hmetrics
        rw [hvalue] at hb
        cases hb
      · rename_i b hvalue
        rcases hmetric : decodeMetric b with e | metric
        · refine iff_of_false (fun h => by cases h) ?_
          rintro ⟨metrics, hmetrics, -⟩
          obtain ⟨m, -, ⟨b', hb', hm⟩, -, -⟩ := List.forall₂_cons_left_iff.mp hmetrics
          obtain rfl := FieldValue.bytes.inj (hvalue.symm.trans hb')
          rw [hmetric] at hm
          cases hm
        · refine ih.trans ?_
          constructor
          · rintro ⟨metrics, hmetrics, rfl⟩
            exact ⟨metric :: metrics, .cons ⟨b, hvalue, hmetric⟩ hmetrics, by simp⟩
          · rintro ⟨metrics, hmetrics, rfl⟩
            obtain ⟨m, rest, ⟨b', hb', hm⟩, hrest, rfl⟩ := List.forall₂_cons_left_iff.mp hmetrics
            obtain rfl := FieldValue.bytes.inj (hvalue.symm.trans hb')
            obtain rfl := Except.ok.inj (hmetric.symm.trans hm)
            exact ⟨rest, hrest, by simp⟩
    · rename_i hnumber
      rw [hnumber] at htake
      rw [hskip 1 (by omega), hskip 2 (by omega), htake, last_cons]
      exact ih
    · rename_i h1 h2 h3
      rw [hskip 1 h1, hskip 2 h2, hskip 3 h3]
      exact ih

theorem forEach_ok_iff {σ : Type} {fields : Fields} {s t : σ}
    {body : σ → Field → Except PyError σ} :
    fields.forEach s body = .ok t ↔ fields.raised = none ∧ fields.yielded.foldlM body s = .ok t := by
  unfold Fields.forEach
  cases hraised : fields.raised with
  | none =>
    rw [and_iff_right rfl, bind_ok]
    constructor
    · rintro ⟨t', ht', h⟩
      cases h
      exact ht'
    · exact fun h => ⟨t, h, rfl⟩
  | some e =>
    refine iff_of_false (fun h => ?_) fun h => by cases h.1
    obtain ⟨t', -, h⟩ := bind_ok.mp h
    cases h

/-- A field that holds the same metric, up to its unknown fields. -/
def SameMetric (field field' : Field) : Prop :=
  ∃ b b', field.value = .bytes b ∧ field'.value = .bytes b' ∧ SameBody b b'

/-- The same metrics in any order, with the payload timestamp, the sequence number and unknown
fields anywhere. -/
structure Rearranged (data data' : Bytes) : Prop where
  raised : (decodeFields data').raised = (decodeFields data).raised
  timestamp : numbered 1 (decodeFields data').yielded = numbered 1 (decodeFields data).yielded
  metrics : ∃ l, l.Perm (numbered 2 (decodeFields data).yielded) ∧
    List.Forall₂ SameMetric l (numbered 2 (decodeFields data').yielded)

/-- The same metrics in their order, with the payload timestamp, the sequence number and unknown
fields anywhere. -/
structure Interspersed (data data' : Bytes) : Prop where
  raised : (decodeFields data').raised = (decodeFields data).raised
  timestamp : numbered 1 (decodeFields data').yielded = numbered 1 (decodeFields data).yielded
  metrics : List.Forall₂ SameMetric (numbered 2 (decodeFields data).yielded)
    (numbered 2 (decodeFields data').yielded)

theorem decodes_same {l fields : List Field} {metrics : List MetricDict}
    (h : List.Forall₂ Field.Decodes l metrics) (hsame : List.Forall₂ SameMetric l fields) :
    List.Forall₂ Field.Decodes fields metrics := by
  induction hsame generalizing metrics with
  | nil => exact h
  | cons hfield _ ih =>
    obtain ⟨m, rest, ⟨b, hb, hm⟩, hrest, rfl⟩ := List.forall₂_cons_left_iff.mp h
    obtain ⟨b₁, b', hb₁, hb', hbody⟩ := hfield
    obtain rfl := FieldValue.bytes.inj (hb.symm.trans hb₁)
    exact .cons ⟨b', hb', (decodeMetric_same hbody).trans hm⟩ (ih hrest)

/-- A message that holds the metrics of `l`, up to their unknown fields. -/
theorem decode_same {data data' : Bytes} {p : Payload} {l : List Field}
    {metrics : List MetricDict} (h : decodeSparkplugPayload data = .ok p)
    (hraised : (decodeFields data').raised = (decodeFields data).raised)
    (htime : numbered 1 (decodeFields data').yielded = numbered 1 (decodeFields data).yielded)
    (hl : List.Forall₂ Field.Decodes l metrics)
    (hsame : List.Forall₂ SameMetric l (numbered 2 (decodeFields data').yielded)) :
    ∃ p', decodeSparkplugPayload data' = .ok p' ∧ p'.timestamp = p.timestamp ∧
      p'.metrics = metrics := by
  obtain ⟨hnone, hfields⟩ := forEach_ok_iff.mp h
  obtain ⟨-, -, rfl⟩ := foldlM_payloadField.mp hfields
  refine ⟨_, forEach_ok_iff.mpr ⟨hraised.trans hnone,
    foldlM_payloadField.mpr ⟨metrics, decodes_same hl hsame, rfl⟩⟩, ?_, rfl⟩
  rw [htime]

/-- The metrics of a message, as its fields hold them. -/
theorem decoded_metrics {data : Bytes} {p : Payload} (h : decodeSparkplugPayload data = .ok p) :
    List.Forall₂ Field.Decodes (numbered 2 (decodeFields data).yielded) p.metrics := by
  obtain ⟨-, hfields⟩ := forEach_ok_iff.mp h
  obtain ⟨metrics, hmetrics, rfl⟩ := foldlM_payloadField.mp hfields
  simpa using hmetrics

theorem decode_rearranged {data data' : Bytes} {p : Payload}
    (h : decodeSparkplugPayload data = .ok p) (hr : Rearranged data data') :
    ∃ p', decodeSparkplugPayload data' = .ok p' ∧ p'.timestamp = p.timestamp ∧
      p'.metrics.Perm p.metrics := by
  obtain ⟨l, hperm, hsame⟩ := hr.metrics
  obtain ⟨metrics, hmetrics, hperm'⟩ := List.perm_comp_forall₂ hperm (decoded_metrics h)
  obtain ⟨p', hdecode, htime, rfl⟩ := decode_same h hr.raised hr.timestamp hmetrics hsame
  exact ⟨p', hdecode, htime, hperm'⟩

theorem decode_interspersed {data data' : Bytes} {p : Payload}
    (h : decodeSparkplugPayload data = .ok p) (hi : Interspersed data data') :
    ∃ p', decodeSparkplugPayload data' = .ok p' ∧ p'.timestamp = p.timestamp ∧
      p'.metrics = p.metrics :=
  decode_same h hi.raised hi.timestamp (decoded_metrics h) hi.metrics

/-! ## The lines of two messages -/

/-- Messages that decode differ only through their payloads. -/
theorem buildSparkplugLines_congr {topic : Str} {data data' : Bytes} {p p' : Payload}
    (h : decodeSparkplugPayload data = .ok p) (h' : decodeSparkplugPayload data' = .ok p')
    (hlines : ∀ edge, readingLines rt topic edge p' = readingLines rt topic edge p) :
    buildSparkplugLines rt topic data' = buildSparkplugLines rt topic data := by
  unfold buildSparkplugLines
  rw [h, h']
  split
  · rename_i edge _ _
    simp only [bind, Except.bind, hlines]
  · rfl

/-- The lines of a message: one for each timestamp with a metric that counts, in increasing order,
with the last values that the metrics give for it. -/
structure Grouped (rt : Runtime) (p : Payload) (lines : List Line) : Prop where
  rows : ∃ ts : List ℕ, ts.Pairwise (· < ·) ∧
    (∀ t, t ∈ ts ↔ ∃ m ∈ p.metrics, m.counts ∧ m.timestamp.or p.timestamp = some (.int t)) ∧
    List.Forall₂ (fun (t : ℕ) line => timestampNs rt 0 (.int t) = .ok line.timestampNs ∧
      line.fields = rowFields (p.given rt) t) ts lines
  device : ∃ device, ∀ line ∈ lines, line.deviceId = device

theorem grouped_rows {p : Payload} (hw : p.WellTyped rt) {device : Str} {ts : List ℕ}
    (hrise : ts.Pairwise (· < ·)) (hts : ∀ t, t ∈ ts ↔
      ∃ m ∈ p.metrics, m.counts ∧ m.timestamp.or p.timestamp = some (.int t)) :
    Grouped rt p (ts.map (row rt device (p.given rt))) := by
  refine ⟨⟨ts, hrise, hts, ?_⟩, device, fun line hline => ?_⟩
  · refine List.forall₂_map_right_iff.mpr (List.forall₂_same.mpr ?_)
    refine fun t ht => ⟨?_, rfl⟩
    obtain ⟨g, hg, rfl⟩ := (hw.times t).mpr ((hts t).mp ht)
    obtain ⟨-, -, ns, hns⟩ := hw.sound g hg
    rw [row, hns]
    rfl
  · obtain ⟨t, -, rfl⟩ := List.mem_map.mp hline
    rfl

/-- **The rows of an NDATA depend only on its set of metrics.** A well-typed
message is rejected as a whole, or its lines are the rows of its metrics; and it
has the same result as every message with the same metrics that count in any
order in which their pairs are distinct, or with the same ones in the same order,
as every message whose fields are rearranged, and, also where pairs are given twice, as
every message with the same metrics in their order among other fields. -/
theorem sparkplug_rows {topic : Str} {data : Bytes} {p : Payload}
    (hdecode : decodeSparkplugPayload data = .ok p) (hw : p.WellTyped rt) :
    (∀ group messageType edge rest,
      split topic '/'.toNat = sparkplugNamespace :: group :: messageType :: edge :: rest →
      messageType = str "NDATA" ∨ messageType = str "DDATA" →
      (p.Accepted ∧ ∃ device, edgeDevice edge topic = .ok device) ∧
          (∃ lines, buildSparkplugLines rt topic data = .ok lines ∧ Grouped rt p lines) ∨
        ¬(p.Accepted ∧ ∃ device, edgeDevice edge topic = .ok device) ∧
          buildSparkplugLines rt topic data = .error .valueError) ∧
    (∀ data' p', decodeSparkplugPayload data' = .ok p' → p'.timestamp = p.timestamp →
      (p'.metrics.filter (·.counts) = p.metrics.filter (·.counts) ∨
        (p'.metrics.filter (·.counts)).Perm (p.metrics.filter (·.counts)) ∧ p.pairs.Nodup) →
      buildSparkplugLines rt topic data' = buildSparkplugLines rt topic data) ∧
    (∀ data', Rearranged data data' → p.pairs.Nodup →
      buildSparkplugLines rt topic data' = buildSparkplugLines rt topic data) ∧
    (∀ data', Interspersed data data' →
      buildSparkplugLines rt topic data' = buildSparkplugLines rt topic data) := by
  refine ⟨?_, ?_, ?_, ?_⟩
  · intro group messageType edge rest hsplit htype
    have hbirth : messageType ≠ str "NBIRTH" := by
      rcases htype with rfl | rfl <;> decide
    have hbuild : buildSparkplugLines rt topic data = readingLines rt topic edge p := by
      simp only [buildSparkplugLines, hsplit, hdecode, bind, Except.bind]
      rw [if_neg (by simp), if_neg hbirth, if_pos htype]
    rw [hbuild]
    by_cases hok : p.Accepted ∧ ∃ device, edgeDevice edge topic = .ok device
    · obtain ⟨haccepted, device, hdevice⟩ := hok
      obtain ⟨ts, hlines, hrise, hts⟩ := readingLines_rows hw haccepted hdevice
      exact .inl ⟨⟨haccepted, device, hdevice⟩, _, hlines, grouped_rows hw hrise hts⟩
    · exact .inr ⟨hok, readingLines_refused hw fun haccepted device hdevice =>
        hok ⟨haccepted, device, hdevice⟩⟩
  · rintro data' p' hdecode' htime (hcounted | ⟨hperm, hdistinct⟩)
    · exact buildSparkplugLines_congr hdecode hdecode' fun edge =>
        readingLines_counted htime hcounted topic edge
    · exact buildSparkplugLines_congr hdecode hdecode' fun edge =>
        readingLines_perm htime hperm hw hdistinct topic edge
  · intro data' hr hdistinct
    obtain ⟨p', hdecode', htime, hperm⟩ := decode_rearranged hdecode hr
    exact buildSparkplugLines_congr hdecode hdecode' fun edge =>
      readingLines_perm htime (hperm.filter _) hw hdistinct topic edge
  · intro data' hi
    obtain ⟨p', hdecode', htime, hmetrics⟩ := decode_interspersed hdecode hi
    exact buildSparkplugLines_congr hdecode hdecode' fun edge =>
      readingLines_counted htime (by rw [hmetrics]) topic edge

/-- The topic of an NDATA. -/
def sampleTopic : Str := str "spBv1.0/aitsm/NDATA/thingy91x"

/-- 1700000000000 ms, 21 degrees and 50 %. -/
def wholeReading : Bytes :=
  [0x08, 0x80, 0xd0, 0x95, 0xff, 0xbc, 0x31,
    0x12, 0x0f, 0x0a, 0x0b, 0x74, 0x65, 0x6d, 0x70, 0x65, 0x72, 0x61, 0x74, 0x75, 0x72, 0x65, 0x50,
    0x15,
    0x12, 0x0b, 0x0a, 0x07, 0x62, 0x61, 0x74, 0x74, 0x65, 0x72, 0x79, 0x50, 0x32]

/-- The same with the battery first, with an alias, and the timestamp last, after a sequence
number. -/
def swappedReading : Bytes :=
  [0x12, 0x0d, 0x0a, 0x07, 0x62, 0x61, 0x74, 0x74, 0x65, 0x72, 0x79, 0x10, 0x05, 0x50, 0x32,
    0x12, 0x0f, 0x0a, 0x0b, 0x74, 0x65, 0x6d, 0x70, 0x65, 0x72, 0x61, 0x74, 0x75, 0x72, 0x65, 0x50,
    0x15,
    0x18, 0x07, 0x08, 0x80, 0xd0, 0x95, 0xff, 0xbc, 0x31]

/-- The payload of the first. -/
def wholePayload : Payload :=
  { timestamp := some (.int 1700000000000)
    metrics := [{ name := some (str "temperature"), value := some (.int 21) },
      { name := some (str "battery"), value := some (.int 50) }] }

theorem wholeReading_decodes : decodeSparkplugPayload wholeReading = .ok wholePayload := by
  rfl

theorem wholePayload_wellTyped : wholePayload.WellTyped bareRuntime := by
  have htime : timestampNs bareRuntime 0 (.int 1700000000000) = .ok 1700000000000000000 := by
    decide +kernel
  have hvalue : ∀ n ∈ [21, 50], PyFloat.ofInt n = .ok (PyFloat.ofFraction false n.toNat 1) ∧
      (PyFloat.ofFraction false n.toNat 1).isFinite := by
    decide +kernel
  intro m hm _
  simp only [wholePayload, List.mem_cons, List.not_mem_nil, or_false] at hm
  rcases hm with rfl | rfl
  · refine ⟨fun t ht => ⟨_, _, (Option.some.inj ht).symm, htime⟩, fun v hv => ?_⟩
    obtain rfl := Option.some.inj hv
    exact ⟨_, hvalue 21 (by simp)⟩
  · refine ⟨fun t ht => ⟨_, _, (Option.some.inj ht).symm, htime⟩, fun v hv => ?_⟩
    obtain rfl := Option.some.inj hv
    exact ⟨_, hvalue 50 (by simp)⟩

theorem swappedReading_rearranged : Rearranged wholeReading swappedReading := by
  have hmetrics : numbered 2 (decodeFields swappedReading).yielded =
      [⟨2, 2, .bytes (swappedReading.drop 2 |>.take 13)⟩,
        ⟨2, 2, .bytes (swappedReading.drop 17 |>.take 15)⟩] := by
    decide +kernel
  refine ⟨by decide +kernel, by decide +kernel,
    [⟨2, 2, .bytes (wholeReading.drop 26 |>.take 11)⟩,
      ⟨2, 2, .bytes (wholeReading.drop 9 |>.take 15)⟩], by decide +kernel, ?_⟩
  rw [hmetrics]
  exact .cons ⟨_, _, rfl, rfl, by decide +kernel, by decide +kernel⟩
    (.cons ⟨_, _, rfl, rfl, by decide +kernel, by decide +kernel⟩ .nil)

/-- The line of both. -/
def wholeLine : Line :=
  { deviceId := str "thingy91x"
    fields := [(str "temperature", PyFloat.ofFraction false 21 1),
      (str "battery", PyFloat.ofFraction false 50 1)]
    timestampNs := 1700000000000000000 }

theorem sparkplug_rows_swapped :
    buildSparkplugLines bareRuntime sampleTopic wholeReading = .ok [wholeLine] ∧
    Grouped bareRuntime wholePayload [wholeLine] ∧
    buildSparkplugLines bareRuntime sampleTopic swappedReading = .ok [wholeLine] := by
  have hlines : buildSparkplugLines bareRuntime sampleTopic wholeReading = .ok [wholeLine] := by
    decide +kernel
  obtain ⟨hgrouped, -, hsame, -⟩ :=
    @sparkplug_rows bareRuntime sampleTopic _ _ wholeReading_decodes wholePayload_wellTyped
  refine ⟨hlines, ?_, (hsame _ swappedReading_rearranged (by decide +kernel)).trans hlines⟩
  rcases hgrouped (str "aitsm") (str "NDATA") (str "thingy91x") [] (by decide +kernel) (.inl rfl) with
    ⟨-, lines, hbuilt, hgrouped⟩ | ⟨-, herror⟩
  · rw [hlines] at hbuilt
    rwa [Except.ok.inj hbuilt]
  · rw [hlines] at herror
    cases herror

/-- 1700000000000 ms and the temperature of the firmware's sample, a `float` near 28.45. -/
def floatReading : Bytes :=
  [0x08, 0x80, 0xd0, 0x95, 0xff, 0xbc, 0x31,
    0x12, 0x12, 0x0a, 0x0b, 0x74, 0x65, 0x6d, 0x70, 0x65, 0x72, 0x61, 0x74, 0x75, 0x72, 0x65, 0x65,
    0x9a, 0x99, 0xe3, 0x41]

/-- Its payload. -/
def floatPayload : Payload :=
  { timestamp := some (.int 1700000000000)
    metrics := [{ name := some (str "temperature")
                  value := some (.float (PyFloat.ofBinary32 0x41e3999a)) }] }

/-- Its line, with 28.45. -/
def floatLine : Line :=
  { deviceId := str "thingy91x", fields := [(str "temperature", PyFloat.ofFraction false 2845 100)]
    timestampNs := 1700000000000000000 }

theorem floatReading_decodes : decodeSparkplugPayload floatReading = .ok floatPayload := by
  rfl

theorem floatPayload_wellTyped : floatPayload.WellTyped bareRuntime := by
  have htime : timestampNs bareRuntime 0 (.int 1700000000000) = .ok 1700000000000000000 := by
    decide +kernel
  intro m hm _
  obtain rfl := List.mem_singleton.mp hm
  refine ⟨fun t ht => ⟨_, _, (Option.some.inj ht).symm, htime⟩, fun v hv => ?_⟩
  obtain rfl := Option.some.inj hv
  exact ⟨_, rfl, by decide +kernel⟩

/-- **A value is rounded** on its way to the line. -/
theorem value_rounded :
    ¬∀ data p lines, decodeSparkplugPayload data = .ok p → p.WellTyped bareRuntime →
      buildSparkplugLines bareRuntime sampleTopic data = .ok lines →
      ∀ line ∈ lines, ∀ f ∈ line.fields, ∃ g ∈ p.given bareRuntime, f = g.2 := by
  intro h
  have hlines : buildSparkplugLines bareRuntime sampleTopic floatReading = .ok [floatLine] := by
    decide +kernel
  obtain ⟨g, hg, heq⟩ := h _ _ _ floatReading_decodes floatPayload_wellTyped hlines floatLine
    List.mem_cons_self _ List.mem_cons_self
  have hgiven : ∀ g ∈ floatPayload.given bareRuntime,
      (str "temperature", PyFloat.ofFraction false 2845 100) ≠ g.2 := by
    decide +kernel
  exact hgiven g hg heq

end Aitsm.Ingest
