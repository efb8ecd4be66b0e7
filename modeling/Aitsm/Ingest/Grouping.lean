import Aitsm.Ingest.EndToEnd

/-!
# The rows of an NDATA

`build_sparkplug_lines` groups the metrics of a message by their timestamps in a
dictionary of dictionaries, and sorts it. What comes out is a table: `given` is
what the metrics say, one entry a metric that counts, and `row` is the line of
one timestamp, made from the last value of each name. The readings hold these
values (`Collected`), and the lines are the rows of the timestamps in increasing
order (`readingLines_rows`).
-/

namespace Aitsm.Ingest

open Library Library.Wire

variable (rt : Runtime)

/-! ## What the metrics say -/

/-- Its timestamp, if it has one, is an integer that `timestamp_ns` accepts, and its value is a
finite number. -/
structure MetricDict.WellTyped (payloadTimestamp : Option FieldValue) (m : MetricDict) : Prop where
  timestamp : ∀ t, m.timestamp.or payloadTimestamp = some t →
    ∃ n ns, t = .int n ∧ timestampNs rt 0 (.int n) = .ok ns
  value : ∀ v, m.value = some v → ∃ x, v.toFloat rt = .ok x ∧ x.isFinite

/-- The metrics that count are well typed. -/
def Payload.WellTyped (p : Payload) : Prop :=
  ∀ m ∈ p.metrics, m.counts → m.WellTyped rt p.timestamp

/-- What a metric says: a timestamp, a name and a value. -/
abbrev Given : Type := ℕ × Str × PyFloat

/-- What a metric that counts says. -/
def MetricDict.given (payloadTimestamp : Option FieldValue) (m : MetricDict) : Option Given :=
  if m.counts then
    match m.timestamp.or payloadTimestamp, m.name,
      m.value.bind fun v => (v.toFloat rt).toOption with
    | some (.int t), some name, some x => some (t, name, x)
    | _, _, _ => none
  else none

/-- What the metrics of a message say, in their order. -/
def Payload.given (p : Payload) : List Given := p.metrics.filterMap (·.given rt p.timestamp)

/-- The last value for a timestamp and a name. -/
def lastGiven (given : List Given) (t : ℕ) (name : Str) : Option PyFloat :=
  ((given.filter fun g => g.1 = t ∧ g.2.1 = name).getLast?).map (·.2.2)

@[simp] theorem lastGiven_nil (t : ℕ) (name : Str) : lastGiven [] t name = none := rfl

@[simp] theorem lastGiven_concat (given : List Given) (g : Given) (t : ℕ) (name : Str) :
    lastGiven (given ++ [g]) t name =
      if g.1 = t ∧ g.2.1 = name then some g.2.2 else lastGiven given t name := by
  unfold lastGiven
  rw [List.filter_append]
  by_cases h : g.1 = t ∧ g.2.1 = name
  · simp [h]
  · rw [if_neg h, List.filter_cons_of_neg (by simpa using h), List.filter_nil, List.append_nil]

/-- The fields of the row of a timestamp: its last values, rounded to two decimals. -/
def rowFields (given : List Given) (t : ℕ) : List (Str × PyFloat) :=
  numericFields.filterMap fun name => (lastGiven given t name).map fun x => (name, x.round2)

variable {rt}

theorem MetricDict.counts_iff (m : MetricDict) :
    m.counts ↔ (∃ name ∈ numericFields, m.name = some name) ∧ m.isNull = false ∧
      ∃ v, m.value = some v := by
  obtain ⟨name, timestamp, isNull, value⟩ := m
  cases name <;> cases value <;> simp [MetricDict.counts]

/-- A metric that does not count is skipped. -/
theorem addReading_of_not_counts {payloadTimestamp : Option FieldValue} {readings : Readings}
    {m : MetricDict} (h : m.counts = false) :
    addReading rt payloadTimestamp readings m = .ok readings := by
  obtain ⟨name, timestamp, isNull, value⟩ := m
  cases name with
  | none => rfl
  | some name =>
    cases value with
    | none => rfl
    | some value =>
      have hskip : name ∉ numericFields ∨ isNull = true := by
        by_contra hno
        rw [not_or, not_not, Bool.not_eq_true] at hno
        simp [MetricDict.counts, hno.1, hno.2] at h
      exact if_pos hskip

theorem foldlM_addReading_filter {payloadTimestamp : Option FieldValue} (metrics : List MetricDict)
    (readings : Readings) :
    metrics.foldlM (addReading rt payloadTimestamp) readings =
      (metrics.filter (·.counts)).foldlM (addReading rt payloadTimestamp) readings := by
  rw [List.foldlM_filter]
  congr 1
  funext readings m
  cases hcounts : m.counts with
  | false => exact addReading_of_not_counts hcounts
  | true => rfl

/-- What a metric that counts adds to the readings. -/
def collect (readings : Readings) (g : Given) : Readings :=
  readings.set (.int g.1) g.2.1 g.2.2.round2

theorem addReading_of_counts {payloadTimestamp : Option FieldValue} {m : MetricDict}
    (h : m.counts) (hw : m.WellTyped rt payloadTimestamp) :
    (m.timestamp.or payloadTimestamp = none ∧ m.given rt payloadTimestamp = none ∧
      ∀ readings, addReading rt payloadTimestamp readings m = .error .valueError) ∨
    ∃ g, m.given rt payloadTimestamp = some g ∧
      m.timestamp.or payloadTimestamp = some (.int g.1) ∧ g.2.1 ∈ numericFields ∧
      g.2.2.isFinite ∧ (∃ ns, timestampNs rt 0 (.int g.1) = .ok ns) ∧
      ∀ readings, addReading rt payloadTimestamp readings m = .ok (collect readings g) := by
  obtain ⟨⟨name, hnumeric, hname⟩, hnull, v, hv⟩ := (MetricDict.counts_iff m).mp h
  obtain ⟨x, hx, hfinite⟩ := hw.value v hv
  have hkeep : ¬(name ∉ numericFields ∨ m.isNull = true) := by simp [hnumeric, hnull]
  rcases ht : m.timestamp.or payloadTimestamp with _ | t
  · refine .inl ⟨rfl, by simp [MetricDict.given, ht], fun readings => ?_⟩
    simp only [addReading, hname, hv, ht, if_neg hkeep]
  · obtain ⟨n, ns, rfl, hns⟩ := hw.timestamp t ht
    refine .inr ⟨(n, name, x), by simp [MetricDict.given, ht, h, hname, hv, hx, Except.toOption], rfl, hnumeric,
      hfinite, ⟨ns, hns⟩, fun readings => ?_⟩
    simp only [addReading, hname, hv, ht, if_neg hkeep, hx, bind, Except.bind, pure, Except.pure,
      collect]

theorem given_of_not_counts {payloadTimestamp : Option FieldValue} {m : MetricDict}
    (h : m.counts = false) : m.given rt payloadTimestamp = none := by
  simp [MetricDict.given, h]

section

variable {payloadTimestamp : Option FieldValue} {metrics : List MetricDict}
  (hw : ∀ m ∈ metrics, m.counts → m.WellTyped rt payloadTimestamp)
include hw

/-- The loop over the metrics, when every one that counts has a timestamp. -/
theorem foldlM_addReading_ok
    (hall : ∀ m ∈ metrics, m.counts → m.timestamp.or payloadTimestamp ≠ none)
    (readings : Readings) :
    metrics.foldlM (addReading rt payloadTimestamp) readings =
      .ok ((metrics.filterMap (·.given rt payloadTimestamp)).foldl collect readings) := by
  induction metrics generalizing readings with
  | nil => rfl
  | cons m metrics ih =>
    have hrest := ih (fun m hm => hw m (List.mem_cons_of_mem _ hm))
      fun m hm => hall m (List.mem_cons_of_mem _ hm)
    rw [List.foldlM_cons]
    cases hcounts : m.counts with
    | false =>
      rw [addReading_of_not_counts hcounts, List.filterMap_cons_none (given_of_not_counts hcounts)]
      exact hrest readings
    | true =>
      rcases addReading_of_counts hcounts (hw m List.mem_cons_self hcounts) with
        ⟨hnone, -⟩ | ⟨g, hg, -, -, -, -, hadd⟩
      · exact absurd hnone (hall m List.mem_cons_self hcounts)
      · rw [hadd, List.filterMap_cons_some hg, List.foldl_cons]
        exact hrest _

/-- And when one has none. -/
theorem foldlM_addReading_error
    (hmissing : ∃ m ∈ metrics, m.counts ∧ m.timestamp.or payloadTimestamp = none)
    (readings : Readings) :
    metrics.foldlM (addReading rt payloadTimestamp) readings = .error .valueError := by
  induction metrics generalizing readings with
  | nil =>
    obtain ⟨m, hm, -⟩ := hmissing
    cases hm
  | cons m metrics ih =>
    have hrest := ih fun m hm => hw m (List.mem_cons_of_mem _ hm)
    rw [List.foldlM_cons]
    obtain ⟨m', hm', hcounts', hnone'⟩ := hmissing
    cases hcounts : m.counts with
    | false =>
      rw [addReading_of_not_counts hcounts]
      refine hrest ⟨m', (List.mem_cons.mp hm').resolve_left ?_, hcounts', hnone'⟩ readings
      rintro rfl
      rw [hcounts] at hcounts'
      cases hcounts'
    | true =>
      rcases addReading_of_counts hcounts (hw m List.mem_cons_self hcounts) with
        ⟨-, -, hadd⟩ | ⟨g, -, hsome, -, -, -, hadd⟩
      · rw [hadd]
        rfl
      · rw [hadd]
        refine hrest ⟨m', (List.mem_cons.mp hm').resolve_left ?_, hcounts', hnone'⟩ _
        rintro rfl
        rw [hsome] at hnone'
        cases hnone'

end

/-! ## The readings -/

/-- `readings[timestamp][name]`. -/
def Readings.value? (readings : Readings) (timestamp : FieldValue) (name : Str) :
    Option PyFloat :=
  (readings.lookup timestamp).bind (·.lookup name)

theorem Readings.value?_set (readings : Readings) (timestamp k : FieldValue) (name n : Str)
    (x : PyFloat) : (readings.set timestamp name x).value? k n =
      if k = timestamp ∧ n = name then some x else readings.value? k n := by
  unfold Readings.value? Readings.set
  by_cases hk : k = timestamp
  · subst hk
    rw [lookup_setItem_self, Option.bind_some]
    by_cases hn : n = name
    · rw [if_pos ⟨rfl, hn⟩, hn, lookup_setItem_self]
    · rw [if_neg fun h => hn h.2, lookup_setItem hn]
      cases readings.lookup k <;> rfl
  · rw [if_neg fun h => hk h.1, lookup_setItem hk]

/-- The readings hold the last values of what was given. -/
structure Collected (given : List Given) (readings : Readings) : Prop where
  nodup : (readings.map Prod.fst).Nodup
  keys : ∀ k, k ∈ readings.map Prod.fst ↔ ∃ g ∈ given, k = .int g.1
  value : ∀ t name, readings.value? (.int t) name =
    (lastGiven given t name).map PyFloat.round2

theorem Collected.nil : Collected [] [] :=
  ⟨List.nodup_nil, by simp, fun _ _ => rfl⟩

theorem Collected.concat {given : List Given} {readings : Readings} (h : Collected given readings)
    (g : Given) : Collected (given ++ [g]) (collect readings g) := by
  refine ⟨nodup_keys_setItem h.nodup _ _, fun k => ?_, fun t name => ?_⟩
  · rw [collect, Readings.set, keys_setItem]
    have hkeys := h.keys k
    split
    · rename_i hold
      obtain ⟨g', hg', heq⟩ := (h.keys _).mp hold
      rw [hkeys]
      constructor
      · rintro ⟨g'', hg'', rfl⟩
        exact ⟨g'', List.mem_append_left _ hg'', rfl⟩
      · rintro ⟨g'', hg'', rfl⟩
        rcases List.mem_append.mp hg'' with hg'' | hg''
        · exact ⟨g'', hg'', rfl⟩
        · rw [List.mem_singleton.mp hg'']
          exact ⟨g', hg', heq⟩
    · rw [List.mem_append, hkeys, List.mem_singleton]
      simp only [List.mem_append, List.mem_singleton]
      constructor
      · rintro (⟨g', hg', rfl⟩ | rfl)
        · exact ⟨g', .inl hg', rfl⟩
        · exact ⟨g, .inr rfl, rfl⟩
      · rintro ⟨g', hg' | rfl, rfl⟩
        · exact .inl ⟨g', hg', rfl⟩
        · exact .inr rfl
  · rw [collect, Readings.value?_set, lastGiven_concat, h.value]
    by_cases hsame : g.1 = t ∧ g.2.1 = name
    · rw [if_pos ⟨by rw [hsame.1], hsame.2.symm⟩, if_pos hsame, Option.map_some]
    · rw [if_neg hsame, if_neg]
      rintro ⟨ht, hn⟩
      exact hsame ⟨(FieldValue.int.inj ht).symm, hn.symm⟩

theorem collected_foldl (given : List Given) : Collected given (given.foldl collect []) := by
  induction given using List.reverseRecOn with
  | nil => exact .nil
  | append_singleton given g ih =>
    rw [List.foldl_concat]
    exact ih.concat g

/-! ## The lines -/

theorem lastGiven_some {given : List Given} {t : ℕ} {name : Str} {x : PyFloat}
    (h : lastGiven given t name = some x) : (t, name, x) ∈ given := by
  obtain ⟨⟨t', name', x'⟩, hlast, rfl⟩ := Option.map_eq_some_iff.mp h
  have hmem := List.mem_filter.mp (List.mem_of_getLast? hlast)
  obtain ⟨rfl, rfl⟩ := of_decide_eq_true hmem.2
  exact hmem.1

theorem lastGiven_ne_none {given : List Given} {g : Given} (h : g ∈ given) :
    lastGiven given g.1 g.2.1 ≠ none := by
  unfold lastGiven
  rw [Ne, Option.map_eq_none_iff, List.getLast?_eq_none_iff]
  intro hnil
  have hmem : g ∈ given.filter fun g' => g'.1 = g.1 ∧ g'.2.1 = g.2.1 :=
    List.mem_filter.mpr ⟨h, by simp⟩
  rw [hnil] at hmem
  cases hmem

/-- What was given is of the two names, finite, and at a time that is accepted. -/
def Sound (rt : Runtime) (given : List Given) : Prop :=
  ∀ g ∈ given, g.2.1 ∈ numericFields ∧ g.2.2.isFinite ∧
    ∃ ns, timestampNs rt 0 (.int g.1) = .ok ns

/-- `device_id` of the readings of an edge node. -/
def edgeDevice (edgeNodeId topic : Str) : Except PyError Str :=
  deviceId [(str "device_id", .str edgeNodeId)] topic

variable (rt) in
/-- The row of a timestamp. -/
def row (device : Str) (given : List Given) (t : ℕ) : Line :=
  { deviceId := device, fields := rowFields given t,
    timestampNs := (timestampNs rt 0 (.int t)).toOption.getD 0 }

theorem lookup_readingPayload {edge k : Str} {timestamp : FieldValue}
    {values : List (Str × PyFloat)} (hk : k ≠ str "device_id") (hk' : k ≠ str "timestamp") :
    (readingPayload edge timestamp values).lookup k = (values.lookup k).map Value.float := by
  have hfirst : (k == str "device_id") = false := by simpa using hk
  have hsecond : (k == str "timestamp") = false := by simpa using hk'
  rw [readingPayload, List.lookup_cons, hfirst, List.lookup_cons, hsecond]
  dsimp only
  induction values with
  | nil => rfl
  | cons v values ih =>
    rw [List.map_cons, List.lookup_cons, List.lookup_cons, ih]
    split <;> rfl

section

variable {edge topic : Str} {given : List Given} {t : ℕ} {values : List (Str × PyFloat)}
  (hsound : Sound rt given)
  (hvalues : ∀ name, values.lookup name = (lastGiven given t name).map PyFloat.round2)
include hsound hvalues

/-- A reading has no other names. -/
theorem get_readingPayload {k : Str} (hk : k ∉ numericFields) (hdevice : k ≠ str "device_id")
    (htime : k ≠ str "timestamp") :
    (readingPayload edge (.int t) values).lookup k = none := by
  rw [lookup_readingPayload hdevice htime, hvalues]
  rcases hlast : lastGiven given t k with _ | x
  · rfl
  · exact absurd (hsound _ (lastGiven_some hlast)).1 hk

theorem deviceId_reading :
    deviceId (readingPayload edge (.int t) values) topic = edgeDevice edge topic := by
  have hfirst : (readingPayload edge (.int t) values).get (str "device_id") = .str edge := rfl
  have hsecond : (readingPayload edge (.int t) values).get (str "deviceId") = .none := by
    rw [Dict.get, Dict.getD,
      get_readingPayload hsound hvalues (by decide) (by decide) (by decide), Option.getD_none]
  rw [edgeDevice, deviceId, deviceId, hfirst, hsecond]
  rfl

theorem lineFields_reading (hgiven : ∃ g ∈ given, g.1 = t) :
    lineFields rt (readingPayload edge (.int t) values) = .ok (rowFields given t) := by
  have hchip : (readingPayload edge (.int t) values).get (str "chip_temperature") = .none := by
    rw [Dict.get, Dict.getD,
      get_readingPayload hsound hvalues (by decide) (by decide) (by decide), Option.getD_none]
  have hget : ∀ name, name ≠ str "device_id" → name ≠ str "timestamp" →
      finiteNumber rt ((readingPayload edge (.int t) values).get name) =
        .ok ((lastGiven given t name).map PyFloat.round2) := by
    intro name hdevice htime
    rw [Dict.get, Dict.getD, lookup_readingPayload hdevice htime, hvalues]
    rcases hlast : lastGiven given t name with _ | x
    · rfl
    · have hfinite := PyFloat.round2_isFinite (hsound _ (lastGiven_some hlast)).2.1
      simp only [Option.map_some, Option.getD_some, finiteNumber, Runtime.float, bind, Except.bind,
        hfinite, if_true, pure, Except.pure]
  have hfields : ((lastGiven given t (str "temperature")).map PyFloat.round2 |>.map
        (str "temperature", ·)).toList ++
      ((lastGiven given t (str "battery")).map PyFloat.round2 |>.map (str "battery", ·)).toList =
      rowFields given t := by
    simp only [rowFields, numericFields, List.filterMap_cons, List.filterMap_nil]
    cases lastGiven given t (str "temperature") <;> cases lastGiven given t (str "battery") <;> rfl
  have hne : rowFields given t ≠ [] := by
    obtain ⟨g, hg, rfl⟩ := hgiven
    obtain ⟨x, hx⟩ := Option.ne_none_iff_exists'.mp (lastGiven_ne_none hg)
    have hmem : (g.2.1, x.round2) ∈ rowFields given g.1 :=
      List.mem_filterMap.mpr ⟨g.2.1, (hsound g hg).1, by rw [hx, Option.map_some]⟩
    exact List.ne_nil_of_mem hmem
  rw [lineFields, temperatureSource, hchip]
  dsimp only
  rw [hget _ (by decide) (by decide), hget _ (by decide) (by decide)]
  simp only [bind, Except.bind, hfields]
  rw [if_neg (by simpa using hne)]
  rfl

/-- The line of a reading is the row of its timestamp. -/
theorem buildLine_reading {device : Str} (hdevice : edgeDevice edge topic = .ok device)
    (hgiven : ∃ g ∈ given, g.1 = t) :
    buildLine rt 0 (readingPayload edge (.int t) values) topic = .ok (row rt device given t) := by
  have hfields : lineFields rt (readingPayload edge (.int t) values) = .ok (rowFields given t) :=
    lineFields_reading hsound hvalues hgiven
  have hlineValues : lineValues (readingPayload edge (.int t) values) =
      .ok (readingPayload edge (.int t) values) := by
    rw [lineValues, Dict.getD,
      get_readingPayload hsound hvalues (by decide) (by decide) (by decide), Option.getD_none]
  obtain ⟨g, hg, rfl⟩ := hgiven
  obtain ⟨-, -, ns, hns⟩ := hsound g hg
  have htime : timestampNs rt 0 ((readingPayload edge (.int g.1) values).get (str "timestamp")) =
      .ok ns := hns
  simp only [buildLine, deviceId_reading hsound hvalues, hdevice, hlineValues, hfields, htime, bind,
    Except.bind, pure, Except.pure, row, hns, Except.toOption, Option.getD_some]

theorem buildLine_reading_error {e : PyError} (hdevice : edgeDevice edge topic = .error e) :
    buildLine rt 0 (readingPayload edge (.int t) values) topic = .error e := by
  rw [buildLine, deviceId_reading hsound hvalues, hdevice]
  rfl

end

/-! ## The rows -/

/-- The number a timestamp is. -/
def FieldValue.toNat : FieldValue → ℕ
  | .int n => n
  | .bytes _ => 0

theorem lookup_of_mem {readings : Readings} (h : (readings.map Prod.fst).Nodup)
    {e : FieldValue × List (Str × PyFloat)} (he : e ∈ readings) :
    readings.lookup e.1 = some e.2 := by
  obtain ⟨l₁, l₂, rfl⟩ := List.append_of_mem he
  refine List.lookup_eq_some_iff.mpr ⟨l₁, l₂, rfl, fun p hp => ?_⟩
  rw [bne_iff_ne]
  intro heq
  rw [List.map_append, List.map_cons] at h
  exact (List.nodup_append.mp h).2.2 _ (List.mem_map_of_mem hp) _ List.mem_cons_self heq.symm

/-- The timestamps differ and are sorted. -/
theorem Collected.sort {given : List Given} {readings : Readings} (h : Collected given readings) :
    ∃ (sorted : Readings) (ts : List ℕ), sortReadings readings = .ok sorted ∧
      sorted.map Prod.fst = ts.map FieldValue.int ∧ (∀ e ∈ sorted, e ∈ readings) ∧
      ts.Pairwise (· < ·) ∧ ∀ t, t ∈ ts ↔ ∃ g ∈ given, g.1 = t := by
  have hint : ∀ e ∈ readings, (FieldValue.int e.1.toNat, e.2) = e := by
    intro e he
    obtain ⟨g, -, hg⟩ := (h.keys e.1).mp (List.mem_map_of_mem he)
    rw [hg, FieldValue.toNat, ← hg]
  let le := fun a b : FieldValue × List (Str × PyFloat) => decide (a.1.toNat ≤ b.1.toNat)
  have hperm := List.mergeSort_perm readings le
  have hint' : ∀ e ∈ readings.mergeSort le, (FieldValue.int e.1.toNat, e.2) = e :=
    fun e he => hint e (hperm.mem_iff.mp he)
  have hsort := sortReadings_map (fun e => e.1.toNat) Prod.snd readings
  rw [List.map_congr_left hint, List.map_id', List.map_congr_left hint', List.map_id'] at hsort
  refine ⟨readings.mergeSort le, (readings.mergeSort le).map fun e => e.1.toNat, hsort, ?_,
    fun e he => hperm.mem_iff.mp he, ?_, fun t => ?_⟩
  · rw [List.map_map]
    exact List.map_congr_left fun e he => (congrArg Prod.fst (hint' e he)).symm
  · have hsorted : (readings.mergeSort le).Pairwise fun a b => le a b :=
      List.pairwise_mergeSort (by simp [le]; omega) (by simp [le]; omega) readings
    have hdiffer : (readings.mergeSort le).Pairwise fun a b => a.1 ≠ b.1 :=
      List.pairwise_map.mp ((hperm.map Prod.fst).nodup_iff.mpr h.nodup)
    refine List.pairwise_map.mpr ((hsorted.and hdiffer).imp_of_mem fun {a b} ha hb hab => ?_)
    refine lt_of_le_of_ne (of_decide_eq_true hab.1) fun heq => hab.2 ?_
    rw [← hint' a ha, ← hint' b hb, heq]
  · rw [List.mem_map]
    constructor
    · rintro ⟨e, he, rfl⟩
      obtain ⟨g, hg, heq⟩ := (h.keys e.1).mp (List.mem_map_of_mem (hperm.mem_iff.mp he))
      exact ⟨g, hg, by rw [heq, FieldValue.toNat]⟩
    · rintro ⟨g, hg, rfl⟩
      obtain ⟨e, he, heq⟩ := List.mem_map.mp ((h.keys (.int g.1)).mpr ⟨g, hg, rfl⟩)
      exact ⟨e, hperm.mem_iff.mpr he, by rw [heq, FieldValue.toNat]⟩

/-- The reading of a timestamp, as `build_line` gets it. -/
theorem Collected.lookup {given : List Given} {readings : Readings} (h : Collected given readings)
    {t : ℕ} {values : List (Str × PyFloat)} (he : (.int t, values) ∈ readings) (name : Str) :
    values.lookup name = (lastGiven given t name).map PyFloat.round2 := by
  rw [← h.value, Readings.value?, lookup_of_mem h.nodup he, Option.bind_some]

/-- **The lines are the rows**, in the order of their timestamps. -/
theorem sorted_rows {given : List Given} {readings : Readings} (h : Collected given readings)
    (hsound : Sound rt given) {edge topic device : Str}
    (hdevice : edgeDevice edge topic = .ok device) :
    ∃ ts : List ℕ, (sortReadings readings >>= fun sorted =>
        sorted.mapM fun r => buildLine rt 0 (readingPayload edge r.1 r.2) topic) =
          .ok (ts.map (row rt device given)) ∧
      ts.Pairwise (· < ·) ∧ ∀ t, t ∈ ts ↔ ∃ g ∈ given, g.1 = t := by
  obtain ⟨sorted, ts, hsort, hkeys, hmem, hrise, hts⟩ := h.sort
  refine ⟨ts, ?_, hrise, hts⟩
  have hlines : ∀ e ∈ sorted, buildLine rt 0 (readingPayload edge e.1 e.2) topic =
      .ok (row rt device given e.1.toNat) := by
    rintro ⟨k, values⟩ he
    obtain ⟨t, ht, rfl⟩ := List.mem_map.mp (hkeys ▸ List.mem_map_of_mem (f := Prod.fst) he)
    exact buildLine_reading hsound (h.lookup (hmem _ he)) hdevice ((hts t).mp ht)
  have hrows : sorted.map (fun e => row rt device given e.1.toNat) =
      ts.map (row rt device given) := by
    have := congrArg (List.map fun k : FieldValue => row rt device given k.toNat) hkeys
    rw [List.map_map, List.map_map] at this
    exact this
  rw [hsort, ← hrows]
  exact mapM_eq_ok hlines

/-- Without a device there is no first line. -/
theorem sorted_refused {given : List Given} {readings : Readings} (h : Collected given readings)
    (hsound : Sound rt given) (hne : given ≠ []) {edge topic : Str} {e : PyError}
    (hdevice : edgeDevice edge topic = .error e) :
    (sortReadings readings >>= fun sorted =>
      sorted.mapM fun r => buildLine rt 0 (readingPayload edge r.1 r.2) topic) = .error e := by
  obtain ⟨sorted, ts, hsort, hkeys, hmem, -, hts⟩ := h.sort
  obtain ⟨g, hg⟩ := List.exists_mem_of_ne_nil _ hne
  have hg' := (hts g.1).mpr ⟨g, hg, rfl⟩
  cases ts with
  | nil => cases hg'
  | cons t ts =>
    obtain ⟨⟨k, values⟩, rest, rfl, rfl, -⟩ := List.map_eq_cons_iff.mp hkeys
    have hline := buildLine_reading_error hsound (h.lookup (hmem _ List.mem_cons_self)) hdevice
    rw [hsort]
    simp only [bind, Except.bind, List.mapM_cons, hline]

/-! ## Messages -/

/-- Some metric counts, and all that do have a timestamp. -/
structure Payload.Accepted (p : Payload) : Prop where
  counted : ∃ m ∈ p.metrics, m.counts
  timestamps : ∀ m ∈ p.metrics, m.counts → m.timestamp.or p.timestamp ≠ none

theorem Payload.WellTyped.given_mem {p : Payload} (hw : p.WellTyped rt) {g : Given}
    (hg : g ∈ p.given rt) : ∃ m ∈ p.metrics, m.counts ∧ m.given rt p.timestamp = some g ∧
      m.timestamp.or p.timestamp = some (.int g.1) ∧ g.2.1 ∈ numericFields ∧ g.2.2.isFinite ∧
      ∃ ns, timestampNs rt 0 (.int g.1) = .ok ns := by
  obtain ⟨m, hm, hgiven⟩ := List.mem_filterMap.mp hg
  cases hcounts : m.counts with
  | false =>
    rw [given_of_not_counts hcounts] at hgiven
    cases hgiven
  | true =>
    rcases addReading_of_counts hcounts (hw m hm hcounts) with
      ⟨-, hnone, -⟩ | ⟨g', hg', ht, hname, hfinite, hns, -⟩
    · rw [hnone] at hgiven
      cases hgiven
    · obtain rfl := Option.some.inj (hg'.symm.trans hgiven)
      exact ⟨m, hm, hcounts, hgiven, ht, hname, hfinite, hns⟩

theorem Payload.WellTyped.sound {p : Payload} (hw : p.WellTyped rt) : Sound rt (p.given rt) := by
  intro g hg
  obtain ⟨-, -, -, -, -, hrest⟩ := hw.given_mem hg
  exact hrest

/-- The timestamps of what was given. -/
theorem Payload.WellTyped.times {p : Payload} (hw : p.WellTyped rt) (t : ℕ) :
    (∃ g ∈ p.given rt, g.1 = t) ↔
      ∃ m ∈ p.metrics, m.counts ∧ m.timestamp.or p.timestamp = some (.int t) := by
  constructor
  · rintro ⟨g, hg, rfl⟩
    obtain ⟨m, hm, hcounts, -, ht, -⟩ := hw.given_mem hg
    exact ⟨m, hm, hcounts, ht⟩
  · rintro ⟨m, hm, hcounts, ht⟩
    rcases addReading_of_counts hcounts (hw m hm hcounts) with
      ⟨hnone, -⟩ | ⟨g, hg, hsome, -⟩
    · rw [ht] at hnone
      cases hnone
    · rw [ht] at hsome
      exact ⟨g, List.mem_filterMap.mpr ⟨m, hm, hg⟩, (FieldValue.int.inj (Option.some.inj hsome)).symm⟩

/-- The readings of an accepted message. -/
theorem sortedReadings_accepted {p : Payload} (hw : p.WellTyped rt) (h : p.Accepted) :
    sortedReadings rt p = sortReadings ((p.given rt).foldl collect []) ∧ p.given rt ≠ [] := by
  have hne : p.given rt ≠ [] := by
    obtain ⟨m, hm, hcounts⟩ := h.counted
    rcases addReading_of_counts hcounts (hw m hm hcounts) with ⟨hnone, -⟩ | ⟨g, hg, -⟩
    · exact absurd hnone (h.timestamps m hm hcounts)
    · exact List.ne_nil_of_mem (List.mem_filterMap.mpr ⟨m, hm, hg⟩)
  refine ⟨?_, hne⟩
  have hfilled : (p.given rt).foldl collect [] ≠ [] := by
    obtain ⟨g, hg⟩ := List.exists_mem_of_ne_nil _ hne
    have hkey := ((collected_foldl (p.given rt)).keys (.int g.1)).mpr ⟨g, hg, rfl⟩
    rintro hnil
    rw [hnil] at hkey
    cases hkey
  rw [sortedReadings, foldlM_addReading_ok hw h.timestamps]
  exact if_neg fun h => hfilled (List.isEmpty_iff.mp h)

theorem readingLines_rows {p : Payload} (hw : p.WellTyped rt) (h : p.Accepted)
    {topic edge device : Str} (hdevice : edgeDevice edge topic = .ok device) :
    ∃ ts : List ℕ, readingLines rt topic edge p = .ok (ts.map (row rt device (p.given rt))) ∧
      ts.Pairwise (· < ·) ∧
      ∀ t, t ∈ ts ↔ ∃ m ∈ p.metrics, m.counts ∧ m.timestamp.or p.timestamp = some (.int t) := by
  obtain ⟨ts, hlines, hrise, hts⟩ :=
    sorted_rows (collected_foldl (p.given rt)) hw.sound hdevice
  refine ⟨ts, ?_, hrise, fun t => (hts t).trans (hw.times t)⟩
  rw [readingLines_eq, (sortedReadings_accepted hw h).1]
  exact hlines

theorem deviceId_error {d : Dict} {topic : Str} {e : PyError} (h : deviceId d topic = .error e) :
    e = .valueError := by
  unfold deviceId at h
  split at h
  · split at h <;> cases h
    rfl
  · cases h
    rfl

/-- Otherwise the message is refused. -/
theorem readingLines_refused {p : Payload} (hw : p.WellTyped rt) {topic edge : Str}
    (h : p.Accepted → ∀ device, edgeDevice edge topic ≠ .ok device) :
    readingLines rt topic edge p = .error .valueError := by
  rw [readingLines_eq]
  by_cases hcounted : ∃ m ∈ p.metrics, m.counts
  · by_cases hmissing : ∃ m ∈ p.metrics, m.counts ∧ m.timestamp.or p.timestamp = none
    · rw [sortedReadings, foldlM_addReading_error hw hmissing]
      rfl
    · have haccepted : p.Accepted :=
        ⟨hcounted, fun m hm hcounts hnone => hmissing ⟨m, hm, hcounts, hnone⟩⟩
      obtain ⟨hsorted, hne⟩ := sortedReadings_accepted hw haccepted
      rcases hdevice : edgeDevice edge topic with e | device
      · obtain rfl := deviceId_error hdevice
        rw [hsorted]
        exact sorted_refused (collected_foldl _) hw.sound hne hdevice
      · exact absurd hdevice (h haccepted device)
  · have hnone : ∀ m ∈ p.metrics, m.counts → False := fun m hm hcounts => hcounted ⟨m, hm, hcounts⟩
    have hempty : p.metrics.filter (·.counts) = [] :=
      List.filter_eq_nil_iff.mpr fun m hm hcounts => hnone m hm hcounts
    rw [sortedReadings, foldlM_addReading_filter, hempty]
    rfl

end Aitsm.Ingest
