import Aitsm.Ingest.EndToEnd

/-!
# Every message of the firmware comes back

A metric may have any of its fields (`fieldsOf`): the decoder gives back those that it
keeps (`dictOf`), whatever the others are (`decodeMetric_encode`). So a payload of
either type is decoded to the metrics that were put into it, its timestamp and its
sequence number (`payload_round_trip`). The topic is split into what it was made of
(`split_topicText`), and a birth is accepted with nothing to store
(`message_round_trip`).
-/

namespace Aitsm.Ingest

open Library Library.Wire

/-! ## One metric -/

/-- A field that is there when its value is. -/
def presentField {α : Type} (field : α → Bytes × Field) (value : Option α) : List (Bytes × Field) :=
  (value.map field).toList

/-- The field of a number. -/
def numberField (number n : ℕ) : Bytes × Field := (varintField number n, ⟨number, 0, .int n⟩)

/-- The field of a string. -/
def stringField (number : ℕ) (body : Bytes) : Bytes × Field :=
  (lengthField number body, ⟨number, 2, .bytes body⟩)

/-- The field of a value. -/
def valueField : MetricValue → Bytes × Field
  | .longValue v => numberField 11 v.toNat
  | .floatValue bits => (fixed32Field 12 bits, ⟨12, 5, .bytes (littleEndian32 bits)⟩)

/-- The fields of a metric. -/
def fieldsOf (m : Metric) : List (Bytes × Field) :=
  List.flatten [
    presentField (stringField 1) m.name,
    presentField (fun t => numberField 3 t.toNat) m.timestamp,
    presentField (fun d => numberField 4 d.toNat) m.datatype,
    presentField (fun b => numberField 5 b.toNat) m.isHistorical,
    presentField (fun b => numberField 7 b.toNat) m.isNull,
    presentField valueField m.value]

/-- What a value is decoded to. -/
def numberOf : MetricValue → MetricNumber
  | .longValue v => .int v.toNat
  | .floatValue bits => .float (PyFloat.ofBinary32 bits)

/-- What a metric is decoded to: the data type and the mark of a historical value are
not kept. -/
def dictOf (m : Metric) : MetricDict :=
  { name := m.name.bind decodeUtf8
    timestamp := m.timestamp.map fun t => .int t.toNat
    isNull := m.isNull.getD false
    value := m.value.map numberOf }

/-- The name can be sent and read. -/
def Named (m : Metric) : Prop :=
  ∀ name ∈ m.name, name.length < 2 ^ 32 ∧ (decodeUtf8 name).isSome

theorem presentField_fst {α : Type} (field : α → Bytes × Field) (value : Option α) :
    (presentField field value).flatMap Prod.fst = optionalField (fun v => (field v).1) value := by
  cases value with
  | none => rfl
  | some v => simp [presentField, optionalField]

/-- A metric is written field by field. -/
theorem encodeMetricBody_eq (m : Metric) : encodeMetricBody m = (fieldsOf m).flatMap Prod.fst := by
  have hvalue : encodeValue = fun v => (valueField v).1 := by
    funext v
    cases v <;> rfl
  simp only [fieldsOf, List.flatten_cons, List.flatten_nil, List.append_nil, List.flatMap_append,
    presentField_fst]
  simp only [encodeMetricBody, hvalue, List.append_assoc, stringField, numberField]

theorem writes_presentField {α : Type} {field : α → Bytes × Field} {value : Option α}
    (h : ∀ v ∈ value, Writes (field v).1 (field v).2) :
    ∀ f ∈ presentField field value, Writes f.1 f.2 := by
  intro f hf
  obtain ⟨v, hv, rfl⟩ := Option.mem_map.mp (Option.mem_toList.mp hf)
  exact h v hv

theorem writes_numberField {number n : ℕ} (hnumber : number < 16) (hn : n < 2 ^ 64) :
    Writes (numberField number n).1 (numberField number n).2 :=
  writes_varint (by omega) (by omega)

theorem fieldsOf_write {m : Metric} (hname : Named m) : ∀ f ∈ fieldsOf m, Writes f.1 f.2 := by
  have hbool : ∀ b : Bool, b.toNat < 2 ^ 64 := by decide
  intro f hf
  simp only [fieldsOf, List.flatten_cons, List.flatten_nil, List.append_nil, List.mem_append] at hf
  rcases hf with hf | hf | hf | hf | hf | hf
  · refine writes_presentField (fun name h => writes_length (by omega) ?_) f hf
    have := (hname name h).1
    omega
  · exact writes_presentField (fun t _ => writes_numberField (by omega) t.toNat_lt) f hf
  · refine writes_presentField (fun d _ => writes_numberField (by omega) ?_) f hf
    exact d.toNat_lt.trans (by omega)
  · exact writes_presentField (fun b _ => writes_numberField (by omega) (hbool b)) f hf
  · exact writes_presentField (fun b _ => writes_numberField (by omega) (hbool b)) f hf
  · refine writes_presentField (fun v _ => ?_) f hf
    cases v with
    | longValue v => exact writes_numberField (by omega) v.toNat_lt
    | floatValue bits => exact writes_fixed32 (by omega) bits

/-- What a field that is there makes of the dict. -/
theorem foldlM_presentField {α σ : Type} {body : σ → Field → Except PyError σ}
    {field : α → Bytes × Field} {value : Option α} {s t : σ} (hnone : value = none → s = t)
    (hsome : ∀ v, value = some v → body s (field v).2 = .ok t) :
    ((presentField field value).map Prod.snd).foldlM body s = .ok t := by
  cases value with
  | none =>
    rw [hnone rfl]
    rfl
  | some v => simp [presentField, hsome v rfl, bind, Except.bind, pure, Except.pure]

/-- **A metric comes back**, whichever fields it has. -/
theorem decodeMetric_encode {m : Metric} (hname : Named m) :
    decodeMetric (encodeMetricBody m) = .ok (dictOf m) := by
  obtain ⟨name, timestamp, datatype, isHistorical, isNull, value⟩ := m
  have hname' : ((presentField (stringField 1) name).map Prod.snd).foldlM metricField {} =
      .ok { name := name.bind decodeUtf8 } := by
    refine foldlM_presentField (fun h => by rw [h]; rfl) fun b hb => ?_
    obtain ⟨text, htext⟩ := Option.isSome_iff_exists.mp (hname b hb).2
    simp [stringField, metricField, FieldValue.decode, htext, hb, bind, Except.bind, pure,
      Except.pure]
  -- a field that is absent leaves the default, which the dict still has at that point
  have htimestamp : ∀ dict : MetricDict, dict.timestamp = none →
      ((presentField (fun t : UInt64 => numberField 3 t.toNat) timestamp).map Prod.snd).foldlM
        metricField dict = .ok { dict with timestamp := timestamp.map fun t => .int t.toNat } := by
    intro dict hdict
    refine foldlM_presentField (fun h => by rw [h, Option.map_none, ← hdict]) fun t ht => ?_
    rw [ht]
    rfl
  -- the fields that are not kept leave the dict as it is
  have hskipped : ∀ dict : MetricDict,
      ((presentField (fun d : UInt32 => numberField 4 d.toNat) datatype).map Prod.snd).foldlM
        metricField dict = .ok dict ∧
      ((presentField (fun b : Bool => numberField 5 b.toNat) isHistorical).map Prod.snd).foldlM
        metricField dict = .ok dict :=
    fun dict => ⟨foldlM_presentField (fun _ => rfl) fun _ _ => rfl,
      foldlM_presentField (fun _ => rfl) fun _ _ => rfl⟩
  have hisNull : ∀ dict : MetricDict, dict.isNull = false →
      ((presentField (fun b : Bool => numberField 7 b.toNat) isNull).map Prod.snd).foldlM
        metricField dict = .ok { dict with isNull := isNull.getD false } := by
    intro dict hdict
    refine foldlM_presentField (fun h => by rw [h, Option.getD_none, ← hdict]) fun b hb => ?_
    cases b <;> simp [hb, numberField, metricField, FieldValue.truthy]
  have hvalue : ∀ dict : MetricDict, dict.value = none →
      ((presentField valueField value).map Prod.snd).foldlM metricField dict =
        .ok { dict with value := value.map numberOf } := by
    intro dict hdict
    refine foldlM_presentField (fun h => by rw [h, Option.map_none, ← hdict]) fun v hv => ?_
    rw [hv]
    cases v with
    | longValue v => rfl
    | floatValue bits =>
      simp only [valueField, metricField, FieldValue.unpack, littleEndian_littleEndian32,
        UInt32.ofNat_toNat]
      rfl
  rw [decodeMetric, encodeMetricBody_eq, forEach_writes (fieldsOf_write hname)]
  simp only [fieldsOf, List.flatten_cons, List.flatten_nil, List.append_nil, List.map_append,
    List.foldlM_append, bind, Except.bind, hname', htimestamp, (hskipped _).1, (hskipped _).2,
    hisNull, hvalue]
  rfl

/-! ## The payload -/

theorem length_presentField_le {α : Type} {field : α → Bytes × Field} {value : Option α} {n : ℕ}
    (h : ∀ v ∈ value, (field v).1.length ≤ n) :
    ((presentField field value).flatMap Prod.fst).length ≤ n := by
  cases value with
  | none => exact Nat.zero_le _
  | some v => simpa [presentField] using h v rfl

theorem length_numberField_le {number n : ℕ} (hnumber : number < 16) (hn : n < 2 ^ 64) :
    (numberField number n).1.length ≤ 20 := by
  have hkey : (varint (8 * number + 0)).length ≤ 10 := length_varint_le (by omega) (by omega)
  have hvalue : (varint n).length ≤ 10 := length_varint_le (by omega) (by omega)
  rw [numberField, varintField, key, List.length_append]
  omega

theorem length_encodeMetricBody {m : Metric} (hname : Named m) :
    (encodeMetricBody m).length < 2 ^ 70 := by
  have hbool : ∀ b : Bool, b.toNat < 2 ^ 64 := by decide
  have h1 : ((presentField (stringField 1) m.name).flatMap Prod.fst).length ≤ 2 ^ 32 + 20 := by
    refine length_presentField_le fun name hmem => ?_
    have hlen := (hname name hmem).1
    have hkey : (varint (8 * 1 + 2)).length ≤ 10 := length_varint_le (by omega) (by omega)
    have hsize : (varint name.length).length ≤ 10 := length_varint_le (by omega) (by omega)
    rw [stringField, lengthField, key, List.length_append, List.length_append]
    omega
  have h3 := length_presentField_le fun t (_ : t ∈ m.timestamp) =>
    length_numberField_le (show 3 < 16 by omega) t.toNat_lt
  have h4 := length_presentField_le fun d (_ : d ∈ m.datatype) =>
    length_numberField_le (show 4 < 16 by omega) (d.toNat_lt.trans (by omega))
  have h5 := length_presentField_le fun b (_ : b ∈ m.isHistorical) =>
    length_numberField_le (show 5 < 16 by omega) (hbool b)
  have h7 := length_presentField_le fun b (_ : b ∈ m.isNull) =>
    length_numberField_le (show 7 < 16 by omega) (hbool b)
  have h12 : ((presentField valueField m.value).flatMap Prod.fst).length ≤ 20 := by
    refine length_presentField_le fun v _ => ?_
    cases v with
    | longValue v => exact length_numberField_le (by omega) v.toNat_lt
    | floatValue bits =>
      have hkey : (varint (8 * 12 + 5)).length ≤ 10 := length_varint_le (by omega) (by omega)
      have hword : (littleEndian32 bits).length = 4 := rfl
      rw [valueField, fixed32Field, key, List.length_append]
      omega
  rw [encodeMetricBody_eq]
  simp only [fieldsOf, List.flatten_cons, List.flatten_nil, List.append_nil, List.flatMap_append,
    List.length_append]
  omega

/-- The metrics of a payload. -/
def metricsOf (context : MetricsContext) : List Metric :=
  match context.type with
  | .nbirth =>
    [{ name := some metricBdseq, datatype := some datatypeInt64,
       value := some (.longValue context.bdSeq.toUInt64) },
      floatMetric metricTemperature 0 0 false true,
      floatMetric metricBattery 0 0 false true]
  | .ndata =>
    context.measurements.flatMap fun m =>
      [floatMetric metricTemperature (centiFloat m.temperatureCentiCelsius.toInt) m.timestampMs
          context.historical false,
        floatMetric metricBattery (centiFloat m.batteryCentiPercent.toNat) m.timestampMs
          context.historical false]

theorem encodeMetrics_eq (context : MetricsContext) :
    encodeMetrics context = (metricsOf context).flatMap encodeMetric := by
  rw [encodeMetrics, metricsOf]
  cases context.type with
  | nbirth => simp [encodeBdseqMetric, encodeFloatMetric]
  | ndata =>
    rw [List.flatMap_assoc]
    exact List.flatMap_congr fun m _ => by simp [encodeMeasurement, encodeFloatMetric]

/-- The firmware's names can be sent and read. -/
theorem named_metricsOf (context : MetricsContext) : ∀ m ∈ metricsOf context, Named m := by
  have hconst : ∀ name ∈ [metricBdseq, metricTemperature, metricBattery],
      name.length < 2 ^ 32 ∧ (decodeUtf8 name).isSome := by
    decide +kernel
  intro m hm name hname
  refine hconst name ?_
  rw [metricsOf] at hm
  cases htype : context.type with
  | nbirth =>
    simp only [htype, List.mem_cons, List.not_mem_nil, or_false] at hm
    rcases hm with rfl | rfl | rfl <;> obtain rfl := Option.some.inj hname <;> simp
  | ndata =>
    simp only [htype, List.mem_flatMap, List.mem_cons, List.not_mem_nil, or_false] at hm
    obtain ⟨_, -, rfl | rfl⟩ := hm <;> obtain rfl := Option.some.inj hname <;> simp

/-- The timestamp of a payload, unless it is 0. -/
def timestampOf (timestampMs : UInt64) : Option UInt64 :=
  if timestampMs ≠ 0 then some timestampMs else none

/-- The sequence number of a payload, if it has one. -/
def seqOf (hasSeq : Bool) (seq : UInt8) : Option UInt8 := if hasSeq then some seq else none

/-- What a payload is decoded to. -/
def payloadOf (context : MetricsContext) (timestampMs : UInt64) (hasSeq : Bool) (seq : UInt8) :
    Payload :=
  { seq := (seqOf hasSeq seq).map fun s => .int s.toNat
    timestamp := (timestampOf timestampMs).map fun t => .int t.toNat
    metrics := (metricsOf context).map dictOf }

/-- The fields of a payload. -/
def payloadFields (context : MetricsContext) (timestampMs : UInt64) (hasSeq : Bool) (seq : UInt8) :
    List (Bytes × Field) :=
  presentField (fun t : UInt64 => numberField 1 t.toNat)
      (timestampOf timestampMs)
    ++ (metricsOf context).map (fun m => stringField 2 (encodeMetricBody m))
    ++ presentField (fun s : UInt8 => numberField 3 s.toNat) (seqOf hasSeq seq)

theorem payloadBytes_eq (context : MetricsContext) (timestampMs : UInt64) (hasSeq : Bool)
    (seq : UInt8) : payloadBytes context timestampMs hasSeq seq =
      (payloadFields context timestampMs hasSeq seq).flatMap Prod.fst := by
  have hmetrics : ((metricsOf context).map fun m => stringField 2 (encodeMetricBody m)).flatMap
      Prod.fst = encodeMetrics context := by
    rw [encodeMetrics_eq, List.flatMap_map]
    rfl
  rw [payloadFields, List.flatMap_append, List.flatMap_append, hmetrics, presentField_fst,
    presentField_fst, payloadBytes]
  by_cases htime : timestampMs = 0 <;> cases hasSeq <;>
    simp [htime, timestampOf, seqOf, optionalField, numberField]

theorem payloadFields_write (context : MetricsContext) (timestampMs : UInt64) (hasSeq : Bool)
    (seq : UInt8) : ∀ f ∈ payloadFields context timestampMs hasSeq seq, Writes f.1 f.2 := by
  intro f hf
  simp only [payloadFields, List.mem_append, List.mem_map] at hf
  rcases hf with (hf | ⟨m, hm, rfl⟩) | hf
  -- a metric is nested: its own length is what has to fit
  · exact writes_presentField (fun t _ => writes_numberField (by omega) t.toNat_lt) f hf
  · exact writes_length (by omega) (length_encodeMetricBody (named_metricsOf context m hm))
  · refine writes_presentField (fun s _ => writes_numberField (by omega) ?_) f hf
    exact s.toNat_lt.trans (by omega)

/-- The metrics are appended in their order. -/
theorem foldlM_metrics {metrics : List Metric} (hnamed : ∀ m ∈ metrics, Named m) :
    ∀ payload : Payload,
      ((metrics.map fun m => stringField 2 (encodeMetricBody m)).map Prod.snd).foldlM payloadField
        payload = .ok { payload with metrics := payload.metrics ++ metrics.map dictOf } := by
  induction metrics with
  | nil => simp [pure, Except.pure]
  | cons m metrics ih =>
    intro payload
    have hm := decodeMetric_encode (hnamed m List.mem_cons_self)
    have hrest := ih (fun m' hm' => hnamed m' (List.mem_cons_of_mem _ hm'))
      { payload with metrics := payload.metrics ++ [dictOf m] }
    have hfirst : payloadField payload (stringField 2 (encodeMetricBody m)).2 =
        .ok { payload with metrics := payload.metrics ++ [dictOf m] } := by
      simp [stringField, payloadField, hm, bind, Except.bind, pure, Except.pure]
    rw [List.map_cons, List.map_cons, List.foldlM_cons, hfirst]
    simp only [bind, Except.bind]
    rw [hrest]
    simp

/-- **A payload comes back**: the decoder gives the metrics that were put into it, in
their order, its timestamp unless it was 0, and its sequence number. -/
theorem payload_round_trip (context : MetricsContext) (timestampMs : UInt64) (hasSeq : Bool)
    (seq : UInt8) :
    decodeSparkplugPayload (payloadBytes context timestampMs hasSeq seq) =
      .ok (payloadOf context timestampMs hasSeq seq) := by
  rw [decodeSparkplugPayload, payloadBytes_eq,
    forEach_writes (payloadFields_write context timestampMs hasSeq seq), payloadFields,
    List.map_append, List.map_append, List.foldlM_append, List.foldlM_append]
  have htime : ((presentField (fun t : UInt64 => numberField 1 t.toNat)
      (timestampOf timestampMs)).map Prod.snd).foldlM payloadField {} =
      .ok { timestamp := (timestampOf timestampMs).map fun t => .int t.toNat } :=
    foldlM_presentField (fun h => by rw [h]; rfl) fun t ht => by rw [ht]; rfl
  have hseq : ∀ payload : Payload, payload.seq = none →
      ((presentField (fun s : UInt8 => numberField 3 s.toNat) (seqOf hasSeq seq)).map
        Prod.snd).foldlM payloadField payload =
      .ok { payload with seq := (seqOf hasSeq seq).map fun s => .int s.toNat } := by
    intro payload hpayload
    refine foldlM_presentField (fun h => by rw [h, Option.map_none, ← hpayload]) fun s hs => ?_
    rw [hs]
    rfl
  simp only [bind, Except.bind, htime, foldlM_metrics (named_metricsOf context), hseq]
  rfl

/-! ## The topic -/

section Utf8

variable {b0 b1 b2 b3 : UInt8} {rest : Bytes}

theorem decodeUtf8_one (h : b0 < 0x80) :
    decodeUtf8 (b0 :: rest) = (decodeUtf8 rest).map (b0.toNat :: ·) := by
  rw [decodeUtf8.eq_def]
  exact if_pos h

theorem decodeUtf8_two (h0 : ¬b0 < 0x80) (h1 : 0xC2 ≤ b0 ∧ b0 ≤ 0xDF) (h2 : utf8Tail b1) :
    decodeUtf8 (b0 :: b1 :: rest) =
      (decodeUtf8 rest).map ((b0.toNat % 32 * 64 + b1.toNat % 64) :: ·) := by
  rw [decodeUtf8.eq_def]
  simp only [h0, h1, h2, and_self, if_true, if_false]

theorem decodeUtf8_three (h0 : ¬b0 < 0x80) (h1 : ¬(0xC2 ≤ b0 ∧ b0 ≤ 0xDF))
    (h2 : 0xE0 ≤ b0 ∧ b0 ≤ 0xEF) (h3 : utf8Second3 b0 b1 ∧ utf8Tail b2) :
    decodeUtf8 (b0 :: b1 :: b2 :: rest) = (decodeUtf8 rest).map
      ((b0.toNat % 16 * 4096 + b1.toNat % 64 * 64 + b2.toNat % 64) :: ·) := by
  rw [decodeUtf8.eq_def]
  simp only [h0, h1, h2, h3, and_self, if_true, if_false]

theorem decodeUtf8_four (h0 : ¬b0 < 0x80) (h1 : ¬(0xC2 ≤ b0 ∧ b0 ≤ 0xDF))
    (h2 : ¬(0xE0 ≤ b0 ∧ b0 ≤ 0xEF))
    (h3 : 0xF0 ≤ b0 ∧ b0 ≤ 0xF4 ∧ utf8Second4 b0 b1 ∧ utf8Tail b2 ∧ utf8Tail b3) :
    decodeUtf8 (b0 :: b1 :: b2 :: b3 :: rest) = (decodeUtf8 rest).map
      ((b0.toNat % 8 * 262144 + b1.toNat % 64 * 4096 + b2.toNat % 64 * 64
        + b3.toNat % 64) :: ·) := by
  rw [decodeUtf8.eq_def]
  simp only [h0, h1, h2, h3, and_self, if_true, if_false]

/-- One character, and the rest. -/
theorem map_cons_decoded {c : ℕ} {r s t : Option Str} {whole : Str}
    (ih : ∀ own, r = some own → s = t.map (own ++ ·)) (h : r.map (c :: ·) = some whole) :
    s.map (c :: ·) = t.map (whole ++ ·) := by
  obtain ⟨own, hown, rfl⟩ := Option.map_eq_some_iff.mp h
  rw [ih own hown, Option.map_map]
  rfl

end Utf8

/-- What can be decoded is decoded in front of anything else. -/
theorem decodeUtf8_append {a : Bytes} {s : Str} (h : decodeUtf8 a = some s) (b : Bytes) :
    decodeUtf8 (a ++ b) = (decodeUtf8 b).map (s ++ ·) := by
  induction a using decodeUtf8.induct generalizing s with
  | case1 =>
    obtain rfl := Option.some.inj h
    simp
  | case2 b0 rest h0 ih =>
    rw [decodeUtf8_one h0] at h
    rw [List.cons_append, decodeUtf8_one h0]
    exact map_cons_decoded (fun _ hr => ih hr) h
  | case4 b0 h0 b1 rest h1 h2 ih =>
    rw [decodeUtf8_two h0 h1 h2] at h
    rw [List.cons_append, List.cons_append, decodeUtf8_two h0 h1 h2]
    exact map_cons_decoded (fun _ hr => ih hr) h
  | case7 b0 h0 b1 h1 b2 rest h2 h3 ih =>
    rw [decodeUtf8_three h0 h1 h2 h3] at h
    rw [List.cons_append, List.cons_append, List.cons_append, decodeUtf8_three h0 h1 h2 h3]
    exact map_cons_decoded (fun _ hr => ih hr) h
  | case10 b0 h0 b1 h1 b2 h2 b3 rest h3 ih =>
    rw [decodeUtf8_four h0 h1 h2 h3] at h
    rw [List.cons_append, List.cons_append, List.cons_append, List.cons_append,
      decodeUtf8_four h0 h1 h2 h3]
    exact map_cons_decoded (fun _ hr => ih hr) h
  -- the others are not UTF-8
  | case3 b0 h0 => simp [decodeUtf8, h0] at h
  | case5 b0 h0 b1 rest h1 h2 =>
    rw [decodeUtf8.eq_def] at h
    simp [h0, h1, h2] at h
  | case6 b0 h0 b1 h1 => simp [decodeUtf8, h0, h1] at h
  | case8 b0 h0 b1 h1 b2 rest h2 h3 =>
    rw [decodeUtf8.eq_def] at h
    simp [h0, h1, h2, h3] at h
  | case9 b0 h0 b1 h1 b2 h2 => simp [decodeUtf8, h0, h1, h2] at h
  | case11 b0 h0 b1 h1 b2 h2 b3 rest h3 =>
    rw [decodeUtf8.eq_def] at h
    simp [h0, h1, h2, h3] at h

/-- `message_type_names`, as text. -/
def typeText : MessageType → Str
  | .nbirth => str "NBIRTH"
  | .ndata => str "NDATA"

/-- The text of a topic. -/
def topicText (group edge : Str) (type : MessageType) : Str :=
  sparkplugNamespace ++ '/'.toNat :: (group ++ '/'.toNat :: (typeText type ++ '/'.toNat :: edge))

/-- The topic of the firmware is text, if its names are. -/
theorem decodeUtf8_sparkplugTopic {groupId edgeNodeId topic : Bytes} {group edge : Str}
    {capacity : ℕ} {type : MessageType} (hgroup : decodeUtf8 groupId = some group)
    (hedge : decodeUtf8 edgeNodeId = some edge)
    (h : sparkplugTopic groupId edgeNodeId capacity type = .ok topic) :
    decodeUtf8 topic = some (topicText group edge type) := by
  have hconst : decodeUtf8 (cString "spBv1.0/") = some (sparkplugNamespace ++ ['/'.toNat]) ∧
      ∀ type ∈ [MessageType.nbirth, .ndata],
        decodeUtf8 (cString "/" ++ messageTypeName type ++ cString "/") =
          some ('/'.toNat :: (typeText type ++ ['/'.toNat])) := by
    decide +kernel
  obtain ⟨hspace, hboth⟩ := hconst
  have htype := hboth type (by cases type <;> simp)
  have hwritten : cString "spBv1.0/" ++ groupId ++ cString "/" ++ messageTypeName type
      ++ cString "/" ++ edgeNodeId = topic := by
    unfold sparkplugTopic at h
    dsimp only at h
    split at h
    · cases h
    · exact Except.ok.inj h
  have hparts : topic = cString "spBv1.0/" ++ (groupId ++
      ((cString "/" ++ messageTypeName type ++ cString "/") ++ edgeNodeId)) := by
    rw [← hwritten]
    simp only [List.append_assoc]
  rw [hparts, decodeUtf8_append hspace, decodeUtf8_append hgroup, decodeUtf8_append htype, hedge]
  simp only [Option.map_some, topicText, List.append_assoc, List.cons_append, List.nil_append]

/-- **A topic comes back**: its four levels are those it was made of. -/
theorem split_topicText {group edge : Str} (hgroup : '/'.toNat ∉ group) (hedge : '/'.toNat ∉ edge)
    (type : MessageType) :
    split (topicText group edge type) '/'.toNat =
      [sparkplugNamespace, group, typeText type, edge] := by
  have hspace : '/'.toNat ∉ sparkplugNamespace := by decide
  have htype : '/'.toNat ∉ typeText type := by cases type <;> decide
  rw [topicText, split, List.splitOn_append_cons_self_of_not_mem hspace,
    List.splitOn_append_cons_self_of_not_mem hgroup,
    List.splitOn_append_cons_self_of_not_mem htype, List.splitOn_eq_singleton hedge]

variable {rt : Runtime}

/-- **A message comes back.** What the firmware encodes for a topic and a payload, for
either type, whatever the measurements, the times, the numbers and the flag, is taken
apart by the service into the same levels and the same metrics; and a birth is accepted
with nothing to store. -/
theorem message_round_trip {groupId edgeNodeId topic bytes : Bytes} {group edge : Str}
    {topicSize capacity : ℕ} {context : MetricsContext} {timestampMs : UInt64} {hasSeq : Bool}
    {seq : UInt8} (hgroup : decodeUtf8 groupId = some group)
    (hedge : decodeUtf8 edgeNodeId = some edge) (hlevel : '/'.toNat ∉ group)
    (hlevel' : '/'.toNat ∉ edge)
    (htopic : sparkplugTopic groupId edgeNodeId topicSize context.type = .ok topic)
    (hencode : encodePayload capacity context timestampMs hasSeq seq = .ok bytes) :
    ∃ text, decodeUtf8 topic = some text ∧
      split text '/'.toNat = [sparkplugNamespace, group, typeText context.type, edge] ∧
      decodeSparkplugPayload bytes = .ok (payloadOf context timestampMs hasSeq seq) ∧
      (context.type = .nbirth → ∀ clock, parseMessage rt clock ⟨text, bytes⟩ = .ok []) := by
  have hdecode : decodeSparkplugPayload bytes =
      .ok (payloadOf context timestampMs hasSeq seq) := by
    rw [encodePayload] at hencode
    split at hencode
    · obtain rfl := Except.ok.inj hencode
      exact payload_round_trip context timestampMs hasSeq seq
    · cases hencode
  have hsplit := split_topicText hlevel hlevel' context.type
  refine ⟨topicText group edge context.type, decodeUtf8_sparkplugTopic hgroup hedge htopic, hsplit,
    hdecode, fun hbirth clock => ?_⟩
  have hprefix :
      (sparkplugNamespace ++ str "/").isPrefixOf (topicText group edge context.type) := by
    rw [List.isPrefixOf_iff_prefix, topicText]
    exact ⟨_, List.append_assoc _ _ _⟩
  rw [parseMessage, if_pos hprefix, buildSparkplugLines, hsplit]
  simp [hdecode, hbirth, typeText, bind, Except.bind, pure, Except.pure]

/-- The first birth of a device, before it knows the time. -/
theorem message_round_trip_firstBirth :
    ∃ topic bytes text,
      sparkplugTopic (cString "aitsm") (cString "node-1") 64 .nbirth = .ok topic ∧
      encodePayload 80 { type := .nbirth } 0 true 0 = .ok bytes ∧
      decodeUtf8 topic = some text ∧
      ∀ clock, parseMessage bareRuntime clock ⟨text, bytes⟩ = .ok [] := by
  have htopic : ∃ topic,
      sparkplugTopic (cString "aitsm") (cString "node-1") 64 .nbirth = .ok topic :=
    ⟨_, rfl⟩
  have hencode : ∃ bytes, encodePayload 80 { type := .nbirth } 0 true 0 = .ok bytes := ⟨_, rfl⟩
  obtain ⟨topic, htopic⟩ := htopic
  obtain ⟨bytes, hencode⟩ := hencode
  have hnames : decodeUtf8 (cString "aitsm") = some (str "aitsm") ∧
      decodeUtf8 (cString "node-1") = some (str "node-1") := by decide +kernel
  obtain ⟨text, htext, -, -, hbirth⟩ := @message_round_trip bareRuntime _ _ _ _ _ _ _ _
    { type := .nbirth } _ _ _ hnames.1 hnames.2 (by decide) (by decide) htopic hencode
  exact ⟨topic, bytes, text, htopic, hencode, htext, hbirth rfl⟩

end Aitsm.Ingest
