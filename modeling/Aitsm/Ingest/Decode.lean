import Aitsm.Firmware.Sparkplug
import Aitsm.Ingest.Poison

/-!
# The decoder reads what the encoder writes

`readVarint` inverts `varint`, and `readField` the three writers of a field
(`Writes`); so a message that was written field by field is decoded field by
field (`decodeFields_writes`). From the bottom up that gives the metric of
`encode_float_metric` (`decodeMetric_float`) and the payload of
`aitsm_sparkplug_encode_ndata` (`decodePayload_ndata`).
-/

namespace Aitsm.Ingest

open Library Library.Wire

/-! ## Varints -/

/-- The last byte of a varint, and its other bytes. -/
theorem varint_byte : ∀ d < 128,
    ((UInt8.ofNat d &&& 0x7F).toNat = d ∧ UInt8.ofNat d &&& 0x80 = 0) ∧
    (UInt8.ofNat (d + 128) &&& 0x7F).toNat = d ∧ UInt8.ofNat (d + 128) &&& 0x80 ≠ 0 := by
  decide

/-- The digits so far and the next one have no bit in common. -/
theorem or_shiftLeft {k result d : ℕ} (hresult : result < 2 ^ (7 * k)) :
    result ||| d <<< (7 * k) = result + d * 2 ^ (7 * k) := by
  rw [Nat.or_comm, ← Nat.shiftLeft_add_eq_or_of_lt hresult, Nat.shiftLeft_eq, Nat.add_comm]

theorem add_digit_lt {k result d : ℕ} (hresult : result < 2 ^ (7 * k)) (hd : d < 128) :
    result + d * 2 ^ (7 * k) < 2 ^ (7 * (k + 1)) := by
  have hmul := Nat.mul_le_mul_right (2 ^ (7 * k)) (show d ≤ 127 by omega)
  have hpow : 2 ^ (7 * (k + 1)) = 128 * 2 ^ (7 * k) := by
    rw [Nat.mul_add, pow_add, Nat.mul_comm]
    rfl
  omega

theorem readVarintFrom_varint {n : ℕ} (rest : Bytes) :
    ∀ k result : ℕ, k ≤ 9 → n < 128 ^ (10 - k) → result < 2 ^ (7 * k) →
      readVarintFrom (varint n ++ rest) (7 * k) result = .ok (result + n * 2 ^ (7 * k), rest) := by
  induction n using Nat.strong_induction_on with
  | _ n ih =>
    intro k result hk hn hresult
    have hshift : ¬63 < 7 * k := by omega
    rcases Nat.lt_or_ge n 128 with hlast | hmore
    · obtain ⟨hbyte, -⟩ := varint_byte n hlast
      rw [varint_of_lt hlast, List.singleton_append, readVarintFrom, if_neg hshift, if_pos hbyte.2,
        hbyte.1, or_shiftLeft hresult]
    · obtain ⟨-, hbyte⟩ := varint_byte (n % 128) (Nat.mod_lt n (by omega))
      have hk' : k + 1 ≤ 9 := by
        by_contra hlast
        obtain rfl : k = 9 := by omega
        omega
      have hdiv : n / 128 < 128 ^ (10 - (k + 1)) := by
        rw [Nat.div_lt_iff_lt_mul (by omega), ← pow_succ]
        rwa [show 10 - (k + 1) + 1 = 10 - k by omega]
      have hnext := add_digit_lt hresult (Nat.mod_lt n (by omega) : n % 128 < 128)
      rw [varint_of_le hmore, List.cons_append, readVarintFrom, if_neg hshift, if_neg hbyte.2,
        hbyte.1, or_shiftLeft hresult]
      have hrest := ih (n / 128) (by omega) (k + 1) _ hk' hdiv hnext
      rw [Nat.mul_add, Nat.mul_one] at hrest
      rw [hrest]
      congr 2
      rw [pow_add, Nat.add_assoc]
      congr 1
      have := Nat.div_add_mod n 128
      calc n % 128 * 2 ^ (7 * k) + n / 128 * (2 ^ (7 * k) * 2 ^ 7)
          = (128 * (n / 128) + n % 128) * 2 ^ (7 * k) := by ring
        _ = n * 2 ^ (7 * k) := by rw [this]

/-- Ten bytes hold any number below `2 ^ 70`. -/
theorem readVarint_varint {n : ℕ} (hn : n < 2 ^ 70) (rest : Bytes) :
    readVarint (varint n ++ rest) = .ok (n, rest) := by
  have h := readVarintFrom_varint rest 0 0 (by omega) (by simpa using hn) (by omega)
  simpa [readVarint] using h

/-! ## Fields -/

/-- The bytes of a field. -/
def Writes (bytes : Bytes) (field : Field) : Prop :=
  bytes ≠ [] ∧ ∀ rest, readField (bytes ++ rest) = .ok (field, rest)

theorem key_ne_nil (number wireType : ℕ) : key number wireType ≠ [] := varint_ne_nil _

/-- Field numbers are small. -/
theorem readVarint_key {number wireType : ℕ} (hnumber : number < 2 ^ 32) (hwire : wireType < 8)
    (rest : Bytes) :
    readVarint (key number wireType ++ rest) = .ok (8 * number + wireType, rest) :=
  readVarint_varint (by omega) rest

theorem writes_varint {number n : ℕ} (hnumber : number < 2 ^ 32) (hn : n < 2 ^ 70) :
    Writes (varintField number n) ⟨number, 0, .int n⟩ := by
  refine ⟨List.append_ne_nil_of_left_ne_nil (key_ne_nil _ _) _, fun rest => ?_⟩
  have hmod : (8 * number + 0) % 8 = 0 := by omega
  have hdiv : (8 * number + 0) / 8 = number := by omega
  rw [varintField, List.append_assoc, readField, readVarint_key hnumber (by omega)]
  simp only [bind, Except.bind, hmod, hdiv, readVarint_varint hn]
  rfl

theorem writes_length {number : ℕ} {body : Bytes} (hnumber : number < 2 ^ 32)
    (hbody : body.length < 2 ^ 70) : Writes (lengthField number body) ⟨number, 2, .bytes body⟩ := by
  refine ⟨List.append_ne_nil_of_left_ne_nil
    (List.append_ne_nil_of_left_ne_nil (key_ne_nil _ _) _) _, fun rest => ?_⟩
  have hmod : (8 * number + 2) % 8 = 2 := by omega
  have hdiv : (8 * number + 2) / 8 = number := by omega
  rw [lengthField, List.append_assoc, List.append_assoc, readField,
    readVarint_key hnumber (by omega)]
  simp only [bind, Except.bind, hmod, hdiv, readVarint_varint hbody, readBytes]
  rw [if_neg (by simp)]
  simp [pure, Except.pure]

theorem writes_fixed32 {number : ℕ} (hnumber : number < 2 ^ 32) (w : UInt32) :
    Writes (fixed32Field number w) ⟨number, 5, .bytes (littleEndian32 w)⟩ := by
  refine ⟨List.append_ne_nil_of_left_ne_nil (key_ne_nil _ _) _, fun rest => ?_⟩
  have hmod : (8 * number + 5) % 8 = 5 := by omega
  have hdiv : (8 * number + 5) / 8 = number := by omega
  rw [fixed32Field, List.append_assoc, readField, readVarint_key hnumber (by omega)]
  simp only [bind, Except.bind, hmod, hdiv, readBytes]
  rw [if_neg (by simp [littleEndian32])]
  simp [pure, Except.pure, littleEndian32]

/-- The four bytes of a word stand for it. -/
theorem littleEndian_littleEndian32 (w : UInt32) : littleEndian (littleEndian32 w) = w.toNat := by
  have hlt := w.toNat_lt
  simp [littleEndian, littleEndian32, Nat.shiftRight_eq_div_pow]
  omega

/-! ## Messages -/

theorem decodeFieldsAux_writes {fields : List (Bytes × Field)}
    (h : ∀ f ∈ fields, Writes f.1 f.2) :
    ∀ rounds, (fields.flatMap Prod.fst).length ≤ rounds →
      decodeFieldsAux rounds (fields.flatMap Prod.fst) = ⟨fields.map Prod.snd, none⟩ := by
  induction fields with
  | nil =>
    intro rounds _
    cases rounds <;> rfl
  | cons f fields ih =>
    intro rounds hrounds
    obtain ⟨hne, hread⟩ := h f List.mem_cons_self
    obtain ⟨byte, bytes, hbytes⟩ := List.exists_cons_of_ne_nil hne
    have hread := hread (fields.flatMap Prod.fst)
    rw [List.flatMap_cons, hbytes, List.cons_append] at hrounds ⊢
    rw [hbytes, List.cons_append] at hread
    obtain ⟨rounds, rfl⟩ : ∃ r, rounds = r + 1 := ⟨rounds - 1, by simp at hrounds; omega⟩
    rw [decodeFieldsAux, hread]
    have hrest := ih (fun g hg => h g (List.mem_cons_of_mem _ hg)) rounds (by
      simp only [List.length_cons, List.length_append] at hrounds
      omega)
    simp only [hrest, List.map_cons]

/-- A message that was written field by field. -/
theorem decodeFields_writes {fields : List (Bytes × Field)} (h : ∀ f ∈ fields, Writes f.1 f.2) :
    decodeFields (fields.flatMap Prod.fst) = ⟨fields.map Prod.snd, none⟩ :=
  decodeFieldsAux_writes h _ (le_refl _)

theorem forEach_writes {σ : Type} {fields : List (Bytes × Field)}
    (h : ∀ f ∈ fields, Writes f.1 f.2) (s : σ) (body : σ → Field → Except PyError σ) :
    (decodeFields (fields.flatMap Prod.fst)).forEach s body =
      (fields.map Prod.snd).foldlM body s := by
  rw [decodeFields_writes h, Fields.forEach]
  rcases (fields.map Prod.snd).foldlM body s with e | t <;> rfl

/-! ## The metrics of the firmware -/

/-- The fields of a metric with a value. -/
def metricFields (name : Bytes) (value : UInt32) (timestampMs : UInt64) (historical : Bool) :
    List (Bytes × Field) :=
  List.flatten [
    [(lengthField 1 name, ⟨1, 2, .bytes name⟩),
      (varintField 3 timestampMs.toNat, ⟨3, 0, .int timestampMs.toNat⟩),
      (varintField 4 datatypeFloat.toNat, ⟨4, 0, .int datatypeFloat.toNat⟩)],
    if historical then [(varintField 5 1, ⟨5, 0, .int 1⟩)] else [],
    [(fixed32Field 12 value, ⟨12, 5, .bytes (littleEndian32 value)⟩)]]

/-- What they are decoded to. -/
def floatDict (name : Bytes) (value : UInt32) (timestampMs : UInt64) : MetricDict :=
  { name := some (name.map UInt8.toNat)
    timestamp := some (.int timestampMs.toNat)
    value := some (.float (PyFloat.ofBinary32 value)) }

theorem encodeMetricBody_float (name : Bytes) (value : UInt32) (timestampMs : UInt64)
    (historical : Bool) :
    encodeMetricBody (floatMetric name value timestampMs historical false) =
      (metricFields name value timestampMs historical).flatMap Prod.fst := by
  cases historical <;>
    simp [encodeMetricBody, floatMetric, optionalField, encodeValue, metricFields]

theorem metricFields_write {name : Bytes} (hname : name.length < 64) (value : UInt32)
    (timestampMs : UInt64) (historical : Bool) :
    ∀ f ∈ metricFields name value timestampMs historical, Writes f.1 f.2 := by
  have htimestamp := timestampMs.toNat_lt
  intro f hf
  simp only [metricFields, List.flatten_cons, List.flatten_nil, List.append_nil, List.mem_append,
    List.mem_cons, List.not_mem_nil, or_false] at hf
  rcases hf with (rfl | rfl | rfl) | hf | rfl
  · exact writes_length (by omega) (by omega)
  · exact writes_varint (by omega) (by omega)
  · exact writes_varint (by omega) (by decide)
  · split at hf
    · obtain rfl := List.mem_singleton.mp hf
      exact writes_varint (by omega) (by omega)
    · cases hf
  · exact writes_fixed32 (by omega) value

theorem length_metricFields {name : Bytes} (hname : name.length < 64) (value : UInt32)
    (timestampMs : UInt64) (historical : Bool) :
    ((metricFields name value timestampMs historical).flatMap Prod.fst).length < 2 ^ 70 := by
  have hvarint : ∀ n, n < 2 ^ 64 → (varint n).length ≤ 10 := fun n hn =>
    length_varint_le (by omega) (by omega)
  have hfield : ∀ number n, number < 16 → n < 2 ^ 64 → (varintField number n).length ≤ 20 := by
    intro number n hnumber hn
    rw [varintField, key, List.length_append]
    have := hvarint (8 * number + 0) (by omega)
    have := hvarint n hn
    omega
  have hname' : (lengthField 1 name).length ≤ 84 := by
    rw [lengthField, key, List.length_append, List.length_append]
    have := hvarint (8 * 1 + 2) (by omega)
    have := hvarint name.length (by omega)
    omega
  have hvalue : (fixed32Field 12 value).length ≤ 14 := by
    rw [fixed32Field, key, List.length_append]
    have := hvarint (8 * 12 + 5) (by omega)
    have : (littleEndian32 value).length = 4 := rfl
    omega
  have htimestamp := hfield 3 timestampMs.toNat (by omega) timestampMs.toNat_lt
  have hdatatype := hfield 4 datatypeFloat.toNat (by omega) (by decide)
  have hflag := hfield 5 1 (by omega) (by omega)
  cases historical <;> simp [metricFields] <;> omega

/-- **A metric is decoded to what was encoded.** -/
theorem decodeMetric_float {name : Bytes} (hname : name.length < 64) (hascii : ∀ b ∈ name, b < 0x80)
    (value : UInt32) (timestampMs : UInt64) (historical : Bool) :
    decodeMetric (encodeMetricBody (floatMetric name value timestampMs historical false)) =
      .ok (floatDict name value timestampMs) := by
  have hdecode : (FieldValue.bytes name).decode = .ok (name.map UInt8.toNat) := by
    rw [FieldValue.decode, decodeUtf8_ascii hascii]
    rfl
  have hunpack : (FieldValue.bytes (littleEndian32 value)).unpack 4
      (fun n => PyFloat.ofBinary32 (UInt32.ofNat n)) = .ok (PyFloat.ofBinary32 value) := by
    simp only [FieldValue.unpack, littleEndian_littleEndian32, UInt32.ofNat_toNat]
    rfl
  rw [decodeMetric, encodeMetricBody_float, forEach_writes (metricFields_write hname _ _ _)]
  cases historical <;>
    simp [metricFields, metricField, hdecode, hunpack, floatDict, bind, Except.bind, pure,
      Except.pure]

/-! ## The payload of the firmware -/

/-- The bodies of the two metrics of a measurement. -/
def measurementBodies (historical : Bool) (m : Measurement) : List Bytes :=
  [encodeMetricBody (floatMetric metricTemperature (centiFloat m.temperatureCentiCelsius.toInt)
      m.timestampMs historical false),
    encodeMetricBody (floatMetric metricBattery (centiFloat m.batteryCentiPercent.toNat)
      m.timestampMs historical false)]

/-- What they are decoded to. -/
def measurementDicts (m : Measurement) : List MetricDict :=
  [floatDict metricTemperature (centiFloat m.temperatureCentiCelsius.toInt) m.timestampMs,
    floatDict metricBattery (centiFloat m.batteryCentiPercent.toNat) m.timestampMs]

/-- An embedded metric. -/
def bodyField (body : Bytes) : Bytes × Field := (lengthField 2 body, ⟨2, 2, .bytes body⟩)

theorem encodeMeasurement_eq (historical : Bool) (m : Measurement) :
    encodeMeasurement historical m =
      ((measurementBodies historical m).map bodyField).flatMap Prod.fst := by
  simp [encodeMeasurement, encodeFloatMetric, encodeMetric, measurementBodies, bodyField]

theorem metricName_spec : ∀ name ∈ [metricTemperature, metricBattery],
    name.length < 64 ∧ ∀ b ∈ name, b < 0x80 := by
  decide +kernel

theorem bodyField_write {historical : Bool} {m : Measurement} :
    ∀ f ∈ (measurementBodies historical m).map bodyField, Writes f.1 f.2 := by
  intro f hf
  obtain ⟨body, hbody, rfl⟩ := List.mem_map.mp hf
  refine writes_length (by omega) ?_
  simp only [measurementBodies, List.mem_cons, List.not_mem_nil, or_false] at hbody
  rcases hbody with rfl | rfl
  · rw [encodeMetricBody_float]
    exact length_metricFields (metricName_spec _ (by decide)).1 _ _ _
  · rw [encodeMetricBody_float]
    exact length_metricFields (metricName_spec _ (by decide)).1 _ _ _

/-- The metrics of one measurement are appended. -/
theorem foldlM_measurement (historical : Bool) (m : Measurement) (payload : Payload) :
    (((measurementBodies historical m).map bodyField).map Prod.snd).foldlM payloadField payload =
      .ok { payload with metrics := payload.metrics ++ measurementDicts m } := by
  have htemperature := metricName_spec metricTemperature (by decide)
  have hbattery := metricName_spec metricBattery (by decide)
  simp [measurementBodies, bodyField, payloadField, measurementDicts,
    decodeMetric_float htemperature.1 htemperature.2, decodeMetric_float hbattery.1 hbattery.2,
    bind, Except.bind, pure, Except.pure]

theorem foldlM_measurements (historical : Bool) (measurements : List Measurement) :
    ∀ payload : Payload,
      ((measurements.flatMap fun m => (measurementBodies historical m).map bodyField).map
          Prod.snd).foldlM payloadField payload =
        .ok { payload with metrics := payload.metrics ++ measurements.flatMap measurementDicts } := by
  induction measurements with
  | nil => simp [pure, Except.pure]
  | cons m measurements ih =>
    intro payload
    rw [List.flatMap_cons, List.map_append, List.foldlM_append, foldlM_measurement]
    have hrest := ih { payload with metrics := payload.metrics ++ measurementDicts m }
    simp only [bind, Except.bind]
    rw [hrest, List.flatMap_cons, List.append_assoc]

/-- The fields of an NDATA. -/
def ndataFields (measurements : List Measurement) (timestampMs : UInt64) (seq : UInt8)
    (historical : Bool) : List (Bytes × Field) :=
  List.flatten [
    if timestampMs ≠ 0 then
      [(varintField 1 timestampMs.toNat, ⟨1, 0, .int timestampMs.toNat⟩)] else [],
    measurements.flatMap fun m => (measurementBodies historical m).map bodyField,
    [(varintField 3 seq.toNat, ⟨3, 0, .int seq.toNat⟩)]]

theorem payloadBytes_ndata (measurements : List Measurement) (timestampMs : UInt64) (seq : UInt8)
    (historical : Bool) :
    payloadBytes { type := .ndata, measurements := measurements, historical := historical }
        timestampMs true seq =
      (ndataFields measurements timestampMs seq historical).flatMap Prod.fst := by
  have hmetrics : measurements.flatMap (encodeMeasurement historical) =
      (measurements.flatMap fun m => (measurementBodies historical m).map bodyField).flatMap
        Prod.fst := by
    rw [List.flatMap_assoc]
    exact List.flatMap_congr fun m _ => encodeMeasurement_eq historical m
  rw [payloadBytes, encodeMetrics, hmetrics, ndataFields]
  by_cases htime : timestampMs = 0 <;> simp [htime]

theorem ndataFields_write (measurements : List Measurement) (timestampMs : UInt64) (seq : UInt8)
    (historical : Bool) :
    ∀ f ∈ ndataFields measurements timestampMs seq historical, Writes f.1 f.2 := by
  have htime := timestampMs.toNat_lt
  have hseq := seq.toNat_lt
  intro f hf
  simp only [ndataFields, List.flatten_cons, List.flatten_nil, List.append_nil, List.mem_append,
    List.mem_singleton] at hf
  rcases hf with hf | hf | rfl
  · split at hf
    · obtain rfl := List.mem_singleton.mp hf
      exact writes_varint (by omega) (by omega)
    · cases hf
  · obtain ⟨m, -, hf⟩ := List.mem_flatMap.mp hf
    exact bodyField_write f hf
  · exact writes_varint (by omega) (by omega)

/-- **An NDATA is decoded to what was encoded**: the metrics of the measurements
in their order, whatever the other arguments are. -/
theorem decodePayload_ndata {capacity : ℕ} {measurements : List Measurement} {seq : UInt8}
    {historical : Bool} {bytes : Bytes}
    (h : sparkplugEncodeNdata capacity measurements seq historical = .ok bytes) :
    ∃ timestamp, decodeSparkplugPayload bytes =
      .ok { seq := some (.int seq.toNat), timestamp := timestamp,
            metrics := measurements.flatMap measurementDicts } := by
  rw [sparkplugEncodeNdata] at h
  split at h
  · cases h
  rename_i last _
  rw [encodePayload] at h
  split at h
  · obtain rfl := Except.ok.inj h
    rw [payloadBytes_ndata, decodeSparkplugPayload,
      forEach_writes (ndataFields_write measurements last.timestampMs seq historical)]
    -- the timestamp of the payload comes first, if there is one
    obtain ⟨timestamp, hfirst⟩ : ∃ timestamp,
        ((if last.timestampMs ≠ 0 then
          [((varintField 1 last.timestampMs.toNat, ⟨1, 0, .int last.timestampMs.toNat⟩) :
            Bytes × Field)] else []).map Prod.snd).foldlM payloadField {} =
          .ok { timestamp := timestamp } := by
      by_cases htime : last.timestampMs = 0
      · exact ⟨none, by simp [htime, pure, Except.pure]⟩
      · exact ⟨some (.int last.timestampMs.toNat), by simp [htime, payloadField]⟩
    have hmetrics := foldlM_measurements historical measurements { timestamp := timestamp }
    refine ⟨timestamp, ?_⟩
    rw [ndataFields, List.flatten_cons, List.map_append, List.foldlM_append, hfirst,
      List.flatten_cons, List.map_append]
    simp only [bind, Except.bind]
    rw [List.foldlM_append, hmetrics]
    rfl
  · cases h

end Aitsm.Ingest
