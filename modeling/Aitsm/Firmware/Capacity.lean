import Aitsm.Library.Stream
import Aitsm.Original.Transmission
import Aitsm.Simple.Loop

/-!
# The payload size bounds (`sparkplug.c`, `sparkplug.h`)

`pb_encode` writes into a buffer piece by piece, and every function on the way
gives up when one of its calls does. `Encoder` is the encoder written that way,
with the `*length` it sets; what it writes is `payloadBytes`, and it fails exactly
when that is longer than the buffer. The macros `AITSM_SPARKPLUG_NDATA_MAX_SIZE`
and `AITSM_SPARKPLUG_NBIRTH_MAX_SIZE` bound that length.
-/

namespace Aitsm

open Library Library.Wire
open Library.OStream (Emits)

/-! ## The encoder, call by call -/

namespace Encoder

/-- `encode_metric`: `pb_encode_tag`, and `pb_encode_submessage` with its size and body. -/
def encodeMetric (metric : Metric) (stream : OStream UInt8) : Option (OStream UInt8) :=
  (stream.write (key 2 2)).bind fun stream =>
    (stream.write (varint (encodeMetricBody metric).length)).bind fun stream =>
      stream.write (encodeMetricBody metric)

/-- `encode_bdseq_metric`. -/
def encodeBdseqMetric (bdSeq : UInt8) : OStream UInt8 → Option (OStream UInt8) :=
  encodeMetric
    { name := some metricBdseq
      datatype := some datatypeInt64
      value := some (.longValue bdSeq.toUInt64) }

/-- `encode_float_metric`. -/
def encodeFloatMetric (name : Bytes) (value : UInt32) (timestampMs : UInt64)
    (historical isNull : Bool) : OStream UInt8 → Option (OStream UInt8) :=
  encodeMetric (floatMetric name value timestampMs historical isNull)

/-- One round of the loop in `encode_metrics`. -/
def encodeMeasurement (historical : Bool) (stream : OStream UInt8) (m : Measurement) :
    Option (OStream UInt8) :=
  (encodeFloatMetric metricTemperature (centiFloat m.temperatureCentiCelsius.toInt)
    m.timestampMs historical false stream).bind
    (encodeFloatMetric metricBattery (centiFloat m.batteryCentiPercent.toNat)
      m.timestampMs historical false)

/-- `encode_metrics`. -/
def encodeMetrics (context : MetricsContext) (stream : OStream UInt8) :
    Option (OStream UInt8) :=
  match context.type with
  | .nbirth =>
    (encodeBdseqMetric context.bdSeq stream).bind fun stream =>
      (encodeFloatMetric metricTemperature 0 0 false true stream).bind
        (encodeFloatMetric metricBattery 0 0 false true)
  | .ndata => context.measurements.foldlM (encodeMeasurement context.historical) stream

/-- `pb_encode` of the payload: its fields in the order of their numbers. -/
def pbEncode (context : MetricsContext) (timestampMs : UInt64) (hasSeq : Bool) (seq : UInt8)
    (stream : OStream UInt8) : Option (OStream UInt8) :=
  (if timestampMs ≠ 0 then stream.write (varintField 1 timestampMs.toNat) else some stream).bind
    fun stream => (encodeMetrics context stream).bind fun stream =>
      if hasSeq then stream.write (varintField 3 seq.toNat) else some stream

/-- `encode_payload`: what it returns, and `*length` afterwards. -/
def encodePayload (capacity length : ℕ) (context : MetricsContext) (timestampMs : UInt64)
    (hasSeq : Bool) (seq : UInt8) : Except Errno Unit × ℕ :=
  match pbEncode context timestampMs hasSeq seq (.ofSize capacity) with
  | some stream => (.ok (), stream.size)
  | none => (.error .emsgsize, length)

/-- `aitsm_sparkplug_encode_nbirth`. -/
def sparkplugEncodeNbirth (capacity length : ℕ) (timestampMs : UInt64) (bdSeq : UInt8) :
    Except Errno Unit × ℕ :=
  encodePayload capacity length { type := .nbirth, bdSeq := bdSeq } timestampMs true 0

/-- `aitsm_sparkplug_encode_ndata`; the Simple version has no flag and is this
function at `true`. -/
def sparkplugEncodeNdata (capacity length : ℕ) (measurements : List Measurement) (seq : UInt8)
    (historical : Bool) : Except Errno Unit × ℕ :=
  match measurements.getLast? with
  | none => (.error .einval, length)
  | some last =>
    encodePayload capacity length
      { type := .ndata, measurements := measurements, historical := historical }
      last.timestampMs true seq

/-! ### What it writes -/

theorem emits_encodeMetric (metric : Metric) :
    Emits (encodeMetric metric) (Aitsm.encodeMetric metric) := by
  rw [Aitsm.encodeMetric, lengthField, List.append_assoc]
  exact (OStream.emits_write _).bind ((OStream.emits_write _).bind (OStream.emits_write _))

theorem emits_encodeMeasurement (historical : Bool) (m : Measurement) :
    Emits (fun stream => encodeMeasurement historical stream m)
      (Aitsm.encodeMeasurement historical m) :=
  (emits_encodeMetric _).bind (emits_encodeMetric _)

theorem emits_encodeMetrics (context : MetricsContext) :
    Emits (encodeMetrics context) (Aitsm.encodeMetrics context) := by
  unfold encodeMetrics Aitsm.encodeMetrics
  rcases context.type with _ | _
  · dsimp only
    rw [List.append_assoc]
    exact (emits_encodeMetric _).bind ((emits_encodeMetric _).bind (emits_encodeMetric _))
  · exact OStream.Emits.foldlM (emits_encodeMeasurement context.historical) context.measurements

/-- The calls write the fields of the payload one after the other. -/
theorem emits_pbEncode (context : MetricsContext) (timestampMs : UInt64) (hasSeq : Bool)
    (seq : UInt8) :
    Emits (pbEncode context timestampMs hasSeq seq)
      (payloadBytes context timestampMs hasSeq seq) := by
  have htimestamp : Emits
      (fun stream => if timestampMs ≠ 0 then stream.write (varintField 1 timestampMs.toNat)
        else some stream)
      (if timestampMs ≠ 0 then varintField 1 timestampMs.toNat else []) := by
    split
    · exact OStream.emits_write _
    · exact OStream.emits_some
  have hseq : Emits
      (fun stream => if hasSeq then stream.write (varintField 3 seq.toNat) else some stream)
      (if hasSeq then varintField 3 seq.toNat else []) := by
    split
    · exact OStream.emits_write _
    · exact OStream.emits_some
  rw [payloadBytes, List.append_assoc]
  exact htimestamp.bind ((emits_encodeMetrics context).bind hseq)

/-- It returns 0 and the size when that is at most the capacity; else -EMSGSIZE,
and `*length` keeps its value. -/
theorem encodePayload_eq (capacity length : ℕ) (context : MetricsContext)
    (timestampMs : UInt64) (hasSeq : Bool) (seq : UInt8) :
    encodePayload capacity length context timestampMs hasSeq seq =
      if (payloadBytes context timestampMs hasSeq seq).length ≤ capacity then
        (.ok (), (payloadBytes context timestampMs hasSeq seq).length)
      else (.error .emsgsize, length) := by
  have h := (emits_pbEncode context timestampMs hasSeq seq).ofSize capacity
  unfold encodePayload
  split at h
  · rename_i hfits
    obtain ⟨stream, hstream, hsize⟩ := Option.map_eq_some_iff.mp h
    rw [if_pos hfits, hstream, ← hsize]
  · rename_i hfits
    rw [if_neg hfits, Option.map_eq_none_iff.mp h]

/-- The two views of the encoder agree: the bytes, or the code and `*length`. -/
theorem encodePayload_refines (capacity length : ℕ) (context : MetricsContext)
    (timestampMs : UInt64) (hasSeq : Bool) (seq : UInt8) :
    encodePayload capacity length context timestampMs hasSeq seq =
      match Aitsm.encodePayload capacity context timestampMs hasSeq seq with
      | .ok bytes => (.ok (), bytes.length)
      | .error err => (.error err, length) := by
  rw [encodePayload_eq, Aitsm.encodePayload]
  split <;> rfl

end Encoder

/-! ## How much that is -/

theorem length_varint_uint64 (v : UInt64) : (varint v.toNat).length ≤ 10 :=
  length_varint_le (by decide) (lt_trans v.toNat_lt (by decide))

theorem length_varint_uint8 (v : UInt8) : (varint v.toNat).length ≤ 2 :=
  length_varint_le (by decide) (lt_trans v.toNat_lt (by decide))

/-- The key of a field whose number is below 16 is one byte. -/
theorem length_key {number wireType : ℕ} (h : 8 * number + wireType < 128) :
    (key number wireType).length = 1 := by
  rw [key, varint_of_lt h, List.length_singleton]

/-- A metric of less than 128 bytes takes two more in the payload. -/
theorem length_encodeMetric {metric : Metric} (h : (encodeMetricBody metric).length < 128) :
    (encodeMetric metric).length = (encodeMetricBody metric).length + 2 := by
  simp only [encodeMetric, lengthField, List.length_append, length_key (by decide : 8 * 2 + 2 < 128),
    varint_of_lt h, List.length_singleton]
  omega

/-- A metric with a value: its name, ten bytes for the time, and twelve more. -/
theorem length_encodeFloatMetric_le (name : Bytes) (hname : name.length < 100) (value : UInt32)
    (timestampMs : UInt64) (historical : Bool) :
    (encodeFloatMetric name value timestampMs historical false).length ≤ name.length + 24 := by
  have htime := length_varint_uint64 timestampMs
  have hbody : (encodeMetricBody
      (floatMetric name value timestampMs historical false)).length ≤ name.length + 22 := by
    cases historical <;>
      simp [encodeMetricBody, floatMetric, optionalField, lengthField, varintField, encodeValue,
        fixed32Field, littleEndian32, key, datatypeFloat, varint_of_lt,
        varint_of_lt (show name.length < 128 by omega)] <;> omega
  rw [encodeFloatMetric, length_encodeMetric (by omega)]
  omega

/-- Two metrics per measurement. -/
theorem length_encodeMeasurement_le (historical : Bool) (m : Measurement) :
    (encodeMeasurement historical m).length ≤ 66 := by
  have htemperature := length_encodeFloatMetric_le metricTemperature (by decide)
    (centiFloat m.temperatureCentiCelsius.toInt) m.timestampMs historical
  have hbattery := length_encodeFloatMetric_le metricBattery (by decide)
    (centiFloat m.batteryCentiPercent.toNat) m.timestampMs historical
  have hnames : metricTemperature.length = 11 ∧ metricBattery.length = 7 := by decide
  rw [encodeMeasurement, List.length_append]
  omega

theorem length_encodeMeasurements_le (historical : Bool) (ms : List Measurement) :
    (ms.flatMap (encodeMeasurement historical)).length ≤ ms.length * 66 := by
  induction ms with
  | nil => rfl
  | cons m ms ih =>
    have hm := length_encodeMeasurement_le historical m
    rw [List.flatMap_cons, List.length_append, List.length_cons]
    omega

/-- The payload's own timestamp and sequence number. -/
theorem length_payloadBytes_le (context : MetricsContext) (timestampMs : UInt64) (hasSeq : Bool)
    (seq : UInt8) :
    (payloadBytes context timestampMs hasSeq seq).length ≤
      (encodeMetrics context).length + 14 := by
  have htime := length_varint_uint64 timestampMs
  have hseq := length_varint_uint8 seq
  have hheader : (if timestampMs ≠ 0 then varintField 1 timestampMs.toNat else []).length ≤ 11 := by
    split <;> simp [varintField, key, varint_of_lt]
    omega
  have htrailer : (if hasSeq then varintField 3 seq.toNat else []).length ≤ 3 := by
    split <;> simp [varintField, key, varint_of_lt]
    omega
  rw [payloadBytes, List.length_append, List.length_append]
  omega

theorem length_ndata_le (measurements : List Measurement) (historical : Bool)
    (timestampMs : UInt64) (seq : UInt8) :
    (payloadBytes { type := .ndata, measurements := measurements, historical := historical }
      timestampMs true seq).length ≤ sparkplugNdataMaxSize measurements.length := by
  have hpayload := length_payloadBytes_le
    { type := .ndata, measurements := measurements, historical := historical } timestampMs true seq
  have hmetrics := length_encodeMeasurements_le historical measurements
  rw [sparkplugNdataMaxSize]
  rw [encodeMetrics] at hpayload
  dsimp only at hpayload
  omega

theorem length_encodeBdseqMetric_le (bdSeq : UInt8) : (encodeBdseqMetric bdSeq).length ≤ 14 := by
  have hseq := length_varint_uint8 bdSeq
  have hname : metricBdseq.length = 5 := by decide
  have hbody : (encodeMetricBody
      { name := some metricBdseq
        datatype := some datatypeInt64
        value := some (.longValue bdSeq.toUInt64) }).length ≤ 12 := by
    simp [encodeMetricBody, optionalField, lengthField, varintField, encodeValue, key,
      datatypeInt64, varint_of_lt, hname]
    omega
  rw [encodeBdseqMetric, length_encodeMetric (by omega)]
  omega

theorem length_nbirth_le (timestampMs : UInt64) (bdSeq : UInt8) :
    (payloadBytes { type := .nbirth, bdSeq := bdSeq } timestampMs true 0).length ≤
      sparkplugNbirthMaxSize := by
  have hpayload := length_payloadBytes_le { type := .nbirth, bdSeq := bdSeq } timestampMs true 0
  have hbdSeq := length_encodeBdseqMetric_le bdSeq
  have hnull : (encodeFloatMetric metricTemperature 0 0 false true).length = 19 ∧
      (encodeFloatMetric metricBattery 0 0 false true).length = 15 := by decide
  rw [encodeMetrics] at hpayload
  simp only [List.length_append] at hpayload
  rw [sparkplugNbirthMaxSize]
  omega

/-! ## The bounds are bounds -/

/-- The size of an NDATA. -/
def ndataSize (measurements : List Measurement) (h : measurements ≠ []) (seq : UInt8)
    (historical : Bool) : ℕ :=
  (payloadBytes { type := .ndata, measurements := measurements, historical := historical }
    (measurements.getLast h).timestampMs true seq).length

/-- The size of an NBIRTH. -/
def nbirthSize (timestampMs : UInt64) (bdSeq : UInt8) : ℕ :=
  (payloadBytes { type := .nbirth, bdSeq := bdSeq } timestampMs true 0).length

theorem Encoder.sparkplugEncodeNdata_eq (capacity length : ℕ) {measurements : List Measurement}
    (h : measurements ≠ []) (seq : UInt8) (historical : Bool) :
    Encoder.sparkplugEncodeNdata capacity length measurements seq historical =
      if ndataSize measurements h seq historical ≤ capacity then
        (.ok (), ndataSize measurements h seq historical)
      else (.error .emsgsize, length) := by
  rw [Encoder.sparkplugEncodeNdata, List.getLast?_eq_some_getLast h]
  exact Encoder.encodePayload_eq ..

/-- An NDATA that is within the capacity is made. -/
theorem ndataPublication_fits {capacity : ℕ} {measurements : List Measurement}
    (h : measurements ≠ []) (hcapacity : sparkplugNdataMaxSize measurements.length ≤ capacity)
    (seq bdSeq : UInt8) (historical : Bool) :
    ∃ p, ndataPublication capacity measurements seq bdSeq historical = .ok p := by
  have hle := (length_ndata_le measurements historical (measurements.getLast h).timestampMs
    seq).trans hcapacity
  rw [ndataPublication, sparkplugEncodeNdata, List.getLast?_eq_some_getLast h]
  dsimp only
  rw [encodePayload, if_pos hle]
  exact ⟨_, rfl⟩

theorem nbirthPublication_fits {capacity : ℕ} (hcapacity : sparkplugNbirthMaxSize ≤ capacity)
    (timestampMs : UInt64) (bdSeq : UInt8) :
    ∃ p, nbirthPublication capacity timestampMs bdSeq = .ok p := by
  have hle := (length_nbirth_le timestampMs bdSeq).trans hcapacity
  rw [nbirthPublication, sparkplugEncodeNbirth, encodePayload, if_pos hle]
  exact ⟨_, rfl⟩

theorem sparkplugNdataMaxSize_mono {n m : ℕ} (h : n ≤ m) :
    sparkplugNdataMaxSize n ≤ sparkplugNdataMaxSize m := by
  rw [sparkplugNdataMaxSize, sparkplugNdataMaxSize]
  omega

/-- A buffer that holds measurements can be sent in one NDATA when the payload has room for a
full one, as the build assertion says. -/
theorem Original.Transmission.format_fits {cfg : Original.Config} (t : Original.Transmission cfg)
    (hassert : sparkplugNdataMaxSize cfg.maxMeasurements ≤ cfg.payloadSize)
    (hinit : t.initialized) (hcount : 0 < t.count) (bdSeq : UInt8) :
    ∃ p, t.format cfg.payloadSize bdSeq = .ok (p, t.count) := by
  have hcapacity : sparkplugNdataMaxSize t.items.length ≤ cfg.payloadSize :=
    (sparkplugNdataMaxSize_mono t.fits).trans hassert
  obtain ⟨p, hp⟩ := ndataPublication_fits (List.ne_nil_of_length_pos hcount) hcapacity t.nextSeq
    bdSeq cfg.batch
  have hpos : cfg.payloadSize ≠ 0 := by
    rw [sparkplugNdataMaxSize] at hcapacity
    omega
  rw [Original.Transmission.format, if_neg hpos, if_neg (by simp [hinit]), if_neg hcount.ne', hp]
  exact ⟨p, rfl⟩

/-- **The size bounds bound the encoder.** Both encoders return 0 exactly when
the capacity is at least the encoded size, and set `*length` to it; otherwise
they return -EMSGSIZE and leave `*length` alone. The macros are upper bounds of
the encoded size. So with the build assertion the Original can format every
buffer that is not empty, and the Simple version every batch and every NBIRTH. -/
theorem payload_bounds :
    (∀ capacity length measurements (h : measurements ≠ []) seq historical,
      Encoder.sparkplugEncodeNdata capacity length measurements seq historical =
          (if ndataSize measurements h seq historical ≤ capacity then
            (.ok (), ndataSize measurements h seq historical)
          else (.error .emsgsize, length)) ∧
        (sparkplugNdataMaxSize measurements.length ≤ capacity →
          (Encoder.sparkplugEncodeNdata capacity length measurements seq historical).1 =
            .ok ())) ∧
    (∀ capacity length timestampMs bdSeq,
      Encoder.sparkplugEncodeNbirth capacity length timestampMs bdSeq =
          (if nbirthSize timestampMs bdSeq ≤ capacity then
            (.ok (), nbirthSize timestampMs bdSeq)
          else (.error .emsgsize, length)) ∧
        (sparkplugNbirthMaxSize ≤ capacity →
          (Encoder.sparkplugEncodeNbirth capacity length timestampMs bdSeq).1 = .ok ())) ∧
    (∀ (cfg : Original.Config) (t : Original.Transmission cfg) (bdSeq : UInt8),
      sparkplugNdataMaxSize cfg.maxMeasurements ≤ cfg.payloadSize → t.initialized →
      0 < t.count → ∃ p, t.format cfg.payloadSize bdSeq = .ok (p, t.count)) ∧
    ∀ (cfg : Simple.Config) (batch : Simple.Batch cfg.batchCapacity) (seq bdSeq : UInt8)
      (nowMs : UInt64),
      (batch.items ≠ [] → ∃ p, Simple.encodeData cfg batch.items seq bdSeq = .ok p) ∧
      ∃ p, Simple.encodeBirth cfg nowMs bdSeq = .ok p := by
  refine ⟨fun capacity length measurements h seq historical => ?_,
    fun capacity length timestampMs bdSeq => ?_,
    fun cfg t bdSeq hassert hinit hcount => t.format_fits hassert hinit hcount bdSeq,
    fun cfg batch seq bdSeq nowMs => ⟨fun h => ?_, ?_⟩⟩
  · have heq := Encoder.sparkplugEncodeNdata_eq capacity length h seq historical
    refine ⟨heq, fun hcapacity => ?_⟩
    have hle : ndataSize measurements h seq historical ≤ capacity :=
      (length_ndata_le _ _ _ _).trans hcapacity
    rw [heq, if_pos hle]
  · have heq := Encoder.encodePayload_eq capacity length { type := .nbirth, bdSeq := bdSeq }
      timestampMs true 0
    refine ⟨heq, fun hcapacity => ?_⟩
    rw [Encoder.sparkplugEncodeNbirth, heq, if_pos ((length_nbirth_le _ _).trans hcapacity)]
  · exact ndataPublication_fits h
      ((sparkplugNdataMaxSize_mono batch.fits).trans (le_max_left _ _)) seq bdSeq true
  · exact nbirthPublication_fits (le_max_right _ _) nowMs bdSeq

end Aitsm
