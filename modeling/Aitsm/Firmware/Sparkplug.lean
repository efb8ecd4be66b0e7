import Aitsm.Library.Wire
import Aitsm.Library.Rounding

/-!
# Sparkplug B payloads (`sparkplug.c`)

Both firmware versions carry the same encoder; the only difference is that the
Original passes a flag for `is_historical` and the Simple version always sets
it. `sparkplugEncodeNdata` takes the flag, and the Simple version applies it to
`true`.

The generated nanopb code writes the fields of a message in the order of their
numbers, in the standard wire format, and fails exactly when the output would
not fit the buffer. A `has_…` flag and its field are an `Option` here. The
`float` arithmetic of the C code is `Library.binary32`.
-/

namespace Aitsm

open Library Library.Wire

/-- The error codes the modelled functions return, without their sign. -/
inductive Errno where
  | einval | emsgsize | eagain | ebusy | enospc | enodata | enotconn | enetdown | ealready
  /-- an error of the MQTT library, the encoder's environment or the work queue -/
  | other
  deriving DecidableEq, Repr

/-- `struct aitsm_measurement`: seconds, and hundredths of a degree and of a
percent. -/
structure Measurement where
  timestamp : Int64
  temperatureCentiCelsius : Int32
  batteryCentiPercent : UInt16
  deriving DecidableEq

/-- `enum aitsm_sparkplug_message_type`. -/
inductive MessageType where
  | nbirth
  | ndata
  deriving DecidableEq, Repr

/-- The bytes of a C string literal. -/
def cString (s : String) : Bytes := s.toList.map fun c => UInt8.ofNat c.toNat

/-- `AITSM_SPARKPLUG_METRIC_TEMPERATURE`. -/
def metricTemperature : Bytes := cString "temperature"

/-- `AITSM_SPARKPLUG_METRIC_BATTERY`. -/
def metricBattery : Bytes := cString "battery"

/-- `AITSM_SPARKPLUG_METRIC_BDSEQ`. -/
def metricBdseq : Bytes := cString "bdSeq"

/-- `SPARKPLUG_DATATYPE_INT64`. -/
def datatypeInt64 : UInt32 := 4

/-- `SPARKPLUG_DATATYPE_FLOAT`. -/
def datatypeFloat : UInt32 := 9

/-- `message_type_names`. -/
def messageTypeName : MessageType → Bytes
  | .nbirth => cString "NBIRTH"
  | .ndata => cString "NDATA"

/-! ## Numbers -/

/-- The pattern of `(float)x / 100.0f`, with its sign bit. -/
def centiFloat (x : ℤ) : UInt32 :=
  let magnitude :=
    match binary32.finite? (binary32.round x.natAbs 1) with
    | some (m, e) =>
      let q := Format.fraction m e
      binary32.round q.1 (q.2 * 100)
    | none => binary32.infinity
  UInt32.ofNat ((if x < 0 then 2 ^ 31 else 0) + magnitude)

/-! ## The messages -/

/-- The members of the `value` union that the firmware sets. -/
inductive MetricValue where
  | longValue (v : UInt64)
  | floatValue (bits : UInt32)
  deriving DecidableEq

/-- `org_eclipse_tahu_protobuf_Payload_Metric`, as far as it is ever set. -/
structure Metric where
  name : Option Bytes := none
  timestamp : Option UInt64 := none
  datatype : Option UInt32 := none
  isHistorical : Option Bool := none
  isNull : Option Bool := none
  value : Option MetricValue := none
  deriving DecidableEq

/-- A field that is only written when it is present. -/
def optionalField {α : Type} (write : α → Bytes) : Option α → Bytes
  | some v => write v
  | none => []

/-- The value union: `long_value` is field 11, `float_value` field 12. -/
def encodeValue : MetricValue → Bytes
  | .longValue v => varintField 11 v.toNat
  | .floatValue bits => fixed32Field 12 bits

/-- `pb_encode` of a metric. -/
def encodeMetricBody (metric : Metric) : Bytes :=
  optionalField (lengthField 1) metric.name
    ++ optionalField (fun t => varintField 3 t.toNat) metric.timestamp
    ++ optionalField (fun d => varintField 4 d.toNat) metric.datatype
    ++ optionalField (fun b => varintField 5 b.toNat) metric.isHistorical
    ++ optionalField (fun b => varintField 7 b.toNat) metric.isNull
    ++ optionalField encodeValue metric.value

/-- `encode_metric`: the tag of `metrics`, then the submessage. -/
def encodeMetric (metric : Metric) : Bytes := lengthField 2 (encodeMetricBody metric)

/-- `encode_bdseq_metric`. -/
def encodeBdseqMetric (bdSeq : UInt8) : Bytes :=
  encodeMetric
    { name := some metricBdseq
      datatype := some datatypeInt64
      value := some (.longValue bdSeq.toUInt64) }

/-- The metric `encode_float_metric` fills in. -/
def floatMetric (name : Bytes) (value : UInt32) (timestampMs : UInt64)
    (historical isNull : Bool) : Metric :=
  { name := some name
    datatype := some datatypeFloat
    timestamp := if isNull then none else some timestampMs
    value := if isNull then none else some (.floatValue value)
    isNull := if isNull then some true else none
    isHistorical := if historical then some true else none }

/-- `encode_float_metric`. -/
def encodeFloatMetric (name : Bytes) (value : UInt32) (timestampMs : UInt64)
    (historical isNull : Bool) : Bytes :=
  encodeMetric (floatMetric name value timestampMs historical isNull)

/-- `struct metrics_context`. -/
structure MetricsContext where
  type : MessageType
  measurements : List Measurement := []
  historical : Bool := false
  bdSeq : UInt8 := 0

/-- `measurement->timestamp * 1000U`, in `uint64_t`. -/
def Measurement.timestampMs (m : Measurement) : UInt64 := m.timestamp.toUInt64 * 1000

/-- The two metrics of one measurement. -/
def encodeMeasurement (historical : Bool) (m : Measurement) : Bytes :=
  encodeFloatMetric metricTemperature (centiFloat m.temperatureCentiCelsius.toInt)
      m.timestampMs historical false
    ++ encodeFloatMetric metricBattery (centiFloat m.batteryCentiPercent.toNat)
      m.timestampMs historical false

/-- `encode_metrics`, the callback that writes the repeated field. -/
def encodeMetrics (context : MetricsContext) : Bytes :=
  match context.type with
  | .nbirth =>
    encodeBdseqMetric context.bdSeq
      ++ encodeFloatMetric metricTemperature 0 0 false true
      ++ encodeFloatMetric metricBattery 0 0 false true
  | .ndata => context.measurements.flatMap (encodeMeasurement context.historical)

/-- The bytes of the payload: `timestamp` is field 1, `metrics` field 2, `seq`
field 3. -/
def payloadBytes (context : MetricsContext) (timestampMs : UInt64) (hasSeq : Bool)
    (seq : UInt8) : Bytes :=
  (if timestampMs ≠ 0 then varintField 1 timestampMs.toNat else [])
    ++ encodeMetrics context
    ++ (if hasSeq then varintField 3 seq.toNat else [])

/-- `encode_payload`. -/
def encodePayload (capacity : ℕ) (context : MetricsContext) (timestampMs : UInt64)
    (hasSeq : Bool) (seq : UInt8) : Except Errno Bytes :=
  let bytes := payloadBytes context timestampMs hasSeq seq
  if bytes.length ≤ capacity then .ok bytes else .error .emsgsize

/-- `aitsm_sparkplug_topic`, for the configured group and edge node. -/
def sparkplugTopic (groupId edgeNodeId : Bytes) (capacity : ℕ) (type : MessageType) :
    Except Errno Bytes :=
  let written := cString "spBv1.0/" ++ groupId ++ cString "/" ++ messageTypeName type
    ++ cString "/" ++ edgeNodeId
  if capacity ≤ written.length then .error .emsgsize else .ok written

/-- `aitsm_sparkplug_next_seq`. -/
def sparkplugNextSeq (seq : UInt8) : UInt8 := UInt8.ofNat ((seq.toNat + 1) % 256)

/-- `aitsm_sparkplug_encode_nbirth`. -/
def sparkplugEncodeNbirth (capacity : ℕ) (timestampMs : UInt64) (bdSeq : UInt8) :
    Except Errno Bytes :=
  encodePayload capacity { type := .nbirth, bdSeq := bdSeq } timestampMs true 0

/-- `aitsm_sparkplug_encode_ndata`. -/
def sparkplugEncodeNdata (capacity : ℕ) (measurements : List Measurement) (seq : UInt8)
    (historical : Bool) : Except Errno Bytes :=
  match measurements.getLast? with
  | none => .error .einval
  | some last =>
    encodePayload capacity
      { type := .ndata, measurements := measurements, historical := historical }
      last.timestampMs true seq

/-- `AITSM_SPARKPLUG_NDATA_MAX_SIZE`. -/
def sparkplugNdataMaxSize (count : ℕ) : ℕ := 16 + count * 70

/-- `AITSM_SPARKPLUG_NBIRTH_MAX_SIZE`. -/
def sparkplugNbirthMaxSize : ℕ := 80

/-! ## Messages on their way to the broker -/

/-- A message as it is given to the MQTT client: what went into the encoder, and
its output. -/
structure Publication where
  type : MessageType
  seq : UInt8
  bdSeq : UInt8
  measurements : List Measurement
  payload : Bytes
  deriving DecidableEq

/-- An NBIRTH, if it can be encoded. -/
def nbirthPublication (capacity : ℕ) (nowMs : UInt64) (bdSeq : UInt8) :
    Except Errno Publication :=
  (sparkplugEncodeNbirth capacity nowMs bdSeq).map fun payload =>
    { type := .nbirth, seq := 0, bdSeq := bdSeq, measurements := [], payload := payload }

/-- An NDATA, if it can be encoded. -/
def ndataPublication (capacity : ℕ) (measurements : List Measurement) (seq bdSeq : UInt8)
    (historical : Bool) : Except Errno Publication :=
  (sparkplugEncodeNdata capacity measurements seq historical).map fun payload =>
    { type := .ndata, seq := seq, bdSeq := bdSeq, measurements := measurements,
      payload := payload }

theorem nbirthPublication_ok {capacity : ℕ} {nowMs : UInt64} {bdSeq : UInt8} {p : Publication}
    (h : nbirthPublication capacity nowMs bdSeq = .ok p) :
    p.type = .nbirth ∧ p.seq = 0 ∧ p.bdSeq = bdSeq ∧ p.measurements = [] := by
  unfold nbirthPublication at h
  rcases he : sparkplugEncodeNbirth capacity nowMs bdSeq with err | payload
  · rw [he] at h
    cases h
  · rw [he] at h
    obtain rfl := Except.ok.inj h
    exact ⟨rfl, rfl, rfl, rfl⟩

theorem ndataPublication_ok {capacity : ℕ} {measurements : List Measurement} {seq bdSeq : UInt8}
    {historical : Bool} {p : Publication}
    (h : ndataPublication capacity measurements seq bdSeq historical = .ok p) :
    p.type = .ndata ∧ p.seq = seq ∧ p.bdSeq = bdSeq ∧ p.measurements = measurements := by
  unfold ndataPublication at h
  rcases he : sparkplugEncodeNdata capacity measurements seq historical with err | payload
  · rw [he] at h
    cases h
  · rw [he] at h
    obtain rfl := Except.ok.inj h
    exact ⟨rfl, rfl, rfl, rfl⟩

/-! ### Errors -/

theorem encodePayload_error {capacity : ℕ} {context : MetricsContext} {timestampMs : UInt64}
    {hasSeq : Bool} {seq : UInt8} {err : Errno}
    (h : encodePayload capacity context timestampMs hasSeq seq = .error err) :
    err = .emsgsize := by
  unfold encodePayload at h
  dsimp only at h
  split at h
  · cases h
  · exact (Except.error.inj h).symm

theorem sparkplugTopic_error {groupId edgeNodeId : Bytes} {capacity : ℕ} {type : MessageType}
    {err : Errno} (h : sparkplugTopic groupId edgeNodeId capacity type = .error err) :
    err = .emsgsize := by
  unfold sparkplugTopic at h
  dsimp only at h
  split at h
  · exact (Except.error.inj h).symm
  · cases h

theorem nbirthPublication_error {capacity : ℕ} {nowMs : UInt64} {bdSeq : UInt8} {err : Errno}
    (h : nbirthPublication capacity nowMs bdSeq = .error err) : err = .emsgsize := by
  unfold nbirthPublication at h
  rcases he : sparkplugEncodeNbirth capacity nowMs bdSeq with err' | payload
  · rw [he] at h
    obtain rfl := Except.error.inj h
    exact encodePayload_error he
  · rw [he] at h
    cases h

theorem ndataPublication_error {capacity : ℕ} {measurements : List Measurement}
    {seq bdSeq : UInt8} {historical : Bool} {err : Errno}
    (h : ndataPublication capacity measurements seq bdSeq historical = .error err) :
    err = .einval ∨ err = .emsgsize := by
  unfold ndataPublication at h
  rcases he : sparkplugEncodeNdata capacity measurements seq historical with err' | payload
  · rw [he] at h
    obtain rfl := Except.error.inj h
    unfold sparkplugEncodeNdata at he
    split at he
    · exact .inl (Except.error.inj he).symm
    · exact .inr (encodePayload_error he)
  · rw [he] at h
    cases h

/-! ## Sequence numbers -/

@[simp] theorem sparkplugNextSeq_toNat (seq : UInt8) :
    (sparkplugNextSeq seq).toNat = (seq.toNat + 1) % 256 := by
  rw [sparkplugNextSeq, UInt8.toNat_ofNat']
  omega

end Aitsm
