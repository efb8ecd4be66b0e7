import Aitsm.Ingest.Python

/-!
# Messages to lines (`ingest.py`, up to `parse_message`)

A line for QuestDB is kept as a record (`Line`) until it is written;
`Line.text` is the text of the source. A generator is a list of what it yields
together with the exception that ends it, if one does (`Fields`), so that the
body of a `for` loop runs before a later part of the input is looked at.

The clock is read once for each line that has no timestamp; `clock i` is what it
says for the `i`-th line of a message.
-/

namespace Aitsm.Ingest

open Library Library.Wire

/-- A delivered message, as far as the parser reads it. -/
structure Message where
  topic : Str
  payload : Bytes
  deriving DecidableEq

/-- A line in InfluxDB line protocol, for the table `sensor_readings`. -/
structure Line where
  /-- the device id, before escaping -/
  deviceId : Str
  fields : List (Str × PyFloat)
  timestampNs : ℤ
  deriving DecidableEq

variable (rt : Runtime)

/-! ## Lines -/

/-- `parse_timestamp`, for numbers. -/
def parseSeconds : Value → Except PyError PyFloat
  | .int n => do
    let seconds ← PyFloat.ofInt n
    return if 10000000000 < n then seconds.scale 1 1000 else seconds
  | .float x => .ok (if x.gt 10000000000 then x.scale 1 1000 else x)
  | _ => .error .valueError

/-- `value.strip().replace("Z", "+00:00")`. -/
def isoText (s : Str) : Str := replace (strip s) 'Z'.toNat (str "+00:00")

/-- `parse_timestamp`: the point in time, in microseconds. -/
def parseTimestamp (now : ℤ) : Value → Except PyError ℤ
  | .none => .ok now
  | .str s =>
    match rt.fromisoformat (isoText s) with
    | some parsed => astimezone parsed
    | none => .error .valueError
  | value => do
    let seconds ← parseSeconds value
    fromtimestamp seconds

/-- `int(t.timestamp() * 1_000_000_000)`. -/
def nanoseconds (us : ℤ) : ℤ := ((timestamp us).scale 1000000000 1).toInt

/-- `timestamp_ns`. -/
def timestampNs (now : ℤ) (value : Value) : Except PyError ℤ := do
  let us ← parseTimestamp rt now value
  return nanoseconds us

/-- `finite_number`. -/
def finiteNumber (value : Value) : Except PyError (Option PyFloat) :=
  match value with
  | .none | .bool _ => .ok none
  | value => do
    let number ← rt.float value
    return if number.isFinite then some number else none

/-- `escape_tag`. -/
def escapeTag (s : Str) : Str :=
  replace (replace (replace (replace s '\\'.toNat (str "\\\\")) ','.toNat (str "\\,"))
    ' '.toNat (str "\\ ")) '='.toNat (str "\\=")

/-- `default_device_id`. -/
def defaultDeviceId (topic : Str) : Str :=
  match (split topic '/'.toNat)[1]? with
  | some part => if part.isEmpty then str "unknown" else part
  | none => str "unknown"

/-- `build_line`, the device id. -/
def deviceId (payload : Dict) (topic : Str) : Except PyError Str :=
  match (payload.get (str "device_id")).or
      ((payload.get (str "deviceId")).or (.str (defaultDeviceId topic))) with
  | .str s => if (strip s).isEmpty then .error .valueError else .ok (strip s)
  | _ => .error .valueError

/-- `build_line`, the object that holds the values. -/
def lineValues (payload : Dict) : Except PyError Dict :=
  match payload.getD (str "values") (.dict payload) with
  | .dict values => .ok values
  | _ => .error .valueError

/-- What `build_line` reads for the field `temperature`. -/
def temperatureSource (values : Dict) : Value :=
  match values.get (str "chip_temperature") with
  | .none => values.get (str "temperature")
  | value => value

/-- `build_line`, the fields. -/
def lineFields (values : Dict) : Except PyError (List (Str × PyFloat)) := do
  let temperature ← finiteNumber rt (temperatureSource values)
  let battery ← finiteNumber rt (values.get (str "battery"))
  let fields := (temperature.map (str "temperature", ·)).toList
    ++ (battery.map (str "battery", ·)).toList
  if fields.isEmpty then throw .valueError
  return fields

/-- `build_line`. -/
def buildLine (now : ℤ) (payload : Dict) (topic : Str) : Except PyError Line := do
  let device ← deviceId payload topic
  let values ← lineValues payload
  let fields ← lineFields rt values
  let ns ← timestampNs rt now (payload.get (str "timestamp"))
  return { deviceId := device, fields := fields, timestampNs := ns }

/-- The decimal digits of a number. -/
def decimal (n : ℤ) : Str := str (toString n)

/-- The f-string at the end of `build_line`. -/
def Line.text (l : Line) : Str :=
  str "sensor_readings,device_id=" ++ escapeTag l.deviceId ++ str " "
    ++ List.intercalate (str ",") (l.fields.map fun f => f.1 ++ str "=" ++ rt.reprFloat f.2)
    ++ str " " ++ decimal l.timestampNs ++ str "\n"

/-- `"".join(lines)`, what `write_questdb` sends. -/
def joinLines (lines : List Line) : Str := lines.flatMap (Line.text rt)

/-! ## JSON -/

/-- `reading_payload.setdefault(key, payload[key])`, if the payload has the key. -/
def inherit (payload reading : Dict) (key : Str) : Dict :=
  match payload.lookup key with
  | some value => if reading.has key then reading else reading ++ [(key, value)]
  | none => reading

/-- `reading_payload`. -/
def readingDict (payload reading : Dict) : Dict :=
  inherit payload (inherit payload reading (str "device_id")) (str "deviceId")

@[simp] theorem lookup_inherit_self (payload reading : Dict) (key : Str) :
    (inherit payload reading key).lookup key = (reading.lookup key).or (payload.lookup key) := by
  unfold inherit
  cases hp : payload.lookup key with
  | none => simp
  | some value =>
    cases hr : reading.lookup key with
    | some own => simp [Dict.has, hr]
    | none => simp [Dict.has, hr, List.lookup_append]

/-- What is inherited is no other key's. -/
theorem lookup_inherit {payload reading : Dict} {key k : Str} (hk : k ≠ key) :
    (inherit payload reading key).lookup k = reading.lookup k := by
  have hlast : (k == key) = false := by simpa using hk
  unfold inherit
  split
  · split
    · rfl
    · simp [List.lookup_append, List.lookup_cons, hlast]
  · rfl

theorem lookup_readingDict {payload reading : Dict} {k : Str} (hk : k ≠ str "device_id")
    (hk' : k ≠ str "deviceId") : (readingDict payload reading).lookup k = reading.lookup k := by
  rw [readingDict, lookup_inherit hk', lookup_inherit hk]

/-- The loop of `build_lines`, from the `i`-th reading on. -/
def buildReadings (clock : ℕ → ℤ) (payload : Dict) (topic : Str) :
    ℕ → List Value → Except PyError (List Line)
  | _, [] => .ok []
  | i, .dict reading :: rest => do
    let line ← buildLine rt (clock i) (readingDict payload reading) topic
    let lines ← buildReadings clock payload topic (i + 1) rest
    return line :: lines
  | _, _ :: _ => .error .valueError

/-- `build_lines`. -/
def buildLines (clock : ℕ → ℤ) (payload : Dict) (topic : Str) : Except PyError (List Line) :=
  match payload.get (str "readings") with
  | .none => do
    let line ← buildLine rt (clock 0) payload topic
    return [line]
  | .list [] => .error .valueError
  | .list readings => buildReadings rt clock payload topic 0 readings
  | _ => .error .valueError

/-! ## Sparkplug B -/

/-- `read_varint`, from a position on: `shift` and `result` are the loop's
variables. -/
def readVarintFrom : Bytes → ℕ → ℕ → Except PyError (ℕ × Bytes)
  | [], _, _ => .error .valueError
  | byte :: rest, shift, result =>
    if 63 < shift then .error .valueError
    else
      let result := result ||| (byte &&& 0x7F).toNat <<< shift
      if byte &&& 0x80 = 0 then .ok (result, rest) else readVarintFrom rest (shift + 7) result

/-- `read_varint`: the number, and the bytes after it. -/
def readVarint (data : Bytes) : Except PyError (ℕ × Bytes) := readVarintFrom data 0 0

/-- The value of a field: a number, or bytes. -/
inductive FieldValue where
  | int (n : ℕ)
  | bytes (b : Bytes)
  deriving DecidableEq

/-- What `decode_fields` yields. -/
structure Field where
  number : ℕ
  wireType : ℕ
  value : FieldValue
  deriving DecidableEq

/-- `data[position : position + size]`, if there are as many. -/
def readBytes (data : Bytes) (size : ℕ) : Except PyError (Bytes × Bytes) :=
  if data.length < size then .error .valueError else .ok (data.take size, data.drop size)

/-- One round of `decode_fields`. -/
def readField (data : Bytes) : Except PyError (Field × Bytes) := do
  let (key, rest) ← readVarint data
  match key % 8 with
  | 0 =>
    let (value, rest) ← readVarint rest
    return (⟨key / 8, 0, .int value⟩, rest)
  | 2 =>
    let (length, rest) ← readVarint rest
    let (value, rest) ← readBytes rest length
    return (⟨key / 8, 2, .bytes value⟩, rest)
  | 1 =>
    let (value, rest) ← readBytes rest 8
    return (⟨key / 8, 1, .bytes value⟩, rest)
  | 5 =>
    let (value, rest) ← readBytes rest 4
    return (⟨key / 8, 5, .bytes value⟩, rest)
  | _ => throw .valueError

/-- What a generator yields, and how it ends. -/
structure Fields where
  yielded : List Field
  raised : Option PyError := none

/-- `decode_fields`. Every round takes at least one byte, so the length of the
data bounds their number. -/
def decodeFieldsAux : ℕ → Bytes → Fields
  | _, [] => ⟨[], none⟩
  | 0, _ :: _ => ⟨[], none⟩
  | rounds + 1, byte :: bytes =>
    match readField (byte :: bytes) with
    | .error e => ⟨[], some e⟩
    | .ok (field, rest) =>
      let fields := decodeFieldsAux rounds rest
      { fields with yielded := field :: fields.yielded }

/-- `decode_fields`. -/
def decodeFields (data : Bytes) : Fields := decodeFieldsAux data.length data

/-- `for field, _, value in decode_fields(data)`. -/
def Fields.forEach {σ : Type} (fields : Fields) (s : σ) (body : σ → Field → Except PyError σ) :
    Except PyError σ := do
  let s ← fields.yielded.foldlM body s
  match fields.raised with
  | some e => throw e
  | none => return s

/-- The values a metric can have. -/
inductive MetricNumber where
  | int (n : ℕ)
  | float (x : PyFloat)
  | bytes (b : Bytes)
  deriving DecidableEq

/-- The dict of `decode_metric`. -/
structure MetricDict where
  name : Option Str := none
  timestamp : Option FieldValue := none
  isNull : Bool := false
  value : Option MetricNumber := none
  deriving DecidableEq

/-- `value.decode("utf-8")`. -/
def FieldValue.decode : FieldValue → Except PyError Str
  | .int _ => .error .attributeError
  | .bytes b => (decodeUtf8 b).elim (.error .valueError) .ok

/-- `bool(value)`. -/
def FieldValue.truthy : FieldValue → Bool
  | .int n => n ≠ 0
  | .bytes b => !b.isEmpty

/-- A field value as the value of a metric. -/
def FieldValue.number : FieldValue → MetricNumber
  | .int n => .int n
  | .bytes b => .bytes b

/-- `struct.unpack(format, value)[0]`, for a format of `size` bytes. -/
def FieldValue.unpack (size : ℕ) (convert : ℕ → PyFloat) : FieldValue → Except PyError PyFloat
  | .int _ => .error .typeError
  | .bytes b => if b.length = size then .ok (convert (littleEndian b)) else .error .structError

/-- The body of the loop of `decode_metric`. -/
def metricField (metric : MetricDict) (field : Field) : Except PyError MetricDict :=
  match field.number with
  | 1 => do
    let name ← field.value.decode
    return { metric with name := some name }
  | 3 => .ok { metric with timestamp := some field.value }
  | 7 => .ok { metric with isNull := field.value.truthy }
  | 10 | 11 | 14 => .ok { metric with value := some field.value.number }
  | 12 => do
    let x ← field.value.unpack 4 fun n => PyFloat.ofBinary32 (UInt32.ofNat n)
    return { metric with value := some (.float x) }
  | 13 => do
    let x ← field.value.unpack 8 PyFloat.ofBinary64
    return { metric with value := some (.float x) }
  | _ => .ok metric

/-- `decode_metric`. -/
def decodeMetric (data : Bytes) : Except PyError MetricDict :=
  (decodeFields data).forEach {} metricField

/-- What `decode_sparkplug_payload` returns. -/
structure Payload where
  seq : Option FieldValue := none
  timestamp : Option FieldValue := none
  metrics : List MetricDict := []

/-- The body of the loop of `decode_sparkplug_payload`. -/
def payloadField (payload : Payload) (field : Field) : Except PyError Payload :=
  match field.number with
  | 1 => .ok { payload with timestamp := some field.value }
  | 2 =>
    match field.value with
    -- an `int` has no length
    | .int _ => .error .typeError
    | .bytes data => do
      let metric ← decodeMetric data
      return { payload with metrics := payload.metrics ++ [metric] }
  | 3 => .ok { payload with seq := some field.value }
  | _ => .ok payload

/-- `decode_sparkplug_payload`. -/
def decodeSparkplugPayload (data : Bytes) : Except PyError Payload :=
  (decodeFields data).forEach {} payloadField

/-- `NUMERIC_FIELDS`. -/
def numericFields : List Str := [str "temperature", str "battery"]

/-- `d[key] = value`, for a `dict` in insertion order. -/
def setItem {κ ν : Type} [DecidableEq κ] (d : List (κ × ν)) (key : κ) (value : ν) :
    List (κ × ν) :=
  match d with
  | [] => [(key, value)]
  | entry :: rest =>
    if entry.1 = key then (key, value) :: rest else entry :: setItem rest key value

section Dicts

variable {κ ν : Type} [DecidableEq κ]

theorem keys_setItem (d : List (κ × ν)) (key : κ) (value : ν) :
    (setItem d key value).map Prod.fst =
      if key ∈ d.map Prod.fst then d.map Prod.fst else d.map Prod.fst ++ [key] := by
  induction d with
  | nil => rfl
  | cons entry rest ih =>
    unfold setItem
    by_cases hown : entry.1 = key
    · simp [hown]
    · simp only [hown, if_false, List.map_cons, ih, List.mem_cons, Ne.symm hown, false_or]
      split <;> rfl

/-- A key is there once. -/
theorem nodup_keys_setItem {d : List (κ × ν)} (h : (d.map Prod.fst).Nodup) (key : κ) (value : ν) :
    ((setItem d key value).map Prod.fst).Nodup := by
  rw [keys_setItem]
  split
  · exact h
  · rename_i hnew
    exact List.nodup_append.mpr ⟨h, List.nodup_singleton _, fun k hk k' hk' heq =>
      hnew (List.mem_singleton.mp hk' ▸ heq ▸ hk)⟩

variable [BEq κ] [LawfulBEq κ]

theorem lookup_setItem_self (d : List (κ × ν)) (key : κ) (value : ν) :
    (setItem d key value).lookup key = some value := by
  induction d with
  | nil => simp [setItem]
  | cons entry rest ih =>
    obtain ⟨own, v⟩ := entry
    unfold setItem
    by_cases hown : own = key
    · simp [hown]
    · have hne : (key == own) = false := by simpa using Ne.symm hown
      simp [hown, List.lookup_cons, hne, ih]

theorem lookup_setItem {d : List (κ × ν)} {key k : κ} {value : ν} (hk : k ≠ key) :
    (setItem d key value).lookup k = d.lookup k := by
  have hne : (k == key) = false := by simpa using hk
  induction d with
  | nil => simp [setItem, List.lookup_cons, hne]
  | cons entry rest ih =>
    obtain ⟨own, v⟩ := entry
    unfold setItem
    by_cases hown : own = key
    · simp [hown, List.lookup_cons, hne]
    · simp [hown, List.lookup_cons, ih]

end Dicts

/-- The readings of a message, by timestamp. -/
abbrev Readings : Type := List (FieldValue × List (Str × PyFloat))

/-- `readings.setdefault(timestamp, {})[name] = value`. -/
def Readings.set (readings : Readings) (timestamp : FieldValue) (name : Str) (value : PyFloat) :
    Readings :=
  setItem readings timestamp (setItem ((readings.lookup timestamp).getD []) name value)

/-- `float(metric["value"])`. -/
def MetricNumber.toFloat : MetricNumber → Except PyError PyFloat
  | .int n => PyFloat.ofInt n
  | .float x => .ok x
  | .bytes b => (rt.floatOfBytes b).elim (.error .valueError) .ok

/-- The body of the loop of `build_sparkplug_lines`. -/
def addReading (payloadTimestamp : Option FieldValue) (readings : Readings)
    (metric : MetricDict) : Except PyError Readings :=
  match metric.name, metric.value with
  | some name, some value =>
    if name ∉ numericFields ∨ metric.isNull then .ok readings
    else
      match metric.timestamp.or payloadTimestamp with
      | none => .error .valueError
      | some timestamp => do
        let x ← value.toFloat rt
        return readings.set timestamp name x.round2
  | _, _ => .ok readings

/-- A temperature or battery metric that is not null and has a value: one that
`addReading` does not pass over. -/
def MetricDict.counts (m : MetricDict) : Bool :=
  (m.name.any fun name => name ∈ numericFields) && !m.isNull && m.value.isSome

/-- `a <= b`, for the keys of the readings; `none` is a `TypeError`. -/
def FieldValue.le? : FieldValue → FieldValue → Option Bool
  | .int a, .int b => some (a ≤ b)
  | .bytes a, .bytes b => some (a.map UInt8.toNat ≤ b.map UInt8.toNat)
  | _, _ => none

/-- `sorted(readings.items())`. The timestamps differ, so nothing but them is
compared; and of different types, some two are compared. -/
def sortReadings (readings : Readings) : Except PyError Readings :=
  if readings.all fun a => readings.all fun b => (a.1.le? b.1).isSome then
    .ok (readings.mergeSort fun a b => (a.1.le? b.1).getD true)
  else .error .typeError

/-- A timestamp as an object. -/
def FieldValue.object : FieldValue → Value
  | .int n => .int n
  | .bytes b => .bytes b

/-- `{"device_id": edge_node_id, "timestamp": timestamp, **values}`. -/
def readingPayload (edgeNodeId : Str) (timestamp : FieldValue) (values : List (Str × PyFloat)) :
    Dict :=
  (str "device_id", .str edgeNodeId) :: (str "timestamp", timestamp.object)
    :: values.map fun v => (v.1, .float v.2)

/-- The lines of a decoded message that is not an NBIRTH. -/
def readingLines (topic edgeNodeId : Str) (payload : Payload) : Except PyError (List Line) := do
  let readings ← payload.metrics.foldlM (addReading rt payload.timestamp) []
  if readings.isEmpty then throw .valueError
  let sorted ← sortReadings readings
  sorted.mapM fun reading => buildLine rt 0 (readingPayload edgeNodeId reading.1 reading.2) topic

/-- `SPARKPLUG_NAMESPACE`. -/
def sparkplugNamespace : Str := str "spBv1.0"

/-- `build_sparkplug_lines`. -/
def buildSparkplugLines (topic : Str) (data : Bytes) : Except PyError (List Line) :=
  match split topic '/'.toNat with
  | space :: _ :: messageType :: edgeNodeId :: _ =>
    if space ≠ sparkplugNamespace then .error .valueError
    else do
      let payload ← decodeSparkplugPayload data
      if messageType = str "NBIRTH" then return []
      else if messageType = str "NDATA" ∨ messageType = str "DDATA" then
        readingLines rt topic edgeNodeId payload
      else throw .valueError
  | _ => .error .valueError

/-! ## Messages -/

/-- `parse_message`, the branch for JSON. -/
def parseJson (clock : ℕ → ℤ) (message : Message) : Except PyError (List Line) :=
  match decodeUtf8 message.payload with
  | none => .error .valueError
  | some text =>
    match rt.loads text with
    | .error .invalid => .error .valueError
    | .error .recursion => .error .recursionError
    | .ok (.dict payload) => buildLines rt clock payload message.topic
    | .ok _ => .error .valueError

/-- `parse_message`. -/
def parseMessage (clock : ℕ → ℤ) (message : Message) : Except PyError (List Line) :=
  if (sparkplugNamespace ++ str "/").isPrefixOf message.topic then
    buildSparkplugLines rt message.topic message.payload
  else parseJson rt clock message

/-- What `DeliveryWorker.process` does with a message, up to the first write. -/
inductive Handling where
  /-- it is acknowledged, and nothing is written -/
  | acknowledge
  | store (lines : List Line)
  /-- the exception leaves `process`, and ends `run` -/
  | raised (e : PyError)

/-- `DeliveryWorker.process`, up to the first write. -/
def process (clock : ℕ → ℤ) (message : Message) : Handling :=
  match parseMessage rt clock message with
  | .error e => if e.caught then .acknowledge else .raised e
  | .ok [] => .acknowledge
  | .ok lines => .store lines

end Aitsm.Ingest
