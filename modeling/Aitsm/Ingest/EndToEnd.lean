import Aitsm.Ingest.Numbers
import Aitsm.Ingest.Decode

/-!
# From the measurement to the row

An NDATA of the firmware comes out of the decoder as one line a measurement
(`ndata_end_to_end`). `measurementLine` is that line: it is made from the
measurement and the edge node alone, so the batch, the sequence number and the
flags of the message that carried it leave no trace.
-/

namespace Aitsm.Ingest

open Library Library.Wire

/-- A value of the firmware, as it is stored. -/
def centiValue (x : ℤ) : PyFloat := (PyFloat.ofBinary32 (centiFloat x)).round2

/-- The fields of a measurement. -/
def measurementFields (m : Measurement) : List (Str × PyFloat) :=
  [(str "temperature", centiValue m.temperatureCentiCelsius.toInt),
    (str "battery", centiValue m.batteryCentiPercent.toNat)]

/-- The line of a measurement. -/
def measurementLine (edgeNodeId : Str) (m : Measurement) : Line :=
  { deviceId := edgeNodeId, fields := measurementFields m,
    timestampNs := m.timestamp.toInt * 1000000000 }

/-- The entry of a measurement in the readings of a message. -/
def measurementReading (m : Measurement) : FieldValue × List (Str × PyFloat) :=
  (.int m.timestampMs.toNat, measurementFields m)

variable {rt : Runtime}

/-! ## The readings -/

theorem setItem_append {κ ν : Type} [DecidableEq κ] {d : List (κ × ν)} {key : κ}
    (hkey : key ∉ d.map Prod.fst) (d' : List (κ × ν)) (value : ν) :
    setItem (d ++ d') key value = d ++ setItem d' key value := by
  induction d with
  | nil => rfl
  | cons entry d ih =>
    rw [List.map_cons, List.mem_cons, not_or] at hkey
    rw [List.cons_append, setItem, if_neg (Ne.symm hkey.1), ih hkey.2, List.cons_append]

theorem lookup_new {readings : Readings} {timestamp : FieldValue}
    (hnew : timestamp ∉ readings.map Prod.fst) : readings.lookup timestamp = none := by
  rw [List.lookup_eq_none_iff]
  intro entry hentry
  rw [bne_iff_ne]
  rintro rfl
  exact hnew (List.mem_map_of_mem hentry)

/-- The first value of a new timestamp. -/
theorem Readings.set_new {readings : Readings} {timestamp : FieldValue}
    (hnew : timestamp ∉ readings.map Prod.fst) (name : Str) (value : PyFloat) :
    readings.set timestamp name value = readings ++ [(timestamp, [(name, value)])] := by
  have happend := setItem_append hnew [] [(name, value)]
  rw [List.append_nil] at happend
  rw [Readings.set, lookup_new hnew, Option.getD_none, setItem, happend, setItem]

/-- Its second one. -/
theorem Readings.set_last {readings : Readings} {timestamp : FieldValue}
    (hnew : timestamp ∉ readings.map Prod.fst) (values : List (Str × PyFloat)) (name : Str)
    (value : PyFloat) :
    Readings.set (readings ++ [(timestamp, values)]) timestamp name value =
      readings ++ [(timestamp, setItem values name value)] := by
  have hlookup : (readings ++ [(timestamp, values)]).lookup timestamp = some values := by
    rw [List.lookup_append, lookup_new hnew, Option.none_or, List.lookup_cons_self]
  rw [Readings.set, hlookup, Option.getD_some, setItem_append hnew, setItem, if_pos rfl]

/-- The two metrics of a measurement make its reading. -/
theorem foldlM_measurementDicts {payloadTimestamp : Option FieldValue} {readings : Readings}
    {m : Measurement} (hnew : (measurementReading m).1 ∉ readings.map Prod.fst) :
    (measurementDicts m).foldlM (addReading rt payloadTimestamp) readings =
      .ok (readings ++ [measurementReading m]) := by
  have hname : metricTemperature.map UInt8.toNat = str "temperature" ∧
      metricBattery.map UInt8.toNat = str "battery" := by decide +kernel
  have hknown : str "temperature" ∈ numericFields ∧ str "battery" ∈ numericFields := by
    decide +kernel
  have hfields : setItem [(str "temperature", centiValue m.temperatureCentiCelsius.toInt)]
      (str "battery") (centiValue m.batteryCentiPercent.toNat) = measurementFields m := by
    have hne : str "temperature" ≠ str "battery" := by decide +kernel
    rw [setItem, if_neg hne, setItem]
    rfl
  have hset := Readings.set_new hnew (str "temperature")
    (centiValue m.temperatureCentiCelsius.toInt)
  have hset' := Readings.set_last hnew [(str "temperature",
    centiValue m.temperatureCentiCelsius.toInt)] (str "battery")
    (centiValue m.batteryCentiPercent.toNat)
  rw [hfields] at hset'
  simp only [measurementReading, centiValue] at hset hset'
  simp [measurementDicts, floatDict, addReading, hname, hknown, MetricNumber.toFloat, hset, hset',
    measurementReading, bind, Except.bind, pure, Except.pure]

theorem foldlM_measurementsDicts {payloadTimestamp : Option FieldValue} :
    ∀ {measurements : List Measurement} {readings : Readings},
      (readings.map Prod.fst ++ measurements.map fun m => (measurementReading m).1).Nodup →
      (measurements.flatMap measurementDicts).foldlM (addReading rt payloadTimestamp) readings =
        .ok (readings ++ measurements.map measurementReading) := by
  intro measurements
  induction measurements with
  | nil =>
    intro readings _
    simp [pure, Except.pure]
  | cons m measurements ih =>
    intro readings hnodup
    have hnew : (measurementReading m).1 ∉ readings.map Prod.fst := by
      intro hmem
      have := List.nodup_append.mp hnodup
      exact this.2.2 _ hmem _ (by simp) rfl
    rw [List.flatMap_cons, List.foldlM_append, foldlM_measurementDicts hnew]
    simp only [bind, Except.bind]
    rw [ih (by simpa using hnodup)]
    simp

/-! ## Measurements -/

/-- The times that the firmware and the decoder agree on. -/
def InRange (m : Measurement) : Prop :=
  10000000 < m.timestamp.toInt ∧ m.timestamp.toInt < 2 ^ 32

theorem timestampMs_toNat {m : Measurement} (hm : InRange m) :
    m.timestampMs.toNat = m.timestamp.toInt.toNat * 1000 := by
  obtain ⟨hlo, hhi⟩ := hm
  have hpos : (0 : Int64) ≤ m.timestamp := by
    rw [Int64.le_iff_toInt_le]
    have : (0 : Int64).toInt = 0 := rfl
    omega
  have hseconds : m.timestamp.toUInt64.toNat = m.timestamp.toInt.toNat :=
    Int64.toNat_toUInt64_of_le hpos
  rw [Measurement.timestampMs, UInt64.toNat_mul, hseconds]
  have hthousand : (1000 : UInt64).toNat = 1000 := rfl
  rw [hthousand]
  omega

theorem measurementFields_finite (m : Measurement) : ∀ f ∈ measurementFields m, f.2.isFinite := by
  have htemperature : m.temperatureCentiCelsius.toInt.natAbs < 2 ^ 32 := by
    have := m.temperatureCentiCelsius.toInt_lt
    have := m.temperatureCentiCelsius.le_toInt
    omega
  have hbattery : (m.batteryCentiPercent.toNat : ℤ).natAbs < 2 ^ 32 := by
    have := m.batteryCentiPercent.toNat_lt
    omega
  intro f hf
  simp only [measurementFields, List.mem_cons, List.not_mem_nil, or_false] at hf
  rcases hf with rfl | rfl
  · exact centi_isFinite htemperature
  · exact centi_isFinite hbattery

/-- The line of a measurement is built from its reading. -/
theorem buildLine_measurement {edge : Str} (hstrip : strip edge = edge) (hedge : edge ≠ [])
    {m : Measurement} (hm : InRange m) (topic : Str) :
    buildLine rt 0 (readingPayload edge (measurementReading m).1 (measurementReading m).2) topic =
      .ok (measurementLine edge m) := by
  have hfinite := measurementFields_finite m
  set payload := readingPayload edge (measurementReading m).1 (measurementReading m).2 with hpayload
  have hdevice : deviceId payload topic = .ok edge := by
    have hget : payload.get (str "device_id") = .str edge := rfl
    have htruthy : (Value.str edge).truthy = true := by simpa [Value.truthy] using hedge
    rw [deviceId, hget, Value.or, if_pos htruthy]
    simp only [hstrip]
    rw [if_neg (by simpa using hedge)]
  have hvalues : lineValues payload = .ok payload := by
    have hget : payload.getD (str "values") (.dict payload) = .dict payload := rfl
    rw [lineValues, hget]
  have hfields : lineFields rt payload = .ok (measurementFields m) := by
    have htemperature : temperatureSource payload =
        .float (centiValue m.temperatureCentiCelsius.toInt) := rfl
    have hbattery : payload.get (str "battery") = .float (centiValue m.batteryCentiPercent.toNat) :=
      rfl
    have hnumber : ∀ x : PyFloat, x.isFinite → finiteNumber rt (.float x) = .ok (some x) := by
      intro x hx
      simp only [finiteNumber, Runtime.float, bind, Except.bind, hx, if_true, pure, Except.pure]
    have hx := hnumber _ (hfinite _ List.mem_cons_self)
    have hy := hnumber _ (hfinite _ (List.mem_cons_of_mem _ List.mem_cons_self))
    rw [lineFields, htemperature, hbattery]
    simp only [hx, hy, bind, Except.bind]
    rfl
  have htime : timestampNs rt 0 (payload.get (str "timestamp")) =
      .ok (m.timestamp.toInt * 1000000000) := by
    have hget : payload.get (str "timestamp") = .int m.timestampMs.toNat := rfl
    obtain ⟨hlo, hhi⟩ := hm
    rw [hget, timestampMs_toNat ⟨hlo, hhi⟩, timestampNs_ms rt 0 (by omega) (by omega)]
    congr 1
    omega
  simp only [buildLine, hdevice, hvalues, hfields, htime, bind, Except.bind, pure, Except.pure]
  rfl

/-! ## The message -/

/-- The topic of an NDATA. -/
def ndataTopic (group edge : Str) : Str :=
  str "spBv1.0/" ++ group ++ str "/NDATA/" ++ edge

theorem split_ndataTopic {group edge : Str} (hgroup : '/'.toNat ∉ group)
    (hedge : '/'.toNat ∉ edge) :
    split (ndataTopic group edge) '/'.toNat = [sparkplugNamespace, group, str "NDATA", edge] := by
  have htopic : ndataTopic group edge = sparkplugNamespace ++ '/'.toNat ::
      (group ++ '/'.toNat :: (str "NDATA" ++ '/'.toNat :: edge)) := by
    have hspace : str "spBv1.0/" = sparkplugNamespace ++ ['/'.toNat] := by decide +kernel
    have htype : str "/NDATA/" = '/'.toNat :: (str "NDATA" ++ ['/'.toNat]) := by decide +kernel
    rw [ndataTopic, hspace, htype]
    simp only [List.append_assoc, List.cons_append, List.nil_append]
  have hspace : '/'.toNat ∉ sparkplugNamespace := by decide +kernel
  have htype : '/'.toNat ∉ str "NDATA" := by decide +kernel
  rw [htopic, split, List.splitOn_append_cons_self_of_not_mem hspace,
    List.splitOn_append_cons_self_of_not_mem hgroup,
    List.splitOn_append_cons_self_of_not_mem htype, List.splitOn_eq_singleton hedge]

/-- Readings with numbers for timestamps come in their order. -/
theorem sortReadings_map {α : Type} (timestamp : α → ℕ) (values : α → List (Str × PyFloat))
    (l : List α) :
    sortReadings (l.map fun a => (.int (timestamp a), values a)) =
      .ok ((l.mergeSort fun a b => timestamp a ≤ timestamp b).map fun a =>
        (.int (timestamp a), values a)) := by
  have hle : ∀ a b : α, (FieldValue.int (timestamp a)).le? (.int (timestamp b)) =
      some (decide (timestamp a ≤ timestamp b)) := fun _ _ => rfl
  have hall : ((l.map fun a => (FieldValue.int (timestamp a), values a)).all fun a =>
      (l.map fun a => (FieldValue.int (timestamp a), values a)).all fun b =>
        (a.1.le? b.1).isSome) = true := by
    simp [List.all_eq_true, hle]
  rw [sortReadings, if_pos hall, List.map_mergeSort]
  intro a _ b _
  rw [hle, Option.getD_some]

/-- What a list comprehension collects, when nothing is raised. -/
theorem mapM_eq_ok {α β : Type} {f : α → Except PyError β} {g : α → β} {l : List α}
    (h : ∀ a ∈ l, f a = .ok (g a)) : l.mapM f = .ok (l.map g) := by
  induction l with
  | nil => rfl
  | cons a l ih =>
    rw [List.mapM_cons, h a List.mem_cons_self, ih fun b hb => h b (List.mem_cons_of_mem _ hb)]
    rfl

/-- **End to end.** An NDATA that could be encoded becomes one line for each of
its measurements, in the order of their times; the line is the measurement's own,
whatever the batch, the sequence number and the flag were. -/
theorem ndata_end_to_end {capacity : ℕ} {measurements : List Measurement} {seq : UInt8}
    {historical : Bool} {bytes : Bytes} {group edge : Str}
    (hdistinct : (measurements.map Measurement.timestamp).Nodup)
    (hrange : ∀ m ∈ measurements, InRange m) (hgroup : '/'.toNat ∉ group)
    (hlevel : '/'.toNat ∉ edge) (hstrip : strip edge = edge) (hedge : edge ≠ [])
    (hencode : sparkplugEncodeNdata capacity measurements seq historical = .ok bytes) :
    ∃ sorted : List Measurement, sorted.Perm measurements ∧
      (sorted.Pairwise fun a b => a.timestamp.toInt < b.timestamp.toInt) ∧
      buildSparkplugLines rt (ndataTopic group edge) bytes =
        .ok (sorted.map (measurementLine edge)) := by
  obtain ⟨timestamp, hdecode⟩ := decodePayload_ndata hencode
  have hne : measurements ≠ [] := by
    rintro rfl
    cases hencode
  let le := fun a b : Measurement => decide (a.timestampMs.toNat ≤ b.timestampMs.toNat)
  have hperm := List.mergeSort_perm measurements le
  have hrange' : ∀ m ∈ measurements.mergeSort le, InRange m :=
    fun m hm => hrange m (hperm.mem_iff.mp hm)
  refine ⟨measurements.mergeSort le, hperm, ?_, ?_⟩
  · -- the times in seconds rise with the times in milliseconds, and differ
    have hsorted : (measurements.mergeSort le).Pairwise fun a b => le a b :=
      List.pairwise_mergeSort (by simp [le]; omega) (by simp [le]; omega) measurements
    have hdiffer : (measurements.mergeSort le).Pairwise fun a b => a.timestamp ≠ b.timestamp :=
      List.pairwise_map.mp ((hperm.map Measurement.timestamp).nodup_iff.mpr hdistinct)
    refine (hsorted.and hdiffer).imp_of_mem fun {a b} ha hb hab => ?_
    have hle : a.timestampMs.toNat ≤ b.timestampMs.toNat := of_decide_eq_true hab.1
    rw [timestampMs_toNat (hrange' a ha), timestampMs_toNat (hrange' b hb)] at hle
    have hne : a.timestamp.toInt ≠ b.timestamp.toInt := fun heq => hab.2 (Int64.toInt_inj.mp heq)
    have hlo := (hrange' a ha).1
    omega
  · have hreadings : (measurements.flatMap measurementDicts).foldlM (addReading rt timestamp) [] =
        .ok (measurements.map measurementReading) := by
      refine foldlM_measurementsDicts (List.pairwise_map.mpr ?_)
      refine (List.pairwise_map.mp hdistinct).imp_of_mem fun {a b} ha hb hne heq => hne ?_
      have hms : a.timestampMs.toNat = b.timestampMs.toNat := FieldValue.int.inj heq
      rw [timestampMs_toNat (hrange a ha), timestampMs_toNat (hrange b hb)] at hms
      have hlo := (hrange a ha).1
      have hlo' := (hrange b hb).1
      exact Int64.toInt_inj.mp (by omega)
    have hlines : ((measurements.mergeSort le).map measurementReading).mapM
        (fun reading => buildLine rt 0 (readingPayload edge reading.1 reading.2)
          (ndataTopic group edge)) = .ok ((measurements.mergeSort le).map (measurementLine edge)) := by
      rw [List.mapM_map]
      exact mapM_eq_ok fun m hm => buildLine_measurement hstrip hedge (hrange' m hm) _
    have hsorted : sortReadings (measurements.map measurementReading) =
        .ok ((measurements.mergeSort le).map measurementReading) :=
      sortReadings_map _ measurementFields measurements
    have hbirth : str "NDATA" ≠ str "NBIRTH" := by decide +kernel
    rw [buildSparkplugLines, split_ndataTopic hgroup hlevel]
    simp only [hdecode, bind, Except.bind, hbirth, readingLines, hreadings]
    rw [if_neg (by simp), if_neg (by simp), if_pos (by simp), if_neg (by simpa using hne),
      hsorted]
    exact hlines

/-- Two measurements, the newer one first. -/
def twoMeasurements : List Measurement :=
  [{ timestamp := 1790841960, temperatureCentiCelsius := 2150, batteryCentiPercent := 9000 },
    { timestamp := 1790841900, temperatureCentiCelsius := -350, batteryCentiPercent := 9010 }]

theorem ndata_end_to_end_two :
    ∃ bytes, sparkplugEncodeNdata 156 twoMeasurements 3 true = .ok bytes ∧
      ∃ sorted : List Measurement, sorted.Perm twoMeasurements ∧
        (sorted.Pairwise fun a b => a.timestamp.toInt < b.timestamp.toInt) ∧
        buildSparkplugLines bareRuntime (ndataTopic (str "aitsm") (str "thingy91x")) bytes =
          .ok (sorted.map (measurementLine (str "thingy91x"))) := by
  have hfits : (sparkplugEncodeNdata 156 twoMeasurements 3 true).toOption.isSome := by
    decide +kernel
  rcases hencode : sparkplugEncodeNdata 156 twoMeasurements 3 true with e | bytes
  · rw [hencode] at hfits
    cases hfits
  · have hrange : ∀ m ∈ twoMeasurements,
        10000000 < m.timestamp.toInt ∧ m.timestamp.toInt < 2 ^ 32 := by decide +kernel
    exact ⟨bytes, rfl, ndata_end_to_end (by decide +kernel) hrange (by decide +kernel)
      (by decide +kernel) (by decide +kernel) (by decide +kernel) hencode⟩

end Aitsm.Ingest
