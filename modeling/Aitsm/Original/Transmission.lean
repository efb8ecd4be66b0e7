import Aitsm.Firmware.Sparkplug

/-!
# The transmission buffer (`data_transmission.c`)

Measurements wait here until an NDATA that contains them is acknowledged.
`format` encodes everything that is buffered and leaves it where it is;
`commit` removes a prefix and only then advances the sequence number, so that a
payload that is sent again carries the same number. All functions run under one
mutex and are single steps here.

`now - first_measurement_timestamp` is computed in ℤ: the C expression is only
defined where it does not leave `int64_t`.
-/

namespace Aitsm.Original

open Library Library.Wire

/-- The Kconfig symbols of the measurement side. -/
structure Config where
  /-- `CONFIG_AITSM_TRANSMISSION_BATCH`, against `…_SINGLE` -/
  batch : Bool
  /-- `CONFIG_AITSM_BATCH_MAX_SAMPLES` -/
  batchMaxSamples : ℕ
  /-- `CONFIG_AITSM_MEASUREMENT_INTERVAL_SECONDS` -/
  measurementIntervalSeconds : ℕ
  /-- `CONFIG_AITSM_BATCH_INTERVAL_SECONDS` -/
  batchIntervalSeconds : ℕ
  /-- `CONFIG_AITSM_TRANSMISSION_PAYLOAD_SIZE` -/
  payloadSize : ℕ
  /-- `CONFIG_AITSM_SPARKPLUG_GROUP_ID` -/
  groupId : Bytes
  /-- `CONFIG_AITSM_SPARKPLUG_EDGE_NODE_ID` -/
  edgeNodeId : Bytes

/-- `AITSM_MAX_MEASUREMENTS`. -/
def Config.maxMeasurements (cfg : Config) : ℕ := if cfg.batch then cfg.batchMaxSamples else 1

/-- The defaults, except that each measurement is sent by itself. -/
def singleConfig : Config :=
  { batch := false, batchMaxSamples := 28, measurementIntervalSeconds := 15,
    batchIntervalSeconds := 300, payloadSize := 2048, groupId := cString "aitsm",
    edgeNodeId := cString "thingy91x" }

/-- The module's state; the buffer cannot hold more than its array. -/
structure Transmission (cfg : Config) where
  items : List Measurement := []
  fits : items.length ≤ cfg.maxMeasurements := by exact Nat.zero_le _
  firstMeasurementTimestamp : Int64 := 0
  nextSeq : UInt8 := 1
  initialized : Bool := false

namespace Transmission

variable {cfg : Config}

/-- `measurement_count`. -/
def count (t : Transmission cfg) : ℕ := t.items.length

/-- `aitsm_data_transmission_init`. -/
def init : Transmission cfg := { initialized := true }

/-- `aitsm_data_transmission_add`. -/
def add (t : Transmission cfg) (m : Measurement) : Except Errno (Transmission cfg) :=
  if !t.initialized then .error .eagain
  else if !cfg.batch ∧ t.count ≠ 0 then .error .ebusy
  else if h : t.count < cfg.maxMeasurements then
    .ok { t with
      items := t.items ++ [m]
      fits := by
        rw [List.length_append]
        exact h
      firstMeasurementTimestamp :=
        if t.count = 0 then m.timestamp else t.firstMeasurementTimestamp }
  else .error .enospc

/-- `aitsm_data_transmission_has_capacity`. -/
def hasCapacity (t : Transmission cfg) : Bool :=
  t.initialized && t.count < cfg.maxMeasurements

/-- `aitsm_data_transmission_should_flush`. -/
def shouldFlush (t : Transmission cfg) (now : Int64) : Bool :=
  if !t.initialized then false
  else if !cfg.batch then 0 < t.count
  else
    0 < t.count ∧ (cfg.maxMeasurements ≤ t.count ∨
      t.firstMeasurementTimestamp ≤ now ∧
      (cfg.batchIntervalSeconds : ℤ) ≤
        now.toInt - t.firstMeasurementTimestamp.toInt + cfg.measurementIntervalSeconds)

/-- `aitsm_data_transmission_format`: the message, and how many measurements it
contains. `bdSeq` is not part of an NDATA; it only labels the session. -/
def format (t : Transmission cfg) (capacity : ℕ) (bdSeq : UInt8) :
    Except Errno (Publication × ℕ) :=
  if capacity = 0 then .error .einval
  else if !t.initialized then .error .eagain
  else if t.count = 0 then .error .enodata
  else
    (ndataPublication capacity t.items t.nextSeq bdSeq cfg.batch).map fun p => (p, t.count)

/-- `aitsm_data_transmission_start_session`. -/
def startSession (t : Transmission cfg) : Transmission cfg := { t with nextSeq := 1 }

/-- `aitsm_data_transmission_commit`. -/
def commit (t : Transmission cfg) (count : ℕ) : Except Errno (Transmission cfg) :=
  if !t.initialized then .error .eagain
  else if t.count < count then .error .einval
  else if count ≠ 0 then
    .ok { t with
      items := t.items.drop count
      fits := by
        rw [List.length_drop]
        exact le_trans (Nat.sub_le _ _) t.fits
      nextSeq := sparkplugNextSeq t.nextSeq
      firstMeasurementTimestamp :=
        match t.items.drop count with
        | [] => 0
        | m :: _ => m.timestamp }
  else .ok t

/-! ## What the operations do to the queue -/

theorem add_ok {t t' : Transmission cfg} {m : Measurement} (h : t.add m = .ok t') :
    t'.items = t.items ++ [m] ∧ t'.nextSeq = t.nextSeq ∧ t'.initialized := by
  unfold add at h
  split at h
  · cases h
  rename_i hinit
  split at h
  · cases h
  split at h
  · obtain rfl := Except.ok.inj h
    exact ⟨rfl, rfl, by simpa using hinit⟩
  · cases h

theorem format_ok {t : Transmission cfg} {capacity count : ℕ} {bdSeq : UInt8} {p : Publication}
    (h : t.format capacity bdSeq = .ok (p, count)) :
    count = t.count ∧ 0 < t.count ∧
      ndataPublication capacity t.items t.nextSeq bdSeq cfg.batch = .ok p := by
  unfold format at h
  split at h
  · cases h
  split at h
  · cases h
  split at h
  · cases h
  rename_i hcount
  rcases hp : ndataPublication capacity t.items t.nextSeq bdSeq cfg.batch with err | q
  · rw [hp] at h
    cases h
  · rw [hp] at h
    obtain ⟨rfl, rfl⟩ := Prod.mk.inj (Except.ok.inj h)
    exact ⟨rfl, Nat.pos_of_ne_zero hcount, rfl⟩

/-- A commit of a nonempty prefix succeeds and takes out exactly that prefix. -/
theorem commit_prefix {t : Transmission cfg} {count : ℕ} (hinit : t.initialized)
    (hpos : 0 < count) (hle : count ≤ t.count) :
    ∃ t', t.commit count = .ok t' ∧ t'.items = t.items.drop count ∧
      t'.nextSeq = sparkplugNextSeq t.nextSeq ∧ t'.initialized := by
  unfold commit
  rw [if_neg (by simp [hinit]), if_neg (not_lt.mpr hle), if_pos hpos.ne']
  exact ⟨_, rfl, rfl, rfl, hinit⟩

end Transmission

end Aitsm.Original
