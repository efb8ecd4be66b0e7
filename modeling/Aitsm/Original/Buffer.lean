import Mathlib.Algebra.Order.Floor.Div
import Aitsm.Library.Fifo
import Aitsm.Original.Transmission

/-!
# The array behind the transmission buffer

`data_transmission.c` keeps its queue in an array: a count says how much of it is
used, a commit moves the rest down, and the timestamp of the oldest measurement
is cached for the flush rule. `Buffer` has these variables as they are, and its
functions return the variables also where they fail.

* `Buffer.Refines` — the array behaves as a bounded queue; `Buffer.refines_fifo`
  proves it of every sequence of calls.
* `Buffer.cadence` — how many measurements a batch has that are taken at equal
  intervals.
* `Transmission` — the same functions on a list, on which the other modules
  build; `add_transmission` and its siblings prove that they agree.

The C expression of the flush rule wraps around here where it overflows.
-/

namespace Aitsm.Original

open Library Library.Wire

theorem Config.empty_fits (cfg : Config) : 0 ≤ cfg.maxMeasurements := Nat.zero_le _

/-- The static variables of `data_transmission.c`. -/
structure Buffer (cfg : Config) where
  measurementBuffer : Vector Measurement cfg.maxMeasurements := .replicate _ ⟨0, 0, 0⟩
  measurementCount : ℕ := 0
  fits : measurementCount ≤ cfg.maxMeasurements := by exact cfg.empty_fits
  firstMeasurementTimestamp : Int64 := 0
  nextSeq : UInt8 := 1
  initialized : Bool := false

namespace Buffer

variable {cfg : Config}

/-- `aitsm_data_transmission_init`. -/
def init : Buffer cfg := { initialized := true }

/-- `aitsm_data_transmission_add`; `none` is the NULL pointer. -/
def add (b : Buffer cfg) (measurement : Option Measurement) : Buffer cfg × Except Errno Unit :=
  match measurement with
  | none => (b, .error .einval)
  | some m =>
    if !b.initialized then (b, .error .eagain)
    else if !cfg.batch ∧ b.measurementCount ≠ 0 then (b, .error .ebusy)
    else if h : cfg.maxMeasurements ≤ b.measurementCount then (b, .error .enospc)
    else
      ({ b with
          firstMeasurementTimestamp :=
            if b.measurementCount = 0 then m.timestamp else b.firstMeasurementTimestamp
          measurementBuffer := b.measurementBuffer.set b.measurementCount m (not_le.mp h)
          measurementCount := b.measurementCount + 1
          fits := not_le.mp h }, .ok ())

/-- `aitsm_data_transmission_has_capacity`. -/
def hasCapacity (b : Buffer cfg) : Bool :=
  if !b.initialized then false else b.measurementCount < cfg.maxMeasurements

/-- `aitsm_data_transmission_should_flush`. -/
def shouldFlush (b : Buffer cfg) (now : Int64) : Bool :=
  if !b.initialized then false
  else if !cfg.batch then 0 < b.measurementCount
  else
    0 < b.measurementCount ∧ (cfg.maxMeasurements ≤ b.measurementCount ∨
      b.firstMeasurementTimestamp ≤ now ∧
      Int64.ofNat cfg.batchIntervalSeconds ≤
        now - b.firstMeasurementTimestamp + Int64.ofNat cfg.measurementIntervalSeconds)

/-- The measurements it holds. -/
def contents (b : Buffer cfg) : List Measurement := front b.measurementBuffer b.measurementCount

/-- `aitsm_data_transmission_format`: the payload, and what is written to
`formatted_count`. `null` says that one of the three pointers is NULL. -/
def format (b : Buffer cfg) (null : Bool) (capacity : ℕ) : Except Errno Bytes × Option ℕ :=
  if null ∨ capacity = 0 then (.error .einval, none)
  else if !b.initialized then (.error .eagain, none)
  else if b.measurementCount = 0 then (.error .enodata, none)
  else
    match sparkplugEncodeNdata capacity b.contents b.nextSeq cfg.batch with
    | .ok payload => (.ok payload, some b.measurementCount)
    | .error err => (.error err, none)

/-- `aitsm_data_transmission_start_session`. -/
def startSession (b : Buffer cfg) : Buffer cfg := { b with nextSeq := 1 }

/-- `aitsm_data_transmission_commit`. -/
def commit (b : Buffer cfg) (count : ℕ) : Buffer cfg × Except Errno Unit :=
  if !b.initialized then (b, .error .eagain)
  else if h : b.measurementCount < count then (b, .error .einval)
  else if count ≠ 0 then
    have hfits := b.fits
    let buffer := moveDown b.measurementBuffer count (b.measurementCount - count) (by omega)
    ({ b with
        measurementBuffer := buffer
        measurementCount := b.measurementCount - count
        fits := by omega
        nextSeq := sparkplugNextSeq b.nextSeq
        firstMeasurementTimestamp :=
          if hcount : b.measurementCount - count = 0 then 0
          else (buffer.get ⟨0, by omega⟩).timestamp }, .ok ())
  else (b, .ok ())

/-- A call of the interface. -/
inductive Call where
  | add (measurement : Option Measurement)
  | format (null : Bool) (capacity : ℕ)
  | commit (count : ℕ)
  | startSession
  | hasCapacity

/-- What a call leaves behind. -/
def call (b : Buffer cfg) : Call → Buffer cfg
  | .add measurement => (b.add measurement).1
  | .format _ _ | .hasCapacity => b
  | .commit count => (b.commit count).1
  | .startSession => b.startSession

/-- The same calls on a queue of at most `capacity` measurements. -/
def Call.onQueue (capacity : ℕ) (q : List Measurement) : Call → List Measurement
  | .add (some m) => Fifo.push capacity q m
  | .commit count => Fifo.discard q count
  | _ => q

/-- The timestamp of the oldest measurement. -/
def oldest : List Measurement → Int64
  | [] => 0
  | m :: _ => m.timestamp

/-- When a queue is to be sent. -/
def Due (cfg : Config) (q : List Measurement) (now : Int64) : Prop :=
  if cfg.batch then
    q.length = cfg.maxMeasurements ∨
      q ≠ [] ∧ oldest q ≤ now ∧
        (cfg.batchIntervalSeconds : ℤ) ≤
          now.toInt - (oldest q).toInt + cfg.measurementIntervalSeconds
  else q ≠ []

/-- The flush rule does not leave `int64_t`. -/
def NoOverflow (cfg : Config) (q : List Measurement) (now : Int64) : Prop :=
  now.toInt - (oldest q).toInt + cfg.measurementIntervalSeconds < 2 ^ 63

/-- The buffer behaves as the queue `q`. -/
structure Refines (b : Buffer cfg) (q : List Measurement) : Prop where
  contents : b.contents = q
  oldest : b.firstMeasurementTimestamp = oldest q
  add_ok : ∀ m, (b.add m).2 = .ok () ↔ m ≠ none ∧ q.length < cfg.maxMeasurements
  add_error : ∀ m err, (b.add m).2 = .error err → (b.add m).1 = b
  commit_ok : ∀ count, (b.commit count).2 = .ok () ↔ count ≤ q.length
  commit_error : ∀ count err, (b.commit count).2 = .error err → (b.commit count).1 = b
  format : ∀ null capacity count, (b.format null capacity).2 = some count ↔
    (∃ payload, (b.format null capacity).1 = .ok payload) ∧ count = q.length
  hasCapacity : b.hasCapacity ↔ ∀ m, (b.add (some m)).2 = .ok ()
  shouldFlush : ∀ now, NoOverflow cfg q now → (b.shouldFlush now ↔ Due cfg q now)

/-! ## The invariant -/

/-- The cached timestamp is that of the array's first element. -/
structure Linked (b : Buffer cfg) : Prop where
  initialized : b.initialized
  first : b.firstMeasurementTimestamp = Buffer.oldest b.contents

theorem length_contents (b : Buffer cfg) : b.contents.length = b.measurementCount :=
  length_front _ b.fits

theorem contents_eq_nil_iff (b : Buffer cfg) : b.contents = [] ↔ b.measurementCount = 0 := by
  rw [← length_contents, List.length_eq_zero_iff]

/-- An element of the array is added, or nothing happens. -/
theorem add_cases (b : Buffer cfg) (hb : b.initialized) (measurement : Option Measurement) :
    (∃ m, measurement = some m ∧ b.measurementCount < cfg.maxMeasurements ∧
      (b.add measurement).2 = .ok () ∧ (b.add measurement).1.contents = b.contents ++ [m] ∧
      (b.add measurement).1.initialized ∧
      (b.add measurement).1.firstMeasurementTimestamp =
        if b.measurementCount = 0 then m.timestamp else b.firstMeasurementTimestamp) ∨
    ((measurement = none ∨ cfg.maxMeasurements ≤ b.measurementCount) ∧
      (∃ err, (b.add measurement).2 = .error err) ∧ (b.add measurement).1 = b) := by
  rcases measurement with _ | m
  · exact .inr ⟨.inl rfl, ⟨.einval, rfl⟩, rfl⟩
  rw [add, if_neg (by simp [hb])]
  split
  · rename_i hbusy
    refine .inr ⟨.inr ?_, ⟨.ebusy, rfl⟩, rfl⟩
    rw [Config.maxMeasurements, if_neg (by simpa using hbusy.1)]
    exact Nat.pos_of_ne_zero hbusy.2
  split
  · exact .inr ⟨.inr ‹_›, ⟨.enospc, rfl⟩, rfl⟩
  · exact .inl ⟨m, rfl, not_le.mp ‹_›, rfl, front_set _ (not_le.mp ‹_›) _, hb, rfl⟩

/-- How `commit` computes the timestamp. -/
theorem first_eq_oldest (buffer : Vector Measurement cfg.maxMeasurements) {k : ℕ}
    (hk : k ≤ cfg.maxMeasurements) :
    (if hcount : k = 0 then 0 else (buffer.get ⟨0, by omega⟩).timestamp) =
      oldest (front buffer k) := by
  split
  · rename_i h0
    rw [h0, front_zero]
    rfl
  · have hpos : 0 < (front buffer k).length := by
      rw [length_front buffer hk]
      omega
    obtain ⟨m, rest, hcons⟩ := List.exists_cons_of_length_pos hpos
    obtain ⟨hn, hget⟩ := getElem_front buffer hk hpos
    simp only [hcons, List.getElem_cons_zero] at hget
    rw [hcons, oldest, hget]
    rfl

/-- A prefix of the array is dropped, or nothing happens. -/
theorem commit_cases (b : Buffer cfg) (hb : b.initialized) (count : ℕ) :
    (count ≤ b.measurementCount ∧ (b.commit count).2 = .ok () ∧
      (b.commit count).1.contents = b.contents.drop count ∧ (b.commit count).1.initialized ∧
      (count ≠ 0 → (b.commit count).1.firstMeasurementTimestamp =
        oldest (b.commit count).1.contents) ∧
      (count = 0 → (b.commit count).1 = b)) ∨
    (b.measurementCount < count ∧ (∃ err, (b.commit count).2 = .error err) ∧
      (b.commit count).1 = b) := by
  have hfits := b.fits
  rw [commit, if_neg (by simp [hb])]
  split
  · exact .inr ⟨‹_›, ⟨.einval, rfl⟩, rfl⟩
  rename_i hle
  split
  · rename_i hcount
    have hlast : count + (b.measurementCount - count) = b.measurementCount := by omega
    refine .inl ⟨not_lt.mp hle, rfl, ?_, hb, fun _ => ?_, fun h0 => absurd h0 hcount⟩
    · exact (front_moveDown b.measurementBuffer (by omega)).trans (by rw [hlast]; rfl)
    · exact first_eq_oldest _ (by omega)
  · rename_i hcount
    obtain rfl : count = 0 := not_not.mp hcount
    exact .inl ⟨Nat.zero_le _, rfl, rfl, hb, fun h0 => absurd rfl h0, fun _ => rfl⟩

theorem linked_init : Linked (init : Buffer cfg) := ⟨rfl, by simp [init, contents, front, oldest]⟩

theorem Linked.call {b : Buffer cfg} (hb : Linked b) (c : Call) :
    Linked (b.call c) ∧ (b.call c).contents = c.onQueue cfg.maxMeasurements b.contents := by
  cases c with
  | add measurement =>
    obtain ⟨m, rfl, hlt, -, hcontents, hinit, hfirst⟩ | ⟨hfull, -, hsame⟩ :=
      b.add_cases hb.initialized measurement
    · refine ⟨⟨hinit, ?_⟩, ?_⟩
      · change (b.add (some m)).1.firstMeasurementTimestamp = oldest (b.add (some m)).1.contents
        rw [hfirst, hcontents]
        split
        · rename_i h0
          rw [b.contents_eq_nil_iff.mpr h0]
          rfl
        · rename_i h0
          obtain ⟨x, rest, hcons⟩ := List.exists_cons_of_ne_nil (mt b.contents_eq_nil_iff.mp h0)
          rw [hb.first, hcons]
          rfl
      · change (b.add (some m)).1.contents = Fifo.push _ b.contents m
        rw [hcontents, Fifo.push, length_contents, if_pos hlt]
    · have hcall : b.call (.add measurement) = b := hsame
      rw [hcall]
      refine ⟨hb, ?_⟩
      rcases hfull with rfl | hfull
      · rfl
      cases measurement with
      | none => rfl
      | some m => rw [Call.onQueue, Fifo.push, length_contents, if_neg (not_lt.mpr hfull)]
  | commit count =>
    obtain ⟨hle, -, hcontents, hinit, hfirst, hzero⟩ | ⟨hlt, -, hsame⟩ :=
      b.commit_cases hb.initialized count
    · have hqueue : (Call.commit count).onQueue cfg.maxMeasurements b.contents =
          b.contents.drop count := by
        rw [Call.onQueue, Fifo.discard, length_contents, if_pos hle]
      refine ⟨⟨hinit, ?_⟩, hcontents.trans hqueue.symm⟩
      rcases eq_or_ne count 0 with h0 | h0
      · have hcall : b.call (.commit count) = b := hzero h0
        rw [hcall]
        exact hb.first
      · exact hfirst h0
    · have hcall : b.call (.commit count) = b := hsame
      rw [hcall, Call.onQueue, Fifo.discard, length_contents, if_neg (not_le.mpr hlt)]
      exact ⟨hb, rfl⟩
  | format null capacity => exact ⟨hb, rfl⟩
  | startSession => exact ⟨⟨hb.initialized, hb.first⟩, rfl⟩
  | hasCapacity => exact ⟨hb, rfl⟩

/-- **The contents are those of a bounded queue**, whatever is called. -/
theorem Linked.run {b : Buffer cfg} (hb : Linked b) (calls : List Call) :
    Linked (calls.foldl Buffer.call b) ∧
      (calls.foldl Buffer.call b).contents =
        calls.foldl (Call.onQueue cfg.maxMeasurements) b.contents := by
  induction calls generalizing b with
  | nil => exact ⟨hb, rfl⟩
  | cons c calls ih =>
    obtain ⟨hnext, hcontents⟩ := hb.call c
    rw [List.foldl_cons, List.foldl_cons, ← hcontents]
    exact ih hnext

/-! ## The refinement -/

theorem add_eq_ok_iff {b : Buffer cfg} (hb : b.initialized) (measurement : Option Measurement) :
    (b.add measurement).2 = .ok () ↔
      measurement ≠ none ∧ b.measurementCount < cfg.maxMeasurements := by
  obtain ⟨m, rfl, hlt, hok, -⟩ | ⟨hfull, ⟨err, herr⟩, -⟩ := b.add_cases hb measurement
  · exact iff_of_true hok ⟨nofun, hlt⟩
  · refine iff_of_false (by rw [herr]; exact nofun) fun h => ?_
    exact hfull.elim h.1 (not_le.mpr h.2)

/-- The C expression computes the flush rule where it does not overflow. -/
theorem flush_expression {batch interval : ℕ} {now first : Int64} (hbatch : batch < 2 ^ 63)
    (hinterval : interval < 2 ^ 63) (hle : first ≤ now)
    (h : now.toInt - first.toInt + interval < 2 ^ 63) :
    Int64.ofNat batch ≤ now - first + Int64.ofNat interval ↔
      (batch : ℤ) ≤ now.toInt - first.toInt + interval := by
  rw [Int64.le_iff_toInt_le] at hle ⊢
  have hdiff : (now.toInt - first.toInt).bmod (2 ^ 64) = now.toInt - first.toInt :=
    Int.bmod_eq_of_le (by omega) (by omega)
  rw [Int64.toInt_ofNat_of_lt hbatch, Int64.toInt_add, Int64.toInt_sub,
    Int64.toInt_ofNat_of_lt hinterval, hdiff, Int.bmod_eq_of_le (by omega) (by omega)]

theorem shouldFlush_iff {b : Buffer cfg} (hb : Linked b) (hcap : 0 < cfg.maxMeasurements)
    (hinterval : cfg.measurementIntervalSeconds < 2 ^ 63)
    (hbatch : cfg.batch → cfg.batchIntervalSeconds < 2 ^ 63) {now : Int64}
    (hover : NoOverflow cfg b.contents now) :
    b.shouldFlush now ↔ Due cfg b.contents now := by
  have hempty := b.contents_eq_nil_iff
  have hfits := b.fits
  rw [NoOverflow, ← hb.first] at hover
  rw [shouldFlush, if_neg (by simp [hb.initialized]), Due]
  rcases hmode : cfg.batch with _ | _
  · simp [hempty, Nat.pos_iff_ne_zero]
  rw [if_neg (by simp), if_pos rfl, ← hb.first, length_contents, decide_eq_true_iff]
  constructor
  · rintro ⟨hpos, hfull | ⟨hle, hdue⟩⟩
    · exact .inl (le_antisymm hfits hfull)
    · exact .inr ⟨fun h0 => hpos.ne' (hempty.mp h0), hle,
        (flush_expression (hbatch hmode) hinterval hle hover).mp hdue⟩
  · rintro (hfull | ⟨hne, hle, hdue⟩)
    · exact ⟨hfull ▸ hcap, .inl hfull.ge⟩
    · exact ⟨Nat.pos_of_ne_zero fun h0 => hne (hempty.mpr h0), .inr ⟨hle,
        (flush_expression (hbatch hmode) hinterval hle hover).mpr hdue⟩⟩

theorem Linked.refines {b : Buffer cfg} (hb : Linked b) (hcap : 0 < cfg.maxMeasurements)
    (hinterval : cfg.measurementIntervalSeconds < 2 ^ 63)
    (hbatch : cfg.batch → cfg.batchIntervalSeconds < 2 ^ 63) : Refines b b.contents where
  contents := rfl
  oldest := hb.first
  add_ok m := by rw [add_eq_ok_iff hb.initialized, length_contents]
  add_error m err h := by
    obtain ⟨-, -, -, hok, -⟩ | ⟨-, -, hsame⟩ := b.add_cases hb.initialized m
    · rw [hok] at h
      cases h
    · exact hsame
  commit_ok count := by
    rw [length_contents]
    obtain ⟨hle, hok, -⟩ | ⟨hlt, ⟨err, herr⟩, -⟩ := b.commit_cases hb.initialized count
    · exact iff_of_true hok hle
    · exact iff_of_false (by rw [herr]; exact nofun) (not_le.mpr hlt)
  commit_error count err h := by
    obtain ⟨-, hok, -⟩ | ⟨-, -, hsame⟩ := b.commit_cases hb.initialized count
    · rw [hok] at h
      cases h
    · exact hsame
  format null capacity count := by
    rw [length_contents, format]
    split
    · simp
    split
    · simp
    split
    · simp
    rcases sparkplugEncodeNdata capacity b.contents b.nextSeq cfg.batch with err | payload
    · simp
    · simp [eq_comm]
  hasCapacity := by
    rw [hasCapacity, if_neg (by simp [hb.initialized]), decide_eq_true_iff]
    constructor
    · exact fun hlt m => (add_eq_ok_iff hb.initialized _).mpr ⟨nofun, hlt⟩
    · exact fun h => ((add_eq_ok_iff hb.initialized _).mp (h ⟨0, 0, 0⟩)).2
  shouldFlush now hover := shouldFlush_iff hb hcap hinterval hbatch hover

/-! ## Measurements at equal intervals -/

/-- `I` seconds lie between each measurement and the next. -/
def Spaced (I : ℕ) (ms : List Measurement) : Prop :=
  ∀ k (hk : k < ms.length), ms[k].timestamp.toInt = (oldest ms).toInt + k * I

instance (I : ℕ) (ms : List Measurement) : Decidable (Spaced I ms) :=
  inferInstanceAs <| Decidable <|
    ∀ k (hk : k < ms.length), ms[k].timestamp.toInt = (oldest ms).toInt + k * I

theorem oldest_take (q : List Measurement) {n : ℕ} (hn : n ≠ 0) : oldest (q.take n) = oldest q := by
  cases q with
  | nil => rw [List.take_nil]
  | cons m q =>
    obtain ⟨n, rfl⟩ := Nat.exists_eq_succ_of_ne_zero hn
    rfl

/-- The queue is due with the sample that fills it or the interval, whichever
comes first. -/
theorem due_iff {ms : List Measurement} (hbatch : cfg.batch) (hcap : 0 < cfg.maxMeasurements)
    (hinterval : 0 < cfg.measurementIntervalSeconds)
    (hms : Spaced cfg.measurementIntervalSeconds ms) {k : ℕ} (hk : k < ms.length) :
    Due cfg ((ms.take (k + 1)).take cfg.maxMeasurements) ms[k].timestamp ↔
      min cfg.maxMeasurements (cfg.batchIntervalSeconds ⌈/⌉ cfg.measurementIntervalSeconds) ≤
        k + 1 := by
  have hlength : ((ms.take (k + 1)).take cfg.maxMeasurements).length =
      min cfg.maxMeasurements (k + 1) := by
    rw [List.length_take, List.length_take, min_eq_left (by omega : k + 1 ≤ ms.length)]
  have hne : (ms.take (k + 1)).take cfg.maxMeasurements ≠ [] := by
    rw [← List.length_pos_iff, hlength]
    omega
  have hnow := hms k hk
  have hle : oldest ms ≤ ms[k].timestamp := by
    rw [Int64.le_iff_toInt_le, hnow]
    exact le_add_of_nonneg_right (by positivity)
  rw [Due, if_pos hbatch, hlength, oldest_take _ hcap.ne', oldest_take _ k.succ_ne_zero,
    min_le_iff, ceilDiv_le_iff_le_mul hinterval, hnow, min_eq_left_iff]
  refine or_congr_right ?_
  have hseconds : (oldest ms).toInt + (k : ℤ) * cfg.measurementIntervalSeconds -
      (oldest ms).toInt + cfg.measurementIntervalSeconds =
        (cfg.measurementIntervalSeconds * (k + 1) : ℕ) := by
    push_cast
    ring
  rw [hseconds, Nat.cast_le]
  exact ⟨fun h => h.2.2, fun h => ⟨hne, hle, h⟩⟩

/-- **Samples at equal intervals**: the first that is to be sent is the one that
fills the buffer or the interval. -/
theorem Linked.cadence {b : Buffer cfg} (hb : Linked b) (hempty : b.contents = [])
    (hbatch : cfg.batch) (hcap : 0 < cfg.maxMeasurements)
    (hinterval : 0 < cfg.measurementIntervalSeconds) (hB : cfg.batchIntervalSeconds < 2 ^ 63)
    {ms : List Measurement} (hms : Spaced cfg.measurementIntervalSeconds ms)
    (hover : ms.length * cfg.measurementIntervalSeconds < 2 ^ 63) {k : ℕ} (hk : k < ms.length) :
    ((ms.take (k + 1)).foldl (fun b m => (b.add (some m)).1) b).shouldFlush ms[k].timestamp ↔
      min cfg.maxMeasurements (cfg.batchIntervalSeconds ⌈/⌉ cfg.measurementIntervalSeconds) ≤
        k + 1 := by
  obtain ⟨hlinked, hcontents⟩ := hb.run ((ms.take (k + 1)).map fun m => .add (some m))
  rw [List.foldl_map] at hlinked hcontents
  rw [hempty, List.foldl_map] at hcontents
  replace hcontents := hcontents.trans (Fifo.foldl_push cfg.maxMeasurements (ms.take (k + 1)) [])
  rw [List.nil_append, List.length_nil, Nat.sub_zero] at hcontents
  have hsamples : (k + 1) * cfg.measurementIntervalSeconds < 2 ^ 63 :=
    lt_of_le_of_lt (Nat.mul_le_mul_right _ hk) hover
  rw [← due_iff hbatch hcap hinterval hms hk, ← hcontents]
  refine shouldFlush_iff hlinked hcap ?_ (fun _ => hB) ?_
  · exact lt_of_le_of_lt (Nat.le_mul_of_pos_left _ k.succ_pos) hsamples
  · rw [NoOverflow, hcontents, oldest_take _ hcap.ne', oldest_take _ k.succ_ne_zero, hms k hk]
    calc (oldest ms).toInt + (k : ℤ) * cfg.measurementIntervalSeconds - (oldest ms).toInt +
          cfg.measurementIntervalSeconds
        = ((k + 1) * cfg.measurementIntervalSeconds : ℕ) := by
          push_cast
          ring
      _ < 2 ^ 63 := by exact_mod_cast hsamples

/-- **The buffer is a bounded queue**, in every build and after every sequence of
calls. Samples that come to the empty queue of a batch build at equal intervals
make it due with number `min capacity ⌈B / I⌉`, and not before. -/
theorem refines_fifo (cfg : Config) (hcap : 0 < cfg.maxMeasurements)
    (hI : 5 ≤ cfg.measurementIntervalSeconds ∧ cfg.measurementIntervalSeconds ≤ 15)
    (hB : cfg.batch → 1 ≤ cfg.batchIntervalSeconds ∧ cfg.batchIntervalSeconds ≤ 3600)
    (calls : List Call) :
    let b : Buffer cfg := calls.foldl call init
    let q := calls.foldl (Call.onQueue cfg.maxMeasurements) []
    b.Refines q ∧
      (cfg.batch → q = [] → ∀ ms, Spaced cfg.measurementIntervalSeconds ms →
        ms.length * cfg.measurementIntervalSeconds < 2 ^ 63 → ∀ k (hk : k < ms.length),
        (((ms.take (k + 1)).foldl (fun b m => (b.add (some m)).1) b).shouldFlush
            ms[k].timestamp ↔
          min cfg.maxMeasurements
            (cfg.batchIntervalSeconds ⌈/⌉ cfg.measurementIntervalSeconds) ≤ k + 1)) := by
  intro b q
  obtain ⟨hlinked, hcontents⟩ := (linked_init : Linked (init : Buffer cfg)).run calls
  have hinit : (init : Buffer cfg).contents = [] := by rw [contents_eq_nil_iff, init]
  rw [hinit] at hcontents
  refine ⟨?_, fun hbatch hq ms hms hover k hk => ?_⟩
  · have hrefines : b.Refines b.contents := hlinked.refines hcap (by omega) fun hbatch => by
      have := hB hbatch
      omega
    have hbq : b.contents = q := hcontents
    rwa [hbq] at hrefines
  · have hseconds := hB hbatch
    exact hlinked.cadence (hcontents.trans hq) hbatch hcap (by omega) (by omega) hms hover hk

/-- The defaults: five minutes at 15-second intervals are 20 measurements. -/
theorem refines_fifo_defaults :
    let b : Buffer { singleConfig with batch := true } := init
    let ms := (List.range 20).map fun k => (⟨Int64.ofNat (100 + 15 * k), 2125, 4550⟩ : Measurement)
    ¬((ms.take 19).foldl (fun b m => (b.add (some m)).1) b).shouldFlush 370 ∧
      ((ms.take 20).foldl (fun b m => (b.add (some m)).1) b).shouldFlush 385 := by
  intro b ms
  have hdue := (refines_fifo { singleConfig with batch := true } (by decide) (by decide)
    (by decide) []).2 rfl rfl ms (by decide) (by decide)
  constructor
  · exact (hdue 18 (by decide)).not.mpr (by decide)
  · exact (hdue 19 (by decide)).mpr (by decide)

/-! ## The list instead of the array -/

/-- The state as the other modules have it. -/
def transmission (b : Buffer cfg) : Transmission cfg where
  items := b.contents
  fits := by
    rw [length_contents]
    exact b.fits
  firstMeasurementTimestamp := b.firstMeasurementTimestamp
  nextSeq := b.nextSeq
  initialized := b.initialized

@[simp] theorem items_transmission (b : Buffer cfg) : b.transmission.items = b.contents := rfl

@[simp] theorem first_transmission (b : Buffer cfg) :
    b.transmission.firstMeasurementTimestamp = b.firstMeasurementTimestamp := rfl

@[simp] theorem nextSeq_transmission (b : Buffer cfg) : b.transmission.nextSeq = b.nextSeq := rfl

@[simp] theorem initialized_transmission (b : Buffer cfg) :
    b.transmission.initialized = b.initialized := rfl

@[simp] theorem count_transmission (b : Buffer cfg) : b.transmission.count = b.measurementCount :=
  b.length_contents

theorem transmission_init : (init : Buffer cfg).transmission = Transmission.init := by
  have hinit : (init : Buffer cfg).contents = [] := by rw [contents_eq_nil_iff, init]
  simp only [transmission, hinit]
  rfl

theorem add_transmission (b : Buffer cfg) (m : Measurement) :
    b.transmission.add m = (b.add (some m)).2.map fun _ => (b.add (some m)).1.transmission := by
  have hset := front_set b.measurementBuffer (k := b.measurementCount)
  rcases hinit : b.initialized with _ | _
  · simp [Transmission.add, add, hinit, Except.map]
  have hready : ¬(!b.initialized) = true := by simp [hinit]
  by_cases hbusy : !cfg.batch ∧ b.measurementCount ≠ 0
  · simp [Transmission.add, add, hinit, hbusy, Except.map]
  simp only [Transmission.add, add, initialized_transmission, count_transmission, if_neg hready,
    if_neg hbusy]
  rcases lt_or_ge b.measurementCount cfg.maxMeasurements with hlt | hfull
  · simp [dif_pos hlt, dif_neg (not_le.mpr hlt), transmission, Except.map, contents, hset]
  · simp [hfull, not_lt.mpr hfull, Except.map]

theorem commit_transmission (b : Buffer cfg) (count : ℕ) :
    b.transmission.commit count =
      (b.commit count).2.map fun _ => (b.commit count).1.transmission := by
  have hfits := b.fits
  rcases hinit : b.initialized with _ | _
  · simp [Transmission.commit, commit, hinit, Except.map]
  rcases lt_or_ge b.measurementCount count with hlt | hle
  · simp [Transmission.commit, commit, hinit, hlt, Except.map]
  rcases eq_or_ne count 0 with rfl | hcount
  · simp [Transmission.commit, commit, hinit, Except.map]
  have hfirst := first_eq_oldest (moveDown b.measurementBuffer count
    (b.measurementCount - count) (by omega)) (by omega : b.measurementCount - count ≤ _)
  have hmoved := front_moveDown b.measurementBuffer
    (by omega : count + (b.measurementCount - count) ≤ cfg.maxMeasurements)
  simp only [Nat.add_sub_cancel' hle] at hmoved
  rw [hmoved] at hfirst
  have hready : ¬(!b.initialized) = true := by simp [hinit]
  simp only [Transmission.commit, commit, initialized_transmission, count_transmission,
    if_neg hready, if_neg (not_lt.mpr hle), dif_neg (not_lt.mpr hle), if_pos hcount]
  simp only [transmission, Except.map, contents, hmoved, hfirst]
  rfl

theorem startSession_transmission (b : Buffer cfg) :
    b.transmission.startSession = b.startSession.transmission := rfl

theorem hasCapacity_transmission (b : Buffer cfg) : b.transmission.hasCapacity = b.hasCapacity := by
  rcases hinit : b.initialized with _ | _
  · simp [Transmission.hasCapacity, hasCapacity, hinit]
  · simp [Transmission.hasCapacity, hasCapacity, hinit]

theorem format_transmission (b : Buffer cfg) (capacity : ℕ) (bdSeq : UInt8) :
    b.transmission.format capacity bdSeq =
      (b.format false capacity).1.map fun payload =>
        ({ type := .ndata, seq := b.nextSeq, bdSeq := bdSeq, measurements := b.contents,
           payload := payload }, b.measurementCount) := by
  rw [Transmission.format, format, count_transmission, initialized_transmission]
  rcases eq_or_ne capacity 0 with h0 | h0
  · simp [h0, Except.map]
  rcases hinit : b.initialized with _ | _
  · simp [h0, Except.map]
  rcases eq_or_ne b.measurementCount 0 with hempty | hne
  · simp [h0, hempty, Except.map]
  rcases he : sparkplugEncodeNdata capacity b.contents b.nextSeq cfg.batch with err | payload
  · simp [h0, hne, ndataPublication, he, Except.map]
  · simp [h0, hne, ndataPublication, he, Except.map]

theorem shouldFlush_transmission {b : Buffer cfg} (hb : Linked b)
    (hinterval : cfg.measurementIntervalSeconds < 2 ^ 63)
    (hbatch : cfg.batch → cfg.batchIntervalSeconds < 2 ^ 63) {now : Int64}
    (hover : NoOverflow cfg b.contents now) :
    b.transmission.shouldFlush now = b.shouldFlush now := by
  rw [NoOverflow, ← hb.first] at hover
  rw [Transmission.shouldFlush, shouldFlush, count_transmission, initialized_transmission,
    first_transmission]
  rcases hmode : cfg.batch with _ | _
  · rfl
  have hexpr : ∀ hle : b.firstMeasurementTimestamp ≤ now, _ :=
    fun hle => flush_expression (hbatch hmode) hinterval hle hover
  simp +contextual only [← and_congr_right_iff.mpr hexpr]

end Buffer

end Aitsm.Original
