import Aitsm.Ingest.Message

/-!
# The messages that stop the service

`process` catches `ValueError` and `TypeError` around `parse_message`. A message
is `Poison` when the first thing in it that cannot be parsed raises something
else; then the exception ends the worker, and the broker delivers the message
again to the next one.

* a metric whose name is a number, or whose float or double has the wrong size;
* a JSON number that is too large for a `float`;
* a timestamp that `datetime` cannot represent, but does not refuse with a
  `ValueError`;
* a JSON text that is nested too deeply.

`parse_contained_iff` says that these are all.
-/

namespace Aitsm.Ingest

open Library Library.Wire

/-! ## Exceptions that are not caught -/

section Escapes

variable {α β σ : Type}

/-- The exception is not caught. -/
def Escapes (r : Except PyError α) : Prop := ∃ e, r = .error e ∧ e.caught = false

@[simp] theorem escapes_ok (a : α) : ¬Escapes (.ok a : Except PyError α) := by
  rintro ⟨e, h, -⟩
  cases h

@[simp] theorem escapes_pure (a : α) : ¬Escapes (pure a : Except PyError α) := escapes_ok a

@[simp] theorem escapes_error (e : PyError) :
    Escapes (.error e : Except PyError α) ↔ e.caught = false := by
  refine ⟨?_, fun h => ⟨e, rfl, h⟩⟩
  rintro ⟨e', h, he⟩
  cases h
  exact he

@[simp] theorem escapes_throw (e : PyError) :
    Escapes (throw e : Except PyError α) ↔ e.caught = false := escapes_error e

/-- The first of two steps fails, or the second. -/
theorem escapes_bind {x : Except PyError α} {f : α → Except PyError β} :
    Escapes (x >>= f) ↔ Escapes x ∨ ∃ a, x = .ok a ∧ Escapes (f a) := by
  cases x with
  | error e =>
    have herror : (Except.error e >>= f) = .error e := rfl
    rw [herror, escapes_error, escapes_error]
    exact ⟨.inl, fun h => h.resolve_right fun ⟨a, ha, _⟩ => by cases ha⟩
  | ok a =>
    refine ⟨fun h => .inr ⟨a, rfl, h⟩, fun h => ?_⟩
    obtain ⟨a', ha, h⟩ := h.resolve_left (escapes_ok a)
    cases ha
    exact h

@[simp] theorem escapes_map {x : Except PyError α} {f : α → β} :
    Escapes (f <$> x) ↔ Escapes x := by
  rw [map_eq_pure_bind, escapes_bind]
  exact or_iff_left fun ⟨_, _, h⟩ => escapes_pure _ h

/-- The first element that is not `ok` is `bad`. -/
def First (ok bad : α → Prop) (l : List α) : Prop :=
  ∃ l₁ x l₂, l = l₁ ++ x :: l₂ ∧ (∀ y ∈ l₁, ok y) ∧ bad x

@[simp] theorem first_nil (ok bad : α → Prop) : ¬First ok bad [] := by
  rintro ⟨l₁, x, l₂, h, -⟩
  simp at h

theorem first_cons {ok bad : α → Prop} {x : α} {l : List α} :
    First ok bad (x :: l) ↔ bad x ∨ ok x ∧ First ok bad l := by
  constructor
  · rintro ⟨l₁, y, l₂, h, hok, hbad⟩
    cases l₁ with
    | nil =>
      cases h
      exact .inl hbad
    | cons x' l₁ =>
      obtain ⟨rfl, rfl⟩ := List.cons.inj h
      exact .inr ⟨hok x List.mem_cons_self, l₁, y, l₂, rfl,
        fun z hz => hok z (List.mem_cons_of_mem _ hz), hbad⟩
  · rintro (hbad | ⟨hx, l₁, y, l₂, rfl, hok, hbad⟩)
    · exact ⟨[], x, l, rfl, nofun, hbad⟩
    · refine ⟨x :: l₁, y, l₂, rfl, fun z hz => ?_, hbad⟩
      rcases List.mem_cons.mp hz with rfl | hz
      · exact hx
      · exact hok z hz

/-- A loop whose body fails on the same elements in every state. -/
theorem escapes_foldlM {f : σ → α → Except PyError σ} {ok bad : α → Prop}
    (hok : ∀ s x, (∃ t, f s x = .ok t) ↔ ok x) (hbad : ∀ s x, Escapes (f s x) ↔ bad x)
    {l : List α} {s : σ} : Escapes (l.foldlM f s) ↔ First ok bad l := by
  induction l generalizing s with
  | nil => simp
  | cons x l ih =>
    rw [List.foldlM_cons, escapes_bind, first_cons, hbad]
    refine or_congr Iff.rfl ?_
    constructor
    · rintro ⟨t, ht, h⟩
      exact ⟨(hok s x).mp ⟨t, ht⟩, ih.mp h⟩
    · rintro ⟨hx, h⟩
      obtain ⟨t, ht⟩ := (hok s x).mpr hx
      exact ⟨t, ht, ih.mpr h⟩

theorem escapes_mapM {f : α → Except PyError β} {l : List α} :
    Escapes (l.mapM f) ↔ First (fun x => ∃ b, f x = .ok b) (fun x => Escapes (f x)) l := by
  induction l with
  | nil => simp
  | cons x l ih =>
    rw [List.mapM_cons, escapes_bind, first_cons]
    refine or_congr Iff.rfl ?_
    constructor
    · rintro ⟨b, hb, h⟩
      rw [escapes_bind, ih] at h
      exact ⟨⟨b, hb⟩, h.resolve_right fun ⟨_, _, h⟩ => escapes_pure _ h⟩
    · rintro ⟨⟨b, hb⟩, h⟩
      exact ⟨b, hb, escapes_bind.mpr (.inl (ih.mpr h))⟩

/-- Two steps succeed one after the other. -/
theorem bind_ok {x : Except PyError α} {f : α → Except PyError β} {b : β} :
    x >>= f = .ok b ↔ ∃ a, x = .ok a ∧ f a = .ok b := by
  rcases x with e | a
  · constructor
    · intro h
      cases h
    · rintro ⟨a, ha, -⟩
      cases ha
  · constructor
    · exact fun h => ⟨a, rfl, h⟩
    · rintro ⟨a', ha, h⟩
      cases ha
      exact h

/-- What a loop keeps. -/
theorem foldlM_invariant {f : σ → α → Except PyError σ} {P : σ → Prop} {l : List α} {s t : σ}
    (hf : ∀ s x t, x ∈ l → P s → f s x = .ok t → P t) (hs : P s) (h : l.foldlM f s = .ok t) :
    P t := by
  induction l generalizing s with
  | nil =>
    cases h
    exact hs
  | cons x l ih =>
    rw [List.foldlM_cons] at h
    rcases hx : f s x with e | s'
    · rw [hx] at h
      cases h
    · rw [hx] at h
      exact ih (fun s y t hy => hf s y t (List.mem_cons_of_mem _ hy))
        (hf s x s' List.mem_cons_self hs hx) h

end Escapes

/-! ## Lines -/

section Lines

variable (rt : Runtime)

/-- `float(n)` overflows. -/
def TooLarge (n : ℤ) : Prop := binary64.infinity ≤ binary64.round n.natAbs 1

/-- The value of a field overflows. -/
def PoisonNumber : Value → Prop
  | .int n => TooLarge n
  | _ => False

/-- `datetime.fromtimestamp` overflows, or `gmtime` does. -/
def OutOfRange (seconds : PyFloat) : Prop :=
  match seconds.fraction? with
  | none => seconds.isNan = false
  | some (a, b) =>
    microseconds seconds a b / 1000000 < -67768040609740800 ∨
      67768036191676799 < microseconds seconds a b / 1000000

/-- In UTC the year is not one of 1 to 9999. -/
def OutOfYears (t : IsoTime) : Prop :=
  t.localUs - t.offsetUs.getD 0 < -62135596800 * 1000000 ∨
    253402300800 * 1000000 ≤ t.localUs - t.offsetUs.getD 0

/-- The timestamp cannot be represented, and is not refused. -/
def PoisonTimestamp : Value → Prop
  | .int n =>
    TooLarge n ∨ ∃ seconds, parseSeconds (.int n) = .ok seconds ∧ OutOfRange seconds
  | .float x => ∃ seconds, parseSeconds (.float x) = .ok seconds ∧ OutOfRange seconds
  | .str s => ∃ t, rt.fromisoformat (isoText s) = some t ∧ OutOfYears t
  | _ => False

/-- The payload of a line, up to the first thing that is wrong with it. -/
def PoisonLine (payload : Dict) (topic : Str) : Prop :=
  ∃ device values, deviceId payload topic = .ok device ∧ lineValues payload = .ok values ∧
    (PoisonNumber (temperatureSource values) ∨
      (∃ t, finiteNumber rt (temperatureSource values) = .ok t) ∧
        PoisonNumber (values.get (str "battery")) ∨
      (∃ fields, lineFields rt values = .ok fields) ∧
        PoisonTimestamp rt (payload.get (str "timestamp")))

theorem escapes_ofInt (n : ℤ) : Escapes (PyFloat.ofInt n) ↔ TooLarge n := by
  unfold PyFloat.ofInt TooLarge
  dsimp only
  split
  · rename_i h
    refine iff_of_false (escapes_ok _) (not_le.mpr ?_)
    exact of_decide_eq_true h
  · rename_i h
    refine iff_of_true ((escapes_error _).mpr rfl) (not_lt.mp ?_)
    exact fun hlt => h (decide_eq_true hlt)

theorem escapes_finiteNumber (value : Value) :
    Escapes (finiteNumber rt value) ↔ PoisonNumber value := by
  have hfloat : ∀ r : Option PyFloat, ¬Escapes (r.elim (.error .valueError) .ok) := by
    intro r
    cases r <;> simp [PyError.caught]
  cases value with
  | int n => simp [finiteNumber, Runtime.float, escapes_ofInt, PoisonNumber]
  | none | bool b | float x => simp [finiteNumber, Runtime.float, PoisonNumber]
  | list vs | dict entries => simp [finiteNumber, Runtime.float, PoisonNumber, PyError.caught]
  | str s | bytes b => simp [finiteNumber, Runtime.float, PoisonNumber, hfloat]

theorem escapes_fromtimestamp (seconds : PyFloat) :
    Escapes (fromtimestamp seconds) ↔ OutOfRange seconds := by
  unfold fromtimestamp OutOfRange
  rcases seconds.fraction? with _ | ⟨a, b⟩
  · cases seconds.isNan <;> simp [PyError.caught]
  dsimp only
  generalize microseconds seconds a b / 1000000 = whole
  split
  · exact iff_of_true ((escapes_error _).mpr rfl) (by omega)
  split
  · exact iff_of_true ((escapes_error _).mpr rfl) ‹_›
  · rename_i hin
    split
    · exact iff_of_false (by simp [PyError.caught]) hin
    · exact iff_of_false (escapes_ok _) hin

theorem escapes_astimezone (t : IsoTime) : Escapes (astimezone t) ↔ OutOfYears t := by
  unfold astimezone OutOfYears
  dsimp only
  split
  · exact iff_of_true ((escapes_error _).mpr rfl) ‹_›
  · exact iff_of_false (escapes_ok _) ‹_›

theorem escapes_parseTimestamp (now : ℤ) (value : Value) :
    Escapes (parseTimestamp rt now value) ↔ PoisonTimestamp rt value := by
  have hbind : ∀ value : Value, Escapes (parseSeconds value >>= fromtimestamp) ↔
      Escapes (parseSeconds value) ∨
        ∃ seconds, parseSeconds value = .ok seconds ∧ OutOfRange seconds := by
    intro value
    simp [escapes_bind, escapes_fromtimestamp]
  cases value with
  | int n =>
    refine (hbind (.int n)).trans (or_congr_left ?_)
    simp [parseSeconds, escapes_ofInt]
  | float x =>
    refine (hbind (.float x)).trans (or_iff_right ?_)
    exact escapes_ok _
  | str s =>
    unfold parseTimestamp PoisonTimestamp
    rcases h : rt.fromisoformat (isoText s) with _ | t
    · simp [h, PyError.caught]
    · simp [h, escapes_astimezone]
  | none => exact iff_of_false (escapes_ok _) id
  | bool b | bytes b =>
    refine (hbind _).trans (iff_of_false ?_ id)
    simp [parseSeconds, PyError.caught]
  | list vs | dict entries =>
    refine (hbind _).trans (iff_of_false ?_ id)
    simp [parseSeconds, PyError.caught]

theorem escapes_deviceId (payload : Dict) (topic : Str) : ¬Escapes (deviceId payload topic) := by
  unfold deviceId
  split
  · split <;> simp [PyError.caught]
  · simp [PyError.caught]

theorem escapes_lineValues (payload : Dict) : ¬Escapes (lineValues payload) := by
  unfold lineValues
  split <;> simp [PyError.caught]

theorem escapes_lineFields (values : Dict) :
    Escapes (lineFields rt values) ↔ PoisonNumber (temperatureSource values) ∨
      (∃ t, finiteNumber rt (temperatureSource values) = .ok t) ∧
        PoisonNumber (values.get (str "battery")) := by
  unfold lineFields
  rw [escapes_bind, escapes_finiteNumber]
  refine or_congr_right ?_
  have hlast : ∀ t b : Option PyFloat, ¬Escapes (do
      let fields := (t.map (str "temperature", ·)).toList ++ (b.map (str "battery", ·)).toList
      if fields.isEmpty then throw .valueError
      return fields : Except PyError (List (Str × PyFloat))) := by
    intro t b
    dsimp only
    split <;> simp [PyError.caught]
  constructor
  · rintro ⟨t, ht, h⟩
    rw [escapes_bind, escapes_finiteNumber] at h
    exact ⟨⟨t, ht⟩, h.resolve_right fun ⟨b, _, h⟩ => hlast t b h⟩
  · rintro ⟨⟨t, ht⟩, h⟩
    exact ⟨t, ht, escapes_bind.mpr (.inl ((escapes_finiteNumber rt _).mpr h))⟩

theorem escapes_buildLine (now : ℤ) (payload : Dict) (topic : Str) :
    Escapes (buildLine rt now payload topic) ↔ PoisonLine rt payload topic := by
  unfold buildLine PoisonLine
  rw [escapes_bind, or_iff_right (escapes_deviceId payload topic)]
  constructor
  · rintro ⟨device, hdevice, h⟩
    rw [escapes_bind, or_iff_right (escapes_lineValues payload)] at h
    obtain ⟨values, hvalues, h⟩ := h
    refine ⟨device, values, hdevice, hvalues, ?_⟩
    rw [escapes_bind, escapes_lineFields] at h
    rcases h with (h | h) | ⟨fields, hfields, h⟩
    · exact .inl h
    · exact .inr (.inl h)
    · refine .inr (.inr ⟨⟨fields, hfields⟩, ?_⟩)
      simpa [timestampNs, escapes_parseTimestamp] using h
  · rintro ⟨device, values, hdevice, hvalues, h⟩
    refine ⟨device, hdevice, escapes_bind.mpr (.inr ⟨values, hvalues, escapes_bind.mpr ?_⟩)⟩
    rw [escapes_lineFields]
    rcases h with h | h | ⟨⟨fields, hfields⟩, h⟩
    · exact .inl (.inl h)
    · exact .inl (.inr h)
    · refine .inr ⟨fields, hfields, ?_⟩
      simpa [timestampNs, escapes_parseTimestamp] using h

end Lines

/-! ## Fields -/

/-- The field of a metric is decoded. -/
def MetricFieldOk (field : Field) : Prop :=
  match field.number with
  | 1 => ∃ b s, field.value = .bytes b ∧ decodeUtf8 b = some s
  | 12 => ∃ b, field.value = .bytes b ∧ b.length = 4
  | 13 => ∃ b, field.value = .bytes b ∧ b.length = 8
  | _ => True

/-- A name that is a number, a float or a double of the wrong size. -/
def MetricFieldBad (field : Field) : Prop :=
  match field.number with
  | 1 => ∃ n, field.value = .int n
  | 12 => ∃ b, field.value = .bytes b ∧ b.length ≠ 4
  | 13 => ∃ b, field.value = .bytes b ∧ b.length ≠ 8
  | _ => False

/-- In a metric, the first field that cannot be decoded is one of these. -/
def PoisonMetric (data : Bytes) : Prop :=
  First MetricFieldOk MetricFieldBad (decodeFields data).yielded

/-- The field of a payload is decoded. -/
def PayloadFieldOk (field : Field) : Prop :=
  field.number = 2 → ∃ b metric, field.value = .bytes b ∧ decodeMetric b = .ok metric

/-- In a payload, the first field that cannot be decoded is such a metric. -/
def PoisonPayload (data : Bytes) : Prop :=
  First PayloadFieldOk (fun field => field.number = 2 ∧ ∃ b, field.value = .bytes b ∧ PoisonMetric b)
    (decodeFields data).yielded

section Fields

theorem escapes_readVarintFrom (data : Bytes) :
    ∀ shift result, ¬Escapes (readVarintFrom data shift result) := by
  induction data with
  | nil => simp [readVarintFrom, PyError.caught]
  | cons byte rest ih =>
    intro shift result
    unfold readVarintFrom
    split
    · simp [PyError.caught]
    dsimp only
    split
    · simp
    · exact ih _ _

theorem escapes_readVarint (data : Bytes) : ¬Escapes (readVarint data) :=
  escapes_readVarintFrom data 0 0

theorem escapes_readBytes (data : Bytes) (size : ℕ) : ¬Escapes (readBytes data size) := by
  unfold readBytes
  split <;> simp [PyError.caught]

theorem escapes_readField (data : Bytes) : ¬Escapes (readField data) := by
  unfold readField
  rw [escapes_bind, or_iff_right (escapes_readVarint data)]
  rintro ⟨⟨key, rest⟩, -, h⟩
  dsimp only at h
  split at h
  · rw [escapes_bind] at h
    simp [escapes_readVarint] at h
  · rw [escapes_bind, or_iff_right (escapes_readVarint rest)] at h
    obtain ⟨⟨length, rest⟩, -, h⟩ := h
    rw [escapes_bind] at h
    simp [escapes_readBytes] at h
  · rw [escapes_bind] at h
    simp [escapes_readBytes] at h
  · rw [escapes_bind] at h
    simp [escapes_readBytes] at h
  · simp [PyError.caught] at h

/-- `decode_fields` raises nothing but `ValueError`. -/
theorem decodeFieldsAux_caught (rounds : ℕ) (data : Bytes) :
    ∀ e, (decodeFieldsAux rounds data).raised = some e → e.caught := by
  induction rounds generalizing data with
  | zero => cases data <;> simp [decodeFieldsAux]
  | succ rounds ih =>
    cases data with
    | nil => simp [decodeFieldsAux]
    | cons byte bytes =>
      intro e h
      rw [decodeFieldsAux] at h
      rcases hf : readField (byte :: bytes) with e' | ⟨field, rest⟩
      · rw [hf] at h
        obtain rfl := Option.some.inj h
        by_contra hc
        exact escapes_readField (byte :: bytes) ⟨_, hf, by simpa using hc⟩
      · rw [hf] at h
        exact ih rest e h

/-- So the loop over it raises what its body raises. -/
theorem escapes_forEach {σ : Type} (data : Bytes) (s : σ) (body : σ → Field → Except PyError σ) :
    Escapes ((decodeFields data).forEach s body) ↔
      Escapes ((decodeFields data).yielded.foldlM body s) := by
  unfold Fields.forEach
  rw [escapes_bind]
  refine or_iff_left ?_
  rintro ⟨t, -, h⟩
  rcases hr : (decodeFields data).raised with _ | e
  · simp [hr] at h
  · simp [hr, decodeFieldsAux_caught _ _ e hr] at h

theorem decode_spec (value : FieldValue) :
    ((∃ s, value.decode = .ok s) ↔ ∃ b s, value = .bytes b ∧ decodeUtf8 b = some s) ∧
      (Escapes value.decode ↔ ∃ n, value = .int n) := by
  cases value with
  | int n => simp [FieldValue.decode, PyError.caught]
  | bytes b =>
    unfold FieldValue.decode
    cases h : decodeUtf8 b <;> simp [h, PyError.caught]

theorem unpack_spec (size : ℕ) (convert : ℕ → PyFloat) (value : FieldValue) :
    ((∃ x, value.unpack size convert = .ok x) ↔ ∃ b, value = .bytes b ∧ b.length = size) ∧
      (Escapes (value.unpack size convert) ↔ ∃ b, value = .bytes b ∧ b.length ≠ size) := by
  cases value with
  | int n => simp [FieldValue.unpack, PyError.caught]
  | bytes b =>
    unfold FieldValue.unpack
    by_cases h : b.length = size
    · simp [h]
    · simp [h, PyError.caught]

theorem map_ok {α β : Type} {x : Except PyError α} {f : α → β} :
    (∃ b, f <$> x = .ok b) ↔ ∃ a, x = .ok a := by
  rcases x with e | a
  · refine iff_of_false ?_ ?_
    · rintro ⟨b, h⟩
      cases h
    · rintro ⟨a, h⟩
      cases h
  · exact iff_of_true ⟨f a, rfl⟩ ⟨a, rfl⟩

/-- What a field does to a metric does not depend on the metric. -/
theorem metricField_ok (metric : MetricDict) (field : Field) :
    (∃ t, metricField metric field = .ok t) ↔ MetricFieldOk field := by
  obtain ⟨number, wireType, value⟩ := field
  unfold metricField MetricFieldOk
  dsimp only
  split
  · simpa [map_ok] using (decode_spec value).1
  · exact iff_of_true ⟨_, rfl⟩ trivial
  · exact iff_of_true ⟨_, rfl⟩ trivial
  · exact iff_of_true ⟨_, rfl⟩ trivial
  · exact iff_of_true ⟨_, rfl⟩ trivial
  · exact iff_of_true ⟨_, rfl⟩ trivial
  · simpa [map_ok] using (unpack_spec 4 _ value).1
  · simpa [map_ok] using (unpack_spec 8 _ value).1
  · split <;> simp_all

theorem escapes_metricField (metric : MetricDict) (field : Field) :
    Escapes (metricField metric field) ↔ MetricFieldBad field := by
  obtain ⟨number, wireType, value⟩ := field
  unfold metricField MetricFieldBad
  dsimp only
  split
  · simpa using (decode_spec value).2
  · exact iff_of_false (escapes_ok _) id
  · exact iff_of_false (escapes_ok _) id
  · exact iff_of_false (escapes_ok _) id
  · exact iff_of_false (escapes_ok _) id
  · exact iff_of_false (escapes_ok _) id
  · simpa using (unpack_spec 4 _ value).2
  · simpa using (unpack_spec 8 _ value).2
  · split <;> simp_all

theorem escapes_decodeMetric (data : Bytes) : Escapes (decodeMetric data) ↔ PoisonMetric data := by
  unfold decodeMetric PoisonMetric
  rw [escapes_forEach, escapes_foldlM metricField_ok escapes_metricField]

theorem payloadField_ok (payload : Payload) (field : Field) :
    (∃ t, payloadField payload field = .ok t) ↔ PayloadFieldOk field := by
  unfold payloadField PayloadFieldOk
  split
  · rename_i h
    simp [h]
  · rename_i h
    rcases hv : field.value with n | b
    · simp [h]
    · simp [h, map_ok]
  · rename_i h
    simp [h]
  · rename_i h _
    exact iff_of_true ⟨_, rfl⟩ fun h2 => absurd h2 h

theorem escapes_payloadField (payload : Payload) (field : Field) :
    Escapes (payloadField payload field) ↔
      field.number = 2 ∧ ∃ b, field.value = .bytes b ∧ PoisonMetric b := by
  unfold payloadField
  split
  · rename_i h
    simp [h]
  · rename_i h
    rcases hv : field.value with n | b
    · simp [PyError.caught]
    · simp [h, escapes_decodeMetric]
  · rename_i h
    simp [h]
  · rename_i h _
    exact iff_of_false (escapes_ok _) fun h2 => h h2.1

theorem escapes_decodeSparkplugPayload (data : Bytes) :
    Escapes (decodeSparkplugPayload data) ↔ PoisonPayload data := by
  unfold decodeSparkplugPayload PoisonPayload
  rw [escapes_forEach, escapes_foldlM payloadField_ok escapes_payloadField]

/-- A varint of ten bytes has 70 bits. -/
theorem readVarintFrom_lt {data rest : Bytes} {shift result value : ℕ} (hr : result < 2 ^ shift)
    (hs : shift ≤ 70) (h : readVarintFrom data shift result = .ok (value, rest)) :
    value < 2 ^ 70 := by
  induction data generalizing shift result with
  | nil => cases h
  | cons byte bytes ih =>
    unfold readVarintFrom at h
    split at h
    · cases h
    rename_i hshift
    have hmask : (byte &&& 0x7F).toNat < 2 ^ 7 := by
      rw [UInt8.toNat_and]
      exact Nat.and_lt_two_pow _ (by decide)
    have hnext : result ||| (byte &&& 0x7F).toNat <<< shift < 2 ^ (shift + 7) := by
      refine Nat.or_lt_two_pow (hr.trans_le (Nat.pow_le_pow_right (by omega) (by omega))) ?_
      rw [Nat.shiftLeft_eq, Nat.pow_add, Nat.mul_comm]
      exact Nat.mul_lt_mul_of_pos_left hmask (by positivity)
    dsimp only at h
    split at h
    · obtain ⟨rfl, rfl⟩ := Prod.mk.inj (Except.ok.inj h)
      exact hnext.trans_le (Nat.pow_le_pow_right (by omega) (by omega))
    · exact ih hnext (by omega) h

/-- A number on the wire is not too large for a `float`. -/
def FieldValue.Small (value : FieldValue) : Prop := ∀ n, value = .int n → n < 2 ^ 70

theorem readField_small {data rest : Bytes} {field : Field}
    (h : readField data = .ok (field, rest)) : field.value.Small := by
  unfold readField at h
  obtain ⟨⟨key, bytes⟩, -, h⟩ := bind_ok.mp h
  dsimp only at h
  split at h
  · obtain ⟨⟨value, bytes⟩, hv, h⟩ := bind_ok.mp h
    obtain ⟨rfl, -⟩ := Prod.mk.inj (Except.ok.inj h)
    intro n hn
    obtain rfl := FieldValue.int.inj hn
    exact readVarintFrom_lt (by simp) (by omega) hv
  · obtain ⟨⟨length, bytes⟩, -, h⟩ := bind_ok.mp h
    obtain ⟨⟨value, bytes⟩, -, h⟩ := bind_ok.mp h
    obtain ⟨rfl, -⟩ := Prod.mk.inj (Except.ok.inj h)
    exact nofun
  · obtain ⟨⟨value, bytes⟩, -, h⟩ := bind_ok.mp h
    obtain ⟨rfl, -⟩ := Prod.mk.inj (Except.ok.inj h)
    exact nofun
  · obtain ⟨⟨value, bytes⟩, -, h⟩ := bind_ok.mp h
    obtain ⟨rfl, -⟩ := Prod.mk.inj (Except.ok.inj h)
    exact nofun
  · cases h

theorem decodeFieldsAux_small (rounds : ℕ) (data : Bytes) :
    ∀ field ∈ (decodeFieldsAux rounds data).yielded, field.value.Small := by
  induction rounds generalizing data with
  | zero => cases data <;> simp [decodeFieldsAux]
  | succ rounds ih =>
    cases data with
    | nil => simp [decodeFieldsAux]
    | cons byte bytes =>
      rw [decodeFieldsAux]
      rcases hf : readField (byte :: bytes) with e | ⟨field, rest⟩
      · simp
      · intro field' hmem
        rcases List.mem_cons.mp hmem with rfl | hmem
        · exact readField_small hf
        · exact ih rest field' hmem

theorem forEach_ok {σ : Type} {fields : Fields} {s t : σ} {body : σ → Field → Except PyError σ}
    (h : fields.forEach s body = .ok t) : fields.yielded.foldlM body s = .ok t := by
  obtain ⟨t', ht, h⟩ := bind_ok.mp h
  split at h
  · cases h
  · cases h
    exact ht

/-- The value of a metric is not too large either. -/
def MetricDict.Small (metric : MetricDict) : Prop := ∀ n, metric.value = some (.int n) → n < 2 ^ 70

theorem metricField_small {metric t : MetricDict} {field : Field} (hf : field.value.Small)
    (hm : metric.Small) (h : metricField metric field = .ok t) : t.Small := by
  have hvalue : MetricDict.Small { metric with value := some field.value.number } := by
    intro n hn
    cases hv : field.value with
    | int k =>
      simp only [hv, FieldValue.number, Option.some.injEq, MetricNumber.int.injEq] at hn
      exact hn ▸ hf k hv
    | bytes b => simp [hv, FieldValue.number] at hn
  unfold metricField at h
  split at h
  · obtain ⟨name, -, h⟩ := bind_ok.mp h
    cases h
    exact hm
  · cases h
    exact hm
  · cases h
    exact hm
  · cases h
    exact hvalue
  · cases h
    exact hvalue
  · cases h
    exact hvalue
  · obtain ⟨x, -, h⟩ := bind_ok.mp h
    cases h
    exact nofun
  · obtain ⟨x, -, h⟩ := bind_ok.mp h
    cases h
    exact nofun
  · cases h
    exact hm

theorem decodeMetric_small {data : Bytes} {metric : MetricDict}
    (h : decodeMetric data = .ok metric) : metric.Small := by
  have hstart : MetricDict.Small {} := nofun
  refine foldlM_invariant (P := MetricDict.Small) ?_ hstart (forEach_ok h)
  exact fun _ _ _ hx hm h => metricField_small (decodeFieldsAux_small _ _ _ hx) hm h

theorem decodeSparkplugPayload_small {data : Bytes} {payload : Payload}
    (h : decodeSparkplugPayload data = .ok payload) : ∀ metric ∈ payload.metrics, metric.Small := by
  have hstart : ∀ metric ∈ ({} : Payload).metrics, metric.Small := nofun
  refine foldlM_invariant (P := fun p : Payload => ∀ metric ∈ p.metrics, metric.Small) ?_ hstart
    (forEach_ok h)
  intro p field t _ hp h
  unfold payloadField at h
  split at h
  · cases h
    exact hp
  · split at h
    · cases h
    · obtain ⟨metric, hm, h⟩ := bind_ok.mp h
      cases h
      intro metric' hmem
      rcases List.mem_append.mp hmem with hold | hnew
      · exact hp metric' hold
      · rw [List.mem_singleton.mp hnew]
        exact decodeMetric_small hm
  · cases h
    exact hp
  · cases h
    exact hp

end Fields

/-! ## Messages -/

section Messages

variable (rt : Runtime)

theorem not_tooLarge {n : ℕ} (h : n < 2 ^ 70) : ¬TooLarge n := by
  rw [TooLarge, not_le, Int.natAbs_natCast]
  rcases Nat.eq_zero_or_pos n with rfl | hpos
  · decide
  · exact (Format.finite?_round (k := 70) (by decide) (by decide) hpos one_pos
      (by omega) (by decide)).1

/-- The readings can all be collected, or are refused. -/
theorem escapes_addReading {payloadTimestamp : Option FieldValue} {readings : Readings}
    {metric : MetricDict} (hm : metric.Small) :
    ¬Escapes (addReading rt payloadTimestamp readings metric) := by
  unfold addReading
  split
  · rename_i name value _ hvalue
    split
    · simp
    split
    · simp [PyError.caught]
    · rw [escapes_bind]
      rintro (h | ⟨x, -, h⟩)
      · cases value with
        | int n => exact not_tooLarge (hm n hvalue) ((escapes_ofInt n).mp h)
        | float x => exact escapes_ok _ h
        | bytes b => cases hb : rt.floatOfBytes b <;> simp [MetricNumber.toFloat, hb, PyError.caught] at h
      · simp at h
  · simp

theorem escapes_addReadings {payloadTimestamp : Option FieldValue} {metrics : List MetricDict}
    (hm : ∀ metric ∈ metrics, metric.Small) (readings : Readings) :
    ¬Escapes (metrics.foldlM (addReading rt payloadTimestamp) readings) := by
  induction metrics generalizing readings with
  | nil => simp
  | cons metric metrics ih =>
    rw [List.foldlM_cons, escapes_bind,
      or_iff_right (escapes_addReading rt (hm metric List.mem_cons_self))]
    rintro ⟨t, -, h⟩
    exact ih (fun m hmem => hm m (List.mem_cons_of_mem _ hmem)) t h

/-- The readings of a Sparkplug message in order of time, if there are any. -/
def sortedReadings (payload : Payload) : Except PyError Readings := do
  let readings ← payload.metrics.foldlM (addReading rt payload.timestamp) []
  if readings.isEmpty then throw .valueError
  sortReadings readings

/-- The reading with the first line that cannot be built. -/
def PoisonReadings (topic edgeNodeId : Str) (payload : Payload) : Prop :=
  ∃ sorted, sortedReadings rt payload = .ok sorted ∧
    First
      (fun r => ∃ line, buildLine rt 0 (readingPayload edgeNodeId r.1 r.2) topic = .ok line)
      (fun r => PoisonLine rt (readingPayload edgeNodeId r.1 r.2) topic) sorted

theorem readingLines_eq (topic edgeNodeId : Str) (payload : Payload) :
    readingLines rt topic edgeNodeId payload = (sortedReadings rt payload >>= fun sorted =>
      sorted.mapM fun r => buildLine rt 0 (readingPayload edgeNodeId r.1 r.2) topic) := by
  unfold readingLines sortedReadings
  rw [bind_assoc]
  congr 1
  funext readings
  split <;> rfl

theorem escapes_sortedReadings {payload : Payload} (hm : ∀ metric ∈ payload.metrics, metric.Small) :
    ¬Escapes (sortedReadings rt payload) := by
  unfold sortedReadings
  rw [escapes_bind, or_iff_right (escapes_addReadings rt hm [])]
  rintro ⟨readings, -, h⟩
  split at h
  · exact absurd h (by simp [escapes_bind, PyError.caught])
  · unfold sortReadings at h
    split at h <;> simp [PyError.caught] at h

theorem escapes_readingLines {topic edgeNodeId : Str} {payload : Payload}
    (hm : ∀ metric ∈ payload.metrics, metric.Small) :
    Escapes (readingLines rt topic edgeNodeId payload) ↔
      PoisonReadings rt topic edgeNodeId payload := by
  rw [readingLines_eq, escapes_bind, or_iff_right (escapes_sortedReadings rt hm)]
  simp only [PoisonReadings, escapes_mapM, escapes_buildLine]

/-- A Sparkplug message: a bad field, or a bad timestamp. -/
def PoisonSparkplug (topic : Str) (data : Bytes) : Prop :=
  ∃ group messageType edgeNodeId rest,
    split topic '/'.toNat = sparkplugNamespace :: group :: messageType :: edgeNodeId :: rest ∧
    (PoisonPayload data ∨
      (messageType = str "NDATA" ∨ messageType = str "DDATA") ∧
        ∃ payload, decodeSparkplugPayload data = .ok payload ∧
          PoisonReadings rt topic edgeNodeId payload)

theorem escapes_buildSparkplugLines (topic : Str) (data : Bytes) :
    Escapes (buildSparkplugLines rt topic data) ↔ PoisonSparkplug rt topic data := by
  unfold buildSparkplugLines PoisonSparkplug
  split
  · rename_i space group messageType edgeNodeId rest hsplit
    rw [hsplit]
    by_cases hspace : space = sparkplugNamespace
    · rw [if_neg (by simp [hspace]), escapes_bind, escapes_decodeSparkplugPayload, hspace]
      have hbirth : str "NBIRTH" ≠ str "NDATA" ∧ str "NBIRTH" ≠ str "DDATA" := by decide
      have htype : ∀ payload : Payload, (∀ metric ∈ payload.metrics, metric.Small) →
          (Escapes (if messageType = str "NBIRTH" then return []
            else if messageType = str "NDATA" ∨ messageType = str "DDATA" then
              readingLines rt topic edgeNodeId payload
            else throw .valueError) ↔
          (messageType = str "NDATA" ∨ messageType = str "DDATA") ∧
            PoisonReadings rt topic edgeNodeId payload) := by
        intro payload hm
        split
        · rename_i hmessage
          simp [hmessage, hbirth]
        split
        · rename_i hmessage
          rw [escapes_readingLines rt hm, and_iff_right hmessage]
        · rename_i hmessage
          simp [hmessage, PyError.caught]
      constructor
      · rintro (h | ⟨payload, hp, h⟩)
        · exact ⟨group, messageType, edgeNodeId, rest, rfl, .inl h⟩
        · obtain ⟨hmessage, h⟩ := (htype payload (decodeSparkplugPayload_small hp)).mp h
          exact ⟨group, messageType, edgeNodeId, rest, rfl, .inr ⟨hmessage, payload, hp, h⟩⟩
      · rintro ⟨group', messageType', edgeNodeId', rest', heq, h⟩
        simp only [List.cons.injEq, true_and] at heq
        obtain ⟨rfl, rfl, rfl, rfl⟩ := heq
        rcases h with h | ⟨hmessage, payload, hp, h⟩
        · exact .inl h
        · exact .inr ⟨payload, hp,
            (htype payload (decodeSparkplugPayload_small hp)).mpr ⟨hmessage, h⟩⟩
    · rw [if_pos hspace]
      refine iff_of_false (by simp [PyError.caught]) ?_
      rintro ⟨_, _, _, _, heq, -⟩
      exact hspace (List.cons.inj heq).1
  · rename_i hshort
    refine iff_of_false (by simp [PyError.caught]) ?_
    rintro ⟨group, messageType, edgeNodeId, rest, heq, -⟩
    exact hshort _ _ _ _ _ heq

/-- A reading of a batch has a line. -/
def ReadingOk (payload : Dict) (topic : Str) (r : Value) : Prop :=
  ∃ reading line, r = .dict reading ∧ buildLine rt 0 (readingDict payload reading) topic = .ok line

/-- A JSON payload: a flat one, or the first of its readings that has no line. -/
def PoisonLines (payload : Dict) (topic : Str) : Prop :=
  match payload.get (str "readings") with
  | .none => PoisonLine rt payload topic
  | .list readings =>
    First (ReadingOk rt payload topic)
      (fun r => ∃ reading, r = .dict reading ∧ PoisonLine rt (readingDict payload reading) topic)
      readings
  | _ => False

/-- What the clock says does not decide whether there is a line. -/
theorem buildLine_ok (now : ℤ) (payload : Dict) (topic : Str) :
    (∃ line, buildLine rt now payload topic = .ok line) ↔
      ∃ line, buildLine rt 0 payload topic = .ok line := by
  have hclock : ∀ now now' : ℤ, ∀ value : Value, (∃ us, parseTimestamp rt now value = .ok us) →
      ∃ us, parseTimestamp rt now' value = .ok us := by
    rintro now now' value ⟨us, h⟩
    cases value with
    | none => exact ⟨now', rfl⟩
    | _ => exact ⟨us, h⟩
  have hstep : ∀ now now' : ℤ, (∃ line, buildLine rt now payload topic = .ok line) →
      ∃ line, buildLine rt now' payload topic = .ok line := by
    rintro now now' ⟨line, h⟩
    obtain ⟨device, hdevice, h⟩ := bind_ok.mp h
    obtain ⟨values, hvalues, h⟩ := bind_ok.mp h
    obtain ⟨fields, hfields, h⟩ := bind_ok.mp h
    obtain ⟨ns, hns, h⟩ := bind_ok.mp h
    obtain ⟨us, hus, -⟩ := bind_ok.mp hns
    obtain ⟨us', hus'⟩ := hclock now now' _ ⟨us, hus⟩
    refine ⟨{ deviceId := device, fields := fields, timestampNs := nanoseconds us' }, ?_⟩
    unfold buildLine timestampNs
    rw [hdevice, hvalues]
    refine bind_ok.mpr ⟨device, rfl, bind_ok.mpr ⟨values, rfl, bind_ok.mpr ⟨fields, hfields, ?_⟩⟩⟩
    rw [hus']
    rfl
  exact ⟨hstep now 0, hstep 0 now⟩

theorem escapes_buildReadings (clock : ℕ → ℤ) (payload : Dict) (topic : Str) (i : ℕ)
    (readings : List Value) :
    Escapes (buildReadings rt clock payload topic i readings) ↔
      First (ReadingOk rt payload topic)
        (fun r => ∃ reading, r = .dict reading ∧ PoisonLine rt (readingDict payload reading) topic)
        readings := by
  induction readings generalizing i with
  | nil => simp [buildReadings]
  | cons r rest ih =>
    rw [first_cons]
    cases r with
    | dict reading =>
      unfold buildReadings
      rw [escapes_bind, escapes_buildLine]
      refine or_congr (by simp) ?_
      constructor
      · rintro ⟨line, hline, h⟩
        obtain ⟨line', hline'⟩ := (buildLine_ok rt (clock i) _ topic).mp ⟨line, hline⟩
        refine ⟨⟨reading, line', rfl, hline'⟩, (ih (i + 1)).mp ?_⟩
        rw [escapes_bind] at h
        exact h.resolve_right fun ⟨_, _, h⟩ => escapes_pure _ h
      · rintro ⟨⟨reading', line', heq, hline'⟩, h⟩
        cases heq
        obtain ⟨line, hline⟩ := (buildLine_ok rt (clock i) _ topic).mpr ⟨line', hline'⟩
        exact ⟨line, hline, escapes_bind.mpr (.inl ((ih (i + 1)).mpr h))⟩
    | _ => simp [buildReadings, ReadingOk, PyError.caught]

theorem escapes_buildLines (clock : ℕ → ℤ) (payload : Dict) (topic : Str) :
    Escapes (buildLines rt clock payload topic) ↔ PoisonLines rt payload topic := by
  unfold buildLines PoisonLines
  cases payload.get (str "readings") with
  | none => simp [escapes_buildLine]
  | list readings =>
    cases readings with
    | nil => simp [PyError.caught]
    | cons r rest => exact escapes_buildReadings rt clock payload topic 0 (r :: rest)
  | _ => simp [PyError.caught]

/-- A JSON message: nested too deeply, or with a bad value. -/
def PoisonJson (message : Message) : Prop :=
  ∃ text, decodeUtf8 message.payload = some text ∧
    (rt.loads text = .error .recursion ∨
      ∃ payload, rt.loads text = .ok (.dict payload) ∧ PoisonLines rt payload message.topic)

theorem escapes_parseJson (clock : ℕ → ℤ) (message : Message) :
    Escapes (parseJson rt clock message) ↔ PoisonJson rt message := by
  unfold parseJson PoisonJson
  rcases htext : decodeUtf8 message.payload with _ | text
  · simp [PyError.caught]
  rcases hload : rt.loads text with (_ | _) | value
  · simp [hload, PyError.caught]
  · simp [hload, PyError.caught]
  · cases value with
    | dict payload => simp [hload, escapes_buildLines]
    | _ => simp [hload, PyError.caught]

/-- The messages that stop the service. -/
def Poison (message : Message) : Prop :=
  if (sparkplugNamespace ++ str "/").isPrefixOf message.topic then
    PoisonSparkplug rt message.topic message.payload
  else PoisonJson rt message

theorem escapes_parseMessage (clock : ℕ → ℤ) (message : Message) :
    Escapes (parseMessage rt clock message) ↔ Poison rt message := by
  unfold parseMessage Poison
  split
  · exact escapes_buildSparkplugLines rt _ _
  · exact escapes_parseJson rt clock message

/-- **Only a poisonous message escapes.** The message is parsed, or refused with
an exception that is caught, and then acknowledged without a write, exactly when
it is not `Poison`. -/
theorem parse_contained_iff (clock : ℕ → ℤ) (message : Message) :
    ((∃ lines, parseMessage rt clock message = .ok lines) ∨
      (∃ e, parseMessage rt clock message = .error e ∧ e.caught) ∧
        process rt clock message = .acknowledge) ↔
    ¬Poison rt message := by
  rw [← escapes_parseMessage rt clock message]
  unfold process
  rcases parseMessage rt clock message with e | lines
  · cases hcaught : e.caught <;> simp [hcaught]
  · simp

end Messages

/-- An NDATA with one metric, whose name is the number 5. -/
def numericName : Message :=
  { topic := str "spBv1.0/aitsm/NDATA/thingy91x", payload := [0x12, 0x02, 0x08, 0x05] }

/-- A library that reads no text; this message has none. -/
def bareRuntime : Runtime where
  loads _ := .error .invalid
  floatOfStr _ := none
  floatOfBytes _ := none
  fromisoformat _ := none
  reprFloat _ := []

/-- The missing `decode` of an `int` is not caught, and ends the worker. -/
theorem numericName_escapes :
    parseMessage bareRuntime (fun _ => 0) numericName = .error .attributeError ∧
      PyError.caught .attributeError = false ∧
      process bareRuntime (fun _ => 0) numericName = .raised .attributeError :=
  ⟨rfl, rfl, rfl⟩

end Aitsm.Ingest
