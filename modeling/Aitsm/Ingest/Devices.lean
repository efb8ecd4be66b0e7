import Aitsm.Ingest.Rows

/-!
# Whose reading it is

The device id of a line comes from the reading, the message or the topic.

In a batch, each of the two spellings is inherited on its own, and the choice
between them comes after. So an id of the message under `device_id` hides the
reading's own under `deviceId`, and an empty one in the reading hides the
message's; the reading has the id it should have exactly when neither happens, or
changes nothing (`reading_id_wins_iff`).

In a Sparkplug message the edge node id passes through `build_line`, which strips it
and goes on to the group id when it is empty (`rows_of_edge_node_iff`).
-/

namespace Aitsm.Ingest

open Library Library.Wire

variable {rt : Runtime}

/-! ## Values of a dict -/

/-- `build_line` reads no other keys of an object than these, and the device id. -/
theorem buildLine_congr {now : ℤ} {d d' : Dict} {topic : Str}
    (hdevice : deviceId d topic = deviceId d' topic)
    (hkeys : ∀ k, k ≠ str "device_id" → k ≠ str "deviceId" → d.lookup k = d'.lookup k) :
    buildLine rt now d topic = buildLine rt now d' topic := by
  have hget : ∀ k, k ≠ str "device_id" → k ≠ str "deviceId" → d.get k = d'.get k :=
    fun k h h' => congrArg (·.getD .none) (hkeys k h h')
  have hvalues : (lineValues d >>= lineFields rt) = (lineValues d' >>= lineFields rt) := by
    unfold lineValues Dict.getD
    rw [hkeys (str "values") (by decide) (by decide)]
    cases d'.lookup (str "values") with
    | some value => rfl
    | none =>
      have htemperature : temperatureSource d = temperatureSource d' := by
        rw [temperatureSource, temperatureSource, hget _ (by decide) (by decide),
          hget (str "temperature") (by decide) (by decide)]
      have hbattery := hget (str "battery") (by decide) (by decide)
      have hfields : lineFields rt d = lineFields rt d' := by
        rw [lineFields, lineFields, htemperature, hbattery]
      exact hfields
  have hsplit : ∀ d : Dict, buildLine rt now d topic = (do
      let device ← deviceId d topic
      let fields ← lineValues d >>= lineFields rt
      let ns ← timestampNs rt now (d.get (str "timestamp"))
      return { deviceId := device, fields := fields, timestampNs := ns }) := by
    intro d
    simp [buildLine]
  rw [hsplit, hsplit, hdevice, hvalues, hget (str "timestamp") (by decide) (by decide)]

/-! ## Batches -/

/-- What a key holds: it is absent, `null`, empty, or a text that is not blank. -/
def IdValue (v : Option Value) : Prop :=
  v = none ∨ v = some .none ∨ v = some (.str []) ∨ ∃ s, v = some (.str s) ∧ strip s ≠ []

/-- Both keys hold such a value. -/
def IdKeys (d : Dict) : Prop :=
  IdValue (d.lookup (str "device_id")) ∧ IdValue (d.lookup (str "deviceId"))

/-- The id that a key gives, if it is not empty. -/
def ident : Option Value → Option Str
  | some (.str s) => if s = [] then none else some s
  | _ => none

/-- The id that an object gives, under either key. -/
def Dict.id (d : Dict) : Option Str :=
  (ident (d.lookup (str "device_id"))).or (ident (d.lookup (str "deviceId")))

/-- The id that a reading should have: its own, else the message's, else the
topic's. -/
def ownId (payload reading : Dict) (topic : Str) : Str :=
  ((reading.id).or payload.id).getD (defaultDeviceId topic)

/-- The reading's line is the one of the id that it should have. -/
structure OwnIdWins (rt : Runtime) (now : ℤ) (payload reading : Dict) (topic : Str)
    (line : Line) : Prop where
  tag : line.deviceId = strip (ownId payload reading topic)
  explicit : buildLine rt now
    (setItem reading (str "device_id") (.str (ownId payload reading topic))) topic = .ok line

/-- No value of one object hides the id that counts, or the id that is used instead
is the same. -/
def Unhidden (payload reading : Dict) (topic : Str) : Prop :=
  match ident (reading.lookup (str "device_id")), ident (reading.lookup (str "deviceId")) with
  | some _, _ => True
  | none, some own =>
    -- the message's id comes before the reading's second key
    reading.has (str "device_id") ∨
      ∀ shared ∈ ident (payload.lookup (str "device_id")), strip shared = strip own
  | none, none =>
    match ident (payload.lookup (str "device_id")), ident (payload.lookup (str "deviceId")) with
    | some shared, second =>
      ¬reading.has (str "device_id") ∨
        strip ((if reading.has (str "deviceId") then none else second).getD (defaultDeviceId topic)) =
          strip shared
    | none, some shared =>
      ¬reading.has (str "deviceId") ∨ strip (defaultDeviceId topic) = strip shared
    | none, none => True

/-- The id that `build_line` uses. -/
def usedId (payload reading : Dict) (topic : Str) : Str :=
  ((ident ((reading.lookup (str "device_id")).or (payload.lookup (str "device_id")))).or
    (ident ((reading.lookup (str "deviceId")).or (payload.lookup (str "deviceId"))))).getD
    (defaultDeviceId topic)

theorem IdValue.or {v w : Option Value} (hv : IdValue v) (hw : IdValue w) : IdValue (v.or w) := by
  cases v with
  | none => simpa using hw
  | some v => simpa using hv

/-- One step of the `or` chain. -/
theorem IdValue.or_else {v : Option Value} (hv : IdValue v) (rest : Str) :
    (v.getD .none).or (.str rest) = .str ((ident v).getD rest) := by
  rcases hv with rfl | rfl | rfl | ⟨s, rfl, hs⟩
  · rfl
  · rfl
  · rfl
  · have hne : s ≠ [] := by
      rintro rfl
      exact hs rfl
    simp [ident, Value.or, Value.truthy, hne]

theorem deviceId_explicit {d : Dict} {topic id : Str} (hid : id ≠ [])
    (hd : d.lookup (str "device_id") = some (.str id)) :
    deviceId d topic = if strip id = [] then .error .valueError else .ok (strip id) := by
  unfold deviceId Dict.get Dict.getD
  simp [hd, Value.or, Value.truthy, hid]

theorem deviceId_readingDict {payload reading : Dict} {topic : Str} (hp : IdKeys payload)
    (hr : IdKeys reading) : deviceId (readingDict payload reading) topic =
      if strip (usedId payload reading topic) = [] then .error .valueError
      else .ok (strip (usedId payload reading topic)) := by
  have hfirst : (readingDict payload reading).lookup (str "device_id") =
      (reading.lookup (str "device_id")).or (payload.lookup (str "device_id")) := by
    rw [readingDict, lookup_inherit (by decide), lookup_inherit_self]
  have hsecond : (readingDict payload reading).lookup (str "deviceId") =
      (reading.lookup (str "deviceId")).or (payload.lookup (str "deviceId")) := by
    rw [readingDict, lookup_inherit_self, lookup_inherit (by decide)]
  have hused : usedId payload reading topic =
      (ident ((reading.lookup (str "device_id")).or (payload.lookup (str "device_id")))).getD
        ((ident ((reading.lookup (str "deviceId")).or (payload.lookup (str "deviceId")))).getD
          (defaultDeviceId topic)) := by
    rw [usedId, Option.getD_or]
  unfold deviceId Dict.get Dict.getD
  rw [hfirst, hsecond, (hr.2.or hp.2).or_else, (hr.1.or hp.1).or_else, ← hused]
  simp

theorem defaultDeviceId_ne_nil (topic : Str) : defaultDeviceId topic ≠ [] := by
  unfold defaultDeviceId
  split
  · rename_i part _
    by_cases hpart : part.isEmpty
    · rw [if_pos hpart]
      decide
    · rw [if_neg hpart]
      simpa using hpart
  · decide

theorem ident_ne_nil {v : Option Value} {s : Str} (h : ident v = some s) : s ≠ [] := by
  unfold ident at h
  split at h
  · split at h
    · cases h
    · cases h
      assumption
  · cases h

theorem ownId_ne_nil (payload reading : Dict) (topic : Str) : ownId payload reading topic ≠ [] := by
  have hid : ∀ d : Dict, ∀ s, d.id = some s → s ≠ [] := by
    intro d s h
    unfold Dict.id at h
    rcases Option.or_eq_some_iff.mp h with h | ⟨-, h⟩
    · exact ident_ne_nil h
    · exact ident_ne_nil h
  unfold ownId
  cases hr : reading.id with
  | some s => exact hid _ _ hr
  | none =>
    cases hp : payload.id with
    | some s => exact hid _ _ hp
    | none => exact defaultDeviceId_ne_nil topic

/-- A value that is no id hides the other one. -/
theorem unhidden_iff (payload reading : Dict) (topic : Str) :
    Unhidden payload reading topic ↔
      strip (usedId payload reading topic) = strip (ownId payload reading topic) := by
  have hhas : ∀ key, reading.has key ↔ reading.lookup key ≠ none := by
    intro key
    simp [Dict.has, Option.isSome_iff_ne_none]
  unfold Unhidden usedId ownId Dict.id
  simp only [hhas]
  generalize reading.lookup (str "device_id") = r₁
  generalize reading.lookup (str "deviceId") = r₂
  generalize payload.lookup (str "device_id") = p₁
  generalize payload.lookup (str "deviceId") = p₂
  have hnone : ident none = none := rfl
  rcases r₁ with _ | v₁
  · rcases r₂ with _ | v₂
    · simp only [Option.none_or, hnone]
      cases ident p₁ <;> cases ident p₂ <;> simp
    · simp only [Option.none_or, Option.some_or, hnone]
      cases ident (some v₂) <;> cases ident p₁ <;> cases ident p₂ <;> simp
  · rcases r₂ with _ | v₂
    · simp only [Option.none_or, Option.some_or, hnone]
      cases ident (some v₁) <;> cases ident p₁ <;> cases ident p₂ <;> simp
    · simp only [Option.some_or]
      cases ident (some v₁) <;> cases ident (some v₂) <;> cases ident p₁ <;> cases ident p₂ <;>
        simp

theorem buildLine_deviceId {now : ℤ} {d : Dict} {topic : Str} {line : Line}
    (h : buildLine rt now d topic = .ok line) : deviceId d topic = .ok line.deviceId := by
  obtain ⟨device, hdevice, h⟩ := bind_ok.mp h
  obtain ⟨values, -, h⟩ := bind_ok.mp h
  obtain ⟨fields, -, h⟩ := bind_ok.mp h
  obtain ⟨ns, -, h⟩ := bind_ok.mp h
  cases h
  exact hdevice

/-- The lines of a batch are its readings', in their order. -/
theorem buildReadings_lines {clock : ℕ → ℤ} {payload : Dict} {topic : Str} :
    ∀ {readings : List Value} {j : ℕ} {lines : List Line},
      buildReadings rt clock payload topic j readings = .ok lines →
      lines.length = readings.length ∧ (∀ r ∈ readings, ∃ reading, r = .dict reading) ∧
      ∀ i reading, readings[i]? = some (.dict reading) → ∃ line, lines[i]? = some line ∧
        buildLine rt (clock (j + i)) (readingDict payload reading) topic = .ok line := by
  intro readings
  induction readings with
  | nil =>
    intro j lines h
    cases h
    simp
  | cons r rest ih =>
    intro j lines h
    cases r with
    | dict reading =>
      obtain ⟨line, hline, h⟩ := bind_ok.mp h
      obtain ⟨lines, hlines, h⟩ := bind_ok.mp h
      cases h
      obtain ⟨hlen, hdicts, hrest⟩ := ih hlines
      refine ⟨by simp [hlen], fun r hr => ?_, fun i reading' hi => ?_⟩
      · rcases List.mem_cons.mp hr with rfl | hr
        · exact ⟨reading, rfl⟩
        · exact hdicts r hr
      · cases i with
        | zero =>
          cases hi
          exact ⟨line, rfl, hline⟩
        | succ i =>
          obtain ⟨line', hline', hbuilt⟩ := hrest i reading' hi
          exact ⟨line', hline', by rwa [Nat.add_right_comm] at hbuilt⟩
    | _ => cases h

/-- **The own id of a reading wins exactly when nothing hides it.** Each reading of a
batch has one line, in the order of the readings; it is the line of the id that
the reading should have exactly when no value of one object hides this id. -/
theorem reading_id_wins_iff {clock : ℕ → ℤ} {payload : Dict} {topic : Str}
    {readings : List Value} {lines : List Line}
    (hreadings : payload.get (str "readings") = .list readings) (hp : IdKeys payload)
    (hids : ∀ reading, .dict reading ∈ readings → IdKeys reading)
    (h : buildLines rt clock payload topic = .ok lines) :
    lines.length = readings.length ∧ (∀ r ∈ readings, ∃ reading, r = .dict reading) ∧
    ∀ i reading, readings[i]? = some (.dict reading) → ∃ line, lines[i]? = some line ∧
      (OwnIdWins rt (clock i) payload reading topic line ↔ Unhidden payload reading topic) := by
  have hbuild : buildReadings rt clock payload topic 0 readings = .ok lines := by
    unfold buildLines at h
    rw [hreadings] at h
    cases readings with
    | nil => cases h
    | cons r rest => exact h
  obtain ⟨hlen, hdicts, hlines⟩ := buildReadings_lines hbuild
  refine ⟨hlen, hdicts, fun i reading hi => ?_⟩
  obtain ⟨line, hline, hbuilt⟩ := hlines i reading hi
  rw [Nat.zero_add] at hbuilt
  refine ⟨line, hline, ?_⟩
  have hr := hids reading (List.mem_of_getElem? hi)
  have hdevice := buildLine_deviceId hbuilt
  have hused : line.deviceId = strip (usedId payload reading topic) := by
    rw [deviceId_readingDict hp hr] at hdevice
    split at hdevice
    · cases hdevice
    · exact (Except.ok.inj hdevice).symm
  rw [unhidden_iff]
  refine ⟨fun hwins => hused.symm.trans hwins.tag, fun heq => ⟨hused.trans heq, ?_⟩⟩
  rw [← hbuilt]
  refine buildLine_congr ?_ fun k hk hk' => ?_
  · rw [deviceId_explicit (ownId_ne_nil _ _ _) (lookup_setItem_self _ _ _), ← heq,
      deviceId_readingDict hp hr]
  · rw [lookup_setItem hk, lookup_readingDict hk hk']

/-- Two readings, the first with an id of its own. -/
def firstWithId : List Value :=
  [Value.dict [(str "device_id", .str (str "own")), (str "battery", .int 50)],
    Value.dict [(str "battery", .int 50)]]

/-- A batch of them. -/
def batchWithId : Dict :=
  [(str "device_id", .str (str "batch")), (str "readings", .list firstWithId)]

theorem reading_id_wins_firstWithId :
    ∃ lines, buildLines bareRuntime (fun _ => 0) batchWithId (str "aitsm/x/telemetry") = .ok lines ∧
      lines.length = 2 ∧ ∀ (i : ℕ) (reading : Dict), firstWithId[i]? = some (.dict reading) →
        ∃ line, lines[i]? = some line ∧
          (OwnIdWins bareRuntime 0 batchWithId reading (str "aitsm/x/telemetry") line ↔
            Unhidden batchWithId reading (str "aitsm/x/telemetry")) := by
  have hid : ∀ s ∈ [str "batch", str "own"], IdValue (some (.str s)) :=
    fun s hs => .inr (.inr (.inr ⟨s, rfl, by revert s; decide⟩))
  have hget : batchWithId.get (str "readings") = .list firstWithId := rfl
  have hkeys : IdKeys batchWithId := ⟨hid (str "batch") (by simp), .inl rfl⟩
  have hids : ∀ reading : Dict, .dict reading ∈ firstWithId → IdKeys reading := by
    intro reading hr
    simp only [firstWithId, List.mem_cons, Value.dict.injEq, List.not_mem_nil, or_false] at hr
    rcases hr with rfl | rfl
    · exact ⟨hid (str "own") (by simp), .inl rfl⟩
    · exact ⟨.inl rfl, .inl rfl⟩
  rcases hlines : buildLines bareRuntime (fun _ => 0) batchWithId (str "aitsm/x/telemetry")
    with e | lines
  · have hok : (buildLines bareRuntime (fun _ => 0) batchWithId
        (str "aitsm/x/telemetry")).toOption.isSome := by decide +kernel
    rw [hlines] at hok
    cases hok
  · obtain ⟨hlen, -, hwins⟩ := reading_id_wins_iff hget hkeys hids hlines
    exact ⟨lines, rfl, hlen, hwins⟩

/-- A batch whose reading has its own id under the second key. -/
def ownSecondKey : Dict :=
  [(str "device_id", .str (str "batch")),
    (str "readings", .list [.dict [(str "deviceId", .str (str "own")), (str "battery", .int 50)]])]

/-- The line of its reading. -/
def ownSecondKeyLine : Line :=
  { deviceId := str "batch", fields := [(str "battery", PyFloat.ofFraction false 50 1)],
    timestampNs := 0 }

/-- **The message's id hides the reading's own.** -/
theorem message_id_wins :
    buildLines bareRuntime (fun _ => 0) ownSecondKey (str "aitsm/thingy91x/telemetry") =
      .ok [ownSecondKeyLine] ∧
    IdKeys ownSecondKey ∧
    (∃ reading : Dict, ownSecondKey.get (str "readings") = .list [.dict reading] ∧ IdKeys reading ∧
      reading.id = some (str "own") ∧
      ¬OwnIdWins bareRuntime 0 ownSecondKey reading (str "aitsm/thingy91x/telemetry")
        ownSecondKeyLine) := by
  refine ⟨by decide +kernel, ⟨.inr (.inr (.inr ⟨str "batch", rfl, by decide⟩)), .inl rfl⟩,
    _, rfl, ⟨.inl rfl, .inr (.inr (.inr ⟨str "own", rfl, by decide⟩))⟩, rfl, fun hwins => ?_⟩
  exact absurd hwins.tag (by decide)

/-! ## Sparkplug B -/

/-- `parts[3]` of the topic. -/
def edgeNodeId (topic : Str) : Str := ((split topic '/'.toNat)[3]?).getD []

/-- A line of a Sparkplug message comes from its edge node id. -/
theorem buildSparkplugLines_built {topic : Str} {data : Bytes} {lines : List Line}
    (h : buildSparkplugLines rt topic data = .ok lines) :
    ∀ line ∈ lines, ∃ timestamp values,
      buildLine rt 0 (readingPayload (edgeNodeId topic) timestamp values) topic = .ok line := by
  unfold buildSparkplugLines at h
  split at h
  · rename_i space group messageType edge rest hsplit
    have hedge : edgeNodeId topic = edge := by
      rw [edgeNodeId, hsplit]
      rfl
    rw [hedge]
    split at h
    · cases h
    · obtain ⟨payload, -, h⟩ := bind_ok.mp h
      split at h
      · cases h
        simp
      · split at h
        · obtain ⟨readings, -, h⟩ := bind_ok.mp h
          split at h
          · cases h
          · obtain ⟨sorted, -, h⟩ := bind_ok.mp h
            intro line hline
            obtain ⟨reading, -, hbuilt⟩ := mapM_ok h line hline
            exact ⟨_, _, hbuilt⟩
        · cases h
  · cases h

/-- The text is not empty, and has no space around it. -/
def Bare (s : Str) : Prop := s ≠ [] ∧ strip s = s

instance (s : Str) : Decidable (Bare s) := inferInstanceAs (Decidable (_ ∧ _))

/-- Every line has the edge node id of the topic as its tag. -/
def Attributed (topic : Str) (lines : List Line) : Prop :=
  ∀ line ∈ lines, escapeTag line.deviceId = escapeTag (edgeNodeId topic)

theorem attributed_iff {topic : Str} {data : Bytes} {lines : List Line}
    (h : buildSparkplugLines rt topic data = .ok lines) (hne : lines ≠ []) :
    Attributed topic lines ↔ Bare (edgeNodeId topic) := by
  have hbuilt := buildSparkplugLines_built h
  -- an id that is not empty is stripped and used
  have hstrip : edgeNodeId topic ≠ [] → ∀ line ∈ lines,
      line.deviceId = strip (edgeNodeId topic) := by
    intro hedge line hline
    obtain ⟨timestamp, values, hline⟩ := hbuilt line hline
    have hdevice := buildLine_deviceId hline
    unfold readingPayload at hdevice
    rw [deviceId_explicit hedge List.lookup_cons_self] at hdevice
    split at hdevice
    · cases hdevice
    · exact (Except.ok.inj hdevice).symm
  constructor
  · intro hall
    obtain ⟨line, hline⟩ := List.exists_mem_of_ne_nil _ hne
    have hid : line.deviceId = edgeNodeId topic := escapeTag_injective (hall line hline)
    obtain ⟨timestamp, values, hline'⟩ := hbuilt line hline
    have hedge : edgeNodeId topic ≠ [] := hid ▸ (buildLine_spec hline').1.2.1
    exact ⟨hedge, (hstrip hedge line hline).symm.trans hid⟩
  · rintro ⟨hedge, hbare⟩ line hline
    rw [hstrip hedge line hline, hbare]

/-- **The rows belong to their edge node exactly when its id is bare.** Every line
has the edge node id of its topic as its tag, so that those of two topics differ,
exactly when the ids are not empty and have no space around them. -/
theorem rows_of_edge_node_iff {topic topic' : Str} {data data' : Bytes} {lines lines' : List Line}
    (h : buildSparkplugLines rt topic data = .ok lines) (hne : lines ≠ [])
    (h' : buildSparkplugLines rt topic' data' = .ok lines') (hne' : lines' ≠ []) :
    (Attributed topic lines ∧ Attributed topic' lines' ∧
      (edgeNodeId topic ≠ edgeNodeId topic' → ∀ line ∈ lines, ∀ line' ∈ lines',
        escapeTag line.deviceId ≠ escapeTag line'.deviceId)) ↔
    Bare (edgeNodeId topic) ∧ Bare (edgeNodeId topic') := by
  rw [← attributed_iff h hne, ← attributed_iff h' hne']
  refine ⟨fun hall => ⟨hall.1, hall.2.1⟩, fun ⟨hown, hown'⟩ => ⟨hown, hown', ?_⟩⟩
  intro hdiffer line hline line' hline' heq
  rw [hown line hline, hown' line' hline'] at heq
  exact hdiffer (escapeTag_injective heq)

/-- An NDATA with one reading of the battery, 50 % at 1700000000000 ms. -/
def batteryReading : Bytes :=
  [0x08, 0x80, 0xd0, 0x95, 0xff, 0xbc, 0x31, 0x12, 0x0b, 0x0a, 0x07, 0x62, 0x61, 0x74, 0x74, 0x65,
    0x72, 0x79, 0x50, 0x32]

/-- The line of a reading. -/
def batteryLine (deviceId : String) : Line :=
  { deviceId := str deviceId, fields := [(str "battery", PyFloat.ofFraction false 50 1)],
    timestampNs := 1700000000000000000 }

theorem batteryReading_lines : ∀ t ∈ [("spBv1.0/aitsm/NDATA/thingy91x", "thingy91x"),
      ("spBv1.0//NDATA/thingy 2", "thingy 2"), ("spBv1.0/aitsm/NDATA/", "aitsm"),
      ("spBv1.0/x/NDATA/aitsm", "aitsm")],
    buildSparkplugLines bareRuntime (str t.1) batteryReading = .ok [batteryLine t.2] := by
  decide +kernel

theorem rows_of_edge_node_two :
    (Attributed (str "spBv1.0/aitsm/NDATA/thingy91x") [batteryLine "thingy91x"] ∧
      Attributed (str "spBv1.0//NDATA/thingy 2") [batteryLine "thingy 2"] ∧
      (edgeNodeId (str "spBv1.0/aitsm/NDATA/thingy91x") ≠
          edgeNodeId (str "spBv1.0//NDATA/thingy 2") →
        ∀ line ∈ [batteryLine "thingy91x"], ∀ line' ∈ [batteryLine "thingy 2"],
          escapeTag line.deviceId ≠ escapeTag line'.deviceId)) ↔
    Bare (edgeNodeId (str "spBv1.0/aitsm/NDATA/thingy91x")) ∧
      Bare (edgeNodeId (str "spBv1.0//NDATA/thingy 2")) :=
  rows_of_edge_node_iff (batteryReading_lines _ List.mem_cons_self) (by simp)
    (batteryReading_lines _ (List.mem_cons_of_mem _ List.mem_cons_self)) (by simp)

/-- **An empty edge node id becomes the group id**, which is the edge node id of
another topic; their rows have the same key. -/
theorem empty_edge_node_id :
    buildSparkplugLines bareRuntime (str "spBv1.0/aitsm/NDATA/") batteryReading =
      .ok [batteryLine "aitsm"] ∧
    buildSparkplugLines bareRuntime (str "spBv1.0/x/NDATA/aitsm") batteryReading =
      .ok [batteryLine "aitsm"] ∧
    edgeNodeId (str "spBv1.0/aitsm/NDATA/") ≠ edgeNodeId (str "spBv1.0/x/NDATA/aitsm") ∧
    ¬Attributed (str "spBv1.0/aitsm/NDATA/") [batteryLine "aitsm"] := by
  refine ⟨by decide +kernel, by decide +kernel, by decide +kernel, fun hall => ?_⟩
  exact absurd (hall _ List.mem_cons_self) (by decide +kernel)

end Aitsm.Ingest
