import Aitsm.Library.LineProtocol
import Aitsm.Ingest.Poison

/-!
# What QuestDB reads

The text of a line is read back as one row of `sensor_readings`: the device id
as its only tag, the fields, and the timestamp (`parse_text`). `escape_tag`
leaves a line feed in the device id alone, and there the row ends before its
fields (`parse_text_of_newline`). So a line is its row exactly when its device id
has no line feed (`line_is_one_row_iff`), and the lines of a message are
(`lines_are_rows_iff`).
-/

namespace Aitsm.Ingest

open Library Library.Escape Library.LineProtocol

/-- What a line is meant to write. -/
def Line.row (l : Line) : Row PyFloat :=
  { table := str "sensor_readings", tags := [(str "device_id", l.deviceId)], fields := l.fields,
    timestamp := some l.timestampNs }

/-- How a finite number stands in a text, and that QuestDB reads it as `number`. -/
structure FloatText (rt : Runtime) (number : Str → Option PyFloat) : Prop where
  /-- digits, and `+`, `-`, `.`, `e` -/
  digits : ∀ x : PyFloat, x.isFinite → ∀ c ∈ rt.reprFloat x,
    (48 ≤ c ∧ c ≤ 57) ∨ c = 43 ∨ c = 45 ∨ c = 46 ∨ c = 101
  reads : ∀ x : PyFloat, x.isFinite → number (rt.reprFloat x) = some x

/-- The fields of a line: the known ones, with finite values, and at least one. -/
def Line.Sound (l : Line) : Prop :=
  l.fields ≠ [] ∧ l.deviceId ≠ [] ∧ ∀ f ∈ l.fields, f.1 ∈ numericFields ∧ f.2.isFinite

variable {rt : Runtime} {number : Str → Option PyFloat}

/-! ## The device id -/

/-- The four replacements make one pass: the backslashes come first, and none of
the later ones touches what an earlier one has put in. -/
theorem escapeTag_eq (s : Str) :
    escapeTag s = escape backslash [backslash, comma, space, equals] s := by
  simp only [escapeTag, replace, escape, List.flatMap_assoc]
  refine List.flatMap_congr fun x _ => ?_
  by_cases hx : x ∈ [backslash, comma, space, equals]
  · simp only [List.mem_cons, List.not_mem_nil, or_false] at hx
    rcases hx with rfl | rfl | rfl | rfl <;> rfl
  · rw [if_neg hx]
    simp only [List.mem_cons, List.not_mem_nil, or_false, not_or] at hx
    obtain ⟨hb, hc, hs, he⟩ := hx
    rw [if_neg (show x ≠ '\\'.toNat from hb), List.flatMap_singleton,
      if_neg (show x ≠ ','.toNat from hc), List.flatMap_singleton,
      if_neg (show x ≠ ' '.toNat from hs), List.flatMap_singleton,
      if_neg (show x ≠ '='.toNat from he)]

theorem escapeTag_injective {s t : Str} (h : escapeTag s = escapeTag t) : s = t := by
  rw [escapeTag_eq, escapeTag_eq] at h
  exact escape_injective List.mem_cons_self h

/-- The device id does not end the tag, the series or the row, unless it has a
line feed. -/
theorem whole_escapeTag {sep : ℕ} {s : Str}
    (hsep : sep ∈ [comma, space, equals] ∨ sep ∉ s) : Whole backslash sep (escapeTag s) := by
  rw [escapeTag_eq]
  exact whole_escape List.mem_cons_self (hsep.imp_left (List.mem_cons_of_mem _))

/-- The table and the tag. -/
def Line.head (l : Line) : Str := str "sensor_readings,device_id=" ++ escapeTag l.deviceId

/-- A field as it is written. -/
def fieldText (rt : Runtime) (f : Str × PyFloat) : Str := f.1 ++ str "=" ++ rt.reprFloat f.2

theorem text_eq (l : Line) (rest : Str) : l.text rt ++ rest =
    (l.head ++ space :: (List.intercalate [comma] (l.fields.map (fieldText rt))
      ++ space :: decimal l.timestampNs)) ++ newline :: rest := by
  have htext : l.text rt = l.head ++ [space] ++ List.intercalate [comma] (l.fields.map (fieldText rt))
      ++ [space] ++ decimal l.timestampNs ++ [newline] := rfl
  rw [htext]
  simp only [List.append_assoc, List.cons_append, List.nil_append]

/-! ## The fields -/

section Fields

variable (htext : FloatText rt number) {f : Str × PyFloat}
  (hf : f.1 ∈ numericFields ∧ f.2.isFinite)

include htext hf

theorem plain_repr {sep : ℕ} (hsep : sep ∈ [newline, space, comma, equals]) :
    Plain backslash sep (rt.reprFloat f.2) := by
  intro c hc
  have hdigit := htext.digits f.2 hf.2 c hc
  simp only [newline, space, comma, equals, List.mem_cons, List.not_mem_nil, or_false] at hsep
  change c ≠ 92 ∧ c ≠ sep
  omega

theorem whole_fieldText {sep : ℕ} (hsep : sep ∈ [newline, space, comma]) :
    Whole backslash sep (fieldText rt f) := by
  have hname : Plain backslash sep (f.1 ++ str "=") := by
    have hall : ∀ name ∈ numericFields, ∀ sep ∈ [newline, space, comma],
        Plain backslash sep (name ++ str "=") := by decide +kernel
    exact hall f.1 hf.1 sep hsep
  have hmem : sep ∈ [newline, space, comma, equals] := by
    simp only [List.mem_cons, List.not_mem_nil, or_false] at hsep ⊢
    tauto
  exact hname.whole.append (plain_repr htext hf hmem).whole

/-- A field is read as it was written. -/
theorem field_fieldText : field number (fieldText rt f) = some f := by
  have hall : ∀ name ∈ numericFields, Plain backslash equals name ∧
      LineProtocol.name name = some name := by decide +kernel
  obtain ⟨hplain, hname⟩ := hall f.1 hf.1
  have hpieces : pieces backslash equals (fieldText rt f) = [f.1, rt.reprFloat f.2] := by
    have hrepr : Plain backslash equals (rt.reprFloat f.2) := plain_repr htext hf (by decide)
    have htext : fieldText rt f = f.1 ++ equals :: rt.reprFloat f.2 := by
      rw [fieldText, List.append_assoc]
      rfl
    rw [htext, hplain.whole.pieces_append_sep (by decide), hrepr.whole.pieces_eq]
  simp [field, hpieces, hname, htext.reads f.2 hf.2]

end Fields

theorem mapM_fieldText (htext : FloatText rt number) {fields : List (Str × PyFloat)}
    (hf : ∀ f ∈ fields, f.1 ∈ numericFields ∧ f.2.isFinite) :
    (fields.map (fieldText rt)).mapM (field number) = some fields := by
  induction fields with
  | nil => rfl
  | cons f fields ih =>
    rw [List.map_cons, List.mapM_cons, field_fieldText htext (hf f List.mem_cons_self),
      ih fun g hg => hf g (List.mem_cons_of_mem _ hg)]
    rfl

/-! ## The row -/

/-- The table and the tag are read as they were written. -/
theorem series_head (htext : FloatText rt number) {l : Line} (hl : l.Sound) (timestamp : Option ℤ) :
    series number l.head (List.intercalate [comma] (l.fields.map (fieldText rt))) timestamp =
      some { l.row with timestamp := timestamp } := by
  obtain ⟨hne, hdevice, hfields⟩ := hl
  have htags : pieces backslash comma l.head =
      [str "sensor_readings", str "device_id=" ++ escapeTag l.deviceId] := by
    have hplain : Plain backslash comma (str "sensor_readings") ∧
        Plain backslash comma (str "device_id=") := by decide +kernel
    have htag : Whole backslash comma (str "device_id=" ++ escapeTag l.deviceId) :=
      hplain.2.whole.append (whole_escapeTag (.inl (by decide)))
    have hhead : l.head =
        str "sensor_readings" ++ comma :: (str "device_id=" ++ escapeTag l.deviceId) := rfl
    rw [hhead, hplain.1.whole.pieces_append_sep (by decide), htag.pieces_eq]
  have htag : tag (str "device_id=" ++ escapeTag l.deviceId) =
      some (str "device_id", l.deviceId) := by
    have hplain : Plain backslash equals (str "device_id") := by decide +kernel
    have hwhole : Whole backslash equals (escapeTag l.deviceId) := whole_escapeTag (.inl (by decide))
    have hpieces : pieces backslash equals (str "device_id=" ++ escapeTag l.deviceId) =
        [str "device_id", escapeTag l.deviceId] := by
      have htext : str "device_id=" ++ escapeTag l.deviceId =
          str "device_id" ++ equals :: escapeTag l.deviceId := rfl
      rw [htext, hplain.whole.pieces_append_sep (by decide), hwhole.pieces_eq]
    have hkey : name (str "device_id") = some (str "device_id") := by decide +kernel
    have hvalue : name (escapeTag l.deviceId) = some l.deviceId := by
      have hunescape : unescape backslash (escapeTag l.deviceId) = l.deviceId := by
        rw [escapeTag_eq, unescape_escape List.mem_cons_self]
      rw [name, if_neg, hunescape]
      exact fun hnil => hdevice (by rw [← hunescape, hnil]; rfl)
    simp [tag, hpieces, hkey, hvalue]
  have hfields' : pieces backslash comma
      (List.intercalate [comma] (l.fields.map (fieldText rt))) = l.fields.map (fieldText rt) := by
    refine Whole.pieces_intercalate (by decide) (by simpa using hne) fun p hp => ?_
    obtain ⟨f, hf, rfl⟩ := List.mem_map.mp hp
    exact whole_fieldText htext (hfields f hf) (by decide)
  have hname : name (str "sensor_readings") = some (str "sensor_readings") := by decide +kernel
  simp [series, htags, hname, htag, hfields', mapM_fieldText htext hfields, Line.row]

/-- A line whose device id has no line feed is read as its row. -/
theorem parse_text (htext : FloatText rt number) {l : Line} (hl : l.Sound)
    (hnewline : newline ∉ l.deviceId) (rest : Str) :
    parse number (l.text rt ++ rest) = (parse number rest).map (l.row :: ·) := by
  have hconst : ∀ sep ∈ [newline, space], Plain backslash sep (str "sensor_readings,device_id=") ∧
      Plain backslash newline [space] ∧ Plain backslash sep [comma] := by
    decide +kernel
  have hwhole : ∀ sep ∈ [newline, space], Whole backslash sep l.head ∧
      Whole backslash sep (List.intercalate [comma] (l.fields.map (fieldText rt))) ∧
      Whole backslash sep (decimal l.timestampNs) := by
    intro sep hsep
    obtain ⟨htable, -, hcomma⟩ := hconst sep hsep
    refine ⟨htable.whole.append (whole_escapeTag ?_), .intercalate hcomma.whole fun p hp => ?_,
      (plain_toString _ ?_).whole⟩
    · simp only [List.mem_cons, List.not_mem_nil, or_false] at hsep
      rcases hsep with rfl | rfl
      · exact .inr hnewline
      · exact .inl (by decide)
    · obtain ⟨f, hf, rfl⟩ := List.mem_map.mp hp
      refine whole_fieldText htext (hl.2.2 f hf) ?_
      simp only [List.mem_cons, List.not_mem_nil, or_false] at hsep ⊢
      tauto
    · simp only [newline, space, List.mem_cons, List.not_mem_nil, or_false] at hsep
      omega
  obtain ⟨hhead, hfields, htime⟩ := hwhole space (by decide)
  have hline : Whole backslash newline (l.head ++ space ::
      (List.intercalate [comma] (l.fields.map (fieldText rt)) ++ space :: decimal l.timestampNs)) := by
    obtain ⟨hhead, hfields, htime⟩ := hwhole newline (by decide)
    have hspace : Whole backslash newline [space] := (hconst newline (by decide)).2.1.whole
    exact hhead.append (hspace.append (hfields.append (hspace.append htime)))
  rw [text_eq, parse_line number hline (by simp [Line.head]), row_eq number hhead hfields htime,
    decimal, str, integer_toString, Option.bind_some, series_head htext hl]
  rfl

variable (rt number) in
/-- A line feed in the device id ends the row before its fields. -/
theorem parse_text_of_newline {l : Line} (hnewline : newline ∈ l.deviceId) (rest : Str) :
    parse number (l.text rt ++ rest) = none := by
  obtain ⟨s, t, heq, hs⟩ := List.eq_append_cons_of_mem hnewline
  have htag : escapeTag l.deviceId = escapeTag s ++ newline :: escapeTag t := by
    rw [heq, escapeTag_eq, escapeTag_eq, escapeTag_eq]
    exact escape_append_cons (by decide)
  have hconst : ∀ sep ∈ [newline, space],
      Plain backslash sep (str "sensor_readings,device_id=") := by decide +kernel
  have hfirst : ∀ sep ∈ [newline, space],
      Whole backslash sep (str "sensor_readings,device_id=" ++ escapeTag s) := by
    intro sep hsep
    refine (hconst sep hsep).whole.append (whole_escapeTag ?_)
    simp only [List.mem_cons, List.not_mem_nil, or_false] at hsep
    rcases hsep with rfl | rfl
    · exact .inr hs
    · exact .inl (by decide)
  have hsplit : ∀ after, l.head ++ after = (str "sensor_readings,device_id=" ++ escapeTag s)
      ++ newline :: (escapeTag t ++ after) := by
    intro after
    rw [Line.head, htag]
    simp only [List.append_assoc, List.cons_append]
  have hne : str "sensor_readings,device_id=" ++ escapeTag s ≠ [] :=
    List.append_ne_nil_of_left_ne_nil (by decide) _
  rw [text_eq, List.append_assoc, hsplit, parse_line number (hfirst newline (by decide)) hne,
    row_head number (hfirst space (by decide)), Option.bind_none]

/-! ## Lines -/

theorem lineFields_ok {values : Dict} {fields : List (Str × PyFloat)}
    (h : lineFields rt values = .ok fields) :
    fields ≠ [] ∧ ∀ f ∈ fields, f.1 ∈ numericFields ∧ f.2.isFinite := by
  have hfinite : ∀ value x, finiteNumber rt value = .ok (some x) → x.isFinite := by
    intro value x hx
    unfold finiteNumber at hx
    split at hx
    · cases hx
    · cases hx
    · obtain ⟨number, -, hnumber⟩ := bind_ok.mp hx
      split at hnumber
      · cases hnumber
        assumption
      · cases hnumber
  obtain ⟨temperature, htemperature, h⟩ := bind_ok.mp h
  obtain ⟨battery, hbattery, h⟩ := bind_ok.mp h
  dsimp only at h
  split at h
  · cases h
  · rename_i hne
    cases h
    refine ⟨by simpa using hne, fun f hf => ?_⟩
    rcases List.mem_append.mp hf with hf | hf
    · obtain ⟨x, rfl, rfl⟩ : ∃ x, temperature = some x ∧ f = (str "temperature", x) := by
        cases temperature <;> simp_all
      exact ⟨List.mem_cons_self, hfinite _ _ htemperature⟩
    · obtain ⟨x, rfl, rfl⟩ : ∃ x, battery = some x ∧ f = (str "battery", x) := by
        cases battery <;> simp_all
      exact ⟨List.mem_cons_of_mem _ List.mem_cons_self, hfinite _ _ hbattery⟩

/-- What `build_line` returns. -/
theorem buildLine_spec {now : ℤ} {payload : Dict} {topic : Str} {line : Line}
    (h : buildLine rt now payload topic = .ok line) :
    line.Sound ∧
    (∃ s, (payload.get (str "device_id")).or
        ((payload.get (str "deviceId")).or (.str (defaultDeviceId topic))) = .str s ∧
      line.deviceId = strip s) ∧
    timestampNs rt now (payload.get (str "timestamp")) = .ok line.timestampNs := by
  obtain ⟨device, hdevice, h⟩ := bind_ok.mp h
  obtain ⟨values, hvalues, h⟩ := bind_ok.mp h
  obtain ⟨fields, hfields, h⟩ := bind_ok.mp h
  obtain ⟨ns, hns, h⟩ := bind_ok.mp h
  cases h
  obtain ⟨hne, hknown⟩ := lineFields_ok hfields
  unfold deviceId at hdevice
  split at hdevice
  · rename_i s hs
    split at hdevice
    · cases hdevice
    · rename_i hstrip
      cases hdevice
      exact ⟨⟨hne, by simpa using hstrip, hknown⟩, ⟨s, hs, rfl⟩, hns⟩
  · cases hdevice

/-- A line that is exactly one row of the intended device. -/
structure OneRow (rt : Runtime) (number : Str → Option PyFloat) (now : ℤ) (payload : Dict)
    (topic : Str) (text : Str) : Prop where
  /-- the row has the table, the tag, the fields and the timestamp, and no others -/
  row : ∃ device fields ns, parse number text =
      some [{ table := str "sensor_readings", tags := [(str "device_id", strip device)],
              fields := fields, timestamp := some ns }] ∧
    (payload.get (str "device_id")).or
        ((payload.get (str "deviceId")).or (.str (defaultDeviceId topic))) = .str device ∧
    (∀ f ∈ fields, f.1 ∈ numericFields ∧ f.2.isFinite) ∧
    timestampNs rt now (payload.get (str "timestamp")) = .ok ns

/-- **A line is one row of its device, with a tag of its own, exactly when the
device id has no line feed.** -/
theorem line_is_one_row_iff (htext : FloatText rt number) {now : ℤ} {payload : Dict} {topic : Str}
    {line : Line} (h : buildLine rt now payload topic = .ok line) :
    (OneRow rt number now payload topic (line.text rt) ∧
      ∀ id, escapeTag id = escapeTag line.deviceId → id = line.deviceId) ↔
    newline ∉ line.deviceId := by
  obtain ⟨hsound, ⟨device, hsource, hdevice⟩, hns⟩ := buildLine_spec h
  constructor
  · rintro ⟨⟨_, _, _, hparse, -⟩, -⟩ hnewline
    have hnone := parse_text_of_newline rt number hnewline []
    rw [List.append_nil, hparse] at hnone
    cases hnone
  · intro hnewline
    have hparse := parse_text htext hsound hnewline []
    rw [List.append_nil] at hparse
    exact ⟨⟨device, line.fields, line.timestampNs, hdevice ▸ hparse, hsource, hsound.2.2, hns⟩,
      fun id hid => escapeTag_injective hid⟩

/-! ## Messages -/

/-- What a list comprehension collects. -/
theorem mapM_ok {α β : Type} {f : α → Except PyError β} :
    ∀ {l : List α} {ys : List β}, l.mapM f = .ok ys → ∀ y ∈ ys, ∃ x ∈ l, f x = .ok y := by
  intro l
  induction l with
  | nil =>
    intro ys h
    cases h
    simp
  | cons x l ih =>
    intro ys h
    rw [List.mapM_cons] at h
    obtain ⟨y, hy, h⟩ := bind_ok.mp h
    obtain ⟨ys, hys, h⟩ := bind_ok.mp h
    cases h
    intro z hz
    rcases List.mem_cons.mp hz with rfl | hz
    · exact ⟨x, List.mem_cons_self, hy⟩
    · obtain ⟨x', hx', heq⟩ := ih hys z hz
      exact ⟨x', List.mem_cons_of_mem _ hx', heq⟩

theorem buildReadings_built {clock : ℕ → ℤ} {payload : Dict} {topic : Str} :
    ∀ {readings : List Value} {i : ℕ} {lines : List Line},
      buildReadings rt clock payload topic i readings = .ok lines →
      ∀ line ∈ lines, ∃ now payload topic, buildLine rt now payload topic = .ok line := by
  intro readings
  induction readings with
  | nil =>
    intro i lines h
    cases h
    simp
  | cons r rest ih =>
    intro i lines h
    cases r with
    | dict reading =>
      obtain ⟨line, hline, h⟩ := bind_ok.mp h
      obtain ⟨lines, hlines, h⟩ := bind_ok.mp h
      cases h
      intro l hl
      rcases List.mem_cons.mp hl with rfl | hl
      · exact ⟨_, _, _, hline⟩
      · exact ih hlines l hl
    | _ => cases h

/-- Every line of a message comes from `build_line`. -/
theorem parseMessage_built {clock : ℕ → ℤ} {message : Message} {lines : List Line}
    (h : parseMessage rt clock message = .ok lines) :
    ∀ line ∈ lines, ∃ now payload topic, buildLine rt now payload topic = .ok line := by
  unfold parseMessage at h
  split at h
  · -- Sparkplug B
    unfold buildSparkplugLines at h
    split at h
    · split at h
      · cases h
      · obtain ⟨payload, -, h⟩ := bind_ok.mp h
        split at h
        · cases h
          simp
        · split at h
          · obtain ⟨readings, -, h⟩ := bind_ok.mp h
            split at h
            · cases h
            · obtain ⟨sorted, -, h⟩ := bind_ok.mp h
              intro line hline
              obtain ⟨reading, -, hbuilt⟩ := mapM_ok h line hline
              exact ⟨_, _, _, hbuilt⟩
          · cases h
    · cases h
  · -- JSON
    unfold parseJson at h
    split at h
    · cases h
    · split at h
      · cases h
      · cases h
      · unfold buildLines at h
        split at h
        · obtain ⟨line, hline, h⟩ := bind_ok.mp h
          cases h
          intro l hl
          obtain rfl := List.mem_singleton.mp hl
          exact ⟨_, _, _, hline⟩
        · cases h
        · exact buildReadings_built h
        · cases h
      · cases h

/-- **The lines of a message are its rows, in their order, exactly when no device
id has a line feed.** -/
theorem lines_are_rows_iff (htext : FloatText rt number) {clock : ℕ → ℤ} {message : Message}
    {lines : List Line} (h : parseMessage rt clock message = .ok lines) :
    parse number (lines.flatMap (Line.text rt)) = some (lines.map Line.row) ↔
      ∀ line ∈ lines, newline ∉ line.deviceId := by
  have hsound : ∀ line ∈ lines, line.Sound := by
    intro line hline
    obtain ⟨now, payload, topic, hbuilt⟩ := parseMessage_built h line hline
    exact (buildLine_spec hbuilt).1
  clear h
  induction lines with
  | nil => simp [parse, pieces]
  | cons line lines ih =>
    have hrest := ih fun l hl => hsound l (List.mem_cons_of_mem _ hl)
    rw [List.flatMap_cons, List.forall_mem_cons]
    refine Iff.trans ?_ (and_congr_right' hrest)
    by_cases hnewline : newline ∈ line.deviceId
    · simp [parse_text_of_newline rt number hnewline, hnewline]
    · rw [parse_text htext (hsound line List.mem_cons_self) hnewline, List.map_cons]
      simp [hnewline]

/-! ## A reading -/

/-- 21.0. -/
def sampleTemperature : PyFloat := .ofFraction false 21 1

/-- The text of a number, as far as 21 goes; any other one is written as its
pattern. -/
def sampleRepr (x : PyFloat) : Str :=
  if x = sampleTemperature then str "21.0"
  else (if x.negative then [45] else []) ++ (Nat.toDigits 10 x.magnitude).map Char.toNat

/-- The number of such a text. -/
def sampleNumber (s : Str) : Option PyFloat :=
  if s = str "21.0" then some sampleTemperature
  else if s.head? = some 45 then (natural s.tail).map fun n => ⟨true, n⟩
  else (natural s).map fun n => ⟨false, n⟩

/-- A library that writes this number. -/
def sampleRuntime : Runtime := { bareRuntime with reprFloat := sampleRepr }

theorem sample_floatText : FloatText sampleRuntime sampleNumber := by
  have hdot : ∀ n : ℕ, 46 ∉ (Nat.toDigits 10 n).map Char.toNat := by
    intro n hmem
    have := digit_of_mem hmem
    omega
  have hminus : ∀ n : ℕ, ((Nat.toDigits 10 n).map Char.toNat).head? ≠ some 45 := by
    intro n hhead
    have := digit_of_mem (List.mem_of_mem_head? hhead)
    omega
  constructor
  · intro x _ c hc
    change c ∈ sampleRepr x at hc
    unfold sampleRepr at hc
    split at hc
    · revert c
      decide
    · rcases List.mem_append.mp hc with hc | hc
      · split at hc
        · exact .inr (.inr (.inl (List.mem_singleton.mp hc)))
        · cases hc
      · exact .inl (digit_of_mem hc)
  · intro x _
    change sampleNumber (sampleRepr x) = some x
    unfold sampleRepr
    split
    · rename_i hx
      rw [hx]
      rfl
    · obtain ⟨_ | _, n⟩ := x
      · have hne : (Nat.toDigits 10 n).map Char.toNat ≠ str "21.0" :=
          fun heq => hdot n (heq ▸ by decide)
        have hread : sampleNumber ((Nat.toDigits 10 n).map Char.toNat) = some ⟨false, n⟩ := by
          rw [sampleNumber, if_neg hne, if_neg (hminus n), natural_toDigits, Option.map_some]
        exact hread
      · have hne : 45 :: (Nat.toDigits 10 n).map Char.toNat ≠ str "21.0" :=
          fun heq => absurd (List.head_eq_of_cons_eq heq) (by decide)
        simp [sampleNumber, hne, natural_toDigits]

/-- A flat payload of a device. -/
def samplePayload (deviceId : String) : Dict :=
  [(str "device_id", .str (str deviceId)), (str "temperature", .int 21),
    (str "timestamp", .int 1790841960)]

/-- Its line. -/
def sampleLine (deviceId : String) : Line :=
  { deviceId := str deviceId, fields := [(str "temperature", sampleTemperature)],
    timestampNs := 1790841960000000000 }

theorem buildLine_sample : ∀ deviceId ∈ ["thingy91x", "a\nb"],
    buildLine sampleRuntime 0 (samplePayload deviceId) (str "aitsm/x/telemetry") =
      .ok (sampleLine deviceId) := by
  decide +kernel

theorem line_is_one_row_thingy :
    OneRow sampleRuntime sampleNumber 0 (samplePayload "thingy91x") (str "aitsm/x/telemetry")
      ((sampleLine "thingy91x").text sampleRuntime) ∧
    ∀ id, escapeTag id = escapeTag (str "thingy91x") → id = str "thingy91x" :=
  (line_is_one_row_iff sample_floatText (buildLine_sample _ (by decide))).mpr (by decide +kernel)

/-- **A line feed in a device id makes the line something else**: `build_line`
returns, and QuestDB reads no row. -/
theorem newline_in_device_id :
    buildLine sampleRuntime 0 (samplePayload "a\nb") (str "aitsm/x/telemetry") =
      .ok (sampleLine "a\nb") ∧
    parse sampleNumber ((sampleLine "a\nb").text sampleRuntime) = none ∧
    ¬OneRow sampleRuntime sampleNumber 0 (samplePayload "a\nb") (str "aitsm/x/telemetry")
      ((sampleLine "a\nb").text sampleRuntime) := by
  have hnone : parse sampleNumber ((sampleLine "a\nb").text sampleRuntime) = none := by
    decide +kernel
  refine ⟨by decide +kernel, hnone, fun ⟨_, _, _, hparse, _⟩ => ?_⟩
  rw [hnone] at hparse
  cases hparse

end Aitsm.Ingest
