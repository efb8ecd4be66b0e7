import Aitsm.Library.Varint
import Aitsm.Ingest.Decode

/-!
# What the decoder accepts

`FieldBytes` is the wire grammar of one field. `read_varint` and one round of
`decode_fields` take from a byte string exactly what the grammar has at its start
(`readVarint_iff`, `readField_iff`), so that there is at most one such piece; and
`decode_fields` ends without an exception exactly when the string is made of such
pieces, which it yields (`decodeFields_grammar`). A beginning that ends within a field
is refused (`truncated_refused`).
-/

namespace Aitsm.Ingest

open Library Library.Wire

/-! ## Varints -/

theorem byte_spec (b : UInt8) :
    (b &&& 0x7F).toNat = b.toNat % 128 ∧ (b &&& 0x80 = 0 ↔ b.toNat < 128) := by
  have hall : ∀ n < 256, (UInt8.ofNat n &&& 0x7F).toNat = n % 128 ∧
      (UInt8.ofNat n &&& 0x80 = 0 ↔ n < 128) := by decide +kernel
  simpa using hall b.toNat b.toNat_lt

theorem readVarintFrom_iff {data rest : Bytes} {v : ℕ} :
    ∀ {k result : ℕ}, result < 2 ^ (7 * k) →
      (readVarintFrom data (7 * k) result = .ok (v, rest) ↔
        ∃ bs, IsVarint bs ∧ bs.length + k ≤ 10 ∧ v = result + varintNumber bs * 2 ^ (7 * k) ∧
          data = bs ++ rest) := by
  induction data with
  | nil =>
    intro k result _
    refine ⟨fun h => (by cases h), ?_⟩
    rintro ⟨bs, hbs, -, -, heq⟩
    cases hbs <;> simp at heq
  | cons b data ih =>
    intro k result hresult
    obtain ⟨hlow, htop⟩ := byte_spec b
    unfold readVarintFrom
    by_cases hk : 63 < 7 * k
    · rw [if_pos hk]
      refine ⟨fun h => (by cases h), ?_⟩
      rintro ⟨bs, hbs, hlen, -⟩
      have : 0 < bs.length := by cases hbs <;> simp
      omega
    rw [if_neg hk, hlow, or_shiftLeft hresult]
    dsimp only
    by_cases hb : b.toNat < 128
    · -- the last byte
      rw [if_pos (htop.mpr hb)]
      constructor
      · intro h
        cases h
        exact ⟨[b], .last hb, by simp; omega, by simp [varintNumber], rfl⟩
      · rintro ⟨bs, hbs, -, rfl, heq⟩
        cases hbs with
        | last => obtain ⟨rfl, rfl⟩ := List.cons.inj heq; simp [varintNumber]
        | more hmore =>
          obtain rfl := (List.cons.inj heq).1
          omega
    · rw [if_neg (fun h => hb (htop.mp h)), show 7 * k + 7 = 7 * (k + 1) by omega,
        ih (add_digit_lt hresult (Nat.mod_lt _ (by omega)))]
      have hnumber : ∀ bs : Bytes, result + b.toNat % 128 * 2 ^ (7 * k) +
          varintNumber bs * 2 ^ (7 * (k + 1)) =
          result + varintNumber (b :: bs) * 2 ^ (7 * k) := by
        intro bs
        rw [varintNumber, show 7 * (k + 1) = 7 * k + 7 by omega, pow_add]
        ring
      constructor
      · rintro ⟨bs, hbs, hlen, rfl, rfl⟩
        exact ⟨b :: bs, .more (by omega) hbs, by simp; omega, hnumber bs, rfl⟩
      · rintro ⟨bs, hbs, hlen, rfl, heq⟩
        cases hbs with
        | last hlast =>
          obtain rfl := (List.cons.inj heq).1
          omega
        | more _ hbs =>
          obtain ⟨rfl, rfl⟩ := List.cons.inj heq
          exact ⟨_, hbs, by simp at hlen; omega, (hnumber _).symm, rfl⟩

/-- **`read_varint` takes the varint at the start**, of at most ten bytes. -/
theorem readVarint_iff {data rest : Bytes} {v : ℕ} :
    readVarint data = .ok (v, rest) ↔
      ∃ bs, IsVarint bs ∧ bs.length ≤ 10 ∧ v = varintNumber bs ∧ data = bs ++ rest := by
  have h : (0 : ℕ) < 2 ^ (7 * 0) := by omega
  have hfrom : readVarintFrom data (7 * 0) 0 = .ok (v, rest) ↔ _ := readVarintFrom_iff h
  simpa [readVarint] using hfrom

/-! ## Fields -/

/-- A varint of at most ten bytes. -/
def Varint (bs : Bytes) : Prop := IsVarint bs ∧ bs.length ≤ 10

/-- The bytes of one field: its key, and what the wire type says. -/
inductive FieldBytes : Bytes → Field → Prop
  | varint {k v : Bytes} : Varint k → varintNumber k % 8 = 0 → Varint v →
      FieldBytes (k ++ v) ⟨varintNumber k / 8, 0, .int (varintNumber v)⟩
  | fixed64 {k body : Bytes} : Varint k → varintNumber k % 8 = 1 → body.length = 8 →
      FieldBytes (k ++ body) ⟨varintNumber k / 8, 1, .bytes body⟩
  | length {k size body : Bytes} : Varint k → varintNumber k % 8 = 2 → Varint size →
      body.length = varintNumber size →
      FieldBytes (k ++ (size ++ body)) ⟨varintNumber k / 8, 2, .bytes body⟩
  | fixed32 {k body : Bytes} : Varint k → varintNumber k % 8 = 5 → body.length = 4 →
      FieldBytes (k ++ body) ⟨varintNumber k / 8, 5, .bytes body⟩

theorem FieldBytes.ne_nil {bs : Bytes} {field : Field} (h : FieldBytes bs field) : bs ≠ [] := by
  have hkey : ∀ {k : Bytes}, Varint k → k ≠ [] := by
    rintro k ⟨hk, -⟩ rfl
    cases hk
  cases h with
  | varint hk | fixed64 hk | length hk | fixed32 hk =>
    exact List.append_ne_nil_of_left_ne_nil (hkey hk) _

theorem readBytes_iff {data body rest : Bytes} {size : ℕ} :
    readBytes data size = .ok (body, rest) ↔ body.length = size ∧ data = body ++ rest := by
  unfold readBytes
  split
  · refine ⟨fun h => (by cases h), ?_⟩
    rintro ⟨rfl, rfl⟩
    simp at *
  · constructor
    · intro h
      cases h
      exact ⟨by simp; omega, by simp⟩
    · rintro ⟨rfl, rfl⟩
      simp

/-- **One round of `decode_fields` takes the field at the start.** -/
theorem readField_iff {data rest : Bytes} {field : Field} :
    readField data = .ok (field, rest) ↔ ∃ bs, FieldBytes bs field ∧ data = bs ++ rest := by
  have hread : ∀ {bs : Bytes} (rest : Bytes), Varint bs →
      readVarint (bs ++ rest) = .ok (varintNumber bs, rest) :=
    fun rest h => readVarint_iff.mpr ⟨_, h.1, h.2, rfl, rfl⟩
  unfold readField
  constructor
  · intro h
    obtain ⟨⟨k, data'⟩, hkey, hvalue⟩ := bind_ok.mp h
    obtain ⟨bs, hbs, hlen, rfl, rfl⟩ := readVarint_iff.mp hkey
    dsimp only at hvalue
    split at hvalue
    · rename_i hwire
      obtain ⟨⟨v, data⟩, hv, hlast⟩ := bind_ok.mp hvalue
      obtain ⟨vs, hvs, hvlen, rfl, rfl⟩ := readVarint_iff.mp hv
      cases hlast
      exact ⟨bs ++ vs, .varint ⟨hbs, hlen⟩ hwire ⟨hvs, hvlen⟩, by simp⟩
    · rename_i hwire
      obtain ⟨⟨size, data⟩, hsize, hrest⟩ := bind_ok.mp hvalue
      obtain ⟨ss, hss, hslen, rfl, rfl⟩ := readVarint_iff.mp hsize
      obtain ⟨⟨body, data⟩, hbody, hlast⟩ := bind_ok.mp hrest
      obtain ⟨hblen, rfl⟩ := readBytes_iff.mp hbody
      cases hlast
      exact ⟨bs ++ (ss ++ body), .length ⟨hbs, hlen⟩ hwire ⟨hss, hslen⟩ hblen, by simp⟩
    · rename_i hwire
      obtain ⟨⟨body, data⟩, hbody, hlast⟩ := bind_ok.mp hvalue
      obtain ⟨hblen, rfl⟩ := readBytes_iff.mp hbody
      cases hlast
      exact ⟨bs ++ body, .fixed64 ⟨hbs, hlen⟩ hwire hblen, by simp⟩
    · rename_i hwire
      obtain ⟨⟨body, data⟩, hbody, hlast⟩ := bind_ok.mp hvalue
      obtain ⟨hblen, rfl⟩ := readBytes_iff.mp hbody
      cases hlast
      exact ⟨bs ++ body, .fixed32 ⟨hbs, hlen⟩ hwire hblen, by simp⟩
    · cases hvalue
  · rintro ⟨bs, hbs, rfl⟩
    cases hbs with
    | varint hk hwire hv =>
      rw [List.append_assoc, hread _ hk]
      simp only [bind, Except.bind, hwire, hread _ hv]
      rfl
    | fixed64 hk hwire hbody | fixed32 hk hwire hbody =>
      rw [List.append_assoc, hread _ hk]
      simp only [bind, Except.bind, hwire, readBytes_iff.mpr ⟨hbody, rfl⟩]
      rfl
    | length hk hwire hsize hbody =>
      rw [List.append_assoc, hread _ hk, List.append_assoc]
      simp only [bind, Except.bind, hwire, hread _ hsize, readBytes_iff.mpr ⟨hbody, rfl⟩]
      rfl

theorem readVarintFrom_error {data : Bytes} {e : PyError} :
    ∀ {shift result : ℕ}, readVarintFrom data shift result = .error e → e = .valueError := by
  induction data with
  | nil =>
    intro shift result h
    cases h
    rfl
  | cons b data ih =>
    intro shift result h
    unfold readVarintFrom at h
    split at h
    · cases h
      rfl
    · dsimp only at h
      split at h
      · cases h
      · exact ih h

theorem readBytes_error {data : Bytes} {size : ℕ} {e : PyError}
    (h : readBytes data size = .error e) : e = .valueError := by
  unfold readBytes at h
  split at h <;> cases h
  rfl

theorem bind_error {α β : Type} {x : Except PyError α} {f : α → Except PyError β} {e : PyError} :
    x >>= f = .error e ↔ x = .error e ∨ ∃ a, x = .ok a ∧ f a = .error e := by
  rcases x with e' | a <;> simp [bind, Except.bind]

/-- The decoder refuses with nothing but a `ValueError`. -/
theorem readField_error {data : Bytes} {e : PyError} (h : readField data = .error e) :
    e = .valueError := by
  unfold readField at h
  rcases bind_error.mp h with hkey | ⟨⟨k, data⟩, -, hvalue⟩
  · exact readVarintFrom_error hkey
  dsimp only at hvalue
  split at hvalue
  · rcases bind_error.mp hvalue with hv | ⟨_, -, hlast⟩
    · exact readVarintFrom_error hv
    · cases hlast
  · rcases bind_error.mp hvalue with hsize | ⟨_, -, hrest⟩
    · exact readVarintFrom_error hsize
    · rcases bind_error.mp hrest with hbody | ⟨_, -, hlast⟩
      · exact readBytes_error hbody
      · cases hlast
  · rcases bind_error.mp hvalue with hbody | ⟨_, -, hlast⟩
    · exact readBytes_error hbody
    · cases hlast
  · rcases bind_error.mp hvalue with hbody | ⟨_, -, hlast⟩
    · exact readBytes_error hbody
    · cases hlast
  · cases hvalue
    rfl

/-! ## Byte strings -/

/-- The pieces are fields one after the other. -/
def Pieces (pieces : List (Bytes × Field)) : Prop := ∀ p ∈ pieces, FieldBytes p.1 p.2

/-- A string is cut into fields in one way, and a beginning of it at most further. -/
theorem pieces_take {pieces pieces' : List (Bytes × Field)} (h : Pieces pieces)
    (h' : Pieces pieces') {rest : Bytes}
    (heq : pieces.flatMap Prod.fst = pieces'.flatMap Prod.fst ++ rest) :
    pieces' = pieces.take pieces'.length := by
  induction pieces' generalizing pieces with
  | nil => rfl
  | cons p pieces' ih =>
    have hp := h' p List.mem_cons_self
    rw [List.flatMap_cons, List.append_assoc] at heq
    have hread := readField_iff.mpr ⟨p.1, hp, heq⟩
    cases pieces with
    | nil =>
      have hnil : p.1 = [] := (List.append_eq_nil_iff.mp heq.symm).1
      exact absurd hnil hp.ne_nil
    | cons q pieces =>
      have hq : readField ((q :: pieces).flatMap Prod.fst) =
          .ok (q.2, pieces.flatMap Prod.fst) :=
        readField_iff.mpr ⟨q.1, h q List.mem_cons_self, List.flatMap_cons⟩
      rw [hread] at hq
      obtain ⟨hfield, hrest⟩ := Prod.mk.inj (Except.ok.inj hq)
      have hbytes : p.1 = q.1 := by
        rw [List.flatMap_cons, ← hrest] at heq
        exact (List.append_cancel_right heq).symm
      rw [List.length_cons, List.take_succ_cons, ← Prod.ext hbytes hfield,
        ← ih (fun r hr => h r (List.mem_cons_of_mem _ hr))
          (fun r hr => h' r (List.mem_cons_of_mem _ hr)) hrest.symm]

/-- What the loop yields, and where it ends. -/
theorem decodeFieldsAux_spec {rounds : ℕ} {data : Bytes} (h : data.length ≤ rounds) :
    ∃ pieces rest, Pieces pieces ∧ data = pieces.flatMap Prod.fst ++ rest ∧
      (decodeFieldsAux rounds data).yielded = pieces.map Prod.snd ∧
      ((decodeFieldsAux rounds data).raised = none ∧ rest = [] ∨
        (decodeFieldsAux rounds data).raised = some .valueError ∧ rest ≠ []) := by
  induction rounds generalizing data with
  | zero =>
    obtain rfl := List.length_eq_zero_iff.mp (Nat.le_zero.mp h)
    exact ⟨[], [], nofun, rfl, rfl, .inl ⟨rfl, rfl⟩⟩
  | succ rounds ih =>
    cases data with
    | nil => exact ⟨[], [], nofun, rfl, rfl, .inl ⟨rfl, rfl⟩⟩
    | cons byte bytes =>
      unfold decodeFieldsAux
      rcases hread : readField (byte :: bytes) with e | ⟨field, data⟩
      · obtain rfl := readField_error hread
        exact ⟨[], byte :: bytes, nofun, rfl, rfl, .inr ⟨rfl, List.cons_ne_nil _ _⟩⟩
      · obtain ⟨bs, hbs, hdata⟩ := readField_iff.mp hread
        have hlen : data.length ≤ rounds := by
          have hpos := List.length_pos_iff.mpr hbs.ne_nil
          have := congrArg List.length hdata
          rw [List.length_append] at this
          omega
        obtain ⟨pieces, rest, hpieces, rfl, hyielded, hend⟩ := ih hlen
        refine ⟨(bs, field) :: pieces, rest, fun p hp => ?_, ?_, ?_, hend⟩
        · rcases List.mem_cons.mp hp with rfl | hp
          · exact hbs
          · exact hpieces p hp
        · rw [hdata, List.flatMap_cons, List.append_assoc]
        · simp [hyielded]

/-- The length of the data is enough rounds. -/
theorem decodeFieldsAux_enough {rounds rounds' : ℕ} {data : Bytes} (h : data.length ≤ rounds)
    (h' : data.length ≤ rounds') :
    decodeFieldsAux rounds data = decodeFieldsAux rounds' data := by
  induction rounds generalizing rounds' data with
  | zero =>
    obtain rfl := List.length_eq_zero_iff.mp (Nat.le_zero.mp h)
    cases rounds' <;> rfl
  | succ rounds ih =>
    cases data with
    | nil => cases rounds' <;> rfl
    | cons byte bytes =>
      obtain ⟨rounds', rfl⟩ : ∃ r, rounds' = r + 1 :=
        ⟨rounds' - 1, by rw [List.length_cons] at h'; omega⟩
      unfold decodeFieldsAux
      rcases hread : readField (byte :: bytes) with e | ⟨field, data⟩
      · rfl
      · obtain ⟨bs, hbs, hdata⟩ := readField_iff.mp hread
        have hpos := List.length_pos_iff.mpr hbs.ne_nil
        have hlen := congrArg List.length hdata
        rw [List.length_append] at hlen
        dsimp only
        rw [ih (by omega : data.length ≤ rounds) (by omega : data.length ≤ rounds')]

/-- A string made of fields is decoded into them. -/
theorem decodeFields_pieces {pieces : List (Bytes × Field)} (h : Pieces pieces) :
    decodeFields (pieces.flatMap Prod.fst) = ⟨pieces.map Prod.snd, none⟩ := by
  refine decodeFields_writes fun p hp => ⟨(h p hp).ne_nil, fun rest => ?_⟩
  exact readField_iff.mpr ⟨p.1, h p hp, rfl⟩

/-- The minimal encoding of a field. -/
def encodeField (field : Field) : Bytes :=
  match field.value with
  | .int n => key field.number field.wireType ++ varint n
  | .bytes body =>
    if field.wireType = 2 then key field.number 2 ++ (varint body.length ++ body)
    else key field.number field.wireType ++ body

/-- The value is one of the wire type. -/
def Field.WellTyped (field : Field) : Prop :=
  field.number < 2 ^ 29 ∧
    match field.wireType, field.value with
    | 0, .int n => n < 2 ^ 64
    | 1, .bytes body => body.length = 8
    | 2, .bytes body => body.length < 2 ^ 64
    | 5, .bytes body => body.length = 4
    | _, _ => False

theorem varint_ten {n : ℕ} (hn : n < 2 ^ 64) : Varint (varint n) :=
  ⟨isVarint_varint n, length_varint_le (by omega) (hn.trans (by norm_num))⟩

theorem encodeField_fieldBytes {field : Field} (h : field.WellTyped) :
    FieldBytes (encodeField field) field := by
  obtain ⟨number, wireType, value⟩ := field
  obtain ⟨hnumber, hvalue⟩ := h
  dsimp only at hnumber hvalue
  have hkey : ∀ wireType < 8, Varint (key number wireType) ∧
      varintNumber (key number wireType) % 8 = wireType ∧
      varintNumber (key number wireType) / 8 = number := by
    intro wireType hwire
    rw [key, varintNumber_varint]
    exact ⟨varint_ten (by omega), by omega, by omega⟩
  split at hvalue
  · obtain ⟨hk, hwire, hdiv⟩ := hkey 0 (by omega)
    have hbytes := FieldBytes.varint hk hwire (varint_ten hvalue)
    rwa [hdiv, varintNumber_varint] at hbytes
  · obtain ⟨hk, hwire, hdiv⟩ := hkey 1 (by omega)
    have hbytes := FieldBytes.fixed64 hk hwire hvalue
    rwa [hdiv] at hbytes
  · obtain ⟨hk, hwire, hdiv⟩ := hkey 2 (by omega)
    have hbytes := FieldBytes.length hk hwire (varint_ten hvalue) (varintNumber_varint _).symm
    rwa [hdiv] at hbytes
  · obtain ⟨hk, hwire, hdiv⟩ := hkey 5 (by omega)
    have hbytes := FieldBytes.fixed32 hk hwire hvalue
    rwa [hdiv] at hbytes
  · exact hvalue.elim

theorem decodeFields_encode {fields : List Field} (h : ∀ f ∈ fields, f.WellTyped) :
    decodeFields (fields.flatMap encodeField) = ⟨fields, none⟩ := by
  have hpieces : Pieces (fields.map fun f => (encodeField f, f)) := by
    intro p hp
    obtain ⟨f, hf, rfl⟩ := List.mem_map.mp hp
    exact encodeField_fieldBytes (h f hf)
  have hdecode := decodeFields_pieces hpieces
  rwa [List.flatMap_map, List.map_map, show Prod.snd ∘ (fun f => (encodeField f, f)) = id from rfl,
    List.map_id] at hdecode

/-- A generator that raises ends the loop over it. -/
theorem forEach_raised {σ : Type} {fields : Fields} {e : PyError} (h : fields.raised = some e)
    (s : σ) (body : σ → Field → Except PyError σ) :
    ∃ e', fields.forEach s body = .error e' := by
  unfold Fields.forEach
  rw [h]
  rcases fields.yielded.foldlM body s with e' | t
  · exact ⟨e', rfl⟩
  · exact ⟨e, rfl⟩

/-- A beginning that ends within a field is refused. -/
theorem truncated_refused {pieces : List (Bytes × Field)} (h : Pieces pieces) {start rest : Bytes}
    (hdata : pieces.flatMap Prod.fst = start ++ rest)
    (hwithin : ∀ k, start ≠ (pieces.take k).flatMap Prod.fst) :
    (∃ e, decodeSparkplugPayload start = .error e) ∧
      ∀ rt topic, ∃ e, buildSparkplugLines rt topic start = .error e := by
  obtain ⟨pieces', rest', hpieces', hstart, -, hend⟩ := decodeFieldsAux_spec (le_refl start.length)
  have hraised : (decodeFields start).raised = some .valueError := by
    refine hend.elim (fun hok => ?_) And.left
    rw [hok.2, List.append_nil] at hstart
    refine absurd ?_ (hwithin pieces'.length)
    rw [← pieces_take h hpieces' (hstart ▸ hdata), ← hstart]
  have hpayload : ∃ e, decodeSparkplugPayload start = .error e := forEach_raised hraised _ _
  refine ⟨hpayload, fun rt topic => ?_⟩
  obtain ⟨e, he⟩ := hpayload
  unfold buildSparkplugLines
  split
  · split
    · exact ⟨_, rfl⟩
    · rw [he]
      exact ⟨e, rfl⟩
  · exact ⟨_, rfl⟩

/-- **`decode_fields` accepts its grammar, and inverts the encoding.** It ends after
at most as many rounds as there are bytes, with nothing but a `ValueError`, and
without one exactly when the bytes are fields one after the other, which are the
only ones and are yielded. What is encoded is decoded, and a beginning that ends
within a top-level field is refused as a whole. -/
theorem decodeFields_grammar (data : Bytes) :
    (∀ rounds, data.length ≤ rounds → decodeFieldsAux rounds data = decodeFields data) ∧
    ((decodeFields data).raised = none ∨ (decodeFields data).raised = some .valueError) ∧
    ((decodeFields data).raised = none ↔ ∃ pieces, Pieces pieces ∧ data = pieces.flatMap Prod.fst) ∧
    (∀ pieces, Pieces pieces → data = pieces.flatMap Prod.fst →
      (decodeFields data).yielded = pieces.map Prod.snd ∧
      ∀ pieces', Pieces pieces' → data = pieces'.flatMap Prod.fst → pieces' = pieces) ∧
    (∀ fields : List Field, (∀ f ∈ fields, f.WellTyped) →
      decodeFields (fields.flatMap encodeField) = ⟨fields, none⟩) ∧
    ∀ pieces, Pieces pieces → data = pieces.flatMap Prod.fst →
      ∀ start rest, data = start ++ rest → (∀ k, start ≠ (pieces.take k).flatMap Prod.fst) →
        (∃ e, decodeSparkplugPayload start = .error e) ∧
          ∀ rt topic, ∃ e, buildSparkplugLines rt topic start = .error e := by
  refine ⟨fun rounds h => decodeFieldsAux_enough h (le_refl _), ?_, ?_, ?_,
    fun fields h => decodeFields_encode h, ?_⟩
  · obtain ⟨_, _, _, _, _, hend⟩ := decodeFieldsAux_spec (le_refl data.length)
    exact hend.imp And.left And.left
  · constructor
    · intro hnone
      obtain ⟨pieces, rest, hpieces, hdata, -, hend⟩ := decodeFieldsAux_spec (le_refl data.length)
      rcases hend with ⟨-, rfl⟩ | ⟨hraised, -⟩
      · exact ⟨pieces, hpieces, by simpa using hdata⟩
      · cases hnone.symm.trans hraised
    · rintro ⟨pieces, hpieces, rfl⟩
      rw [decodeFields_pieces hpieces]
  · rintro pieces hpieces rfl
    refine ⟨by rw [decodeFields_pieces hpieces], fun pieces' hpieces' heq => ?_⟩
    have htake := pieces_take hpieces hpieces' (heq.trans (List.append_nil _).symm)
    have htake' := pieces_take hpieces' hpieces (heq.symm.trans (List.append_nil _).symm)
    have hlen := congrArg List.length htake
    have hlen' := congrArg List.length htake'
    rw [List.length_take] at hlen hlen'
    rwa [List.take_of_length_le (by omega)] at htake
  · rintro pieces hpieces hdata start rest hsplit hwithin
    exact truncated_refused hpieces (hdata.symm.trans hsplit) hwithin

end Aitsm.Ingest
