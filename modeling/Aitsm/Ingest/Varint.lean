import Aitsm.Ingest.Grammar

/-!
# The range of `read_varint`

`read_varint` bounds the shift, and so the bytes it takes: there are ten of them
at most. The tenth may still carry seven bits where a number of 64 bits has room
for one, and then the number it returns is larger than any `uint64`
(`Overflowing`).
-/

namespace Aitsm.Ingest

open Library Library.Wire

/-- The loop of `read_varint`. -/
def readVarintLoop (data : Bytes) (position shift result : ℕ) : Except PyError (ℕ × ℕ) :=
  if h : data.length ≤ position ∨ 63 < shift then .error .valueError
  else
    let byte := data.get ⟨position, by omega⟩
    let position := position + 1
    let result := result ||| (byte &&& 0x7F).toNat <<< shift
    if byte &&& 0x80 = 0 then .ok (result, position)
    else readVarintLoop data position (shift + 7) result
termination_by data.length - position

/-- `read_varint(data, position)`: the number, and the position after it. -/
def readVarintAt (data : Bytes) (position : ℕ) : Except PyError (ℕ × ℕ) :=
  readVarintLoop data position 0 0

/-- Reading from a position on is reading what is left there. -/
theorem readVarintLoop_eq (data : Bytes) (position shift result : ℕ) :
    readVarintLoop data position shift result =
      (readVarintFrom (data.drop position) shift result).map
        fun r => (r.1, data.length - r.2.length) := by
  fun_induction readVarintLoop data position shift result with
  | case1 position shift result h =>
    rcases Nat.lt_or_ge position data.length with hlt | hge
    · rw [List.drop_eq_getElem_cons hlt, readVarintFrom, if_pos (by omega)]
      rfl
    · rw [List.drop_eq_nil_of_le hge]
      rfl
  | case2 position shift result h byte position' result' hlast =>
    have hlt : position < data.length := by omega
    have htop : data[position] &&& 0x80 = 0 := hlast
    rw [List.drop_eq_getElem_cons hlt, readVarintFrom, if_neg (by omega)]
    dsimp only
    rw [if_pos htop, Except.map, List.length_drop, Nat.sub_sub_self hlt]
    rfl
  | case3 position shift result h byte position' result' hmore ih =>
    have hlt : position < data.length := by omega
    have htop : ¬data[position] &&& 0x80 = 0 := hmore
    rw [List.drop_eq_getElem_cons hlt, readVarintFrom, if_neg (by omega)]
    dsimp only
    rw [if_neg htop]
    exact ih

theorem length_sub_rest {data bs rest : Bytes} {position : ℕ} (hbs : IsVarint bs)
    (hdrop : data.drop position = bs ++ rest) :
    data.length - rest.length = position + bs.length := by
  have hlength := congrArg List.length hdrop
  have hpos : 0 < bs.length := List.length_pos_of_ne_nil hbs.ne_nil
  rw [List.length_drop, List.length_append] at hlength
  omega

/-- **What `read_varint` returns**: a varint of at most ten bytes at the position. -/
theorem readVarintAt_iff {data : Bytes} {position value next : ℕ} :
    readVarintAt data position = .ok (value, next) ↔
      ∃ bs rest, IsVarint bs ∧ bs.length ≤ 10 ∧ value = varintNumber bs ∧
        data.drop position = bs ++ rest ∧ next = position + bs.length := by
  rw [readVarintAt, readVarintLoop_eq]
  change Except.map _ (readVarint (data.drop position)) = _ ↔ _
  constructor
  · intro h
    rcases hread : readVarint (data.drop position) with e | ⟨v, rest⟩
    · rw [hread] at h
      cases h
    · rw [hread] at h
      cases h
      obtain ⟨bs, hbs, hlen, rfl, hdrop⟩ := readVarint_iff.mp hread
      exact ⟨bs, rest, hbs, hlen, rfl, hdrop, length_sub_rest hbs hdrop⟩
  · rintro ⟨bs, rest, hbs, hlen, rfl, hdrop, rfl⟩
    rw [readVarint_iff.mpr ⟨bs, hbs, hlen, rfl, hdrop⟩, Except.map, length_sub_rest hbs hdrop]

theorem readVarintLoop_error {data : Bytes} {position shift result : ℕ} {e : PyError}
    (h : readVarintLoop data position shift result = .error e) : e = .valueError := by
  fun_induction readVarintLoop data position shift result with
  | case1 =>
    cases h
    rfl
  | case2 => cases h
  | case3 _ _ _ _ _ _ _ _ ih => exact ih h

/-- The first nine bytes have their top bit set, and the tenth has more than the
one bit that is left. -/
def Overflowing (data : Bytes) (position : ℕ) : Prop :=
  (∀ i < 9, ∃ b, data[position + i]? = some b ∧ 128 ≤ b.toNat) ∧
    ∃ b, data[position + 9]? = some b ∧ 2 ≤ b.toNat ∧ b.toNat < 128

/-- `read_varint` reads a varint of 64 bits, or raises `ValueError`. -/
def Reads64 (data : Bytes) (position : ℕ) : Prop :=
  match readVarintAt data position with
  | .error e => e = .valueError
  | .ok (value, next) =>
    position < next ∧ next ≤ min (position + 10) data.length ∧ value < 2 ^ 64 ∧
      value = varintNumber ((data.drop position).take (next - position))

/-- Ten bytes overflow when the last of them is too large. -/
theorem overflowing_iff {data bs rest : Bytes} {position : ℕ} (hbs : IsVarint bs)
    (hlen : bs.length ≤ 10) (hdrop : data.drop position = bs ++ rest) :
    Overflowing data position ↔ 2 ^ 64 ≤ varintNumber bs := by
  obtain ⟨head, last, rfl, hhead, hlast⟩ := isVarint_iff.mp hbs
  have hget (i : ℕ) : data[position + i]? = (head ++ last :: rest)[i]? := by
    rw [← List.getElem?_drop, hdrop, List.append_assoc, List.singleton_append]
  have hnumber : varintNumber (head ++ [last]) =
      varintNumber head + 128 ^ head.length * last.toNat := by
    rw [varintNumber_append, varintNumber, varintNumber, Nat.mod_eq_of_lt hlast, Nat.mul_zero,
      Nat.add_zero]
  have hhlen : head.length ≤ 9 := by
    rw [List.length_append, List.length_singleton] at hlen
    exact Nat.le_of_succ_le_succ hlen
  have hlt := varintNumber_lt head
  rw [hnumber]
  constructor
  · rintro ⟨hmore, b, hb, htwo, -⟩
    have hnine : head.length = 9 := by
      by_contra hne
      obtain ⟨b, hb, hbig⟩ := hmore head.length (by omega)
      rw [hget, List.getElem?_append_right le_rfl, Nat.sub_self] at hb
      obtain rfl : last = b := Option.some.inj hb
      omega
    rw [hget, ← hnine, List.getElem?_append_right le_rfl, Nat.sub_self] at hb
    obtain rfl : last = b := Option.some.inj hb
    rw [hnine]
    omega
  · intro hbig
    have hnine : head.length = 9 := by
      by_contra hne
      have hpow : 128 ^ head.length ≤ 128 ^ 8 := Nat.pow_le_pow_right (by omega) (by omega)
      have : 128 ^ head.length * (last.toNat + 1) ≤ 128 ^ 8 * 128 := Nat.mul_le_mul hpow hlast
      rw [Nat.mul_succ] at this
      omega
    rw [hnine] at hbig hlt
    refine ⟨fun i hi => ?_, last, ?_, by omega, hlast⟩
    · refine ⟨head[i], ?_, hhead _ (List.getElem_mem _)⟩
      rw [hget, List.getElem?_append_left (by omega), List.getElem?_eq_getElem]
    · rw [hget, ← hnine, List.getElem?_append_right le_rfl, Nat.sub_self]
      rfl

/-- Ten bytes that overflow are a varint. -/
theorem Overflowing.readVarintAt {data : Bytes} {position : ℕ} (h : Overflowing data position) :
    ∃ r, readVarintAt data position = .ok r := by
  obtain ⟨hmore, b, hb, -, hlast⟩ := h
  obtain ⟨hlt, rfl⟩ := List.getElem?_eq_some_iff.mp hb
  have hdrop : data.drop position =
      (data.drop position).take 9 ++ [data[position + 9]] ++ data.drop (position + 10) := by
    rw [List.append_assoc, List.singleton_append, ← List.drop_eq_getElem_cons hlt,
      ← List.drop_drop, List.take_append_drop]
  refine ⟨_, readVarintAt_iff.mpr ⟨_, _, isVarint_iff.mpr ⟨_, _, rfl, fun x hx => ?_, hlast⟩, ?_,
    rfl, hdrop, rfl⟩⟩
  · obtain ⟨i, hi, rfl⟩ := List.mem_iff_getElem.mp hx
    obtain ⟨b, hb, hbig⟩ := hmore i (by simpa using hi.trans_le (List.length_take_le _ _))
    obtain ⟨_, rfl⟩ := List.getElem?_eq_some_iff.mp hb
    simpa using hbig
  · simp

/-- **`read_varint` implements 64-bit varints exactly where the tenth byte has no
bits to spare.** -/
theorem reads64_iff (data : Bytes) (position : ℕ) :
    Reads64 data position ↔ ¬Overflowing data position := by
  unfold Reads64
  rcases hread : readVarintAt data position with e | ⟨value, next⟩
  · refine iff_of_true (readVarintLoop_error hread) fun hover => ?_
    obtain ⟨r, hok⟩ := hover.readVarintAt
    rw [hok] at hread
    cases hread
  · obtain ⟨bs, rest, hbs, hlen, rfl, hdrop, rfl⟩ := readVarintAt_iff.mp hread
    have hlength := congrArg List.length hdrop
    have hpos : 0 < bs.length := List.length_pos_of_ne_nil hbs.ne_nil
    rw [List.length_drop, List.length_append] at hlength
    rw [overflowing_iff hbs hlen hdrop, not_le]
    constructor
    · exact fun h => h.2.2.1
    · refine fun hlt => ⟨by omega, by omega, hlt, ?_⟩
      rw [hdrop, Nat.add_sub_cancel_left, List.take_left]

/-- Ten bytes with the number 2⁶⁴. -/
theorem reads_beyond_64 :
    readVarintAt (List.replicate 9 0x80 ++ [0x02]) 0 = .ok (2 ^ 64, 10) ∧
      ¬Reads64 (List.replicate 9 0x80 ++ [0x02]) 0 := by
  have hread : readVarintAt (List.replicate 9 0x80 ++ [0x02]) 0 = .ok (2 ^ 64, 10) := by
    rw [readVarintAt, readVarintLoop_eq]
    decide +kernel
  refine ⟨hread, fun h => ?_⟩
  rw [Reads64, hread] at h
  exact absurd h.2.2.1 (lt_irrefl _)

end Aitsm.Ingest
