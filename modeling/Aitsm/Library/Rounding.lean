import Mathlib.Data.Nat.Log
import Mathlib.Data.Rat.Cast.Order
import Mathlib.Algebra.Order.Field.Power
import Mathlib.Tactic.Positivity
import Mathlib.Tactic.FieldSimp
import Mathlib.Tactic.Linarith
import Mathlib.Tactic.Ring

/-!
# Binary floating-point formats

An interchange format is given by its precision (significand bits, the hidden
one included) and the width of its exponent field. A finite non-negative number
of the format is `m · 2 ^ e` with `m < 2 ^ prec` and `e` at least the exponent
`emin` of the subnormal numbers, and its bit pattern is
`(e - emin) · 2 ^ (prec - 1) + m`: the hidden bit of `m` carries into the
exponent field, so one formula serves normal numbers, subnormal numbers and a
significand that was rounded up to `2 ^ prec`.

`round n d` is the pattern of the fraction `n / d`, rounded to the nearest
number of the format and to the even one in a tie; fractions too large give the
pattern of infinity. Signs are the user's business.
-/

namespace Aitsm.Library

/-- A binary interchange format. -/
structure Format where
  /-- significand bits, the hidden one included -/
  prec : ℕ
  /-- width of the exponent field -/
  width : ℕ
  deriving DecidableEq

/-- Four-byte numbers. -/
def binary32 : Format := ⟨24, 8⟩

/-- Eight-byte numbers. -/
def binary64 : Format := ⟨53, 11⟩

/-- `n / d`, rounded to the nearest natural number and to the even one in a
tie. -/
def roundHalfEven (n d : ℕ) : ℕ :=
  let q := n / d
  let r := n % d
  if 2 * r < d then q else if d < 2 * r then q + 1 else q + q % 2

theorem roundHalfEven_le {n d k : ℕ} (hd : 0 < d) (h : n ≤ k * d) : roundHalfEven n d ≤ k := by
  have hdm : d * (n / d) + n % d = n := Nat.div_add_mod n d
  have hr : n % d < d := Nat.mod_lt n hd
  have hq : n / d ≤ k := Nat.div_le_of_le_mul (by rwa [Nat.mul_comm] at h)
  rcases Nat.eq_or_lt_of_le hq with hq | hq
  · -- the quotient is `k` already: nothing is left to round
    have hr0 : n % d = 0 := by
      rw [hq, Nat.mul_comm] at hdm
      omega
    simp only [roundHalfEven, hr0]
    rw [if_pos (by omega)]
    omega
  · simp only [roundHalfEven]
    split
    · omega
    · split
      · omega
      · have := Nat.mod_lt (n / d) (by omega : 0 < 2)
        omega

theorem le_roundHalfEven {n d k : ℕ} (hd : 0 < d) (h : k * d ≤ n) : k ≤ roundHalfEven n d := by
  have hq : k ≤ n / d := (Nat.le_div_iff_mul_le hd).mpr h
  simp only [roundHalfEven]
  split
  · exact hq
  · split <;> omega

namespace Format

variable (F : Format)

/-- The exponent of the unit of the subnormal numbers. -/
def emin : ℤ := 3 - 2 ^ (F.width - 1) - F.prec

/-- The pattern of infinity: an exponent field of ones. -/
def infinity : ℕ := (2 ^ F.width - 1) * 2 ^ (F.prec - 1)

/-- `2 ^ k ≤ n / d`. -/
def reaches (k : ℤ) (n d : ℕ) : Bool :=
  if 0 ≤ k then d * 2 ^ k.toNat ≤ n else d ≤ n * 2 ^ (-k).toNat

/-- The exponent of the largest power of two that is not above `n / d`. -/
def binaryExponent (n d : ℕ) : ℤ :=
  let k : ℤ := Nat.log2 n - Nat.log2 d
  -- `n / d` lies between `2 ^ (k - 1)` and `2 ^ (k + 1)`; find out on which side of `2 ^ k`
  if reaches k n d then k else k - 1

/-- The exponent of the unit in which `n / d` is rounded: the one that leaves
`prec` bits, but never below that of the subnormal numbers. -/
def unitExponent (n d : ℕ) : ℤ := max F.emin (binaryExponent n d - F.prec + 1)

/-- `n / d`, rounded to a whole number of units `2 ^ e`. -/
def significand (n d : ℕ) (e : ℤ) : ℕ :=
  if 0 ≤ e then roundHalfEven n (d * 2 ^ e.toNat) else roundHalfEven (n * 2 ^ (-e).toNat) d

/-- The pattern of `n / d`. -/
def round (n d : ℕ) : ℕ :=
  let e := F.unitExponent n d
  if n = 0 then 0
  else min F.infinity ((e - F.emin).toNat * 2 ^ (F.prec - 1) + significand n d e)

/-- What a pattern without its sign bit stands for: the significand and the
exponent of a finite number. -/
def finite? (b : ℕ) : Option (ℕ × ℤ) :=
  let field := b / 2 ^ (F.prec - 1)
  let fraction := b % 2 ^ (F.prec - 1)
  if F.infinity ≤ b then none
  else if field = 0 then some (fraction, F.emin)
  else some (2 ^ (F.prec - 1) + fraction, F.emin + (field - 1))

/-- The fraction `m · 2 ^ e`, as numerator and denominator. -/
def fraction (m : ℕ) (e : ℤ) : ℕ × ℕ :=
  if 0 ≤ e then (m * 2 ^ e.toNat, 1) else (m, 2 ^ (-e).toNat)

/-! ## What the rounded number stands for -/

section

variable {F}

theorem two_zpow_toNat {k : ℤ} (hk : 0 ≤ k) : ((2 ^ k.toNat : ℕ) : ℚ) = 2 ^ k := by
  rw [Nat.cast_pow, Nat.cast_ofNat, ← zpow_natCast, Int.toNat_of_nonneg hk]

theorem two_zpow_neg_toNat {k : ℤ} (hk : k ≤ 0) : ((2 ^ (-k).toNat : ℕ) : ℚ) = (2 ^ k)⁻¹ := by
  rw [two_zpow_toNat (by omega), zpow_neg]

theorem reaches_iff {k : ℤ} {n d : ℕ} (hd : 0 < d) :
    reaches k n d ↔ (2 : ℚ) ^ k ≤ n / d := by
  have hdq : (0 : ℚ) < d := by exact_mod_cast hd
  rw [le_div_iff₀ hdq]
  unfold reaches
  split
  · rw [decide_eq_true_iff, ← two_zpow_toNat ‹_›, mul_comm]
    exact_mod_cast Iff.rfl
  · have hneg : k ≤ 0 := by omega
    have hpos : (0 : ℚ) < 2 ^ k := by positivity
    rw [decide_eq_true_iff, ← Nat.cast_le (α := ℚ), Nat.cast_mul, two_zpow_neg_toNat hneg,
      ← div_eq_mul_inv, le_div_iff₀ hpos, mul_comm]

theorem binaryExponent_spec {n d : ℕ} (hn : 0 < n) (hd : 0 < d) :
    (2 : ℚ) ^ binaryExponent n d ≤ n / d ∧ (n / d : ℚ) < 2 ^ (binaryExponent n d + 1) := by
  have hdq : (0 : ℚ) < d := by exact_mod_cast hd
  have hnlo : (2 : ℚ) ^ (Nat.log2 n : ℤ) ≤ n := by
    rw [zpow_natCast]
    exact_mod_cast Nat.log2_self_le hn.ne'
  have hnhi : (n : ℚ) < 2 ^ ((Nat.log2 n : ℤ) + 1) := by
    rw [← Nat.cast_succ, zpow_natCast]
    exact_mod_cast Nat.lt_log2_self
  have hdlo : (2 : ℚ) ^ (Nat.log2 d : ℤ) ≤ d := by
    rw [zpow_natCast]
    exact_mod_cast Nat.log2_self_le hd.ne'
  have hdhi : (d : ℚ) < 2 ^ ((Nat.log2 d : ℤ) + 1) := by
    rw [← Nat.cast_succ, zpow_natCast]
    exact_mod_cast Nat.lt_log2_self
  have hpow : ∀ a b : ℤ, (2 : ℚ) ^ (a + b) = 2 ^ a * 2 ^ b := zpow_add₀ two_ne_zero
  set k : ℤ := Nat.log2 n - Nat.log2 d with hk
  have hupper : (n / d : ℚ) < 2 ^ (k + 1) := by
    rw [div_lt_iff₀ hdq]
    calc (n : ℚ) < 2 ^ ((Nat.log2 n : ℤ) + 1) := hnhi
      _ = 2 ^ (k + 1) * 2 ^ (Nat.log2 d : ℤ) := by rw [← hpow]; congr 1; omega
      _ ≤ 2 ^ (k + 1) * d := by gcongr
  have hlower : (2 : ℚ) ^ (k - 1) ≤ n / d := by
    rw [le_div_iff₀ hdq]
    calc (2 : ℚ) ^ (k - 1) * d ≤ 2 ^ (k - 1) * 2 ^ ((Nat.log2 d : ℤ) + 1) := by gcongr
      _ = 2 ^ (Nat.log2 n : ℤ) := by rw [← hpow]; congr 1; omega
      _ ≤ n := hnlo
  unfold binaryExponent
  rw [← hk]
  by_cases h : reaches k n d
  · rw [if_pos h]
    exact ⟨(reaches_iff hd).mp h, hupper⟩
  · rw [if_neg h, sub_add_cancel]
    exact ⟨hlower, not_le.mp fun hle => h ((reaches_iff hd).mpr hle)⟩

/-- The quotient that is rounded, in units of `2 ^ e`. -/
theorem significand_eq_roundHalfEven {n d : ℕ} (hd : 0 < d) (e : ℤ) :
    ∃ a b : ℕ, 0 < b ∧ significand n d e = roundHalfEven a b ∧
      (a : ℚ) * 2 ^ e * d = n * b := by
  have hdq : (d : ℚ) ≠ 0 := by exact_mod_cast hd.ne'
  have hpow : (2 : ℚ) ^ e ≠ 0 := by positivity
  unfold significand
  split
  · refine ⟨n, d * 2 ^ e.toNat, by positivity, rfl, ?_⟩
    rw [Nat.cast_mul, two_zpow_toNat ‹_›]
    ring
  · refine ⟨n * 2 ^ (-e).toNat, d, hd, rfl, ?_⟩
    rw [Nat.cast_mul, two_zpow_neg_toNat (by omega)]
    field_simp

theorem significand_le {n d c : ℕ} {e : ℤ} (hd : 0 < d) (h : (n / d : ℚ) ≤ c * 2 ^ e) :
    significand n d e ≤ c := by
  obtain ⟨a, b, hb, heq, hab⟩ := significand_eq_roundHalfEven (n := n) hd e
  have hdq : (0 : ℚ) < d := by exact_mod_cast hd
  have hpow : (0 : ℚ) < 2 ^ e * d := by positivity
  rw [heq]
  refine roundHalfEven_le hb ?_
  rw [div_le_iff₀ hdq] at h
  have : (a : ℚ) * (2 ^ e * d) ≤ ((c * b : ℕ) : ℚ) * (2 ^ e * d) := by
    calc (a : ℚ) * (2 ^ e * d) = n * b := by rw [← hab]; ring
      _ ≤ c * 2 ^ e * d * b := by gcongr
      _ = ((c * b : ℕ) : ℚ) * (2 ^ e * d) := by push_cast; ring
  exact_mod_cast le_of_mul_le_mul_right this hpow

theorem le_significand {n d c : ℕ} {e : ℤ} (hd : 0 < d) (h : (c * 2 ^ e : ℚ) ≤ n / d) :
    c ≤ significand n d e := by
  obtain ⟨a, b, hb, heq, hab⟩ := significand_eq_roundHalfEven (n := n) hd e
  have hdq : (0 : ℚ) < d := by exact_mod_cast hd
  have hpow : (0 : ℚ) < 2 ^ e * d := by positivity
  rw [heq]
  refine le_roundHalfEven hb ?_
  rw [le_div_iff₀ hdq] at h
  have : ((c * b : ℕ) : ℚ) * (2 ^ e * d) ≤ (a : ℚ) * (2 ^ e * d) := by
    calc ((c * b : ℕ) : ℚ) * (2 ^ e * d) = c * 2 ^ e * d * b := by push_cast; ring
      _ ≤ n * b := by gcongr
      _ = (a : ℚ) * (2 ^ e * d) := by rw [← hab]; ring
  exact_mod_cast le_of_mul_le_mul_right this hpow

/-- What a pattern `E · 2 ^ (prec - 1) + s` stands for. -/
theorem finite?_pattern {E s : ℕ} (hprec : 1 ≤ F.prec) (hs : s ≤ 2 ^ F.prec)
    (hE : 0 < E → 2 ^ (F.prec - 1) ≤ s)
    (hfin : E * 2 ^ (F.prec - 1) + s < F.infinity) :
    ∃ m e, F.finite? (E * 2 ^ (F.prec - 1) + s) = some (m, e) ∧
      (m : ℚ) * 2 ^ e = s * 2 ^ (F.emin + E) := by
  have hs2 : s ≤ 2 * 2 ^ (F.prec - 1) := by
    rwa [← pow_succ', Nat.sub_add_cancel hprec]
  have hQ : 0 < 2 ^ (F.prec - 1) := by positivity
  unfold finite?
  dsimp only
  rw [if_neg (not_le.mpr hfin)]
  generalize 2 ^ (F.prec - 1) = Q at *
  rcases Nat.lt_or_ge s Q with hlt | hge
  · -- a subnormal number
    obtain rfl : E = 0 := by
      by_contra hne
      exact absurd (hE (by omega)) (by omega)
    rw [Nat.zero_mul, Nat.zero_add, Nat.div_eq_of_lt hlt, Nat.mod_eq_of_lt hlt, if_pos rfl]
    exact ⟨s, F.emin, rfl, by simp⟩
  rcases Nat.lt_or_ge s (2 * Q) with hlt | htop
  · have hdiv : (E * Q + s) / Q = E + 1 := by
      rw [Nat.mul_comm, Nat.mul_add_div hQ, Nat.div_eq_of_lt_le (k := 1) (by omega) (by omega)]
    have hmod : (E * Q + s) % Q = s - Q := by
      rw [Nat.mul_comm, Nat.mul_add_mod, Nat.mod_eq_sub_mod hge, Nat.mod_eq_of_lt (by omega)]
    rw [hdiv, hmod, if_neg (by omega)]
    refine ⟨_, _, rfl, ?_⟩
    rw [Nat.add_sub_cancel' hge]
    push_cast
    rw [add_sub_cancel_right]
  · -- rounded up to the next power of two
    obtain rfl : s = 2 * Q := le_antisymm hs2 htop
    have hdiv : (E * Q + 2 * Q) / Q = E + 2 := by
      rw [← Nat.add_mul, Nat.mul_div_cancel _ hQ]
    have hmod : (E * Q + 2 * Q) % Q = 0 := by
      rw [← Nat.add_mul, Nat.mul_mod_left]
    rw [hdiv, hmod, if_neg (by omega)]
    refine ⟨_, _, rfl, ?_⟩
    have hexp : F.emin + ((E + 2 : ℕ) - 1 : ℤ) = F.emin + E + 1 := by push_cast; ring
    rw [hexp, zpow_add_one₀ two_ne_zero]
    push_cast
    ring

theorem emin_le_unitExponent (n d : ℕ) : F.emin ≤ F.unitExponent n d := le_max_left _ _

/-- The significand has `prec` bits, or is the power of two after them. -/
theorem significand_unitExponent_le {n d : ℕ} (hn : 0 < n) (hd : 0 < d) :
    significand n d (F.unitExponent n d) ≤ 2 ^ F.prec := by
  refine significand_le hd (le_of_lt (lt_of_lt_of_le (binaryExponent_spec hn hd).2 ?_))
  rw [Nat.cast_pow, Nat.cast_ofNat, ← zpow_natCast, ← zpow_add₀ two_ne_zero]
  refine zpow_le_zpow_right₀ one_le_two ?_
  have : binaryExponent n d - F.prec + 1 ≤ F.unitExponent n d := le_max_right _ _
  omega

/-- And all of them, unless the number is subnormal. -/
theorem le_significand_unitExponent {n d : ℕ} (hprec : 1 ≤ F.prec) (hn : 0 < n) (hd : 0 < d)
    (h : F.emin < F.unitExponent n d) :
    2 ^ (F.prec - 1) ≤ significand n d (F.unitExponent n d) := by
  refine le_significand hd (le_trans ?_ (binaryExponent_spec hn hd).1)
  rw [Nat.cast_pow, Nat.cast_ofNat, ← zpow_natCast, ← zpow_add₀ two_ne_zero]
  refine zpow_le_zpow_right₀ one_le_two ?_
  unfold unitExponent at h ⊢
  omega

/-- A fraction below `2 ^ k` has a unit of at most `2 ^ (k - prec)`. -/
theorem unitExponent_le {n d k : ℕ} (hn : 0 < n) (hd : 0 < d) (h : n < 2 ^ k * d) :
    F.unitExponent n d ≤ max F.emin (k - F.prec) := by
  have hdq : (0 : ℚ) < d := by exact_mod_cast hd
  have hlt : (2 : ℚ) ^ binaryExponent n d < 2 ^ (k : ℤ) := by
    refine lt_of_le_of_lt (binaryExponent_spec hn hd).1 ?_
    rw [div_lt_iff₀ hdq, zpow_natCast]
    exact_mod_cast h
  have := (zpow_lt_zpow_iff_right₀ (one_lt_two (α := ℚ))).mp hlt
  unfold unitExponent
  omega

/-- **The rounded number** is a whole number of units, and finite when the
fraction is not too large. -/
theorem finite?_round {n d k : ℕ} (hprec : 1 ≤ F.prec) (hwidth : 2 ≤ F.width) (hn : 0 < n)
    (hd : 0 < d) (h : n < 2 ^ k * d) (hk : k < 2 ^ (F.width - 1)) :
    F.round n d < F.infinity ∧ ∃ m e, F.finite? (F.round n d) = some (m, e) ∧
      (m : ℚ) * 2 ^ e = significand n d (F.unitExponent n d) * 2 ^ F.unitExponent n d := by
  obtain ⟨E, hE⟩ := Int.eq_ofNat_of_zero_le
    (sub_nonneg.mpr (F.emin_le_unitExponent n d))
  have hunit : F.unitExponent n d = F.emin + E := by omega
  have hs := significand_unitExponent_le (F := F) hn hd
  have hfull : 0 < E → 2 ^ (F.prec - 1) ≤ significand n d (F.unitExponent n d) :=
    fun hpos => le_significand_unitExponent hprec hn hd (by omega)
  -- the pattern stays below infinity
  have hfin : E * 2 ^ (F.prec - 1) + significand n d (F.unitExponent n d) < F.infinity := by
    have htwo : 2 ^ F.width = 2 * 2 ^ (F.width - 1) := by
      rw [← pow_succ', Nat.sub_add_cancel (by omega)]
    have hEle : E + 2 < 2 ^ F.width - 1 := by
      have hle := unitExponent_le (F := F) hn hd h
      have hemin : F.emin = 3 - ((2 ^ (F.width - 1) : ℕ) : ℤ) - F.prec := by
        simp [emin]
      have hw : 2 ≤ 2 ^ (F.width - 1) := by
        calc 2 = 2 ^ 1 := rfl
          _ ≤ 2 ^ (F.width - 1) := Nat.pow_le_pow_right (by omega) (by omega)
      omega
    calc E * 2 ^ (F.prec - 1) + significand n d (F.unitExponent n d)
        ≤ E * 2 ^ (F.prec - 1) + 2 * 2 ^ (F.prec - 1) := by
          rw [← pow_succ', Nat.sub_add_cancel hprec]
          omega
      _ = (E + 2) * 2 ^ (F.prec - 1) := by ring
      _ < (2 ^ F.width - 1) * 2 ^ (F.prec - 1) :=
          Nat.mul_lt_mul_of_pos_right hEle (by positivity)
  have hround : F.round n d = E * 2 ^ (F.prec - 1) + significand n d (F.unitExponent n d) := by
    have hEnat : (F.unitExponent n d - F.emin).toNat = E := by omega
    unfold round
    dsimp only
    rw [if_neg hn.ne', hEnat]
    exact min_eq_right hfin.le
  rw [hround]
  obtain ⟨m, e, hme, hval⟩ := finite?_pattern hprec hs hfull hfin
  exact ⟨hfin, m, e, hme, by rw [hval, hunit]⟩

theorem infinity_pos (hwidth : 2 ≤ F.width) : 0 < F.infinity := by
  have : 2 ≤ 2 ^ F.width := by
    calc 2 = 2 ^ 1 := rfl
      _ ≤ 2 ^ F.width := Nat.pow_le_pow_right (by omega) (by omega)
  exact Nat.mul_pos (by omega) (by positivity)

theorem round_zero (d : ℕ) : F.round 0 d = 0 := rfl

/-- **Numbers of the format are not rounded.** -/
theorem round_exact {n d c j : ℕ} (hprec : 1 ≤ F.prec) (hwidth : 2 ≤ F.width)
    (hemin : F.emin ≤ j) (hp : F.prec + j < 2 ^ (F.width - 1)) (hd : 0 < d)
    (hnd : n = c * 2 ^ j * d) (hc : c < 2 ^ F.prec) :
    F.round n d < F.infinity ∧
      ∃ m e, F.finite? (F.round n d) = some (m, e) ∧ (m : ℚ) * 2 ^ e = c * 2 ^ j := by
  subst hnd
  rcases Nat.eq_zero_or_pos c with rfl | hcpos
  · rw [Nat.zero_mul, Nat.zero_mul, round_zero]
    have hinf := infinity_pos (F := F) hwidth
    exact ⟨hinf, 0, F.emin, by simp [finite?, not_le.mpr hinf], by simp⟩
  have hn : 0 < c * 2 ^ j * d := by positivity
  have hlt : c * 2 ^ j * d < 2 ^ (F.prec + j) * d := by
    rw [pow_add]
    gcongr
  obtain ⟨hfin, m, e, hme, hval⟩ := finite?_round hprec hwidth hn hd hlt hp
  refine ⟨hfin, m, e, hme, ?_⟩
  have hdq : (d : ℚ) ≠ 0 := by exact_mod_cast hd.ne'
  have hunit : F.unitExponent (c * 2 ^ j * d) d ≤ j := by
    have := unitExponent_le (F := F) hn hd hlt
    push_cast at this
    omega
  set u := F.unitExponent (c * 2 ^ j * d) d with hu
  -- the number is a whole number of units
  have hpow : (2 : ℚ) ^ (j : ℤ) = ((2 ^ (j - u).toNat : ℕ) : ℚ) * 2 ^ u := by
    rw [two_zpow_toNat (by omega), ← zpow_add₀ two_ne_zero, sub_add_cancel]
  have hunits : ((c * 2 ^ j * d : ℕ) / d : ℚ) = (c * 2 ^ (j - u).toNat : ℕ) * 2 ^ u := by
    rw [Nat.cast_mul, Nat.cast_mul c, Nat.cast_mul c, mul_assoc (c : ℚ) _ (2 ^ u), ← hpow,
      zpow_natCast]
    push_cast
    field_simp
  have hsig : significand (c * 2 ^ j * d) d u = c * 2 ^ (j - u).toNat :=
    le_antisymm (significand_le hd hunits.le) (le_significand hd hunits.ge)
  rw [hval, hsig, ← hunits]
  push_cast
  field_simp

/-- A number that is not too large is finite, and stays below a power of two that
the fraction does not reach. -/
theorem finite?_round_le {n d k : ℕ} (hprec : 1 ≤ F.prec) (hwidth : 2 ≤ F.width)
    (hemin : F.emin ≤ k) (hd : 0 < d) (h : n < 2 ^ k * d) (hk : k < 2 ^ (F.width - 1)) :
    F.round n d < F.infinity ∧
      ∃ m e, F.finite? (F.round n d) = some (m, e) ∧ (m : ℚ) * 2 ^ e ≤ 2 ^ k := by
  rcases Nat.eq_zero_or_pos n with rfl | hn
  · rw [round_zero]
    have hinf := infinity_pos (F := F) hwidth
    exact ⟨hinf, 0, F.emin, by simp [finite?, not_le.mpr hinf], by simp⟩
  obtain ⟨hfin, m, e, hme, hval⟩ := finite?_round hprec hwidth hn hd h hk
  have hunit : F.unitExponent n d ≤ k := by
    have := unitExponent_le (F := F) hn hd h
    omega
  set u := F.unitExponent n d with hu
  have hpow : (2 : ℚ) ^ k = ((2 ^ (k - u).toNat : ℕ) : ℚ) * 2 ^ u := by
    rw [two_zpow_toNat (by omega), ← zpow_add₀ two_ne_zero, sub_add_cancel, zpow_natCast]
  have hdq : (0 : ℚ) < d := by exact_mod_cast hd
  have hle : (n / d : ℚ) ≤ ((2 ^ (k - u).toNat : ℕ) : ℚ) * 2 ^ u := by
    rw [← hpow, div_le_iff₀ hdq]
    exact_mod_cast h.le
  refine ⟨hfin, m, e, hme, ?_⟩
  have hsig : ((significand n d u : ℕ) : ℚ) ≤ ((2 ^ (k - u).toNat : ℕ) : ℚ) := by
    exact_mod_cast significand_le hd hle
  rw [hval, hpow]
  gcongr

theorem fraction_spec (m : ℕ) (e : ℤ) :
    0 < (fraction m e).2 ∧ ((fraction m e).1 : ℚ) = m * 2 ^ e * (fraction m e).2 := by
  unfold fraction
  split
  · refine ⟨Nat.one_pos, ?_⟩
    rw [Nat.cast_mul, two_zpow_toNat ‹_›, Nat.cast_one, mul_one]
  · refine ⟨by positivity, ?_⟩
    have hpow : (2 : ℚ) ^ e ≠ 0 := by positivity
    rw [two_zpow_neg_toNat (by omega), mul_assoc, mul_inv_cancel₀ hpow, mul_one]

theorem fraction_le {m k : ℕ} {e : ℤ} (h : (m : ℚ) * 2 ^ e ≤ 2 ^ k) :
    (fraction m e).1 ≤ 2 ^ k * (fraction m e).2 := by
  have hle : ((fraction m e).1 : ℚ) ≤ 2 ^ k * (fraction m e).2 := by
    rw [(fraction_spec m e).2]
    gcongr
  exact_mod_cast hle

/-! ## The largest number -/

/-- The largest finite number: all bits of the significand, and the largest exponent. -/
def largest (F : Format) : ℕ := (2 ^ F.prec - 1) * 2 ^ (2 ^ (F.width - 1) - F.prec)

theorem finite?_le_largest {b m : ℕ} {e : ℤ} (hprec : 1 ≤ F.prec) (hwidth : 2 ≤ F.width)
    (hwide : F.prec ≤ 2 ^ (F.width - 1)) (h : F.finite? b = some (m, e)) :
    (m : ℚ) * 2 ^ e ≤ F.largest := by
  have htwo : 2 ^ F.width = 2 * 2 ^ (F.width - 1) := by
    rw [← pow_succ', Nat.sub_add_cancel (by omega)]
  have hdouble : 2 ^ F.prec = 2 * 2 ^ (F.prec - 1) := by
    rw [← pow_succ', Nat.sub_add_cancel hprec]
  have hWtwo : 2 ≤ 2 ^ (F.width - 1) := by
    calc 2 = 2 ^ 1 := rfl
      _ ≤ 2 ^ (F.width - 1) := Nat.pow_le_pow_right (by omega) (by omega)
  have hQ : 0 < 2 ^ (F.prec - 1) := by positivity
  have hfraction := Nat.mod_lt b hQ
  obtain ⟨hm, he⟩ : m ≤ 2 ^ F.prec - 1 ∧ e ≤ ((2 ^ (F.width - 1) - F.prec : ℕ) : ℤ) := by
    have hemin : F.emin = 3 - ((2 ^ (F.width - 1) : ℕ) : ℤ) - F.prec := by simp [emin]
    unfold finite? at h
    dsimp only at h
    split at h
    · cases h
    rename_i hb
    split at h
    · obtain ⟨rfl, rfl⟩ := Prod.mk.inj (Option.some.inj h)
      exact ⟨by omega, by omega⟩
    · obtain ⟨rfl, rfl⟩ := Prod.mk.inj (Option.some.inj h)
      have hfield : b / 2 ^ (F.prec - 1) < 2 ^ F.width - 1 :=
        Nat.div_lt_of_lt_mul (by rw [Nat.mul_comm]; exact not_le.mp hb)
      exact ⟨by omega, by omega⟩
  rw [largest, Nat.cast_mul, Nat.cast_pow 2, Nat.cast_ofNat, ← zpow_natCast]
  refine mul_le_mul (by exact_mod_cast hm) (zpow_le_zpow_right₀ one_le_two he) (by positivity)
    (by positivity)

/-- A fraction that is not above it is finite. -/
theorem round_lt_infinity {n d : ℕ} (hprec : 1 ≤ F.prec) (hwidth : 2 ≤ F.width)
    (hwide : F.prec ≤ 2 ^ (F.width - 1)) (hd : 0 < d) (h : n ≤ F.largest * d) :
    F.round n d < F.infinity := by
  rcases Nat.eq_zero_or_pos n with rfl | hn
  · rw [round_zero]
    exact infinity_pos hwidth
  set W := 2 ^ (F.width - 1) with hW
  have htwo : 2 ^ F.width = 2 * W := by
    rw [hW, ← pow_succ', Nat.sub_add_cancel (by omega)]
  have hWtwo : 2 ≤ W := by
    calc 2 = 2 ^ 1 := rfl
      _ ≤ 2 ^ (F.width - 1) := Nat.pow_le_pow_right (by omega) (by omega)
  have hemin : F.emin = 3 - (W : ℤ) - F.prec := by simp [emin, hW]
  have hall : 2 ^ F.prec - 1 < 2 ^ F.prec := Nat.sub_lt (by positivity) Nat.one_pos
  -- the unit is not above that of the largest number
  have hlt : n < 2 ^ W * d := by
    refine h.trans_lt (Nat.mul_lt_mul_of_pos_right ?_ hd)
    calc F.largest < 2 ^ F.prec * 2 ^ (W - F.prec) :=
          Nat.mul_lt_mul_of_pos_right hall (by positivity)
      _ = 2 ^ W := by rw [← pow_add, Nat.add_sub_cancel' hwide]
  have hunit := unitExponent_le (F := F) hn hd hlt
  obtain ⟨E, hE⟩ := Int.eq_ofNat_of_zero_le (sub_nonneg.mpr (F.emin_le_unitExponent n d))
  have hEle : E ≤ 2 * W - 3 := by omega
  have hs := significand_unitExponent_le (F := F) hn hd
  set s := significand n d (F.unitExponent n d) with hsdef
  have hdouble : 2 ^ F.prec = 2 * 2 ^ (F.prec - 1) := by
    rw [← pow_succ', Nat.sub_add_cancel hprec]
  have hfin : E * 2 ^ (F.prec - 1) + s < F.infinity := by
    rw [infinity, htwo]
    rcases Nat.lt_or_ge E (2 * W - 3) with hless | hmost
    · calc E * 2 ^ (F.prec - 1) + s ≤ E * 2 ^ (F.prec - 1) + 2 * 2 ^ (F.prec - 1) := by omega
        _ = (E + 2) * 2 ^ (F.prec - 1) := by ring
        _ < (2 * W - 1) * 2 ^ (F.prec - 1) :=
          Nat.mul_lt_mul_of_pos_right (by omega) (by positivity)
    · -- with the largest unit the significand does not reach the next power of two
      have htop : F.unitExponent n d = ((W - F.prec : ℕ) : ℤ) := by omega
      have hsle : s ≤ 2 ^ F.prec - 1 := by
        refine significand_le hd ?_
        rw [htop, div_le_iff₀ (by exact_mod_cast hd), zpow_natCast]
        exact_mod_cast h
      have hE' : E + 2 = 2 * W - 1 := by omega
      calc E * 2 ^ (F.prec - 1) + s < E * 2 ^ (F.prec - 1) + 2 * 2 ^ (F.prec - 1) := by omega
        _ = (E + 2) * 2 ^ (F.prec - 1) := by ring
        _ = (2 * W - 1) * 2 ^ (F.prec - 1) := by rw [hE']
  have hEnat : (F.unitExponent n d - F.emin).toNat = E := by omega
  unfold round
  dsimp only
  rw [if_neg hn.ne', hEnat, ← hsdef]
  exact (min_le_right _ _).trans_lt hfin

end

end Format

end Aitsm.Library
