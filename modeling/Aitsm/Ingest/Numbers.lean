import Aitsm.Firmware.Sparkplug
import Aitsm.Ingest.Message

/-!
# Numbers on the way

The arithmetic between a measurement and its line. A timestamp in whole
milliseconds is divided, converted and multiplied without an error
(`timestampNs_ms`), and a value of the firmware stays finite when it is widened
and rounded (`centi_isFinite`).
-/

namespace Aitsm.Ingest

open Library

namespace PyFloat

theorem fraction?_of_finite? {x : PyFloat} {m : ℕ} {e : ℤ}
    (h : binary64.finite? x.magnitude = some (m, e)) :
    x.fraction? = some (Format.fraction m e) := by
  rw [fraction?, h, Option.map_some]

/-- `c · 2 ^ j` is a `float`, and stays what it is. -/
theorem ofFraction_exact {n d c j : ℕ} (negative : Bool) (hd : 0 < d) (hnd : n = c * 2 ^ j * d)
    (hc : c < 2 ^ 53) (hj : j ≤ 900) :
    (ofFraction negative n d).isFinite ∧ ∃ a b, (ofFraction negative n d).fraction? = some (a, b) ∧
      0 < b ∧ a = c * 2 ^ j * b := by
  obtain ⟨hfin, m, e, hme, hval⟩ := Format.round_exact (F := binary64) (by decide) (by decide)
    (by have : binary64.emin = -1074 := by decide
        omega)
    (by have : 2 ^ (binary64.width - 1) = 1024 := by decide
        have : binary64.prec = 53 := rfl
        omega) hd hnd hc
  obtain ⟨hpos, hfrac⟩ := Format.fraction_spec m e
  refine ⟨decide_eq_true hfin, _, _, fraction?_of_finite? hme, hpos, ?_⟩
  rw [hval] at hfrac
  exact_mod_cast hfrac

/-- A fraction that is not too large is finite, and hardly grows. -/
theorem ofFraction_le {n d k : ℕ} (negative : Bool) (hd : 0 < d) (h : n < 2 ^ k * d)
    (hk : k ≤ 900) :
    (ofFraction negative n d).isFinite ∧ ∃ a b, (ofFraction negative n d).fraction? = some (a, b) ∧
      0 < b ∧ a ≤ 2 ^ k * b := by
  obtain ⟨hfin, m, e, hme, hval⟩ := Format.finite?_round_le (F := binary64) (by decide) (by decide)
    (by have : binary64.emin = -1074 := by decide
        omega) hd h
    (by have : 2 ^ (binary64.width - 1) = 1024 := by decide
        omega)
  exact ⟨decide_eq_true hfin, _, _, fraction?_of_finite? hme, (Format.fraction_spec m e).1,
    Format.fraction_le hval⟩

/-- A finite number stays finite when it is rounded to two decimals. -/
theorem round2_isFinite {x : PyFloat} (hx : x.isFinite) : x.round2.isFinite := by
  have hwide : binary64.prec ≤ 2 ^ (binary64.width - 1) := by decide
  obtain ⟨m, e, hme⟩ : ∃ m e, binary64.finite? x.magnitude = some (m, e) := by
    have hlt : ¬binary64.infinity ≤ x.magnitude := not_le.mpr (of_decide_eq_true hx)
    unfold Format.finite?
    dsimp only
    rw [if_neg hlt]
    split
    · exact ⟨_, _, rfl⟩
    · exact ⟨_, _, rfl⟩
  obtain ⟨hpos, hfrac⟩ := Format.fraction_spec m e
  have hle : (Format.fraction m e).1 ≤ binary64.largest * (Format.fraction m e).2 := by
    have hlargest := Format.finite?_le_largest (by decide) (by decide) hwide hme
    have : ((Format.fraction m e).1 : ℚ) ≤ binary64.largest * (Format.fraction m e).2 := by
      rw [hfrac]
      gcongr
    exact_mod_cast this
  have hround : roundHalfEven ((Format.fraction m e).1 * 100) (Format.fraction m e).2 ≤
      binary64.largest * 100 := by
    refine roundHalfEven_le hpos ?_
    calc (Format.fraction m e).1 * 100 ≤ binary64.largest * (Format.fraction m e).2 * 100 :=
          Nat.mul_le_mul_right 100 hle
      _ = binary64.largest * 100 * (Format.fraction m e).2 := by ring
  rw [round2, fraction?_of_finite? hme]
  exact decide_eq_true (Format.round_lt_infinity (by decide) (by decide) hwide (by omega) hround)

end PyFloat

/-! ## Times -/

/-- Whole seconds in milliseconds are divided without an error. -/
theorem parseSeconds_ms {t : ℕ} (hlo : 10000000 < t) (hhi : t < 2 ^ 32) :
    ∃ x a b, parseSeconds (.int (t * 1000 : ℕ)) = .ok x ∧ x.negative = false ∧
      x.fraction? = some (a, b) ∧ 0 < b ∧ a = t * b := by
  obtain ⟨hfin, a, b, hfrac, hb, ha⟩ := PyFloat.ofFraction_exact (n := t * 1000) (c := t * 1000)
    (j := 0) (d := 1) false Nat.one_pos (by omega) (by omega) (by omega)
  have hint : PyFloat.ofInt (t * 1000 : ℕ) = .ok (PyFloat.ofFraction false (t * 1000) 1) := by
    have hneg : ¬((t * 1000 : ℕ) : ℤ) < 0 := by omega
    simp only [PyFloat.ofInt, hneg, decide_false, Int.natAbs_natCast, hfin, if_true]
  obtain ⟨-, a', b', hfrac', hb', ha'⟩ := PyFloat.ofFraction_exact (n := a * 1) (c := t) (j := 0)
    (d := b * 1000) false (by omega) (by rw [ha]; ring) (by omega) (by omega)
  refine ⟨PyFloat.ofFraction false (a * 1) (b * 1000), a', b', ?_, rfl, hfrac', hb', by
    rw [ha']; ring⟩
  have hms : 10000000000 < ((t * 1000 : ℕ) : ℤ) := by omega
  simp only [parseSeconds, hint, bind, Except.bind, hms, if_true, pure, Except.pure]
  simp only [PyFloat.scale, hfrac]
  rfl

/-- Whole seconds are a point in time. -/
theorem fromtimestamp_seconds {x : PyFloat} {t a b : ℕ} (ht : t < 2 ^ 32)
    (hneg : x.negative = false) (hfrac : x.fraction? = some (a, b)) (hb : 0 < b) (ha : a = t * b) :
    fromtimestamp x = .ok (t * 1000000 : ℕ) := by
  subst ha
  have hdiv : t * b / b = t := Nat.mul_div_cancel t hb
  have hmod : t * b % b = 0 := Nat.mul_mod_left t b
  have hus : microseconds x (t * b) b = (t * 1000000 : ℕ) := by
    obtain ⟨-, n, d, hpart, hd, hn⟩ := PyFloat.ofFraction_exact (n := 0 * 1000000) (c := 0) (j := 0)
      (d := b) false hb (by simp) (by omega) (by omega)
    have hround : roundHalfEven n d = 0 := by
      rw [Nat.zero_mul, Nat.zero_mul] at hn
      simp [roundHalfEven, hn, hd]
    unfold microseconds
    rw [hdiv, hmod]
    simp only [hpart, hround, hneg, Nat.add_zero]
    rfl
  have hwhole : ((t * 1000000 : ℕ) : ℤ) / 1000000 = t := by omega
  simp only [fromtimestamp, hfrac, hus, hwhole]
  rw [if_neg (by omega), if_neg (by omega), if_neg (by omega)]

/-- Whole seconds are a whole number of nanoseconds. -/
theorem nanoseconds_seconds {t : ℕ} (ht : t < 2 ^ 32) :
    nanoseconds (t * 1000000 : ℕ) = (t * 1000000000 : ℕ) := by
  obtain ⟨-, a, b, hfrac, hb, ha⟩ := PyFloat.ofFraction_exact (n := t * 1000000) (c := t) (j := 0)
    (d := 1000000) false (by omega) (by omega) (by omega) (by omega)
  obtain ⟨-, a', b', hfrac', hb', ha'⟩ := PyFloat.ofFraction_exact (n := a * 1000000000)
    (c := t * 1953125) (j := 9) (d := b * 1) false (by omega) (by rw [ha]; ring) (by omega)
    (by omega)
  have htime : timestamp (t * 1000000 : ℕ) = PyFloat.ofFraction false (t * 1000000) 1000000 := by
    have hneg : ¬((t * 1000000 : ℕ) : ℤ) < 0 := by omega
    simp only [timestamp, hneg, decide_false, Int.natAbs_natCast]
  have hscale : (timestamp (t * 1000000 : ℕ)).scale 1000000000 1 =
      PyFloat.ofFraction false (a * 1000000000) (b * 1) := by
    rw [htime, PyFloat.scale, hfrac]
    rfl
  have hquot : a' / b' = t * 1000000000 := by
    rw [ha', Nat.mul_div_cancel _ hb']
    ring
  rw [nanoseconds, hscale, PyFloat.toInt, hfrac']
  simp [PyFloat.ofFraction, hquot]

/-- **A timestamp of the firmware becomes exactly its nanoseconds.** -/
theorem timestampNs_ms (rt : Runtime) (now : ℤ) {t : ℕ} (hlo : 10000000 < t) (hhi : t < 2 ^ 32) :
    timestampNs rt now (.int (t * 1000 : ℕ)) = .ok (t * 1000000000 : ℕ) := by
  obtain ⟨x, a, b, hseconds, hneg, hfrac, hb, ha⟩ := parseSeconds_ms hlo hhi
  have htime := fromtimestamp_seconds hhi hneg hfrac hb ha
  have hparse : parseTimestamp rt now (.int (t * 1000 : ℕ)) = .ok (t * 1000000 : ℕ) := by
    simp only [parseTimestamp, hseconds, bind, Except.bind, htime]
  simp only [timestampNs, hparse, bind, Except.bind, nanoseconds_seconds hhi, pure, Except.pure]

/-! ## Values -/

/-- `float` of the firmware: hundredths of an `int32_t` are a finite number. -/
theorem centiFloat_spec {x : ℤ} (hx : x.natAbs < 2 ^ 32) :
    ∃ m e, binary32.finite? ((centiFloat x).toNat % 2 ^ 31) = some (m, e) ∧
      (m : ℚ) * 2 ^ e ≤ 2 ^ 32 := by
  have hemin : binary32.emin = -149 := by decide
  have hwidth : 2 ^ (binary32.width - 1) = 128 := by decide
  obtain ⟨-, m, e, hme, hval⟩ := Format.finite?_round_le (F := binary32) (n := x.natAbs) (d := 1)
    (k := 32) (by decide) (by decide) (by omega) Nat.one_pos (by omega) (by omega)
  have hpos := (Format.fraction_spec m e).1
  have hsmall : (Format.fraction m e).1 < 2 ^ 32 * ((Format.fraction m e).2 * 100) := by
    have := Format.fraction_le hval
    omega
  obtain ⟨hfin, m', e', hme', hval'⟩ := Format.finite?_round_le (F := binary32) (by decide)
    (by decide) (by omega) (by omega) hsmall (by omega)
  refine ⟨m', e', ?_, hval'⟩
  have hinf : binary32.infinity = 2139095040 := by decide
  have hmod : (centiFloat x).toNat % 2 ^ 31 =
      binary32.round (Format.fraction m e).1 ((Format.fraction m e).2 * 100) := by
    simp only [centiFloat, hme, UInt32.toNat_ofNat']
    split <;> omega
  rw [hmod, hme']

/-- **A value of the firmware is finite**, also after the rounding to two
decimals. -/
theorem centi_isFinite {x : ℤ} (hx : x.natAbs < 2 ^ 32) :
    (PyFloat.ofBinary32 (centiFloat x)).round2.isFinite := by
  obtain ⟨m, e, hme, hval⟩ := centiFloat_spec hx
  have hpos := (Format.fraction_spec m e).1
  have hsmall : (Format.fraction m e).1 < 2 ^ 33 * (Format.fraction m e).2 := by
    have := Format.fraction_le hval
    omega
  obtain ⟨-, a, b, hab, hb, ha⟩ := PyFloat.ofFraction_le
    (decide (2 ^ 31 ≤ (centiFloat x).toNat)) hpos hsmall (by omega)
  have hwide : (PyFloat.ofBinary32 (centiFloat x)).fraction? = some (a, b) := by
    simp only [PyFloat.ofBinary32, hme, hab]
  have hround : roundHalfEven (a * 100) b ≤ 2 ^ 33 * 100 := by
    refine roundHalfEven_le hb ?_
    calc a * 100 ≤ 2 ^ 33 * b * 100 := Nat.mul_le_mul_right 100 ha
      _ = 2 ^ 33 * 100 * b := by ring
  rw [PyFloat.round2, hwide]
  exact (PyFloat.ofFraction_le (k := 34) _ (by omega) (by omega) (by omega)).1

end Aitsm.Ingest
