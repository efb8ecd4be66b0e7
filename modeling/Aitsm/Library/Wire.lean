import Mathlib.Tactic.Ring
import Mathlib.Data.Nat.Basic

/-!
# The protocol-buffer wire format, writer side

A message is a sequence of fields. A field starts with a *key*, the varint of
`8 · number + wire type`; what follows depends on the wire type: a varint (0),
eight bytes (1), a varint length and that many bytes (2), or four bytes (5).
A varint is a number in base 128, least significant digit first, with the top
bit set on every byte but the last.

`varint`, `key` and the three field writers below are total functions to byte
lists. Readers belong to the programs that read; what they need from the
writer is `varint_of_lt`, `varint_of_le` (one byte at a time) and
`length_varint_le`.
-/

namespace Aitsm.Library.Wire

/-- A string of bytes. -/
abbrev Bytes : Type := List UInt8

/-- Base-128 digits of `n`, at most `fuel + 1` of them. -/
def varintAux : ℕ → ℕ → Bytes
  | 0, n => [UInt8.ofNat n]
  | fuel + 1, n =>
    if n < 128 then [UInt8.ofNat n]
    else UInt8.ofNat (n % 128 + 128) :: varintAux fuel (n / 128)

/-- The varint of `n`. The number itself bounds its count of digits. -/
def varint (n : ℕ) : Bytes := varintAux n n

theorem varintAux_eq_varint {fuel : ℕ} : ∀ {n : ℕ}, n ≤ fuel → varintAux fuel n = varint n := by
  have key : ∀ {f g n : ℕ}, n ≤ f → n ≤ g → varintAux f n = varintAux g n := by
    intro f
    induction f with
    | zero =>
      intro g n hf _
      obtain rfl : n = 0 := by omega
      cases g <;> rfl
    | succ f ih =>
      intro g n hf hg
      cases g with
      | zero =>
        obtain rfl : n = 0 := by omega
        rfl
      | succ g =>
        by_cases hn : n < 128
        · simp only [varintAux, if_pos hn]
        · simp only [varintAux, if_neg hn]
          rw [ih (by omega : n / 128 ≤ f) (by omega : n / 128 ≤ g)]
  intro n h
  exact key h (le_refl n)

/-- The last byte of a varint. -/
theorem varint_of_lt {n : ℕ} (h : n < 128) : varint n = [UInt8.ofNat n] := by
  cases n with
  | zero => rfl
  | succ k => rw [varint, varintAux, if_pos h]

/-- A byte that is not the last one. -/
theorem varint_of_le {n : ℕ} (h : 128 ≤ n) :
    varint n = UInt8.ofNat (n % 128 + 128) :: varint (n / 128) := by
  cases n with
  | zero => omega
  | succ k =>
    rw [varint, varintAux, if_neg (by omega), varintAux_eq_varint (by omega)]

theorem varint_ne_nil (n : ℕ) : varint n ≠ [] := by
  rcases Nat.lt_or_ge n 128 with h | h
  · rw [varint_of_lt h]
    exact List.cons_ne_nil _ _
  · rw [varint_of_le h]
    exact List.cons_ne_nil _ _

/-- A number below `128 ^ k` takes at most `k` bytes. -/
theorem length_varint_le {k : ℕ} : ∀ {n : ℕ}, 0 < k → n < 128 ^ k → (varint n).length ≤ k := by
  induction k with
  | zero => intro n h _; omega
  | succ k ih =>
    intro n _ hn
    rcases Nat.lt_or_ge n 128 with h | h
    · rw [varint_of_lt h]
      simp
    · have hdiv : n / 128 < 128 ^ k := by
        rw [Nat.div_lt_iff_lt_mul (by omega)]
        rwa [pow_succ] at hn
      have hk : 0 < k := by
        rcases Nat.eq_zero_or_pos k with rfl | hk
        · simp at hdiv
          omega
        · exact hk
      rw [varint_of_le h, List.length_cons]
      have := ih hk hdiv
      omega

/-! ## Fields -/

/-- The key of a field: its number and wire type. -/
def key (number wireType : ℕ) : Bytes := varint (8 * number + wireType)

/-- A field holding a number. -/
def varintField (number n : ℕ) : Bytes := key number 0 ++ varint n

/-- A field holding a string of bytes or an embedded message. -/
def lengthField (number : ℕ) (body : Bytes) : Bytes :=
  key number 2 ++ varint body.length ++ body

/-- The four bytes of a 32-bit word, least significant first. -/
def littleEndian32 (w : UInt32) : Bytes :=
  [w.toUInt8, (w >>> 8).toUInt8, (w >>> 16).toUInt8, (w >>> 24).toUInt8]

/-- A field holding four bytes. -/
def fixed32Field (number : ℕ) (w : UInt32) : Bytes := key number 5 ++ littleEndian32 w

end Aitsm.Library.Wire
