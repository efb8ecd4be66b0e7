import Aitsm.Library.Wire

/-!
# Varints

The byte strings that are varints, and the number of one, whatever wrote it: it
may be longer than it has to be. `varint n` is one of `n`.
-/

namespace Aitsm.Library.Wire

/-- The top bit is set on every byte but the last. -/
inductive IsVarint : Bytes → Prop
  | last {b : UInt8} : b.toNat < 128 → IsVarint [b]
  | more {b : UInt8} {bs : Bytes} : 128 ≤ b.toNat → IsVarint bs → IsVarint (b :: bs)

theorem IsVarint.ne_nil {bs : Bytes} (h : IsVarint bs) : bs ≠ [] := by
  cases h <;> exact List.cons_ne_nil _ _

/-- The number in base 128, least significant digit first. -/
def varintNumber : Bytes → ℕ
  | [] => 0
  | b :: bs => b.toNat % 128 + 128 * varintNumber bs

theorem varintNumber_lt (bs : Bytes) : varintNumber bs < 128 ^ bs.length := by
  induction bs with
  | nil => exact Nat.one_pos
  | cons b bs ih =>
    rw [varintNumber, List.length_cons, pow_succ]
    omega

theorem varintNumber_append (as bs : Bytes) :
    varintNumber (as ++ bs) = varintNumber as + 128 ^ as.length * varintNumber bs := by
  induction as with
  | nil => simp [varintNumber]
  | cons b as ih =>
    rw [List.cons_append, varintNumber, varintNumber, ih, List.length_cons, pow_succ]
    ring

theorem isVarint_iff {bs : Bytes} :
    IsVarint bs ↔ ∃ head last, bs = head ++ [last] ∧ (∀ b ∈ head, 128 ≤ b.toNat) ∧
      last.toNat < 128 := by
  constructor
  · intro h
    induction h with
    | @last b hb => exact ⟨[], b, rfl, by simp, hb⟩
    | @more b bs hb _ ih =>
      obtain ⟨head, last, rfl, hhead, hlast⟩ := ih
      exact ⟨b :: head, last, rfl, List.forall_mem_cons.mpr ⟨hb, hhead⟩, hlast⟩
  · rintro ⟨head, last, rfl, hhead, hlast⟩
    induction head with
    | nil => exact .last hlast
    | cons b head ih =>
      obtain ⟨hb, hhead⟩ := List.forall_mem_cons.mp hhead
      exact .more hb (ih hhead)

theorem isVarint_varint (n : ℕ) : IsVarint (varint n) := by
  induction n using Nat.strong_induction_on with
  | _ n ih =>
    rcases Nat.lt_or_ge n 128 with h | h
    · rw [varint_of_lt h]
      exact .last (by simp [UInt8.toNat_ofNat']; omega)
    · rw [varint_of_le h]
      exact .more (by simp [UInt8.toNat_ofNat']; omega) (ih _ (by omega))

theorem varintNumber_varint (n : ℕ) : varintNumber (varint n) = n := by
  induction n using Nat.strong_induction_on with
  | _ n ih =>
    rcases Nat.lt_or_ge n 128 with h | h
    · rw [varint_of_lt h, varintNumber, varintNumber, UInt8.toNat_ofNat']
      omega
    · rw [varint_of_le h, varintNumber, ih _ (by omega), UInt8.toNat_ofNat']
      omega

end Aitsm.Library.Wire
