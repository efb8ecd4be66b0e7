import Mathlib.Data.List.Basic
import Mathlib.Data.Vector.Basic

/-!
# A bounded queue, and a queue in an array

* `Fifo.push`, `Fifo.discard` — a queue that holds at most `capacity` elements:
  what does not fit is refused, and so is taking out more than there is.
* `front v k` — the first `k` elements of an array. Writing at position `k`
  appends to them, moving the rest down over the first ones drops these.
-/

namespace Aitsm.Library

variable {α : Type*}

namespace Fifo

/-- Append, unless the queue is full. -/
def push (capacity : ℕ) (q : List α) (a : α) : List α :=
  if q.length < capacity then q ++ [a] else q

/-- Drop the `n` oldest elements, unless there are fewer. -/
def discard (q : List α) (n : ℕ) : List α := if n ≤ q.length then q.drop n else q

/-- Elements that fit are queued in their order, and the rest is refused. -/
theorem foldl_push (capacity : ℕ) (as : List α) :
    ∀ q : List α, as.foldl (push capacity) q = q ++ as.take (capacity - q.length) := by
  induction as with
  | nil => simp
  | cons a as ih =>
    intro q
    rw [List.foldl_cons, ih, push]
    split
    · rename_i hlt
      rw [List.append_assoc, List.length_append, List.length_singleton, List.singleton_append,
        ← List.take_succ_cons, Nat.sub_add_eq, Nat.sub_add_cancel (by omega)]
    · rename_i hfull
      rw [Nat.sub_eq_zero_of_le (not_lt.mp hfull), List.take_zero, List.take_zero]

end Fifo

/-! ## In an array -/

variable {n : ℕ}

/-- The first `k` elements. -/
def front (v : Vector α n) (k : ℕ) : List α := v.toList.take k

/-- `memmove(v, &v[k], len * sizeof(v[0]))`. -/
def moveDown (v : Vector α n) (k len : ℕ) (h : k + len ≤ n) : Vector α n :=
  Vector.ofFn fun i => if hi : i.val < len then v[k + i.val] else v[i.val]

theorem length_front (v : Vector α n) {k : ℕ} (h : k ≤ n) : (front v k).length = k := by
  simp [front, h]

theorem front_zero (v : Vector α n) : front v 0 = [] := List.take_zero

theorem getElem_front (v : Vector α n) {k i : ℕ} (hk : k ≤ n) (h : i < (front v k).length) :
    ∃ hi : i < n, (front v k)[i] = v[i] := by
  rw [length_front v hk] at h
  exact ⟨h.trans_le hk, by simp [front]⟩

theorem front_set (v : Vector α n) {k : ℕ} (h : k < n) (a : α) :
    front (v.set k a h) (k + 1) = front v k ++ [a] := by
  refine List.ext_getElem ?_ fun i hi hi' => ?_
  · rw [List.length_append, length_front _ h, length_front _ h.le, List.length_singleton]
  · obtain ⟨hn, hget⟩ := getElem_front _ h hi
    rw [hget, Vector.getElem_set]
    rcases eq_or_ne k i with rfl | hne
    · rw [if_pos rfl]
      simp [length_front v h.le]
    · rw [length_front _ h] at hi
      rw [if_neg hne, List.getElem_append_left (by rw [length_front v h.le]; omega)]
      exact (getElem_front v h.le _).2.symm

theorem front_moveDown (v : Vector α n) {k len : ℕ} (h : k + len ≤ n) :
    front (moveDown v k len h) len = (front v (k + len)).drop k := by
  refine List.ext_getElem ?_ fun i hi hi' => ?_
  · rw [List.length_drop, length_front _ (by omega), length_front _ h, Nat.add_sub_cancel_left]
  · obtain ⟨hn, hget⟩ := getElem_front _ (by omega : len ≤ n) hi
    rw [length_front _ (by omega)] at hi
    rw [hget, List.getElem_drop, (getElem_front v h _).2]
    simp [moveDown, hi]

end Aitsm.Library
