import Mathlib.Data.List.Basic
import Mathlib.Data.List.Range
import Mathlib.Order.Basic

/-!
# Tables with upserts, and replays

A table keeps one value for each key, the last that was written.

Batches with numbers are written more than once, and again from an earlier one:
what they leave in the table is decided by the last batch that has the key
(`replay_apply`). A batch is `Settled` in a sequence of writes when, of each of its
keys, the last write is its own or a later batch's. It is settled when it is
written, and later batches keep it settled, whatever is repeated
(`Settled.concat`); once all batches are settled, the table is as if each had been
written once, in order (`replay_eq_of_settled`).
-/

namespace Aitsm.Library

universe u v

/-- One value for each key. -/
abbrev Table (κ : Type u) (ν : Type v) : Type (max u v) := κ → Option ν

namespace Table

variable {κ : Type u} {ν : Type v} [DecidableEq κ]

/-- The table without rows. -/
def empty : Table κ ν := fun _ => none

/-- A row replaces the one with its key. -/
def upsert (t : Table κ ν) (row : κ × ν) : Table κ ν := Function.update t row.1 (some row.2)

/-- The rows of a batch, one after the other. -/
def write (t : Table κ ν) (rows : List (κ × ν)) : Table κ ν := rows.foldl upsert t

theorem write_of_notMem {rows : List (κ × ν)} {k : κ} (hk : k ∉ rows.map Prod.fst)
    (t : Table κ ν) : t.write rows k = t k := by
  induction rows generalizing t with
  | nil => rfl
  | cons row rows ih =>
    rw [List.map_cons, List.mem_cons, not_or] at hk
    exact (ih hk.2 (t.upsert row)).trans (Function.update_of_ne hk.1 _ _)

/-- A batch with the key decides its value. -/
theorem write_of_mem {rows : List (κ × ν)} {k : κ} (hk : k ∈ rows.map Prod.fst)
    (t s : Table κ ν) : t.write rows k = s.write rows k := by
  induction rows generalizing t s with
  | nil => cases hk
  | cons row rows ih =>
    by_cases hrest : k ∈ rows.map Prod.fst
    · exact ih hrest (t.upsert row) (s.upsert row)
    · obtain rfl : k = row.1 := (List.mem_cons.mp hk).resolve_right hrest
      calc (t.upsert row).write rows row.1
          = some row.2 := by rw [write_of_notMem hrest, upsert, Function.update_self]
        _ = (s.upsert row).write rows row.1 := by
          rw [write_of_notMem hrest, upsert, Function.update_self]

variable (rows : ℕ → List (κ × ν))

/-- The batches with these numbers, one after the other. -/
def replay (l : List ℕ) : Table κ ν := l.foldl (fun t i => t.write (rows i)) empty

/-- The batches that have the key. -/
def touching (k : κ) (l : List ℕ) : List ℕ := l.filter fun i => k ∈ (rows i).map Prod.fst

/-- The last batch that has the key decides its value. -/
theorem replay_apply (l : List ℕ) (k : κ) :
    replay rows l k = (touching rows k l).getLast?.bind fun i => empty.write (rows i) k := by
  induction l using List.reverseRecOn with
  | nil => rfl
  | append_singleton l i ih =>
    rw [replay, List.foldl_append, List.foldl_cons, List.foldl_nil, ← replay, touching,
      List.filter_append, ← touching]
    by_cases hk : k ∈ (rows i).map Prod.fst
    · rw [List.filter_singleton]
      simpa [hk] using write_of_mem hk _ _
    · rw [write_of_notMem hk, ih]
      simp [hk]

/-- Of each key of the batch, the last write is its own or a later batch's. -/
def Settled (l : List ℕ) (i : ℕ) : Prop :=
  ∀ k ∈ (rows i).map Prod.fst, ∃ j ∈ (touching rows k l).getLast?, i ≤ j

variable {rows}

theorem Settled.concat {l : List ℕ} {i j : ℕ} (h : Settled rows l i) (hij : i ≤ j) :
    Settled rows (l ++ [j]) i := by
  intro k hk
  obtain ⟨m, hm, him⟩ := h k hk
  have happend : touching rows k (l ++ [j]) = touching rows k l ++ touching rows k [j] :=
    List.filter_append _ _
  by_cases hj : k ∈ (rows j).map Prod.fst
  · have hnew : touching rows k [j] = [j] := by simpa [touching] using hj
    exact ⟨j, by simp [happend, hnew], hij⟩
  · have hnew : touching rows k [j] = [] := by simpa [touching] using hj
    exact ⟨m, by simpa [happend, hnew] using hm, him⟩

theorem settled_concat (l : List ℕ) (i : ℕ) : Settled rows (l ++ [i]) i :=
  fun k hk => ⟨i, by simp [touching, hk], le_rfl⟩

theorem settled_of_nil {l : List ℕ} {i : ℕ} (h : rows i = []) : Settled rows l i := by
  intro k hk
  simp [h] at hk

/-- **Writes in order absorb repetitions.** When every batch is settled, the table
is as if each had been written once. -/
theorem replay_eq_of_settled {l : List ℕ} {n : ℕ} {p : ℕ → Bool}
    (hl : ∀ i ∈ l, i < n ∧ p i) (h : ∀ i < n, p i → Settled rows l i) :
    replay rows l = replay rows ((List.range n).filter p) := by
  funext k
  rw [replay_apply, replay_apply]
  congr 1
  have honce : ∀ i, i ∈ touching rows k ((List.range n).filter p) ↔
      i < n ∧ p i ∧ k ∈ (rows i).map Prod.fst := by
    intro i
    rw [touching, List.mem_filter, List.mem_filter, List.mem_range, decide_eq_true_eq, and_assoc]
  have hsub : ∀ i ∈ touching rows k l, i ∈ touching rows k ((List.range n).filter p) := by
    intro i hi
    obtain ⟨hi, hk⟩ := List.mem_filter.mp hi
    exact (honce i).mpr ⟨(hl i hi).1, (hl i hi).2, of_decide_eq_true hk⟩
  rcases hlast : (touching rows k ((List.range n).filter p)).getLast? with _ | i
  · rw [List.getLast?_eq_none_iff] at hlast ⊢
    refine List.eq_nil_iff_forall_not_mem.mpr fun i hi => ?_
    simpa [hlast] using hsub i hi
  · have hi := (honce i).mp (List.mem_of_getLast? hlast)
    obtain ⟨j, hj, hij⟩ := h i hi.1 hi.2.1 k hi.2.2
    -- the numbers of the first sequence grow, so `i` is the largest
    have hji : j ≤ i := by
      have hsorted : (touching rows k ((List.range n).filter p)).Pairwise (· ≤ ·) :=
        ((List.pairwise_lt_range.imp le_of_lt).filter _).filter _
      obtain ⟨front, hfront⟩ := List.getLast?_eq_some_iff.mp hlast
      have hmem := hsub j (List.mem_of_mem_getLast? hj)
      rw [hfront] at hmem hsorted
      rcases List.mem_append.mp hmem with hmem | hmem
      · exact (List.pairwise_append.mp hsorted).2.2 j hmem i (by simp)
      · exact (List.mem_singleton.mp hmem).le
    rw [show (touching rows k l).getLast? = some j from hj, le_antisymm hji hij]

end Table

end Aitsm.Library
