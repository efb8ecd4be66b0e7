import Mathlib.Data.List.Basic
import Mathlib.Order.Defs.LinearOrder
import Mathlib.Data.List.Sort

/-!
# Keyset pagination

A list that falls in a key is read page by page: each page takes the first `n`
rows whose key lies strictly below a cursor, and the next cursor is the key of
the last row of the page. The walk ends and keeps the order, and it reads
everything exactly when no page ends within a group of rows of the same key
(`pages_spec`).
-/

namespace Aitsm.Library.Keyset

universe u v

variable {α : Type u} {κ : Type v} [LinearOrder κ] (key : α → κ)

/-- The rows fall in their key, with groups of the same key in any order. -/
def Falls (rows : List α) : Prop := rows.Pairwise fun a b => key b ≤ key a

/-- The rows below a cursor. -/
def beyond (cursor : Option κ) (rows : List α) : List α :=
  match cursor with
  | none => rows
  | some c => rows.filter (key · < c)

/-- The cursor after a page. -/
def nextCursor (page : List α) : Option κ := page.getLast?.map key

/-- The pages of size `n` from a cursor on; `none` when the fuel runs out. -/
def pages (n : ℕ) (rows : List α) : ℕ → Option κ → Option (List (List α))
  | 0, _ => none
  | fuel + 1, cursor =>
    let rest := beyond key cursor rows
    if n < rest.length then
      (pages n rows fuel (nextCursor key (rest.take n))).map (rest.take n :: ·)
    else some [rest]

/-- No page of size `n` ends between two rows of the same key. -/
def Unsplit (n : ℕ) (rows : List α) : Prop :=
  ∀ k, 0 < k → k * n < rows.length → rows[k * n]?.map key ≠ rows[k * n - 1]?.map key

variable {key} {n : ℕ} {rows : List α}

theorem beyond_sublist (cursor : Option κ) : (beyond key cursor rows).Sublist rows := by
  cases cursor with
  | none => exact .refl rows
  | some c => exact List.filter_sublist

theorem Falls.beyond (h : Falls key rows) (cursor : Option κ) :
    Falls key (beyond key cursor rows) :=
  h.sublist (beyond_sublist cursor)

variable (key) in
/-- A cursor that lies below another one leaves what it leaves of the other's rows. -/
theorem beyond_beyond {cursor : Option κ} {r : α} (hr : r ∈ beyond key cursor rows) :
    beyond key (some (key r)) rows = beyond key (some (key r)) (beyond key cursor rows) := by
  cases cursor with
  | none => rfl
  | some c =>
    obtain ⟨-, hlt⟩ := List.mem_filter.mp hr
    have hc : key r < c := of_decide_eq_true hlt
    simp only [Keyset.beyond, List.filter_filter]
    refine List.filter_congr fun x _ => ?_
    by_cases hx : key x < key r
    · simp [hx, hx.trans hc]
    · simp [hx]

variable (key) in
omit [LinearOrder κ] in
/-- The last row of a full page. -/
theorem nextCursor_take {rest : List α} (hn : 0 < n) (hlen : n < rest.length) :
    ∃ r ∈ rest, rest[n - 1]? = some r ∧ nextCursor key (rest.take n) = some (key r) := by
  have hlt : n - 1 < rest.length := by omega
  refine ⟨rest[n - 1], List.getElem_mem hlt, List.getElem?_eq_getElem hlt, ?_⟩
  have hmin : (rest.take n).length = n := List.length_take_of_le hlen.le
  rw [nextCursor, List.getLast?_eq_getElem?, hmin, List.getElem?_take_of_lt (by omega),
    List.getElem?_eq_getElem hlt, Option.map_some]

/-- A row is not below one that comes later. -/
theorem Falls.le_of_le {rest : List α} (h : Falls key rest) {i j : ℕ} {a b : α} (hij : i ≤ j)
    (ha : rest[i]? = some a) (hb : rest[j]? = some b) : key b ≤ key a := by
  obtain ⟨hi, rfl⟩ := List.getElem?_eq_some_iff.mp ha
  obtain ⟨hj, rfl⟩ := List.getElem?_eq_some_iff.mp hb
  rcases Nat.eq_or_lt_of_le hij with rfl | hlt
  · exact le_rfl
  · exact List.pairwise_iff_getElem.mp h i j hi hj hlt

/-- The next cursor leaves only rows of the following pages. -/
theorem beyond_drop {rest : List α} {r : α} (h : Falls key rest) (hn : 0 < n)
    (hr : rest[n - 1]? = some r) :
    beyond key (some (key r)) rest = beyond key (some (key r)) (rest.drop n) := by
  have hnone : (rest.take n).filter (key · < key r) = [] := by
    refine List.filter_eq_nil_iff.mpr fun x hx => ?_
    obtain ⟨i, hi, rfl⟩ := List.getElem_of_mem hx
    rw [List.length_take] at hi
    have hx : rest[i]? = some rest[i] := List.getElem?_eq_getElem (by omega)
    rw [List.getElem_take, decide_eq_true_eq, not_lt]
    exact h.le_of_le (by omega) hx hr
  have hsplit := congrArg (List.filter (key · < key r)) (List.take_append_drop n rest)
  rw [List.filter_append, hnone, List.nil_append] at hsplit
  exact hsplit.symm

/-- It leaves all of them unless the page ends within a group. -/
theorem beyond_eq_drop {rest : List α} {r : α} (h : Falls key rest) (hn : 0 < n)
    (hr : rest[n - 1]? = some r) (hnext : rest[n]?.map key ≠ some (key r)) :
    beyond key (some (key r)) rest = rest.drop n := by
  rw [beyond_drop h hn hr]
  refine List.filter_eq_self.mpr fun x hx => decide_eq_true ?_
  obtain ⟨i, hi, rfl⟩ := List.getElem_of_mem hx
  rw [List.length_drop] at hi
  have hfirst : rest[n]? = some rest[n] := List.getElem?_eq_getElem (by omega)
  have hx : rest[n + i]? = some rest[n + i] := List.getElem?_eq_getElem (by omega)
  have hlt : key rest[n] < key r := by
    refine lt_of_le_of_ne (h.le_of_le (by omega) hr hfirst) fun heq => hnext ?_
    rw [hfirst, Option.map_some, heq]
  rw [List.getElem_drop]
  exact (h.le_of_le (by omega) hfirst hx).trans_lt hlt

/-- And loses a row if it does. -/
theorem beyond_length_lt {rest : List α} {r : α} (h : Falls key rest) (hn : 0 < n)
    (hlen : n < rest.length) (hr : rest[n - 1]? = some r)
    (hnext : rest[n]?.map key = some (key r)) :
    (beyond key (some (key r)) rest).length < (rest.drop n).length := by
  rw [beyond_drop h hn hr]
  refine List.length_filter_lt_length_iff_exists.mpr ⟨rest[n], ?_, ?_⟩
  · rw [List.drop_eq_getElem_cons hlen]
    exact List.mem_cons_self
  · rw [List.getElem?_eq_getElem hlen, Option.map_some, Option.some.injEq] at hnext
    simp [hnext]

omit [LinearOrder κ] in
theorem Unsplit.iff_drop {rest : List α} (hn : 0 < n) (hlen : n < rest.length) :
    Unsplit key n rest ↔
      rest[n]?.map key ≠ rest[n - 1]?.map key ∧ Unsplit key n (rest.drop n) := by
  have hshift : ∀ k, 0 < k → (rest.drop n)[k * n]?.map key = rest[(k + 1) * n]?.map key ∧
      (rest.drop n)[k * n - 1]?.map key = rest[(k + 1) * n - 1]?.map key := by
    intro k hk
    rw [List.getElem?_drop, List.getElem?_drop, Nat.succ_mul]
    have hpos := Nat.mul_pos hk hn
    rw [Nat.add_comm n, show n + (k * n - 1) = k * n + n - 1 by omega]
    exact ⟨rfl, rfl⟩
  constructor
  · intro h
    refine ⟨?_, fun k hk hlt => ?_⟩
    · have := h 1 (by omega) (by omega)
      rwa [Nat.one_mul] at this
    · rw [(hshift k hk).1, (hshift k hk).2]
      rw [List.length_drop] at hlt
      exact h (k + 1) (by omega) (by rw [Nat.succ_mul]; omega)
  · rintro ⟨hfirst, h⟩ k hk hlt
    rcases Nat.eq_or_lt_of_le hk with rfl | hk'
    · rwa [Nat.one_mul]
    · obtain ⟨k, rfl⟩ := Nat.exists_eq_succ_of_ne_zero hk.ne'
      have := h k (by omega) (by rw [List.length_drop]; rw [Nat.succ_mul] at hlt; omega)
      rwa [(hshift k (by omega)).1, (hshift k (by omega)).2] at this

omit [LinearOrder κ] in
theorem Unsplit.of_le {rest : List α} (hlen : rest.length ≤ n) :
    Unsplit key n rest := by
  intro k hk hlt
  have := Nat.le_mul_of_pos_left n hk
  omega

/-- **The walk ends, keeps the order, and reads everything exactly when no page
ends within a group.** -/
theorem pages_spec (hn : 0 < n) (h : Falls key rows) :
    ∀ fuel cursor, (beyond key cursor rows).length < fuel →
      ∃ ps, pages key n rows fuel cursor = some ps ∧
        ps.flatten.Sublist (beyond key cursor rows) ∧
        (ps.flatten = beyond key cursor rows ↔ Unsplit key n (beyond key cursor rows)) := by
  intro fuel
  induction fuel with
  | zero => intro cursor hlt; omega
  | succ fuel ih =>
    intro cursor hlt
    have hfalls := h.beyond cursor
    rw [pages]
    split
    · rename_i hlen
      obtain ⟨r, hmem, hr, hnext⟩ := nextCursor_take key hn hlen
      have hbelow := beyond_beyond key hmem
      have hdrop := beyond_drop hfalls hn hr
      have hshorter : (beyond key (some (key r)) rows).length
          ≤ ((beyond key cursor rows).drop n).length := by
        rw [hbelow, hdrop]
        exact (beyond_sublist _).length_le
      obtain ⟨ps, hps, hsub, hall⟩ := ih (some (key r)) (by rw [List.length_drop] at hshorter; omega)
      rw [hnext, hps]
      refine ⟨_, rfl, ?_, ?_⟩
      · rw [List.flatten_cons]
        have hrest : ps.flatten.Sublist ((beyond key cursor rows).drop n) := by
          refine hsub.trans ?_
          rw [hbelow, hdrop]
          exact beyond_sublist _
        have := (List.Sublist.refl ((beyond key cursor rows).take n)).append hrest
        rwa [List.take_append_drop] at this
      · rw [List.flatten_cons, Unsplit.iff_drop hn hlen]
        have hlast : (beyond key cursor rows)[n - 1]?.map key = some (key r) := by
          rw [hr, Option.map_some]
        by_cases hgroup : (beyond key cursor rows)[n]?.map key = some (key r)
        · -- the rest of the group is lost
          refine ⟨fun heq => ?_, fun hne => absurd (hgroup.trans hlast.symm) hne.1⟩
          have hlost := beyond_length_lt hfalls hn hlen hr hgroup
          rw [← hbelow] at hlost
          have hlength := congrArg List.length heq
          rw [List.length_append, List.length_take_of_le hlen.le] at hlength
          rw [List.length_drop] at hlost
          have := hsub.length_le
          omega
        · have hrest : beyond key (some (key r)) rows = (beyond key cursor rows).drop n := by
            rw [hbelow]
            exact beyond_eq_drop hfalls hn hr hgroup
          rw [hrest] at hall
          constructor
          · intro heq
            refine ⟨fun hsame => hgroup (hsame.trans hlast), hall.mp ?_⟩
            have hsplit := List.take_append_drop n (beyond key cursor rows)
            exact List.append_cancel_left (heq.trans hsplit.symm)
          · rintro ⟨-, hunsplit⟩
            rw [hall.mpr hunsplit, List.take_append_drop]
    · rename_i hlen
      refine ⟨_, rfl, ?_, ?_⟩
      · rw [List.flatten_cons, List.flatten_nil, List.append_nil]
      · rw [List.flatten_cons, List.flatten_nil, List.append_nil]
        exact ⟨fun _ => .of_le (by omega), fun _ => rfl⟩

end Aitsm.Library.Keyset
