import Mathlib.Data.List.Basic

/-!
# Escaped texts

A text in which one symbol makes the next one literal. `escape` puts it before
every special symbol, `unescape` takes it away again (`unescape_escape`), and
`pieces` splits a text at a separator that stands for itself. An escaped text
does not split at a special symbol, nor at one that is not in it
(`whole_escape`); any other one stays as it is (`escape_append_cons`).
-/

namespace Aitsm.Library.Escape

universe u

variable {α : Type u} [DecidableEq α] (esc : α)

/-- Every special symbol, with `esc` before it. -/
def escape (special s : List α) : List α :=
  s.flatMap fun x => if x ∈ special then [esc, x] else [x]

/-- The symbol after an `esc` is literal, and so is an `esc` at the end. -/
def unescape : List α → List α
  | [] => []
  | x :: s =>
    if x = esc then
      match s with
      | [] => [x]
      | y :: s => y :: unescape s
    else x :: unescape s

/-- A text in front of the first piece. -/
def prepend (p : List α) : List (List α) → List (List α)
  | [] => [p]
  | q :: qs => (p ++ q) :: qs

/-- The pieces between the separators that are not escaped. -/
def pieces (sep : α) : List α → List (List α)
  | [] => [[]]
  | x :: s =>
    if x = esc then
      match s with
      | [] => [[x]]
      | y :: s => prepend [x, y] (pieces sep s)
    else if x = sep then [] :: pieces sep s
    else prepend [x] (pieces sep s)

/-- A text without `esc` and the separator. -/
def Plain (sep : α) (s : List α) : Prop := ∀ x ∈ s, x ≠ esc ∧ x ≠ sep

instance (sep : α) (s : List α) : Decidable (Plain esc sep s) :=
  inferInstanceAs (Decidable (∀ x ∈ s, x ≠ esc ∧ x ≠ sep))

variable {esc} {sep : α} {special p q s t : List α}

theorem unescape_cons {x : α} (hx : x ≠ esc) : unescape esc (x :: s) = x :: unescape esc s := by
  rw [unescape.eq_def]
  simp only [hx, if_false]

theorem unescape_esc (y : α) : unescape esc (esc :: y :: s) = y :: unescape esc s := by
  rw [unescape.eq_def]
  simp only [if_true]

/-- The separator separates. -/
theorem pieces_sep (hsep : sep ≠ esc) : pieces esc sep (sep :: s) = [] :: pieces esc sep s := by
  rw [pieces.eq_def]
  simp only [hsep, if_false, if_true]

theorem pieces_cons {x : α} (hx : x ≠ esc) (hsep : x ≠ sep) :
    pieces esc sep (x :: s) = prepend [x] (pieces esc sep s) := by
  rw [pieces.eq_def]
  simp only [hx, hsep, if_false]

theorem pieces_esc (y : α) :
    pieces esc sep (esc :: y :: s) = prepend [esc, y] (pieces esc sep s) := by
  rw [pieces.eq_def]
  simp only [if_true]

omit [DecidableEq α] in
@[simp] theorem prepend_cons (qs : List (List α)) : prepend p (q :: qs) = (p ++ q) :: qs := rfl

omit [DecidableEq α] in
theorem prepend_prepend (qs : List (List α)) :
    prepend p (prepend q qs) = prepend (p ++ q) qs := by
  cases qs with
  | nil => rfl
  | cons r qs => simp

theorem pieces_ne_nil : pieces esc sep s ≠ [] := by
  have hprepend : ∀ (p : List α) qs, prepend p qs ≠ [] := by
    intro p qs
    cases qs <;> simp [prepend]
  rw [pieces.eq_def]
  split
  · simp
  · split
    · split
      · simp
      · exact hprepend _ _
    · split
      · simp
      · exact hprepend _ _

theorem prepend_nil : prepend [] (pieces esc sep s) = pieces esc sep s := by
  rcases h : pieces esc sep s with _ | ⟨q, qs⟩
  · exact absurd h pieces_ne_nil
  · rfl

variable (esc) in
/-- A text that does not split, whatever follows it. -/
def Whole (sep : α) (p : List α) : Prop :=
  ∀ t, pieces esc sep (p ++ t) = prepend p (pieces esc sep t)

theorem Plain.whole (hp : Plain esc sep p) : Whole esc sep p := by
  intro t
  induction p with
  | nil => exact prepend_nil.symm
  | cons x p ih =>
    obtain ⟨hesc, hsep⟩ := hp x List.mem_cons_self
    rw [List.cons_append, pieces_cons hesc hsep, ih fun y hy => hp y (List.mem_cons_of_mem _ hy),
      prepend_prepend, List.singleton_append]

namespace Whole

theorem append (hp : Whole esc sep p) (hq : Whole esc sep q) : Whole esc sep (p ++ q) := by
  intro t
  rw [List.append_assoc, hp, hq, prepend_prepend]

theorem pieces_eq (hp : Whole esc sep p) : pieces esc sep p = [p] := by
  have := hp []
  rwa [List.append_nil, pieces, prepend_cons, List.append_nil] at this

/-- It ends at the first separator after it. -/
theorem pieces_append_sep (hsep : sep ≠ esc) (hp : Whole esc sep p) :
    pieces esc sep (p ++ sep :: s) = p :: pieces esc sep s := by
  rw [hp, pieces_sep hsep, prepend_cons, List.append_nil]

theorem pieces_intercalate (hsep : sep ≠ esc) :
    ∀ {ps : List (List α)}, ps ≠ [] → (∀ p ∈ ps, Whole esc sep p) →
      pieces esc sep (List.intercalate [sep] ps) = ps := by
  intro ps
  induction ps with
  | nil => exact fun h => absurd rfl h
  | cons p ps ih =>
    intro _ hwhole
    have hp := hwhole p List.mem_cons_self
    cases ps with
    | nil => simpa using hp.pieces_eq
    | cons q ps =>
      have hrest := ih (by simp) fun r hr => hwhole r (List.mem_cons_of_mem _ hr)
      rw [List.intercalate_cons_cons, List.append_assoc, List.singleton_append,
        hp.pieces_append_sep hsep, hrest]

theorem intercalate {c : α} (hc : Whole esc sep [c]) :
    ∀ {ps : List (List α)}, (∀ p ∈ ps, Whole esc sep p) →
      Whole esc sep (List.intercalate [c] ps) := by
  intro ps
  induction ps with
  | nil =>
    intro _ t
    exact prepend_nil.symm
  | cons p ps ih =>
    intro hwhole
    have hp := hwhole p List.mem_cons_self
    cases ps with
    | nil => simpa using hp
    | cons q ps =>
      rw [List.intercalate_cons_cons]
      exact (hp.append hc).append (ih fun r hr => hwhole r (List.mem_cons_of_mem _ hr))

end Whole

/-! ## Escaping -/

theorem escape_append : escape esc special (s ++ t) = escape esc special s ++ escape esc special t :=
  List.flatMap_append

theorem escape_cons (x : α) : escape esc special (x :: s) =
    (if x ∈ special then [esc, x] else [x]) ++ escape esc special s := List.flatMap_cons

/-- Nothing is lost. -/
theorem unescape_escape (hesc : esc ∈ special) : unescape esc (escape esc special s) = s := by
  induction s with
  | nil => rfl
  | cons x s ih =>
    rw [escape_cons]
    split
    · rw [List.cons_append, List.singleton_append, unescape_esc, ih]
    · rename_i hx
      have hne : x ≠ esc := fun heq => hx (heq ▸ hesc)
      rw [List.singleton_append, unescape_cons hne, ih]

theorem escape_injective (hesc : esc ∈ special) (h : escape esc special s = escape esc special t) :
    s = t := by
  rw [← unescape_escape (s := s) hesc, h, unescape_escape hesc]

/-- An escaped text does not split at a symbol that is special or does not
occur. -/
theorem whole_escape (hesc : esc ∈ special) (hs : sep ∈ special ∨ sep ∉ s) :
    Whole esc sep (escape esc special s) := by
  intro t
  induction s with
  | nil => exact prepend_nil.symm
  | cons x s ih =>
    have hrest := ih (hs.imp_right fun h hmem => h (List.mem_cons_of_mem _ hmem))
    rw [escape_cons, List.append_assoc]
    split
    · rw [List.cons_append, List.singleton_append, pieces_esc, hrest, prepend_prepend]
    · rename_i hx
      have hne : x ≠ esc := fun heq => hx (heq ▸ hesc)
      have hsep : x ≠ sep := by
        rintro rfl
        exact hs.elim hx fun h => h List.mem_cons_self
      rw [List.singleton_append, pieces_cons hne hsep, hrest, prepend_prepend]

/-- Any other symbol stays as it is. -/
theorem escape_append_cons {x : α} (hx : x ∉ special) :
    escape esc special (s ++ x :: t) = escape esc special s ++ x :: escape esc special t := by
  rw [escape_append, escape_cons, if_neg hx, List.singleton_append]

end Aitsm.Library.Escape
