import Mathlib.Data.List.Basic

/-!
# Writing into a buffer of fixed size

An encoder is often a chain of small writes into a buffer that may be full
before the last of them, each giving up at the first write that fails. Such a
chain is no different from one write of everything (`Emits`): it succeeds
exactly when the whole output fits, whichever of its writes would have failed.
-/

namespace Aitsm.Library

/-- A buffer that is filled from the front and never holds more than `maxSize`. -/
structure OStream (α : Type*) where
  maxSize : ℕ
  written : List α
  fits : written.length ≤ maxSize

namespace OStream

variable {α β : Type*}

/-- An empty buffer. -/
def ofSize (maxSize : ℕ) : OStream α := ⟨maxSize, [], Nat.zero_le _⟩

/-- How much has been written. -/
def size (s : OStream α) : ℕ := s.written.length

/-- Append, or fail if that is more than the buffer holds. -/
def write (s : OStream α) (xs : List α) : Option (OStream α) :=
  if h : (s.written ++ xs).length ≤ s.maxSize then some { s with written := s.written ++ xs, fits := h }
  else none

theorem write_nil (s : OStream α) : s.write [] = some s := by
  have h : (s.written ++ []).length ≤ s.maxSize := by simpa using s.fits
  rw [write, dif_pos h]
  simp

/-- Two writes are one. -/
theorem write_write (s : OStream α) (xs ys : List α) :
    ((s.write xs).bind fun s => s.write ys) = s.write (xs ++ ys) := by
  by_cases hx : (s.written ++ xs).length ≤ s.maxSize
  · simp only [write, dif_pos hx, Option.bind_some, List.append_assoc]
  · have hxy : ¬(s.written ++ (xs ++ ys)).length ≤ s.maxSize := by
      simp only [List.length_append] at hx ⊢
      omega
    rw [write, dif_neg hx, write, dif_neg hxy]
    rfl

/-- `w` writes exactly `xs`, and fails exactly when that does not fit. -/
def Emits (w : OStream α → Option (OStream α)) (xs : List α) : Prop := ∀ s, w s = s.write xs

theorem emits_write (xs : List α) : Emits (fun s => s.write xs) xs := fun _ => rfl

theorem emits_some : Emits (α := α) some [] := fun s => s.write_nil.symm

theorem Emits.bind {v w : OStream α → Option (OStream α)} {xs ys : List α} (hv : Emits v xs)
    (hw : Emits w ys) : Emits (fun s => (v s).bind w) (xs ++ ys) := by
  intro s
  rw [← write_write, ← hv s]
  exact congrArg _ (funext hw)

/-- A loop that stops at the first failure writes the pieces one after the other. -/
theorem Emits.foldlM {w : OStream α → β → Option (OStream α)} {f : β → List α}
    (h : ∀ b, Emits (fun s => w s b) (f b)) (bs : List β) :
    Emits (fun s => bs.foldlM w s) (bs.flatMap f) := by
  induction bs with
  | nil => exact emits_some
  | cons b bs ih =>
    simp only [List.foldlM_cons, List.flatMap_cons]
    exact (h b).bind ih

/-- From an empty buffer, everything is there or nothing. -/
theorem Emits.ofSize {w : OStream α → Option (OStream α)} {xs : List α} (h : Emits w xs)
    (maxSize : ℕ) :
    (w (ofSize maxSize)).map size = if xs.length ≤ maxSize then some xs.length else none := by
  rw [h]
  by_cases hfits : xs.length ≤ maxSize
  · rw [if_pos hfits, write, dif_pos (by exact hfits)]
    rfl
  · rw [if_neg hfits, write, dif_neg (by exact hfits)]
    rfl

end OStream

end Aitsm.Library
