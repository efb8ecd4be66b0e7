import Mathlib.Data.List.Basic

/-!
# Systems that step and report

A system starts in one state and takes actions; an action that is possible
yields the next state together with the events it makes visible. Everything
nondeterministic (which thread runs, what the environment answers) is part of
the action, so a system is executable and a schedule can be replayed.

* `Run ok s τ` — some run whose steps all meet `ok` ends in `s` and has
  reported exactly `τ`. The condition `ok` sees the state and the history, so
  it can say what an environment promises ("no identifier is reused while …").
* `Run.invariant` — the induction rule: what holds at the start and is kept by
  every step holds of every run.
* `EachEvent P τ` — every event of `τ` meets `P` together with its own past;
  `Run.eachEvent` proves it from an invariant, step by step.
* `record` — the same system, reporting its own steps, for properties that
  compare the states at two moments of a run; `Run.since` proves what holds from
  a step of one kind on, as long as only steps of another kind follow.
* `replay` — runs a schedule; `Run.of_isSome` turns its result into a run.
-/

namespace Aitsm.Library

universe u v w

/-- A system over states `S`, actions `A` and visible events `E`. -/
structure System (S : Type u) (A : Type v) (E : Type w) where
  /-- where every run starts -/
  start : S
  /-- one action; `none` when it is not possible in this state -/
  step : S → A → Option (S × List E)

namespace System

variable {S : Type u} {A : Type v} {E : Type w} (sys : System S A E)

/-- `sys.Run ok s τ`: a run whose steps all meet `ok` leads from the start to
`s` and reports `τ` on the way. -/
inductive Run (ok : S → List E → A → Prop) : S → List E → Prop where
  /-- the empty run -/
  | start : Run ok sys.start []
  /-- one more step -/
  | step {s s' : S} {τ es : List E} {a : A} :
      Run ok s τ → ok s τ a → sys.step s a = some (s', es) → Run ok s' (τ ++ es)

/-- The condition every step meets. -/
abbrev anyStep : S → List E → A → Prop := fun _ _ _ => True

variable {sys}

/-- **The invariant rule**, over states and histories. -/
theorem Run.invariant {ok : S → List E → A → Prop} {I : S → List E → Prop}
    (hstart : I sys.start [])
    (hstep : ∀ s τ a s' es, I s τ → ok s τ a → sys.step s a = some (s', es) → I s' (τ ++ es)) :
    ∀ {s τ}, sys.Run ok s τ → I s τ := by
  intro s τ hr
  induction hr with
  | start => exact hstart
  | step _ hok hs ih => exact hstep _ _ _ _ _ ih hok hs

/-- The invariant rule for a property that does not look at the history. -/
theorem Run.invariant_state {ok : S → List E → A → Prop} {I : S → Prop}
    (hstart : I sys.start)
    (hstep : ∀ s τ a s' es, I s → ok s τ a → sys.step s a = some (s', es) → I s') :
    ∀ {s τ}, sys.Run ok s τ → I s :=
  Run.invariant (I := fun s _ => I s) hstart hstep

/-- A second invariant may use one that is already known. -/
theorem Run.invariant_with {ok : S → List E → A → Prop} {J I : S → List E → Prop}
    (hJ : ∀ {s τ}, sys.Run ok s τ → J s τ) (hstart : I sys.start [])
    (hstep : ∀ s τ a s' es, J s τ → I s τ → ok s τ a → sys.step s a = some (s', es) →
      I s' (τ ++ es)) :
    ∀ {s τ}, sys.Run ok s τ → I s τ := by
  intro s τ hr
  induction hr with
  | start => exact hstart
  | step hr hok hs ih => exact hstep _ _ _ _ _ (hJ hr) ih hok hs

/-- A run under a condition is a run under every weaker one. -/
theorem Run.mono {ok ok' : S → List E → A → Prop} (h : ∀ s τ a, ok s τ a → ok' s τ a) :
    ∀ {s τ}, sys.Run ok s τ → sys.Run ok' s τ := by
  intro s τ hr
  induction hr with
  | start => exact .start
  | step _ hok hs ih => exact .step ih (h _ _ _ hok) hs

/-! ## Properties of single events -/

/-- `P` holds of every event of a history, together with what came before it. -/
def EachEvent (P : List E → E → Prop) (τ : List E) : Prop :=
  ∀ τ₁ e τ₂, τ = τ₁ ++ e :: τ₂ → P τ₁ e

theorem EachEvent.nil {P : List E → E → Prop} : EachEvent P [] := by
  intro τ₁ e τ₂ h
  cases List.append_eq_nil_iff.mp h.symm |>.2

theorem EachEvent.append {P : List E → E → Prop} {τ es : List E} (hτ : EachEvent P τ)
    (hes : EachEvent (fun es₁ e => P (τ ++ es₁) e) es) : EachEvent P (τ ++ es) := by
  intro τ₁ e τ₂ h
  rcases List.append_eq_append_iff.mp h with ⟨mid, rfl, hmid⟩ | ⟨mid, rfl, hmid⟩
  · exact hes mid e τ₂ hmid
  · cases mid with
    | nil =>
      have := hes [] e τ₂ hmid.symm
      simpa only [List.append_nil] using this
    | cons e' mid =>
      obtain ⟨rfl, -⟩ := List.cons.inj hmid
      exact hτ τ₁ e mid rfl

theorem EachEvent.singleton {P : List E → E → Prop} {e : E} (h : P [] e) : EachEvent P [e] := by
  intro τ₁ e' τ₂ heq
  cases τ₁ with
  | nil =>
    obtain ⟨rfl, -⟩ := List.cons.inj heq
    exact h
  | cons e₁ τ₁ => simp at heq

theorem EachEvent.of_forall {P : List E → E → Prop} {τ : List E} (h : ∀ e ∈ τ, ∀ τ₁, P τ₁ e) :
    EachEvent P τ := by
  rintro τ₁ e τ₂ rfl
  exact h e (List.mem_append_right _ List.mem_cons_self) τ₁

theorem EachEvent.imp {P Q : List E → E → Prop} {τ : List E} (h : ∀ τ₁ e, P τ₁ e → Q τ₁ e)
    (hτ : EachEvent P τ) : EachEvent Q τ :=
  fun τ₁ e τ₂ heq => h τ₁ e (hτ τ₁ e τ₂ heq)

/-- A property of events holds along every run when an invariant gives it to
each step's own events. -/
theorem Run.eachEvent {ok : S → List E → A → Prop} {I : S → List E → Prop}
    {P : List E → E → Prop} (hI : ∀ {s τ}, sys.Run ok s τ → I s τ)
    (hstep : ∀ s τ a s' es, I s τ → ok s τ a → sys.step s a = some (s', es) →
      EachEvent (fun es₁ e => P (τ ++ es₁) e) es) :
    ∀ {s τ}, sys.Run ok s τ → EachEvent P τ :=
  Run.invariant_with (I := fun _ τ => EachEvent P τ) hI EachEvent.nil
    fun s τ a s' es hi hP hok hs => hP.append (hstep s τ a s' es hi hok hs)

/-! ## Recorded steps -/

/-- A step of a run: where it started and ended, and what it reported. -/
structure Step (S : Type u) (A : Type v) (E : Type w) where
  before : S
  action : A
  after : S
  events : List E

variable (sys)

/-- The same system, reporting its steps. -/
def record : System S A (Step S A E) where
  start := sys.start
  step s a := (sys.step s a).map fun r => (r.1, [⟨s, a, r.1, r.2⟩])

variable {sys}

/-- Everything recorded steps have reported. -/
def reports (ρ : List (Step S A E)) : List E := ρ.flatMap Step.events

@[simp] theorem reports_append (ρ ρ' : List (Step S A E)) :
    reports (ρ ++ ρ') = reports ρ ++ reports ρ' := List.flatMap_append

@[simp] theorem reports_cons (x : Step S A E) (ρ : List (Step S A E)) :
    reports (x :: ρ) = x.events ++ reports ρ := List.flatMap_cons

theorem record_step {s s' : S} {a : A} {xs : List (Step S A E)}
    (h : sys.record.step s a = some (s', xs)) :
    ∃ es, sys.step s a = some (s', es) ∧ xs = [⟨s, a, s', es⟩] := by
  obtain ⟨⟨s₁, es⟩, hs, heq⟩ := Option.map_eq_some_iff.mp h
  obtain ⟨rfl, rfl⟩ := Prod.mk.inj heq
  exact ⟨es, hs, rfl⟩

/-- A recorded run is a run, under the same condition on its reports. -/
theorem Run.unrecord_of {ok : S → List (Step S A E) → A → Prop} {ok' : S → List E → A → Prop}
    (hok : ∀ s ρ a, ok s ρ a → ok' s (reports ρ) a) :
    ∀ {s : S} {ρ : List (Step S A E)}, sys.record.Run ok s ρ → sys.Run ok' s (reports ρ) := by
  intro s ρ hr
  induction hr with
  | start => exact .start
  | step _ h hs ih =>
    obtain ⟨es, hstep, rfl⟩ := record_step hs
    simpa [reports] using Run.step ih (hok _ _ _ h) hstep

theorem Run.unrecord {ok : S → List (Step S A E) → A → Prop} {s : S} {ρ : List (Step S A E)}
    (hr : sys.record.Run ok s ρ) : sys.Run anyStep s (reports ρ) :=
  hr.unrecord_of fun _ _ _ _ => trivial

/-- A run seen at one of its steps. -/
theorem Run.split {ok : S → List (Step S A E) → A → Prop} {s : S} {ρ : List (Step S A E)}
    (hr : sys.record.Run ok s ρ) :
    ∀ {ρ₁ : List (Step S A E)} {x : Step S A E} {ρ₂ : List (Step S A E)}, ρ = ρ₁ ++ x :: ρ₂ →
      sys.record.Run ok x.before ρ₁ ∧ ok x.before ρ₁ x.action ∧
      sys.step x.before x.action = some (x.after, x.events) ∧
      sys.record.Run ok x.after (ρ₁ ++ [x]) := by
  induction hr with
  | start => intro ρ₁ x ρ₂ h; simp at h
  | @step s s' ρ xs a hr hok hs ih =>
    intro ρ₁ x ρ₂ h
    obtain ⟨es, hstep, rfl⟩ := record_step hs
    rcases List.eq_nil_or_concat ρ₂ with rfl | ⟨ρ₂, y, rfl⟩
    · obtain ⟨rfl, hx⟩ := List.append_inj' h rfl
      obtain rfl := (List.cons.inj hx).1
      exact ⟨hr, hok, hstep, .step hr hok hs⟩
    · rw [List.concat_eq_append, ← List.cons_append, ← List.append_assoc] at h
      exact ih (List.append_inj' h rfl).1

/-- A step in `P` establishes `I`, and every later step that the run allows
preserves it. -/
theorem Run.since_with {ok : S → List (Step S A E) → A → Prop} {J : S → Prop}
    {P : Step S A E → Prop} {I : Step S A E → List (Step S A E) → S → Prop}
    (hJ : ∀ {s ρ}, sys.record.Run ok s ρ → J s)
    (hP : ∀ x, J x.before → sys.step x.before x.action = some (x.after, x.events) →
      P x → I x [] x.after)
    (hstep : ∀ ρ₁ x ρ y, J y.before → ok y.before (ρ₁ ++ x :: ρ) y.action →
      sys.step y.before y.action = some (y.after, y.events) → P x → I x ρ y.before →
      I x (ρ ++ [y]) y.after) :
    ∀ {s ρ}, sys.record.Run ok s ρ → ∀ ρ₁ x ρ₂, ρ = ρ₁ ++ x :: ρ₂ → P x → I x ρ₂ s := by
  intro s ρ hr
  induction hr with
  | start => intro ρ₁ x ρ₂ h; simp at h
  | @step s s' ρ xs a hr hok hs ih =>
    intro ρ₁ x ρ₂ h hx
    obtain ⟨es, hstep', rfl⟩ := record_step hs
    rcases List.eq_nil_or_concat ρ₂ with rfl | ⟨ρ₂, y, rfl⟩
    · obtain ⟨-, hlast⟩ := List.append_inj' h rfl
      obtain rfl := (List.cons.inj hlast).1
      exact hP _ (hJ hr) hstep' hx
    · rw [List.concat_eq_append] at h ⊢
      rw [← List.cons_append, ← List.append_assoc] at h
      obtain ⟨rfl, hlast⟩ := List.append_inj' h rfl
      obtain rfl := (List.cons.inj hlast).1
      exact hstep ρ₁ x ρ₂ ⟨s, a, s', es⟩ (hJ hr) hok hstep' hx (ih ρ₁ x ρ₂ rfl hx)

/-- **What holds since.** A step in `P` establishes `I`, and every step in `K`
preserves it; so after a step in `P` it holds as long as only steps in `K`
follow. It may look at the steps that followed. -/
theorem Run.since {ok : S → List (Step S A E) → A → Prop} {J : S → Prop}
    {P K : Step S A E → Prop} {I : Step S A E → List (Step S A E) → S → Prop}
    (hJ : ∀ {s ρ}, sys.record.Run ok s ρ → J s)
    (hP : ∀ x, J x.before → sys.step x.before x.action = some (x.after, x.events) →
      P x → I x [] x.after)
    (hK : ∀ x ρ y, J y.before → sys.step y.before y.action = some (y.after, y.events) →
      K y → I x ρ y.before → I x (ρ ++ [y]) y.after) :
    ∀ {s ρ}, sys.record.Run ok s ρ → ∀ ρ₁ x ρ₂, ρ = ρ₁ ++ x :: ρ₂ → P x →
      (∀ y ∈ ρ₂, K y) → I x ρ₂ s := by
  intro s ρ hr
  refine hr.since_with (I := fun x ρ s => (∀ y ∈ ρ, K y) → I x ρ s) hJ
    (fun x hj hs hx _ => hP x hj hs hx) fun _ x ρ y hj _ hs _ hold hρ => ?_
  have hlater : ∀ z ∈ ρ, K z := fun z hz => hρ z (List.mem_append_left _ hz)
  exact hK x ρ y hj hs (hρ y (List.mem_append_right _ List.mem_cons_self)) (hold hlater)

/-! ## Schedules -/

variable (sys)

/-- Replay a schedule after the history `τ`: the state it ends in and everything
reported. A step that is not possible or does not meet `ok` stops it. -/
def replay (ok : S → List E → A → Prop) [∀ s τ a, Decidable (ok s τ a)] :
    S → List E → List A → Option (S × List E)
  | s, τ, [] => some (s, τ)
  | s, τ, a :: as =>
    if ok s τ a then
      match sys.step s a with
      | none => none
      | some (s', es) => replay ok s' (τ ++ es) as
    else none

variable {sys}

theorem Run.of_replay_from {ok : S → List E → A → Prop} [∀ s τ a, Decidable (ok s τ a)] {s : S}
    {τ : List E} (hr : sys.Run ok s τ) :
    ∀ {as : List A} {s' : S} {τ' : List E},
      sys.replay ok s τ as = some (s', τ') → sys.Run ok s' τ' := by
  intro as
  induction as generalizing s τ with
  | nil =>
    intro s' τ' h
    obtain ⟨rfl, rfl⟩ := Prod.mk.inj (Option.some.inj h)
    exact hr
  | cons a as ih =>
    intro s' τ' h
    rw [replay] at h
    split at h
    · rename_i hok
      rcases hs : sys.step s a with _ | ⟨s₁, es₁⟩
      · rw [hs] at h
        cases h
      · rw [hs] at h
        exact ih (.step hr hok hs) h
    · cases h

/-- The run of a schedule that can be replayed from the start. -/
theorem Run.of_isSome {ok : S → List E → A → Prop} [∀ s τ a, Decidable (ok s τ a)] {as : List A}
    (h : (sys.replay ok sys.start [] as).isSome) :
    sys.Run ok ((sys.replay ok sys.start [] as).get h).1
      ((sys.replay ok sys.start [] as).get h).2 :=
  Run.of_replay_from .start (Option.some_get h).symm

/-- The recorded run of a schedule, cut after its first `k` steps. -/
theorem Run.of_isSome_cut {ok : S → List (Step S A E) → A → Prop}
    [∀ s ρ a, Decidable (ok s ρ a)] {as : List A}
    (h : (sys.record.replay ok sys.start [] as).isSome) (k : ℕ) :
    sys.record.Run ok ((sys.record.replay ok sys.start [] as).get h).1
      (((sys.record.replay ok sys.start [] as).get h).2.take k
        ++ ((sys.record.replay ok sys.start [] as).get h).2.drop k) := by
  rw [List.take_append_drop]
  exact Run.of_isSome h

/-- The recorded run of a schedule, seen at its step number `k`. -/
theorem Run.of_isSome_at {ok : S → List (Step S A E) → A → Prop}
    [∀ s ρ a, Decidable (ok s ρ a)] {as : List A}
    (h : (sys.record.replay ok sys.start [] as).isSome) (k : ℕ)
    (hk : k < ((sys.record.replay ok sys.start [] as).get h).2.length) :
    sys.record.Run ok ((sys.record.replay ok sys.start [] as).get h).1
      (((sys.record.replay ok sys.start [] as).get h).2.take k
        ++ ((sys.record.replay ok sys.start [] as).get h).2[k]
        :: ((sys.record.replay ok sys.start [] as).get h).2.drop (k + 1)) := by
  rw [List.getElem_cons_drop, List.take_append_drop]
  exact Run.of_isSome h

end System

end Aitsm.Library
