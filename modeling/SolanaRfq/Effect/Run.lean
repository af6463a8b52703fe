import Mathlib.Algebra.BigOperators.Group.List.Basic
import Mathlib.Algebra.Order.Group.Defs
import Mathlib.Data.List.Range

/-!
# Runs and their traces

The steps of a system carry the list of what happened in them, and a run carries the concatenation of
these lists. What can be said about a run is a relation between two states and a trace; one that
composes holds of every run once it holds of every step.

* `Composable`: the empty run is in the relation and runs in a row stay in it;
* `Run`: finitely many steps; **`Run.within`**: a composable relation that has the steps has the runs;
* `composable_log`, `composable_sum`, `composable_le`: a log, a sum and a bound that follow the trace;
* `Sequential`: units that run one after another, each by its own steps;
* **`Sequential.isolated`**: what only one unit can change, is constant before and after that unit.
-/

namespace TracedRun

variable {σ ι β M : Type*}

/-! ## Composable relations -/

/-- A relation of two states and a trace that holds of the empty run and of runs in a row. -/
structure Composable (R : σ → List ι → σ → Prop) : Prop where
  refl : ∀ s, R s [] s
  trans : ∀ {s₁ s₂ s₃ t₁ t₂}, R s₁ t₁ s₂ → R s₂ t₂ s₃ → R s₁ (t₁ ++ t₂) s₃

theorem composable_all (P : ι → Prop) :
    Composable fun (_ : σ) t (_ : σ) => ∀ a ∈ t, P a where
  refl _ _ ha := absurd ha List.not_mem_nil
  trans h₁ h₂ a ha := (List.mem_append.mp ha).elim (h₁ a) (h₂ a)

theorem composable_eq (f : σ → β) : Composable fun s (_ : List ι) s' => f s' = f s where
  refl _ := rfl
  trans h₁ h₂ := h₂.trans h₁

theorem composable_log (log : σ → List β) (entry : ι → β) :
    Composable fun s t s' => log s' = log s ++ t.map entry where
  refl s := by rw [List.map_nil, List.append_nil]
  trans h₁ h₂ := by rw [h₂, h₁, List.map_append, List.append_assoc]

theorem composable_sum [AddMonoid M] (φ : σ → M) (δ : ι → M) :
    Composable fun s t s' => φ s' = φ s + (t.map δ).sum where
  refl s := by rw [List.map_nil, List.sum_nil, add_zero]
  trans h₁ h₂ := by rw [h₂, h₁, List.map_append, List.sum_append, add_assoc]

theorem composable_le [Preorder β] (φ : σ → β) :
    Composable fun s (_ : List ι) s' => φ s ≤ φ s' where
  refl _ := le_rfl
  trans h₁ h₂ := h₁.trans h₂

namespace Composable

variable {R R' : σ → List ι → σ → Prop}

theorem and (hR : Composable R) (hR' : Composable R') :
    Composable fun s t s' => R s t s' ∧ R' s t s' where
  refl s := ⟨hR.refl s, hR'.refl s⟩
  trans h₁ h₂ := ⟨hR.trans h₁.1 h₂.1, hR'.trans h₁.2 h₂.2⟩

/-- A relation on the runs whose trace has only items with `P`. -/
theorem given (hR : Composable R) (P : ι → Prop) :
    Composable fun s t s' => (∀ a ∈ t, P a) → R s t s' where
  refl s _ := hR.refl s
  trans h₁ h₂ hP := hR.trans (h₁ fun a ha => hP a (List.mem_append_left _ ha))
    (h₂ fun a ha => hP a (List.mem_append_right _ ha))

end Composable

/-! ## Runs -/

/-- Finitely many steps, with the concatenation of their traces. -/
inductive Run (step : σ → List ι → σ → Prop) : σ → List ι → σ → Prop
  | nil (s : σ) : Run step s [] s
  | cons {s s₁ s' : σ} {l t : List ι} :
      step s l s₁ → Run step s₁ t s' → Run step s (l ++ t) s'

namespace Run

variable {step R : σ → List ι → σ → Prop} {s s' : σ} {t : List ι}

/-- **A composable relation that has the steps has the runs.** -/
theorem within (hR : Composable R) (hstep : ∀ s l s', step s l s' → R s l s')
    (h : Run step s t s') : R s t s' := by
  induction h with
  | nil s => exact hR.refl s
  | cons hs _ ih => exact hR.trans (hstep _ _ _ hs) ih

theorem single (h : step s t s') : Run step s t s' := by
  rw [← List.append_nil t]
  exact .cons h (.nil s')

theorem append {s₁ : σ} {t' : List ι} (h : Run step s t s₁) (h' : Run step s₁ t' s') :
    Run step s (t ++ t') s' := by
  induction h with
  | nil => exact h'
  | cons hs _ ih =>
    rw [List.append_assoc]
    exact .cons hs (ih h')

end Run

/-! ## Units in a row -/

/-- Units that run one after another: unit `i` goes from `state i` to `state (i + 1)` by its own
steps. -/
structure Sequential (step : ℕ → σ → List ι → σ → Prop) (n : ℕ) where
  state : ℕ → σ
  trace : ℕ → List ι
  run : ∀ i < n, Run (step i) (state i) (trace i) (state (i + 1))

namespace Sequential

variable {step : ℕ → σ → List ι → σ → Prop} {R : σ → List ι → σ → Prop} {n : ℕ}
  (e : Sequential step n)

/-- The trace of the `d` units from unit `i` on. -/
def traceFrom (i d : ℕ) : List ι := (List.range' i d).flatMap e.trace

/-- The trace of all units. -/
def fullTrace : List ι := e.traceFrom 0 n

theorem traceFrom_succ (i d : ℕ) : e.traceFrom i (d + 1) = e.traceFrom i d ++ e.trace (i + d) := by
  rw [traceFrom, List.range'_1_concat, List.flatMap_append, List.flatMap_singleton]
  rfl

theorem traceFrom_add (i d d' : ℕ) :
    e.traceFrom i (d + d') = e.traceFrom i d ++ e.traceFrom (i + d) d' := by
  rw [traceFrom, traceFrom, traceFrom, ← List.range'_append_1, List.flatMap_append]

theorem traceFrom_eq_nil {i d : ℕ} (h : ∀ j, i ≤ j → j < i + d → e.trace j = []) :
    e.traceFrom i d = [] :=
  List.flatMap_eq_nil_iff.mpr fun j hj => by
    obtain ⟨hij, hjd⟩ := List.mem_range'_1.mp hj
    exact h j hij hjd

/-- Where only unit `i` has a trace, it is the trace of all units. -/
theorem fullTrace_eq {i : ℕ} (hi : i < n) (h : ∀ j < n, j ≠ i → e.trace j = []) :
    e.fullTrace = e.trace i := by
  obtain ⟨d, hd⟩ : ∃ d, n = i + (1 + d) := ⟨n - i - 1, by omega⟩
  have hbefore : e.traceFrom 0 i = [] := e.traceFrom_eq_nil fun j _ hj => h j (by omega) (by omega)
  have hafter : e.traceFrom (i + 1) d = [] :=
    e.traceFrom_eq_nil fun j hij hj => h j (by omega) (by omega)
  have hone : e.traceFrom i 1 = e.trace i := by simp [traceFrom]
  calc e.fullTrace
      = e.traceFrom 0 (i + (1 + d)) := congrArg (e.traceFrom 0) hd
    _ = e.traceFrom 0 i ++ (e.traceFrom i 1 ++ e.traceFrom (i + 1) d) := by
        rw [traceFrom_add, Nat.zero_add, traceFrom_add]
    _ = e.trace i := by rw [hbefore, hone, hafter, List.nil_append, List.append_nil]

theorem mem_fullTrace {a : ι} : a ∈ e.fullTrace ↔ ∃ i < n, a ∈ e.trace i := by
  simp only [fullTrace, traceFrom, List.mem_flatMap, List.mem_range'_1, Nat.zero_le, true_and,
    Nat.zero_add]

/-- **A composable relation that has the runs of some units in a row has their sequence.** -/
theorem within (hR : Composable R) (i d : ℕ)
    (hunit : ∀ j, i ≤ j → j < i + d → R (e.state j) (e.trace j) (e.state (j + 1))) :
    R (e.state i) (e.traceFrom i d) (e.state (i + d)) := by
  induction d with
  | zero => exact hR.refl _
  | succ d ih =>
    rw [traceFrom_succ, ← Nat.add_assoc]
    have hunits := ih fun j hij hj => hunit j hij (by omega)
    exact hR.trans hunits (hunit (i + d) (by omega) (by omega))

/-- A composable relation that has the run of every unit has the whole run. -/
theorem within_all (hR : Composable R)
    (hunit : ∀ j < n, R (e.state j) (e.trace j) (e.state (j + 1))) :
    R (e.state 0) e.fullTrace (e.state n) := by
  have h := e.within hR 0 n fun j _ hj => hunit j (by omega)
  rwa [Nat.zero_add] at h

theorem eq_of_untouched (f : σ → β) {i j : ℕ} (hij : i ≤ j) (hj : j ≤ n)
    (hstep : ∀ l, i ≤ l → l < j → ∀ s t s', step l s t s' → f s' = f s) :
    f (e.state j) = f (e.state i) := by
  have h := e.within (composable_eq f) i (j - i) fun l hil hl =>
    (e.run l (by omega)).within (composable_eq f) (hstep l hil (by omega))
  rwa [Nat.add_sub_cancel' hij] at h

/-- **What only unit `i` can change is constant before unit `i` and after it.** -/
theorem isolated (f : σ → β) (i : ℕ)
    (hstep : ∀ j < n, j ≠ i → ∀ s t s', step j s t s' → f s' = f s) :
    (∀ j ≤ i, j ≤ n → f (e.state j) = f (e.state 0)) ∧
      ∀ j, i < j → j ≤ n → f (e.state j) = f (e.state (i + 1)) := by
  constructor
  · intro j hji hjn
    exact e.eq_of_untouched f (Nat.zero_le j) hjn fun l _ hl => hstep l (by omega) (by omega)
  · intro j hij hjn
    exact e.eq_of_untouched f hij hjn fun l hil hl => hstep l (by omega) (by omega)

end Sequential

end TracedRun
