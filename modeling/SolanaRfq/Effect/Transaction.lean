import Mathlib.Logic.Basic
import Mathlib.Data.Prod.Basic

/-!
# Computations that change a state and can fail

Changes made before a failure stay in the state until a transaction throws them away.

* `outcome`: the result with the state at the end; `commit`: the state is kept only on success;
* `outcome_bind_ok`, `outcome_lift_bind_ok`: what a successful sequence did;
* `FailsClean p`: a failure with an error in `p` has changed nothing; `Avoids p`: there is none;
* **`FailsClean.guard`**: a guard in front keeps failures clean.
-/

namespace Transaction

variable {ε σ α β : Type}

/-- A computation over a state `σ` whose failures keep the state they fail in. -/
abbrev Effect (ε σ α : Type) : Type := ExceptT ε (StateM σ) α

/-- The result of a computation and the state it ends in. -/
def outcome (x : Effect ε σ α) (s : σ) : Except ε α × σ := (x.run.run s).run

/-- Keep the final state of a success, and the initial state of a failure. -/
def commit (x : Effect ε σ α) (s : σ) : Except ε α × σ :=
  match outcome x s with
  | (.ok a, s') => (.ok a, s')
  | (.error e, _) => (.error e, s)

/-! ## Sequences -/

theorem outcome_pure (a : α) (s : σ) : outcome (pure a : Effect ε σ α) s = (.ok a, s) := rfl

theorem outcome_bind (x : Effect ε σ α) (f : α → Effect ε σ β) (s : σ) :
    outcome (x >>= f) s = match outcome x s with
      | (.ok a, s') => outcome (f a) s'
      | (.error e, s') => (.error e, s') := by
  show (StateT.run (ExceptT.bindCont f (outcome x s).1) (outcome x s).2).run = _
  rcases outcome x s with ⟨e | a, s'⟩
  · rfl
  · rfl

theorem outcome_lift (g : Except ε α) (s : σ) : outcome (liftM g : Effect ε σ α) s = (g, s) := rfl

theorem outcome_bind_ok {x : Effect ε σ α} {f : α → Effect ε σ β} {s s' : σ} {b : β} :
    outcome (x >>= f) s = (.ok b, s') ↔
      ∃ a s₁, outcome x s = (.ok a, s₁) ∧ outcome (f a) s₁ = (.ok b, s') := by
  rw [outcome_bind]
  constructor
  · intro h
    rcases hx : outcome x s with ⟨e | a, s₁⟩
    · rw [hx] at h
      exact absurd (congrArg Prod.fst h) (by simp)
    · rw [hx] at h
      exact ⟨a, s₁, rfl, h⟩
  · rintro ⟨a, s₁, hx, hf⟩
    rw [hx]
    exact hf

theorem outcome_lift_bind_ok {g : Except ε α} {f : α → Effect ε σ β} {s s' : σ} {b : β} :
    outcome (liftM g >>= f) s = (.ok b, s') ↔ ∃ a, g = .ok a ∧ outcome (f a) s = (.ok b, s') := by
  rw [outcome_bind, outcome_lift]
  cases g with
  | error e => simp
  | ok a => simp

theorem outcome_lift_bind (g : Except ε α) (f : α → Effect ε σ β) (s : σ) :
    outcome (liftM g >>= f) s = match g with
      | .ok a => outcome (f a) s
      | .error e => (.error e, s) := by
  rw [outcome_bind, outcome_lift]
  cases g with
  | error e => rfl
  | ok a => rfl

theorem liftM_bind_eq (g : Except ε α) (f : α → Except ε β) :
    (liftM (g >>= f) : Effect ε σ β) = liftM g >>= fun a => liftM (f a) := by
  cases g with
  | error e => rfl
  | ok a => rfl

/-! ## Commits -/

theorem commit_of_error {x : Effect ε σ α} {s : σ} {e : ε} (h : (commit x s).1 = .error e) :
    (commit x s).2 = s := by
  unfold commit at h ⊢
  rcases hx : outcome x s with ⟨e' | b, s₁⟩
  · rfl
  · rw [hx] at h
    cases h

/-! ## Clean failures -/

variable {p : ε → Prop}

/-- A failure with an error in `p` has changed nothing. -/
def FailsClean (p : ε → Prop) (x : Effect ε σ α) : Prop :=
  ∀ s e s', outcome x s = (.error e, s') → p e → s' = s

/-- No failure has an error in `p`. -/
def Avoids (p : ε → Prop) (x : Effect ε σ α) : Prop :=
  ∀ s e s', outcome x s = (.error e, s') → ¬ p e

theorem Avoids.failsClean {x : Effect ε σ α} (h : Avoids p x) : FailsClean p x :=
  fun s e s' hx he => absurd he (h s e s' hx)

theorem Avoids.pure (a : α) : Avoids p (pure a : Effect ε σ α) := by
  intro s e s' h
  exact absurd (congrArg Prod.fst h) (by simp [outcome_pure])

theorem Avoids.bind {x : Effect ε σ α} {f : α → Effect ε σ β} (hx : Avoids p x)
    (hf : ∀ a, Avoids p (f a)) : Avoids p (x >>= f) := by
  intro s e s' h
  rw [outcome_bind] at h
  rcases hs : outcome x s with ⟨e' | a, s₁⟩
  · rw [hs] at h
    obtain ⟨rfl, rfl⟩ : e' = e ∧ s₁ = s' := by simpa using h
    exact hx s e' s₁ hs
  · rw [hs] at h
    exact hf a s₁ e s' h

/-- Behind a computation with clean failures nothing may fail with an error in `p`. -/
theorem FailsClean.bind {x : Effect ε σ α} {f : α → Effect ε σ β} (hx : FailsClean p x)
    (hf : ∀ a, Avoids p (f a)) : FailsClean p (x >>= f) := by
  intro s e s' h he
  rw [outcome_bind] at h
  rcases hs : outcome x s with ⟨e' | a, s₁⟩
  · rw [hs] at h
    obtain ⟨rfl, rfl⟩ : e' = e ∧ s₁ = s' := by simpa using h
    exact hx s e' s₁ hs he
  · rw [hs] at h
    exact absurd he (hf a s₁ e s' h)

/-- **A guard in front keeps failures clean.** -/
theorem FailsClean.guard {g : Except ε α} {f : α → Effect ε σ β}
    (hf : ∀ a, FailsClean p (f a)) : FailsClean p (liftM g >>= f) := by
  intro s e s' h he
  rw [outcome_bind, outcome_lift] at h
  cases g with
  | error e' => exact (congrArg Prod.snd h).symm
  | ok a => exact hf a s e s' h he

end Transaction
