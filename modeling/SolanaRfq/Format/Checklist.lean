import SolanaRfq.Format.Fallible

/-!
# Checklists

A computation that checks some conditions in order fails with the error of the first one that does
not hold.

* `Condition`: a proposition, and the error if it fails; `Passes`, `FirstFailing`: how a list of
  conditions comes out; `passes_iff`: it passes or it has a first failing condition;
* `Checks`: a computation that fails as its list says; `Checks.ok`, `Checks.ite`: single steps;
* **`Checks.bind`**, **`Checks.forM`**, `Checks.mapM`: a chain or a loop checks the lists of its
  parts one after the other.
-/

namespace Checklist

open Fallible

variable {ε α β : Type}

/-! ## Lists of conditions -/

/-- A condition and the error of its failure. -/
structure Condition (ε : Type) where
  holds : Prop
  error : ε

/-- All conditions hold. -/
def Passes (cs : List (Condition ε)) : Prop := ∀ c ∈ cs, c.holds

/-- The error of the first condition that fails. -/
inductive FirstFailing : List (Condition ε) → ε → Prop
  | here {c : Condition ε} {cs : List (Condition ε)} : ¬ c.holds → FirstFailing (c :: cs) c.error
  | there {c : Condition ε} {cs : List (Condition ε)} {e : ε} :
      c.holds → FirstFailing cs e → FirstFailing (c :: cs) e

@[simp] theorem passes_nil : Passes ([] : List (Condition ε)) := List.forall_mem_nil _

@[simp] theorem passes_cons {c : Condition ε} {cs : List (Condition ε)} :
    Passes (c :: cs) ↔ c.holds ∧ Passes cs := List.forall_mem_cons

theorem not_firstFailing_nil {e : ε} : ¬ FirstFailing [] e := by
  rintro ⟨⟩

theorem firstFailing_cons_iff {c : Condition ε} {cs : List (Condition ε)} {e : ε} :
    FirstFailing (c :: cs) e ↔ ¬ c.holds ∧ c.error = e ∨ c.holds ∧ FirstFailing cs e := by
  constructor
  · intro h
    cases h with
    | here hfails => exact .inl ⟨hfails, rfl⟩
    | there hholds hrest => exact .inr ⟨hholds, hrest⟩
  · rintro (⟨hfails, rfl⟩ | ⟨hholds, hrest⟩)
    · exact .here hfails
    · exact .there hholds hrest

theorem firstFailing_append_iff {cs cs' : List (Condition ε)} {e : ε} :
    FirstFailing (cs ++ cs') e ↔ FirstFailing cs e ∨ Passes cs ∧ FirstFailing cs' e := by
  induction cs with
  | nil => simp [not_firstFailing_nil]
  | cons c cs ih =>
    rw [List.cons_append, firstFailing_cons_iff, firstFailing_cons_iff, ih, passes_cons]
    tauto

theorem firstFailing_singleton_iff {c : Condition ε} {e : ε} :
    FirstFailing [c] e ↔ ¬ c.holds ∧ c.error = e := by
  rw [firstFailing_cons_iff, or_iff_left fun h => not_firstFailing_nil h.2]

/-- Conditions on the items of a list, all with one error, are one condition on the list. -/
theorem firstFailing_map_iff {p : α → Prop} {xs : List α} {e e' : ε} :
    FirstFailing (xs.map fun x => ⟨p x, e⟩) e' ↔ FirstFailing [⟨∀ x ∈ xs, p x, e⟩] e' := by
  rw [firstFailing_singleton_iff]
  induction xs with
  | nil => simp [not_firstFailing_nil]
  | cons x xs ih =>
    rw [List.map_cons, firstFailing_cons_iff, ih, List.forall_mem_cons]
    tauto

/-- **A list passes exactly when it has no first failing condition.** -/
theorem passes_iff {cs : List (Condition ε)} : Passes cs ↔ ∀ e, ¬ FirstFailing cs e := by
  induction cs with
  | nil => simp [not_firstFailing_nil]
  | cons c cs ih =>
    rw [passes_cons]
    constructor
    · rintro ⟨hholds, hrest⟩ e h
      cases h with
      | here hfails => exact hfails hholds
      | there _ h => exact ih.mp hrest e h
    · intro h
      have hholds : c.holds := by_contra fun hfails => h _ (.here hfails)
      exact ⟨hholds, ih.mpr fun e he => h e (.there hholds he)⟩

/-! ## Computations -/

/-- The computation fails as the list of conditions says. -/
def Checks (x : Except ε α) (cs : List (Condition ε)) : Prop :=
  ∀ e, x = .error e ↔ FirstFailing cs e

namespace Checks

variable {x : Except ε α} {cs cs' : List (Condition ε)}

theorem exists_ok_iff (h : Checks x cs) : (∃ a, x = .ok a) ↔ Passes cs := by
  rw [passes_iff]
  constructor
  · rintro ⟨a, rfl⟩ e he
    cases (h e).mpr he
  · intro hnone
    cases x with
    | ok a => exact ⟨a, rfl⟩
    | error e => exact absurd ((h e).mp rfl) (hnone e)

theorem ok (a : α) : Checks (.ok a : Except ε α) [] := fun e =>
  iff_of_false (fun h => by cases h) not_firstFailing_nil

/-- **A chain checks the list of its first part, and then that of the rest.** -/
theorem bind {f : α → Except ε β} (hx : Checks x cs) (hf : ∀ a, x = .ok a → Checks (f a) cs') :
    Checks (x >>= f) (cs ++ cs') := by
  intro e
  rw [except_bind_eq_error, firstFailing_append_iff, hx e, ← hx.exists_ok_iff]
  refine or_congr Iff.rfl ⟨?_, ?_⟩
  · rintro ⟨a, ha, he⟩
    exact ⟨⟨a, ha⟩, (hf a ha e).mp he⟩
  · rintro ⟨⟨a, ha⟩, he⟩
    exact ⟨a, ha, (hf a ha e).mpr he⟩

theorem ite {p : Prop} [Decidable p] (e : ε) (a : α) :
    Checks (if p then .ok a else .error e) [⟨p, e⟩] := by
  intro e'
  rw [firstFailing_cons_iff]
  split_ifs with hp <;> simp [hp, not_firstFailing_nil]

theorem guard {p : Prop} [Decidable p] {e : ε} {f : PUnit → Except ε α} (h : Checks x cs) :
    Checks (if p then throw e >>= f else x) (⟨¬ p, e⟩ :: cs) := by
  intro e'
  rw [firstFailing_cons_iff, ← h e']
  split_ifs with hp
  · have hthrow : (throw e >>= f : Except ε α) = .error e := rfl
    simp [hp, hthrow]
  · simp [hp]

/-- **A loop of checks goes through the lists of its items.** -/
theorem forM {f : α → Except ε Unit} {cs : α → List (Condition ε)} (h : ∀ a, Checks (f a) (cs a))
    (xs : List α) : Checks (xs.forM f) (xs.flatMap cs) := by
  induction xs with
  | nil => exact .ok ()
  | cons a xs ih =>
    rw [List.forM, List.flatMap_cons]
    exact (h a).bind fun _ _ => ih

theorem mapM {f : α → Except ε β} {cs : α → List (Condition ε)} (h : ∀ a, Checks (f a) (cs a))
    (xs : List α) : Checks (xs.mapM f) (xs.flatMap cs) := by
  induction xs with
  | nil =>
    rw [List.mapM_nil]
    exact .ok []
  | cons a xs ih =>
    rw [List.mapM_cons, List.flatMap_cons]
    refine (h a).bind fun b _ => ?_
    have hrest := ih.bind fun bs _ => Checks.ok (ε := ε) (b :: bs)
    rwa [List.append_nil] at hrest

end Checks

end Checklist
