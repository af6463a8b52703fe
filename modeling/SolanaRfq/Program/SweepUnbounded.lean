import SolanaRfq.Program.SweepExact

/-!
# The arithmetic of the sweep

Two variants of the sweep, to be compared with the one of the program.

* `sweepGuarded`, `assertSortedGuarded`: every defensive operation fails with a fault of its own;
  `sweepGuarded_eq`, `assertSortedGuarded_eq`: no fault is ever reached;
* `sweepNat`: the sweep over unbounded integers, with the running outputs it goes through;
* `AgreesNat`: a walk against an unbounded one; **`sweepLoop_nat`**: they agree;
* **`sweep_overflow_exact`**: the sweep overflows exactly when a running output does, and agrees with
  the unbounded one otherwise.
-/

namespace SolanaRfq

open Fallible

variable {side : Side}

/-! ## Defensive operations -/

/-- What a defensive operation guards against. -/
inductive SweepFault where
  | productAboveU128
  | divisionByZero
  | subtractionBelowZero
  | partialNotBelowLevel
  | partialAboveU64
deriving DecidableEq, Repr

/-- A computation that tells faults from errors of the program. -/
abbrev Guarded (α : Type) : Type := Except (SweepFault ⊕ ProgramError) α

/-- A guard with a fault of its own. -/
def guardFault (p : Prop) [Decidable p] (fault : SweepFault) : Guarded Unit :=
  if p then .ok () else .error (.inl fault)

/-- A computation without faults. -/
def faultless {α : Type} (x : Except ProgramError α) : Guarded α := x.mapError .inr

/-- The order check, with a guard on each product. -/
def assertSortedGuarded (expected : Ordering) : List Level → Guarded Unit
  | a :: b :: levels => do
    guardFault (a.quoteAtoms.toNat * b.baseAtoms.toNat < 2 ^ 128) .productAboveU128
    guardFault (b.quoteAtoms.toNat * a.baseAtoms.toNat < 2 ^ 128) .productAboveU128
    faultless (require (compare (mulU128 a.quoteAtoms b.baseAtoms)
      (mulU128 b.quoteAtoms a.baseAtoms) = expected) .invalidLevelOrdering)
    assertSortedGuarded expected (b :: levels)
  | _ => .ok ()

/-- The walk, with a guard on each operation. -/
def sweepLoopGuarded (side : Side) : List Level → UInt64 → UInt64 → Guarded (UInt64 × UInt64)
  | [], remaining, out => .ok (remaining, out)
  | level :: levels, remaining, out =>
    if remaining = 0 then .ok (remaining, out)
    else do
      faultless (require (level.baseAtoms > 0 ∧ level.quoteAtoms > 0) .degenerateLevelEntry)
      if remaining ≥ level.inAtoms side then
        guardFault (level.inAtoms side ≤ remaining) .subtractionBelowZero
        let out ← faultless (checkedAdd out (level.outAtoms side))
        sweepLoopGuarded side levels (remaining - level.inAtoms side) out
      else
        guardFault (remaining.toNat * (level.outAtoms side).toNat < 2 ^ 128) .productAboveU128
        guardFault (level.inAtoms side ≠ 0) .divisionByZero
        let partialOut := partialOutAtoms side remaining level
        guardFault (partialOut < (level.outAtoms side).toNat) .partialNotBelowLevel
        guardFault (partialOut ≤ 2 ^ 64 - 1) .partialAboveU64
        faultless (require (partialOut > 0) .insufficientLiquidity)
        let out ← faultless (checkedAdd out (UInt64.ofNat partialOut))
        return (0, out)

def sweepGuarded (side : Side) (amountIn minOutAtoms : UInt64) (levels : List Level) :
    Guarded UInt64 := do
  let (remaining, out) ← sweepLoopGuarded side levels amountIn 0
  faultless (require (remaining = 0) .insufficientLiquidity)
  faultless (require (out ≥ minOutAtoms) .slippageExceeded)
  return out

theorem faultless_bind {α β : Type} (x : Except ProgramError α) (f : α → Except ProgramError β) :
    faultless (x >>= f) = faultless x >>= fun a => faultless (f a) := by
  cases x <;> rfl

theorem guardFault_bind {α : Type} {p : Prop} [Decidable p] (h : p) (fault : SweepFault)
    (f : Unit → Guarded α) : guardFault p fault >>= f = f () := by
  rw [guardFault, if_pos h]
  rfl

theorem mul_lt_u128 (x y : UInt64) : x.toNat * y.toNat < 2 ^ 128 :=
  calc x.toNat * y.toNat < 2 ^ 64 * 2 ^ 64 := Nat.mul_lt_mul'' x.toNat_lt y.toNat_lt
    _ = 2 ^ 128 := by norm_num

/-- **No product of the order check exceeds a `u128`.** -/
theorem assertSortedGuarded_eq (expected : Ordering) (levels : List Level) :
    assertSortedGuarded expected levels = faultless (assertSorted expected levels) := by
  induction levels with
  | nil => rfl
  | cons a levels ih =>
    cases levels with
    | nil => rfl
    | cons b levels =>
      rw [assertSortedGuarded, guardFault_bind (mul_lt_u128 _ _), guardFault_bind (mul_lt_u128 _ _),
        ih, assertSorted, faultless_bind]

/-- **No operation of the walk reaches its fault.** -/
theorem sweepLoopGuarded_eq (levels : List Level) (remaining out : UInt64) :
    sweepLoopGuarded side levels remaining out = faultless (sweepLoop side levels remaining out) := by
  induction levels generalizing remaining out with
  | nil => rfl
  | cons l levels ih =>
    by_cases h0 : remaining = 0
    · subst h0
      rw [sweepLoop_zero]
      exact if_pos rfl
    · rw [sweepLoopGuarded, if_neg h0]
      by_cases hle : l.inAtoms side ≤ remaining
      · rw [sweepLoop_full h0 hle, faultless_bind]
        refine bind_congr fun _ => ?_
        rw [if_pos hle, guardFault_bind hle, faultless_bind]
        exact bind_congr fun out' => ih _ out'
      · rw [sweepLoop_part h0 hle]
        by_cases hpos : l.baseAtoms > 0 ∧ l.quoteAtoms > 0
        · obtain ⟨hin, hout⟩ := (level_pos_iff side l).mp hpos
          have hbelow := partialOutAtoms_lt hle hout
          have hmax := partialOutAtoms_le_max hle hout
          have hdiv : l.inAtoms side ≠ 0 := fun h => by simp [h] at hin
          rw [require_bind_of_pos hpos, require_bind_of_pos hmax, require, if_pos hpos, faultless_bind]
          show (if remaining ≥ l.inAtoms side then _ else _) = _
          rw [if_neg hle, guardFault_bind (mul_lt_u128 _ _), guardFault_bind hdiv,
            guardFault_bind hbelow, guardFault_bind hmax]
          refine bind_congr fun _ => ?_
          rw [faultless_bind]
          rfl
        · rw [require_bind_of_neg hpos, require, if_neg hpos]
          rfl

/-- **No operation of the sweep reaches its fault.** -/
theorem sweepGuarded_eq (side : Side) (amountIn minOutAtoms : UInt64) (levels : List Level) :
    sweepGuarded side amountIn minOutAtoms levels =
      faultless (sweep side amountIn minOutAtoms levels) := by
  rw [sweepGuarded, sweep, sweepLoopGuarded_eq, faultless_bind]
  refine bind_congr fun p => ?_
  rw [faultless_bind]
  refine bind_congr fun _ => ?_
  rw [faultless_bind]
  rfl

/-! ## Unbounded integers -/

/-- The walk over unbounded integers: the running outputs it goes through, in order, and how it
ends. -/
def sweepLoopNat (side : Side) : List Level → ℕ → ℕ → List ℕ × Except ProgramError (ℕ × ℕ)
  | [], remaining, out => ([], .ok (remaining, out))
  | level :: levels, remaining, out =>
    if remaining = 0 then ([], .ok (remaining, out))
    else if ¬ (level.baseAtoms > 0 ∧ level.quoteAtoms > 0) then
      ([], .error (.code .degenerateLevelEntry))
    else if remaining ≥ (level.inAtoms side).toNat then
      let out := out + (level.outAtoms side).toNat
      let run := sweepLoopNat side levels (remaining - (level.inAtoms side).toNat) out
      (out :: run.1, run.2)
    else
      let partialOut := remaining * (level.outAtoms side).toNat / (level.inAtoms side).toNat
      if partialOut = 0 then ([], .error (.code .insufficientLiquidity))
      else ([out + partialOut], .ok (0, out + partialOut))

/-- The sweep over unbounded integers, with its running outputs. -/
def sweepNat (side : Side) (amountIn minOutAtoms : ℕ) (levels : List Level) :
    List ℕ × Except ProgramError ℕ :=
  let run := sweepLoopNat side levels amountIn 0
  (run.1, do
    let (remaining, out) ← run.2
    require (remaining = 0) .insufficientLiquidity
    require (out ≥ minOutAtoms) .slippageExceeded
    return out)

/-- A running output leaves the `u64` range. -/
def LeavesU64 (outs : List ℕ) : Prop := ∃ out ∈ outs, 2 ^ 64 - 1 < out

@[simp] theorem leavesU64_nil : ¬ LeavesU64 [] := by simp [LeavesU64]

@[simp] theorem leavesU64_cons (out : ℕ) (outs : List ℕ) :
    LeavesU64 (out :: outs) ↔ 2 ^ 64 - 1 < out ∨ LeavesU64 outs := by
  simp [LeavesU64]

/-- The remaining amount and the output, as integers. -/
def toNatPair (p : UInt64 × UInt64) : ℕ × ℕ := (p.1.toNat, p.2.toNat)

theorem checkedAdd_of_le {x y : UInt64} (h : x.toNat + y.toNat ≤ 2 ^ 64 - 1) :
    checkedAdd x y = .ok (x + y) ∧ (x + y).toNat = x.toNat + y.toNat := by
  have hlt : x.toNat + y.toNat < 2 ^ 64 := Nat.lt_succ_of_le h
  rw [checkedAdd, if_pos hlt, UInt64.toNat_add, Nat.mod_eq_of_lt hlt]
  exact ⟨rfl, rfl⟩

theorem checkedAdd_of_lt {x y : UInt64} (h : 2 ^ 64 - 1 < x.toNat + y.toNat) :
    checkedAdd x y = .error (.code .overflow) :=
  if_neg (by omega)

/-! ## One turn -/

theorem sweepLoopNat_zero (levels : List Level) (out : ℕ) :
    sweepLoopNat side levels 0 out = ([], .ok (0, out)) := by
  cases levels with
  | nil => rfl
  | cons l levels => exact if_pos rfl

theorem sweepLoopNat_degenerate {l : Level} {levels : List Level} {remaining out : ℕ}
    (h0 : remaining ≠ 0) (hpos : ¬ (l.baseAtoms > 0 ∧ l.quoteAtoms > 0)) :
    sweepLoopNat side (l :: levels) remaining out =
      ([], .error (.code .degenerateLevelEntry)) := by
  rw [sweepLoopNat, if_neg h0, if_pos hpos]

theorem sweepLoopNat_full {l : Level} {levels : List Level} {remaining out : ℕ}
    (h0 : remaining ≠ 0) (hpos : l.baseAtoms > 0 ∧ l.quoteAtoms > 0)
    (hle : (l.inAtoms side).toNat ≤ remaining) :
    sweepLoopNat side (l :: levels) remaining out =
      ((out + (l.outAtoms side).toNat) :: (sweepLoopNat side levels
          (remaining - (l.inAtoms side).toNat) (out + (l.outAtoms side).toNat)).1,
        (sweepLoopNat side levels (remaining - (l.inAtoms side).toNat)
          (out + (l.outAtoms side).toNat)).2) := by
  rw [sweepLoopNat, if_neg h0, if_neg (not_not.mpr hpos), if_pos hle]

theorem sweepLoopNat_part {l : Level} {levels : List Level} {remaining out : ℕ}
    (h0 : remaining ≠ 0) (hpos : l.baseAtoms > 0 ∧ l.quoteAtoms > 0)
    (hlt : ¬ (l.inAtoms side).toNat ≤ remaining) :
    sweepLoopNat side (l :: levels) remaining out =
      if remaining * (l.outAtoms side).toNat / (l.inAtoms side).toNat = 0 then
        ([], .error (.code .insufficientLiquidity))
      else ([out + remaining * (l.outAtoms side).toNat / (l.inAtoms side).toNat],
        .ok (0, out + remaining * (l.outAtoms side).toNat / (l.inAtoms side).toNat)) := by
  rw [sweepLoopNat, if_neg h0, if_neg (not_not.mpr hpos), if_neg hlt]

theorem sweepLoopNat_ne_overflow (levels : List Level) (remaining out : ℕ) :
    (sweepLoopNat side levels remaining out).2 ≠ .error (.code .overflow) := by
  induction levels generalizing remaining out with
  | nil => simp [sweepLoopNat]
  | cons l levels ih =>
    by_cases h0 : remaining = 0
    · rw [h0, sweepLoopNat_zero]
      simp
    by_cases hpos : l.baseAtoms > 0 ∧ l.quoteAtoms > 0
    · by_cases hle : (l.inAtoms side).toNat ≤ remaining
      · rw [sweepLoopNat_full h0 hpos hle]
        exact ih _ _
      · rw [sweepLoopNat_part h0 hpos hle]
        split_ifs <;> simp
    · rw [sweepLoopNat_degenerate h0 hpos]
      simp

/-! ## Comparison -/

/-- The walk `x` of the program against an unbounded one: it overflows when a running output leaves
the `u64` range, and otherwise ends as the unbounded one. -/
structure AgreesNat (x : Except ProgramError (UInt64 × UInt64))
    (run : List ℕ × Except ProgramError (ℕ × ℕ)) : Prop where
  overflow : LeavesU64 run.1 → x = .error (.code .overflow)
  result : ¬ LeavesU64 run.1 → x.map toNatPair = run.2

theorem AgreesNat.of_nil {x : Except ProgramError (UInt64 × UInt64)}
    {r : Except ProgramError (ℕ × ℕ)} (h : x.map toNatPair = r) : AgreesNat x ([], r) :=
  ⟨fun hleaves => absurd hleaves leavesU64_nil, fun _ => h⟩

theorem AgreesNat.checkedAdd {out d : UInt64}
    {f : UInt64 → Except ProgramError (UInt64 × UInt64)} {outs : List ℕ}
    {r : Except ProgramError (ℕ × ℕ)}
    (h : ∀ out₁ : UInt64, out₁.toNat = out.toNat + d.toNat → AgreesNat (f out₁) (outs, r)) :
    AgreesNat (SolanaRfq.checkedAdd out d >>= f) ((out.toNat + d.toNat) :: outs, r) := by
  by_cases hmax : 2 ^ 64 - 1 < out.toNat + d.toNat
  · rw [checkedAdd_of_lt hmax]
    exact ⟨fun _ => rfl, fun hstays => absurd ((leavesU64_cons _ _).mpr (.inl hmax)) hstays⟩
  · obtain ⟨hadd, hsum⟩ := checkedAdd_of_le (not_lt.mp hmax)
    have hrest := h _ hsum
    rw [hadd]
    refine ⟨fun hleaves => hrest.overflow ?_, fun hstays => hrest.result fun hleaves => ?_⟩
    · exact ((leavesU64_cons _ _).mp hleaves).resolve_left hmax
    · exact hstays ((leavesU64_cons _ _).mpr (.inr hleaves))

/-- **The walk agrees with the unbounded one.** -/
theorem sweepLoop_nat (levels : List Level) (remaining out : UInt64) :
    AgreesNat (sweepLoop side levels remaining out)
      (sweepLoopNat side levels remaining.toNat out.toNat) := by
  induction levels generalizing remaining out with
  | nil => exact .of_nil rfl
  | cons l levels ih =>
    by_cases h0 : remaining = 0
    · subst h0
      rw [UInt64.toNat_zero, sweepLoopNat_zero, sweepLoop_zero]
      exact .of_nil rfl
    have h0' : remaining.toNat ≠ 0 := (toNat_pos_of_ne_zero h0).ne'
    by_cases hpos : l.baseAtoms > 0 ∧ l.quoteAtoms > 0
    · by_cases hle : l.inAtoms side ≤ remaining
      · rw [sweepLoopNat_full h0' hpos (UInt64.le_iff_toNat_le.mp hle), sweepLoop_full h0 hle,
          require_bind_of_pos hpos]
        refine .checkedAdd fun out₁ hsum => ?_
        rw [← hsum, ← UInt64.toNat_sub_of_le _ _ hle]
        exact ih _ out₁
      · have hlt : ¬ (l.inAtoms side).toNat ≤ remaining.toNat := fun h =>
          hle (UInt64.le_iff_toNat_le.mpr h)
        have hmax := partialOutAtoms_le_max hle ((level_pos_iff side l).mp hpos).2
        have hcast : (UInt64.ofNat (partialOutAtoms side remaining l)).toNat =
            partialOutAtoms side remaining l :=
          UInt64.toNat_ofNat_of_lt' (Nat.lt_succ_of_le hmax)
        rw [sweepLoopNat_part h0' hpos hlt, sweepLoop_part h0 hle, require_bind_of_pos hpos,
          require_bind_of_pos hmax, ← partialOutAtoms_eq]
        by_cases hzero : partialOutAtoms side remaining l = 0
        · rw [if_pos hzero, require_bind_of_neg (by omega)]
          exact .of_nil rfl
        · rw [if_neg hzero, require_bind_of_pos (Nat.pos_of_ne_zero hzero), ← hcast,
            UInt64.ofNat_toNat]
          refine .checkedAdd fun out₁ hsum => .of_nil ?_
          rw [← hsum]
          rfl
    · rw [sweepLoopNat_degenerate h0' hpos]
      refine .of_nil ?_
      by_cases hle : l.inAtoms side ≤ remaining
      · rw [sweepLoop_full h0 hle, require_bind_of_neg hpos]
        rfl
      · rw [sweepLoop_part h0 hle, require_bind_of_neg hpos]
        rfl

theorem map_require_bind {α β : Type} {p q : Prop} [Decidable p] [Decidable q] (h : p ↔ q)
    (code : ErrorCode) (x : Except ProgramError α) (f : α → β) :
    (require p code >>= fun _ => x).map f = require q code >>= fun _ => x.map f := by
  by_cases hp : p
  · rw [require_bind_of_pos hp, require_bind_of_pos (h.mp hp)]
  · rw [require_bind_of_neg hp, require_bind_of_neg (mt h.mpr hp)]
    rfl

theorem sweep_finish {amountIn minOutAtoms : UInt64} {levels : List Level}
    (h : (sweepLoop side levels amountIn 0).map toNatPair =
      (sweepLoopNat side levels amountIn.toNat 0).2) :
    (sweep side amountIn minOutAtoms levels).map UInt64.toNat =
      (sweepNat side amountIn.toNat minOutAtoms.toNat levels).2 := by
  unfold sweep sweepNat
  dsimp only
  rw [← h]
  cases sweepLoop side levels amountIn 0 with
  | error e => rfl
  | ok p =>
    obtain ⟨remaining, out⟩ := p
    have hzero : remaining = 0 ↔ remaining.toNat = 0 := UInt64.toNat_inj.symm
    have hmin : out ≥ minOutAtoms ↔ out.toNat ≥ minOutAtoms.toNat := UInt64.le_iff_toNat_le
    show Except.map UInt64.toNat (require (remaining = 0) .insufficientLiquidity >>= fun _ =>
        require (out ≥ minOutAtoms) .slippageExceeded >>= fun _ => pure out) = _
    rw [map_require_bind hzero, map_require_bind hmin]
    rfl

theorem sweepNat_ne_overflow (amountIn minOutAtoms : ℕ) (levels : List Level) :
    (sweepNat side amountIn minOutAtoms levels).2 ≠ .error (.code .overflow) := by
  unfold sweepNat
  dsimp only
  cases h : (sweepLoopNat side levels amountIn 0).2 with
  | error e =>
    intro herr
    have he : e = .code .overflow := Except.error.inj herr
    exact sweepLoopNat_ne_overflow levels amountIn 0 (h.trans (congrArg _ he))
  | ok p =>
    show require (p.1 = 0) .insufficientLiquidity >>= _ ≠ _
    by_cases h0 : p.1 = 0
    · rw [require_bind_of_pos h0]
      by_cases hmin : p.2 ≥ minOutAtoms
      · rw [require_bind_of_pos hmin]
        simp [pure, Except.pure]
      · rw [require_bind_of_neg hmin]
        simp
    · rw [require_bind_of_neg h0]
      simp

/-- **No operation of the sweep reaches its fault; it overflows exactly when a running output leaves
the `u64` range, and otherwise agrees with the sweep over unbounded integers.** -/
theorem sweep_overflow_exact (side : Side) (amountIn minOutAtoms : UInt64) (levels : List Level) :
    (∀ expected, assertSortedGuarded expected levels = faultless (assertSorted expected levels)) ∧
    sweepGuarded side amountIn minOutAtoms levels =
      faultless (sweep side amountIn minOutAtoms levels) ∧
    (sweep side amountIn minOutAtoms levels = .error (.code .overflow) ↔
      LeavesU64 (sweepNat side amountIn.toNat minOutAtoms.toNat levels).1) ∧
    (sweep side amountIn minOutAtoms levels ≠ .error (.code .overflow) →
      (sweep side amountIn minOutAtoms levels).map UInt64.toNat =
        (sweepNat side amountIn.toNat minOutAtoms.toNat levels).2) := by
  have hwalk := @sweepLoop_nat side levels amountIn 0
  rw [UInt64.toNat_zero] at hwalk
  have hagree (h : ¬ LeavesU64 (sweepNat side amountIn.toNat minOutAtoms.toNat levels).1) :
      (sweep side amountIn minOutAtoms levels).map UInt64.toNat =
        (sweepNat side amountIn.toNat minOutAtoms.toNat levels).2 := sweep_finish (hwalk.result h)
  have hoverflow (h : LeavesU64 (sweepNat side amountIn.toNat minOutAtoms.toNat levels).1) :
      sweep side amountIn minOutAtoms levels = .error (.code .overflow) := by
    rw [sweep, hwalk.overflow h]
    rfl
  refine ⟨fun expected => assertSortedGuarded_eq expected levels,
    sweepGuarded_eq side amountIn minOutAtoms levels, ⟨fun herr => ?_, hoverflow⟩, fun hne => ?_⟩
  · by_contra hno
    have h := hagree hno
    rw [herr] at h
    exact sweepNat_ne_overflow _ _ _ h.symm
  · exact hagree fun h => hne (hoverflow h)

/-- Two levels whose outputs exceed a `u64` together. -/
example : sweep .bid 200 0 [⟨2 ^ 64 - 1, 100⟩, ⟨1, 100⟩] = .error (.code .overflow) := by
  decide +kernel

end SolanaRfq
