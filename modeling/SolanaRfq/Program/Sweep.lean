import SolanaRfq.Format.Fallible
import SolanaRfq.Program.Types
import Mathlib.Data.List.Chain
import Mathlib.Order.Compare

/-!
# The sweep

`programs/solana-rfq-v2/src/sweep.rs`: the order check of a ladder and the walk that fills an
amount from it. A bid spends quote atoms for base atoms, an ask base atoms for quote atoms; the two
walks of the source differ in nothing else.

* `assertSorted`, `assertSortedBid`, `assertSortedAsk`: the order check;
* `sweep`, `sweepBid`, `sweepAsk`: the walk; `touched`: the levels it visits;
* **`assertSortedFor_eq_ok_iff`**: the check accepts exactly the ladders of strictly falling rates;
* **`assertSorted_global`**: comparing neighbours orders all pairs, with zeros at the ends only.
-/

namespace SolanaRfq

open Fallible

/-- The product of two `u64` as a `u128`. -/
def mulU128 (x y : UInt64) : ℕ := x.toNat * y.toNat % 2 ^ 128

/-- `checked_sub`. -/
def checkedSub (x y : UInt64) : Except ProgramError UInt64 :=
  if y ≤ x then .ok (x - y) else .error (.code .overflow)

/-- `checked_add`. -/
def checkedAdd (x y : UInt64) : Except ProgramError UInt64 :=
  if x.toNat + y.toNat < 2 ^ 64 then .ok (x + y) else .error (.code .overflow)

/-! ## The order check -/

/-- The windows of two levels must compare as expected. -/
def assertSorted (expected : Ordering) : List Level → Except ProgramError Unit
  | a :: b :: levels => do
    let lhs := mulU128 a.quoteAtoms b.baseAtoms
    let rhs := mulU128 b.quoteAtoms a.baseAtoms
    require (compare lhs rhs = expected) .invalidLevelOrdering
    assertSorted expected (b :: levels)
  | _ => .ok ()

/-- Base per quote falls from level to level. -/
def assertSortedBid (levels : List Level) : Except ProgramError Unit := assertSorted .lt levels

/-- Quote per base falls from level to level. -/
def assertSortedAsk (levels : List Level) : Except ProgramError Unit := assertSorted .gt levels

/-- The order check of a side. -/
def assertSortedFor : Side → List Level → Except ProgramError Unit
  | .bid => assertSortedBid
  | .ask => assertSortedAsk

/-! ## The walk -/

/-- What the taker pays in: quote for a bid, base for an ask. -/
def Level.inAtoms (side : Side) (level : Level) : UInt64 :=
  match side with
  | .bid => level.quoteAtoms
  | .ask => level.baseAtoms

/-- What the taker receives: base for a bid, quote for an ask. -/
def Level.outAtoms (side : Side) (level : Level) : UInt64 :=
  match side with
  | .bid => level.baseAtoms
  | .ask => level.quoteAtoms

/-- The output of a partially filled level, rounded down. -/
def partialOutAtoms (side : Side) (inAtoms : UInt64) (level : Level) : ℕ :=
  mulU128 inAtoms (level.outAtoms side) / (level.inAtoms side).toNat

def bidPartialOutAtoms (quoteInAtoms : UInt64) (level : Level) : ℕ :=
  partialOutAtoms .bid quoteInAtoms level

def askPartialOutAtoms (baseInAtoms : UInt64) (level : Level) : ℕ :=
  partialOutAtoms .ask baseInAtoms level

/-- The loop over the levels, from `remaining` and `out`; it returns both. -/
def sweepLoop (side : Side) : List Level → UInt64 → UInt64 → Except ProgramError (UInt64 × UInt64)
  | [], remaining, out => .ok (remaining, out)
  | level :: levels, remaining, out =>
    if remaining = 0 then .ok (remaining, out)
    else do
      require (level.baseAtoms > 0 ∧ level.quoteAtoms > 0) .degenerateLevelEntry
      if remaining ≥ level.inAtoms side then
        let remaining ← checkedSub remaining (level.inAtoms side)
        let out ← checkedAdd out (level.outAtoms side)
        sweepLoop side levels remaining out
      else
        let partialOut := partialOutAtoms side remaining level
        require (partialOut ≤ 2 ^ 64 - 1) .overflow
        require (partialOut > 0) .insufficientLiquidity
        let out ← checkedAdd out (UInt64.ofNat partialOut)
        return (0, out)

/-- The walk over the levels, and the checks behind it. -/
def sweep (side : Side) (amountIn minOutAtoms : UInt64) (levels : List Level) :
    Except ProgramError UInt64 := do
  let (remaining, out) ← sweepLoop side levels amountIn 0
  require (remaining = 0) .insufficientLiquidity
  require (out ≥ minOutAtoms) .slippageExceeded
  return out

def sweepBid (amountIn minOutAtoms : UInt64) (levels : List Level) : Except ProgramError UInt64 :=
  sweep .bid amountIn minOutAtoms levels

def sweepAsk (amountIn minOutAtoms : UInt64) (levels : List Level) : Except ProgramError UInt64 :=
  sweep .ask amountIn minOutAtoms levels

/-- The levels the loop visits with something left to spend. -/
def touched (side : Side) : List Level → UInt64 → List Level
  | [], _ => []
  | level :: levels, remaining =>
    if remaining = 0 then []
    else if remaining ≥ level.inAtoms side then
      level :: touched side levels (remaining - level.inAtoms side)
    else [level]

example : sweepBid 150 1 [⟨10, 100⟩, ⟨10, 110⟩] = .ok 14 := by decide

/-! ## Arithmetic -/

theorem mulU128_eq (x y : UInt64) : mulU128 x y = x.toNat * y.toNat := by
  have hx := x.toNat_lt
  have hy := y.toNat_lt
  refine Nat.mod_eq_of_lt ?_
  calc x.toNat * y.toNat < 2 ^ 64 * 2 ^ 64 := Nat.mul_lt_mul'' hx hy
    _ = 2 ^ 128 := by norm_num

theorem partialOutAtoms_eq (side : Side) (x : UInt64) (level : Level) :
    partialOutAtoms side x level =
      x.toNat * (level.outAtoms side).toNat / (level.inAtoms side).toNat := by
  rw [partialOutAtoms, mulU128_eq]

theorem checkedAdd_eq_ok_iff {x y z : UInt64} :
    checkedAdd x y = .ok z ↔ z.toNat = x.toNat + y.toNat := by
  have hz := z.toNat_lt
  unfold checkedAdd
  split_ifs with h
  · rw [Except.ok.injEq, ← UInt64.toNat_inj, UInt64.toNat_add, Nat.mod_eq_of_lt h, eq_comm]
  · constructor
    · simp
    · intro hsum
      omega

theorem level_pos_iff (side : Side) (level : Level) :
    (level.baseAtoms > 0 ∧ level.quoteAtoms > 0) ↔
      0 < (level.inAtoms side).toNat ∧ 0 < (level.outAtoms side).toNat := by
  have hpos (x : UInt64) : x > 0 ↔ 0 < x.toNat := UInt64.lt_iff_toNat_lt
  cases side with
  | bid => rw [hpos, hpos, and_comm]; rfl
  | ask => rw [hpos, hpos]; rfl

/-! ## The order check is an order -/

/-- The rate of `a` is strictly better than the rate of `b`. -/
def RateGt (side : Side) (a b : Level) : Prop :=
  (a.inAtoms side).toNat * (b.outAtoms side).toNat <
    (b.inAtoms side).toNat * (a.outAtoms side).toNat

theorem RateGt.inAtoms_pos {side : Side} {a b : Level} (h : RateGt side a b) :
    0 < (b.inAtoms side).toNat := by
  refine Nat.pos_of_ne_zero fun h0 => ?_
  simp [RateGt, h0] at h

theorem RateGt.outAtoms_pos {side : Side} {a b : Level} (h : RateGt side a b) :
    0 < (a.outAtoms side).toNat := by
  refine Nat.pos_of_ne_zero fun h0 => ?_
  simp [RateGt, h0] at h

/-- The order of rates chains through any level: between two others it has no zero. -/
theorem RateGt.trans {side : Side} {a b c : Level} (hab : RateGt side a b)
    (hbc : RateGt side b c) : RateGt side a c := by
  have hpos : 0 < (b.inAtoms side).toNat * (b.outAtoms side).toNat :=
    Nat.mul_pos hab.inAtoms_pos hbc.outAtoms_pos
  unfold RateGt at *
  refine lt_of_mul_lt_mul_right ?_ (Nat.zero_le ((b.inAtoms side).toNat * (b.outAtoms side).toNat))
  calc (a.inAtoms side).toNat * (c.outAtoms side).toNat *
        ((b.inAtoms side).toNat * (b.outAtoms side).toNat)
      = (a.inAtoms side).toNat * (b.outAtoms side).toNat *
        ((b.inAtoms side).toNat * (c.outAtoms side).toNat) := by ring
    _ < (b.inAtoms side).toNat * (a.outAtoms side).toNat *
        ((c.inAtoms side).toNat * (b.outAtoms side).toNat) := Nat.mul_lt_mul'' hab hbc
    _ = (c.inAtoms side).toNat * (a.outAtoms side).toNat *
        ((b.inAtoms side).toNat * (b.outAtoms side).toNat) := by ring

instance (side : Side) : IsTrans Level (RateGt side) := ⟨fun _ _ _ => RateGt.trans⟩

theorem assertSortedFor_cons_cons (side : Side) (a b : Level) (levels : List Level) :
    assertSortedFor side (a :: b :: levels) = .ok () ↔
      RateGt side a b ∧ assertSortedFor side (b :: levels) = .ok () := by
  cases side with
  | bid =>
    simp only [assertSortedFor, assertSortedBid, assertSorted, require_bind_eq_ok, mulU128_eq,
      compare_lt_iff_lt]
    exact Iff.rfl
  | ask =>
    simp only [assertSortedFor, assertSortedAsk, assertSorted, require_bind_eq_ok, mulU128_eq,
      compare_gt_iff_gt]
    rw [RateGt, mul_comm (a.inAtoms .ask).toNat, mul_comm (b.inAtoms .ask).toNat]
    exact Iff.rfl

/-- **The check accepts exactly the ladders whose rates strictly fall.** -/
theorem assertSortedFor_eq_ok_iff (side : Side) (levels : List Level) :
    assertSortedFor side levels = .ok () ↔ levels.Pairwise (RateGt side) := by
  rw [← List.isChain_iff_pairwise]
  induction levels with
  | nil => cases side <;> simp [assertSortedFor, assertSortedBid, assertSortedAsk, assertSorted]
  | cons a levels ih =>
    cases levels with
    | nil => cases side <;> simp [assertSortedFor, assertSortedBid, assertSortedAsk, assertSorted]
    | cons b levels => rw [assertSortedFor_cons_cons, ih, List.isChain_cons_cons]

theorem assertSortedFor_eq_ok_iff_getElem (side : Side) (levels : List Level) :
    assertSortedFor side levels = .ok () ↔
      ∀ (i j : ℕ) (hi : i < levels.length) (hj : j < levels.length), i < j →
        RateGt side levels[i] levels[j] := by
  rw [assertSortedFor_eq_ok_iff, List.pairwise_iff_getElem]

/-- Only the first level may have no input, and only the last one no output. -/
theorem zero_atoms_at_ends {side : Side} {levels : List Level}
    (h : assertSortedFor side levels = .ok ()) (i : ℕ) (hi : i < levels.length) :
    (levels[i].inAtoms side = 0 → i = 0) ∧
      (levels[i].outAtoms side = 0 → i + 1 = levels.length) := by
  rw [assertSortedFor_eq_ok_iff_getElem] at h
  constructor
  · intro h0
    by_contra hne
    have hpos := (h 0 i (by omega) hi (by omega)).inAtoms_pos
    rw [h0] at hpos
    exact lt_irrefl 0 hpos
  · intro h0
    by_contra hne
    have hpos := (h i (i + 1) hi (by omega) (by omega)).outAtoms_pos
    rw [h0] at hpos
    exact lt_irrefl 0 hpos

/-- **Comparing neighbours orders the whole ladder**, zero amounts included, and zeros can only
stand at its ends. -/
theorem assertSorted_global (levels : List Level) :
    (assertSortedBid levels = .ok () ↔
      ∀ (i j : ℕ) (hi : i < levels.length) (hj : j < levels.length), i < j →
        levels[i].quoteAtoms.toNat * levels[j].baseAtoms.toNat <
          levels[j].quoteAtoms.toNat * levels[i].baseAtoms.toNat) ∧
    (assertSortedAsk levels = .ok () ↔
      ∀ (i j : ℕ) (hi : i < levels.length) (hj : j < levels.length), i < j →
        levels[i].quoteAtoms.toNat * levels[j].baseAtoms.toNat >
          levels[j].quoteAtoms.toNat * levels[i].baseAtoms.toNat) ∧
    ∀ side : Side, assertSortedFor side levels = .ok () →
      ∀ (i : ℕ) (hi : i < levels.length),
        (levels[i].inAtoms side = 0 → i = 0) ∧
          (levels[i].outAtoms side = 0 → i + 1 = levels.length) := by
  refine ⟨?_, ?_, fun side h => zero_atoms_at_ends h⟩
  · exact assertSortedFor_eq_ok_iff_getElem .bid levels
  · refine (assertSortedFor_eq_ok_iff_getElem .ask levels).trans ?_
    refine forall₅_congr fun i j hi hj _ => ?_
    rw [RateGt, mul_comm, mul_comm (levels[j].inAtoms .ask).toNat]
    exact Iff.rfl

/-- Both ends of an accepted ladder may be degenerate. -/
example : assertSortedBid [⟨5, 0⟩, ⟨5, 10⟩, ⟨0, 7⟩] = .ok () := by decide

end SolanaRfq
