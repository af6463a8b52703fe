import SolanaRfq.Curve.Payout
import SolanaRfq.Program.Sweep
import Mathlib.Algebra.Order.Floor.Semifield

/-!
# The sweep pays the curve, rounded down

The levels a sweep touches are the segments of a payout curve, and what the sweep returns is the
payout of the amount on that curve, rounded down once.

* `segments`: the levels of a side as segments;
* **`sweepLoop_touched`**: the levels behind the last touched one do not matter;
* `sweepLoop_full_eq_ok_iff`, `sweepLoop_part_eq_ok_iff`: what the two kinds of turn lead to;
* `Turn`, `turn_of_sweepLoop`: what one turn of a successful walk can do;
* **`sweepLoop_spec`**, **`sweep_spec`**: the output of a successful walk;
* `sweep_pos`: the output is positive.
-/

namespace SolanaRfq

open Fallible PayoutCurve

variable {side : Side}

/-- A level as a segment of the payout curve. -/
def Level.segment (side : Side) (level : Level) : Segment ℚ :=
  ⟨(level.inAtoms side).toNat, (level.outAtoms side).toNat⟩

@[simp] theorem segment_input (l : Level) :
    (l.segment side).input = ((l.inAtoms side).toNat : ℚ) := rfl

@[simp] theorem segment_output (l : Level) :
    (l.segment side).output = ((l.outAtoms side).toNat : ℚ) := rfl

/-- The levels as segments of a payout curve. -/
def segments (side : Side) (levels : List Level) : List (Segment ℚ) :=
  levels.map (Level.segment side)

/-- The input atoms of all levels. -/
def sumIn (side : Side) (levels : List Level) : ℕ :=
  (levels.map fun l => (l.inAtoms side).toNat).sum

/-- The output atoms of all levels. -/
def sumOut (side : Side) (levels : List Level) : ℕ :=
  (levels.map fun l => (l.outAtoms side).toNat).sum

theorem totalInput_segments (levels : List Level) :
    totalInput (segments side levels) = (sumIn side levels : ℚ) := by
  induction levels with
  | nil => simp [totalInput, segments, sumIn]
  | cons l levels ih =>
    simp only [totalInput, segments, sumIn, List.map_cons, List.sum_cons, Nat.cast_add] at ih ⊢
    rw [ih]
    rfl

theorem totalOutput_segments (levels : List Level) :
    totalOutput (segments side levels) = (sumOut side levels : ℚ) := by
  induction levels with
  | nil => simp [totalOutput, segments, sumOut]
  | cons l levels ih =>
    simp only [totalOutput, segments, sumOut, List.map_cons, List.sum_cons, Nat.cast_add] at ih ⊢
    rw [ih]
    rfl

theorem proper_segments {levels : List Level}
    (h : ∀ l ∈ levels, 0 < (l.inAtoms side).toNat) : Proper (segments side levels) := by
  intro s hs
  obtain ⟨l, hl, rfl⟩ := List.mem_map.mp hs
  exact ⟨Nat.cast_pos.mpr (h l hl), Nat.cast_nonneg _⟩

/-! ## One turn of the walk -/

theorem sweepLoop_zero (levels : List Level) (out : UInt64) :
    sweepLoop side levels 0 out = .ok (0, out) := by
  cases levels with
  | nil => rfl
  | cons l levels => exact if_pos rfl

theorem sweepLoop_full {l : Level} {levels : List Level} {remaining out : UInt64}
    (h0 : remaining ≠ 0) (h : l.inAtoms side ≤ remaining) :
    sweepLoop side (l :: levels) remaining out = (do
      require (l.baseAtoms > 0 ∧ l.quoteAtoms > 0) .degenerateLevelEntry
      let out ← checkedAdd out (l.outAtoms side)
      sweepLoop side levels (remaining - l.inAtoms side) out) := by
  rw [sweepLoop, if_neg h0, if_pos h, checkedSub, if_pos h]
  rfl

theorem sweepLoop_part {l : Level} {levels : List Level} {remaining out : UInt64}
    (h0 : remaining ≠ 0) (h : ¬ l.inAtoms side ≤ remaining) :
    sweepLoop side (l :: levels) remaining out = (do
      require (l.baseAtoms > 0 ∧ l.quoteAtoms > 0) .degenerateLevelEntry
      require (partialOutAtoms side remaining l ≤ 2 ^ 64 - 1) .overflow
      require (partialOutAtoms side remaining l > 0) .insufficientLiquidity
      let out ← checkedAdd out (UInt64.ofNat (partialOutAtoms side remaining l))
      return (0, out)) := by
  rw [sweepLoop, if_neg h0, if_neg h]

theorem partialOutAtoms_lt {x : UInt64} {l : Level} (h : ¬ l.inAtoms side ≤ x)
    (hout : 0 < (l.outAtoms side).toNat) : partialOutAtoms side x l < (l.outAtoms side).toNat := by
  have hlt : x.toNat < (l.inAtoms side).toNat :=
    UInt64.lt_iff_toNat_lt.mp (UInt64.not_le.mp h)
  rw [partialOutAtoms_eq, Nat.div_lt_iff_lt_mul (by omega), mul_comm (l.outAtoms side).toNat]
  exact Nat.mul_lt_mul_of_pos_right hlt hout

theorem partialOutAtoms_le_max {x : UInt64} {l : Level} (h : ¬ l.inAtoms side ≤ x)
    (hout : 0 < (l.outAtoms side).toNat) : partialOutAtoms side x l ≤ 2 ^ 64 - 1 :=
  Nat.le_pred_of_lt ((partialOutAtoms_lt h hout).trans (l.outAtoms side).toNat_lt)

theorem sweepLoop_full_eq_ok_iff {l : Level} {levels : List Level} {remaining out : UInt64}
    {p : UInt64 × UInt64} (h0 : remaining ≠ 0) (h : l.inAtoms side ≤ remaining) :
    sweepLoop side (l :: levels) remaining out = .ok p ↔
      (0 < (l.inAtoms side).toNat ∧ 0 < (l.outAtoms side).toNat) ∧
        ∃ out₁ : UInt64, out₁.toNat = out.toNat + (l.outAtoms side).toNat ∧
          sweepLoop side levels (remaining - l.inAtoms side) out₁ = .ok p := by
  rw [sweepLoop_full h0 h, require_bind_eq_ok, level_pos_iff side, except_bind_eq_ok]
  simp only [checkedAdd_eq_ok_iff]

theorem sweepLoop_part_eq_ok_iff {l : Level} {levels : List Level}
    {remaining out remaining' out' : UInt64} (h0 : remaining ≠ 0)
    (h : ¬ l.inAtoms side ≤ remaining) :
    sweepLoop side (l :: levels) remaining out = .ok (remaining', out') ↔
      (0 < (l.inAtoms side).toNat ∧ 0 < (l.outAtoms side).toNat) ∧
        0 < partialOutAtoms side remaining l ∧ remaining' = 0 ∧
          out'.toNat = out.toNat + partialOutAtoms side remaining l := by
  rw [sweepLoop_part h0 h, require_bind_eq_ok, level_pos_iff side]
  refine and_congr_right fun hlevel => ?_
  have hmax := partialOutAtoms_le_max h hlevel.2
  have hcast : (UInt64.ofNat (partialOutAtoms side remaining l)).toNat =
      partialOutAtoms side remaining l := UInt64.toNat_ofNat_of_lt' (Nat.lt_succ_of_le hmax)
  rw [require_bind_eq_ok, and_iff_right hmax, require_bind_eq_ok, except_bind_eq_ok]
  refine and_congr_right fun _ => ?_
  simp only [checkedAdd_eq_ok_iff, hcast]
  constructor
  · rintro ⟨out₁, hadd, hret⟩
    obtain ⟨rfl, rfl⟩ := Prod.mk.inj (Except.ok.inj hret)
    exact ⟨rfl, hadd⟩
  · rintro ⟨rfl, hadd⟩
    exact ⟨out', hadd, rfl⟩

/-! ## Touched levels -/

theorem touched_zero (levels : List Level) : touched side levels 0 = [] := by
  cases levels with
  | nil => rfl
  | cons l levels => exact if_pos rfl

theorem touched_full {l : Level} {levels : List Level} {remaining : UInt64}
    (h0 : remaining ≠ 0) (h : l.inAtoms side ≤ remaining) :
    touched side (l :: levels) remaining =
      l :: touched side levels (remaining - l.inAtoms side) := by
  rw [touched, if_neg h0, if_pos h]

theorem touched_part {l : Level} {levels : List Level} {remaining : UInt64}
    (h0 : remaining ≠ 0) (h : ¬ l.inAtoms side ≤ remaining) :
    touched side (l :: levels) remaining = [l] := by
  rw [touched, if_neg h0, if_neg h]

theorem touched_append (side : Side) (levels : List Level) (remaining : UInt64) :
    ∃ rest, levels = touched side levels remaining ++ rest := by
  induction levels generalizing remaining with
  | nil => exact ⟨[], rfl⟩
  | cons l levels ih =>
    by_cases h0 : remaining = 0
    · rw [h0, touched_zero]
      exact ⟨l :: levels, rfl⟩
    · by_cases h : l.inAtoms side ≤ remaining
      · obtain ⟨rest, hrest⟩ := ih (remaining - l.inAtoms side)
        rw [touched_full h0 h]
        exact ⟨rest, congrArg (l :: ·) hrest⟩
      · rw [touched_part h0 h]
        exact ⟨levels, rfl⟩

theorem touched_cons (side : Side) (l : Level) (levels : List Level) {remaining : UInt64}
    (h0 : remaining ≠ 0) : ∃ rest, touched side (l :: levels) remaining = l :: rest := by
  by_cases h : l.inAtoms side ≤ remaining
  · exact ⟨_, touched_full h0 h⟩
  · exact ⟨[], touched_part h0 h⟩

/-- **The levels behind the last touched one do not matter.** -/
theorem sweepLoop_touched (levels : List Level) (remaining out : UInt64) :
    sweepLoop side (touched side levels remaining) remaining out =
      sweepLoop side levels remaining out := by
  induction levels generalizing remaining out with
  | nil => rfl
  | cons l levels ih =>
    by_cases h0 : remaining = 0
    · rw [h0, sweepLoop_zero, sweepLoop_zero]
    · by_cases h : l.inAtoms side ≤ remaining
      · rw [touched_full h0 h, sweepLoop_full h0 h, sweepLoop_full h0 h]
        simp only [ih]
      · rw [touched_part h0 h, sweepLoop_part h0 h, sweepLoop_part h0 h]

/-! ## What a turn can do -/

/-- What the walk does at a level it visits, on the way to `remaining'` and `out'`. -/
inductive Turn (side : Side) (l : Level) (levels : List Level) (remaining out : UInt64)
    (remaining' out' : UInt64) : Prop
  | done : remaining = 0 → remaining' = 0 → out' = out →
      Turn side l levels remaining out remaining' out'
  | full (out₁ : UInt64) : remaining ≠ 0 → l.inAtoms side ≤ remaining →
      0 < (l.inAtoms side).toNat → 0 < (l.outAtoms side).toNat →
      out₁.toNat = out.toNat + (l.outAtoms side).toNat →
      sweepLoop side levels (remaining - l.inAtoms side) out₁ = .ok (remaining', out') →
      Turn side l levels remaining out remaining' out'
  | part : remaining ≠ 0 → ¬ l.inAtoms side ≤ remaining →
      0 < (l.inAtoms side).toNat → 0 < (l.outAtoms side).toNat →
      0 < partialOutAtoms side remaining l → remaining' = 0 →
      out'.toNat = out.toNat + partialOutAtoms side remaining l →
      Turn side l levels remaining out remaining' out'

theorem turn_of_sweepLoop {l : Level} {levels : List Level} {remaining out remaining' out' : UInt64}
    (h : sweepLoop side (l :: levels) remaining out = .ok (remaining', out')) :
    Turn side l levels remaining out remaining' out' := by
  by_cases h0 : remaining = 0
  · rw [h0, sweepLoop_zero] at h
    obtain ⟨hr, ho⟩ := Prod.mk.inj (Except.ok.inj h)
    exact .done h0 hr.symm ho.symm
  · by_cases hle : l.inAtoms side ≤ remaining
    · obtain ⟨⟨hin, hout⟩, out₁, hadd, hrest⟩ := (sweepLoop_full_eq_ok_iff h0 hle).mp h
      exact .full out₁ h0 hle hin hout hadd hrest
    · obtain ⟨⟨hin, hout⟩, hpos, hr, hadd⟩ := (sweepLoop_part_eq_ok_iff h0 hle).mp h
      exact .part h0 hle hin hout hpos hr hadd

/-! ## The output of the walk -/

/-- The curve of a level that is filled, on the way to the levels behind it. -/
theorem floor_curve_cons {l : Level} {levels : List Level} {x : UInt64}
    (hle : l.inAtoms side ≤ x) (hpos : ∀ k ∈ levels, 0 < (k.inAtoms side).toNat)
    (hsum : x.toNat - (l.inAtoms side).toNat ≤ sumIn side levels) :
    ⌊curve (segments side (l :: levels)) (x.toNat : ℚ)⌋₊ = (l.outAtoms side).toNat +
      ⌊curve (segments side levels) ((x.toNat - (l.inAtoms side).toNat : ℕ) : ℚ)⌋₊ := by
  have hle' : (l.inAtoms side).toNat ≤ x.toNat := UInt64.le_iff_toNat_le.mp hle
  have hcast : (l.segment side).input ≤ (x.toNat : ℚ) := Nat.cast_le.mpr hle'
  have hnonneg : 0 ≤ curve (segments side levels) ((x.toNat - (l.inAtoms side).toNat : ℕ) : ℚ) := by
    refine curve_nonneg (proper_segments hpos) (Nat.cast_nonneg _) ?_
    rw [totalInput_segments]
    exact Nat.cast_le.mpr hsum
  rw [segments, List.map_cons, curve_cons_of_le hcast, Nat.add_comm,
    ← Nat.floor_add_natCast hnonneg, add_comm, Nat.cast_sub hle']
  rfl

theorem floor_curve_singleton {l : Level} {x : UInt64} (hlt : ¬ l.inAtoms side ≤ x) :
    ⌊curve (segments side [l]) (x.toNat : ℚ)⌋₊ = partialOutAtoms side x l := by
  have hlt' : x.toNat < (l.inAtoms side).toNat := UInt64.lt_iff_toNat_lt.mp (UInt64.not_le.mp hlt)
  have hcast : (x.toNat : ℚ) < (l.segment side).input := Nat.cast_lt.mpr hlt'
  rw [segments, List.map_cons, List.map_nil, curve_cons_of_lt hcast, Level.segment, ← Nat.cast_mul,
    Nat.floor_div_eq_div, partialOutAtoms_eq]

/-- **A walk that spends everything pays the curve of the levels it touched, rounded down.** -/
theorem sweepLoop_spec {levels : List Level} {remaining out out' : UInt64}
    (h : sweepLoop side levels remaining out = .ok (0, out')) :
    (∀ l ∈ touched side levels remaining, 0 < (l.inAtoms side).toNat ∧ 0 < (l.outAtoms side).toNat) ∧
    remaining.toNat ≤ sumIn side (touched side levels remaining) ∧
      out'.toNat = out.toNat +
        ⌊curve (segments side (touched side levels remaining)) (remaining.toNat : ℚ)⌋₊ := by
  induction levels generalizing remaining out with
  | nil =>
    obtain ⟨rfl, rfl⟩ := Prod.mk.inj (Except.ok.inj h)
    simp [touched, sumIn, segments, curve]
  | cons l levels ih =>
    cases turn_of_sweepLoop h with
    | done h0 _ hout =>
      subst h0 hout
      simp [touched_zero, sumIn, segments, curve]
    | full out₁ h0 hle hin hout hadd hrest =>
      obtain ⟨ihpos, ihsum, ihout⟩ := ih hrest
      rw [UInt64.toNat_sub_of_le _ _ hle] at ihsum ihout
      rw [touched_full h0 hle]
      refine ⟨List.forall_mem_cons.mpr ⟨⟨hin, hout⟩, ihpos⟩, ?_, ?_⟩
      · rw [sumIn, List.map_cons, List.sum_cons]
        rw [sumIn] at ihsum
        omega
      · rw [floor_curve_cons hle (fun k hk => (ihpos k hk).1) ihsum, ihout, hadd, Nat.add_assoc]
    | part h0 hlt hin hout _ _ hadd =>
      rw [touched_part h0 hlt]
      have hlt' : remaining.toNat < (l.inAtoms side).toNat :=
        UInt64.lt_iff_toNat_lt.mp (UInt64.not_le.mp hlt)
      refine ⟨List.forall_mem_singleton.mpr ⟨hin, hout⟩, ?_, ?_⟩
      · simp only [sumIn, List.map_cons, List.map_nil, List.sum_cons, List.sum_nil]
        omega
      · rw [hadd, floor_curve_singleton hlt]

theorem sweepLoop_out_le {levels : List Level} {remaining out remaining' out' : UInt64}
    (h : sweepLoop side levels remaining out = .ok (remaining', out')) :
    out.toNat ≤ out'.toNat := by
  induction levels generalizing remaining out with
  | nil =>
    obtain ⟨-, rfl⟩ := Prod.mk.inj (Except.ok.inj h)
    exact le_rfl
  | cons l levels ih =>
    cases turn_of_sweepLoop h with
    | done _ _ hout => rw [hout]
    | full out₁ _ _ _ _ hadd hrest =>
      have hmono := ih hrest
      omega
    | part _ _ _ _ _ _ hadd => omega

theorem sweepLoop_out_lt {levels : List Level} {remaining out out' : UInt64} (h0 : remaining ≠ 0)
    (h : sweepLoop side levels remaining out = .ok (0, out')) : out.toNat < out'.toNat := by
  cases levels with
  | nil => exact absurd (Prod.mk.inj (Except.ok.inj h)).1 h0
  | cons l levels =>
    cases turn_of_sweepLoop h with
    | done hzero _ _ => exact absurd hzero h0
    | full out₁ _ _ _ hout hadd hrest =>
      have hmono := sweepLoop_out_le hrest
      omega
    | part _ _ _ _ hpos _ hadd => omega

theorem sweep_eq_ok_iff {amountIn minOutAtoms : UInt64} {levels : List Level} {out : UInt64} :
    sweep side amountIn minOutAtoms levels = .ok out ↔
      sweepLoop side levels amountIn 0 = .ok (0, out) ∧ minOutAtoms ≤ out := by
  unfold sweep
  rw [except_bind_eq_ok]
  constructor
  · rintro ⟨⟨remaining, out₁⟩, hloop, h⟩
    dsimp only at h
    rw [require_bind_eq_ok, require_bind_eq_ok] at h
    obtain ⟨rfl, hmin, hret⟩ := h
    obtain rfl := Except.ok.inj hret
    exact ⟨hloop, hmin⟩
  · rintro ⟨hloop, hmin⟩
    refine ⟨(0, out), hloop, ?_⟩
    dsimp only
    rw [require_bind_eq_ok, require_bind_eq_ok]
    exact ⟨rfl, hmin, rfl⟩

/-- What a successful sweep says about the levels it touched. -/
structure Filled (side : Side) (levels : List Level) (amountIn out : UInt64) : Prop where
  pos : ∀ l ∈ levels, 0 < (l.inAtoms side).toNat ∧ 0 < (l.outAtoms side).toNat
  enough : amountIn.toNat ≤ sumIn side levels
  paid : out.toNat = ⌊curve (segments side levels) (amountIn.toNat : ℚ)⌋₊

/-- **A successful sweep fills the amount from the levels it touched.** -/
theorem sweep_spec {amountIn minOutAtoms : UInt64} {levels : List Level} {out : UInt64}
    (h : sweep side amountIn minOutAtoms levels = .ok out) :
    Filled side (touched side levels amountIn) amountIn out := by
  obtain ⟨hpos, henough, hpaid⟩ := sweepLoop_spec (sweep_eq_ok_iff.mp h).1
  exact ⟨hpos, henough, by rw [hpaid, show (0 : UInt64).toNat = 0 from rfl, Nat.zero_add]⟩

theorem sweep_pos {amountIn minOutAtoms : UInt64} {levels : List Level} {out : UInt64}
    (hamount : amountIn ≠ 0) (h : sweep side amountIn minOutAtoms levels = .ok out) :
    1 ≤ out.toNat :=
  sweepLoop_out_lt hamount (sweep_eq_ok_iff.mp h).1

end SolanaRfq
