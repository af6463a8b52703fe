import SolanaRfq.Curve.Concave
import SolanaRfq.Program.SweepCurve
import Mathlib.Algebra.BigOperators.Ring.Finset
import Mathlib.Data.Nat.Cast.Order.Field

/-!
# Best execution on an accepted ladder

On a ladder that passes the order check a successful sweep is bounded by the quoted prices and beats
every other way to split the amount.

* `inputs_pos`, `pairwise_rateGe`, `sweep_curve`: positive inputs, falling rates, and the curve of
  the whole ladder;
* `AllocationOf`: a way to split an amount over the levels; `allocationOut`: what it pays;
* **`allocationOut_le_sweep`**: no allocation pays more than the sweep;
* **`sweep_price_bounds`**: the sweep pays at most the first quoted price, and less than one atom
  below the last touched one;
* **`sweep_diminishing`**: the marginal price of a larger order is not better, up to one atom at each
  end.
-/

namespace SolanaRfq

open PayoutCurve

variable {side : Side}

/-! ## Accepted ladders -/

/-- Once the first level can be filled, every level of an accepted ladder takes input. -/
theorem inputs_pos {l : Level} {levels : List Level} (hsorted : (l :: levels).Pairwise (RateGt side))
    (hl : 0 < (l.inAtoms side).toNat) : ∀ k ∈ l :: levels, 0 < (k.inAtoms side).toNat := by
  intro k hk
  rcases List.mem_cons.mp hk with rfl | hk
  · exact hl
  · have hrate : RateGt side l k := (List.pairwise_cons.mp hsorted).1 k hk
    exact hrate.inAtoms_pos

theorem RateGt.rateGe {a b : Level} (h : RateGt side a b) :
    RateGe (a.segment side) (b.segment side) := by
  unfold RateGe Level.segment
  dsimp only
  exact_mod_cast h.le

theorem pairwise_rateGe {levels : List Level} (h : levels.Pairwise (RateGt side)) :
    (segments side levels).Pairwise RateGe :=
  List.pairwise_map.mpr (h.imp RateGt.rateGe)

theorem exists_first_level {amountIn minOutAtoms out : UInt64} {levels : List Level}
    (hamount : 0 < amountIn) (h : sweep side amountIn minOutAtoms levels = .ok out) :
    ∃ first rest rest', levels = first :: rest ∧ touched side levels amountIn = first :: rest' := by
  cases levels with
  | nil =>
    have henough := (sweep_spec h).enough
    have : 0 < amountIn.toNat := UInt64.lt_iff_toNat_lt.mp hamount
    simp only [touched, sumIn, List.map_nil, List.sum_nil] at henough
    omega
  | cons first rest =>
    obtain ⟨rest', hrest'⟩ := touched_cons side first rest (UInt64.pos_iff_ne_zero.mp hamount)
    exact ⟨first, rest, rest', rfl, hrest'⟩

theorem sweep_curve {amountIn minOutAtoms out : UInt64} {levels : List Level}
    (hsorted : assertSortedFor side levels = .ok ()) (hamount : 0 < amountIn)
    (h : sweep side amountIn minOutAtoms levels = .ok out) :
    (∀ l ∈ levels, 0 < (l.inAtoms side).toNat) ∧ amountIn.toNat ≤ sumIn side levels ∧
      out.toNat = ⌊curve (segments side levels) (amountIn.toNat : ℚ)⌋₊ := by
  rw [assertSortedFor_eq_ok_iff] at hsorted
  have hfilled := sweep_spec h
  obtain ⟨first, rest, rest', hlevels, htouched⟩ := exists_first_level hamount h
  obtain ⟨tail, htail⟩ := touched_append side levels amountIn
  have hfirst : 0 < (first.inAtoms side).toNat := (hfilled.pos first (by simp [htouched])).1
  have hpos : ∀ l ∈ levels, 0 < (l.inAtoms side).toNat := by
    rw [hlevels] at hsorted ⊢
    exact inputs_pos hsorted hfirst
  have hsplit : segments side levels =
      segments side (touched side levels amountIn) ++ segments side tail := by
    rw [segments, segments, segments, ← List.map_append, ← htail]
  have htailpos : ∀ l ∈ tail, 0 < (l.inAtoms side).toNat := fun l hl =>
    hpos l (htail ▸ List.mem_append_right _ hl)
  refine ⟨hpos, ?_, ?_⟩
  · calc amountIn.toNat ≤ sumIn side (touched side levels amountIn) := hfilled.enough
      _ ≤ sumIn side levels := by
        conv_rhs => rw [htail]
        rw [sumIn, sumIn, List.map_append, List.sum_append]
        exact Nat.le_add_right _ _
  · rw [hfilled.paid, hsplit, curve_append (proper_segments fun l hl => (hfilled.pos l hl).1)
      (proper_segments htailpos) (Nat.cast_nonneg _)]
    rw [totalInput_segments]
    exact Nat.cast_le.mpr hfilled.enough

/-! ## Allocations -/

/-- A way to split `amount` over the levels, each within its input. -/
structure AllocationOf (side : Side) (levels : List Level) (amount : ℕ) (xs : List ℕ) : Prop where
  within : List.Forall₂ (fun l x => x ≤ (l.inAtoms side).toNat) levels xs
  total : xs.sum = amount

/-- What an allocation pays, rounded down at each level with a positive input. -/
def allocationOut (side : Side) (levels : List Level) (xs : List ℕ) : ℕ :=
  (List.zipWith (fun l x => if 0 < (l.inAtoms side).toNat then
    x * (l.outAtoms side).toNat / (l.inAtoms side).toNat else 0) levels xs).sum

theorem allocationOut_le_payout (levels : List Level) (xs : List ℕ) :
    (allocationOut side levels xs : ℚ) ≤
      payout (segments side levels) (xs.map (Nat.cast : ℕ → ℚ)) := by
  induction levels generalizing xs with
  | nil => simp [allocationOut, payout, segments]
  | cons l levels ih =>
    cases xs with
    | nil => simp [allocationOut, payout, segments]
    | cons x xs =>
      have hrest := ih xs
      have hhead : ((if 0 < (l.inAtoms side).toNat then
          x * (l.outAtoms side).toNat / (l.inAtoms side).toNat else 0 : ℕ) : ℚ) ≤
            (x : ℚ) * (l.segment side).output / (l.segment side).input := by
        split_ifs with hpos
        · rw [Level.segment, ← Nat.cast_mul]
          exact Nat.cast_div_le
        · rw [Nat.cast_zero]
          exact div_nonneg (mul_nonneg (Nat.cast_nonneg x) (Nat.cast_nonneg _)) (Nat.cast_nonneg _)
      simp only [allocationOut, payout, segments, List.map_cons, List.zipWith_cons_cons,
        List.sum_cons, Nat.cast_add] at hrest ⊢
      exact add_le_add hhead hrest

/-- **No allocation of the amount pays more than the sweep.** -/
theorem allocationOut_le_sweep (side : Side) {levels : List Level} {amountIn minOutAtoms : UInt64}
    {out : UInt64} (hsorted : assertSortedFor side levels = .ok ()) (hamount : 0 < amountIn)
    (h : sweep side amountIn minOutAtoms levels = .ok out) {xs : List ℕ}
    (hxs : AllocationOf side levels amountIn.toNat xs) :
    allocationOut side levels xs ≤ out.toNat := by
  obtain ⟨hpos, -, hpaid⟩ := sweep_curve hsorted hamount h
  have hproper : Proper (segments side levels) := proper_segments hpos
  have hfalling := pairwise_rateGe ((assertSortedFor_eq_ok_iff side levels).mp hsorted)
  have hwithin : List.Forall₂ (fun s x => 0 ≤ x ∧ x ≤ s.input) (segments side levels)
      (xs.map (Nat.cast : ℕ → ℚ)) := by
    rw [segments, List.forall₂_map_left_iff, List.forall₂_map_right_iff]
    refine hxs.within.imp fun l x hx => ?_
    exact ⟨Nat.cast_nonneg x, Nat.cast_le.mpr hx⟩
  have hsum : (xs.map (Nat.cast : ℕ → ℚ)).sum = (amountIn.toNat : ℚ) := by
    rw [← hxs.total, Nat.cast_list_sum]
  rw [hpaid]
  refine Nat.le_floor ?_
  calc (allocationOut side levels xs : ℚ)
      ≤ payout (segments side levels) (xs.map (Nat.cast : ℕ → ℚ)) := allocationOut_le_payout levels xs
    _ ≤ curve (segments side levels) (xs.map (Nat.cast : ℕ → ℚ)).sum :=
      payout_le_curve hproper hfalling hwithin
    _ = curve (segments side levels) (amountIn.toNat : ℚ) := by rw [hsum]

/-- Two bid levels: 10 base atoms for 100 quote atoms, then for 110. -/
def sampleLadder : List Level := [⟨10, 100⟩, ⟨10, 110⟩]

theorem sampleLadder_sorted : assertSortedFor .bid sampleLadder = .ok () := by decide

theorem sweep_sampleLadder : sweep .bid 150 1 sampleLadder = .ok 14 := by decide

theorem allocationOut_le_sweep_sample :
    allocationOut .bid sampleLadder [60, 90] ≤ (14 : UInt64).toNat :=
  allocationOut_le_sweep .bid sampleLadder_sorted (by decide) sweep_sampleLadder
    ⟨by simp [sampleLadder, Level.inAtoms], by decide⟩

/-! ## Quoted prices -/

theorem pairwise_touched {levels : List Level} (hsorted : assertSortedFor side levels = .ok ())
    (amountIn : UInt64) : (segments side (touched side levels amountIn)).Pairwise RateGe := by
  obtain ⟨tail, htail⟩ := touched_append side levels amountIn
  have hfalling := (assertSortedFor_eq_ok_iff side levels).mp hsorted
  rw [htail] at hfalling
  exact pairwise_rateGe (List.pairwise_append.mp hfalling).1

theorem sweep_gt_last_price {levels : List Level} {amountIn minOutAtoms out : UInt64}
    {last : Level} (hsorted : assertSortedFor side levels = .ok ())
    (h : sweep side amountIn minOutAtoms levels = .ok out)
    (hlast : (touched side levels amountIn).getLast? = some last) :
    amountIn.toNat * (last.outAtoms side).toNat < (out.toNat + 1) * (last.inAtoms side).toNat := by
  have hfilled := sweep_spec h
  have hproper : Proper (segments side (touched side levels amountIn)) :=
    proper_segments fun l hl => (hfilled.pos l hl).1
  have hlast' : (segments side (touched side levels amountIn)).getLast? =
      some (last.segment side) := by
    rw [segments, List.getLast?_map, hlast, Option.map_some]
  have htotal : (amountIn.toNat : ℚ) ≤ totalInput (segments side (touched side levels amountIn)) := by
    rw [totalInput_segments]
    exact Nat.cast_le.mpr hfilled.enough
  have hprice := last_rate_le_curve hproper (pairwise_touched hsorted amountIn) hlast'
    (Nat.cast_nonneg _) htotal
  have hlt : curve (segments side (touched side levels amountIn)) (amountIn.toNat : ℚ) <
      (out.toNat : ℚ) + 1 := by
    rw [hfilled.paid]
    exact Nat.lt_floor_add_one _
  have hin : 0 < (last.segment side).input :=
    Nat.cast_pos.mpr (hfilled.pos last (List.mem_of_getLast? hlast)).1
  have hmul := hprice.trans_lt (mul_lt_mul_of_pos_right hlt hin)
  rw [segment_input, segment_output] at hmul
  exact_mod_cast hmul

/-- **The sweep pays at most the first quoted price, and less than one atom below the last touched
one.** -/
theorem sweep_price_bounds (side : Side) {levels : List Level} {amountIn minOutAtoms out : UInt64}
    (hsorted : assertSortedFor side levels = .ok ()) (hamount : 0 < amountIn)
    (h : sweep side amountIn minOutAtoms levels = .ok out) :
    amountIn.toNat ≤ sumIn side levels ∧ out.toNat ≤ sumOut side levels ∧
    ∃ first last, levels.head? = some first ∧ (touched side levels amountIn).getLast? = some last ∧
      out.toNat * (first.inAtoms side).toNat ≤ amountIn.toNat * (first.outAtoms side).toNat ∧
      amountIn.toNat * (last.outAtoms side).toNat <
        (out.toNat + 1) * (last.inAtoms side).toNat := by
  obtain ⟨hpos, henough, hpaid⟩ := sweep_curve hsorted hamount h
  have hfilled := sweep_spec h
  have hfalling := pairwise_rateGe ((assertSortedFor_eq_ok_iff side levels).mp hsorted)
  obtain ⟨first, rest, rest', hlevels, htouched⟩ := exists_first_level hamount h
  have hproper : Proper (segments side levels) := proper_segments hpos
  have hx : (0 : ℚ) ≤ (amountIn.toNat : ℚ) := Nat.cast_nonneg _
  have hle : (out.toNat : ℚ) ≤ curve (segments side levels) (amountIn.toNat : ℚ) := by
    rw [hpaid]
    refine Nat.floor_le (curve_nonneg hproper hx ?_)
    rw [totalInput_segments]
    exact Nat.cast_le.mpr henough
  obtain ⟨last, hlast⟩ : ∃ last, (touched side levels amountIn).getLast? = some last :=
    ⟨_, List.getLast?_eq_some_getLast (by simp [htouched])⟩
  refine ⟨henough, ?_, first, last, by rw [hlevels]; rfl, hlast, ?_, ?_⟩
  · have htotal := hle.trans (curve_le_totalOutput hproper hx)
    rw [totalOutput_segments] at htotal
    exact Nat.cast_le.mp htotal
  · have hfirst : (first.segment side) ∈ (segments side levels).head? := by
      rw [hlevels]
      exact rfl
    have hprice := curve_le_first_rate hproper hfalling hfirst hx
    have hin : 0 ≤ (first.segment side).input := Nat.cast_nonneg _
    have hmul := (mul_le_mul_of_nonneg_right hle hin).trans hprice
    rw [segment_input, segment_output] at hmul
    exact_mod_cast hmul
  · exact sweep_gt_last_price hsorted h hlast

theorem sweep_price_bounds_sample : ∃ first last, sampleLadder.head? = some first ∧
    (touched .bid sampleLadder 150).getLast? = some last ∧
    (14 : UInt64).toNat * (first.inAtoms .bid).toNat ≤
      (150 : UInt64).toNat * (first.outAtoms .bid).toNat ∧
    (150 : UInt64).toNat * (last.outAtoms .bid).toNat <
      ((14 : UInt64).toNat + 1) * (last.inAtoms .bid).toNat :=
  (sweep_price_bounds .bid sampleLadder_sorted (by decide) sweep_sampleLadder).2.2

/-! ## Marginal prices -/

/-- A swept amount, the empty one included, on the curve of a ladder whose levels take input. -/
theorem sweep_floor {amountIn minOutAtoms out : UInt64} {levels : List Level}
    (hsorted : assertSortedFor side levels = .ok ())
    (hpos : ∀ l ∈ levels, 0 < (l.inAtoms side).toNat)
    (h : sweep side amountIn minOutAtoms levels = .ok out) :
    (out.toNat : ℚ) ≤ curve (segments side levels) (amountIn.toNat : ℚ) ∧
      curve (segments side levels) (amountIn.toNat : ℚ) < (out.toNat : ℚ) + 1 := by
  have hproper : Proper (segments side levels) := proper_segments hpos
  by_cases h0 : amountIn = 0
  · subst h0
    have hloop := (sweep_eq_ok_iff.mp h).1
    rw [sweepLoop_zero] at hloop
    obtain rfl := (Prod.mk.inj (Except.ok.inj hloop)).2
    rw [UInt64.toNat_zero, Nat.cast_zero, curve_zero hproper]
    exact ⟨le_rfl, by norm_num⟩
  · have hamount : 0 < amountIn := UInt64.pos_iff_ne_zero.mpr h0
    obtain ⟨-, henough, hpaid⟩ := sweep_curve hsorted hamount h
    rw [hpaid]
    refine ⟨Nat.floor_le (curve_nonneg hproper (Nat.cast_nonneg _) ?_), Nat.lt_floor_add_one _⟩
    rw [totalInput_segments]
    exact Nat.cast_le.mpr henough

/-- **Of three orders the marginal price from the second to the third is not better than that from the
first to the second, up to one atom of rounding at each end.** -/
theorem sweep_diminishing (side : Side) {levels : List Level}
    (hsorted : assertSortedFor side levels = .ok ()) {a₁ a₂ a₃ o₁ o₂ o₃ : UInt64}
    (h₁₂ : a₁ < a₂) (h₂₃ : a₂ < a₃) (h₁ : sweep side a₁ 0 levels = .ok o₁)
    (h₂ : sweep side a₂ 0 levels = .ok o₂) (h₃ : sweep side a₃ 0 levels = .ok o₃) :
    ((o₃.toNat : ℤ) - o₂.toNat - 1) * ((a₂.toNat : ℤ) - a₁.toNat) <
      ((o₂.toNat : ℤ) - o₁.toNat + 1) * ((a₃.toNat : ℤ) - a₂.toNat) := by
  have hlt₁₂ : (a₁.toNat : ℚ) < (a₂.toNat : ℚ) := Nat.cast_lt.mpr (UInt64.lt_iff_toNat_lt.mp h₁₂)
  have hlt₂₃ : (a₂.toNat : ℚ) < (a₃.toNat : ℚ) := Nat.cast_lt.mpr (UInt64.lt_iff_toNat_lt.mp h₂₃)
  have hamount : 0 < a₂ := UInt64.lt_of_le_of_lt (UInt64.zero_le) h₁₂
  have hpos := (sweep_curve hsorted hamount h₂).1
  have hfalling := pairwise_rateGe ((assertSortedFor_eq_ok_iff side levels).mp hsorted)
  have hmarginal := curve_marginal_le (proper_segments hpos) hfalling hlt₁₂ hlt₂₃
  obtain ⟨hle₁, -⟩ := sweep_floor hsorted hpos h₁
  obtain ⟨-, hgt₂⟩ := sweep_floor hsorted hpos h₂
  obtain ⟨hle₃, -⟩ := sweep_floor hsorted hpos h₃
  have hgain₃ : (o₃.toNat : ℚ) - o₂.toNat - 1 <
      curve (segments side levels) (a₃.toNat : ℚ) - curve (segments side levels) (a₂.toNat : ℚ) := by
    linarith
  have hgain₂ : curve (segments side levels) (a₂.toNat : ℚ) -
      curve (segments side levels) (a₁.toNat : ℚ) < (o₂.toNat : ℚ) - o₁.toNat + 1 := by
    linarith
  have hlt : ((o₃.toNat : ℚ) - o₂.toNat - 1) * ((a₂.toNat : ℚ) - a₁.toNat) <
      ((o₂.toNat : ℚ) - o₁.toNat + 1) * ((a₃.toNat : ℚ) - a₂.toNat) :=
    calc ((o₃.toNat : ℚ) - o₂.toNat - 1) * ((a₂.toNat : ℚ) - a₁.toNat)
        < (curve (segments side levels) (a₃.toNat : ℚ) -
            curve (segments side levels) (a₂.toNat : ℚ)) * ((a₂.toNat : ℚ) - a₁.toNat) :=
          mul_lt_mul_of_pos_right hgain₃ (sub_pos.mpr hlt₁₂)
      _ ≤ (curve (segments side levels) (a₂.toNat : ℚ) -
            curve (segments side levels) (a₁.toNat : ℚ)) * ((a₃.toNat : ℚ) - a₂.toNat) := hmarginal
      _ < ((o₂.toNat : ℚ) - o₁.toNat + 1) * ((a₃.toNat : ℚ) - a₂.toNat) :=
          mul_lt_mul_of_pos_right hgain₂ (sub_pos.mpr hlt₂₃)
  exact_mod_cast hlt

theorem sweep_diminishing_sample :
    (((14 : UInt64).toNat : ℤ) - (6 : UInt64).toNat - 1) *
        (((60 : UInt64).toNat : ℤ) - (0 : UInt64).toNat) <
      (((6 : UInt64).toNat : ℤ) - (0 : UInt64).toNat + 1) *
        (((150 : UInt64).toNat : ℤ) - (60 : UInt64).toNat) :=
  sweep_diminishing .bid sampleLadder_sorted (by decide) (by decide)
    (show sweep .bid 0 0 sampleLadder = .ok 0 by decide)
    (show sweep .bid 60 0 sampleLadder = .ok 6 by decide)
    (show sweep .bid 150 0 sampleLadder = .ok 14 by decide)

end SolanaRfq
