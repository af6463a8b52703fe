import SolanaRfq.Curve.Payout
import Mathlib.Analysis.Convex.Slope

/-!
# Concavity of payout curves

On falling rates the payout curve is the lower envelope of its segments, so it is concave, and the
marginal payout never rises.

* `curve_cons_eq_min`: the curve is below the ray of its first segment and below the rest;
* `concaveOn_curve`: the curve is concave;
* **`curve_marginal_le`**: of two adjacent stretches the first has the better average rate;
* **`curve_sum_le`**: an amount spent in parts, each from the start, pays at least as much.
-/

namespace PayoutCurve

variable {K : Type*} [Field K] [LinearOrder K] [IsStrictOrderedRing K]

/-- Continued below zero, the curve stays above the ray of any rate that none of its segments
exceeds. -/
theorem le_curve_of_nonpos {u y : K} {ss : List (Segment K)} (hss : Proper ss) (hu : 0 ≤ u)
    (hrate : ∀ t ∈ ss, t.output ≤ u * t.input) (hy : y ≤ 0) : u * y ≤ curve ss y := by
  cases ss with
  | nil => exact mul_nonpos_of_nonneg_of_nonpos hu hy
  | cons t ts =>
    have ht := hss.head.1
    rw [curve_cons_of_lt (hy.trans_lt ht), le_div_iff₀ ht]
    calc u * y * t.input = y * (u * t.input) := by ring
      _ ≤ y * t.output := mul_le_mul_of_nonpos_left (hrate t (by simp)) hy

/-- The first segment has the best rate, so the curve leaves its ray downwards. -/
theorem curve_cons_eq_min {s : Segment K} {ss : List (Segment K)} (hss : Proper (s :: ss))
    (hrate : ∀ t ∈ ss, RateGe s t) (x : K) : curve (s :: ss) x =
      min (s.output / s.input * x) (s.output + curve ss (x - s.input)) := by
  obtain ⟨hs, hout⟩ := hss.head
  have hu : 0 ≤ s.output / s.input := div_nonneg hout hs.le
  have hbest : ∀ t ∈ ss, t.output ≤ s.output / s.input * t.input := by
    intro t ht
    rw [div_mul_eq_mul_div, le_div_iff₀ hs, mul_comm t.output, mul_comm s.output]
    exact hrate t ht
  have hray : s.output / s.input * (x - s.input) = s.output / s.input * x - s.output := by
    rw [mul_sub, div_mul_cancel₀ _ hs.ne']
  by_cases hx : s.input ≤ x
  · have hgrow := curve_sub_le hss.tail hbest hu le_rfl (sub_nonneg.mpr hx)
    rw [curve_zero hss.tail, sub_zero, hray] at hgrow
    rw [curve_cons_of_le hx, min_eq_right]
    linarith
  · have hneg := le_curve_of_nonpos hss.tail hu hbest (sub_nonpos.mpr (not_le.mp hx).le)
    rw [hray] at hneg
    rw [curve_cons_of_lt (not_le.mp hx), mul_comm x, mul_div_right_comm, min_eq_left]
    linarith

/-- **On falling rates the curve is concave.** -/
theorem concaveOn_curve {ss : List (Segment K)} (hss : Proper ss) (hrate : ss.Pairwise RateGe) :
    ConcaveOn K Set.univ (curve ss) := by
  induction ss with
  | nil => exact concaveOn_const 0 convex_univ
  | cons s ss ih =>
    obtain ⟨hhead, htail⟩ := List.pairwise_cons.mp hrate
    have hray : ConcaveOn K Set.univ fun x => s.output / s.input * x :=
      (concaveOn_id convex_univ).smul (div_nonneg hss.head.2 hss.head.1.le)
    have hrest : ConcaveOn K Set.univ fun x => s.output + curve ss (x - s.input) := by
      have hshift := ((ih hss.tail htail).translate_left (-s.input)).add_const s.output
      rw [Set.preimage_univ] at hshift
      refine hshift.congr fun x _ => ?_
      show curve ss (x + -s.input) + s.output = s.output + curve ss (x - s.input)
      rw [← sub_eq_add_neg, add_comm]
    refine (hray.inf hrest).congr fun x _ => ?_
    exact (curve_cons_eq_min hss hhead x).symm

/-- **Of two adjacent stretches the first has at least the average rate of the second.** -/
theorem curve_marginal_le {ss : List (Segment K)} {x y z : K} (hss : Proper ss)
    (hrate : ss.Pairwise RateGe) (hxy : x < y) (hyz : y < z) :
    (curve ss z - curve ss y) * (y - x) ≤ (curve ss y - curve ss x) * (z - y) := by
  have hslope := (concaveOn_curve hss hrate).slope_anti_adjacent (Set.mem_univ x) (Set.mem_univ z)
    hxy hyz
  exact (div_le_div_iff₀ (sub_pos.mpr hyz) (sub_pos.mpr hxy)).mp hslope

/-! ## Parts -/

theorem curve_add_le {ss : List (Segment K)} {x y : K} (hss : Proper ss)
    (hrate : ss.Pairwise RateGe) (hx : 0 ≤ x) (hy : 0 ≤ y) :
    curve ss (x + y) ≤ curve ss x + curve ss y := by
  rcases hx.eq_or_lt with rfl | hx
  · rw [zero_add, curve_zero hss, zero_add]
  have hsum : 0 < x + y := add_pos_of_pos_of_nonneg hx hy
  have hweights : x / (x + y) + y / (x + y) = 1 := by
    rw [← add_div, div_self hsum.ne']
  -- a part lies on the chord from the empty amount to the whole
  have hpart (a b : K) (ha : 0 ≤ a / (x + y)) (hb : 0 ≤ b / (x + y))
      (hab : a / (x + y) + b / (x + y) = 1) : a / (x + y) * curve ss (x + y) ≤ curve ss a := by
    have hchord := (concaveOn_curve hss hrate).2 (Set.mem_univ (x + y)) (Set.mem_univ 0) ha hb hab
    rwa [curve_zero hss, smul_zero, add_zero, add_zero, smul_eq_mul, smul_eq_mul,
      div_mul_cancel₀ _ hsum.ne'] at hchord
  have hleft := div_nonneg hx.le hsum.le
  have hright := div_nonneg hy hsum.le
  calc curve ss (x + y)
      = x / (x + y) * curve ss (x + y) + y / (x + y) * curve ss (x + y) := by
        rw [← add_mul, hweights, one_mul]
    _ ≤ curve ss x + curve ss y :=
      add_le_add (hpart x y hleft hright hweights)
        (hpart y x hright hleft (by rw [add_comm, hweights]))

/-- **An amount spent in parts, each from the start of the curve, pays at least as much as at once.** -/
theorem curve_sum_le {ss : List (Segment K)} {xs : List K} (hss : Proper ss)
    (hrate : ss.Pairwise RateGe) (hxs : ∀ x ∈ xs, 0 ≤ x) :
    curve ss xs.sum ≤ (xs.map (curve ss)).sum := by
  induction xs with
  | nil => exact (curve_zero hss).le
  | cons x xs ih =>
    obtain ⟨hx, hxs⟩ := List.forall_mem_cons.mp hxs
    rw [List.sum_cons, List.map_cons, List.sum_cons]
    exact (curve_add_le hss hrate hx (List.sum_nonneg hxs)).trans (by gcongr; exact ih hxs)

end PayoutCurve
