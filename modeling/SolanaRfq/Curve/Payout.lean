import Mathlib.Algebra.BigOperators.Group.List.Basic
import Mathlib.Algebra.BigOperators.Ring.List
import Mathlib.Algebra.Order.Field.Basic
import Mathlib.Algebra.Order.BigOperators.Group.List
import Mathlib.Data.Rat.Floor
import Mathlib.Tactic.FieldSimp
import Mathlib.Tactic.Linarith

/-!
# Payout curves

A list of segments, each taking up to `input` and paying `output` for all of it, defines a curve:
an amount is spent on the segments in order, the last one pro rata. Over any ordered field.

* `curve`: the payout of an amount; `Proper`: positive inputs and outputs not below zero;
* `curve_sub_le`: between two amounts the payout grows at most at the best rate;
* `le_curve`: up to the total input it is at least the amount at the worst rate;
* `curve_le_first_rate`, `last_rate_le_curve`: on falling rates, the bounds at both ends;
* `curve_scale`: the curve in other units of the input and the output;
* **`payout_le_curve`**: on falling rates no other allocation pays more.
-/

namespace PayoutCurve

variable {K : Type*} [Field K] [LinearOrder K] [IsStrictOrderedRing K]

/-- A segment of a curve. -/
structure Segment (K : Type*) where
  input : K
  output : K

/-- Positive inputs, and outputs not below zero. -/
def Proper (ss : List (Segment K)) : Prop := ∀ s ∈ ss, 0 < s.input ∧ 0 ≤ s.output

/-- The first segment has at least the rate of the second. -/
def RateGe (s t : Segment K) : Prop := s.input * t.output ≤ t.input * s.output

/-- The input of all segments. -/
def totalInput (ss : List (Segment K)) : K := (ss.map Segment.input).sum

/-- The output of all segments. -/
def totalOutput (ss : List (Segment K)) : K := (ss.map Segment.output).sum

/-- The payout of an amount spent on the segments in order. -/
def curve : List (Segment K) → K → K
  | [], _ => 0
  | s :: ss, x => if s.input ≤ x then s.output + curve ss (x - s.input) else x * s.output / s.input

omit [IsStrictOrderedRing K] in
theorem curve_cons_of_le {s : Segment K} {ss : List (Segment K)} {x : K} (h : s.input ≤ x) :
    curve (s :: ss) x = s.output + curve ss (x - s.input) := if_pos h

omit [IsStrictOrderedRing K] in
theorem curve_cons_of_lt {s : Segment K} {ss : List (Segment K)} {x : K} (h : x < s.input) :
    curve (s :: ss) x = x * s.output / s.input := if_neg (not_le.mpr h)

omit [IsStrictOrderedRing K] in
theorem Proper.head {s : Segment K} {ss : List (Segment K)} (h : Proper (s :: ss)) :
    0 < s.input ∧ 0 ≤ s.output := h s (by simp)

omit [IsStrictOrderedRing K] in
theorem Proper.tail {s : Segment K} {ss : List (Segment K)} (h : Proper (s :: ss)) : Proper ss :=
  fun t ht => h t (List.mem_cons_of_mem s ht)

omit [IsStrictOrderedRing K] in
theorem curve_zero : ∀ {ss : List (Segment K)}, Proper ss → curve ss 0 = 0
  | [], _ => rfl
  | s :: ss, h => by rw [curve_cons_of_lt h.head.1, zero_mul, zero_div]

/-! ## Growth -/

theorem div_sub_div_le {s : Segment K} {u x y : K} (hs : 0 < s.input)
    (hu : s.output ≤ u * s.input) (hxy : x ≤ y) :
    y * s.output / s.input ≤ x * s.output / s.input + u * (y - x) := by
  have hle : (y - x) * s.output / s.input ≤ u * (y - x) := by
    rw [div_le_iff₀ hs]
    calc (y - x) * s.output ≤ (y - x) * (u * s.input) :=
          mul_le_mul_of_nonneg_left hu (sub_nonneg.mpr hxy)
      _ = u * (y - x) * s.input := by ring
  have hsplit : y * s.output / s.input = x * s.output / s.input + (y - x) * s.output / s.input := by
    rw [← add_div]
    ring
  rw [hsplit]
  exact add_le_add_right hle _

theorem curve_sub_le {u x y : K} {ss : List (Segment K)} (hss : Proper ss)
    (hrate : ∀ s ∈ ss, s.output ≤ u * s.input) (hu : 0 ≤ u) (hx : 0 ≤ x) (hxy : x ≤ y) :
    curve ss y ≤ curve ss x + u * (y - x) := by
  induction ss generalizing x y with
  | nil =>
    rw [curve, curve, zero_add]
    exact mul_nonneg hu (sub_nonneg.mpr hxy)
  | cons s ss ih =>
    have hs := hss.head.1
    have hrate' : ∀ t ∈ ss, t.output ≤ u * t.input := fun t ht => hrate t (List.mem_cons_of_mem s ht)
    by_cases hys : s.input ≤ y
    · by_cases hxs : s.input ≤ x
      · have hgrow := ih hss.tail hrate' (sub_nonneg.mpr hxs) (sub_le_sub_right hxy s.input)
        rw [curve_cons_of_le hys, curve_cons_of_le hxs]
        linarith
      · -- the segment ends between the two amounts
        have hgrow := ih hss.tail hrate' le_rfl (sub_nonneg.mpr hys)
        have hseg := div_sub_div_le hs (hrate s (by simp)) (not_le.mp hxs).le
        rw [curve_zero hss.tail] at hgrow
        rw [mul_div_assoc, mul_div_cancel₀ _ hs.ne'] at hseg
        rw [curve_cons_of_le hys, curve_cons_of_lt (not_le.mp hxs)]
        linarith
    · have hxs : x < s.input := hxy.trans_lt (not_le.mp hys)
      rw [curve_cons_of_lt (not_le.mp hys), curve_cons_of_lt hxs]
      exact div_sub_div_le hs (hrate s (by simp)) hxy

theorem le_curve {l x : K} {ss : List (Segment K)} (hss : Proper ss)
    (hrate : ∀ s ∈ ss, l * s.input ≤ s.output) (hx : 0 ≤ x) (htotal : x ≤ totalInput ss) :
    l * x ≤ curve ss x := by
  induction ss generalizing x with
  | nil =>
    have hx0 : x = 0 := le_antisymm htotal hx
    rw [hx0, mul_zero]
    exact le_rfl
  | cons s ss ih =>
    have hs := hss.head.1
    by_cases hxs : s.input ≤ x
    · have hrest : x - s.input ≤ totalInput ss := by
        rw [totalInput, List.map_cons, List.sum_cons] at htotal
        exact sub_le_iff_le_add'.mpr htotal
      have htail := ih hss.tail (fun t ht => hrate t (List.mem_cons_of_mem s ht))
        (sub_nonneg.mpr hxs) hrest
      have hhead := hrate s (by simp)
      rw [curve_cons_of_le hxs]
      linarith
    · rw [curve_cons_of_lt (not_le.mp hxs), le_div_iff₀ hs]
      calc l * x * s.input = x * (l * s.input) := by ring
        _ ≤ x * s.output := mul_le_mul_of_nonneg_left (hrate s (by simp)) hx

theorem curve_nonneg {ss : List (Segment K)} {x : K} (hss : Proper ss) (hx : 0 ≤ x)
    (htotal : x ≤ totalInput ss) : 0 ≤ curve ss x := by
  have := le_curve hss (fun s hs => by rw [zero_mul]; exact (hss s hs).2) hx htotal
  rwa [zero_mul] at this

theorem curve_le_totalOutput {x : K} {ss : List (Segment K)} (hss : Proper ss) (hx : 0 ≤ x) :
    curve ss x ≤ totalOutput ss := by
  induction ss generalizing x with
  | nil => exact le_rfl
  | cons s ss ih =>
    rw [totalOutput, List.map_cons, List.sum_cons]
    by_cases hxs : s.input ≤ x
    · rw [curve_cons_of_le hxs]
      exact add_le_add_right (ih hss.tail (sub_nonneg.mpr hxs)) _
    · have hrest : 0 ≤ totalOutput ss := by
        refine List.sum_nonneg fun y hy => ?_
        obtain ⟨t, ht, rfl⟩ := List.mem_map.mp hy
        exact (hss.tail t ht).2
      have hhead : x * s.output / s.input ≤ s.output := by
        rw [div_le_iff₀ hss.head.1, mul_comm s.output]
        exact mul_le_mul_of_nonneg_right (not_le.mp hxs).le hss.head.2
      rw [curve_cons_of_lt (not_le.mp hxs)]
      linarith [show (List.map Segment.output ss).sum = totalOutput ss from rfl]

/-- Segments behind the amount pay nothing. -/
theorem curve_append {x : K} {ss ts : List (Segment K)} (hss : Proper ss) (hts : Proper ts)
    (hx : 0 ≤ x) (htotal : x ≤ totalInput ss) : curve (ss ++ ts) x = curve ss x := by
  induction ss generalizing x with
  | nil =>
    have hx0 : x = 0 := le_antisymm htotal hx
    rw [hx0, List.nil_append, curve_zero hts]
    rfl
  | cons s ss ih =>
    rw [List.cons_append]
    by_cases hxs : s.input ≤ x
    · have hrest : x - s.input ≤ totalInput ss := by
        rw [totalInput, List.map_cons, List.sum_cons] at htotal
        exact sub_le_iff_le_add'.mpr htotal
      rw [curve_cons_of_le hxs, curve_cons_of_le hxs, ih hss.tail (sub_nonneg.mpr hxs) hrest]
    · rw [curve_cons_of_lt (not_le.mp hxs), curve_cons_of_lt (not_le.mp hxs)]

/-! ## Falling rates -/

omit [IsStrictOrderedRing K] in
theorem rateGe_getLast {s k : Segment K} : ∀ {ss : List (Segment K)}, ss.Pairwise RateGe →
    ss.getLast? = some k → s ∈ ss → RateGe s k
  | [], _, h, _ => by simp at h
  | [t], _, h, hs => by
    obtain rfl : t = k := by simpa using h
    obtain rfl := List.mem_singleton.mp hs
    exact le_rfl
  | t :: u :: ss, hrate, h, hs => by
    obtain ⟨ht, hrest⟩ := List.pairwise_cons.mp hrate
    rw [List.getLast?_cons_cons] at h
    rcases List.mem_cons.mp hs with rfl | hs
    · exact ht k (List.mem_of_getLast? h)
    · exact rateGe_getLast hrest h hs

theorem curve_le_first_rate {s : Segment K} {ss : List (Segment K)} {x : K} (hss : Proper ss)
    (hrate : ss.Pairwise RateGe) (hs : s ∈ ss.head?) (hx : 0 ≤ x) :
    curve ss x * s.input ≤ x * s.output := by
  obtain ⟨ts, rfl⟩ := List.head?_eq_some_iff.mp hs
  have hpos := hss.head.1
  have hbest : ∀ t ∈ s :: ts, t.output ≤ s.output / s.input * t.input := by
    intro t ht
    rw [div_mul_eq_mul_div, le_div_iff₀ hpos, mul_comm t.output, mul_comm s.output]
    rcases List.mem_cons.mp ht with rfl | ht
    · exact le_rfl
    · exact (List.pairwise_cons.mp hrate).1 t ht
  have hgrow := curve_sub_le hss hbest (div_nonneg hss.head.2 hpos.le) le_rfl hx
  rw [curve_zero hss, zero_add, sub_zero] at hgrow
  calc curve (s :: ts) x * s.input ≤ s.output / s.input * x * s.input :=
        mul_le_mul_of_nonneg_right hgrow hpos.le
    _ = x * s.output := by field_simp

theorem last_rate_le_curve {k : Segment K} {ss : List (Segment K)} {x : K} (hss : Proper ss)
    (hrate : ss.Pairwise RateGe) (hk : ss.getLast? = some k) (hx : 0 ≤ x)
    (htotal : x ≤ totalInput ss) : x * k.output ≤ curve ss x * k.input := by
  have hpos := (hss k (List.mem_of_getLast? hk)).1
  have hworst : ∀ s ∈ ss, k.output / k.input * s.input ≤ s.output := by
    intro s hs
    rw [div_mul_eq_mul_div, div_le_iff₀ hpos, mul_comm k.output, mul_comm s.output]
    exact rateGe_getLast hrate hk hs
  have hgrow := le_curve hss hworst hx htotal
  calc x * k.output = k.output / k.input * x * k.input := by field_simp
    _ ≤ curve ss x * k.input := mul_le_mul_of_nonneg_right hgrow hpos.le

/-! ## Units -/

/-- The segment in other units, `a` of the input and `b` of the output to one. -/
def Segment.scale (a b : K) (s : Segment K) : Segment K := ⟨a * s.input, b * s.output⟩

omit [LinearOrder K] [IsStrictOrderedRing K] in
theorem totalInput_scale (a b : K) (ss : List (Segment K)) :
    totalInput (ss.map (Segment.scale a b)) = a * totalInput ss := by
  rw [totalInput, totalInput, List.map_map]
  exact List.sum_map_mul_left ss Segment.input a

/-- **A curve in other units.** -/
theorem curve_scale {a : K} (ha : 0 < a) (b : K) (ss : List (Segment K)) (x : K) :
    curve (ss.map (Segment.scale a b)) (a * x) = b * curve ss x := by
  induction ss generalizing x with
  | nil => exact (mul_zero b).symm
  | cons s ss ih =>
    have hinput : (s.scale a b).input ≤ a * x ↔ s.input ≤ x := mul_le_mul_iff_right₀ ha
    rw [List.map_cons]
    by_cases hx : s.input ≤ x
    · rw [curve_cons_of_le (hinput.mpr hx), curve_cons_of_le hx, Segment.scale, ← mul_sub, ih,
        mul_add]
    · have hlt := not_le.mp hx
      have hlt' := not_le.mp (mt hinput.mp hx)
      rw [curve_cons_of_lt hlt', curve_cons_of_lt hlt, Segment.scale, mul_assoc,
        mul_div_mul_left _ _ ha.ne', mul_left_comm, mul_div_assoc]

/-! ## Optimality -/

/-- The payout of an allocation, each part at the rate of its segment. -/
def payout (ss : List (Segment K)) (xs : List K) : K :=
  (List.zipWith (fun s x => x * s.output / s.input) ss xs).sum

/-- Taking a part from the best segment first pays at least as much. -/
theorem exchange {s : Segment K} {ss : List (Segment K)} {x y : K} (hss : Proper (s :: ss))
    (hrate : ∀ t ∈ ss, RateGe s t) (hxs : x ≤ s.input) (hy : 0 ≤ y) :
    x * s.output / s.input + curve ss y ≤ curve (s :: ss) (x + y) := by
  obtain ⟨hs, hout⟩ := hss.head
  have hbest : ∀ t ∈ ss, t.output ≤ s.output / s.input * t.input := by
    intro t ht
    rw [div_mul_eq_mul_div, le_div_iff₀ hs, mul_comm t.output, mul_comm s.output]
    exact hrate t ht
  have hu : 0 ≤ s.output / s.input := div_nonneg hout hs.le
  by_cases hfull : s.input ≤ x + y
  · -- what the segment still takes would otherwise be paid at a lower rate
    have hgrow := curve_sub_le hss.tail hbest hu (show 0 ≤ x + y - s.input by linarith)
      (show x + y - s.input ≤ y by linarith)
    have hcancel : s.output / s.input * (y - (x + y - s.input)) =
        s.output - x * s.output / s.input := by
      field_simp
      ring
    rw [curve_cons_of_le hfull]
    linarith
  · have hgrow := curve_sub_le hss.tail hbest hu le_rfl hy
    rw [curve_zero hss.tail] at hgrow
    rw [curve_cons_of_lt (not_le.mp hfull), add_mul, add_div]
    have hcomm : s.output / s.input * (y - 0) = y * s.output / s.input := by ring
    linarith

/-- **On falling rates no allocation of an amount pays more than the curve.** -/
theorem payout_le_curve {ss : List (Segment K)} {xs : List K} (hss : Proper ss)
    (hrate : ss.Pairwise RateGe) (h : List.Forall₂ (fun s x => 0 ≤ x ∧ x ≤ s.input) ss xs) :
    payout ss xs ≤ curve ss xs.sum := by
  induction h with
  | nil => exact le_rfl
  | @cons s x ss xs hsx hrest ih =>
    obtain ⟨hhead, htail⟩ := List.pairwise_cons.mp hrate
    have hsum : 0 ≤ xs.sum := by
      refine List.sum_nonneg fun y hy => ?_
      obtain ⟨i, hi, rfl⟩ := List.getElem_of_mem hy
      exact ((List.forall₂_iff_get.mp hrest).2 i (hrest.length_eq ▸ hi) hi).1
    rw [payout, List.zipWith_cons_cons, List.sum_cons, List.sum_cons]
    calc x * s.output / s.input + payout ss xs
        ≤ x * s.output / s.input + curve ss xs.sum := add_le_add_right (ih hss.tail htail) _
      _ ≤ curve (s :: ss) (x + xs.sum) := exchange hss hhead hsx.2 hsum

end PayoutCurve
