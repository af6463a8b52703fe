import SolanaRfq.Program.SweepCurve

/-!
# The exact meaning of a sweep

On any list of levels, sorted or not, with zeros or not.

* `StopsAt`: the walk fills `k` levels and stops, with nothing left or inside level `k`;
* `stopsAt_cons_full_iff`, `stopsAt_cons_part_iff`: one turn; **`sweepLoop_eq_ok_iff`**: the walk;
* `sweepLoop_append`: the walk over a ladder in two parts;
* **`sweep_eq_ok_iff_stopsAt`**: a sweep succeeds exactly when the walk stops, and the levels behind
  the last touched one do not matter;
* **`sweep_mono`**: a larger amount never pays less, and pays more past the end of a level.
-/

namespace SolanaRfq

open Fallible

variable {side : Side}

/-! ## Where a walk stops -/

/-- The walk over `levels` fills the first `k` of them, none degenerate, and ends there with nothing
left of `amount`, or with a remainder that level `k` fills in part for at least one atom. -/
structure StopsAt (side : Side) (levels : List Level) (amount out k : ℕ) : Prop where
  le : k ≤ levels.length
  filled : ∀ l ∈ levels.take k, 0 < (l.inAtoms side).toNat ∧ 0 < (l.outAtoms side).toNat
  spent : sumIn side (levels.take k) ≤ amount
  rest : amount = sumIn side (levels.take k) ∧ out = sumOut side (levels.take k) ∨
    ∃ l, levels[k]? = some l ∧ 0 < (l.inAtoms side).toNat ∧ 0 < (l.outAtoms side).toNat ∧
      0 < amount - sumIn side (levels.take k) ∧
      amount - sumIn side (levels.take k) < (l.inAtoms side).toNat ∧
      1 ≤ (amount - sumIn side (levels.take k)) * (l.outAtoms side).toNat /
        (l.inAtoms side).toNat ∧
      out = sumOut side (levels.take k) +
        (amount - sumIn side (levels.take k)) * (l.outAtoms side).toNat / (l.inAtoms side).toNat

@[simp] theorem sumIn_nil : sumIn side [] = 0 := rfl

@[simp] theorem sumOut_nil : sumOut side [] = 0 := rfl

@[simp] theorem sumIn_cons (l : Level) (levels : List Level) :
    sumIn side (l :: levels) = (l.inAtoms side).toNat + sumIn side levels := by
  simp [sumIn]

@[simp] theorem sumOut_cons (l : Level) (levels : List Level) :
    sumOut side (l :: levels) = (l.outAtoms side).toNat + sumOut side levels := by
  simp [sumOut]

theorem stopsAt_zero_iff {levels : List Level} {out k : ℕ} :
    StopsAt side levels 0 out k ↔ k = 0 ∧ out = 0 := by
  constructor
  · intro h
    have hk : k = 0 := by
      by_contra hk
      obtain ⟨j, rfl⟩ := Nat.exists_eq_succ_of_ne_zero hk
      cases levels with
      | nil => exact absurd h.le (by simp)
      | cons l levels =>
        have hl := (h.filled l (by simp)).1
        have hspent := h.spent
        rw [List.take_succ_cons, sumIn_cons] at hspent
        omega
    subst hk
    rcases h.rest with ⟨-, hout⟩ | ⟨l, -, -, -, hpos, -⟩
    · exact ⟨rfl, hout⟩
    · omega
  · rintro ⟨rfl, rfl⟩
    exact ⟨Nat.zero_le _, by simp, by simp, .inl (by simp)⟩

theorem StopsAt.tail {l : Level} {levels : List Level} {amount out k : ℕ}
    (h : StopsAt side (l :: levels) amount out (k + 1)) : (l.outAtoms side).toNat ≤ out ∧
      StopsAt side levels (amount - (l.inAtoms side).toNat) (out - (l.outAtoms side).toNat) k := by
  have hspent := h.spent
  have hrest := h.rest
  rw [List.take_succ_cons] at hspent hrest
  simp only [sumIn_cons, sumOut_cons, List.getElem?_cons_succ] at hspent hrest
  have hle : k ≤ levels.length := by simpa using h.le
  have hfilled : ∀ j ∈ levels.take k, 0 < (j.inAtoms side).toNat ∧ 0 < (j.outAtoms side).toNat :=
    fun j hj => h.filled j (by rw [List.take_succ_cons]; exact List.mem_cons_of_mem l hj)
  rw [← Nat.sub_sub] at hrest
  rcases hrest with ⟨hamount, hout⟩ | ⟨l', hl', hin, hpos, hr, hlt, hp, hout⟩
  · exact ⟨by omega, hle, hfilled, by omega, .inl ⟨by omega, by omega⟩⟩
  · rw [Nat.add_assoc] at hout
    exact ⟨hout ▸ Nat.le_add_right _ _, hle, hfilled, by omega,
      .inr ⟨l', hl', hin, hpos, hr, hlt, hp, by omega⟩⟩

theorem StopsAt.cons {l : Level} {levels : List Level} {amount out k : ℕ}
    (hl : 0 < (l.inAtoms side).toNat ∧ 0 < (l.outAtoms side).toNat)
    (hle : (l.inAtoms side).toNat ≤ amount) (hout : (l.outAtoms side).toNat ≤ out)
    (h : StopsAt side levels (amount - (l.inAtoms side).toNat) (out - (l.outAtoms side).toNat) k) :
    StopsAt side (l :: levels) amount out (k + 1) := by
  have hspent := h.spent
  refine ⟨by simpa using h.le, ?_, ?_, ?_⟩
  · rw [List.take_succ_cons]
    exact List.forall_mem_cons.mpr ⟨hl, h.filled⟩
  · rw [List.take_succ_cons, sumIn_cons]
    omega
  · rw [List.take_succ_cons]
    simp only [sumIn_cons, sumOut_cons, List.getElem?_cons_succ]
    rw [← Nat.sub_sub]
    rcases h.rest with ⟨hamount, hout'⟩ | ⟨l', hl', hin', hpos', hr, hlt, hp, hout'⟩
    · exact .inl ⟨by omega, by omega⟩
    · exact .inr ⟨l', hl', hin', hpos', hr, hlt, hp, by omega⟩

theorem stopsAt_cons_full_iff {l : Level} {levels : List Level} {amount out : ℕ}
    (h0 : 0 < amount) (hle : (l.inAtoms side).toNat ≤ amount) :
    (∃ k, StopsAt side (l :: levels) amount out k) ↔
      0 < (l.inAtoms side).toNat ∧ 0 < (l.outAtoms side).toNat ∧ (l.outAtoms side).toNat ≤ out ∧
        ∃ k, StopsAt side levels (amount - (l.inAtoms side).toNat)
          (out - (l.outAtoms side).toNat) k := by
  constructor
  · rintro ⟨k, h⟩
    cases k with
    | zero =>
      -- a walk that stops inside the first level does not fill it
      rcases h.rest with ⟨hamount, -⟩ | ⟨l', hl', -, -, -, hlt, -⟩
      · simp at hamount
        omega
      · obtain rfl : l = l' := by simpa using hl'
        simp at hlt
        omega
    | succ k =>
      obtain ⟨hin, hpos⟩ := h.filled l (by simp)
      exact ⟨hin, hpos, h.tail.1, k, h.tail.2⟩
  · rintro ⟨hin, hpos, hout, k, h⟩
    exact ⟨k + 1, h.cons ⟨hin, hpos⟩ hle hout⟩

theorem stopsAt_cons_part_iff {l : Level} {levels : List Level} {amount out : ℕ}
    (h0 : 0 < amount) (hlt : amount < (l.inAtoms side).toNat) :
    (∃ k, StopsAt side (l :: levels) amount out k) ↔ 0 < (l.outAtoms side).toNat ∧
      1 ≤ amount * (l.outAtoms side).toNat / (l.inAtoms side).toNat ∧
      out = amount * (l.outAtoms side).toNat / (l.inAtoms side).toNat := by
  constructor
  · rintro ⟨k, h⟩
    cases k with
    | zero =>
      rcases h.rest with ⟨hamount, -⟩ | ⟨l', hl', -, hpos, -, -, hp, hout⟩
      · simp at hamount
        omega
      · obtain rfl : l = l' := by simpa using hl'
        simp only [List.take_zero, sumIn_nil, sumOut_nil, Nat.sub_zero, Nat.zero_add] at hp hout
        exact ⟨hpos, hp, hout⟩
    | succ k =>
      have hspent := h.spent
      rw [List.take_succ_cons, sumIn_cons] at hspent
      omega
  · rintro ⟨hpos, hp, hout⟩
    refine ⟨0, Nat.zero_le _, by simp, by simp, .inr ⟨l, rfl, by omega, hpos, ?_⟩⟩
    simpa using ⟨h0, hlt, hp, hout⟩

/-! ## The walk -/

theorem toNat_pos_of_ne_zero {x : UInt64} (h : x ≠ 0) : 0 < x.toNat :=
  UInt64.lt_iff_toNat_lt.mp (UInt64.pos_iff_ne_zero.mpr h)

/-- **A walk spends everything exactly when it stops.** -/
theorem sweepLoop_eq_ok_iff {levels : List Level} {remaining out out' : UInt64} :
    sweepLoop side levels remaining out = .ok (0, out') ↔ out.toNat ≤ out'.toNat ∧
      ∃ k, StopsAt side levels remaining.toNat (out'.toNat - out.toNat) k := by
  induction levels generalizing remaining out with
  | nil =>
    rw [sweepLoop, Except.ok.injEq, Prod.mk.injEq]
    constructor
    · rintro ⟨rfl, rfl⟩
      exact ⟨le_rfl, 0, stopsAt_zero_iff.mpr ⟨rfl, Nat.sub_self _⟩⟩
    · rintro ⟨hle, k, h⟩
      obtain rfl : k = 0 := Nat.le_zero.mp h.le
      rcases h.rest with ⟨hamount, hout⟩ | ⟨l, hl, -⟩
      · refine ⟨UInt64.toNat_inj.mp hamount, UInt64.toNat_inj.mp ?_⟩
        have hout' : out'.toNat - out.toNat = 0 := hout
        omega
      · exact absurd hl (by simp)
  | cons l levels ih =>
    by_cases h0 : remaining = 0
    · subst h0
      rw [sweepLoop_zero, Except.ok.injEq, Prod.mk.injEq, ← UInt64.toNat_inj (a := out)]
      constructor
      · rintro ⟨-, hout⟩
        exact ⟨hout.le, 0, stopsAt_zero_iff.mpr ⟨rfl, by omega⟩⟩
      · rintro ⟨hle, k, h⟩
        have hout := (stopsAt_zero_iff.mp h).2
        exact ⟨rfl, by omega⟩
    · have hpos := toNat_pos_of_ne_zero h0
      by_cases hle : l.inAtoms side ≤ remaining
      · have hle' := UInt64.le_iff_toNat_le.mp hle
        rw [sweepLoop_full_eq_ok_iff h0 hle, stopsAt_cons_full_iff hpos hle']
        simp only [ih, UInt64.toNat_sub_of_le _ _ hle]
        constructor
        · rintro ⟨⟨hin, hout⟩, out₁, hadd, hmono, k, hk⟩
          rw [hadd, ← Nat.sub_sub] at hk
          exact ⟨by omega, hin, hout, by omega, k, hk⟩
        · rintro ⟨hmono, hin, hout, hadd, k, hk⟩
          have hlt := out'.toNat_lt
          have hsum : (out + l.outAtoms side).toNat = out.toNat + (l.outAtoms side).toNat := by
            rw [UInt64.toNat_add]
            exact Nat.mod_eq_of_lt (by omega)
          refine ⟨⟨hin, hout⟩, out + l.outAtoms side, hsum, by omega, k, ?_⟩
          rwa [hsum, ← Nat.sub_sub]
      · have hlt : remaining.toNat < (l.inAtoms side).toNat :=
          UInt64.lt_iff_toNat_lt.mp (UInt64.not_le.mp hle)
        rw [sweepLoop_part_eq_ok_iff h0 hle, stopsAt_cons_part_iff hpos hlt,
          ← partialOutAtoms_eq side remaining l]
        constructor
        · rintro ⟨⟨-, hout⟩, hp, -, hadd⟩
          exact ⟨by omega, hout, hp, by omega⟩
        · rintro ⟨hmono, hout, hp, hadd⟩
          exact ⟨⟨by omega, hout⟩, hp, rfl, by omega⟩

/-! ## The sweep -/

theorem sweepLoop_append (levels rest : List Level) (remaining out : UInt64) :
    sweepLoop side (levels ++ rest) remaining out =
      sweepLoop side levels remaining out >>= fun p => sweepLoop side rest p.1 p.2 := by
  induction levels generalizing remaining out with
  | nil => rfl
  | cons l levels ih =>
    rw [List.cons_append]
    by_cases h0 : remaining = 0
    · subst h0
      rw [sweepLoop_zero, sweepLoop_zero]
      exact (sweepLoop_zero rest out).symm
    · by_cases hle : l.inAtoms side ≤ remaining
      · rw [sweepLoop_full h0 hle, sweepLoop_full h0 hle]
        simp only [ih, bind_assoc]
      · rw [sweepLoop_part h0 hle, sweepLoop_part h0 hle]
        simp only [bind_assoc, pure_bind, sweepLoop_zero]
        rfl

/-- A walk that ends in an error or with nothing left does not go on to the levels behind. -/
theorem sweepLoop_append_of_ended {levels : List Level} {remaining out : UInt64}
    (h : ∀ p, sweepLoop side levels remaining out = .ok p → p.1 = 0) (rest : List Level) :
    sweepLoop side (levels ++ rest) remaining out = sweepLoop side levels remaining out := by
  rw [sweepLoop_append]
  cases hloop : sweepLoop side levels remaining out with
  | error e => rfl
  | ok p =>
    obtain ⟨remaining', out'⟩ := p
    obtain rfl : remaining' = 0 := h _ hloop
    exact sweepLoop_zero rest out'

/-- **A sweep succeeds exactly when the walk stops, and the levels behind the one where a walk ends
do not change its result or its error.** -/
theorem sweep_eq_ok_iff_stopsAt (side : Side) (amountIn minOutAtoms : UInt64)
    (levels : List Level) :
    (∀ out : ℕ, (∃ o, sweep side amountIn minOutAtoms levels = .ok o ∧ o.toNat = out) ↔
      (∃ k, StopsAt side levels amountIn.toNat out k) ∧ out ≤ 2 ^ 64 - 1 ∧
        minOutAtoms.toNat ≤ out) ∧
    ((∀ p, sweepLoop side levels amountIn 0 = .ok p → p.1 = 0) → ∀ rest,
      sweep side amountIn minOutAtoms (levels ++ rest) = sweep side amountIn minOutAtoms levels) := by
  refine ⟨fun out => ?_, fun h rest => ?_⟩
  · simp only [sweep_eq_ok_iff, sweepLoop_eq_ok_iff]
    constructor
    · rintro ⟨o, ⟨⟨-, hk⟩, hmin⟩, rfl⟩
      exact ⟨hk, Nat.le_pred_of_lt o.toNat_lt, UInt64.le_iff_toNat_le.mp hmin⟩
    · rintro ⟨hk, hmax, hmin⟩
      have hcast : (UInt64.ofNat out).toNat = out :=
        UInt64.toNat_ofNat_of_lt' (Nat.lt_succ_of_le hmax)
      refine ⟨UInt64.ofNat out, ⟨⟨Nat.zero_le _, ?_⟩, UInt64.le_iff_toNat_le.mpr ?_⟩, hcast⟩
      · rw [hcast]
        exact hk
      · rw [hcast]
        exact hmin
  · rw [sweep, sweepLoop_append_of_ended h]
    rfl

/-- A degenerate level behind the touched ones does not matter. -/
theorem sweep_stopsAt_sample :
    sweep .bid 150 1 ([⟨10, 100⟩, ⟨10, 110⟩] ++ [⟨0, 7⟩]) =
      sweep .bid 150 1 [⟨10, 100⟩, ⟨10, 110⟩] := by
  have hloop : sweepLoop .bid [⟨10, 100⟩, ⟨10, 110⟩] 150 0 = .ok (0, 14) := by decide
  refine (sweep_eq_ok_iff_stopsAt .bid 150 1 [⟨10, 100⟩, ⟨10, 110⟩]).2 (fun p hp => ?_) [⟨0, 7⟩]
  rw [hloop] at hp
  rw [← Except.ok.inj hp]

/-! ## Monotonicity -/

theorem partialOutAtoms_mono {x y : UInt64} (h : x ≤ y) (l : Level) :
    partialOutAtoms side x l ≤ partialOutAtoms side y l := by
  rw [partialOutAtoms_eq, partialOutAtoms_eq]
  exact Nat.div_le_div_right (Nat.mul_le_mul_right _ (UInt64.le_iff_toNat_le.mp h))

theorem sweepLoop_full_pair {l : Level} {levels : List Level} {x y out out₁ out₂ : UInt64}
    (hx0 : x ≠ 0) (hin : l.inAtoms side ≤ x) (hxy : x ≤ y)
    (hx : sweepLoop side (l :: levels) x out = .ok (0, out₁))
    (hy : sweepLoop side (l :: levels) y out = .ok (0, out₂)) :
    ∃ out', sweepLoop side levels (x - l.inAtoms side) out' = .ok (0, out₁) ∧
      sweepLoop side levels (y - l.inAtoms side) out' = .ok (0, out₂) := by
  have hy0 : y ≠ 0 := by
    rintro rfl
    exact hx0 (UInt64.le_zero_iff.mp hxy)
  obtain ⟨-, out', hadd, hrest⟩ := (sweepLoop_full_eq_ok_iff hx0 hin).mp hx
  obtain ⟨-, out'', hadd', hrest'⟩ :=
    (sweepLoop_full_eq_ok_iff hy0 (UInt64.le_trans hin hxy)).mp hy
  obtain rfl : out' = out'' := UInt64.toNat_inj.mp (hadd.trans hadd'.symm)
  exact ⟨out', hrest, hrest'⟩

theorem sweepLoop_mono {levels : List Level} {x y out out₁ out₂ : UInt64} (hxy : x ≤ y)
    (hx : sweepLoop side levels x out = .ok (0, out₁))
    (hy : sweepLoop side levels y out = .ok (0, out₂)) : out₁.toNat ≤ out₂.toNat := by
  induction levels generalizing x y out with
  | nil =>
    obtain ⟨-, rfl⟩ := Prod.mk.inj (Except.ok.inj hx)
    exact sweepLoop_out_le hy
  | cons l levels ih =>
    cases turn_of_sweepLoop hx with
    | done h0 _ hout =>
      rw [hout]
      exact sweepLoop_out_le hy
    | full _ h0 hle _ _ _ _ =>
      have hle' : l.inAtoms side ≤ y := UInt64.le_trans hle hxy
      obtain ⟨out', hrest, hrest'⟩ := sweepLoop_full_pair h0 hle hxy hx hy
      refine ih ?_ hrest hrest'
      rw [UInt64.le_iff_toNat_le, UInt64.toNat_sub_of_le _ _ hle, UInt64.toNat_sub_of_le _ _ hle']
      exact Nat.sub_le_sub_right (UInt64.le_iff_toNat_le.mp hxy) _
    | part h0 hlt _ hpos hp _ hadd =>
      cases turn_of_sweepLoop hy with
      | done h0' _ _ =>
        subst h0'
        exact absurd (UInt64.le_zero_iff.mp hxy) h0
      | full out'' _ _ _ _ hadd' hrest' =>
        have hless := partialOutAtoms_lt hlt hpos
        have hmono := sweepLoop_out_le hrest'
        omega
      | part _ _ _ _ _ _ hadd' =>
        have hmono : partialOutAtoms side x l ≤ partialOutAtoms side y l :=
          partialOutAtoms_mono hxy l
        omega

theorem sweepLoop_zero_lt {levels : List Level} {y out out₁ out₂ : UInt64} (hy0 : 0 < y)
    (hx : sweepLoop side levels 0 out = .ok (0, out₁))
    (hy : sweepLoop side levels y out = .ok (0, out₂)) : out₁.toNat < out₂.toNat := by
  rw [sweepLoop_zero] at hx
  obtain ⟨-, rfl⟩ := Prod.mk.inj (Except.ok.inj hx)
  exact sweepLoop_out_lt (UInt64.pos_iff_ne_zero.mp hy0) hy

/-- A walk that goes on behind the end of a level pays more than one that ends there. -/
theorem sweepLoop_strictMono {levels : List Level} {k : ℕ} {x y out out₁ out₂ : UInt64}
    (hxy : x < y) (hsum : x.toNat = sumIn side (levels.take k))
    (hx : sweepLoop side levels x out = .ok (0, out₁))
    (hy : sweepLoop side levels y out = .ok (0, out₂)) : out₁.toNat < out₂.toNat := by
  induction levels generalizing k x y out with
  | nil =>
    rw [List.take_nil, sumIn_nil] at hsum
    obtain rfl : x = 0 := UInt64.toNat_inj.mp hsum
    exact sweepLoop_zero_lt hxy hx hy
  | cons l levels ih =>
    by_cases h0 : x = 0
    · subst h0
      exact sweepLoop_zero_lt hxy hx hy
    cases k with
    | zero =>
      rw [List.take_zero, sumIn_nil] at hsum
      exact absurd (UInt64.toNat_inj.mp hsum) h0
    | succ k =>
      rw [List.take_succ_cons, sumIn_cons] at hsum
      have hle : l.inAtoms side ≤ x := UInt64.le_iff_toNat_le.mpr (by omega)
      -- the prefix begins with the first level, so both walks fill it
      obtain ⟨out', hrest, hrest'⟩ := sweepLoop_full_pair h0 hle (UInt64.le_of_lt hxy) hx hy
      have hxsub := UInt64.toNat_sub_of_le _ _ hle
      have hysub := UInt64.toNat_sub_of_le _ _ (UInt64.le_trans hle (UInt64.le_of_lt hxy))
      have hxy' := UInt64.lt_iff_toNat_lt.mp hxy
      refine ih (k := k) ?_ (by omega) hrest hrest'
      rw [UInt64.lt_iff_toNat_lt, hxsub, hysub]
      omega

/-- **A larger amount never pays less, and pays more past the end of a level.** -/
theorem sweep_mono (side : Side) {levels : List Level}
    {amountIn amountIn' minOutAtoms minOutAtoms' out out' : UInt64} (hle : amountIn ≤ amountIn')
    (h : sweep side amountIn minOutAtoms levels = .ok out)
    (h' : sweep side amountIn' minOutAtoms' levels = .ok out') :
    out ≤ out' ∧ (amountIn < amountIn' →
      (∃ k ≤ levels.length, amountIn.toNat = sumIn side (levels.take k)) → out < out') := by
  have hwalk := (sweep_eq_ok_iff.mp h).1
  have hwalk' := (sweep_eq_ok_iff.mp h').1
  refine ⟨UInt64.le_iff_toNat_le.mpr (sweepLoop_mono hle hwalk hwalk'), ?_⟩
  rintro hlt ⟨k, -, hsum⟩
  exact UInt64.lt_iff_toNat_lt.mpr (sweepLoop_strictMono hlt hsum hwalk hwalk')

theorem sweep_mono_sample : (10 : UInt64) ≤ 14 ∧ (((100 : UInt64) < 150) →
    (∃ k ≤ 2, (100 : UInt64).toNat = sumIn .bid ([⟨10, 100⟩, ⟨10, 110⟩].take k)) →
      (10 : UInt64) < 14) :=
  sweep_mono .bid (by decide : (100 : UInt64) ≤ 150)
    (by decide : sweep .bid 100 1 [⟨10, 100⟩, ⟨10, 110⟩] = .ok 10)
    (by decide : sweep .bid 150 1 [⟨10, 100⟩, ⟨10, 110⟩] = .ok 14)

end SolanaRfq
