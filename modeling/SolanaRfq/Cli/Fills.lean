import SolanaRfq.Cli.Levels
import SolanaRfq.Program.BestExecution

/-!
# What a typed ladder pays

A fill against a ladder of whole atoms pays what the typed decimals say: the amount in whole tokens is
spent on the typed quantities in order, each at its typed price, and the payout is rounded down once, to
an atom.

* `typedSegment`: a typed level, in whole tokens; `atomsIn`, `atomsOut`: the atoms of a token;
* `ExactAtoms.segment_eq`, `segments_eq`: the levels on chain are the typed ones in atoms;
* **`typed_fill_exact`**: the payout of a fill.
-/

namespace SolanaRfq

open PayoutCurve

/-! ## Typed levels -/

/-- A typed quantity and its price, as the taker sees them: what it pays, and what it receives. -/
def typedSegment : Side → Decimal × Decimal → Segment ℚ
  | .bid, (q, p) => ⟨q.value ℚ * p.value ℚ, q.value ℚ⟩
  | .ask, (q, p) => ⟨q.value ℚ, q.value ℚ * p.value ℚ⟩

variable (baseDecimals quoteDecimals : ℕ)

/-- The atoms of one token that the taker pays. -/
def atomsIn : Side → ℚ
  | .bid => 10 ^ quoteDecimals
  | .ask => 10 ^ baseDecimals

/-- The atoms of one token that the taker receives. -/
def atomsOut : Side → ℚ
  | .bid => 10 ^ baseDecimals
  | .ask => 10 ^ quoteDecimals

theorem atomsIn_pos (side : Side) : 0 < atomsIn baseDecimals quoteDecimals side := by
  cases side <;> exact pow_pos (by norm_num) _

/-- The texts of a level spell a quantity and a price. -/
def TypedAs {BN : Type} (o : ParsedLevel BN) (t : Decimal × Decimal) : Prop :=
  Spells o.qty o.price t.1 t.2

variable {baseDecimals quoteDecimals}

theorem ExactAtoms.segment_eq {level : Level} {t : Decimal × Decimal}
    (h : ExactAtoms baseDecimals quoteDecimals level t.1 t.2) (side : Side) :
    level.segment side = (typedSegment side t).scale (atomsIn baseDecimals quoteDecimals side)
      (atomsOut baseDecimals quoteDecimals side) := by
  obtain ⟨q, p⟩ := t
  cases side with
  | bid =>
    have hin : ((level.inAtoms .bid).toNat : ℚ) = 10 ^ quoteDecimals * (q.value ℚ * p.value ℚ) :=
      h.quote.trans (mul_comm _ _)
    have hout : ((level.outAtoms .bid).toNat : ℚ) = 10 ^ baseDecimals * q.value ℚ :=
      h.base.trans (mul_comm _ _)
    rw [Level.segment, hin, hout]
    rfl
  | ask =>
    have hin : ((level.inAtoms .ask).toNat : ℚ) = 10 ^ baseDecimals * q.value ℚ :=
      h.base.trans (mul_comm _ _)
    have hout : ((level.outAtoms .ask).toNat : ℚ) = 10 ^ quoteDecimals * (q.value ℚ * p.value ℚ) :=
      h.quote.trans (mul_comm _ _)
    rw [Level.segment, hin, hout]
    rfl

/-! ## Typed ladders -/

section Ladder

variable {BN : Type} {source : LevelSource} {bn : LevelNumber BN} {src : JsString}
  {out : List (ParsedLevel BN)} {levels : List Level} {typed : List (Decimal × Decimal)}

theorem forall₂_exactAtoms
    (h : parseLevels source bn baseDecimals quoteDecimals src = .ok out)
    (hfit : List.Forall₂ (OnChain bn) out levels)
    (hwhole : ∀ o ∈ out, WholeAtoms baseDecimals quoteDecimals o)
    (htyped : List.Forall₂ TypedAs out typed) : List.Forall₂ (fun level t =>
      ExactAtoms baseDecimals quoteDecimals level t.1 t.2) levels typed := by
  refine (forall₂_join hfit htyped).imp fun level t hlevel => ?_
  obtain ⟨o, ho, hlevel, hspells⟩ := hlevel
  obtain ⟨q, p, hparsed⟩ := parsed_of_mem h o ho
  rw [spell_injective (hspells.qty.symm.trans hparsed.spells.qty),
    spell_injective (hspells.price.symm.trans hparsed.spells.price)]
  exact hparsed.exactAtoms hlevel (hwhole o ho)

theorem segments_eq (h : List.Forall₂ (fun level t =>
      ExactAtoms baseDecimals quoteDecimals level t.1 t.2) levels typed) (side : Side) :
    segments side levels = (typed.map (typedSegment side)).map (Segment.scale
      (atomsIn baseDecimals quoteDecimals side) (atomsOut baseDecimals quoteDecimals side)) := by
  induction h with
  | nil => rfl
  | cons hlevel _ ih =>
    rw [segments] at ih ⊢
    rw [List.map_cons, ih, hlevel.segment_eq side]
    rfl

end Ladder

/-! ## Fills -/

/-- **A fill against a typed ladder pays the typed decimals**, rounded down once to an atom, and takes
no more than was typed. -/
theorem typed_fill_exact {BN : Type} {source : LevelSource} {bn : LevelNumber BN} {src : JsString}
    {out : List (ParsedLevel BN)} {typed : List (Decimal × Decimal)} {rt : Runtime} {f : FillCall}
    {w' : World} (h : parseLevels source bn baseDecimals quoteDecimals src = .ok out)
    (hfit : List.Forall₂ (OnChain bn) out f.params.levels)
    (hwhole : ∀ o ∈ out, WholeAtoms baseDecimals quoteDecimals o)
    (htyped : List.Forall₂ TypedAs out typed) (hrun : f.run rt = (.ok (), w')) :
    f.amountInAtoms.toNat / atomsIn baseDecimals quoteDecimals f.takerSide ≤
        totalInput (typed.map (typedSegment f.takerSide)) ∧
      f.amountOutAtoms.toNat = ⌊atomsOut baseDecimals quoteDecimals f.takerSide *
        curve (typed.map (typedSegment f.takerSide))
          (f.amountInAtoms.toNat / atomsIn baseDecimals quoteDecimals f.takerSide)⌋₊ := by
  obtain ⟨clock, amountOut, l₁, l₂, haccepts, hsorted, hsweep, -⟩ := (run_eq_ok_iff rt f w').mp hrun
  have hout : f.amountOutAtoms = amountOut := by
    rw [FillCall.amountOutAtoms, hsweep]
  obtain ⟨-, henough, hpaid⟩ :=
    sweep_curve ((assertSortedFor_eq_ok_iff _ _).mpr hsorted) haccepts.amount hsweep
  have hsegments := segments_eq (forall₂_exactAtoms h hfit hwhole htyped) f.takerSide
  have hpos := atomsIn_pos baseDecimals quoteDecimals f.takerSide
  have hamount : (f.amountInAtoms.toNat : ℚ) = atomsIn baseDecimals quoteDecimals f.takerSide *
      (f.amountInAtoms.toNat / atomsIn baseDecimals quoteDecimals f.takerSide) :=
    (mul_div_cancel₀ _ hpos.ne').symm
  constructor
  · have htotal : totalInput (segments f.takerSide f.params.levels) = _ := totalInput_segments _
    rw [hsegments, totalInput_scale] at htotal
    rw [div_le_iff₀' hpos, htotal]
    exact Nat.cast_le.mpr henough
  · rw [hout, hpaid, hsegments]
    conv_lhs => rw [hamount]
    rw [curve_scale hpos]

/-! ### The sample ladder -/

/-- `2.5` at `0.4` and `2` at `2`. -/
def sampleTyped : List (Decimal × Decimal) := sampleQuantities.zip samplePrices

theorem typedAs_sample : List.Forall₂ TypedAs sampleParsed sampleTyped := by
  refine .cons ?_ (.cons ?_ .nil)
  · exact Spells.mk (by decide) (by decide)
  · exact Spells.mk (by decide) (by decide)

/-- A bid for the first level of the sample ladder and half of the second. -/
def sampleTypedCall : FillCall := { sampleRefusedCall with amountInAtoms := 30 }

/-- For three quote tokens the sample ladder pays three and a half base tokens. -/
theorem typed_fill_exact_sample : (35 : UInt64).toNat = ⌊atomsOut 1 1 .bid *
    curve (sampleTyped.map (typedSegment .bid)) ((30 : UInt64).toNat / atomsIn 1 1 .bid)⌋₊ := by
  have hrun : (sampleTypedCall.run (.ofClock ⟨5, 100⟩)).1 = .ok () := by decide +kernel
  have hpaid := (typed_fill_exact parseLevels_sample onChain_sample wholeAtoms_sample typedAs_sample
    (f := sampleTypedCall) (Prod.ext hrun rfl)).2
  have hout : sampleTypedCall.amountOutAtoms = 35 := by decide
  rw [hout] at hpaid
  exact hpaid

end SolanaRfq
