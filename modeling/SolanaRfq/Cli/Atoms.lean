import SolanaRfq.Cli.JsString
import SolanaRfq.Format.Fallible
import Mathlib.Data.Rat.Floor

/-!
# Decimals to atoms

`scripts/cli.ts`: a level is typed as two decimals, a quantity and a price, and turned into base and
quote atoms. The big integers come from a library, of which `BigNumber` has the operations used.

* `decimalToAtoms`, `qtyPriceToAtoms`: the conversions; `scaleProduct`: the last step of the second;
* `decimalToAtoms_of_spell`, `scaleProduct_eq_ok`: each of them is one rescaling;
* **`qtyPriceToAtoms_exact`**: both amounts are exact values rounded down once, and every string
  that is no decimal is refused.
-/

namespace SolanaRfq

open Positional JsString Fallible

/-- A thrown `Error`. -/
structure JsError where
  message : JsString
deriving DecidableEq

/-! ## Big integers -/

/-- A big-integer library. The JavaScript numbers it is given are lengths and decimals, taken as
integers. -/
structure BigNumber (BN : Type) where
  value : BN → ℤ
  ofString : JsString → Except JsError BN
  ofNumber : ℤ → BN
  mul : BN → BN → BN
  pow : BN → BN → BN
  div : BN → BN → Except JsError BN
  /-- Strings of decimal digits are read as they are meant. -/
  ofString_digits (ds : List (Fin 10)) : ds ≠ [] →
    ∃ x, ofString (ds.map digitUnit) = .ok x ∧ value x = number ds
  value_ofNumber (n : ℤ) : value (ofNumber n) = n
  value_mul (x y : BN) : value (mul x y) = value x * value y
  value_pow (x y : BN) (n : ℕ) : value y = n → value (pow x y) = value x ^ n
  /-- Division truncates towards zero. -/
  div_eq_ok (x y : BN) : value y ≠ 0 →
    ∃ z, div x y = .ok z ∧ value z = (value x).tdiv (value y)

/-- The digit a code unit stands for. -/
def digitOf (u : UInt16) : Option (Fin 10) :=
  if h : 0x30 ≤ u.toNat ∧ u.toNat < 0x30 + 10 then some ⟨u.toNat - 0x30, by omega⟩ else none

theorem digitOf_digitUnit (d : Fin 10) : digitOf (digitUnit d) = some d := by decide +revert

theorem mapM_digitOf (ds : List (Fin 10)) : (ds.map digitUnit).mapM digitOf = some ds := by
  induction ds with
  | nil => rfl
  | cons d ds ih =>
    rw [List.map_cons, List.mapM_cons, digitOf_digitUnit, ih]
    rfl

/-- The integers are such a library. -/
def BigNumber.integers : BigNumber ℤ where
  value := id
  ofString s :=
    match s.mapM digitOf with
    | some ds => .ok (number ds)
    | none => .error ⟨ofLiteral "Invalid character"⟩
  ofNumber := id
  mul x y := x * y
  pow x y := x ^ y.natAbs
  div x y := if y = 0 then .error ⟨ofLiteral "Assertion failed"⟩ else .ok (x.tdiv y)
  ofString_digits ds _ := ⟨number ds, by rw [mapM_digitOf], rfl⟩
  value_ofNumber _ := rfl
  value_mul _ _ := rfl
  value_pow x y n h := by
    obtain rfl : y = n := h
    rfl
  div_eq_ok x y h := ⟨x.tdiv y, if_neg h, rfl⟩

/-! ## The conversions -/

section Conversion

variable {BN : Type} (bn : BigNumber BN)

/-- A decimal text in atoms, digits behind them cut off. -/
def decimalToAtoms (value : JsString) (decimals : ℕ) (field : JsString) : Except JsError BN :=
  let s := trim value
  if decimalRe.rmatch s = false then
    throw ⟨field ++ ofLiteral ": must be a non-negative decimal, got \"" ++ value ++
      ofLiteral "\""⟩
  else
    let (whole, frac) := splitPoint s
    -- digits beyond `decimals` are cut off
    let trimmedFrac := frac.take decimals
    let padded := trimmedFrac.rightpad decimals zeroUnit
    bn.ofString (stripZeros (whole ++ padded))

/-- The product of the digits, moved by `exp` places. -/
def scaleProduct (product : BN) (exp : ℤ) : Except JsError BN :=
  if exp ≥ 0 then
    return bn.mul product (bn.pow (bn.ofNumber 10) (bn.ofNumber exp))
  else
    bn.div product (bn.pow (bn.ofNumber 10) (bn.ofNumber (-exp)))

/-- The error of `qtyPriceToAtoms`, with both inputs as they were typed. -/
def qtyPriceError (qty price : JsString) : JsError :=
  ⟨ofLiteral "qty/price must be non-negative decimals; got qty=\"" ++ qty ++
    ofLiteral "\" price=\"" ++ price ++ ofLiteral "\""⟩

/-- The two amounts of a level. -/
structure LevelAtoms (BN : Type) where
  baseAtoms : BN
  quoteAtoms : BN

/-- A typed quantity and price in atoms of the two sides. -/
def qtyPriceToAtoms (qty price : JsString) (baseDecimals quoteDecimals : ℕ) :
    Except JsError (LevelAtoms BN) :=
  let q := trim qty
  let p := trim price
  if decimalRe.rmatch q = false ∨ decimalRe.rmatch p = false then
    throw (qtyPriceError qty price)
  else do
    let baseAtoms ← decimalToAtoms bn q baseDecimals (ofLiteral "qty")
    let (qw, qf) := splitPoint q
    let (pw, pf) := splitPoint p
    let qScaled ← bn.ofString (stripZeros (qw ++ qf))
    let pScaled ← bn.ofString (stripZeros (pw ++ pf))
    -- the value is `product` with `qf.length + pf.length` fraction digits
    let product := bn.mul qScaled pScaled
    let exp : ℤ := quoteDecimals - qf.length - pf.length
    let quoteAtoms ← scaleProduct bn product exp
    return ⟨baseAtoms, quoteAtoms⟩

/-! ## Each conversion rescales once -/

theorem BigNumber.ofString_stripZeros {ds : List (Fin 10)} (hne : ds ≠ []) :
    ∃ x, bn.ofString (stripZeros (ds.map digitUnit)) = .ok x ∧ bn.value x = number ds := by
  obtain ⟨es, hes, hstrip, hnumber⟩ := exists_stripZeros hne
  rw [hstrip, ← hnumber]
  exact bn.ofString_digits es hes

theorem BigNumber.value_pow_ten (n : ℕ) :
    bn.value (bn.pow (bn.ofNumber 10) (bn.ofNumber n)) = (10 ^ n : ℕ) := by
  rw [bn.value_pow _ _ n (bn.value_ofNumber n), bn.value_ofNumber]
  push_cast
  rfl

theorem decimalToAtoms_of_spell {value : JsString} {x : Decimal} (h : trim value = x.spell)
    (decimals : ℕ) (field : JsString) :
    ∃ atoms, decimalToAtoms bn value decimals field = .ok atoms ∧
      bn.value atoms = rescale 10 (number x.digits) x.fraction.length decimals := by
  have hmatch : ¬ decimalRe.rmatch x.spell = false := by simp [decimalRe_rmatch_spell]
  have hne : x.whole ++ (x.fraction.take decimals).rightpad decimals 0 ≠ [] :=
    List.append_ne_nil_of_left_ne_nil x.whole_ne_nil _
  rw [Numeral.digits, ← number_fraction_rightpad]
  unfold decimalToAtoms
  simp only [h, splitPoint_spell, rightpad_take_map]
  rw [if_neg hmatch, ← List.map_append]
  exact bn.ofString_stripZeros hne

/-- Above and below the point alike, the last step moves `f` fraction digits to `d`. -/
theorem scaleProduct_eq_ok {product : BN} {n : ℕ} (hn : bn.value product = n) (f d : ℕ) :
    ∃ z, scaleProduct bn product (d - f) = .ok z ∧ bn.value z = rescale 10 n f d := by
  unfold scaleProduct rescale
  by_cases h : f ≤ d
  · rw [if_pos h, if_pos (by omega), ← Nat.cast_sub h]
    refine ⟨_, rfl, ?_⟩
    rw [bn.value_mul, hn, bn.value_pow_ten, Nat.cast_mul]
  · have hexp : -((d : ℤ) - f) = (f - d : ℕ) := by omega
    have hpow : bn.value (bn.pow (bn.ofNumber 10) (bn.ofNumber (f - d : ℕ))) ≠ 0 := by
      rw [bn.value_pow_ten]
      positivity
    -- the product is not negative, so truncation is rounding down
    obtain ⟨z, hz, hvalue⟩ := bn.div_eq_ok product _ hpow
    rw [if_neg h, if_neg (by omega), hexp]
    refine ⟨z, hz, ?_⟩
    rw [hvalue, hn, bn.value_pow_ten, Int.tdiv_eq_ediv_of_nonneg (by positivity), Int.natCast_ediv]

theorem qtyPriceToAtoms_of_spell {qty price : JsString} {q p : Decimal} (hq : trim qty = q.spell)
    (hp : trim price = p.spell) (baseDecimals quoteDecimals : ℕ) :
    ∃ atoms, qtyPriceToAtoms bn qty price baseDecimals quoteDecimals = .ok atoms ∧
      bn.value atoms.baseAtoms = rescale 10 (number q.digits) q.fraction.length baseDecimals ∧
      bn.value atoms.quoteAtoms = rescale 10 (number q.digits * number p.digits)
        (q.fraction.length + p.fraction.length) quoteDecimals := by
  have hmatch : ¬ (decimalRe.rmatch q.spell = false ∨ decimalRe.rmatch p.spell = false) := by
    simp [decimalRe_rmatch_spell]
  obtain ⟨baseAtoms, hbase, hbaseValue⟩ :=
    decimalToAtoms_of_spell bn (trim_spell q) baseDecimals (ofLiteral "qty")
  obtain ⟨qScaled, hqScaled, hqValue⟩ := bn.ofString_stripZeros q.digits_ne_nil
  obtain ⟨pScaled, hpScaled, hpValue⟩ := bn.ofString_stripZeros p.digits_ne_nil
  have hproduct : bn.value (bn.mul qScaled pScaled) = (number q.digits * number p.digits : ℕ) := by
    rw [bn.value_mul, hqValue, hpValue, Nat.cast_mul]
  obtain ⟨quoteAtoms, hquote, hquoteValue⟩ := scaleProduct_eq_ok bn hproduct
    (q.fraction.length + p.fraction.length) quoteDecimals
  refine ⟨⟨baseAtoms, quoteAtoms⟩, ?_, hbaseValue, hquoteValue⟩
  unfold qtyPriceToAtoms
  simp only [hq, hp, splitPoint_spell, ← List.map_append, List.length_map]
  rw [if_neg hmatch, except_bind_eq_ok]
  refine ⟨baseAtoms, hbase, ?_⟩
  rw [except_bind_eq_ok]
  refine ⟨qScaled, hqScaled, ?_⟩
  rw [except_bind_eq_ok]
  refine ⟨pScaled, hpScaled, ?_⟩
  rw [except_bind_eq_ok]
  refine ⟨quoteAtoms, ?_, rfl⟩
  rw [← hquote, sub_sub, Nat.cast_add]

theorem qtyPriceToAtoms_eq_error {qty price : JsString}
    (h : ¬ ∃ q p : Decimal, trim qty = q.spell ∧ trim price = p.spell)
    (baseDecimals quoteDecimals : ℕ) :
    qtyPriceToAtoms bn qty price baseDecimals quoteDecimals = .error (qtyPriceError qty price) := by
  have hmatch : decimalRe.rmatch (trim qty) = false ∨ decimalRe.rmatch (trim price) = false := by
    by_contra hboth
    rw [not_or, Bool.not_eq_false, Bool.not_eq_false, decimalRe_rmatch_iff,
      decimalRe_rmatch_iff] at hboth
    obtain ⟨⟨q, hq⟩, p, hp⟩ := hboth
    exact h ⟨q, p, hq.symm, hp.symm⟩
  unfold qtyPriceToAtoms
  rw [if_pos hmatch]
  rfl

/-- **Two decimals become the exact amounts of atoms, each rounded down once**, however many
fraction digits they have; any other pair of strings is refused. -/
theorem qtyPriceToAtoms_exact (qty price : JsString) (baseDecimals quoteDecimals : ℕ) :
    (∀ q p : Decimal, trim qty = q.spell → trim price = p.spell →
      ∃ atoms, qtyPriceToAtoms bn qty price baseDecimals quoteDecimals = .ok atoms ∧
        bn.value atoms.baseAtoms = ⌊q.value ℚ * 10 ^ baseDecimals⌋ ∧
        bn.value atoms.quoteAtoms = ⌊q.value ℚ * p.value ℚ * 10 ^ quoteDecimals⌋) ∧
    ((¬ ∃ q p : Decimal, trim qty = q.spell ∧ trim price = p.spell) →
      qtyPriceToAtoms bn qty price baseDecimals quoteDecimals =
        .error (qtyPriceError qty price)) := by
  refine ⟨fun q p hq hp => ?_, fun h => qtyPriceToAtoms_eq_error bn h _ _⟩
  obtain ⟨atoms, hatoms, hbase, hquote⟩ :=
    qtyPriceToAtoms_of_spell bn hq hp baseDecimals quoteDecimals
  have hfloorBase := Numeral.floor_value_mul_pow (K := ℚ) q baseDecimals
  have hfloorQuote := Numeral.floor_value_mul_value_mul_pow (K := ℚ) q p quoteDecimals
  rw [Nat.cast_ofNat] at hfloorBase hfloorQuote
  exact ⟨atoms, hatoms, hbase.trans hfloorBase.symm, hquote.trans hfloorQuote.symm⟩

end Conversion

/-- `" 1.5"` at `"2.25"`, with no base decimals and one quote decimal: `33.75` becomes `33`. -/
theorem qtyPriceToAtoms_exact_fractions :
    ∃ atoms, qtyPriceToAtoms .integers [0x20, 0x31, 0x2E, 0x35] [0x32, 0x2E, 0x32, 0x35] 0 1 =
        .ok atoms ∧
      BigNumber.integers.value atoms.baseAtoms =
        ⌊Numeral.value ℚ (⟨[1], [5], by simp⟩ : Decimal) * 10 ^ 0⌋ ∧
      BigNumber.integers.value atoms.quoteAtoms =
        ⌊Numeral.value ℚ (⟨[1], [5], by simp⟩ : Decimal) *
          Numeral.value ℚ (⟨[2], [2, 5], by simp⟩ : Decimal) * 10 ^ 1⌋ :=
  (qtyPriceToAtoms_exact .integers [0x20, 0x31, 0x2E, 0x35] [0x32, 0x2E, 0x32, 0x35] 0 1).1
    ⟨[1], [5], by simp⟩ ⟨[2], [2, 5], by simp⟩ (by decide) (by decide)

/-- No rounding between the two factors: `1.5 · 2.25 = 3.375`. -/
example : (qtyPriceToAtoms .integers [0x31, 0x2E, 0x35] [0x32, 0x2E, 0x32, 0x35] 0 1).map
    (fun atoms => (atoms.baseAtoms, atoms.quoteAtoms)) = .ok (1, 33) := by decide

end SolanaRfq
