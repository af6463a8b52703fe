import SolanaRfq.Format.Grammar
import Mathlib.Data.List.DropRight

/-!
# Decimal strings of the command line

`scripts/cli.ts`: the string operations on a decimal amount. A JavaScript string is its list of
UTF-16 code units.

* `trim`, `splitPoint`, `stripZeros`: the operations; `decimalRe`: the accepted spellings;
* **`decimalRe_rmatch_iff`**: the accepted strings are the spelled decimals;
* `trim_spell`, `splitPoint_spell`, `exists_stripZeros`: what the operations do to these.
-/

namespace SolanaRfq

open Positional

/-- A string, by its code units. -/
abbrev JsString := List UInt16

namespace JsString

/-- An ASCII literal of the source. -/
def ofLiteral (s : String) : JsString := s.toList.map fun c => UInt16.ofNat c.toNat

/-! ## The operations -/

/-- White space and line terminators. -/
def isSpace (u : UInt16) : Bool :=
  u ∈ ([0x0009, 0x000A, 0x000B, 0x000C, 0x000D, 0x0020, 0x00A0, 0x1680, 0x2000, 0x2001, 0x2002,
    0x2003, 0x2004, 0x2005, 0x2006, 0x2007, 0x2008, 0x2009, 0x200A, 0x2028, 0x2029, 0x202F,
    0x205F, 0x3000, 0xFEFF] : List UInt16)

/-- `s.trim()`. -/
def trim (s : JsString) : JsString := (s.dropWhile isSpace).rdropWhile isSpace

/-- The code unit of a digit. -/
def digitUnit (d : Fin 10) : UInt16 := 0x30 + UInt16.ofNat d

/-- The code unit of `"0"`. -/
def zeroUnit : UInt16 := 0x30

/-- The code unit of the decimal point. -/
def point : UInt16 := 0x2E

/-- `[whole, frac = ""] = s.split(".")`. -/
def splitPoint (s : JsString) : JsString × JsString :=
  match s.splitOn point with
  | whole :: frac :: _ => (whole, frac)
  | [whole] => (whole, [])
  | [] => ([], [])

/-- The class `\d`. -/
def isDigit (u : UInt16) : Bool := 0x30 ≤ u && u ≤ 0x39

/-- `s.replace(/^0+(?=\d)/, "")`: leading zeros go as long as a digit follows. -/
def stripZeros : JsString → JsString
  | u :: v :: s => if u = zeroUnit ∧ isDigit v then stripZeros (v :: s) else u :: v :: s
  | s => s

/-- `\d` as a regular expression. -/
def digitRe : RegularExpression UInt16 := oneOf (List.ofFn digitUnit)

/-- `DECIMAL_RE`, which is `/^\d+(\.\d+)?$/`. -/
def decimalRe : RegularExpression UInt16 :=
  oneOrMore digitRe * optional (.char point * oneOrMore digitRe)

end JsString

/-! ## Spelled decimals -/

/-- A decimal numeral. -/
abbrev Decimal := Numeral 10

/-- A decimal as a string. -/
def Decimal.spell (x : Decimal) : JsString := Numeral.spell JsString.digitUnit JsString.point x

namespace JsString

theorem digitUnit_ne_point (d : Fin 10) : digitUnit d ≠ point := by decide +revert

theorem isDigit_digitUnit (d : Fin 10) : isDigit (digitUnit d) = true := by decide +revert

theorem isSpace_digitUnit (d : Fin 10) : isSpace (digitUnit d) = false := by decide +revert

theorem digitUnit_eq_zeroUnit_iff (d : Fin 10) : digitUnit d = zeroUnit ↔ d = 0 := by decide +revert

/-- **The accepted strings are the spelled decimals.** -/
theorem decimalRe_rmatch_iff {s : JsString} :
    decimalRe.rmatch s = true ↔ ∃ x : Decimal, x.spell = s := by
  rw [RegularExpression.rmatch_iff_matches']
  exact mem_grammar digitUnit point

theorem decimalRe_rmatch_spell (x : Decimal) : decimalRe.rmatch x.spell = true :=
  decimalRe_rmatch_iff.mpr ⟨x, rfl⟩

theorem trim_eq_self {s : JsString} (h : ∀ u ∈ s, isSpace u = false) : trim s = s := by
  have hspace {u : UInt16} (hu : u ∈ s) : ¬ isSpace u = true := by simp [h u hu]
  unfold trim
  rw [List.dropWhile_eq_self_iff.mpr fun hl => hspace (List.getElem_mem _),
    List.rdropWhile_eq_self_iff.mpr fun hl => hspace (List.getLast_mem hl)]

theorem trim_spell (x : Decimal) : trim x.spell = x.spell := by
  refine trim_eq_self fun u hu => ?_
  rcases mem_spell hu with ⟨d, rfl⟩ | rfl
  · exact isSpace_digitUnit d
  · decide

theorem splitPoint_spell (x : Decimal) :
    splitPoint x.spell = (x.whole.map digitUnit, x.fraction.map digitUnit) := by
  rw [splitPoint, Decimal.spell, splitOn_spell digitUnit_ne_point]
  by_cases h : x.fraction = []
  · rw [if_pos h, h, List.map_nil]
  · rw [if_neg h]

theorem rightpad_take_map (ds : List (Fin 10)) (n : ℕ) :
    ((ds.map digitUnit).take n).rightpad n zeroUnit =
      ((ds.take n).rightpad n 0).map digitUnit := by
  have hzero : digitUnit 0 = zeroUnit := rfl
  rw [← List.map_take, List.rightpad, List.rightpad, List.length_map, List.map_append,
    List.map_replicate, hzero]

theorem stripZeros_cons_cons (d e : Fin 10) (ds : List (Fin 10)) :
    stripZeros ((d :: e :: ds).map digitUnit) =
      if d = 0 then stripZeros ((e :: ds).map digitUnit) else (d :: e :: ds).map digitUnit := by
  simp only [List.map_cons, stripZeros, digitUnit_eq_zeroUnit_iff, isDigit_digitUnit, and_true]

theorem exists_stripZeros {ds : List (Fin 10)} (hne : ds ≠ []) :
    ∃ es : List (Fin 10), es ≠ [] ∧ stripZeros (ds.map digitUnit) = es.map digitUnit ∧
      number es = number ds := by
  induction ds with
  | nil => exact absurd rfl hne
  | cons d ds ih =>
    cases ds with
    | nil => exact ⟨[d], hne, rfl, rfl⟩
    | cons e ds =>
      rw [stripZeros_cons_cons]
      by_cases hd : d = 0
      · rw [if_pos hd, hd, number_zero_cons]
        exact ih (List.cons_ne_nil e ds)
      · rw [if_neg hd]
        exact ⟨d :: e :: ds, hne, rfl, rfl⟩

end JsString

end SolanaRfq
