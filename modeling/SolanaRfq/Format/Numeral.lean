import Mathlib.Algebra.Order.Floor.Ring
import Mathlib.Algebra.Order.Floor.Semifield
import Mathlib.Data.Nat.Digits.Lemmas
import Mathlib.Tactic.FieldSimp
import Mathlib.Tactic.Positivity

/-!
# Positional numerals

Strings of digits in a base `b`, most significant digit first, and numerals with a fraction.

* `number`: the number a string of digits spells; `number_append`, `number_take`: gluing strings
  and cutting one off;
* `Numeral`, `Numeral.value`: a numeral with an optional fraction, and the number it stands for;
* `rescale`: a number of `f` fraction digits moved to `d` of them, with integers only;
* **`floor_rescale`**, **`number_fraction_rightpad`**: rescaling is one rounding down of the exact
  value, and cutting or padding the fraction is rescaling;
* `floor_value_mul_pow`, `floor_value_mul_value_mul_pow`: both for numerals and their products.
-/

namespace Positional

variable {b : ℕ}

/-! ## Strings of digits -/

/-- The number a string of digits spells, most significant digit first. -/
def number (ds : List (Fin b)) : ℕ := Nat.ofDigits b (ds.map Fin.val).reverse

theorem number_append (ds es : List (Fin b)) :
    number (ds ++ es) = number ds * b ^ es.length + number es := by
  rw [number, List.map_append, List.reverse_append, Nat.ofDigits_append, List.length_reverse,
    List.length_map, number, number]
  ring

theorem number_replicate_zero [NeZero b] (n : ℕ) : number (List.replicate n (0 : Fin b)) = 0 := by
  rw [number, List.map_replicate, List.reverse_replicate, Fin.val_zero,
    Nat.ofDigits_replicate_zero]

theorem number_zero_cons [NeZero b] (ds : List (Fin b)) : number (0 :: ds) = number ds := by
  rw [← List.singleton_append, number_append, ← List.replicate_one, number_replicate_zero,
    zero_mul, zero_add]

theorem number_append_replicate_zero [NeZero b] (ds : List (Fin b)) (n : ℕ) :
    number (ds ++ List.replicate n 0) = number ds * b ^ n := by
  rw [number_append, number_replicate_zero, List.length_replicate, add_zero]

/-- Cutting digits off at the end divides, rounding down. -/
theorem number_take [NeZero b] (ds : List (Fin b)) (n : ℕ) :
    number (ds.take n) = number ds / b ^ (ds.length - n) := by
  have hlt : ∀ d ∈ (ds.map Fin.val).reverse, d < b := by
    intro d hd
    obtain ⟨e, -, rfl⟩ := List.mem_map.mp (List.mem_reverse.mp hd)
    exact e.isLt
  rw [number, number, Nat.ofDigits_div_pow_eq_ofDigits_drop _ (NeZero.pos b) _ hlt,
    List.map_take, List.reverse_take, List.length_map]

/-! ## Rescaling -/

/-- A number with `f` digits behind the point, moved to `d` of them and rounded down. -/
def rescale (b n f d : ℕ) : ℕ := if f ≤ d then n * b ^ (d - f) else n / b ^ (f - d)

section Floor

variable {K : Type*} [Field K] [LinearOrder K] [IsStrictOrderedRing K] [FloorSemiring K]

/-- **Rescaling with integers rounds the exact value down once.** -/
theorem floor_rescale [NeZero b] (n f d : ℕ) :
    ⌊(n : K) / (b : K) ^ f * (b : K) ^ d⌋₊ = rescale b n f d := by
  have hb : (b : K) ≠ 0 := NeZero.ne _
  unfold rescale
  split_ifs with h
  · obtain ⟨k, rfl⟩ := Nat.exists_eq_add_of_le h
    have hval : (n : K) / (b : K) ^ f * (b : K) ^ (f + k) = ((n * b ^ k : ℕ) : K) := by
      push_cast
      rw [pow_add]
      field_simp
    rw [hval, Nat.floor_natCast, Nat.add_sub_cancel_left]
  · obtain ⟨k, rfl⟩ := Nat.exists_eq_add_of_le (not_le.mp h).le
    have hval : (n : K) / (b : K) ^ (d + k) * (b : K) ^ d = (n : K) / ((b ^ k : ℕ) : K) := by
      push_cast
      rw [pow_add]
      field_simp
    rw [hval, Nat.floor_div_eq_div, Nat.add_sub_cancel_left]

theorem cast_rescale_of_le [NeZero b] (n : ℕ) {f d : ℕ} (h : f ≤ d) :
    (rescale b n f d : K) = (n : K) / (b : K) ^ f * (b : K) ^ d := by
  have hb : (b : K) ≠ 0 := NeZero.ne _
  obtain ⟨k, rfl⟩ := Nat.exists_eq_add_of_le h
  rw [rescale, if_pos h, Nat.add_sub_cancel_left, pow_add]
  push_cast
  field_simp

end Floor

/-- **Cutting the fraction at `d` digits, or padding it with zeros to `d`, is rescaling.** -/
theorem number_fraction_rightpad [NeZero b] (whole fraction : List (Fin b)) (d : ℕ) :
    number (whole ++ (fraction.take d).rightpad d 0) =
      rescale b (number (whole ++ fraction)) fraction.length d := by
  unfold rescale List.rightpad
  split_ifs with h
  · rw [List.take_of_length_le h, ← List.append_assoc, number_append_replicate_zero]
  · have hd : d ≤ fraction.length := (not_le.mp h).le
    have hcut : whole ++ fraction.take d = (whole ++ fraction).take (whole.length + d) := by
      rw [List.take_length_add_append]
    rw [List.length_take_of_le hd, Nat.sub_self, List.replicate_zero, List.append_nil, hcut,
      number_take, List.length_append, Nat.add_sub_add_left]

/-! ## Numerals -/

/-- A numeral: at least one digit, and an optional fraction. -/
structure Numeral (b : ℕ) where
  whole : List (Fin b)
  fraction : List (Fin b)
  whole_ne_nil : whole ≠ []

namespace Numeral

/-- All digits, the point left out. -/
def digits (x : Numeral b) : List (Fin b) := x.whole ++ x.fraction

theorem digits_ne_nil (x : Numeral b) : x.digits ≠ [] :=
  List.append_ne_nil_of_left_ne_nil x.whole_ne_nil _

variable {K : Type*} [Field K]

/-- The number a numeral stands for: its whole part and its fraction. -/
def value (K : Type*) [Field K] (x : Numeral b) : K :=
  number x.whole + number x.fraction / (b : K) ^ x.fraction.length

theorem value_eq [CharZero K] [NeZero b] (x : Numeral b) :
    x.value K = number x.digits / (b : K) ^ x.fraction.length := by
  have hb : (b : K) ≠ 0 := NeZero.ne _
  rw [value, digits, number_append]
  push_cast
  field_simp

section Floor

variable [LinearOrder K] [IsStrictOrderedRing K]

theorem value_nonneg (x : Numeral b) : 0 ≤ x.value K := by
  unfold value
  positivity

variable [FloorRing K] [NeZero b]

theorem floor_value_mul_pow (x : Numeral b) (d : ℕ) :
    ⌊x.value K * (b : K) ^ d⌋ = rescale b (number x.digits) x.fraction.length d := by
  have hnonneg : 0 ≤ x.value K * (b : K) ^ d := mul_nonneg x.value_nonneg (by positivity)
  rw [← Int.natCast_floor_eq_floor hnonneg, value_eq, floor_rescale]

/-- The same for a product: the fractions of both add up. -/
theorem floor_value_mul_value_mul_pow (x y : Numeral b) (d : ℕ) :
    ⌊x.value K * y.value K * (b : K) ^ d⌋ =
      rescale b (number x.digits * number y.digits) (x.fraction.length + y.fraction.length) d := by
  have hnonneg : 0 ≤ x.value K * y.value K * (b : K) ^ d :=
    mul_nonneg (mul_nonneg x.value_nonneg y.value_nonneg) (by positivity)
  rw [← Int.natCast_floor_eq_floor hnonneg, value_eq, value_eq, div_mul_div_comm, ← Nat.cast_mul,
    ← pow_add, floor_rescale]

end Floor

end Numeral

end Positional
