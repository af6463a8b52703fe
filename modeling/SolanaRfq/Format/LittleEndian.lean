import Mathlib.Data.Nat.Digits.Lemmas
import Mathlib.Tactic.Ring

/-!
# Little-endian words

* `ofLE w`: the number a byte string spells; `toLE n v`: the `n` low bytes of `v`.
* `ofLE_toLE`, `toLE_ofLE`: the two are inverse on numbers below `256 ^ n`.
* **`ofLE_eq_iff`**: a string of length `n` spells `v` exactly when it is `toLE n v`;
* `forall_byte`: a property of bytes, by the 256 cases.
-/

namespace ByteFormat

/-- The number a byte string spells, least significant byte first. -/
def ofLE (w : List UInt8) : ℕ := Nat.ofDigits 256 (w.map UInt8.toNat)

/-- The `n` low bytes of `v`, least significant byte first. -/
def toLE : ℕ → ℕ → List UInt8
  | 0, _ => []
  | n + 1, v => UInt8.ofNat v :: toLE n (v / 256)

theorem length_toLE (n v : ℕ) : (toLE n v).length = n := by
  induction n generalizing v with
  | zero => rfl
  | succ n ih => rw [toLE, List.length_cons, ih]

theorem ofLE_cons (b : UInt8) (w : List UInt8) : ofLE (b :: w) = b.toNat + 256 * ofLE w := by
  simp only [ofLE, List.map_cons, Nat.ofDigits_cons]

theorem ofLE_toLE (n v : ℕ) (h : v < 256 ^ n) : ofLE (toLE n v) = v := by
  induction n generalizing v with
  | zero =>
    have : v = 0 := by simpa using h
    subst this
    rfl
  | succ n ih =>
    have hlt : v / 256 < 256 ^ n := by
      rw [Nat.div_lt_iff_lt_mul (by norm_num)]
      rwa [pow_succ] at h
    rw [toLE, ofLE_cons, ih _ hlt, UInt8.toNat_ofNat']
    omega

theorem ofLE_lt (w : List UInt8) : ofLE w < 256 ^ w.length := by
  have h : ∀ d ∈ w.map UInt8.toNat, d < 256 := by
    intro d hd
    obtain ⟨b, -, rfl⟩ := List.mem_map.mp hd
    exact b.toNat_lt
  have := Nat.ofDigits_lt_base_pow_length (by norm_num) h
  rwa [List.length_map] at this

theorem toLE_ofLE (w : List UInt8) : toLE w.length (ofLE w) = w := by
  induction w with
  | nil => rfl
  | cons b w ih =>
    have hb := b.toNat_lt
    have hdiv : (b.toNat + 256 * ofLE w) / 256 = ofLE w := by omega
    have hmod : UInt8.ofNat (b.toNat + 256 * ofLE w) = b := by
      apply UInt8.toNat_inj.mp
      rw [UInt8.toNat_ofNat']
      omega
    rw [List.length_cons, toLE, ofLE_cons, hdiv, hmod, ih]

/-- **A byte string of length `n` spells `v` exactly when it is the encoding of `v`.** -/
theorem ofLE_eq_iff {n v : ℕ} (hv : v < 256 ^ n) (w : List UInt8) :
    w.length = n ∧ ofLE w = v ↔ w = toLE n v := by
  constructor
  · rintro ⟨rfl, rfl⟩
    exact (toLE_ofLE w).symm
  · rintro rfl
    exact ⟨length_toLE n v, ofLE_toLE n v hv⟩

theorem forall_byte {p : UInt8 → Prop} (h : ∀ x : Fin 256, p (UInt8.ofNat x)) (b : UInt8) : p b := by
  have hb : p (UInt8.ofNat b.toNat) := h ⟨b.toNat, b.toNat_lt⟩
  rwa [UInt8.ofNat_toNat] at hb

theorem exists_toLE {n : ℕ} {w : List UInt8} (h : w.length = n) : ∃ v < 256 ^ n, toLE n v = w :=
  ⟨ofLE w, h ▸ ofLE_lt w, h ▸ toLE_ofLE w⟩

end ByteFormat
