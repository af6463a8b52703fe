import SolanaRfq.Format.Parses
import SolanaRfq.Decoder.Wire

/-!
# Compact-u16 lengths

* `compactU16 v`: the canonical form, seven bits a byte, least significant first, every byte but
  the last with the high bit set;
* **`format_readCompactU16`**: the strict decoder reads exactly the canonical forms.
-/

namespace SolanaRfq

open ByteFormat

/-- The canonical form of `v` in at most `n` bytes. -/
def pushCompactU16 : ℕ → ℕ → List UInt8
  | 0, _ => []
  | n + 1, v =>
    if v / 128 = 0 then [UInt8.ofNat v]
    else UInt8.ofNat (v % 128 + 128) :: pushCompactU16 n (v / 128)

/-- The canonical compact-u16 form. -/
def compactU16 (v : ℕ) : List UInt8 := pushCompactU16 3 v

example : compactU16 128 = [0x80, 0x01] := by decide

/-! ## The operations of one turn -/

theorem toNat_low7 (b : UInt8) : (b.toUInt32 &&& 0x7f).toNat = b.toNat % 128 := by
  rw [UInt32.toNat_and, UInt8.toNat_toUInt32]
  exact Nat.and_two_pow_sub_one_eq_mod b.toNat 7

theorem and_high_eq_zero_iff (b : UInt8) : b.toUInt32 &&& 0x80 = 0 ↔ b.toNat < 128 := by
  revert b
  apply forall_byte
  decide +kernel

theorem toNat_or_shiftLeft {i : ℕ} (hi : i ≤ 2) {result value : UInt32}
    (hr : result.toNat < 128 ^ i) (hv : value.toNat < 128) :
    (result ||| (value <<< UInt32.ofNat (i * 7))).toNat =
      result.toNat + 128 ^ i * value.toNat := by
  have hpow : (128 : ℕ) ^ i = 2 ^ (i * 7) := by rw [mul_comm, pow_mul]; norm_num
  have hshift : (UInt32.ofNat (i * 7)).toNat % 32 = i * 7 := by
    rw [UInt32.toNat_ofNat']; omega
  have hlt : value.toNat * 2 ^ (i * 7) < 2 ^ 32 := by
    have : 2 ^ (i * 7) ≤ 2 ^ 14 := Nat.pow_le_pow_right (by norm_num) (by omega)
    calc value.toNat * 2 ^ (i * 7) ≤ 127 * 2 ^ 14 := Nat.mul_le_mul (by omega) this
      _ < 2 ^ 32 := by norm_num
  rw [UInt32.toNat_or, UInt32.toNat_shiftLeft, hshift, Nat.shiftLeft_eq, Nat.mod_eq_of_lt hlt,
    hpow, Nat.or_comm, mul_comm, ← Nat.two_pow_add_eq_or_of_lt (hpow ▸ hr), add_comm]

/-- The result after byte `b` in turn `i`. -/
def nextResult (i : ℕ) (result : UInt32) (b : UInt8) : UInt32 :=
  result ||| ((b.toUInt32 &&& 0x7f) <<< UInt32.ofNat (i * 7))

section Turn

variable {i : ℕ} {result : UInt32}

theorem toNat_nextResult (hi : i ≤ 2) (hr : result.toNat < 128 ^ i) (b : UInt8) :
    (nextResult i result b).toNat = result.toNat + 128 ^ i * (b.toNat % 128) := by
  rw [nextResult, toNat_or_shiftLeft hi hr (by rw [toNat_low7]; omega), toNat_low7]

theorem nextResult_lt (hi : i ≤ 2) (hr : result.toNat < 128 ^ i) (b : UInt8) :
    (nextResult i result b).toNat < 128 ^ (i + 1) := by
  have hle : 128 ^ i * (b.toNat % 128) ≤ 128 ^ i * 127 := Nat.mul_le_mul_left _ (by omega)
  rw [toNat_nextResult hi hr, pow_succ']
  omega

/-- A last byte holds the rest of the value. -/
theorem last_turn_iff (hi : i ≤ 2) (hr : result.toNat < 128 ^ i) (b : UInt8) (v : UInt16) :
    (b.toUInt32 &&& 0x80 = 0 ∧ ¬ (0 < i ∧ b.toUInt32 &&& 0x7f = 0) ∧
      ¬ nextResult i result b > 65535 ∧ v = (nextResult i result b).toUInt16) ↔
    b.toNat < 128 ∧ (0 < i → b.toNat ≠ 0) ∧ v.toNat = result.toNat + 128 ^ i * b.toNat := by
  rw [and_high_eq_zero_iff]
  refine and_congr_right fun hb => ?_
  have hmod : b.toNat % 128 = b.toNat := Nat.mod_eq_of_lt hb
  have hnext := toNat_nextResult hi hr b
  rw [hmod] at hnext
  have hzero : b.toUInt32 &&& 0x7f = 0 ↔ b.toNat = 0 := by
    rw [← UInt32.toNat_inj, toNat_low7, hmod]
    rfl
  have hmax : ¬ nextResult i result b > 65535 ↔ (nextResult i result b).toNat < 2 ^ 16 := by
    rw [gt_iff_lt, UInt32.lt_iff_toNat_lt, show (65535 : UInt32).toNat = 65535 from rfl]
    omega
  rw [hzero, hmax, ← UInt16.toNat_inj, UInt32.toNat_toUInt16, hnext, not_and]
  refine and_congr_right fun _ => ?_
  constructor
  · intro h
    rw [h.2, Nat.mod_eq_of_lt h.1]
  · intro h
    have hlt := v.toNat_lt
    rw [h] at hlt ⊢
    exact ⟨hlt, (Nat.mod_eq_of_lt hlt).symm⟩

end Turn

/-! ## The canonical form, byte by byte -/

theorem pushCompactU16_last (n : ℕ) {b : UInt8} (hb : b.toNat < 128) :
    pushCompactU16 (n + 1) b.toNat = [b] := by
  rw [pushCompactU16, if_pos (by omega), UInt8.ofNat_toNat]

theorem pushCompactU16_more (n : ℕ) {b : UInt8} {t : ℕ} (hb : ¬ b.toNat < 128) (ht : t ≠ 0) :
    pushCompactU16 (n + 1) (b.toNat % 128 + 128 * t) = b :: pushCompactU16 n t := by
  have hmod : (b.toNat % 128 + 128 * t) % 128 = b.toNat % 128 := by omega
  have hdiv : (b.toNat % 128 + 128 * t) / 128 = t := by omega
  have hbyte : b.toNat % 128 + 128 = b.toNat := by
    have := b.toNat_lt
    omega
  rw [pushCompactU16, hdiv, if_neg ht, hmod, hbyte, UInt8.ofNat_toNat]

theorem exists_first_byte (t : ℕ) : ∃ b : UInt8, (b.toNat < 128 ∧ t = b.toNat) ∨
    (¬ b.toNat < 128 ∧ t / 128 ≠ 0 ∧ t = b.toNat % 128 + 128 * (t / 128)) := by
  by_cases h : t < 128
  · refine ⟨UInt8.ofNat t, .inl ?_⟩
    rw [UInt8.toNat_ofNat']
    omega
  · refine ⟨UInt8.ofNat (t % 128 + 128), .inr ?_⟩
    rw [UInt8.toNat_ofNat']
    omega

/-! ## The loop -/

/-- With `n` turns left after `i`, the loop adds `128 ^ i * t` for the canonical form of `t`. -/
theorem parses_readCompactU16Loop (n i : ℕ) (result : UInt32) (hi : i + n = 3)
    (hr : result.toNat < 128 ^ i) : Parses (readCompactU16Loop n i result) fun v w =>
      ∃ t, (0 < i → t ≠ 0) ∧ v.toNat = result.toNat + 128 ^ i * t ∧ w = pushCompactU16 n t := by
  induction n generalizing i result with
  | zero =>
    obtain rfl : i = 3 := hi
    refine (Parses.throw _).congr fun v w => ?_
    constructor
    · exact False.elim
    · rintro ⟨t, ht, hv, -⟩
      have := v.toNat_lt
      have := ht (by norm_num)
      omega
  | succ n ih =>
    have hi2 : i ≤ 2 := by omega
    refine (Format.byte.bind fun b _ => Parses.ite
      (fun _ => Parses.failIf fun _ => Parses.failIf fun _ =>
        Parses.pure (nextResult i result b).toUInt16)
      (fun _ => ih (i + 1) (nextResult i result b) (by omega)
        (nextResult_lt hi2 hr b))).congr fun v w => ?_
    -- the bytes behind a continuation byte spell `t`, and the whole spells `b % 128 + 128 * t`
    have hmore (b : UInt8) (t : ℕ) : (nextResult i result b).toNat + 128 ^ (i + 1) * t =
        result.toNat + 128 ^ i * (b.toNat % 128 + 128 * t) := by
      rw [toNat_nextResult hi2 hr]
      ring
    constructor
    · rintro ⟨b, -, _, ⟨hb, hz, hmax, hv, rfl⟩ | ⟨hb, t, ht, hv, rfl⟩, rfl⟩
      · obtain ⟨hlt, hz', hv'⟩ := (last_turn_iff hi2 hr b v).mp ⟨hb, hz, hmax, hv⟩
        exact ⟨b.toNat, hz', hv', (pushCompactU16_last n hlt).symm⟩
      · rw [and_high_eq_zero_iff] at hb
        have ht0 : t ≠ 0 := ht (Nat.succ_pos i)
        exact ⟨_, fun _ => by omega, hv.trans (hmore b t), (pushCompactU16_more n hb ht0).symm⟩
    · rintro ⟨t, ht, hv, rfl⟩
      obtain ⟨b, ⟨hb, rfl⟩ | ⟨hb, ht0, hsplit⟩⟩ := exists_first_byte t
      · obtain ⟨hb', hz, hmax, hv'⟩ := (last_turn_iff hi2 hr b v).mpr ⟨hb, ht, hv⟩
        exact ⟨b, trivial, [], .inl ⟨hb', hz, hmax, hv', rfl⟩, pushCompactU16_last n hb⟩
      · rw [hsplit] at hv ⊢
        refine ⟨b, trivial, _, .inr ⟨?_, t / 128, fun _ => ht0, hv.trans (hmore b _).symm, rfl⟩,
          pushCompactU16_more n hb ht0⟩
        rwa [and_high_eq_zero_iff]

/-- **The strict decoder reads exactly the canonical forms.** -/
theorem format_readCompactU16 :
    Format readCompactU16 (fun _ => True) fun v => compactU16 v.toNat := by
  refine (parses_readCompactU16Loop 3 0 0 rfl (by norm_num)).congr fun v w => ?_
  constructor
  · rintro ⟨t, -, hv, rfl⟩
    have : v.toNat = t := by simpa using hv
    exact ⟨trivial, this ▸ rfl⟩
  · rintro ⟨-, rfl⟩
    exact ⟨v.toNat, by omega, by simp, rfl⟩

end SolanaRfq
