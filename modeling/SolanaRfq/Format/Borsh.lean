import SolanaRfq.Format.Parses

/-!
# Borsh readers

The readers of the Borsh encoding: fixed-width little-endian integers, and vectors as a `u32`
count followed by the items. A skipped body is read in chunks and dropped.

* `u16`, `u32`, `u64`, `i64`, `vec`, `skipExact`: the readers; `encodeVec`: the encoding of vectors;
* **`Parses.vec`**, `Format.vec`: a vector reads its count and one string per item;
* `parses_skipExact`: skipping `n` bytes accepts any `n` bytes.
-/

namespace ByteFormat

/-- The errors of a Borsh reader. -/
inductive BorshError where
  | unexpectedEof
  | invalidData (message : String)
deriving DecidableEq, Repr

instance : EofError BorshError := ⟨fun _ _ => .unexpectedEof⟩

/-- A reader that fails with a Borsh error. -/
abbrev BorshReader (α : Type) : Type := Reader BorshError α

namespace Borsh

variable {α : Type}

def u16 : BorshReader UInt16 := word 2 UInt16.ofNat
def u32 : BorshReader UInt32 := word 4 UInt32.ofNat
def u64 : BorshReader UInt64 := word 8 UInt64.ofNat
def i64 : BorshReader Int64 := word 8 fun v => (UInt64.ofNat v).toInt64

/-- A `u32` count followed by that many items. -/
def vec (item : BorshReader α) : BorshReader (List α) := do
  let n ← u32
  many item n.toNat

/-- Skip `remaining` bytes, in chunks of at most 64. -/
def skipExact (remaining : ℕ) : BorshReader Unit :=
  if remaining = 0 then return ()
  else do
    let _ ← take (min remaining 64)
    skipExact (remaining - min remaining 64)
termination_by remaining
decreasing_by omega

/-! ## Encodings -/

def encodeU16 (v : UInt16) : List UInt8 := toLE 2 v.toNat
def encodeU32 (v : UInt32) : List UInt8 := toLE 4 v.toNat
def encodeU64 (v : UInt64) : List UInt8 := toLE 8 v.toNat
def encodeI64 (v : Int64) : List UInt8 := toLE 8 v.toUInt64.toNat

/-- A `u32` count followed by the items. -/
def encodeVec (enc : α → List UInt8) (xs : List α) : List UInt8 :=
  toLE 4 xs.length ++ xs.flatMap enc

@[simp] theorem length_encodeU16 (v : UInt16) : (encodeU16 v).length = 2 := length_toLE _ _
@[simp] theorem length_encodeU64 (v : UInt64) : (encodeU64 v).length = 8 := length_toLE _ _

theorem exists_encodeU16 {w : List UInt8} (h : w.length = 2) : ∃ v, encodeU16 v = w := by
  obtain ⟨v, hv, rfl⟩ := exists_toLE h
  exact ⟨UInt16.ofNat v, by rw [encodeU16, UInt16.toNat_ofNat_of_lt' hv]⟩

theorem exists_encodeU64 {w : List UInt8} (h : w.length = 8) : ∃ v, encodeU64 v = w := by
  obtain ⟨v, hv, rfl⟩ := exists_toLE h
  exact ⟨UInt64.ofNat v, by rw [encodeU64, UInt64.toNat_ofNat_of_lt' hv]⟩

/-! ## What the readers accept -/

theorem format_u16 : Format u16 (fun _ => True) encodeU16 := Format.u16
theorem format_u32 : Format u32 (fun _ => True) encodeU32 := Format.u32
theorem format_u64 : Format u64 (fun _ => True) encodeU64 := Format.u64

theorem format_i64 : Format i64 (fun _ => True) encodeI64 :=
  Format.word (fun v => v.toUInt64.toNat_lt)
    (fun v hv => by
      rw [UInt64.toUInt64_toInt64, UInt64.toNat_ofNat']
      exact Nat.mod_eq_of_lt hv)
    (fun v => by rw [UInt64.ofNat_toNat, Int64.toInt64_toUInt64])

/-- **A vector reads its count and then one string per item.** -/
theorem Parses.vec {item : BorshReader α} {R : α → List UInt8 → Prop} (h : Parses item R) :
    Parses (vec item) fun as w => as.length < 2 ^ 32 ∧
      ∃ ws, List.Forall₂ R as ws ∧ w = toLE 4 as.length ++ ws.flatten := by
  refine (format_u32.bind fun n _ => h.many n.toNat).congr fun as w => ?_
  constructor
  · rintro ⟨n, -, _, ⟨hlen, ws, hws, rfl⟩, rfl⟩
    exact ⟨hlen ▸ n.toNat_lt, ws, hws, by rw [encodeU32, hlen]⟩
  · rintro ⟨hlen, ws, hws, rfl⟩
    have hn : (UInt32.ofNat as.length).toNat = as.length := UInt32.toNat_ofNat_of_lt' hlen
    exact ⟨UInt32.ofNat as.length, trivial, _, ⟨hn.symm, ws, hws, rfl⟩, by rw [encodeU32, hn]⟩

theorem Format.vec {item : BorshReader α} {ok : α → Prop} {enc : α → List UInt8}
    (h : Format item ok enc) :
    Format (vec item) (fun as => as.length < 2 ^ 32 ∧ ∀ a ∈ as, ok a) (encodeVec enc) := by
  refine (Parses.vec h).congr fun as w => ?_
  simp only [forall₂_enc_iff]
  constructor
  · rintro ⟨hlen, _, ⟨hok, rfl⟩, rfl⟩
    exact ⟨⟨hlen, hok⟩, by rw [encodeVec, List.flatMap_def]⟩
  · rintro ⟨⟨hlen, hok⟩, rfl⟩
    exact ⟨hlen, _, ⟨hok, rfl⟩, by rw [encodeVec, List.flatMap_def]⟩

theorem parses_skipExact (n : ℕ) : Parses (skipExact n) fun _ w => w.length = n := by
  induction n using Nat.strong_induction_on with
  | _ n ih =>
    unfold skipExact
    refine (Parses.ite (fun _ => Parses.pure ()) fun hn => (Format.take (min n 64)).bind fun _ _ =>
      ih (n - min n 64) (by omega)).congr fun _ w => ?_
    constructor
    · rintro (⟨rfl, -, rfl⟩ | ⟨-, u, hu, v, hv, rfl⟩)
      · rfl
      · rw [id, List.length_append, hu, hv]
        omega
    · intro hw
      by_cases hn : n = 0
      · exact .inl ⟨hn, rfl, List.length_eq_zero_iff.mp (hw.trans hn)⟩
      · refine .inr ⟨hn, w.take (min n 64), ?_, w.drop (min n 64), ?_,
          (List.take_append_drop _ w).symm⟩
        · rw [List.length_take]
          omega
        · rw [List.length_drop, hw]

end Borsh

end ByteFormat
