import SolanaRfq.Decoder.Spelling
import SolanaRfq.Decoder.Decoded

/-!
# Which instructions are decoded

The discriminator and the program key of an instruction decide what the decoder makes of it.

* `StartsWith`: the data starts with one of some discriminators; `ArgsSpelled`: arguments follow it;
* **`decodeSwapArgs_eq_concrete_iff`**, `decodeSwapArgs_eq_unsupported_iff`: the two outcomes of the
  dispatch;
* `DexProgram`: the program is a static `dex-solana-v3` key; `extractInstruction_of_dex`,
  `extractInstruction_of_not_dex`: what extraction writes.
-/

namespace SolanaRfq

open ByteFormat

/-! ## Discriminators -/

/-- The data starts with one of the discriminators. -/
def StartsWith (discs : List (List UInt8)) (data : List UInt8) : Prop :=
  ∃ disc ∈ discs, disc <+: data

instance (discs : List (List UInt8)) (data : List UInt8) : Decidable (StartsWith discs data) :=
  inferInstanceAs (Decidable (∃ disc ∈ discs, disc <+: data))

/-- Arguments follow the discriminator. -/
def ArgsSpelled (args : SwapArgs) (data : List UInt8) : Prop :=
  ∃ w tail, SwapArgsSpelled args w ∧ data.drop 8 = w ++ tail

theorem length_supported : ∀ disc ∈ Entrypoint.supported, disc.length = 8 := by decide

theorem length_unsupported : ∀ disc ∈ Entrypoint.unsupported, disc.length = 8 := by decide

/-- No discriminator is both decoded and refused. -/
theorem not_mem_unsupported : ∀ disc ∈ Entrypoint.supported, disc ∉ Entrypoint.unsupported := by
  decide

theorem startsWith_iff {discs : List (List UInt8)} (h8 : ∀ disc ∈ discs, disc.length = 8)
    {data : List UInt8} : StartsWith discs data ↔ 8 ≤ data.length ∧ data.take 8 ∈ discs := by
  constructor
  · rintro ⟨disc, hdisc, body, rfl⟩
    have hlen := h8 disc hdisc
    rw [List.length_append, List.take_left' hlen]
    exact ⟨by omega, hdisc⟩
  · rintro ⟨-, hmem⟩
    exact ⟨data.take 8, hmem, List.take_prefix 8 data⟩

theorem startsWith_append_iff {xs ys : List (List UInt8)} {data : List UInt8} :
    StartsWith (xs ++ ys) data ↔ StartsWith xs data ∨ StartsWith ys data := by
  unfold StartsWith
  simp only [List.mem_append, or_and_right, exists_or]

theorem StartsWith.not_unsupported {data : List UInt8} (h : StartsWith Entrypoint.supported data) :
    ¬ StartsWith Entrypoint.unsupported data := by
  rw [startsWith_iff length_supported] at h
  rw [startsWith_iff length_unsupported]
  exact fun h' => not_mem_unsupported _ h.2 h'.2

/-! ## The dispatch -/

theorem decodeSwapArgs_of_supported {data : List UInt8}
    (h : StartsWith Entrypoint.supported data) :
    decodeSwapArgs data = trySwapArgs (data.drop 8) := by
  obtain ⟨hlen, hmem⟩ := (startsWith_iff length_supported).mp h
  rw [decodeSwapArgs, if_neg (by omega), if_pos hmem]

theorem decodeSwapArgs_of_unsupported {data : List UInt8}
    (h : StartsWith Entrypoint.unsupported data) : decodeSwapArgs data = some .unsupported := by
  have hnot : ¬ StartsWith Entrypoint.supported data := fun h' => h'.not_unsupported h
  obtain ⟨hlen, hmem⟩ := (startsWith_iff length_unsupported).mp h
  rw [startsWith_iff length_supported] at hnot
  rw [decodeSwapArgs, if_neg (by omega), if_neg fun h' => hnot ⟨hlen, h'⟩, if_pos hmem]

theorem decodeSwapArgs_of_unknown {data : List UInt8}
    (hs : ¬ StartsWith Entrypoint.supported data) (hu : ¬ StartsWith Entrypoint.unsupported data) :
    decodeSwapArgs data = none := by
  rw [startsWith_iff length_supported] at hs
  rw [startsWith_iff length_unsupported] at hu
  unfold decodeSwapArgs
  by_cases hlen : data.length < 8
  · rw [if_pos hlen]
  · rw [if_neg hlen, if_neg fun h => hs ⟨by omega, h⟩, if_neg fun h => hu ⟨by omega, h⟩]

theorem trySwapArgs_eq_concrete_iff {body : List UInt8} {args : SwapArgs} :
    trySwapArgs body = some (.concrete args) ↔
      ∃ w tail, SwapArgsSpelled args w ∧ body = w ++ tail := by
  rw [← parses_deserializeSwapArgs.runReader_eq_ok, trySwapArgs]
  cases runReader deserializeSwapArgs body <;> simp

theorem trySwapArgs_eq_none_iff {body : List UInt8} :
    trySwapArgs body = none ↔ ∀ args, trySwapArgs body ≠ some (.concrete args) := by
  unfold trySwapArgs
  cases runReader deserializeSwapArgs body <;> simp

/-- **Arguments are decoded exactly when they follow a decoded discriminator.** -/
theorem decodeSwapArgs_eq_concrete_iff {data : List UInt8} {args : SwapArgs} :
    decodeSwapArgs data = some (.concrete args) ↔
      StartsWith Entrypoint.supported data ∧ ArgsSpelled args data := by
  by_cases hs : StartsWith Entrypoint.supported data
  · rw [decodeSwapArgs_of_supported hs, trySwapArgs_eq_concrete_iff]
    exact (and_iff_right hs).symm
  · by_cases hu : StartsWith Entrypoint.unsupported data
    · simp [decodeSwapArgs_of_unsupported hu, hs]
    · simp [decodeSwapArgs_of_unknown hs hu, hs]

theorem decodeSwapArgs_eq_unsupported_iff {data : List UInt8} :
    decodeSwapArgs data = some .unsupported ↔ StartsWith Entrypoint.unsupported data := by
  by_cases hs : StartsWith Entrypoint.supported data
  · rw [decodeSwapArgs_of_supported hs, trySwapArgs]
    cases runReader deserializeSwapArgs (data.drop 8) <;> simp [hs.not_unsupported]
  · by_cases hu : StartsWith Entrypoint.unsupported data
    · simp [decodeSwapArgs_of_unsupported hu, hu]
    · simp [decodeSwapArgs_of_unknown hs hu, hu]

/-- The token-ledger shape is never produced. -/
theorem decodeSwapArgs_ne_tokenLedger (data : List UInt8) (args : SwapArgsTokenLedger) :
    decodeSwapArgs data ≠ some (.tokenLedger args) := by
  by_cases hs : StartsWith Entrypoint.supported data
  · rw [decodeSwapArgs_of_supported hs, trySwapArgs]
    cases runReader deserializeSwapArgs (data.drop 8) <;> simp
  · by_cases hu : StartsWith Entrypoint.unsupported data
    · simp [decodeSwapArgs_of_unsupported hu]
    · simp [decodeSwapArgs_of_unknown hs hu]

/-! ## Extraction -/

theorem decodeSolrfqv2Legs_fst (data : List UInt8) :
    (decodeSolrfqv2Legs data).1 = (decodeSwapArgs data).map AnySwapArgs.kind := by
  unfold decodeSolrfqv2Legs
  cases decodeSwapArgs data <;> rfl

theorem decodeSolrfqv2Legs_fills {data : List UInt8} (h : (decodeSolrfqv2Legs data).2 ≠ []) :
    (decodeSolrfqv2Legs data).1 = some .concrete := by
  rw [decodeSolrfqv2Legs_fst]
  unfold decodeSolrfqv2Legs at h
  cases hargs : decodeSwapArgs data with
  | none =>
    rw [hargs] at h
    exact absurd rfl h
  | some any =>
    rw [hargs] at h
    cases any with
    | concrete args => rfl
    | tokenLedger args => exact absurd hargs (decodeSwapArgs_ne_tokenLedger data args)
    | unsupported => exact absurd rfl h

/-- The program is a static `dex-solana-v3` key. -/
def DexProgram (keys : List Pubkey) (programIdIndex : UInt8) : Prop :=
  ∃ programId, keys[programIdIndex.toNat]? = some programId ∧ isDexSolanaV3Program programId

theorem extractInstruction_of_dex {keys : List Pubkey} (ix : DecodedInstruction)
    (h : DexProgram keys ix.programIdIndex) : extractInstruction keys ix =
      { ix with entrypoint := (decodeSolrfqv2Legs ix.data).1
                fills := (decodeSolrfqv2Legs ix.data).2 } := by
  obtain ⟨programId, hkey, hdex⟩ := h
  rw [extractInstruction, hkey]
  exact if_pos hdex

theorem extractInstruction_of_not_dex {keys : List Pubkey} (ix : DecodedInstruction)
    (h : ¬ DexProgram keys ix.programIdIndex) : extractInstruction keys ix = ix := by
  unfold extractInstruction
  cases hkey : keys[ix.programIdIndex.toNat]? with
  | none => rfl
  | some programId => exact if_neg fun hdex => h ⟨programId, hkey, hdex⟩

theorem extractInstruction_entrypoint {keys : List Pubkey} (ix : DecodedInstruction)
    (h : DexProgram keys ix.programIdIndex) : (extractInstruction keys ix).entrypoint =
      (decodeSwapArgs ix.data).map AnySwapArgs.kind := by
  rw [extractInstruction_of_dex ix h, decodeSolrfqv2Legs_fst]

end SolanaRfq
