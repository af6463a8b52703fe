import SolanaRfq.Decoder.WireExact
import SolanaRfq.Format.Reports

/-!
# The errors of the v1 parser

The v1 layout can carry values that the parser refuses: unknown configuration bits, too many keys, a
key twice, half a priority fee, an odd heap size, an index without a key. On the layout of such a value
the parser reports the first of its checks that fails, in the order of the wire.

* `v1MessageConditions`: the checks of a message; `v1TransactionConditions`, `v1PayloadConditions`:
  those of the two entry points;
* `reports_readDistinctKeys`, `reports_readV1Config`, `reports_readV1Instructions`: the parts;
* `reports_parseV1Message`: the message;
* **`v1_reports`**: both entry points.
-/

namespace SolanaRfq

open ByteFormat Checklist

/-! ## The conditions -/

/-- The signer counts and the numbers of keys and instructions. -/
structure V1Counts (m : ParsedMessage) : Prop where
  signatures : m.header.numRequiredSignatures ≤ 12
  readonlySigned : m.header.numReadonlySignedAccounts < m.header.numRequiredSignatures
  keyCount : m.header.numRequiredSignatures.toNat + m.header.numReadonlyUnsignedAccounts.toNat ≤
    m.staticAccountKeys.length
  keys_le : m.staticAccountKeys.length ≤ 64
  instructions_le : m.instructions.length ≤ 64

/-- The heap word, if there is one, is a number of KiB from 32 to 256. -/
def HeapFits (cfg : V1TransactionConfig) : Prop :=
  ∀ word, wordOf cfg 4 = some word →
    32768 ≤ word.toNat ∧ word.toNat ≤ 262144 ∧ word.toNat % 1024 = 0

def duplicateKeyError : FillDecoderError := .other "duplicate v1 account address"
def indexError : FillDecoderError := .other "v1 instruction index out of range"

/-- The conditions on a configuration behind its mask. -/
def v1ConfigConditions (cfg : V1TransactionConfig) : List (Condition FillDecoderError) :=
  [⟨cfg.mask.toNat.testBit 0 = cfg.mask.toNat.testBit 1,
      .other "v1 priority fee requires both mask bits"⟩,
    ⟨HeapFits cfg, .other "invalid v1 heap size"⟩]

/-- The conditions on a message, in the order of the wire. -/
def v1MessageConditions (m : ParsedMessage) : List (Condition FillDecoderError) :=
  ⟨(v1Config m).mask.toNat < 32, .other ("unsupported v1 configuration mask bits: " ++
    hexU32 ((v1Config m).mask &&& ~~~0x1f))⟩ ::
  ⟨V1Counts m, .other "invalid v1 header or counts"⟩ ::
  ⟨m.staticAccountKeys.Nodup, duplicateKeyError⟩ ::
  (v1ConfigConditions (v1Config m) ++
    [⟨∀ ix ∈ m.instructions, IndicesBelow m.staticAccountKeys.length ix, indexError⟩])

def sizeError : FillDecoderError := .other "v1 transaction exceeds 4096 bytes"
def trailingError : FillDecoderError := .other "trailing data after v1 payload"

/-- The conditions on a transaction with `tail` behind it: its size comes first. -/
def v1TransactionConditions (t : ParsedTransaction) (tail : List UInt8) :
    List (Condition FillDecoderError) :=
  ⟨(encodeV1Transaction t ++ tail).length ≤ v1MaxTransactionSize, sizeError⟩ ::
  (v1MessageConditions t.message ++ [⟨tail = [], trailingError⟩])

/-- The conditions on a message alone with `tail` behind it: its size, with room for the signatures,
comes after its content. -/
def v1PayloadConditions (m : ParsedMessage) (tail : List UInt8) :
    List (Condition FillDecoderError) :=
  v1MessageConditions m ++
    [⟨(encodeV1Message m ++ tail).length + m.header.numRequiredSignatures.toNat * signatureLen ≤
        v1MaxTransactionSize, sizeError⟩,
      ⟨tail = [], trailingError⟩]

/-! ## The parts -/

/-- The key loop: one condition for all keys. -/
theorem reports_readDistinctKeys (keys seen : List Pubkey) (hseen : seen.Nodup)
    (tail : List UInt8) : Reports (readDistinctKeys keys.length seen)
      (keys.flatMap List.Vector.toList) tail [⟨(seen ++ keys).Nodup, duplicateKeyError⟩]
      (seen ++ keys) := by
  induction keys generalizing seen with
  | nil =>
    rw [List.append_nil]
    refine ((Parses.pure seen).reports ⟨rfl, rfl⟩ tail).congr fun e => ?_
    rw [firstFailing_singleton_iff]
    exact iff_of_false not_firstFailing_nil fun h => h.1 hseen
  | cons key keys ih =>
    have hnodup (hnew : key ∉ seen) : (seen ++ [key]).Nodup :=
      List.nodup_append.mpr ⟨hseen, List.nodup_singleton key, by
        rintro x hx _ hy rfl
        exact hnew (List.mem_singleton.mp hy ▸ hx)⟩
    have hsplit : seen ++ key :: keys = seen ++ [key] ++ keys := by simp
    rw [List.length_cons, List.flatMap_cons, hsplit]
    unfold readDistinctKeys
    refine (Reports.ofFormat (Format.array 32) trivial (Reports.failIf fun hnew =>
      ih (seen ++ [key]) (hnodup hnew))).congr fun e => ?_
    have hrepeat (hmem : key ∈ seen) : ¬ (seen ++ [key] ++ keys).Nodup := fun hnd =>
      (List.nodup_append.mp (hsplit ▸ hnd)).2.2 key hmem key List.mem_cons_self rfl
    simp only [firstFailing_cons_iff, not_firstFailing_nil]
    tauto

theorem reports_readV1Config {cfg : V1TransactionConfig} (hmask : cfg.mask.toNat < 32)
    (hlen : cfg.values.length = (setBits cfg.mask).length) (tail : List UInt8) :
    Reports (readV1Config cfg.mask) (encodeConfigWords cfg) tail (v1ConfigConditions cfg) cfg := by
  have hvalues : cfg.values.length = countOnes cfg.mask := by rw [hlen, countOnes_eq_length]
  unfold v1ConfigConditions HeapFits
  rw [encodeConfigWords_eq hlen, ← fee_bits_iff hmask, ← heap_check_iff hmask hlen,
    ← List.append_nil (cfg.values.flatMap _)]
  refine Reports.failIf fun _ => Reports.ofFormat (format_readU32.many _)
    ⟨hvalues, fun _ _ => trivial⟩ (Reports.failIf fun _ => ?_)
  exact (Parses.pure cfg).reports ⟨rfl, rfl⟩ tail

theorem reports_readV1Payload (numKeys : ℕ) {ix : CompiledInstruction} (hlen : V1Lengths ix)
    (tail : List UInt8) : Reports (readV1Payload numKeys (v1HeaderOf ix)) (encodeV1Payload ix) tail
      [⟨IndicesBelow numKeys ix, indexError⟩] ix := by
  have haccounts : ix.accountIndices.length = (v1HeaderOf ix).accounts.toNat := by
    have := hlen.1
    rw [v1HeaderOf, UInt8.toNat_ofNat']
    omega
  have hdata : ix.data.length = (v1HeaderOf ix).dataLen.toNat := by
    have := hlen.2
    rw [v1HeaderOf, UInt16.toNat_ofNat']
    omega
  have hindices : ¬ ((v1HeaderOf ix).program.toNat ≥ numKeys ∨
      ∃ index ∈ ix.accountIndices, index.toNat ≥ numKeys) ↔ IndicesBelow numKeys ix := by
    push Not
    exact Iff.rfl
  rw [← hindices]
  have hpayload := ((Format.take (ε := FillDecoderError) _).reports hdata tail).map
    (CompiledInstruction.mk ix.programIdIndex ix.accountIndices)
  exact Reports.ofFormat (Format.take _) haccounts (Reports.failIf fun _ => hpayload)

theorem reports_readV1Instructions (numKeys : ℕ) {ixs : List CompiledInstruction}
    (hlen : ∀ ix ∈ ixs, V1Lengths ix) (tail : List UInt8) :
    Reports (readV1Instructions ixs.length numKeys)
      ((ixs.map v1HeaderOf).flatMap encodeV1InstructionHeader ++ ixs.flatMap encodeV1Payload) tail
      [⟨∀ ix ∈ ixs, IndicesBelow numKeys ix, indexError⟩] ixs := by
  have hloop := Reports.mapM ixs (fun ix hix tail =>
    reports_readV1Payload numKeys (hlen ix hix) tail) tail
  rw [← List.map_eq_flatMap] at hloop
  exact (Reports.ofFormat (format_readV1InstructionHeader.many _)
    ⟨List.length_map _, fun _ _ => trivial⟩ hloop).congr fun e => firstFailing_map_iff

/-! ## Messages and transactions -/

theorem v1Counts_iff {m : ParsedMessage} {numIx numKeys : UInt8}
    (hIx : m.instructions.length = numIx.toNat)
    (hKeys : m.staticAccountKeys.length = numKeys.toNat) :
    ¬ (m.header.numRequiredSignatures > 12 ∨
      m.header.numReadonlySignedAccounts ≥ m.header.numRequiredSignatures ∨
      numKeys.toNat < m.header.numRequiredSignatures.toNat +
        m.header.numReadonlyUnsignedAccounts.toNat ∨
      numKeys > 64 ∨ numIx > 64) ↔ V1Counts m := by
  rw [header_check_iff, ← hIx, ← hKeys]
  constructor
  · rintro ⟨hsigs, hreadonly, hcount, hkeys, hixs⟩
    exact ⟨hsigs, hreadonly, hcount, hkeys, hixs⟩
  · intro h
    exact ⟨h.signatures, h.readonlySigned, h.keyCount, h.keys_le, h.instructions_le⟩

theorem reports_parseV1Message {m : ParsedMessage} (hw : V1Writable m) (tail : List UInt8) :
    Reports parseV1Message (encodeV1Message m) tail (v1MessageConditions m) m := by
  obtain ⟨v, h, ks, bh, ixs, ls, cfg⟩ := m
  obtain ⟨cfg, rfl⟩ : ∃ c, cfg = some c := Option.isSome_iff_exists.mp hw.config
  obtain rfl : v = .v1 := hw.version
  obtain rfl : ls = [] := hw.lookups
  have hIx : ixs.length = (UInt8.ofNat ixs.length).toNat := by
    have : ixs.length ≤ 255 := hw.instructions
    rw [UInt8.toNat_ofNat']; omega
  have hKeys : ks.length = (UInt8.ofNat ks.length).toNat := by
    have : ks.length ≤ 255 := hw.keys
    rw [UInt8.toNat_ofNat']; omega
  have hmask : ¬ (cfg.mask &&& ~~~0x1f ≠ 0) ↔ cfg.mask.toNat < 32 := by
    rw [not_not, and_not_mask_eq_zero_iff]
  have hkeys := reports_readDistinctKeys ks [] List.nodup_nil
  rw [hKeys] at hkeys
  have hlengths : ∀ ix ∈ ixs, V1Lengths ix := hw.lengths
  have hixs := (reports_readV1Instructions ks.length hlengths tail).map fun ixs =>
    ParsedMessage.mk .v1 h ks bh ixs [] (some cfg)
  have hread : readV1Instructions ixs.length ks.length =
      readV1Instructions (UInt8.ofNat ixs.length).toNat (UInt8.ofNat ks.length).toNat := by
    rw [← hIx, ← hKeys]
  rw [hread] at hixs
  unfold v1MessageConditions
  rw [← v1Counts_iff (m := ⟨.v1, h, ks, bh, ixs, [], some cfg⟩) hIx hKeys]
  change Reports _ _ _ (⟨cfg.mask.toNat < 32, _⟩ :: _) _
  rw [← hmask]
  exact Reports.ofFormat (Format.take 1) (a := [v1MessageVersionTag]) rfl <|
    Reports.ofFormat format_readHeader trivial <|
    Reports.ofFormat format_readU32 trivial <| Reports.failIf fun hm =>
    Reports.ofFormat (Format.array 32) trivial <|
    Reports.ofFormat Format.byte trivial <| Reports.ofFormat Format.byte trivial <|
    Reports.failIf fun _ => (hkeys _).bind fun _ =>
    (reports_readV1Config (hmask.mp hm) hw.words _).bind fun _ => hixs

theorem reports_validateV1Size {α : Type} {r : WireReader α} {w tail : List UInt8}
    {cs : List (Condition FillDecoderError)} {a : α} (size : ℕ) (h : Reports r w tail cs a) :
    Reports (validateV1Size size >>= fun _ => r) w tail
      (⟨size ≤ v1MaxTransactionSize, sizeError⟩ :: cs) a := by
  rw [← not_lt]
  exact Reports.failIf fun _ => h

theorem reports_finish {α : Type} (a : α) (tail : List UInt8) :
    Reports (finish >>= fun _ => pure a) [] tail [⟨tail = [], trailingError⟩] a :=
  (Reports.expectEnd trailingError tail).map fun _ => a

theorem reports_readV1Envelope {t : ParsedTransaction} (hw : V1Writable t.message)
    (hsigs : t.signatures.length = t.message.header.numRequiredSignatures.toNat)
    (tail : List UInt8) : Reports readV1Envelope (encodeV1Transaction t) tail
      (v1MessageConditions t.message) t := by
  have hread := (((Format.array (ε := FillDecoderError) 64).many _).reports
    ⟨hsigs, fun _ _ => trivial⟩ tail).map fun sigs => ParsedTransaction.mk sigs t.message
  rw [← List.append_nil (v1MessageConditions t.message)]
  exact (reports_parseV1Message hw _).bind fun _ => hread

theorem parseTransaction_v1_error_iff {t : ParsedTransaction} (hw : V1Writable t.message)
    (hsigs : t.signatures.length = t.message.header.numRequiredSignatures.toNat)
    (tail : List UInt8) (e : FillDecoderError) :
    parseTransaction (encodeV1Transaction t ++ tail) = .error e ↔
      FirstFailing (v1TransactionConditions t tail) e := by
  have hread : Reports (readV1Envelope >>= fun tx => finish >>= fun _ => pure tx)
      (encodeV1Transaction t ++ []) tail
      (v1MessageConditions t.message ++ [⟨tail = [], trailingError⟩]) t :=
    (reports_readV1Envelope hw hsigs _).bind fun _ => reports_finish t tail
  rw [List.append_nil] at hread
  exact (reports_validateV1Size _ hread).runReader.2 e

theorem parseMessage_v1_error_iff {m : ParsedMessage} (hw : V1Writable m) (tail : List UInt8)
    (e : FillDecoderError) : parseMessage (encodeV1Message m ++ tail) = .error e ↔
      FirstFailing (v1PayloadConditions m tail) e := by
  have hread : Reports (parseV1Message >>= fun message =>
      validateV1Size ((encodeV1Message m ++ tail).length +
        message.header.numRequiredSignatures.toNat * signatureLen) >>= fun _ =>
      finish >>= fun _ => pure message) (encodeV1Message m ++ []) tail _ m :=
    (reports_parseV1Message hw _).bind fun _ => reports_validateV1Size _ (reports_finish m tail)
  rw [List.append_nil] at hread
  exact hread.runReader.2 e

/-- **The first failing condition of a v1 value is what both entry points report**, the size first
in a transaction and last in a message. -/
theorem v1_reports {m : ParsedMessage} (hw : V1Writable m) (tail : List UInt8) :
    (∀ sigs : List Signature, sigs.length = m.header.numRequiredSignatures.toNat →
      ∀ e, parseTransaction (encodeV1Transaction ⟨sigs, m⟩ ++ tail) = .error e ↔
        FirstFailing (v1TransactionConditions ⟨sigs, m⟩ tail) e) ∧
    ∀ e, parseMessage (encodeV1Message m ++ tail) = .error e ↔
      FirstFailing (v1PayloadConditions m tail) e :=
  ⟨fun _ hsigs => parseTransaction_v1_error_iff hw hsigs tail, parseMessage_v1_error_iff hw tail⟩

/-- The sample message with a repeated key. -/
def repeatedKey : ParsedMessage :=
  { sampleV1.message with
    staticAccountKeys := [List.Vector.replicate 32 1, List.Vector.replicate 32 1] }

/-- With a byte behind it, it is still the key that both entry points report. -/
theorem v1_reports_repeatedKey :
    parseTransaction (encodeV1Transaction ⟨sampleV1.signatures, repeatedKey⟩ ++ [0]) =
        .error duplicateKeyError ∧
      parseMessage (encodeV1Message repeatedKey ++ [0]) = .error duplicateKeyError := by
  have hw : V1Writable repeatedKey :=
    ⟨rfl, rfl, rfl, by decide +kernel, by decide, by decide, by decide⟩
  have hcounts : V1Counts repeatedKey :=
    ⟨by decide, by decide, by decide, by decide, by decide⟩
  have hmask : (v1Config repeatedKey).mask.toNat < 32 := by decide
  have hrepeated : ¬ repeatedKey.staticAccountKeys.Nodup := by decide +kernel
  have hsize : (encodeV1Transaction ⟨sampleV1.signatures, repeatedKey⟩ ++ [0]).length ≤
    v1MaxTransactionSize := by decide +kernel
  obtain ⟨htx, hmessage⟩ := v1_reports hw [0]
  exact ⟨(htx _ rfl _).mpr (.there hsize (.there hmask (.there hcounts (.here hrepeated)))),
    (hmessage _).mpr (.there hmask (.there hcounts (.here hrepeated)))⟩

end SolanaRfq
