import SolanaRfq.Format.Fallible
import SolanaRfq.Decoder.WireExact
import SolanaRfq.Decoder.Transaction

/-!
# What the decoder accepts

* `Accepted`: the header, account-count and index checks on a parsed message;
* `bareMessage`: the decoded message before the fills are attached;
* **`decodeMessage_eq_ok_iff`**: the checks pass exactly on `Accepted`, and change nothing;
* **`decodeMessageBytes_eq_ok_iff`**, **`decodeTransactionBytes_eq_ok_iff`**: the entry points;
* **`decodedView_injective`**: the decoded view determines the parsed message.
-/

namespace SolanaRfq

open ByteFormat Fallible

/-! ## Messages -/

/-- The account keys of a message, loaded ones included. -/
def totalAccountKeys (m : ParsedMessage) : ℕ :=
  m.staticAccountKeys.length + (m.addressTableLookups.map (·.writableIndexes.length)).sum +
    (m.addressTableLookups.map (·.readonlyIndexes.length)).sum

/-- The checks of `decode_message`. -/
structure Accepted (m : ParsedMessage) : Prop where
  signers : m.header.numRequiredSignatures.toNat ≤ m.staticAccountKeys.length
  readonlySigned :
    m.header.numReadonlySignedAccounts.toNat ≤ m.header.numRequiredSignatures.toNat
  readonlyUnsigned : m.header.numReadonlyUnsignedAccounts.toNat ≤
    m.staticAccountKeys.length - m.header.numRequiredSignatures.toNat
  total : totalAccountKeys m ≤ maxAccountKeys
  indices : ∀ ix ∈ m.instructions, IndicesBelow (totalAccountKeys m) ix

/-- An instruction before its fills are attached. -/
def bareInstruction (index : ℕ) (ix : CompiledInstruction) : DecodedInstruction where
  instructionIndex := index
  programIdIndex := ix.programIdIndex
  accountIndices := ix.accountIndices
  data := ix.data
  fills := []
  entrypoint := none

/-- A decoded message before its fills are attached. -/
def bareMessage (m : ParsedMessage) : DecodedMessage where
  version := m.version
  header := m.header
  transactionConfig := m.transactionConfig
  recentBlockhash := m.recentBlockhash
  staticAccountKeys := m.staticAccountKeys
  instructions := m.instructions.zipIdx.map fun (ix, index) => bareInstruction index ix
  addressTableLookups := m.addressTableLookups
  loadedWritableCount := (m.addressTableLookups.map (·.writableIndexes.length)).sum
  loadedReadonlyCount := (m.addressTableLookups.map (·.readonlyIndexes.length)).sum

theorem validateIndex_eq_ok_iff {i total : ℕ} {index : UInt8} {kind : String} :
    validateIndex i total index kind = .ok () ↔ index.toNat < total := by
  unfold validateIndex
  split_ifs with h <;> simp [h]

theorem buildInstruction_eq_ok_iff {i total : ℕ} {ix : CompiledInstruction}
    {d : DecodedInstruction} :
    buildInstruction i ix total = .ok d ↔ IndicesBelow total ix ∧ d = bareInstruction i ix := by
  unfold buildInstruction
  simp only [except_bind_eq_ok]
  constructor
  · rintro ⟨_, hp, _, ha, hd⟩
    refine ⟨⟨validateIndex_eq_ok_iff.mp hp, fun index hindex => ?_⟩, (Except.ok.inj hd).symm⟩
    exact validateIndex_eq_ok_iff.mp (forM_eq_ok_iff.mp ha index hindex)
  · rintro ⟨⟨hp, ha⟩, rfl⟩
    exact ⟨(), validateIndex_eq_ok_iff.mpr hp, (), forM_eq_ok_iff.mpr fun index hindex =>
      validateIndex_eq_ok_iff.mpr (ha index hindex), rfl⟩

theorem forall_zipIdx_iff {α : Type} {p : α → Prop} {xs : List α} :
    (∀ x ∈ xs.zipIdx, p x.1) ↔ ∀ x ∈ xs, p x := by
  constructor
  · intro h x hx
    obtain ⟨i, hi, rfl⟩ := List.getElem_of_mem hx
    exact h (xs[i], i) (List.mem_zipIdx_iff_getElem?.mpr (List.getElem?_eq_getElem hi))
  · rintro h ⟨x, i⟩ hx
    exact h x (List.mem_of_getElem? (List.mem_zipIdx_iff_getElem?.mp hx))

/-- **The checks pass exactly on the accepted messages, and change nothing.** -/
theorem decodeMessage_eq_ok_iff {m : ParsedMessage} {msg : DecodedMessage} :
    decodeMessage m = .ok msg ↔ Accepted m ∧ msg = bareMessage m := by
  have hbuild (x : CompiledInstruction × ℕ) (d : DecodedInstruction) :
      buildInstruction x.2 x.1 (totalAccountKeys m) = .ok d ↔
        IndicesBelow (totalAccountKeys m) x.1 ∧ d = bareInstruction x.2 x.1 :=
    buildInstruction_eq_ok_iff
  have htotal : m.staticAccountKeys.length +
      (m.addressTableLookups.map (·.writableIndexes.length)).sum +
      (m.addressTableLookups.map (·.readonlyIndexes.length)).sum = totalAccountKeys m := rfl
  unfold decodeMessage
  dsimp only
  rw [guard_eq_ok, guard_eq_ok, except_bind_eq_ok]
  simp only [htotal, mapM_eq_ok_iff_map hbuild, forall_zipIdx_iff, not_or, not_lt, gt_iff_lt]
  constructor
  · rintro ⟨⟨h₁, h₂, h₃⟩, h₄, ixs, ⟨h₅, rfl⟩, hmsg⟩
    exact ⟨⟨h₁, h₂, h₃, h₄, h₅⟩, (Except.ok.inj hmsg).symm⟩
  · rintro ⟨⟨h₁, h₂, h₃, h₄, h₅⟩, rfl⟩
    exact ⟨⟨h₁, h₂, h₃⟩, h₄, _, ⟨h₅, rfl⟩, rfl⟩

/-! ## Entry points -/

/-- **A message decodes exactly when it parses and passes the checks.** -/
theorem decodeMessageBytes_eq_ok_iff {b : List UInt8} {msg : DecodedMessage} :
    decodeMessageBytes b = .ok msg ↔
      ∃ m, parseMessage b = .ok m ∧ Accepted m ∧ msg = extractFills (bareMessage m) := by
  unfold decodeMessageBytes
  simp only [except_bind_eq_ok, decodeMessage_eq_ok_iff]
  constructor
  · rintro ⟨m, hm, _, ⟨hacc, rfl⟩, hmsg⟩
    exact ⟨m, hm, hacc, (Except.ok.inj hmsg).symm⟩
  · rintro ⟨m, hm, hacc, rfl⟩
    exact ⟨m, hm, _, ⟨hacc, rfl⟩, rfl⟩

/-- **A transaction decodes exactly when it parses, has its required signatures and passes the
checks.** -/
theorem decodeTransactionBytes_eq_ok_iff {b : List UInt8} {tx : DecodedTransaction} :
    decodeTransactionBytes b = .ok tx ↔ ∃ t, parseTransaction b = .ok t ∧
      t.signatures.length = t.message.header.numRequiredSignatures.toNat ∧ Accepted t.message ∧
        tx = ⟨t.signatures, extractFills (bareMessage t.message)⟩ := by
  unfold decodeTransactionBytes decodeTransaction
  dsimp only
  simp only [except_bind_eq_ok, guard_eq_ok, decodeMessage_eq_ok_iff, not_not]
  constructor
  · rintro ⟨t, ht, _, ⟨hsigs, _, ⟨hacc, rfl⟩, hmsg⟩, htx⟩
    obtain rfl := Except.ok.inj hmsg
    exact ⟨t, ht, hsigs, hacc, (Except.ok.inj htx).symm⟩
  · rintro ⟨t, ht, hsigs, hacc, rfl⟩
    exact ⟨t, ht, _, ⟨hsigs, _, ⟨hacc, rfl⟩, rfl⟩, rfl⟩

/-! ## The decoded view -/

theorem extractInstruction_eq (ks : List Pubkey) (ix : DecodedInstruction) :
    extractInstruction ks ix = { ix with
      entrypoint := (extractInstruction ks ix).entrypoint
      fills := (extractInstruction ks ix).fills } := by
  unfold extractInstruction
  split
  · split_ifs <;> rfl
  · rfl

@[simp] theorem extractInstruction_instructionIndex (ks : List Pubkey) (ix : DecodedInstruction) :
    (extractInstruction ks ix).instructionIndex = ix.instructionIndex := by
  rw [extractInstruction_eq]

@[simp] theorem extractInstruction_programIdIndex (ks : List Pubkey) (ix : DecodedInstruction) :
    (extractInstruction ks ix).programIdIndex = ix.programIdIndex := by
  rw [extractInstruction_eq]

@[simp] theorem extractInstruction_accountIndices (ks : List Pubkey) (ix : DecodedInstruction) :
    (extractInstruction ks ix).accountIndices = ix.accountIndices := by
  rw [extractInstruction_eq]

@[simp] theorem extractInstruction_data (ks : List Pubkey) (ix : DecodedInstruction) :
    (extractInstruction ks ix).data = ix.data := by
  rw [extractInstruction_eq]

/-- The wire form of a decoded instruction. -/
def DecodedInstruction.compiled (ix : DecodedInstruction) : CompiledInstruction :=
  ⟨ix.programIdIndex, ix.accountIndices, ix.data⟩

/-- The wire form of a decoded message. -/
def DecodedMessage.parsed (msg : DecodedMessage) : ParsedMessage where
  version := msg.version
  header := msg.header
  staticAccountKeys := msg.staticAccountKeys
  recentBlockhash := msg.recentBlockhash
  instructions := msg.instructions.map DecodedInstruction.compiled
  addressTableLookups := msg.addressTableLookups
  transactionConfig := msg.transactionConfig

@[simp] theorem compiled_extractInstruction (ks : List Pubkey) (ix : DecodedInstruction) :
    (extractInstruction ks ix).compiled = ix.compiled := by
  simp [DecodedInstruction.compiled]

theorem parsed_extractFills_bareMessage (m : ParsedMessage) :
    (extractFills (bareMessage m)).parsed = m := by
  have hix : (m.instructions.zipIdx.map fun x =>
      (bareInstruction x.2 x.1).compiled) = m.instructions := by
    have : (fun x : CompiledInstruction × ℕ => (bareInstruction x.2 x.1).compiled) = Prod.fst := rfl
    rw [this, List.zipIdx_map_fst]
  obtain ⟨v, h, ks, bh, ixs, ls, cfg⟩ := m
  simp only [DecodedMessage.parsed, extractFills, bareMessage, List.map_map, Function.comp_def,
    compiled_extractInstruction]
  rw [ParsedMessage.mk.injEq]
  exact ⟨rfl, rfl, rfl, rfl, hix, rfl, rfl⟩

/-- **The decoded view determines the parsed message.** -/
theorem decodedView_injective {m m' : ParsedMessage}
    (h : extractFills (bareMessage m) = extractFills (bareMessage m')) : m = m' := by
  rw [← parsed_extractFills_bareMessage m, h, parsed_extractFills_bareMessage]

end SolanaRfq
