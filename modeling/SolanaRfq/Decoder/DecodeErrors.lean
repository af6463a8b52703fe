import SolanaRfq.Decoder.Decoded
import SolanaRfq.Format.Checklist

/-!
# The errors behind the parser

A parsed transaction is checked before it is decoded: the number of its signatures, its header, its
account count, and then every index of every instruction, in the order of the wire. The decoder
reports the first check that fails, with the instruction and the index it is about.

* `messageConditions`, `transactionConditions`: the checks in order, each with its error;
* `checks_decodeMessage`, `checks_decodeTransaction`: the decoder works through them;
* **`decodeBytes_checklist`**: the errors of both entry points.
-/

namespace SolanaRfq

open Checklist Fallible

/-! ## The conditions -/

/-- An index of instruction `i` is below the number of account keys. -/
def indexInRange (i total : ℕ) (kind : String) (index : UInt8) : Condition FillDecoderError where
  holds := index.toNat < total
  error := .other (s!"instruction {i} {kind} index {index} is out of range for " ++
    s!"{total} account keys")

/-- The program index of an instruction, and then its account indices. -/
def instructionConditions (total : ℕ) (p : CompiledInstruction × ℕ) :
    List (Condition FillDecoderError) :=
  indexInRange p.2 total "program id" p.1.programIdIndex ::
    p.1.accountIndices.map (indexInRange p.2 total "account")

/-- The signers are static keys, and the read-only keys are among them and among the others. -/
def HeaderFits (m : ParsedMessage) : Prop :=
  m.header.numRequiredSignatures.toNat ≤ m.staticAccountKeys.length ∧
    m.header.numReadonlySignedAccounts.toNat ≤ m.header.numRequiredSignatures.toNat ∧
    m.header.numReadonlyUnsignedAccounts.toNat ≤
      m.staticAccountKeys.length - m.header.numRequiredSignatures.toNat

/-- The header, the account count, and the instructions in order. -/
def messageConditions (m : ParsedMessage) : List (Condition FillDecoderError) :=
  ⟨HeaderFits m,
    .other s!"invalid message header for {m.staticAccountKeys.length} static account keys"⟩ ::
  ⟨totalAccountKeys m ≤ maxAccountKeys,
    .other (s!"message contains {totalAccountKeys m} account keys; " ++
      s!"maximum is {maxAccountKeys}")⟩ ::
  m.instructions.zipIdx.flatMap (instructionConditions (totalAccountKeys m))

/-- The number of signatures, and then the message. -/
def transactionConditions (t : ParsedTransaction) : List (Condition FillDecoderError) :=
  ⟨t.signatures.length = t.message.header.numRequiredSignatures.toNat,
    .other (s!"transaction contains {t.signatures.length} signatures; " ++
      s!"message requires {t.message.header.numRequiredSignatures.toNat}")⟩ ::
  messageConditions t.message

/-! ## The checks -/

theorem checks_validateIndex (i total : ℕ) (index : UInt8) (kind : String) :
    Checks (validateIndex i total index kind) [indexInRange i total kind index] := Checks.ite _ ()

theorem checks_buildInstruction (i total : ℕ) (ix : CompiledInstruction) :
    Checks (buildInstruction i ix total) (instructionConditions total (ix, i)) := by
  have haccounts := Checks.forM (fun index => checks_validateIndex i total index "account")
    ix.accountIndices
  rw [← List.map_eq_flatMap] at haccounts
  have hbuilt := haccounts.bind fun _ _ => Checks.ok (bareInstruction i ix)
  rw [List.append_nil] at hbuilt
  exact (checks_validateIndex i total ix.programIdIndex "program id").bind fun _ _ => hbuilt

theorem not_headerFits_iff {m : ParsedMessage} :
    ¬ (m.header.numRequiredSignatures.toNat > m.staticAccountKeys.length ∨
      m.header.numReadonlySignedAccounts.toNat > m.header.numRequiredSignatures.toNat ∨
      m.header.numReadonlyUnsignedAccounts.toNat >
        m.staticAccountKeys.length - m.header.numRequiredSignatures.toNat) ↔ HeaderFits m := by
  rw [not_or, not_or, not_lt, not_lt, not_lt, HeaderFits]

theorem checks_decodeMessage (m : ParsedMessage) :
    Checks (decodeMessage m) (messageConditions m) := by
  have hixs := Checks.mapM (fun p : CompiledInstruction × ℕ =>
    checks_buildInstruction p.2 (totalAccountKeys m) p.1) m.instructions.zipIdx
  have hbuilt := hixs.bind fun ixs _ => Checks.ok (ε := FillDecoderError)
    { bareMessage m with instructions := ixs }
  rw [List.append_nil] at hbuilt
  have htotal := not_lt (a := maxAccountKeys) (b := totalAccountKeys m)
  unfold messageConditions
  rw [← not_headerFits_iff, ← htotal]
  exact Checks.guard (Checks.guard hbuilt)

theorem checks_decodeTransaction (t : ParsedTransaction) :
    Checks (decodeTransaction t) (transactionConditions t) := by
  have hmessage := (checks_decodeMessage t.message).bind fun msg _ =>
    Checks.ok (ε := FillDecoderError) (DecodedTransaction.mk t.signatures msg)
  rw [List.append_nil] at hmessage
  unfold transactionConditions
  rw [← not_not (a := t.signatures.length = _)]
  exact Checks.guard hmessage

/-! ## The entry points -/

/-- **The errors of both entry points**: those of the parser, and behind it that of the first
condition of the parsed value that fails. -/
theorem decodeBytes_checklist (b : List UInt8) :
    (∀ e, decodeMessageBytes b = .error e ↔ parseMessage b = .error e ∨
      ∃ m, parseMessage b = .ok m ∧ FirstFailing (messageConditions m) e) ∧
    ∀ e, decodeTransactionBytes b = .error e ↔ parseTransaction b = .error e ∨
      ∃ t, parseTransaction b = .ok t ∧ FirstFailing (transactionConditions t) e := by
  constructor
  · intro e
    unfold decodeMessageBytes
    rw [except_bind_eq_error]
    refine or_congr_right (exists_congr fun m => and_congr_right fun _ => ?_)
    have hdecode := (checks_decodeMessage m).bind fun msg _ => Checks.ok (extractFills msg)
    rw [List.append_nil] at hdecode
    exact hdecode e
  · intro e
    unfold decodeTransactionBytes
    rw [except_bind_eq_error]
    refine or_congr_right (exists_congr fun t => and_congr_right fun _ => ?_)
    have hdecode := (checks_decodeTransaction t).bind fun tx _ =>
      Checks.ok (ε := FillDecoderError) { tx with message := extractFills tx.message }
    rw [List.append_nil] at hdecode
    exact hdecode e

end SolanaRfq
