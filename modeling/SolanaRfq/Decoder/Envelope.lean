import SolanaRfq.Decoder.LayoutV1

/-!
# The two entry points

Both entry points dispatch on the first byte: `0x81` is v1, anything else a legacy or v0 value.

* `parseTransaction_v1_iff`, `parseMessage_v1_iff`: on `0x81` the whole input is the layout;
* `parseTransaction_compact_iff`, `parseMessage_compact_iff`: otherwise a prefix of it is.
-/

namespace SolanaRfq

open ByteFormat

/-- A transaction value the legacy and v0 layout can carry. -/
def CompactTransaction (t : ParsedTransaction) : Prop :=
  t.signatures.length ≤ 65535 ∧ CompactMessage t.message

theorem format_readCompactEnvelope :
    Format readCompactEnvelope CompactTransaction encodeCompactTransaction := by
  refine (format_readSignatures.bind fun sigs _ => format_parseMessageFromCursor.bind fun m _ =>
    Parses.pure (ParsedTransaction.mk sigs m)).congr fun t w => ?_
  constructor
  · rintro ⟨sigs, hs, _, ⟨m, hm, _, ⟨rfl, rfl⟩, rfl⟩, rfl⟩
    exact ⟨⟨hs, hm⟩, by simp [encodeCompactTransaction]⟩
  · rintro ⟨⟨hs, hm⟩, rfl⟩
    exact ⟨_, hs, _, ⟨_, hm, _, ⟨rfl, rfl⟩, rfl⟩, by simp [encodeCompactTransaction]⟩

/-- A v1 transaction: a checked message with the signatures its header requires. -/
structure V1Transaction (t : ParsedTransaction) : Prop where
  writable : V1Writable t.message
  checked : V1Checked t.message
  signatures : t.signatures.length = t.message.header.numRequiredSignatures.toNat

theorem parses_readV1Envelope : Parses readV1Envelope fun t w => V1Transaction t ∧
    ∃ x, w = x :: (encodeV1Body t.message ++ t.signatures.flatMap List.Vector.toList) := by
  refine (parses_parseV1Message.bind fun m _ _ =>
    ((Format.array 64).many m.header.numRequiredSignatures.toNat).bind fun sigs _ =>
      Parses.pure (ParsedTransaction.mk sigs m)).congr fun t w => ?_
  constructor
  · rintro ⟨m, _, _, ⟨hw, hc, x, rfl⟩, ⟨sigs, ⟨hlen, -⟩, _, ⟨rfl, rfl⟩, rfl⟩, rfl⟩
    exact ⟨⟨hw, hc, hlen⟩, x, by simp⟩
  · rintro ⟨ht, x, rfl⟩
    exact ⟨t.message, x :: encodeV1Body t.message, _, ⟨ht.writable, ht.checked, x, rfl⟩,
      ⟨t.signatures, ⟨ht.signatures, fun _ _ => trivial⟩, [], ⟨rfl, rfl⟩, rfl⟩, by simp⟩

/-! ## Transactions -/

/-- **On a first byte `0x81` the whole input is the v1 layout, in at most 4096 bytes.** -/
theorem parseTransaction_v1_iff {rest : List UInt8} {t : ParsedTransaction} :
    parseTransaction (v1MessageVersionTag :: rest) = .ok t ↔
      (v1MessageVersionTag :: rest).length ≤ v1MaxTransactionSize ∧ V1Transaction t ∧
        v1MessageVersionTag :: rest = encodeV1Transaction t := by
  unfold parseTransaction parseTransactionFromCursor
  rw [runReader_peek, if_pos rfl, validateV1Size, runReader_failIf_eq_ok, finish,
    parses_readV1Envelope.runReader_expectEnd, not_lt]
  refine and_congr_right fun _ => and_congr_right fun _ => ?_
  constructor
  · rintro ⟨x, h⟩
    exact congrArg _ (List.cons.inj h).2
  · intro h
    exact ⟨v1MessageVersionTag, h⟩

/-- **On any other first byte a prefix of the input is the legacy or v0 layout.** -/
theorem parseTransaction_compact_iff {b : UInt8} (hb : b ≠ v1MessageVersionTag)
    {rest : List UInt8} {t : ParsedTransaction} :
    parseTransaction (b :: rest) = .ok t ↔
      CompactTransaction t ∧ ∃ tail, b :: rest = encodeCompactTransaction t ++ tail := by
  unfold parseTransaction parseTransactionFromCursor
  rw [runReader_peek, if_neg hb, format_readCompactEnvelope.runReader_eq_ok]

/-! ## Messages -/

theorem parses_v1_validated (size : ℕ) : Parses (do
      let message ← parseV1Message
      validateV1Size (size + message.header.numRequiredSignatures.toNat * signatureLen)
      return message)
    fun m w => (V1Writable m ∧ V1Checked m ∧ ∃ x, w = x :: encodeV1Body m) ∧
      size + m.header.numRequiredSignatures.toNat * signatureLen ≤ v1MaxTransactionSize := by
  refine (parses_parseV1Message.bind fun m _ _ => Parses.failIf fun _ =>
    Parses.pure m).congr fun m w => ?_
  constructor
  · rintro ⟨m', u, v, hm, ⟨hsize, rfl, rfl⟩, rfl⟩
    exact ⟨by simpa using hm, not_lt.mp hsize⟩
  · rintro ⟨hm, hsize⟩
    exact ⟨m, w, [], hm, ⟨not_lt.mpr hsize, rfl, rfl⟩, by simp⟩

/-- **On a first byte `0x81` the whole input is the v1 layout, with room for the signatures.** -/
theorem parseMessage_v1_iff {rest : List UInt8} {m : ParsedMessage} :
    parseMessage (v1MessageVersionTag :: rest) = .ok m ↔
      (V1Writable m ∧ V1Checked m ∧ v1MessageVersionTag :: rest = encodeV1Message m) ∧
        (v1MessageVersionTag :: rest).length +
          m.header.numRequiredSignatures.toNat * signatureLen ≤ v1MaxTransactionSize := by
  have h := (parses_v1_validated (v1MessageVersionTag :: rest).length).runReader_expectEnd
    (.other "trailing data after v1 payload") (v1MessageVersionTag :: rest) m
  simp only [bind_assoc, pure_bind] at h
  unfold parseMessage parseMessageFrom
  rw [runReader_peek, if_pos rfl, finish, h]
  refine and_congr_left fun _ => and_congr_right fun _ => and_congr_right fun _ => ?_
  constructor
  · rintro ⟨x, hx⟩
    exact congrArg _ (List.cons.inj hx).2
  · intro hx
    exact ⟨v1MessageVersionTag, hx⟩

/-- **On any other first byte a prefix of the input is the legacy or v0 layout.** -/
theorem parseMessage_compact_iff {b : UInt8} (hb : b ≠ v1MessageVersionTag) {rest : List UInt8}
    {m : ParsedMessage} :
    parseMessage (b :: rest) = .ok m ↔
      CompactMessage m ∧ ∃ tail, b :: rest = encodeCompactMessage m ++ tail := by
  unfold parseMessage parseMessageFrom
  rw [runReader_peek, if_neg hb, format_parseMessageFromCursor.runReader_eq_ok]

end SolanaRfq
