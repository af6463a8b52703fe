import SolanaRfq.Decoder.Truncation
import SolanaRfq.Decoder.V1Errors
import SolanaRfq.Format.Refusal

/-!
# Refused transactions

The wire parser does not take back a refusal. More bytes behind a refused input give the same error,
or, where the input ended too early, they are asked for up to the same end; only on a v1 input can the
error become that of its size.

* `incremental_readCompactU16`, `incremental_parseMessageFromCursor`, `incremental_parseV1Message`:
  the readers;
* `RefusedInput`: what a refused input says of every input that starts with it;
  `RefusedInput.cure`: when a longer one is accepted;
* `refused_v1Transaction`, `refused_v1Message`: the v1 branches, with their size checks;
* **`parse_refused`**: both entry points.
-/

namespace SolanaRfq

open ByteFormat

/-! ## Legacy and v0 messages -/

theorem incremental_readCompactU16Loop (n i : ℕ) (result : UInt32) :
    Incremental (readCompactU16Loop n i result) := by
  induction n generalizing i result with
  | zero => exact Incremental.throw _
  | succ n ih =>
    refine Incremental.byte.bind fun b => Incremental.ite (fun _ => ?_) fun _ => ih _ _
    exact (Incremental.failIf _ _).bind fun _ => (Incremental.failIf _ _).bind fun _ =>
      Incremental.pure _

theorem incremental_readCompactU16 : Incremental readCompactU16 :=
  incremental_readCompactU16Loop 3 0 0

theorem incremental_readCompactBytes : Incremental readCompactBytes :=
  incremental_readCompactU16.bind fun _ => Incremental.take _

theorem incremental_readCounted {α : Type} {item : WireReader α} (h : Incremental item) :
    Incremental (readCounted item) :=
  incremental_readCompactU16.bind fun _ => h.many _

theorem incremental_readHeader : Incremental readHeader :=
  Incremental.byte.bind fun _ => Incremental.byte.bind fun _ => Incremental.byte.bind fun _ =>
    Incremental.pure _

theorem incremental_readVersion (first : UInt8) : Incremental (readVersion first) :=
  Incremental.ite (fun _ => (Incremental.take 1).bind fun _ => (Incremental.failIf _ _).bind fun _ =>
    Incremental.pure _) fun _ => Incremental.pure _

theorem incremental_readInstruction : Incremental readInstruction :=
  Incremental.byte.bind fun _ => incremental_readCompactBytes.bind fun _ =>
    incremental_readCompactBytes.bind fun _ => Incremental.pure _

theorem incremental_readLookup : Incremental readLookup :=
  (Incremental.array 32).bind fun _ => incremental_readCompactBytes.bind fun _ =>
    incremental_readCompactBytes.bind fun _ => Incremental.pure _

theorem incremental_readLookups (version : MessageVersion) : Incremental (readLookups version) :=
  Incremental.ite (fun _ => incremental_readCounted incremental_readLookup) fun _ =>
    Incremental.pure _

theorem incremental_readMessageBody (version : MessageVersion) :
    Incremental (readMessageBody version) :=
  incremental_readHeader.bind fun _ => (incremental_readCounted (Incremental.array 32)).bind fun _ =>
    (Incremental.array 32).bind fun _ => (incremental_readCounted incremental_readInstruction).bind
      fun _ => (incremental_readLookups version).bind fun _ => Incremental.pure _

theorem incremental_parseMessageFromCursor : Incremental parseMessageFromCursor :=
  Incremental.peek (fun first => (incremental_readVersion first).bind incremental_readMessageBody)
    fun first => (streams_readVersion first).bind_advances advances_readMessageBody

theorem incremental_readCompactEnvelope : Incremental readCompactEnvelope :=
  (incremental_readCounted (Incremental.array 64)).bind fun _ =>
    incremental_parseMessageFromCursor.bind fun _ => Incremental.pure _

/-! ## v1 messages -/

theorem incremental_readDistinctKeys (n : ℕ) (seen : List Pubkey) :
    Incremental (readDistinctKeys n seen) := by
  induction n generalizing seen with
  | zero => exact Incremental.pure _
  | succ n ih =>
    exact (Incremental.array 32).bind fun _ => (Incremental.failIf _ _).bind fun _ => ih _

theorem incremental_readV1InstructionHeader : Incremental readV1InstructionHeader :=
  Incremental.byte.bind fun _ => Incremental.byte.bind fun _ => (Incremental.word 2 _).bind fun _ =>
    Incremental.pure _

theorem incremental_readV1Payload (numKeys : ℕ) (h : V1InstructionHeader) :
    Incremental (readV1Payload numKeys h) :=
  (Incremental.take _).bind fun _ => (Incremental.failIf _ _).bind fun _ =>
    (Incremental.take _).bind fun _ => Incremental.pure _

theorem incremental_readV1Instructions (numIx numKeys : ℕ) :
    Incremental (readV1Instructions numIx numKeys) :=
  (incremental_readV1InstructionHeader.many numIx).bind fun headers =>
    Incremental.mapM (incremental_readV1Payload numKeys) headers

theorem incremental_readV1Config (mask : UInt32) : Incremental (readV1Config mask) :=
  (Incremental.failIf _ _).bind fun _ => ((Incremental.word 4 _).many _).bind fun _ =>
    (Incremental.failIf _ _).bind fun _ => Incremental.pure _

theorem incremental_parseV1Message : Incremental parseV1Message :=
  (Incremental.take 1).bind fun _ => incremental_readHeader.bind fun _ =>
    (Incremental.word 4 _).bind fun _ => (Incremental.failIf _ _).bind fun _ =>
      (Incremental.array 32).bind fun _ => Incremental.byte.bind fun _ =>
        Incremental.byte.bind fun _ => (Incremental.failIf _ _).bind fun _ =>
          (incremental_readDistinctKeys _ _).bind fun _ => (incremental_readV1Config _).bind fun _ =>
            (incremental_readV1Instructions _ _).bind fun _ => Incremental.pure _

theorem incremental_readV1Envelope : Incremental readV1Envelope :=
  incremental_parseV1Message.bind fun _ => ((Incremental.array 64).many _).bind fun _ =>
    Incremental.pure _

/-! ## Refused inputs -/

section Inputs

variable {α : Type} {parse : List UInt8 → Except FillDecoderError α} {b : List UInt8}
  {e : FillDecoderError}

/-- The parser fails on `b` with `e`, or for the size of a v1 input. -/
def FailsWith (parse : List UInt8 → Except FillDecoderError α) (b : List UInt8)
    (e : FillDecoderError) : Prop :=
  parse b = .error e ∨ b.head? = some v1MessageVersionTag ∧ parse b = .error sizeError

/-- What the parser says of every input that starts with `b`, which it refuses with `e`: the error
stays, or the same end of input is asked for until it is reached. -/
inductive RefusedInput (parse : List UInt8 → Except FillDecoderError α) (b : List UInt8) :
    FillDecoderError → Prop
  | final {e : FillDecoderError} : (∀ tail, FailsWith parse (b ++ tail) e) → RefusedInput parse b e
  | waiting {expected : ℕ} : b.length < expected →
      (∀ tail : List UInt8, b.length + tail.length < expected →
        FailsWith parse (b ++ tail) (.truncated expected (b.length + tail.length))) →
      RefusedInput parse b (.truncated expected b.length)

theorem FailsWith.not_ok (h : FailsWith parse b e) (a : α) : parse b ≠ .ok a := by
  intro hok
  rcases h with h | ⟨-, h⟩
  · cases hok.symm.trans h
  · cases hok.symm.trans h

/-- **The only cure of a refusal** is at least the number of bytes that it asked for. -/
theorem RefusedInput.cure (h : RefusedInput parse b e) {tail : List UInt8} {a : α}
    (hok : parse (b ++ tail) = .ok a) :
    ∃ expected, e = .truncated expected b.length ∧ b.length < expected ∧
      expected ≤ (b ++ tail).length := by
  cases h with
  | final hfails => exact absurd hok ((hfails tail).not_ok a)
  | waiting hlt hfails =>
    refine ⟨_, rfl, hlt, ?_⟩
    rw [List.length_append]
    by_contra hshort
    exact (hfails tail (not_le.mp hshort)).not_ok a hok

/-- A parser that agrees with `parse'` on the inputs that start with `b`, up to the size of v1. -/
theorem RefusedInput.of_refusesInput {parse' : List UInt8 → Except FillDecoderError α}
    (h : RefusesInput parse' b e) (hparse : ∀ tail e', parse' (b ++ tail) = .error e' →
      FailsWith parse (b ++ tail) e') : RefusedInput parse b e := by
  cases h with
  | final hfails => exact .final fun tail => hparse tail _ (hfails tail)
  | waiting hlt hfails => exact .waiting hlt fun tail ht => hparse tail _ (hfails tail ht)

end Inputs

/-! ## The branches -/

theorem refused_compact {α : Type} {parse : List UInt8 → Except FillDecoderError α}
    {r : WireReader α} (hr : Incremental r) {first : UInt8} {rest : List UInt8}
    (hparse : ∀ rest, parse (first :: rest) = runReader r (first :: rest)) {e : FillDecoderError}
    (h : parse (first :: rest) = .error e) : RefusedInput parse (first :: rest) e := by
  rw [hparse] at h
  refine .of_refusesInput (hr.refusesInput h) fun tail e' he' => .inl ?_
  rw [List.cons_append, hparse]
  exact he'

theorem parseTransaction_v1_eq (rest : List UInt8) :
    parseTransaction (v1MessageVersionTag :: rest) =
      if (v1MessageVersionTag :: rest).length > v1MaxTransactionSize then .error sizeError
      else runReader (readV1Envelope >>= fun tx => expectEnd trailingError >>= fun _ => pure tx)
        (v1MessageVersionTag :: rest) := by
  unfold parseTransaction parseTransactionFromCursor
  rw [runReader_peek, if_pos rfl, validateV1Size, failIf]
  split_ifs <;> rfl

/-- A v1 transaction: its size is checked first. -/
theorem refused_v1Transaction {rest : List UInt8} {e : FillDecoderError}
    (h : parseTransaction (v1MessageVersionTag :: rest) = .error e) :
    RefusedInput parseTransaction (v1MessageVersionTag :: rest) e := by
  have hlarge (tail : List UInt8)
      (hsize : (v1MessageVersionTag :: rest ++ tail).length > v1MaxTransactionSize) :
      parseTransaction (v1MessageVersionTag :: rest ++ tail) = .error sizeError :=
    (parseTransaction_v1_eq (rest ++ tail)).trans (if_pos hsize)
  rw [parseTransaction_v1_eq] at h
  split_ifs at h with hsize
  · obtain rfl : sizeError = e := Except.error.inj h
    refine .final fun tail => .inl (hlarge tail ?_)
    rw [List.length_append]
    omega
  · refine .of_refusesInput (incremental_readV1Envelope.refusesInput_expectEnd _ h)
      fun tail e' he' => ?_
    by_cases hsize' : (v1MessageVersionTag :: rest ++ tail).length > v1MaxTransactionSize
    · exact .inr ⟨rfl, hlarge tail hsize'⟩
    · exact .inl (((parseTransaction_v1_eq (rest ++ tail)).trans (if_neg hsize')).trans he')

/-- A v1 message with its content, and the size and the end that are checked behind it. -/
def v1PayloadReader (size : ℕ) : WireReader ParsedMessage := do
  let message ← parseV1Message
  validateV1Size (size + message.header.numRequiredSignatures.toNat * signatureLen)
  finish
  return message

theorem parseMessage_v1_eq (rest : List UInt8) : parseMessage (v1MessageVersionTag :: rest) =
    runReader (v1PayloadReader (v1MessageVersionTag :: rest).length)
      (v1MessageVersionTag :: rest) := rfl

theorem run_v1PayloadReader (size : ℕ) {c c' : Cursor} {m : ParsedMessage}
    (hrun : parseV1Message.run c = .ok (m, c')) : (v1PayloadReader size).run c =
      if size + m.header.numRequiredSignatures.toNat * signatureLen > v1MaxTransactionSize then
        .error sizeError
      else if c'.rest = [] then .ok (m, c') else .error trailingError := by
  rw [v1PayloadReader, run_bind_of_ok hrun, validateV1Size, failIf]
  split_ifs with hsize hrest
  · rfl
  · exact (run_expectEnd_pure _ m c').trans (if_pos hrest)
  · exact (run_expectEnd_pure _ m c').trans (if_neg hrest)

/-- With its content read, what a v1 message says of the inputs that start with it. -/
theorem parseMessage_v1_of_content {rest : List UInt8} {m : ParsedMessage} {c' : Cursor}
    (hrun : parseV1Message.run (Cursor.new (v1MessageVersionTag :: rest)) = .ok (m, c'))
    (tail : List UInt8) : parseMessage (v1MessageVersionTag :: rest ++ tail) =
      if (v1MessageVersionTag :: rest ++ tail).length +
          m.header.numRequiredSignatures.toNat * signatureLen > v1MaxTransactionSize then
        .error sizeError
      else if c'.rest ++ tail = [] then .ok m else .error trailingError := by
  obtain ⟨-, hext⟩ := incremental_parseV1Message.streams.run_extend hrun
  have hbehind := run_v1PayloadReader (v1MessageVersionTag :: rest ++ tail).length (hext tail)
  refine (congrArg (Except.map Prod.fst) hbehind).trans ?_
  change Except.map Prod.fst (if _ then _ else if c'.rest ++ tail = [] then _ else _) = _
  split_ifs <;> rfl

/-- A v1 message: its size is checked behind its content. -/
theorem refused_v1Message {rest : List UInt8} {e : FillDecoderError}
    (h : parseMessage (v1MessageVersionTag :: rest) = .error e) :
    RefusedInput parseMessage (v1MessageVersionTag :: rest) e := by
  cases hrun : parseV1Message.run (Cursor.new (v1MessageVersionTag :: rest)) with
  | error e' =>
    rw [parseMessage_v1_eq, runReader_eq_error_iff, v1PayloadReader, run_bind_of_error hrun] at h
    obtain rfl : e' = e := Except.error.inj h
    refine .of_refusesInput (incremental_parseV1Message.refuses _ e' hrun).refusesInput
      fun tail e₁ he₁ => .inl ((parseMessage_v1_eq (rest ++ tail)).trans ?_)
    rw [runReader_eq_error_iff] at he₁ ⊢
    exact run_bind_of_error he₁
  | ok p =>
    obtain ⟨m, c'⟩ := p
    have hcontent := parseMessage_v1_of_content hrun
    have hnil := hcontent []
    rw [List.append_nil, List.append_nil, h] at hnil
    split_ifs at hnil with hsize hrest
    · obtain rfl : e = sizeError := Except.error.inj hnil
      refine .final fun tail => .inl ((hcontent tail).trans (if_pos ?_))
      rw [List.length_append]
      omega
    · obtain rfl : e = trailingError := Except.error.inj hnil
      refine .final fun tail => ?_
      unfold FailsWith
      rw [hcontent tail, if_neg fun hrest' => hrest (List.append_eq_nil_iff.mp hrest').1]
      split_ifs
      · exact .inr ⟨rfl, rfl⟩
      · exact .inl rfl

/-! ## The entry points -/

theorem refused_nil {α : Type} {parse : List UInt8 → Except FillDecoderError α}
    (hparse : parse [] = .error (.truncated 1 0)) {e : FillDecoderError}
    (h : parse [] = .error e) : RefusedInput parse [] e := by
  obtain rfl := Except.error.inj (hparse.symm.trans h)
  refine .waiting Nat.one_pos fun tail ht => .inl ?_
  obtain rfl : tail = [] := List.length_eq_zero_iff.mp (by
    rw [List.length_nil] at ht
    omega)
  exact hparse

theorem refused_transaction {b : List UInt8} {e : FillDecoderError}
    (h : parseTransaction b = .error e) : RefusedInput parseTransaction b e := by
  cases b with
  | nil => exact refused_nil rfl h
  | cons first rest =>
    by_cases hfirst : first = v1MessageVersionTag
    · subst hfirst
      exact refused_v1Transaction h
    · refine refused_compact incremental_readCompactEnvelope (fun rest => ?_) h
      unfold parseTransaction parseTransactionFromCursor
      rw [runReader_peek, if_neg hfirst]

theorem refused_message {b : List UInt8} {e : FillDecoderError} (h : parseMessage b = .error e) :
    RefusedInput parseMessage b e := by
  cases b with
  | nil => exact refused_nil rfl h
  | cons first rest =>
    by_cases hfirst : first = v1MessageVersionTag
    · subst hfirst
      exact refused_v1Message h
    · refine refused_compact incremental_parseMessageFromCursor (fun rest => ?_) h
      unfold parseMessage parseMessageFrom
      rw [runReader_peek, if_neg hfirst]

/-- **No refusal is taken back**: every refused transaction or message is refused in every longer
input, and if a longer input is accepted, the refusal was a truncation that asked for no more. -/
theorem parse_refused :
    (∀ b e, parseTransaction b = .error e → RefusedInput parseTransaction b e ∧
      ∀ tail t, parseTransaction (b ++ tail) = .ok t → ∃ expected, e = .truncated expected b.length ∧
        b.length < expected ∧ expected ≤ (b ++ tail).length) ∧
    ∀ b e, parseMessage b = .error e → RefusedInput parseMessage b e ∧
      ∀ tail m, parseMessage (b ++ tail) = .ok m → ∃ expected, e = .truncated expected b.length ∧
        b.length < expected ∧ expected ≤ (b ++ tail).length :=
  ⟨fun _ _ h => ⟨refused_transaction h, fun _ _ hok => (refused_transaction h).cure hok⟩,
    fun _ _ h => ⟨refused_message h, fun _ _ hok => (refused_message h).cure hok⟩⟩

/-- The first 100 bytes of the v1 sample ask for six more, and the whole sample is accepted. -/
theorem parse_refused_sample :
    RefusedInput parseTransaction ((encodeV1Transaction sampleV1).take 100) (.truncated 106 100) ∧
      106 ≤ (encodeV1Transaction sampleV1).length := by
  have herror : parseTransaction ((encodeV1Transaction sampleV1).take 100) =
      .error (.truncated 106 100) := by decide +kernel
  obtain ⟨hrefused, hcure⟩ := parse_refused.1 _ _ herror
  have hwhole := List.take_append_drop 100 (encodeV1Transaction sampleV1)
  obtain ⟨expected, hexpected, -, hle⟩ := hcure _ sampleV1 (hwhole ▸ parseTransaction_sampleV1)
  rw [hwhole, ← (FillDecoderError.truncated.inj hexpected).1] at hle
  exact ⟨hrefused, hle⟩

end SolanaRfq
