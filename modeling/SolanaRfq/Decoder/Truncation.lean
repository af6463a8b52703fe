import SolanaRfq.Format.Truncation
import SolanaRfq.Decoder.WireExact

/-!
# Truncated transactions

The wire parser checks only what it has already read, so an input cut short is always reported as
truncated.

* `streams_readCompactU16`, `streams_parseMessageFromCursor`, `streams_parseV1Message`: the readers;
* `CutsWhole`, `CutsDetected`: cuts of an input that is read to the end, and of what a run consumes;
* `cutsDetected_dispatchV1`: the dispatch on the version byte;
* **`parse_truncated`**: every cut of the consumed bytes is reported as truncated.
-/

namespace SolanaRfq

open ByteFormat

/-! ## Cursor helpers -/

theorem streams_readCompactU16Loop (n i : ℕ) (result : UInt32) :
    Streams (readCompactU16Loop n i result) := by
  induction n generalizing i result with
  | zero => exact Streams.throw _
  | succ n ih =>
    refine Streams.byte.bind fun b => Streams.ite (fun _ => ?_) fun _ => ih _ _
    exact (Streams.failIf _ _).bind fun _ => (Streams.failIf _ _).bind fun _ => Streams.pure _

theorem streams_readCompactU16 : Streams readCompactU16 := streams_readCompactU16Loop 3 0 0

theorem streams_readCompactBytes : Streams readCompactBytes :=
  streams_readCompactU16.bind fun _ => Streams.take _

theorem streams_readCounted {α : Type} {item : WireReader α} (h : Streams item) :
    Streams (readCounted item) :=
  streams_readCompactU16.bind fun _ => h.many _

theorem streams_readHeader : Streams readHeader :=
  Streams.byte.bind fun _ => Streams.byte.bind fun _ => Streams.byte.bind fun _ => Streams.pure _

/-! ## Legacy and v0 messages -/

theorem streams_readVersion (first : UInt8) : Streams (readVersion first) :=
  Streams.ite (fun _ => (Streams.take 1).bind fun _ => (Streams.failIf _ _).bind fun _ =>
    Streams.pure _) fun _ => Streams.pure _

theorem streams_readInstruction : Streams readInstruction :=
  Streams.byte.bind fun _ => streams_readCompactBytes.bind fun _ =>
    streams_readCompactBytes.bind fun _ => Streams.pure _

theorem streams_readLookup : Streams readLookup :=
  (Streams.array 32).bind fun _ => streams_readCompactBytes.bind fun _ =>
    streams_readCompactBytes.bind fun _ => Streams.pure _

theorem streams_readLookups (version : MessageVersion) : Streams (readLookups version) :=
  Streams.ite (fun _ => streams_readCounted streams_readLookup) fun _ => Streams.pure _

theorem streams_readMessageBody (version : MessageVersion) : Streams (readMessageBody version) :=
  streams_readHeader.bind fun _ => (streams_readCounted (Streams.array 32)).bind fun _ =>
    (Streams.array 32).bind fun _ => (streams_readCounted streams_readInstruction).bind fun _ =>
      (streams_readLookups version).bind fun _ => Streams.pure _

theorem advances_readMessageBody (version : MessageVersion) : Advances (readMessageBody version) :=
  Advances.of_parses (format_readMessageBody version) fun m w hw => by
    rw [hw.2]
    simp [encodeBody, encodeHeader]

theorem streams_parseMessageFromCursor : Streams parseMessageFromCursor :=
  Streams.peek (fun first => (streams_readVersion first).bind streams_readMessageBody)
    fun first => (streams_readVersion first).bind_advances advances_readMessageBody

theorem streams_readCompactEnvelope : Streams readCompactEnvelope :=
  (streams_readCounted (Streams.array 64)).bind fun _ =>
    streams_parseMessageFromCursor.bind fun _ => Streams.pure _

/-! ## v1 messages -/

theorem streams_readDistinctKeys (n : ℕ) (seen : List Pubkey) :
    Streams (readDistinctKeys n seen) := by
  induction n generalizing seen with
  | zero => exact Streams.pure _
  | succ n ih =>
    exact (Streams.array 32).bind fun _ => (Streams.failIf _ _).bind fun _ => ih _

theorem streams_readV1InstructionHeader : Streams readV1InstructionHeader :=
  Streams.byte.bind fun _ => Streams.byte.bind fun _ => (Streams.word 2 _).bind fun _ =>
    Streams.pure _

theorem streams_readV1Payload (numKeys : ℕ) (h : V1InstructionHeader) :
    Streams (readV1Payload numKeys h) :=
  (Streams.take _).bind fun _ => (Streams.failIf _ _).bind fun _ => (Streams.take _).bind fun _ =>
    Streams.pure _

theorem streams_readV1Instructions (numIx numKeys : ℕ) :
    Streams (readV1Instructions numIx numKeys) :=
  (streams_readV1InstructionHeader.many numIx).bind fun headers =>
    Streams.mapM (streams_readV1Payload numKeys) headers

theorem streams_readV1Config (mask : UInt32) : Streams (readV1Config mask) :=
  (Streams.failIf _ _).bind fun _ => ((Streams.word 4 _).many _).bind fun _ =>
    (Streams.failIf _ _).bind fun _ => Streams.pure _

theorem streams_parseV1Message : Streams parseV1Message :=
  (Streams.take 1).bind fun _ => streams_readHeader.bind fun _ => (Streams.word 4 _).bind fun _ =>
    (Streams.failIf _ _).bind fun _ => (Streams.array 32).bind fun _ => Streams.byte.bind fun _ =>
      Streams.byte.bind fun _ => (Streams.failIf _ _).bind fun _ =>
        (streams_readDistinctKeys _ _).bind fun _ => (streams_readV1Config _).bind fun _ =>
          (streams_readV1Instructions _ _).bind fun _ => Streams.pure _

theorem streams_readV1Envelope : Streams readV1Envelope :=
  streams_parseV1Message.bind fun _ => ((Streams.array 64).many _).bind fun _ => Streams.pure _

/-! ## Entry points -/

/-- A reader that is told the size of its input: when it accepts an input it has read all of it, and
on every part of the input, told the size of the part, it fails as truncated. -/
def CutsWhole {α : Type} (r : ℕ → WireReader α) : Prop :=
  ∀ (b : List UInt8) (a : α) (c' : Cursor), (r b.length).run (Cursor.new b) = .ok (a, c') →
    c'.pos = b.length ∧ ∀ k < b.length, ∃ expected, k < expected ∧
      (r k).run (Cursor.new (b.take k)) = .error (.truncated expected k)

theorem cutsWhole_v1Transaction : CutsWhole fun size => do
    validateV1Size size
    let tx ← readV1Envelope
    finish
    return tx := by
  intro b t c' h
  obtain ⟨hsize, h⟩ := run_failIf_bind_eq_ok.mp h
  obtain ⟨tx, c₁, hrun, hend⟩ := run_bind_eq_ok.mp h
  rw [finish, run_expectEnd_pure] at hend
  split_ifs at hend with hrest
  obtain ⟨rfl, rfl⟩ := Prod.mk.inj (Except.ok.inj hend)
  obtain ⟨-, hwhole, hcut⟩ := streams_readV1Envelope.truncated hrun
  refine ⟨hwhole hrest, fun k hk => ?_⟩
  obtain ⟨expected, hlt, herr⟩ := hcut k (hwhole hrest ▸ hk)
  refine ⟨expected, hlt, ?_⟩
  -- a shorter input passes the size check as well
  have hsize' : ¬ k > v1MaxTransactionSize := by omega
  exact (run_failIf_bind_of_not hsize').trans (run_bind_of_error herr)

theorem cutsWhole_v1Message : CutsWhole fun size => do
    let message ← parseV1Message
    validateV1Size (size + message.header.numRequiredSignatures.toNat * signatureLen)
    finish
    return message := by
  intro b m c' h
  obtain ⟨message, c₁, hrun, hend⟩ := run_bind_eq_ok.mp h
  obtain ⟨-, hend⟩ := run_failIf_bind_eq_ok.mp hend
  rw [finish, run_expectEnd_pure] at hend
  split_ifs at hend with hrest
  obtain ⟨rfl, rfl⟩ := Prod.mk.inj (Except.ok.inj hend)
  obtain ⟨-, hwhole, hcut⟩ := streams_parseV1Message.truncated hrun
  refine ⟨hwhole hrest, fun k hk => ?_⟩
  obtain ⟨expected, hlt, herr⟩ := hcut k (hwhole hrest ▸ hk)
  exact ⟨expected, hlt, run_bind_of_error herr⟩

/-- The dispatch of both entry points on the version byte. -/
def dispatchV1 {α : Type} (v1 : ℕ → WireReader α) (compact : WireReader α) (size : ℕ) :
    WireReader α := do
  let first ← peek
  if first = v1MessageVersionTag then v1 size else compact

/-- What a run of `body` on `b` that consumes `n` bytes says about every cut of these bytes. -/
structure CutsDetected {α : Type} (body : ℕ → WireReader α) (b : List UInt8) (a : α) (n : ℕ) :
    Prop where
  le : n ≤ b.length
  consumes : consumed (body b.length) b = .ok (a, b.take n)
  whole : b.head? = some v1MessageVersionTag → n = b.length
  truncated : ∀ k < n, ∃ expected, k < expected ∧
    runReader (body (b.take k).length) (b.take k) = .error (.truncated expected k)

theorem cutsDetected_dispatchV1 {α : Type} {v1 : ℕ → WireReader α} {compact : WireReader α}
    (hv1 : CutsWhole v1) (hcompact : Streams compact) {b : List UInt8} {a : α}
    (h : runReader (dispatchV1 v1 compact b.length) b = .ok a) :
    ∃ n, CutsDetected (dispatchV1 v1 compact) b a n := by
  obtain ⟨c', hrun⟩ := runReader_eq_ok_iff.mp h
  have hconsumes : consumed (dispatchV1 v1 compact b.length) b = .ok (a, b.take c'.pos) := by
    rw [consumed, hrun]
    rfl
  cases b with
  | nil => cases hrun
  | cons b rest =>
    have hbody (size : ℕ) (tail : List UInt8) : (dispatchV1 v1 compact size).run
        (Cursor.new (b :: tail)) = (if b = v1MessageVersionTag then v1 size else compact).run
          (Cursor.new (b :: tail)) := rfl
    rw [hbody] at hrun
    -- an empty part has no version byte, any other part has the one of the input
    have hcut (hcut : ∀ k < c'.pos, ∃ expected, k < expected ∧
        (if b = v1MessageVersionTag then v1 k else compact).run
          (Cursor.new ((b :: rest).take k)) = .error (.truncated expected k))
        (hle : c'.pos ≤ (b :: rest).length) : ∀ k < c'.pos, ∃ expected, k < expected ∧
        runReader (dispatchV1 v1 compact ((b :: rest).take k).length) ((b :: rest).take k) =
          .error (.truncated expected k) := by
      intro k hk
      obtain ⟨expected, hlt, herr⟩ := hcut k hk
      rw [List.length_take_of_le (hk.le.trans hle)]
      cases k with
      | zero => exact ⟨1, Nat.one_pos, rfl⟩
      | succ k =>
        refine ⟨expected, hlt, runReader_of_error ?_⟩
        rw [List.take_succ_cons, hbody]
        exact herr
    by_cases hb : b = v1MessageVersionTag
    · rw [if_pos hb] at hrun
      simp only [if_pos hb] at hcut
      obtain ⟨hpos, hall⟩ := hv1 _ a c' hrun
      exact ⟨c'.pos, hpos.le, hconsumes, fun _ => hpos, hcut (hpos ▸ hall) hpos.le⟩
    · rw [if_neg hb] at hrun
      simp only [if_neg hb] at hcut
      obtain ⟨hle, -, hall⟩ := hcompact.truncated hrun
      exact ⟨c'.pos, hle, hconsumes, fun hhead => absurd (Option.some.inj hhead) hb, hcut hall hle⟩

theorem head?_of_v1_transaction {b : List UInt8} {t : ParsedTransaction}
    (h : parseTransaction b = .ok t) (hv : t.message.version = .v1) :
    b.head? = some v1MessageVersionTag := by
  cases b with
  | nil => exact absurd h (parseTransaction_nil t)
  | cons b rest =>
    by_contra hb
    have hne : b ≠ v1MessageVersionTag := fun hb' => hb (congrArg some hb')
    exact ((parseTransaction_compact_iff hne).mp h).1.2.version_ne hv

theorem head?_of_v1_message {b : List UInt8} {m : ParsedMessage} (h : parseMessage b = .ok m)
    (hv : m.version = .v1) : b.head? = some v1MessageVersionTag := by
  cases b with
  | nil => exact absurd h (parseMessage_nil m)
  | cons b rest =>
    by_contra hb
    have hne : b ≠ v1MessageVersionTag := fun hb' => hb (congrArg some hb')
    exact ((parseMessage_compact_iff hne).mp h).1.version_ne hv

/-- **Every cut of the bytes that an accepted transaction or message consumes is reported as
truncated.** -/
theorem parse_truncated :
    (∀ b t, parseTransaction b = .ok t → ∃ n ≤ b.length,
      consumed (parseTransactionFromCursor b.length) b = .ok (t, b.take n) ∧
      (t.message.version = .v1 → n = b.length) ∧
      ∀ k < n, ∃ expected, k < expected ∧
        parseTransaction (b.take k) = .error (.truncated expected k)) ∧
    ∀ b m, parseMessage b = .ok m → ∃ n ≤ b.length,
      consumed (parseMessageFrom b.length) b = .ok (m, b.take n) ∧
      (m.version = .v1 → n = b.length) ∧
      ∀ k < n, ∃ expected, k < expected ∧
        parseMessage (b.take k) = .error (.truncated expected k) := by
  constructor
  · intro b t h
    obtain ⟨n, hn⟩ := cutsDetected_dispatchV1 cutsWhole_v1Transaction streams_readCompactEnvelope h
    exact ⟨n, hn.le, hn.consumes, fun hv => hn.whole (head?_of_v1_transaction h hv), hn.truncated⟩
  · intro b m h
    obtain ⟨n, hn⟩ := cutsDetected_dispatchV1 cutsWhole_v1Message streams_parseMessageFromCursor h
    exact ⟨n, hn.le, hn.consumes, fun hv => hn.whole (head?_of_v1_message h hv), hn.truncated⟩

/-- The first 100 bytes of the v1 sample are reported as truncated. -/
theorem parse_truncated_sample : ∃ expected, 100 < expected ∧
    parseTransaction ((encodeV1Transaction sampleV1).take 100) =
      .error (.truncated expected 100) := by
  obtain ⟨n, -, -, hwhole, hcut⟩ := parse_truncated.1 _ sampleV1 parseTransaction_sampleV1
  have hn : 100 < n := by
    rw [hwhole rfl]
    decide +kernel
  exact hcut 100 hn

end SolanaRfq
