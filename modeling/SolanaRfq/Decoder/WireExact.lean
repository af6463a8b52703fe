import SolanaRfq.Decoder.Envelope

/-!
# The wire parser is exact

The parser and the layouts are inverse to each other, in every version.

* `IsV1Encoding`: the v1 encoding relation; **`parseTransaction_v1_exact`**: a string that starts
  with `0x81` is accepted exactly when it is the encoding of a checked value, and the accessors
  return the words of that encoding;
* `encodeMessage`, `encodeTransaction`: the layout of a value of any version;
* **`compact_roundTrip`**: legacy and v0 values round trip, what the parser consumes is the
  encoding, and no version is read as another.
-/

namespace SolanaRfq

open ByteFormat

/-! ## v1 transactions -/

/-- `b` is the v1 encoding of `t`: the layout can carry `t`, with the signatures its header
requires, and `b` is the layout. -/
def IsV1Encoding (t : ParsedTransaction) (b : List UInt8) : Prop :=
  V1Writable t.message ∧
    t.signatures.length = t.message.header.numRequiredSignatures.toNat ∧ b = encodeV1Transaction t

theorem toNat_joinWords (lo hi : UInt32) :
    (lo.toUInt64 ||| (hi.toUInt64 <<< 32)).toNat = lo.toNat + 2 ^ 32 * hi.toNat := by
  have hlo := lo.toNat_lt
  have hhi := hi.toNat_lt
  have hshift : (UInt64.toNat 32) % 64 = 32 := rfl
  rw [UInt64.toNat_or, UInt64.toNat_shiftLeft, hshift, UInt32.toNat_toUInt64,
    UInt32.toNat_toUInt64, Nat.shiftLeft_eq, Nat.mod_eq_of_lt (by omega), Nat.or_comm, mul_comm,
    ← Nat.two_pow_add_eq_or_of_lt hlo, add_comm]

/-- The accessors of a configuration in terms of the words written for the mask bits. -/
structure AccessorsExact (cfg : V1TransactionConfig) : Prop where
  value : ∀ bit < 32, cfg.value (UInt32.ofNat bit) = wordOf cfg bit
  fee : cfg.priorityFeeLamports.toNat =
    ((wordOf cfg 0).getD 0).toNat + 2 ^ 32 * ((wordOf cfg 1).getD 0).toNat
  units : cfg.computeUnitLimit = (wordOf cfg 2).getD 0
  loaded : cfg.loadedAccountsDataSizeLimit = (wordOf cfg 3).getD 0
  heap : cfg.heapSize = (wordOf cfg 4).getD 32768

theorem accessorsExact {cfg : V1TransactionConfig} (hmask : cfg.mask.toNat < 32)
    (hlen : cfg.values.length = (setBits cfg.mask).length) : AccessorsExact cfg := by
  have hval : ∀ bit < 32, cfg.value (UInt32.ofNat bit) = wordOf cfg bit := fun bit hbit =>
    value_eq_wordOf hmask hlen hbit
  refine ⟨hval, ?_, ?_, ?_, ?_⟩
  · rw [← hval 0 (by norm_num), ← hval 1 (by norm_num)]
    exact toNat_joinWords _ _
  · rw [← hval 2 (by norm_num)]
    rfl
  · rw [← hval 3 (by norm_num)]
    rfl
  · rw [← hval 4 (by norm_num)]
    rfl

/-- **The v1 parser accepts exactly the encodings of the checked values.** -/
theorem parseTransaction_v1_exact (b : List UInt8) (t : ParsedTransaction)
    (hb : b.head? = some v1MessageVersionTag) :
    (parseTransaction b = .ok t ↔
      IsV1Encoding t b ∧ b.length ≤ v1MaxTransactionSize ∧ V1Checked t.message) ∧
    (parseTransaction b = .ok t →
      ∃ cfg, t.message.transactionConfig = some cfg ∧ AccessorsExact cfg) := by
  obtain ⟨rest, rfl⟩ : ∃ rest, b = v1MessageVersionTag :: rest := List.head?_eq_some_iff.mp hb
  constructor
  · rw [parseTransaction_v1_iff]
    constructor
    · rintro ⟨hsize, ht, henc⟩
      exact ⟨⟨ht.writable, ht.signatures, henc⟩, hsize, ht.checked⟩
    · rintro ⟨⟨hw, hsigs, henc⟩, hsize, hc⟩
      exact ⟨hsize, ⟨hw, hc, hsigs⟩, henc⟩
  · intro hok
    obtain ⟨-, ht, -⟩ := parseTransaction_v1_iff.mp hok
    obtain ⟨cfg, hcfg⟩ := Option.isSome_iff_exists.mp ht.writable.config
    have hv1 : v1Config t.message = cfg := by rw [v1Config, hcfg, Option.getD_some]
    have hmask := ht.checked.mask
    have hwords := ht.writable.words
    rw [hv1] at hmask hwords
    exact ⟨cfg, hcfg, accessorsExact (Nat.lt_succ_of_le hmask) hwords⟩

/-- A v1 transaction with one signer, a priority fee and a heap word. -/
def sampleV1 : ParsedTransaction where
  signatures := [List.Vector.replicate 64 7]
  message :=
    { version := .v1
      header := ⟨1, 0, 0⟩
      staticAccountKeys := [List.Vector.replicate 32 1, List.Vector.replicate 32 2]
      recentBlockhash := List.Vector.replicate 32 9
      instructions := [⟨1, [0], [5, 6]⟩]
      addressTableLookups := []
      transactionConfig := some ⟨0x13, [5000, 1, 65536]⟩ }

theorem parseTransaction_sampleV1 :
    parseTransaction (encodeV1Transaction sampleV1) = .ok sampleV1 := by
  refine (parseTransaction_v1_exact _ sampleV1 rfl).1.mpr ⟨⟨?_, rfl, rfl⟩, by decide +kernel, ?_⟩
  · exact ⟨rfl, rfl, rfl, rfl, by decide +kernel, by decide +kernel, by decide +kernel⟩
  · have hheap : wordOf (v1Config sampleV1.message) 4 = some 65536 := by decide +kernel
    refine ⟨by decide, by decide, fun word hword => ?_, by decide, by decide, by decide,
      by decide +kernel, by decide +kernel, by decide +kernel, by decide +kernel⟩
    obtain rfl : 65536 = word := Option.some.inj (hheap.symm.trans hword)
    decide

/-! ## Layouts of every version -/

/-- The layout of a message. -/
def encodeMessage (m : ParsedMessage) : List UInt8 :=
  if m.version = .v1 then encodeV1Message m else encodeCompactMessage m

/-- The layout of a transaction. -/
def encodeTransaction (t : ParsedTransaction) : List UInt8 :=
  if t.message.version = .v1 then encodeV1Transaction t else encodeCompactTransaction t

/-- The version bit of a legacy message is clear. -/
def LegacyHeader (m : ParsedMessage) : Prop :=
  m.version = .legacy → m.header.numRequiredSignatures < 128

theorem head?_encodeMessage {m : ParsedMessage} (hm : LegacyHeader m) :
    ∃ b, (encodeMessage m).head? = some b ∧ (m.version = .v1 ↔ b = v1MessageVersionTag) ∧
      (m.version = .v0 ↔ b = v0MessageVersionTag) := by
  have hlt (b : UInt8) (h : b < 128) : b ≠ v1MessageVersionTag ∧ b ≠ v0MessageVersionTag := by
    constructor <;> rintro rfl <;> exact absurd h (by decide)
  cases hv : m.version with
  | legacy =>
    obtain ⟨h₁, h₀⟩ := hlt _ (hm hv)
    refine ⟨m.header.numRequiredSignatures, ?_, by simp [h₁], by simp [h₀]⟩
    simp [encodeMessage, encodeCompactMessage, hv, head?_encodeBody]
  | v0 =>
    exact ⟨v0MessageVersionTag, by simp [encodeMessage, encodeCompactMessage, hv], by decide,
      by simp⟩
  | v1 => exact ⟨v1MessageVersionTag, by simp [encodeMessage, encodeV1Message, hv], by simp,
      by decide⟩

theorem head?_append_of_head? {α : Type} {xs ys : List α} {a : α} (h : xs.head? = some a) :
    (xs ++ ys).head? = some a := by
  rw [List.head?_append, h]
  rfl

/-- Layouts with a common prefix are of one version. -/
theorem version_eq_of_append {m m' : ParsedMessage} (hm : LegacyHeader m) (hm' : LegacyHeader m')
    {s s' : List UInt8} (h : encodeMessage m ++ s = encodeMessage m' ++ s') :
    m.version = m'.version := by
  obtain ⟨b, hb, h₁, h₀⟩ := head?_encodeMessage hm
  obtain ⟨b', hb', h₁', h₀'⟩ := head?_encodeMessage hm'
  obtain rfl : b = b' := by
    have hs : (encodeMessage m ++ s).head? = some b := head?_append_of_head? hb
    rw [h, head?_append_of_head? hb'] at hs
    exact (Option.some.inj hs).symm
  have hv1 := h₁.trans h₁'.symm
  have hv0 := h₀.trans h₀'.symm
  cases hv : m.version <;> cases hv' : m'.version <;> simp_all

/-! ## Legacy and v0 -/

theorem LegacyHeader.of_compactMessage {m : ParsedMessage} (hm : CompactMessage m) :
    LegacyHeader m := hm.legacy

theorem encodeMessage_of_ne {m : ParsedMessage} (hm : m.version ≠ .v1) :
    encodeMessage m = encodeCompactMessage m := if_neg hm

theorem compactMessage_head {m : ParsedMessage} (hm : CompactMessage m) :
    ∃ b rest, encodeCompactMessage m = b :: rest ∧ b ≠ v1MessageVersionTag := by
  obtain ⟨b, hb, h₁, -⟩ := head?_encodeMessage (LegacyHeader.of_compactMessage hm)
  rw [encodeMessage_of_ne hm.version_ne] at hb
  obtain ⟨rest, hrest⟩ := List.head?_eq_some_iff.mp hb
  exact ⟨b, rest, hrest, fun h => hm.version_ne (h₁.mpr h)⟩

/-- A count of at most 127 is one byte, so a short envelope does not start with `0x81`. -/
theorem compactTransaction_head {t : ParsedTransaction} (hsigs : t.signatures.length ≤ 127) :
    ∃ b rest, encodeCompactTransaction t = b :: rest ∧ b ≠ v1MessageVersionTag := by
  have hdiv : t.signatures.length / 128 = 0 := by omega
  refine ⟨UInt8.ofNat t.signatures.length,
    t.signatures.flatMap List.Vector.toList ++ encodeCompactMessage t.message, ?_, ?_⟩
  · rw [encodeCompactTransaction, encodeCounted, compactU16, pushCompactU16, if_pos hdiv]
    rfl
  · intro h
    have := congrArg UInt8.toNat h
    rw [UInt8.toNat_ofNat', show v1MessageVersionTag.toNat = 129 from rfl] at this
    omega

theorem parseTransaction_v1_version {rest : List UInt8} {t : ParsedTransaction}
    (h : parseTransaction (v1MessageVersionTag :: rest) = .ok t) : t.message.version = .v1 :=
  (parseTransaction_v1_iff.mp h).2.1.writable.version

theorem parseMessage_v1_version {rest : List UInt8} {m : ParsedMessage}
    (h : parseMessage (v1MessageVersionTag :: rest) = .ok m) : m.version = .v1 :=
  (parseMessage_v1_iff.mp h).1.1.version

theorem parseTransaction_nil (t : ParsedTransaction) : parseTransaction [] ≠ .ok t := by
  intro h
  exact absurd h (by simp [parseTransaction, parseTransactionFromCursor, runReader, peek, Cursor.new,
    StateT.run, bind, StateT.bind, Except.bind, Except.map])

theorem parseMessage_nil (m : ParsedMessage) : parseMessage [] ≠ .ok m := by
  intro h
  exact absurd h (by simp [parseMessage, parseMessageFrom, runReader, peek, Cursor.new,
    StateT.run, bind, StateT.bind, Except.bind, Except.map])

theorem consumed_peek {α : Type} (f : UInt8 → WireReader α) (b : UInt8) (rest : List UInt8) :
    consumed (peek >>= f) (b :: rest) = consumed (f b) (b :: rest) := rfl

theorem consumed_parseTransaction {b : List UInt8} {t : ParsedTransaction}
    (h : parseTransaction b = .ok t) (hv : t.message.version ≠ .v1) :
    CompactTransaction t ∧
      consumed (parseTransactionFromCursor b.length) b = .ok (t, encodeCompactTransaction t) := by
  cases b with
  | nil => exact absurd h (parseTransaction_nil t)
  | cons b rest =>
    have hb : b ≠ v1MessageVersionTag := by
      rintro rfl
      exact hv (parseTransaction_v1_version h)
    obtain ⟨ht, htail⟩ := (parseTransaction_compact_iff hb).mp h
    refine ⟨ht, ?_⟩
    unfold parseTransactionFromCursor
    rw [consumed_peek, if_neg hb]
    exact format_readCompactEnvelope.consumed_eq_ok.mpr ⟨ht, rfl, htail⟩

theorem consumed_parseMessage {b : List UInt8} {m : ParsedMessage}
    (h : parseMessage b = .ok m) (hv : m.version ≠ .v1) :
    CompactMessage m ∧
      consumed (parseMessageFrom b.length) b = .ok (m, encodeCompactMessage m) := by
  cases b with
  | nil => exact absurd h (parseMessage_nil m)
  | cons b rest =>
    have hb : b ≠ v1MessageVersionTag := by
      rintro rfl
      exact hv (parseMessage_v1_version h)
    obtain ⟨hm, htail⟩ := (parseMessage_compact_iff hb).mp h
    refine ⟨hm, ?_⟩
    unfold parseMessageFrom
    rw [consumed_peek, if_neg hb]
    exact format_parseMessageFromCursor.consumed_eq_ok.mpr ⟨hm, rfl, htail⟩

theorem parseTransaction_encode {t : ParsedTransaction} (ht : CompactTransaction t)
    (hsigs : t.signatures.length ≤ 127) (tail : List UInt8) :
    parseTransaction (encodeCompactTransaction t ++ tail) = .ok t := by
  obtain ⟨b, rest, hbr, hb⟩ := compactTransaction_head hsigs
  rw [hbr, List.cons_append, parseTransaction_compact_iff hb]
  exact ⟨ht, tail, by rw [hbr, List.cons_append]⟩

theorem parseMessage_encode {m : ParsedMessage} (hm : CompactMessage m) (tail : List UInt8) :
    parseMessage (encodeCompactMessage m ++ tail) = .ok m := by
  obtain ⟨b, rest, hbr, hb⟩ := compactMessage_head hm
  rw [hbr, List.cons_append, parseMessage_compact_iff hb]
  exact ⟨hm, tail, by rw [hbr, List.cons_append]⟩

/-! ## No version is read as another -/

theorem parseMessage_spelled {b : List UInt8} {m : ParsedMessage} (h : parseMessage b = .ok m) :
    LegacyHeader m ∧ ∃ tail, b = encodeMessage m ++ tail := by
  cases b with
  | nil => exact absurd h (parseMessage_nil m)
  | cons b rest =>
    by_cases hb : b = v1MessageVersionTag
    · subst hb
      have hv := parseMessage_v1_version h
      obtain ⟨⟨-, -, henc⟩, -⟩ := parseMessage_v1_iff.mp h
      exact ⟨fun hl => by simp [hv] at hl, [], by rw [henc, encodeMessage, if_pos hv, List.append_nil]⟩
    · obtain ⟨hm, tail, htail⟩ := (parseMessage_compact_iff hb).mp h
      exact ⟨hm.legacy, tail, by rw [htail, encodeMessage_of_ne hm.version_ne]⟩

/-- A message layout, with any bytes behind it, is only ever read as its own version. -/
theorem parseMessage_version {m m' : ParsedMessage} (hm : LegacyHeader m) {tail : List UInt8}
    (h : parseMessage (encodeMessage m ++ tail) = .ok m') : m'.version = m.version := by
  obtain ⟨hm', tail', htail⟩ := parseMessage_spelled h
  exact version_eq_of_append hm' hm htail.symm

theorem parseTransaction_version {t t' : ParsedTransaction} (ht : LegacyHeader t.message)
    (hsigs : t.message.version ≠ .v1 → t.signatures.length ≤ 127) {tail : List UInt8}
    (h : parseTransaction (encodeTransaction t ++ tail) = .ok t') :
    t'.message.version = t.message.version := by
  by_cases hv : t.message.version = .v1
  · rw [encodeTransaction, if_pos hv, encodeV1Transaction, encodeV1Message, List.cons_append,
      List.cons_append] at h
    rw [hv]
    exact parseTransaction_v1_version h
  · obtain ⟨b, rest, hbr, hb⟩ := compactTransaction_head (hsigs hv)
    rw [encodeTransaction, if_neg hv] at h
    have hinput : encodeCompactTransaction t ++ tail = b :: (rest ++ tail) := by rw [hbr]; rfl
    rw [hinput] at h
    obtain ⟨ht', tail', htail⟩ := (parseTransaction_compact_iff hb).mp h
    have happ : encodeCounted List.Vector.toList t'.signatures ++
        (encodeMessage t'.message ++ tail') = encodeCounted List.Vector.toList t.signatures ++
        (encodeMessage t.message ++ tail) := by
      rw [encodeMessage_of_ne hv, encodeMessage_of_ne ht'.2.version_ne, ← List.append_assoc,
        ← List.append_assoc]
      exact htail.symm.trans hinput.symm
    obtain ⟨-, hmsg⟩ := format_readSignatures.enc_inj_of_append ht'.1
      ((hsigs hv).trans (by norm_num)) happ
    exact version_eq_of_append ht'.2.legacy ht hmsg

/-- **Legacy and v0 values round trip, and only canonical spellings are consumed.** -/
theorem compact_roundTrip :
    (∀ t, CompactTransaction t → t.signatures.length ≤ 127 →
      parseTransaction (encodeCompactTransaction t) = .ok t) ∧
    (∀ b t, parseTransaction b = .ok t → t.message.version ≠ .v1 →
      consumed (parseTransactionFromCursor b.length) b = .ok (t, encodeCompactTransaction t)) ∧
    (∀ m, CompactMessage m → parseMessage (encodeCompactMessage m) = .ok m) ∧
    (∀ b m, parseMessage b = .ok m → m.version ≠ .v1 →
      consumed (parseMessageFrom b.length) b = .ok (m, encodeCompactMessage m)) ∧
    (∀ t t' tail, LegacyHeader t.message →
      (t.message.version ≠ .v1 → t.signatures.length ≤ 127) →
      parseTransaction (encodeTransaction t ++ tail) = .ok t' →
      t'.message.version = t.message.version) ∧
    ∀ m m' tail, LegacyHeader m → parseMessage (encodeMessage m ++ tail) = .ok m' →
      m'.version = m.version := by
  refine ⟨fun t ht hsigs => ?_, fun b t h hv => (consumed_parseTransaction h hv).2, fun m hm => ?_,
    fun b m h hv => (consumed_parseMessage h hv).2, fun t t' tail ht hsigs h =>
      parseTransaction_version ht hsigs h, fun m m' tail hm h => parseMessage_version hm h⟩
  · rw [← List.append_nil (encodeCompactTransaction t)]
    exact parseTransaction_encode ht hsigs []
  · rw [← List.append_nil (encodeCompactMessage m)]
    exact parseMessage_encode hm []

/-- A v0 transaction with one lookup. -/
def sampleV0 : ParsedTransaction where
  signatures := [List.Vector.replicate 64 7]
  message :=
    { version := .v0
      header := ⟨1, 0, 0⟩
      staticAccountKeys := [List.Vector.replicate 32 1]
      recentBlockhash := List.Vector.replicate 32 9
      instructions := [⟨0, [0, 1], [5, 6]⟩]
      addressTableLookups := [⟨List.Vector.replicate 32 3, [4], []⟩]
      transactionConfig := none }

theorem parseTransaction_sampleV0 :
    parseTransaction (encodeCompactTransaction sampleV0) = .ok sampleV0 ∧
      consumed (parseTransactionFromCursor (encodeCompactTransaction sampleV0).length)
        (encodeCompactTransaction sampleV0) = .ok (sampleV0, encodeCompactTransaction sampleV0) := by
  have hok : parseTransaction (encodeCompactTransaction sampleV0) = .ok sampleV0 :=
    compact_roundTrip.1 sampleV0 ⟨by decide +kernel, ⟨⟨rfl, by decide +kernel, by decide +kernel,
      by decide +kernel, by decide +kernel⟩, by decide, by decide⟩⟩ (by decide +kernel)
  exact ⟨hok, compact_roundTrip.2.1 _ _ hok (by decide)⟩

end SolanaRfq
