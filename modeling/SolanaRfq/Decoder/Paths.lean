import SolanaRfq.Decoder.Decoded

/-!
# The transaction path and the message path

* `messagePortion`: the message inside a transaction; `envelope`: a transaction around a message;
* **`paths_agree`**: both entry points give the same decoded message;
* `NothingBehind`, `DifferBehind`, `Reflected`: bytes behind a message, and bytes its view reflects;
* **`decodeMessageBytes_determines_iff`**: the decoded view determines all bytes except those behind a
  legacy or v0 message.
-/

namespace SolanaRfq

open ByteFormat

/-- The signed part of the transaction `b`: behind the signatures for legacy and v0, in front of
them for v1. -/
def messagePortion (tx : DecodedTransaction) (b : List UInt8) : List UInt8 :=
  if tx.message.version = .v1 then
    b.take (b.length - signatureLen * tx.message.header.numRequiredSignatures.toNat)
  else b.drop ((compactU16 tx.signatures.length).length + signatureLen * tx.signatures.length)

/-- The transaction of a version around the message `m`. -/
def envelope (version : MessageVersion) (s : List Signature) (m : List UInt8) : List UInt8 :=
  if version = .v1 then m ++ s.flatMap List.Vector.toList
  else compactU16 s.length ++ s.flatMap List.Vector.toList ++ m

theorem length_flatMap_signatures (s : List Signature) :
    (s.flatMap List.Vector.toList).length = signatureLen * s.length := by
  induction s with
  | nil => rfl
  | cons x s ih =>
    rw [List.flatMap_cons, List.length_append, ih, x.toList_length, List.length_cons, signatureLen]
    omega

/-! ## Parsed values on both paths -/

theorem parseMessage_of_v1 {rest : List UInt8} {t : ParsedTransaction}
    (h : parseTransaction (v1MessageVersionTag :: rest) = .ok t) :
    v1MessageVersionTag :: rest =
        encodeV1Message t.message ++ t.signatures.flatMap List.Vector.toList ∧
      t.signatures.length = t.message.header.numRequiredSignatures.toNat ∧
      parseMessage (encodeV1Message t.message) = .ok t.message := by
  obtain ⟨hsize, ht, henc⟩ := parseTransaction_v1_iff.mp h
  refine ⟨henc, ht.signatures, ?_⟩
  rw [encodeV1Message, parseMessage_v1_iff]
  refine ⟨⟨ht.writable, ht.checked, rfl⟩, ?_⟩
  rw [henc, encodeV1Transaction, List.length_append, length_flatMap_signatures, ht.signatures,
    mul_comm signatureLen] at hsize
  exact hsize

theorem parseTransaction_of_v1 {rest : List UInt8} {m : ParsedMessage} {s : List Signature}
    (h : parseMessage (v1MessageVersionTag :: rest) = .ok m)
    (hs : s.length = m.header.numRequiredSignatures.toNat) :
    parseTransaction (v1MessageVersionTag :: rest ++ s.flatMap List.Vector.toList) =
      .ok ⟨s, m⟩ := by
  obtain ⟨⟨hw, hc, henc⟩, hsize⟩ := parseMessage_v1_iff.mp h
  rw [List.cons_append, parseTransaction_v1_iff, ← List.cons_append]
  refine ⟨?_, ⟨hw, hc, hs⟩, by rw [henc, encodeV1Transaction]⟩
  rw [List.length_append, length_flatMap_signatures, hs, mul_comm signatureLen]
  exact hsize

/-- Behind a v1 message exactly the signatures its header requires can follow. -/
theorem length_of_parseTransaction_append {rest x : List UInt8} {m : ParsedMessage}
    {t : ParsedTransaction} (hm : parseMessage (v1MessageVersionTag :: rest) = .ok m)
    (ht : parseTransaction (v1MessageVersionTag :: rest ++ x) = .ok t) :
    x.length = signatureLen * m.header.numRequiredSignatures.toNat := by
  obtain ⟨⟨hw, hc, henc⟩, -⟩ := parseMessage_v1_iff.mp hm
  rw [List.cons_append] at ht
  obtain ⟨-, ht, henc'⟩ := parseTransaction_v1_iff.mp ht
  rw [← List.cons_append, henc] at henc'
  obtain ⟨hmsg, hx⟩ := parses_parseV1Message.inj_of_append
    (⟨hw, hc, _, rfl⟩ : _ ∧ _ ∧ ∃ x, encodeV1Message m = x :: encodeV1Body m)
    (⟨ht.writable, ht.checked, _, rfl⟩ :
      _ ∧ _ ∧ ∃ x, encodeV1Message t.message = x :: encodeV1Body t.message) henc'
  rw [hx, length_flatMap_signatures, ht.signatures, hmsg]

theorem parseMessage_of_compact {b : UInt8} (hb : b ≠ v1MessageVersionTag) {rest : List UInt8}
    {t : ParsedTransaction} (h : parseTransaction (b :: rest) = .ok t) :
    ∃ m, b :: rest = compactU16 t.signatures.length ++
        t.signatures.flatMap List.Vector.toList ++ m ∧ parseMessage m = .ok t.message ∧
      t.message.version ≠ .v1 := by
  obtain ⟨⟨-, hm⟩, tail, htail⟩ := (parseTransaction_compact_iff hb).mp h
  refine ⟨encodeCompactMessage t.message ++ tail, ?_, parseMessage_encode hm tail, hm.version_ne⟩
  rw [htail, encodeCompactTransaction, encodeCounted]
  simp only [List.append_assoc]

theorem parseTransaction_of_compact {b : List UInt8} {m : ParsedMessage} {s : List Signature}
    (h : parseMessage b = .ok m) (hv : m.version ≠ .v1) (hs : s.length < 128) :
    parseTransaction (compactU16 s.length ++ s.flatMap List.Vector.toList ++ b) = .ok ⟨s, m⟩ := by
  obtain ⟨hm, -⟩ := consumed_parseMessage h hv
  obtain ⟨-, tail, htail⟩ := parseMessage_spelled h
  rw [encodeMessage_of_ne hv] at htail
  have ht : CompactTransaction ⟨s, m⟩ := ⟨hs.le.trans (by norm_num), hm⟩
  have := parseTransaction_encode ht (Nat.le_of_lt_succ hs) tail
  rwa [encodeCompactTransaction, encodeCounted, List.append_assoc, ← htail] at this

/-! ## Decoded values on both paths -/

theorem bareMessage_header (m : ParsedMessage) :
    (extractFills (bareMessage m)).header = m.header := rfl

theorem bareMessage_version (m : ParsedMessage) :
    (extractFills (bareMessage m)).version = m.version := rfl

theorem decodeMessageBytes_messagePortion {b : List UInt8} {tx : DecodedTransaction}
    (h : decodeTransactionBytes b = .ok tx) :
    decodeMessageBytes (messagePortion tx b) = .ok tx.message := by
  obtain ⟨t, ht, hsigs, hacc, rfl⟩ := decodeTransactionBytes_eq_ok_iff.mp h
  rw [decodeMessageBytes_eq_ok_iff]
  refine ⟨t.message, ?_, hacc, rfl⟩
  unfold messagePortion
  dsimp only
  rw [bareMessage_version, bareMessage_header]
  cases b with
  | nil => exact absurd ht (parseTransaction_nil t)
  | cons b rest =>
    by_cases hb : b = v1MessageVersionTag
    · subst hb
      obtain ⟨hbytes, hlen, hm⟩ := parseMessage_of_v1 ht
      rw [if_pos (parseTransaction_v1_version ht), hbytes, List.length_append,
        length_flatMap_signatures, hlen, Nat.add_sub_cancel, List.take_left]
      exact hm
    · obtain ⟨m, hbytes, hm, hv⟩ := parseMessage_of_compact hb ht
      rw [if_neg hv, hbytes, ← length_flatMap_signatures, ← List.length_append, List.drop_left]
      exact hm

theorem decodeTransactionBytes_envelope {m : List UInt8} {msg : DecodedMessage}
    {s : List Signature} (h : decodeMessageBytes m = .ok msg)
    (hs : s.length = msg.header.numRequiredSignatures.toNat)
    (hlt : msg.version ≠ .v1 → s.length < 128) :
    decodeTransactionBytes (envelope msg.version s m) = .ok ⟨s, msg⟩ := by
  obtain ⟨p, hp, hacc, rfl⟩ := decodeMessageBytes_eq_ok_iff.mp h
  rw [bareMessage_version] at hlt ⊢
  rw [bareMessage_header] at hs
  rw [decodeTransactionBytes_eq_ok_iff]
  refine ⟨⟨s, p⟩, ?_, hs, hacc, rfl⟩
  unfold envelope
  by_cases hv : p.version = .v1
  · obtain ⟨hl, tail, htail⟩ := parseMessage_spelled hp
    rw [if_pos hv]
    rw [encodeMessage, if_pos hv, encodeV1Message, List.cons_append] at htail
    subst htail
    exact parseTransaction_of_v1 hp hs
  · rw [if_neg hv]
    exact parseTransaction_of_compact hp hv (hlt hv)

/-- **Both entry points give the same decoded message.** -/
theorem paths_agree :
    (∀ b tx, decodeTransactionBytes b = .ok tx →
      decodeMessageBytes (messagePortion tx b) = .ok tx.message) ∧
    (∀ m msg (s : List Signature), decodeMessageBytes m = .ok msg →
      s.length = msg.header.numRequiredSignatures.toNat →
      (msg.version ≠ .v1 → s.length < 128) →
      decodeTransactionBytes (envelope msg.version s m) = .ok ⟨s, msg⟩) ∧
    ∀ m msg (x : List UInt8) tx, decodeMessageBytes m = .ok msg → msg.version = .v1 →
      x.length ≠ signatureLen * msg.header.numRequiredSignatures.toNat →
      decodeTransactionBytes (m ++ x) ≠ .ok tx := by
  refine ⟨fun b tx h => decodeMessageBytes_messagePortion h,
    fun m msg s h hs hlt => decodeTransactionBytes_envelope h hs hlt, ?_⟩
  intro m msg x tx h hv hx htx
  obtain ⟨p, hp, -, rfl⟩ := decodeMessageBytes_eq_ok_iff.mp h
  obtain ⟨t, ht, -⟩ := decodeTransactionBytes_eq_ok_iff.mp htx
  rw [bareMessage_version] at hv
  obtain ⟨-, tail, htail⟩ := parseMessage_spelled hp
  rw [encodeMessage, if_pos hv, encodeV1Message, List.cons_append] at htail
  subst htail
  exact hx (length_of_parseTransaction_append hp ht)

theorem paths_agree_sampleV0 :
    decodeMessageBytes (messagePortion
        ⟨sampleV0.signatures, extractFills (bareMessage sampleV0.message)⟩
        (encodeCompactTransaction sampleV0)) =
      .ok (extractFills (bareMessage sampleV0.message)) := by
  have hacc : Accepted sampleV0.message :=
    ⟨by decide, by decide, by decide, by decide +kernel, by decide +kernel⟩
  have ht : CompactTransaction sampleV0 := ⟨by decide +kernel, ⟨⟨rfl, by decide +kernel,
    by decide +kernel, by decide +kernel, by decide +kernel⟩, by decide, by decide⟩⟩
  have hparse := parseTransaction_encode ht (by decide +kernel) []
  rw [List.append_nil] at hparse
  exact paths_agree.1 _ _ (decodeTransactionBytes_eq_ok_iff.mpr ⟨_, hparse, rfl, hacc, rfl⟩)

/-! ## What the decoded view determines -/

theorem head?_of_decodeMessageBytes {m : List UInt8} {msg : DecodedMessage}
    (h : decodeMessageBytes m = .ok msg) :
    m.head? = some v1MessageVersionTag ↔ msg.version = .v1 := by
  obtain ⟨p, hp, -, rfl⟩ := decodeMessageBytes_eq_ok_iff.mp h
  obtain ⟨hl, tail, rfl⟩ := parseMessage_spelled hp
  obtain ⟨b, hb, h₁, -⟩ := head?_encodeMessage hl
  rw [head?_append_of_head? hb, Option.some.injEq, bareMessage_version]
  exact h₁.symm

/-- Nothing is behind the message: it is v1, or ends with the layout of a legacy or v0 message. -/
def NothingBehind (m : List UInt8) : Prop :=
  m.head? = some v1MessageVersionTag ∨ ∃ p, CompactMessage p ∧ m = encodeCompactMessage p

/-- One legacy or v0 message, with different bytes behind it. -/
def DifferBehind (m₁ m₂ : List UInt8) : Prop :=
  ∃ p tail₁ tail₂, CompactMessage p ∧ m₁ = encodeCompactMessage p ++ tail₁ ∧
    m₂ = encodeCompactMessage p ++ tail₂ ∧ tail₁ ≠ tail₂

/-- The view reflects every byte of `m`: no byte can be changed or left out under the same view. -/
def Reflected (m : List UInt8) (msg : DecodedMessage) : Prop :=
  ∀ m', decodeMessageBytes m' = .ok msg → m'.length ≤ m.length → m' = m

theorem exists_layout {m : List UInt8} {msg : DecodedMessage} (h : decodeMessageBytes m = .ok msg) :
    ∃ p, msg = extractFills (bareMessage p) ∧
      (m.head? = some v1MessageVersionTag ∧ m = encodeV1Message p ∨
        m.head? ≠ some v1MessageVersionTag ∧ CompactMessage p ∧
          ∃ tail, m = encodeCompactMessage p ++ tail) := by
  obtain ⟨p, hp, -, hmsg⟩ := decodeMessageBytes_eq_ok_iff.mp h
  refine ⟨p, hmsg, ?_⟩
  cases m with
  | nil => exact absurd hp (parseMessage_nil p)
  | cons b rest =>
    by_cases hb : b = v1MessageVersionTag
    · subst hb
      exact .inl ⟨rfl, (parseMessage_v1_iff.mp hp).1.2.2⟩
    · exact .inr ⟨fun hhead => hb (Option.some.inj hhead), (parseMessage_compact_iff hb).mp hp⟩

theorem NothingBehind.tail_eq_nil {p : ParsedMessage} (hp : CompactMessage p) {tail : List UInt8}
    (h : NothingBehind (encodeCompactMessage p ++ tail)) : tail = [] := by
  rcases h with hhead | ⟨q, hq, henc⟩
  · obtain ⟨b, rest, hbr, hb⟩ := compactMessage_head hp
    rw [hbr, List.cons_append] at hhead
    exact absurd (Option.some.inj hhead) hb
  · rw [← List.append_nil (encodeCompactMessage q)] at henc
    exact (format_parseMessageFromCursor.enc_inj_of_append hp hq henc).2

/-- Messages with equal views are equal, unless they differ behind one legacy or v0 message. -/
theorem eq_of_view_eq {m₁ m₂ : List UInt8} {msg : DecodedMessage}
    (h₁ : decodeMessageBytes m₁ = .ok msg) (h₂ : decodeMessageBytes m₂ = .ok msg)
    (hdiffer : ¬ DifferBehind m₁ m₂) : m₁ = m₂ := by
  obtain ⟨p₁, rfl, hlayout₁⟩ := exists_layout h₁
  obtain ⟨p₂, hview, hlayout₂⟩ := exists_layout h₂
  obtain rfl := decodedView_injective hview
  have hv₁ := head?_of_decodeMessageBytes h₁
  have hv₂ := head?_of_decodeMessageBytes h₂
  rcases hlayout₁ with ⟨hhead₁, henc₁⟩ | ⟨hhead₁, hp, tail₁, rfl⟩
  · rcases hlayout₂ with ⟨-, henc₂⟩ | ⟨hhead₂, -⟩
    · rw [henc₁, henc₂]
    · exact absurd (hv₂.mpr (hv₁.mp hhead₁)) hhead₂
  · rcases hlayout₂ with ⟨hhead₂, -⟩ | ⟨-, -, tail₂, rfl⟩
    · exact absurd (hv₁.mpr (hv₂.mp hhead₂)) hhead₁
    · by_contra hne
      exact hdiffer ⟨p₁, tail₁, tail₂, hp, rfl, rfl, fun htail => hne (htail ▸ rfl)⟩

theorem view_eq_of_differBehind {m₁ m₂ : List UInt8} {msg₁ msg₂ : DecodedMessage}
    (h₁ : decodeMessageBytes m₁ = .ok msg₁) (h₂ : decodeMessageBytes m₂ = .ok msg₂)
    (hdiffer : DifferBehind m₁ m₂) : msg₁ = msg₂ := by
  obtain ⟨p, tail₁, tail₂, hp, rfl, rfl, -⟩ := hdiffer
  obtain ⟨q₁, hq₁, -, rfl⟩ := decodeMessageBytes_eq_ok_iff.mp h₁
  obtain ⟨q₂, hq₂, -, rfl⟩ := decodeMessageBytes_eq_ok_iff.mp h₂
  rw [parseMessage_encode hp] at hq₁ hq₂
  rw [← Except.ok.inj hq₁, ← Except.ok.inj hq₂]

theorem reflected_iff {m : List UInt8} {msg : DecodedMessage} (h : decodeMessageBytes m = .ok msg) :
    Reflected m msg ↔ NothingBehind m := by
  constructor
  · intro hreflected
    obtain ⟨p, rfl, ⟨hhead, -⟩ | ⟨-, hp, tail, rfl⟩⟩ := exists_layout h
    · exact .inl hhead
    · -- the message without its tail has the same view
      obtain ⟨q, hq, hacc, hview⟩ := decodeMessageBytes_eq_ok_iff.mp h
      have hbare : parseMessage (encodeCompactMessage p) = .ok q := by
        rw [parseMessage_encode hp] at hq
        rw [← hq, ← List.append_nil (encodeCompactMessage p), parseMessage_encode hp]
      refine .inr ⟨p, hp, (hreflected _ ?_ ?_).symm⟩
      · exact decodeMessageBytes_eq_ok_iff.mpr ⟨q, hbare, hacc, hview⟩
      · rw [List.length_append]
        exact Nat.le_add_right _ _
  · intro hnothing m' h' hlen
    refine eq_of_view_eq h' h ?_
    rintro ⟨p, tail', tail, hp, rfl, rfl, hne⟩
    obtain rfl := hnothing.tail_eq_nil hp
    rw [List.length_append, List.append_nil] at hlen
    exact hne (List.eq_nil_of_length_eq_zero (by omega))

/-- **Equal views give equal bytes unless the messages differ behind one legacy or v0 message, so
whenever nothing is behind them; and a view reflects every byte exactly if nothing is behind the
message.** -/
theorem decodeMessageBytes_determines_iff {m₁ m₂ : List UInt8} {msg₁ msg₂ : DecodedMessage}
    (h₁ : decodeMessageBytes m₁ = .ok msg₁) (h₂ : decodeMessageBytes m₂ = .ok msg₂) :
    ((msg₁ = msg₂ → m₁ = m₂) ↔ ¬ DifferBehind m₁ m₂) ∧
    (NothingBehind m₁ → NothingBehind m₂ → msg₁ = msg₂ → m₁ = m₂) ∧
    (Reflected m₁ msg₁ ↔ NothingBehind m₁) := by
  have hpair : (msg₁ = msg₂ → m₁ = m₂) ↔ ¬ DifferBehind m₁ m₂ := by
    constructor
    · intro hinj hdiffer
      have heq := hinj (view_eq_of_differBehind h₁ h₂ hdiffer)
      obtain ⟨p, tail₁, tail₂, -, rfl, rfl, hne⟩ := hdiffer
      exact hne (List.append_cancel_left heq)
    · rintro hdiffer rfl
      exact eq_of_view_eq h₁ h₂ hdiffer
  refine ⟨hpair, fun hn₁ hn₂ => hpair.mpr ?_, reflected_iff h₁⟩
  rintro ⟨p, tail₁, tail₂, hp, rfl, rfl, hne⟩
  exact hne ((hn₁.tail_eq_nil hp).trans (hn₂.tail_eq_nil hp).symm)

/-- A legacy message with one signer and no instructions. -/
def sampleLegacy : ParsedMessage where
  version := .legacy
  header := ⟨1, 0, 0⟩
  staticAccountKeys := [List.Vector.replicate 32 1]
  recentBlockhash := List.Vector.replicate 32 9
  instructions := []
  addressTableLookups := []
  transactionConfig := none

theorem decodeMessageBytes_sampleLegacy :
    decodeMessageBytes (encodeCompactMessage sampleLegacy) =
      .ok (extractFills (bareMessage sampleLegacy)) := by
  decide +kernel

theorem decodeMessageBytes_sampleLegacy_tail :
    decodeMessageBytes (encodeCompactMessage sampleLegacy ++ [0]) =
      .ok (extractFills (bareMessage sampleLegacy)) := by
  decide +kernel

theorem compactMessage_sampleLegacy : CompactMessage sampleLegacy :=
  ⟨⟨rfl, by decide +kernel, by decide +kernel, by decide +kernel, by decide +kernel⟩, by decide,
    by decide⟩

/-- The view of the sample reflects all 69 bytes of it, and not the zero byte behind them. -/
theorem decodeMessageBytes_determines_iff_sample :
    Reflected (encodeCompactMessage sampleLegacy) (extractFills (bareMessage sampleLegacy)) ∧
      ¬ Reflected (encodeCompactMessage sampleLegacy ++ [0])
        (extractFills (bareMessage sampleLegacy)) := by
  have h := decodeMessageBytes_sampleLegacy
  have htail := decodeMessageBytes_sampleLegacy_tail
  constructor
  · exact (decodeMessageBytes_determines_iff h htail).2.2.mpr
      (.inr ⟨_, compactMessage_sampleLegacy, rfl⟩)
  · rw [(decodeMessageBytes_determines_iff htail h).2.2]
    intro hnothing
    exact List.cons_ne_nil _ _ (hnothing.tail_eq_nil compactMessage_sampleLegacy)

/-- A zero byte behind the sample is ignored. -/
theorem trailing_byte_ignored :
    decodeMessageBytes (encodeCompactMessage sampleLegacy) =
        .ok (extractFills (bareMessage sampleLegacy)) ∧
      decodeMessageBytes (encodeCompactMessage sampleLegacy ++ [0]) =
        .ok (extractFills (bareMessage sampleLegacy)) ∧
      encodeCompactMessage sampleLegacy ≠ encodeCompactMessage sampleLegacy ++ [0] :=
  ⟨decodeMessageBytes_sampleLegacy, decodeMessageBytes_sampleLegacy_tail, by decide⟩

end SolanaRfq
