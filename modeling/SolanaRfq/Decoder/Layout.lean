import SolanaRfq.Decoder.CompactU16

/-!
# The legacy and v0 layouts

The documented byte layout of legacy and v0 messages and transactions, and the proof that the
parser reads exactly that layout.

* `encodeCompactMessage`, `encodeCompactTransaction`: the layouts; `CompactMessage`: what the
  message layout can carry;
* `format_readCounted`, `format_readInstruction`, `format_readLookup`: the counted parts;
* **`format_parseMessageFromCursor`**: the parser reads exactly the encoded messages.
-/

namespace SolanaRfq

open ByteFormat

/-! ## Layouts -/

/-- A compact-u16 count followed by the items. -/
def encodeCounted {α : Type} (enc : α → List UInt8) (xs : List α) : List UInt8 :=
  compactU16 xs.length ++ xs.flatMap enc

/-- A compact-u16 length followed by the bytes. -/
def encodeCompactBytes (bs : List UInt8) : List UInt8 := compactU16 bs.length ++ bs

/-- The three counts of a header. -/
def encodeHeader (h : MessageHeader) : List UInt8 :=
  [h.numRequiredSignatures, h.numReadonlySignedAccounts, h.numReadonlyUnsignedAccounts]

/-- A program index, and the accounts and the data behind their counts. -/
def encodeInstruction (ix : CompiledInstruction) : List UInt8 :=
  ix.programIdIndex :: (encodeCompactBytes ix.accountIndices ++ encodeCompactBytes ix.data)

/-- A table key, and the two index lists behind their counts. -/
def encodeLookup (l : AddressTableLookup) : List UInt8 :=
  l.tableKey.toList ++ (encodeCompactBytes l.writableIndexes ++
    encodeCompactBytes l.readonlyIndexes)

/-- The lookup section, which only v0 messages have. -/
def encodeLookups (version : MessageVersion) (ls : List AddressTableLookup) : List UInt8 :=
  if version = .v0 then encodeCounted encodeLookup ls else []

/-- What follows the version tag. -/
def encodeBody (m : ParsedMessage) : List UInt8 :=
  encodeHeader m.header ++ (encodeCounted List.Vector.toList m.staticAccountKeys ++
    (m.recentBlockhash.toList ++ (encodeCounted encodeInstruction m.instructions ++
      encodeLookups m.version m.addressTableLookups)))

/-- The layout of a legacy or v0 message. -/
def encodeCompactMessage (m : ParsedMessage) : List UInt8 :=
  if m.version = .v0 then v0MessageVersionTag :: encodeBody m else encodeBody m

/-- The signature envelope of legacy and v0 transactions. -/
def encodeCompactTransaction (t : ParsedTransaction) : List UInt8 :=
  encodeCounted List.Vector.toList t.signatures ++ encodeCompactMessage t.message

/-! ## What the layouts can carry -/

/-- Both lists of an instruction have a compact-u16 length. -/
def CompiledInstruction.Fits (ix : CompiledInstruction) : Prop :=
  ix.accountIndices.length ≤ 65535 ∧ ix.data.length ≤ 65535

/-- Both lists of a lookup have a compact-u16 length. -/
def AddressTableLookup.Fits (l : AddressTableLookup) : Prop :=
  l.writableIndexes.length ≤ 65535 ∧ l.readonlyIndexes.length ≤ 65535

instance (ix : CompiledInstruction) : Decidable ix.Fits := inferInstanceAs (Decidable (_ ∧ _))
instance (l : AddressTableLookup) : Decidable l.Fits := inferInstanceAs (Decidable (_ ∧ _))

/-- The body of a legacy or v0 message: only v0 has lookups, none has a configuration, and every
list has a compact-u16 length. -/
structure CompactBody (m : ParsedMessage) : Prop where
  config : m.transactionConfig = none
  keys : m.staticAccountKeys.length ≤ 65535
  instructions : m.instructions.length ≤ 65535 ∧ ∀ ix ∈ m.instructions, ix.Fits
  lookups : m.addressTableLookups.length ≤ 65535 ∧ ∀ l ∈ m.addressTableLookups, l.Fits
  no_lookups : m.version ≠ .v0 → m.addressTableLookups = []

/-- A legacy or v0 message: the signature count of a legacy message leaves the version bit
clear. -/
structure CompactMessage (m : ParsedMessage) : Prop extends CompactBody m where
  version_ne : m.version ≠ .v1
  legacy : m.version = .legacy → m.header.numRequiredSignatures < 128

/-! ## The counted parts -/

theorem format_readHeader : Format readHeader (fun _ => True) encodeHeader := by
  refine (Format.byte.bind fun a _ => Format.byte.bind fun b _ => Format.byte.bind fun c _ =>
    Parses.pure (MessageHeader.mk a b c)).congr fun h w => ?_
  constructor
  · rintro ⟨a, -, _, ⟨b, -, _, ⟨c, -, _, ⟨rfl, rfl⟩, rfl⟩, rfl⟩, rfl⟩
    exact ⟨trivial, rfl⟩
  · rintro ⟨-, rfl⟩
    exact ⟨_, trivial, _, ⟨_, trivial, _, ⟨_, trivial, _, ⟨rfl, rfl⟩, rfl⟩, rfl⟩, rfl⟩

theorem format_readCompactBytes :
    Format readCompactBytes (fun bs => bs.length ≤ 65535) encodeCompactBytes := by
  refine (format_readCompactU16.bind fun n _ => Format.take n.toNat).congr fun bs w => ?_
  constructor
  · rintro ⟨n, -, _, ⟨hlen, rfl⟩, rfl⟩
    have := n.toNat_lt
    exact ⟨by omega, by rw [encodeCompactBytes, hlen]⟩
  · rintro ⟨hlen, rfl⟩
    have hn : (UInt16.ofNat bs.length).toNat = bs.length := by rw [UInt16.toNat_ofNat']; omega
    exact ⟨UInt16.ofNat bs.length, trivial, bs, ⟨hn.symm, rfl⟩, by rw [hn, encodeCompactBytes]⟩

theorem format_readCounted {α : Type} {item : WireReader α} {ok : α → Prop}
    {enc : α → List UInt8} (h : Format item ok enc) :
    Format (readCounted item) (fun as => as.length ≤ 65535 ∧ ∀ a ∈ as, ok a)
      (encodeCounted enc) := by
  refine (format_readCompactU16.bind fun n _ => h.many n.toNat).congr fun as w => ?_
  constructor
  · rintro ⟨n, -, _, ⟨⟨hlen, hok⟩, rfl⟩, rfl⟩
    have := n.toNat_lt
    exact ⟨⟨by omega, hok⟩, by rw [encodeCounted, hlen]⟩
  · rintro ⟨⟨hlen, hok⟩, rfl⟩
    have hn : (UInt16.ofNat as.length).toNat = as.length := by rw [UInt16.toNat_ofNat']; omega
    exact ⟨UInt16.ofNat as.length, trivial, _, ⟨⟨hn.symm, hok⟩, rfl⟩, by rw [hn, encodeCounted]⟩

theorem format_readInstruction :
    Format readInstruction CompiledInstruction.Fits encodeInstruction := by
  refine (Format.byte.bind fun p _ => format_readCompactBytes.bind fun a _ =>
    format_readCompactBytes.bind fun d _ =>
      Parses.pure (CompiledInstruction.mk p a d)).congr fun ix w => ?_
  constructor
  · rintro ⟨p, -, _, ⟨a, ha, _, ⟨d, hd, _, ⟨rfl, rfl⟩, rfl⟩, rfl⟩, rfl⟩
    exact ⟨⟨ha, hd⟩, by simp [encodeInstruction]⟩
  · rintro ⟨⟨ha, hd⟩, rfl⟩
    exact ⟨_, trivial, _, ⟨_, ha, _, ⟨_, hd, _, ⟨rfl, rfl⟩, rfl⟩, rfl⟩,
      by simp [encodeInstruction]⟩

theorem format_readLookup : Format readLookup AddressTableLookup.Fits encodeLookup := by
  refine ((Format.array 32).bind fun k _ => format_readCompactBytes.bind fun a _ =>
    format_readCompactBytes.bind fun b _ =>
      Parses.pure (AddressTableLookup.mk k a b)).congr fun l w => ?_
  constructor
  · rintro ⟨k, -, _, ⟨a, ha, _, ⟨b, hb, _, ⟨rfl, rfl⟩, rfl⟩, rfl⟩, rfl⟩
    exact ⟨⟨ha, hb⟩, by simp [encodeLookup]⟩
  · rintro ⟨⟨ha, hb⟩, rfl⟩
    exact ⟨_, trivial, _, ⟨_, ha, _, ⟨_, hb, _, ⟨rfl, rfl⟩, rfl⟩, rfl⟩, by simp [encodeLookup]⟩

theorem format_readSignatures : Format (readCounted (array 64) : WireReader (List Signature))
    (fun sigs => sigs.length ≤ 65535) (encodeCounted List.Vector.toList) :=
  (format_readCounted (Format.array 64)).congr fun _ _ =>
    and_congr_left fun _ => and_iff_left fun _ _ => trivial

theorem format_readKeys : Format (readCounted (array 32) : WireReader (List Pubkey))
    (fun keys => keys.length ≤ 65535) (encodeCounted List.Vector.toList) :=
  (format_readCounted (Format.array 32)).congr fun _ _ =>
    and_congr_left fun _ => and_iff_left fun _ _ => trivial

theorem format_readLookups (version : MessageVersion) :
    Format (readLookups version) (fun ls => (ls.length ≤ 65535 ∧ ∀ l ∈ ls, l.Fits) ∧
      (version ≠ .v0 → ls = [])) (encodeLookups version) := by
  unfold readLookups encodeLookups
  refine (Parses.ite (fun _ => format_readCounted format_readLookup)
    (fun _ => Parses.pure [])).congr fun ls w => ?_
  by_cases h : version = .v0 <;> simp only [h, true_and, false_and, not_true, not_false_iff,
    if_true, if_false, or_false, false_or, ne_eq, IsEmpty.forall_iff, and_true, true_imp_iff]
  constructor
  · rintro ⟨rfl, rfl⟩
    exact ⟨⟨⟨by simp, by simp⟩, rfl⟩, rfl⟩
  · rintro ⟨⟨-, rfl⟩, rfl⟩
    exact ⟨rfl, rfl⟩

/-! ## Messages -/

theorem format_readMessageBody (version : MessageVersion) : Format (readMessageBody version)
    (fun m => m.version = version ∧ CompactBody m) encodeBody := by
  refine (format_readHeader.bind fun h _ => format_readKeys.bind fun ks _ =>
    (Format.array 32).bind fun bh _ => (format_readCounted format_readInstruction).bind fun ixs _ =>
      (format_readLookups version).bind fun ls _ =>
        Parses.pure (ParsedMessage.mk version h ks bh ixs ls none)).congr fun m w => ?_
  constructor
  · rintro ⟨h, -, _, ⟨ks, hks, _, ⟨bh, -, _, ⟨ixs, hixs, _, ⟨ls, ⟨hls, hno⟩, _, ⟨rfl, rfl⟩, rfl⟩,
      rfl⟩, rfl⟩, rfl⟩, rfl⟩
    exact ⟨⟨rfl, rfl, hks, hixs, hls, hno⟩, by simp [encodeBody]⟩
  · rintro ⟨⟨rfl, hcfg, hks, hixs, hls, hno⟩, rfl⟩
    obtain ⟨v, h, ks, bh, ixs, ls, cfg⟩ := m
    obtain rfl : cfg = none := hcfg
    exact ⟨h, trivial, _, ⟨ks, hks, _, ⟨bh, trivial, _, ⟨ixs, hixs, _, ⟨ls, ⟨hls, hno⟩, _,
      ⟨rfl, rfl⟩, rfl⟩, rfl⟩, rfl⟩, rfl⟩, by simp [encodeBody]⟩

theorem and_tag_eq_zero_iff (b : UInt8) : b &&& v0MessageVersionTag = 0 ↔ b < 128 := by
  revert b
  apply forall_byte
  decide +kernel

theorem tag_eq_iff (b : UInt8) :
    (b &&& v0MessageVersionTag ≠ 0 ∧ b &&& ~~~v0MessageVersionTag = 0) ↔
      b = v0MessageVersionTag := by
  revert b
  apply forall_byte
  decide +kernel

/-- The version after looking at the first byte `b`: v0 consumes one byte, legacy none. -/
theorem parses_readVersion (b : UInt8) : Parses (readVersion b) fun v w =>
    (v = .v0 ∧ b = v0MessageVersionTag ∧ w.length = 1) ∨ (v = .legacy ∧ b < 128 ∧ w = []) := by
  refine (Parses.ite (fun _ => (Format.take 1).bind fun _ _ => Parses.failIf fun _ =>
    Parses.pure MessageVersion.v0) (fun _ => Parses.pure MessageVersion.legacy)).congr fun v w => ?_
  constructor
  · rintro (⟨hb, u, hu, _, ⟨htag, rfl, rfl⟩, rfl⟩ | ⟨hb, rfl, rfl⟩)
    · exact .inl ⟨rfl, (tag_eq_iff b).mp ⟨hb, not_not.mp htag⟩, by simpa using hu⟩
    · exact .inr ⟨rfl, (and_tag_eq_zero_iff b).mp (not_not.mp hb), rfl⟩
  · rintro (⟨rfl, hb, hw⟩ | ⟨rfl, hb, rfl⟩)
    · obtain ⟨h₁, h₂⟩ := (tag_eq_iff b).mpr hb
      exact .inl ⟨h₁, w, hw, [], ⟨not_not.mpr h₂, rfl, rfl⟩, by simp⟩
    · exact .inr ⟨not_not.mpr ((and_tag_eq_zero_iff b).mpr hb), rfl, rfl⟩

theorem head?_encodeBody (m : ParsedMessage) :
    (encodeBody m).head? = some m.header.numRequiredSignatures := rfl

/-- **The legacy and v0 parser reads exactly the encoded messages.** -/
theorem format_parseMessageFromCursor :
    Format parseMessageFromCursor CompactMessage encodeCompactMessage := by
  refine (Parses.peek (fun b => (parses_readVersion b).bind fun v _ _ => format_readMessageBody v)
    ?_).congr fun m w => ?_
  · rintro b m w ⟨v, u, x, -, ⟨-, rfl⟩, rfl⟩ h
    exact absurd (List.append_eq_nil_iff.mp h).2 (by simp [encodeBody, encodeHeader])
  constructor
  · rintro ⟨b, hb, v, u, x, hu, ⟨⟨rfl, hm⟩, rfl⟩, rfl⟩
    rcases hu with ⟨hv, rfl, hlen⟩ | ⟨hv, hlt, rfl⟩
    · obtain ⟨b', rfl⟩ := List.length_eq_one_iff.mp hlen
      obtain rfl : b' = v0MessageVersionTag := by simpa using hb
      exact ⟨⟨hm, by simp [hv], by simp [hv]⟩, by simp [encodeCompactMessage, hv]⟩
    · rw [List.nil_append, head?_encodeBody] at hb
      obtain rfl := Option.some.inj hb
      exact ⟨⟨hm, by simp [hv], fun _ => hlt⟩, by simp [encodeCompactMessage, hv]⟩
  · rintro ⟨hm, rfl⟩
    cases hv : m.version with
    | legacy =>
      refine ⟨_, ?_, .legacy, [], _, .inr ⟨rfl, hm.legacy hv, rfl⟩, ⟨⟨hv, hm.toCompactBody⟩, rfl⟩, ?_⟩
      all_goals simp [encodeCompactMessage, hv, head?_encodeBody]
    | v0 =>
      refine ⟨v0MessageVersionTag, ?_, .v0, [v0MessageVersionTag], _, .inl ⟨rfl, rfl, rfl⟩,
        ⟨⟨hv, hm.toCompactBody⟩, rfl⟩, ?_⟩
      all_goals simp [encodeCompactMessage, hv]
    | v1 => exact absurd hv hm.version_ne

end SolanaRfq
