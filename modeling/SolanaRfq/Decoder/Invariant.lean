import SolanaRfq.Decoder.Dispatch

/-!
# The representation invariant of decoded messages

* `DecodedMessage.WellFormed`: the header, count, index and fill facts that every decoded message
  satisfies;
* `DecodedFrom`: a message decoded from bytes by either entry point;
* **`DecodedFrom.wellFormed`**: such a message is well formed;
* `Represents`: what a decoded message keeps of the wire message; **`decoded_represents`**: it holds
  of both entry points, and no v1 input is refused after parsing.
-/

namespace SolanaRfq

open ByteFormat

/-- What holds of every decoded message. -/
structure DecodedMessage.WellFormed (msg : DecodedMessage) : Prop where
  signers : msg.header.numRequiredSignatures.toNat ≤ msg.staticAccountKeys.length
  readonlySigned :
    msg.header.numReadonlySignedAccounts.toNat ≤ msg.header.numRequiredSignatures.toNat
  readonlyUnsigned : msg.header.numReadonlyUnsignedAccounts.toNat ≤
    msg.staticAccountKeys.length - msg.header.numRequiredSignatures.toNat
  total : msg.totalAccountCount ≤ maxAccountKeys
  indices : ∀ ix ∈ msg.instructions, ix.programIdIndex.toNat < msg.totalAccountCount ∧
    ∀ index ∈ ix.accountIndices, index.toNat < msg.totalAccountCount
  numbered : ∀ (i : ℕ) (ix : DecodedInstruction), msg.instructions[i]? = some ix →
    ix.instructionIndex = i
  fills : ∀ ix ∈ msg.instructions, ix.fills ≠ [] → ix.entrypoint = some .concrete ∧
    ∃ programId, msg.staticAccountKeys[ix.programIdIndex.toNat]? = some programId ∧
      isDexSolanaV3Program programId

/-- The message `msg` is what one of the entry points decodes from `b`. -/
def DecodedFrom (b : List UInt8) (msg : DecodedMessage) : Prop :=
  decodeMessageBytes b = .ok msg ∨ ∃ tx, decodeTransactionBytes b = .ok tx ∧ tx.message = msg

theorem DecodedFrom.accepted {b : List UInt8} {msg : DecodedMessage} (h : DecodedFrom b msg) :
    ∃ m, Accepted m ∧ msg = extractFills (bareMessage m) := by
  rcases h with h | ⟨tx, h, rfl⟩
  · obtain ⟨m, -, hacc, rfl⟩ := decodeMessageBytes_eq_ok_iff.mp h
    exact ⟨m, hacc, rfl⟩
  · obtain ⟨t, -, -, hacc, rfl⟩ := decodeTransactionBytes_eq_ok_iff.mp h
    exact ⟨t.message, hacc, rfl⟩

theorem extractInstruction_fills {ks : List Pubkey} {ix : DecodedInstruction} (hix : ix.fills = [])
    (h : (extractInstruction ks ix).fills ≠ []) :
    (extractInstruction ks ix).entrypoint = some .concrete ∧
      ∃ programId, ks[ix.programIdIndex.toNat]? = some programId ∧
        isDexSolanaV3Program programId := by
  by_cases hdex : DexProgram ks ix.programIdIndex
  · rw [extractInstruction_of_dex ix hdex] at h ⊢
    exact ⟨decodeSolrfqv2Legs_fills h, hdex⟩
  · rw [extractInstruction_of_not_dex ix hdex] at h
    exact absurd hix h

theorem mem_instructions_extractFills {m : ParsedMessage} {ix : DecodedInstruction}
    (h : ix ∈ (extractFills (bareMessage m)).instructions) :
    ∃ i cix, cix ∈ m.instructions ∧
      ix = extractInstruction m.staticAccountKeys (bareInstruction i cix) := by
  simp only [extractFills, bareMessage, List.mem_map, Prod.exists] at h
  obtain ⟨_, ⟨cix, i, hmem, rfl⟩, rfl⟩ := h
  exact ⟨i, cix, List.mem_of_getElem? (List.mem_zipIdx_iff_getElem?.mp hmem), rfl⟩

theorem Accepted.wellFormed {m : ParsedMessage} (hacc : Accepted m) :
    (extractFills (bareMessage m)).WellFormed := by
  refine ⟨hacc.signers, hacc.readonlySigned, hacc.readonlyUnsigned, hacc.total, ?_, ?_, ?_⟩
  · intro ix hix
    obtain ⟨i, cix, hcix, rfl⟩ := mem_instructions_extractFills hix
    rw [extractInstruction_programIdIndex, extractInstruction_accountIndices]
    exact hacc.indices cix hcix
  · intro i ix hix
    simp only [extractFills, bareMessage, List.getElem?_map, List.getElem?_zipIdx,
      Option.map_eq_some_iff] at hix
    obtain ⟨_, ⟨_, ⟨cix, -, rfl⟩, rfl⟩, rfl⟩ := hix
    simp [bareInstruction]
  · intro ix hix hfills
    obtain ⟨i, cix, -, rfl⟩ := mem_instructions_extractFills hix
    rw [extractInstruction_programIdIndex]
    exact extractInstruction_fills rfl hfills

/-- **Every decoded message is well formed.** -/
theorem DecodedFrom.wellFormed {b : List UInt8} {msg : DecodedMessage} (h : DecodedFrom b msg) :
    msg.WellFormed := by
  obtain ⟨m, hacc, rfl⟩ := h.accepted
  exact hacc.wellFormed

/-! ## The wire message -/

/-- What a decoded message keeps of the wire message `m`. -/
structure Represents (m : ParsedMessage) (msg : DecodedMessage) : Prop
    extends DecodedMessage.WellFormed msg where
  loadedWritable : msg.loadedWritableCount =
    (msg.addressTableLookups.map (·.writableIndexes.length)).sum
  loadedReadonly : msg.loadedReadonlyCount =
    (msg.addressTableLookups.map (·.readonlyIndexes.length)).sum
  staticIndex : ∀ i < msg.staticAccountKeys.length, (UInt8.ofNat i).toNat = i
  wire : msg.parsed = m
  noTokenLedger : ∀ ix ∈ msg.instructions, ix.entrypoint ≠ some .tokenLedger
  config : msg.transactionConfig.isSome ↔ msg.version = .v1
  lookups : msg.version ≠ .v0 → msg.addressTableLookups = []

/-- A parsed message is a legacy or v0 value, or a checked v1 value. -/
def WireMessage (m : ParsedMessage) : Prop := CompactMessage m ∨ V1Writable m ∧ V1Checked m

theorem wireMessage_of_parseMessage {b : List UInt8} {m : ParsedMessage}
    (h : parseMessage b = .ok m) : WireMessage m := by
  cases b with
  | nil => exact absurd h (parseMessage_nil m)
  | cons b rest =>
    by_cases hb : b = v1MessageVersionTag
    · rw [hb, parseMessage_v1_iff] at h
      exact .inr ⟨h.1.1, h.1.2.1⟩
    · exact .inl ((parseMessage_compact_iff hb).mp h).1

theorem wireMessage_of_parseTransaction {b : List UInt8} {t : ParsedTransaction}
    (h : parseTransaction b = .ok t) : WireMessage t.message ∧ (t.message.version = .v1 →
      t.signatures.length = t.message.header.numRequiredSignatures.toNat) := by
  cases b with
  | nil => exact absurd h (parseTransaction_nil t)
  | cons b rest =>
    by_cases hb : b = v1MessageVersionTag
    · rw [hb, parseTransaction_v1_iff] at h
      exact ⟨.inr ⟨h.2.1.writable, h.2.1.checked⟩, fun _ => h.2.1.signatures⟩
    · have hm := ((parseTransaction_compact_iff hb).mp h).1.2
      exact ⟨.inl hm, fun hv => absurd hv hm.version_ne⟩

theorem WireMessage.shape {m : ParsedMessage} (h : WireMessage m) :
    (m.transactionConfig.isSome ↔ m.version = .v1) ∧
      (m.version ≠ .v0 → m.addressTableLookups = []) := by
  rcases h with hm | ⟨hw, -⟩
  · rw [hm.config]
    exact ⟨by simp [hm.version_ne], hm.no_lookups⟩
  · exact ⟨by simp [hw.config, hw.version], fun _ => hw.lookups⟩

theorem V1Checked.accepted {m : ParsedMessage} (hw : V1Writable m) (hc : V1Checked m) :
    Accepted m := by
  have htotal : totalAccountKeys m = m.staticAccountKeys.length := by
    rw [totalAccountKeys, hw.lookups]
    rfl
  have hkeys := hc.keyCount
  have hlt : m.header.numReadonlySignedAccounts.toNat < m.header.numRequiredSignatures.toNat :=
    hc.readonlySigned
  refine ⟨by omega, hlt.le, by omega, ?_, fun ix hix => ?_⟩
  · rw [htotal]
    exact hc.keys_le.trans (by decide)
  · rw [htotal]
    exact hc.indices ix hix

theorem WireMessage.accepted_of_v1 {m : ParsedMessage} (h : WireMessage m)
    (hv : m.version = .v1) : Accepted m := by
  rcases h with hm | ⟨hw, hc⟩
  · exact absurd hv hm.version_ne
  · exact hc.accepted hw

theorem extractInstruction_ne_tokenLedger (keys : List Pubkey) (i : ℕ) (ix : CompiledInstruction) :
    (extractInstruction keys (bareInstruction i ix)).entrypoint ≠ some .tokenLedger := by
  by_cases hdex : DexProgram keys (bareInstruction i ix).programIdIndex
  · rw [extractInstruction_entrypoint _ hdex]
    cases hargs : decodeSwapArgs (bareInstruction i ix).data with
    | none => simp
    | some any =>
      cases any with
      | concrete args => simp [AnySwapArgs.kind]
      | tokenLedger args => exact absurd hargs (decodeSwapArgs_ne_tokenLedger _ args)
      | unsupported => simp [AnySwapArgs.kind]
  · rw [extractInstruction_of_not_dex _ hdex]
    simp [bareInstruction]

theorem Accepted.represents {m : ParsedMessage} (hwire : WireMessage m) (hacc : Accepted m) :
    Represents m (extractFills (bareMessage m)) where
  toWellFormed := hacc.wellFormed
  loadedWritable := rfl
  loadedReadonly := rfl
  staticIndex i hi := by
    have htotal := hacc.wellFormed.total
    have hi' : i < (extractFills (bareMessage m)).staticAccountKeys.length := hi
    unfold DecodedMessage.totalAccountCount maxAccountKeys at htotal
    rw [UInt8.toNat_ofNat']
    omega
  wire := parsed_extractFills_bareMessage m
  noTokenLedger ix hix := by
    obtain ⟨i, cix, -, rfl⟩ := mem_instructions_extractFills hix
    exact extractInstruction_ne_tokenLedger _ i cix
  config := hwire.shape.1
  lookups := hwire.shape.2

/-- **Both entry points keep the wire message, and refuse no v1 input that parses.** -/
theorem decoded_represents (b : List UInt8) :
    (∀ tx, decodeTransactionBytes b = .ok tx → ∃ t, parseTransaction b = .ok t ∧
      Represents t.message tx.message ∧ tx.signatures = t.signatures ∧
      tx.signatures.length = tx.message.header.numRequiredSignatures.toNat) ∧
    (∀ msg, decodeMessageBytes b = .ok msg → ∃ m, parseMessage b = .ok m ∧ Represents m msg) ∧
    (∀ t, parseTransaction b = .ok t → t.message.version = .v1 →
      ∃ tx, decodeTransactionBytes b = .ok tx) ∧
    ∀ m, parseMessage b = .ok m → m.version = .v1 → ∃ msg, decodeMessageBytes b = .ok msg := by
  refine ⟨fun tx h => ?_, fun msg h => ?_, fun t h hv => ?_, fun m h hv => ?_⟩
  · obtain ⟨t, ht, hsigs, hacc, rfl⟩ := decodeTransactionBytes_eq_ok_iff.mp h
    exact ⟨t, ht, hacc.represents (wireMessage_of_parseTransaction ht).1, rfl, hsigs⟩
  · obtain ⟨m, hm, hacc, rfl⟩ := decodeMessageBytes_eq_ok_iff.mp h
    exact ⟨m, hm, hacc.represents (wireMessage_of_parseMessage hm)⟩
  · obtain ⟨hwire, hsigs⟩ := wireMessage_of_parseTransaction h
    exact ⟨_, decodeTransactionBytes_eq_ok_iff.mpr
      ⟨t, h, hsigs hv, hwire.accepted_of_v1 hv, rfl⟩⟩
  · exact ⟨_, decodeMessageBytes_eq_ok_iff.mpr
      ⟨m, h, (wireMessage_of_parseMessage h).accepted_of_v1 hv, rfl⟩⟩

theorem decoded_represents_sample : ∃ t,
    parseTransaction (encodeCompactTransaction sampleV0) = .ok t ∧
      Represents t.message (extractFills (bareMessage sampleV0.message)) ∧
      sampleV0.signatures = t.signatures ∧ sampleV0.signatures.length =
        (extractFills (bareMessage sampleV0.message)).header.numRequiredSignatures.toNat := by
  have hparse := parseTransaction_encode (t := sampleV0)
    ⟨by decide +kernel, ⟨⟨rfl, by decide +kernel, by decide +kernel, by decide +kernel,
      by decide +kernel⟩, by decide, by decide⟩⟩ (by decide +kernel) []
  rw [List.append_nil] at hparse
  exact (decoded_represents _).1 ⟨sampleV0.signatures, extractFills (bareMessage sampleV0.message)⟩
    (decodeTransactionBytes_eq_ok_iff.mpr ⟨_, hparse, by decide +kernel, ⟨by decide +kernel,
      by decide +kernel, by decide +kernel, by decide +kernel, by decide +kernel⟩, rfl⟩)

end SolanaRfq
