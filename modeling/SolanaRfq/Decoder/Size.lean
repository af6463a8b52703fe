import SolanaRfq.Decoder.Policy
import SolanaRfq.Decoder.WireExact
import Mathlib.Algebra.Order.BigOperators.Group.List

/-!
# What a decoded message takes on the wire

The counts on the wire are written by whoever builds the transaction. No count makes the decoder hold
more than the input carries: every key, index, word, byte and level it returns has bytes of its own.

* `DecodedMessage.size`, `DecodedFill.size`: the bytes a message and a leg take at the least;
* `RouteSpelled.size_le`, `ArgsSpelled.size_le`: a leg in its route, and the legs in the data of a swap;
* `CompactMessage.size_le`, `V1Writable.size_le`: a message in its layout;
* **`decoded_size_le`**: what either entry point returns is no larger than its input.
-/

namespace SolanaRfq

open ByteFormat Borsh

/-! ## Sizes -/

/-- A tag, the four fields of a leg with 16 bytes a level, the weight and the index. -/
def DecodedFill.size (fill : DecodedFill) : ℕ := 25 + 16 * fill.levels.length

/-- The program index and two lists, each with a length in front of it. -/
def CompiledInstruction.size (ix : CompiledInstruction) : ℕ :=
  3 + ix.accountIndices.length + ix.data.length

/-- The table key and two lists, each with a length in front of it. -/
def AddressTableLookup.size (l : AddressTableLookup) : ℕ :=
  34 + l.writableIndexes.length + l.readonlyIndexes.length

/-- The words of a configuration. -/
def configSize (cfg : Option V1TransactionConfig) : ℕ := (cfg.map fun c => 4 * c.values.length).getD 0

/-- The header, the blockhash, two counts and the parts. -/
def ParsedMessage.size (m : ParsedMessage) : ℕ :=
  37 + 32 * m.staticAccountKeys.length + (m.instructions.map CompiledInstruction.size).sum +
    (m.addressTableLookups.map AddressTableLookup.size).sum + configSize m.transactionConfig

/-- The bytes of a decoded message. -/
def DecodedMessage.size (msg : DecodedMessage) : ℕ := msg.parsed.size

/-- The legs of every instruction fit in its data, behind the discriminator and the fields in front of
the routes. -/
def DecodedMessage.LegsStored (msg : DecodedMessage) : Prop :=
  ∀ ix ∈ msg.instructions, ix.fills ≠ [] → 38 + (ix.fills.map (·.size)).sum ≤ ix.data.length

theorem length_flatMap_of_forall {α : Type} {enc : α → List UInt8} {k : ℕ}
    (h : ∀ a, (enc a).length = k) (xs : List α) : (xs.flatMap enc).length = k * xs.length := by
  rw [List.flatMap_def, flatten_length_of_forall, List.length_map]
  intro w hw
  obtain ⟨a, -, rfl⟩ := List.mem_map.mp hw
  exact h a

/-! ## The arguments -/

theorem length_encodeVec_level (levels : List Level) :
    (encodeVec encodeLevel levels).length = 4 + 16 * levels.length := by
  have hlevel (l : Level) : (encodeLevel l).length = 16 := by simp [encodeLevel]
  rw [encodeVec, List.length_append, length_toLE, length_flatMap_of_forall hlevel]

theorem RouteSpelled.size_le {r : Route} {w : List UInt8} (h : RouteSpelled r w)
    {fill : DecodedFill} (hleg : r.leg = some fill) : fill.size ≤ w.length := by
  obtain ⟨u, hu, rfl⟩ := h
  obtain ⟨dex, weight, index⟩ := r
  cases dex with
  | other tag => exact absurd hleg (by simp [Route.leg])
  | solRfqV2 side rfqId expireAt levels =>
    obtain ⟨-, rfl⟩ := hu
    have hlevels : fill.levels = levels := by
      simp only [Route.leg] at hleg
      split_ifs at hleg <;> exact (Option.some.inj hleg) ▸ rfl
    simp only [DecodedFill.size, hlevels, encodeSolRfqV2, List.length_append, List.length_cons,
      length_encodeU64, length_encodeU16, length_encodeVec_level, encodeI64, length_toLE,
      List.length_nil]
    omega

theorem sum_legs_le {routes : List Route} {ws : List (List UInt8)}
    (h : List.Forall₂ RouteSpelled routes ws) :
    ((routes.filterMap Route.leg).map (·.size)).sum ≤ ws.flatten.length := by
  induction h with
  | nil => exact le_rfl
  | @cons r w routes ws hr _ ih =>
    rw [List.flatten_cons, List.length_append]
    cases hleg : r.leg with
    | none =>
      rw [List.filterMap_cons_none hleg]
      omega
    | some fill =>
      have := hr.size_le hleg
      rw [List.filterMap_cons_some hleg, List.map_cons, List.sum_cons]
      omega

/-- The data of a swap has room for its legs, behind 38 bytes of the discriminator, the fields and the
route count. -/
theorem ArgsSpelled.size_le {args : SwapArgs} {data : List UInt8} (h : ArgsSpelled args data)
    (hdisc : StartsWith Entrypoint.supported data) :
    38 + ((args.routes.filterMap Route.leg).map (·.size)).sum ≤ data.length := by
  obtain ⟨disc, hdisc, hprefix⟩ := hdisc
  have hdata := hprefix.length_le
  rw [length_supported disc hdisc] at hdata
  obtain ⟨_, tail, ⟨-, ws, hws, rfl⟩, hdrop⟩ := h
  have hlegs := sum_legs_le hws
  have hlen := congrArg List.length hdrop
  simp only [encodeSwapHead, List.length_drop, List.length_append, length_encodeU64,
    length_encodeU16, length_toLE] at hlen
  omega

theorem InstructionLegs.size_le {keys : List Pubkey} {ix : CompiledInstruction}
    {legs : List DecodedFill} (h : InstructionLegs keys ix legs) (hne : legs ≠ []) :
    38 + (legs.map (·.size)).sum ≤ ix.data.length := by
  cases h with
  | swap args _ hdisc hargs => exact hargs.size_le hdisc
  | other => exact absurd rfl hne

theorem legsStored_extractFills (m : ParsedMessage) :
    (extractFills (bareMessage m)).LegsStored := by
  intro ix hix hne
  obtain ⟨i, cix, -, rfl⟩ := mem_instructions_extractFills hix
  rw [extractInstruction_data]
  exact (instructionLegs_extractInstruction _ i cix).size_le hne

/-! ## The layouts -/

theorem one_le_length_compactU16 (v : ℕ) : 1 ≤ (compactU16 v).length := by
  rw [compactU16, pushCompactU16]
  split_ifs <;> simp

theorem sum_le_length_encodeCounted {α : Type} {enc : α → List UInt8} {size : α → ℕ}
    (h : ∀ a, size a ≤ (enc a).length) (xs : List α) :
    1 + (xs.map size).sum ≤ (encodeCounted enc xs).length := by
  have hcount := one_le_length_compactU16 xs.length
  have hitems : (xs.map size).sum ≤ (xs.map fun a => (enc a).length).sum :=
    List.sum_le_sum fun a _ => h a
  rw [encodeCounted, List.length_append, List.length_flatMap]
  omega

theorem length_le_encodeCompactBytes (bs : List UInt8) :
    1 + bs.length ≤ (encodeCompactBytes bs).length := by
  have := one_le_length_compactU16 bs.length
  rw [encodeCompactBytes, List.length_append]
  omega

theorem CompiledInstruction.size_le (ix : CompiledInstruction) :
    ix.size ≤ (encodeInstruction ix).length := by
  have haccounts := length_le_encodeCompactBytes ix.accountIndices
  have hdata := length_le_encodeCompactBytes ix.data
  rw [encodeInstruction, List.length_cons, List.length_append, CompiledInstruction.size]
  omega

theorem AddressTableLookup.size_le (l : AddressTableLookup) : l.size ≤ (encodeLookup l).length := by
  have hwritable := length_le_encodeCompactBytes l.writableIndexes
  have hreadonly := length_le_encodeCompactBytes l.readonlyIndexes
  rw [encodeLookup, List.length_append, List.length_append, l.tableKey.toList_length,
    AddressTableLookup.size]
  omega

theorem sum_lookups_le {m : ParsedMessage} (h : CompactBody m) :
    (m.addressTableLookups.map AddressTableLookup.size).sum ≤
      (encodeLookups m.version m.addressTableLookups).length := by
  by_cases hv : m.version = .v0
  · have := sum_le_length_encodeCounted AddressTableLookup.size_le m.addressTableLookups
    rw [encodeLookups, if_pos hv]
    omega
  · rw [h.no_lookups hv]
    exact Nat.zero_le _

theorem length_encodeKeys {n : ℕ} (keys : List (List.Vector UInt8 n)) :
    1 + n * keys.length ≤ (encodeCounted List.Vector.toList keys).length := by
  have hcount := one_le_length_compactU16 keys.length
  rw [encodeCounted, List.length_append, length_flatMap_of_forall List.Vector.toList_length]
  omega

theorem CompactMessage.size_le {m : ParsedMessage} (h : CompactMessage m) :
    m.size ≤ (encodeCompactMessage m).length := by
  have hkeys := length_encodeKeys m.staticAccountKeys
  have hixs := sum_le_length_encodeCounted CompiledInstruction.size_le m.instructions
  have hlookups := sum_lookups_le h.toCompactBody
  have hbody : m.size ≤ (encodeBody m).length := by
    simp only [ParsedMessage.size, configSize, h.config, encodeBody, encodeHeader,
      List.length_append, List.length_cons, List.length_nil, List.Vector.toList_length,
      Option.map_none, Option.getD_none]
    omega
  rw [encodeCompactMessage]
  split_ifs
  · rw [List.length_cons]
    omega
  · exact hbody

theorem length_encodeV1InstructionHeader (h : V1InstructionHeader) :
    (encodeV1InstructionHeader h).length = 4 := by
  rw [encodeV1InstructionHeader, List.length_cons, List.length_cons, length_toLE]

theorem sum_v1Instructions_le (ixs : List CompiledInstruction) :
    (ixs.map CompiledInstruction.size).sum ≤ 4 * ixs.length + (ixs.flatMap encodeV1Payload).length := by
  induction ixs with
  | nil => exact le_rfl
  | cons ix ixs ih =>
    simp only [List.map_cons, List.sum_cons, List.flatMap_cons, List.length_append,
      List.length_cons, encodeV1Payload, CompiledInstruction.size] at ih ⊢
    omega

theorem V1Writable.size_le {m : ParsedMessage} (h : V1Writable m) :
    m.size ≤ (encodeV1Message m).length := by
  have hwords : (configWords (v1Config m)).length = (v1Config m).values.length := by
    rw [configWords, List.length_zip, h.words, min_self]
  have hconfig : configSize m.transactionConfig = 4 * (v1Config m).values.length := by
    obtain ⟨cfg, hcfg⟩ := Option.isSome_iff_exists.mp h.config
    rw [configSize, v1Config, hcfg, Option.map_some, Option.getD_some, Option.getD_some]
  have hword (p : ℕ × UInt32) : (toLE 4 p.2.toNat).length = 4 := length_toLE _ _
  have hixs := sum_v1Instructions_le m.instructions
  simp only [ParsedMessage.size, hconfig, h.lookups, encodeV1Message, encodeV1Body, encodeHeader,
    encodeConfigWords, List.length_append, List.length_cons, List.length_nil, length_toLE,
    List.Vector.toList_length, length_flatMap_of_forall List.Vector.toList_length, List.map_nil,
    List.sum_nil, length_flatMap_of_forall hword, hwords, List.length_map,
    length_flatMap_of_forall length_encodeV1InstructionHeader]
  omega

/-! ## The entry points -/

theorem parseTransaction_size_le {b : List UInt8} {t : ParsedTransaction}
    (h : parseTransaction b = .ok t) :
    64 * t.signatures.length + t.message.size ≤ b.length := by
  cases b with
  | nil => exact absurd h (parseTransaction_nil t)
  | cons b rest =>
    by_cases hb : b = v1MessageVersionTag
    · rw [hb] at h ⊢
      obtain ⟨-, ht, henc⟩ := parseTransaction_v1_iff.mp h
      have hmessage := ht.writable.size_le
      rw [henc, encodeV1Transaction, List.length_append,
        length_flatMap_of_forall List.Vector.toList_length]
      omega
    · obtain ⟨⟨-, hm⟩, tail, htail⟩ := (parseTransaction_compact_iff hb).mp h
      have hmessage := hm.size_le
      have hsignatures := length_encodeKeys t.signatures
      rw [htail, encodeCompactTransaction, List.length_append, List.length_append]
      omega

theorem parseMessage_size_le {b : List UInt8} {m : ParsedMessage} (h : parseMessage b = .ok m) :
    m.size ≤ b.length := by
  obtain ⟨tail, rfl⟩ := (parseMessage_spelled h).2
  rw [List.length_append, encodeMessage]
  have hwire := wireMessage_of_parseMessage h
  split_ifs with hv
  · rcases hwire with hm | ⟨hm, -⟩
    · exact absurd hv hm.version_ne
    · exact hm.size_le.trans (Nat.le_add_right _ _)
  · rcases hwire with hm | ⟨hm, -⟩
    · exact hm.size_le.trans (Nat.le_add_right _ _)
    · exact absurd hm.version hv

/-- **What either entry point returns is no larger than its input**: the keys, the instructions, the
lookups, the words and the signatures have bytes of their own, and so have the legs in the data of
their instruction. -/
theorem decoded_size_le (b : List UInt8) :
    (∀ msg, decodeMessageBytes b = .ok msg → msg.size ≤ b.length ∧ msg.LegsStored) ∧
      ∀ tx, decodeTransactionBytes b = .ok tx →
        64 * tx.signatures.length + tx.message.size ≤ b.length ∧ tx.message.LegsStored := by
  constructor
  · intro msg h
    obtain ⟨m, hparse, -, rfl⟩ := decodeMessageBytes_eq_ok_iff.mp h
    rw [DecodedMessage.size, parsed_extractFills_bareMessage]
    exact ⟨parseMessage_size_le hparse, legsStored_extractFills m⟩
  · intro tx h
    obtain ⟨t, hparse, -, -, rfl⟩ := decodeTransactionBytes_eq_ok_iff.mp h
    rw [DecodedMessage.size, parsed_extractFills_bareMessage]
    exact ⟨parseTransaction_size_le hparse, legsStored_extractFills t.message⟩

theorem decoded_size_le_sample :
    64 * 1 + (extractFills (bareMessage sampleLegMessage)).size ≤
        (encodeCompactTransaction sampleLegTransaction).length ∧
      (extractFills (bareMessage sampleLegMessage)).LegsStored :=
  (decoded_size_le _).2 _ decodeTransactionBytes_sampleLeg

end SolanaRfq
