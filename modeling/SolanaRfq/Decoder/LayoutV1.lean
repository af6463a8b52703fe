import SolanaRfq.Decoder.Layout
import Mathlib.Data.List.Nodup

/-!
# The v1 layout

* `setBits`, `configWords`, `wordOf`: one word per set mask bit, in ascending bit order;
* **`value_eq_wordOf`**: the rank lookup of the accessors finds the word written for the bit;
* `encodeV1Body`: the layout of the signed part; `V1Writable`: what it can carry; `V1Checked`: what
  the parser checks of it;
* **`parses_parseV1Message`**: the parser reads exactly the checked layouts.
-/

namespace SolanaRfq

open ByteFormat

/-! ## Configuration words -/

/-- The set bits of a mask, in ascending order. -/
def setBits (mask : UInt32) : List ℕ := (List.range 32).filter fun i => mask.toNat.testBit i

/-- The words of a configuration with the mask bit each is written for. -/
def configWords (cfg : V1TransactionConfig) : List (ℕ × UInt32) := (setBits cfg.mask).zip cfg.values

/-- The word written for a mask bit. -/
def wordOf (cfg : V1TransactionConfig) (bit : ℕ) : Option UInt32 := (configWords cfg).lookup bit

theorem countOnes_eq_length (mask : UInt32) : countOnes mask = (setBits mask).length :=
  List.countP_eq_length_filter

theorem and_not_mask_eq_zero_iff (mask : UInt32) : mask &&& ~~~0x1f = 0 ↔ mask.toNat < 32 := by
  constructor
  · intro h
    have hsplit : (mask &&& ~~~0x1f) ||| (mask &&& 0x1f) = mask := by
      rw [← UInt32.toBitVec_inj, UInt32.toBitVec_or, UInt32.toBitVec_and, UInt32.toBitVec_and,
        ← BitVec.and_or_distrib_left]
      exact BitVec.and_allOnes
    rw [h, UInt32.zero_or] at hsplit
    rw [← hsplit, UInt32.toNat_and]
    exact Nat.lt_of_le_of_lt Nat.and_le_right (by decide)
  · intro h
    have hall : ∀ m : Fin 32, UInt32.ofNat m &&& ~~~0x1f = 0 := by decide
    simpa using hall ⟨mask.toNat, h⟩

/-- The rank of a set bit among the set bits, and the test of the accessors. -/
theorem rank_spec : ∀ (m : Fin 32) (bit : Fin 32),
    if bit.val ∈ setBits (UInt32.ofNat m) then
      UInt32.ofNat m &&& (1 <<< UInt32.ofNat bit) ≠ 0 ∧
        (setBits (UInt32.ofNat m))[countOnes (UInt32.ofNat m &&&
          ((1 <<< UInt32.ofNat bit) - 1))]? = some bit.val
    else UInt32.ofNat m &&& (1 <<< UInt32.ofNat bit) = 0 := by
  decide +kernel

theorem lookup_zip_of_getElem? {β : Type} {ks : List ℕ} {vs : List β} {i k : ℕ} (hnd : ks.Nodup)
    (hlen : ks.length = vs.length) (h : ks[i]? = some k) : (ks.zip vs).lookup k = vs[i]? := by
  induction ks generalizing vs i with
  | nil => simp at h
  | cons k' ks ih =>
    obtain ⟨v, vs, rfl⟩ := List.exists_cons_of_length_eq_add_one hlen.symm
    obtain ⟨hk', hnd⟩ := List.nodup_cons.mp hnd
    cases i with
    | zero =>
      obtain rfl : k' = k := by simpa using h
      simp
    | succ i =>
      have h' : ks[i]? = some k := by simpa using h
      have hne : k ≠ k' := by
        rintro rfl
        exact hk' (List.mem_of_getElem? h')
      rw [List.zip_cons_cons, List.lookup_cons, beq_false_of_ne hne, List.getElem?_cons_succ]
      exact ih hnd (by simpa using hlen) h'

/-- **The accessor of a mask bit returns the word written for that bit.** -/
theorem value_eq_wordOf {cfg : V1TransactionConfig} (hmask : cfg.mask.toNat < 32)
    (hlen : cfg.values.length = (setBits cfg.mask).length) {bit : ℕ} (hbit : bit < 32) :
    cfg.value (UInt32.ofNat bit) = wordOf cfg bit := by
  have h := rank_spec ⟨cfg.mask.toNat, hmask⟩ ⟨bit, hbit⟩
  simp only [UInt32.ofNat_toNat] at h
  unfold V1TransactionConfig.value wordOf configWords
  split_ifs at h with hmem
  · rw [if_neg h.1]
    exact (lookup_zip_of_getElem? (List.nodup_range.filter _) hlen.symm h.2).symm
  · rw [if_pos h, eq_comm, List.lookup_eq_none_iff]
    rintro ⟨k, v⟩ hk
    rw [bne_iff_ne]
    rintro rfl
    exact hmem (List.of_mem_zip hk).1

/-! ## The layout -/

/-- The fixed-width header of an instruction. -/
def encodeV1InstructionHeader (h : V1InstructionHeader) : List UInt8 :=
  h.program :: h.accounts :: toLE 2 h.dataLen.toNat

/-- The header written for an instruction. -/
def v1HeaderOf (ix : CompiledInstruction) : V1InstructionHeader :=
  ⟨ix.programIdIndex, UInt8.ofNat ix.accountIndices.length, UInt16.ofNat ix.data.length⟩

/-- The payload of an instruction: its account indices and its data. -/
def encodeV1Payload (ix : CompiledInstruction) : List UInt8 := ix.accountIndices ++ ix.data

/-- One `u32` per set mask bit, in ascending bit order. -/
def encodeConfigWords (cfg : V1TransactionConfig) : List UInt8 :=
  (configWords cfg).flatMap fun p => toLE 4 p.2.toNat

/-- The configuration of a v1 message. -/
def v1Config (m : ParsedMessage) : V1TransactionConfig := m.transactionConfig.getD ⟨0, []⟩

/-- The signed part of a v1 transaction, after the version byte. -/
def encodeV1Body (m : ParsedMessage) : List UInt8 :=
  encodeHeader m.header ++ (toLE 4 (v1Config m).mask.toNat ++ (m.recentBlockhash.toList ++
    (UInt8.ofNat m.instructions.length :: UInt8.ofNat m.staticAccountKeys.length ::
      (m.staticAccountKeys.flatMap List.Vector.toList ++ (encodeConfigWords (v1Config m) ++
        ((m.instructions.map v1HeaderOf).flatMap encodeV1InstructionHeader ++
          m.instructions.flatMap encodeV1Payload))))))

/-- The layout of a v1 message. -/
def encodeV1Message (m : ParsedMessage) : List UInt8 := v1MessageVersionTag :: encodeV1Body m

/-- The layout of a v1 transaction. -/
def encodeV1Transaction (t : ParsedTransaction) : List UInt8 :=
  encodeV1Message t.message ++ t.signatures.flatMap List.Vector.toList

/-- A value the v1 layout can carry: a configuration with one word per set bit, no lookups, and
counts that fit their fields. -/
structure V1Writable (m : ParsedMessage) : Prop where
  version : m.version = .v1
  lookups : m.addressTableLookups = []
  config : m.transactionConfig.isSome
  words : (v1Config m).values.length = (setBits (v1Config m).mask).length
  keys : m.staticAccountKeys.length ≤ 255
  instructions : m.instructions.length ≤ 255
  lengths : ∀ ix ∈ m.instructions, ix.accountIndices.length ≤ 255 ∧ ix.data.length ≤ 65535

/-- The checks of the v1 parser. -/
structure V1Checked (m : ParsedMessage) : Prop where
  mask : (v1Config m).mask.toNat ≤ 0x1f
  fee : (v1Config m).mask.toNat.testBit 0 = (v1Config m).mask.toNat.testBit 1
  heap : ∀ word, wordOf (v1Config m) 4 = some word →
    32768 ≤ word.toNat ∧ word.toNat ≤ 262144 ∧ word.toNat % 1024 = 0
  signatures : m.header.numRequiredSignatures ≤ 12
  readonlySigned : m.header.numReadonlySignedAccounts < m.header.numRequiredSignatures
  keyCount : m.header.numRequiredSignatures.toNat + m.header.numReadonlyUnsignedAccounts.toNat ≤
    m.staticAccountKeys.length
  keys_le : m.staticAccountKeys.length ≤ 64
  instructions_le : m.instructions.length ≤ 64
  distinct : m.staticAccountKeys.Nodup
  indices : ∀ ix ∈ m.instructions, ix.programIdIndex.toNat < m.staticAccountKeys.length ∧
    ∀ index ∈ ix.accountIndices, index.toNat < m.staticAccountKeys.length

/-! ## The parts -/

theorem format_readU32 : Format readU32 (fun _ => True) fun v => toLE 4 v.toNat := Format.u32

theorem format_readU16 : Format readU16 (fun _ => True) fun v => toLE 2 v.toNat := Format.u16

/-- The key loop returns `seen` with `n` new keys, all different. -/
theorem parses_readDistinctKeys (n : ℕ) (seen : List Pubkey) :
    Parses (readDistinctKeys n seen) fun ks w => ∃ new, ks = seen ++ new ∧ new.length = n ∧
      (∀ k ∈ new, k ∉ seen) ∧ new.Nodup ∧ w = new.flatMap List.Vector.toList := by
  induction n generalizing seen with
  | zero =>
    refine (Parses.pure seen).congr fun ks w => ?_
    constructor
    · rintro ⟨rfl, rfl⟩
      exact ⟨[], by simp⟩
    · rintro ⟨new, rfl, hlen, -, -, rfl⟩
      rw [List.length_eq_zero_iff.mp hlen]
      exact ⟨List.append_nil seen, rfl⟩
  | succ n ih =>
    refine ((Format.array 32).bind fun k _ => Parses.failIf fun _ =>
      ih (seen ++ [k])).congr fun ks w => ?_
    constructor
    · rintro ⟨k, -, _, ⟨hk, new, rfl, hlen, hnew, hnd, rfl⟩, rfl⟩
      have hk' : k ∉ new := fun h => hnew k h (by simp)
      refine ⟨k :: new, by simp, by simp [hlen], ?_, List.nodup_cons.mpr ⟨hk', hnd⟩, by simp⟩
      intro x hx
      rcases List.mem_cons.mp hx with rfl | hx
      · exact hk
      · exact fun h => hnew x hx (List.mem_append_left _ h)
    · rintro ⟨new, rfl, hlen, hnew, hnd, rfl⟩
      obtain ⟨k, new, rfl⟩ := List.exists_cons_of_length_eq_add_one hlen
      obtain ⟨hk, hnd⟩ := List.nodup_cons.mp hnd
      refine ⟨k, trivial, _, ⟨hnew k (by simp), new, by simp, by simpa using hlen, ?_, hnd, rfl⟩,
        by simp⟩
      intro x hx
      rw [List.mem_append, List.mem_singleton, not_or]
      exact ⟨hnew x (List.mem_cons_of_mem _ hx), fun h => hk (h ▸ hx)⟩

theorem format_readV1InstructionHeader : Format readV1InstructionHeader (fun _ => True)
    encodeV1InstructionHeader := by
  refine (Format.byte.bind fun p _ => Format.byte.bind fun a _ => format_readU16.bind fun d _ =>
    Parses.pure (V1InstructionHeader.mk p a d)).congr fun h w => ?_
  constructor
  · rintro ⟨p, -, _, ⟨a, -, _, ⟨d, -, _, ⟨rfl, rfl⟩, rfl⟩, rfl⟩, rfl⟩
    exact ⟨trivial, by simp [encodeV1InstructionHeader]⟩
  · rintro ⟨-, rfl⟩
    exact ⟨_, trivial, _, ⟨_, trivial, _, ⟨_, trivial, _, ⟨rfl, rfl⟩, rfl⟩, rfl⟩,
      by simp [encodeV1InstructionHeader]⟩

/-- The indices of an instruction are below `numKeys`. -/
def IndicesBelow (numKeys : ℕ) (ix : CompiledInstruction) : Prop :=
  ix.programIdIndex.toNat < numKeys ∧ ∀ index ∈ ix.accountIndices, index.toNat < numKeys

instance (numKeys : ℕ) (ix : CompiledInstruction) : Decidable (IndicesBelow numKeys ix) :=
  inferInstanceAs (Decidable (_ ∧ _))

/-- Both counts of an instruction fit their header fields. -/
def V1Lengths (ix : CompiledInstruction) : Prop :=
  ix.accountIndices.length ≤ 255 ∧ ix.data.length ≤ 65535

theorem format_readV1Payload (numKeys : ℕ) (h : V1InstructionHeader) :
    Format (readV1Payload numKeys h)
      (fun ix => h = v1HeaderOf ix ∧ V1Lengths ix ∧ IndicesBelow numKeys ix) encodeV1Payload := by
  obtain ⟨p, a, d⟩ := h
  refine ((Format.take a.toNat).bind fun is _ => Parses.failIf fun _ =>
    (Format.take d.toNat).bind fun data _ =>
      Parses.pure (CompiledInstruction.mk p is data)).congr fun ix w => ?_
  constructor
  · rintro ⟨is, his, _, ⟨hidx, data, hdata, _, ⟨rfl, rfl⟩, rfl⟩, rfl⟩
    have ha := a.toNat_lt
    have hd := d.toNat_lt
    push Not at hidx
    refine ⟨⟨?_, ⟨?_, ?_⟩, hidx⟩, by simp [encodeV1Payload]⟩
    · simp only [v1HeaderOf, his, hdata, UInt8.ofNat_toNat, UInt16.ofNat_toNat]
    · exact Nat.le_of_lt_succ (his ▸ ha)
    · exact Nat.le_of_lt_succ (hdata ▸ hd)
  · rintro ⟨⟨hh, ⟨ha, hd⟩, hidx⟩, rfl⟩
    obtain ⟨rfl, rfl, rfl⟩ := V1InstructionHeader.mk.inj hh
    have ha' : ix.accountIndices.length = (UInt8.ofNat ix.accountIndices.length).toNat := by
      rw [UInt8.toNat_ofNat']; omega
    have hd' : ix.data.length = (UInt16.ofNat ix.data.length).toNat := by
      rw [UInt16.toNat_ofNat']; omega
    refine ⟨_, ha', _, ⟨?_, _, hd', _, ⟨rfl, rfl⟩, rfl⟩, by simp [encodeV1Payload]⟩
    push Not
    exact hidx

theorem forall₂_headerOf_iff {P : CompiledInstruction → Prop} {hs : List V1InstructionHeader}
    {ixs : List CompiledInstruction} :
    List.Forall₂ (fun h ix => h = v1HeaderOf ix ∧ P ix) hs ixs ↔
      hs = ixs.map v1HeaderOf ∧ ∀ ix ∈ ixs, P ix := by
  have hflip : List.Forall₂ (fun h ix => h = v1HeaderOf ix ∧ P ix) hs ixs ↔
      List.Forall₂ (fun ix h => P ix ∧ h = v1HeaderOf ix) ixs hs :=
    ⟨fun h => (h.imp fun _ _ => And.symm).flip, fun h => (h.imp fun _ _ => And.symm).flip⟩
  rw [hflip, forall₂_enc_iff, and_comm]

theorem format_readV1Instructions (numIx numKeys : ℕ) : Format (readV1Instructions numIx numKeys)
    (fun ixs => ixs.length = numIx ∧ ∀ ix ∈ ixs, V1Lengths ix ∧ IndicesBelow numKeys ix)
    fun ixs => (ixs.map v1HeaderOf).flatMap encodeV1InstructionHeader ++
      ixs.flatMap encodeV1Payload := by
  refine ((format_readV1InstructionHeader.many numIx).bind fun hs _ =>
    Format.mapM (format_readV1Payload numKeys) hs).congr fun ixs w => ?_
  constructor
  · rintro ⟨hs, ⟨hlen, -⟩, _, ⟨hix, rfl⟩, rfl⟩
    obtain ⟨rfl, hok⟩ := forall₂_headerOf_iff.mp hix
    exact ⟨⟨by simpa using hlen, hok⟩, rfl⟩
  · rintro ⟨⟨hlen, hok⟩, rfl⟩
    exact ⟨ixs.map v1HeaderOf, ⟨by simpa using hlen, fun _ _ => trivial⟩, _,
      ⟨forall₂_headerOf_iff.mpr ⟨rfl, hok⟩, rfl⟩, rfl⟩

/-! ## The configuration section -/

theorem encodeConfigWords_eq {cfg : V1TransactionConfig}
    (hlen : cfg.values.length = (setBits cfg.mask).length) :
    encodeConfigWords cfg = cfg.values.flatMap fun v => toLE 4 v.toNat := by
  have hsnd : (configWords cfg).map Prod.snd = cfg.values := List.map_snd_zip hlen.le
  calc encodeConfigWords cfg = ((configWords cfg).map Prod.snd).flatMap fun v => toLE 4 v.toNat := by
        rw [encodeConfigWords, List.flatMap_map]
    _ = _ := by rw [hsnd]

theorem fee_bits_iff {mask : UInt32} (hmask : mask.toNat < 32) :
    ¬ (mask &&& 3 ≠ 0 ∧ mask &&& 3 ≠ 3) ↔ mask.toNat.testBit 0 = mask.toNat.testBit 1 := by
  have hall : ∀ m : Fin 32, ¬ (UInt32.ofNat m &&& 3 ≠ 0 ∧ UInt32.ofNat m &&& 3 ≠ 3) ↔
    (UInt32.ofNat m).toNat.testBit 0 = (UInt32.ofNat m).toNat.testBit 1 := by decide +kernel
  simpa using hall ⟨mask.toNat, hmask⟩

/-- The heap check passes on the default, and otherwise checks the word of bit 4. -/
theorem heap_check_iff {cfg : V1TransactionConfig} (hmask : cfg.mask.toNat < 32)
    (hlen : cfg.values.length = (setBits cfg.mask).length) :
    ¬ (¬ (32 * 1024 ≤ cfg.heapSize ∧ cfg.heapSize ≤ 256 * 1024) ∨ cfg.heapSize % 1024 ≠ 0) ↔
      ∀ word, wordOf cfg 4 = some word →
        32768 ≤ word.toNat ∧ word.toNat ≤ 262144 ∧ word.toNat % 1024 = 0 := by
  have hval : cfg.value 4 = wordOf cfg 4 := value_eq_wordOf hmask hlen (by norm_num : 4 < 32)
  unfold V1TransactionConfig.heapSize
  rw [hval]
  cases wordOf cfg 4 with
  | none => simp
  | some word =>
    simp only [Option.getD_some, Option.some.injEq, forall_eq', not_or, not_not, and_assoc]
    rw [UInt32.le_iff_toNat_le, UInt32.le_iff_toNat_le, ← UInt32.toNat_inj, UInt32.toNat_mod]
    exact Iff.rfl

theorem format_readV1Config {mask : UInt32} (hmask : mask.toNat < 32) :
    Format (readV1Config mask) (fun cfg => cfg.mask = mask ∧
      cfg.values.length = (setBits cfg.mask).length ∧
      cfg.mask.toNat.testBit 0 = cfg.mask.toNat.testBit 1 ∧
      ∀ word, wordOf cfg 4 = some word →
        32768 ≤ word.toNat ∧ word.toNat ≤ 262144 ∧ word.toNat % 1024 = 0) encodeConfigWords := by
  refine (Parses.failIf fun _ => (format_readU32.many (countOnes mask)).bind fun values _ =>
    Parses.failIf fun _ => Parses.pure (V1TransactionConfig.mk mask values)).congr fun cfg w => ?_
  rw [fee_bits_iff hmask, countOnes_eq_length]
  constructor
  · rintro ⟨hfee, values, ⟨hlen, -⟩, _, ⟨hheap, rfl, rfl⟩, rfl⟩
    exact ⟨⟨rfl, hlen, hfee, (heap_check_iff hmask hlen).mp hheap⟩,
      by rw [encodeConfigWords_eq hlen, List.append_nil]⟩
  · rintro ⟨⟨rfl, hlen, hfee, hheap⟩, rfl⟩
    exact ⟨hfee, cfg.values, ⟨hlen, fun _ _ => trivial⟩, [],
      ⟨(heap_check_iff hmask hlen).mpr hheap, rfl, rfl⟩,
      by rw [encodeConfigWords_eq hlen, List.append_nil]⟩

/-! ## Messages -/

theorem header_check_iff (h : MessageHeader) (numIx numKeys : UInt8) :
    ¬ (h.numRequiredSignatures > 12 ∨ h.numReadonlySignedAccounts ≥ h.numRequiredSignatures ∨
      numKeys.toNat < h.numRequiredSignatures.toNat + h.numReadonlyUnsignedAccounts.toNat ∨
      numKeys > 64 ∨ numIx > 64) ↔
    h.numRequiredSignatures ≤ 12 ∧ h.numReadonlySignedAccounts < h.numRequiredSignatures ∧
      h.numRequiredSignatures.toNat + h.numReadonlyUnsignedAccounts.toNat ≤ numKeys.toNat ∧
      numKeys.toNat ≤ 64 ∧ numIx.toNat ≤ 64 := by
  simp only [not_or, gt_iff_lt, ge_iff_le, UInt8.not_lt, UInt8.not_le, not_lt]
  exact Iff.rfl

/-- **The v1 parser reads one byte and then exactly the checked layouts.** -/
theorem parses_parseV1Message : Parses parseV1Message fun m w =>
    V1Writable m ∧ V1Checked m ∧ ∃ x, w = x :: encodeV1Body m := by
  refine ((Format.take 1).bind fun _ _ => format_readHeader.bind fun h _ =>
    format_readU32.bind fun mask _ => Parses.failIf fun hm =>
    (Format.array 32).bind fun bh _ => Format.byte.bind fun numIx _ =>
    Format.byte.bind fun numKeys _ => Parses.failIf fun _ =>
    (parses_readDistinctKeys numKeys.toNat []).bind fun ks _ _ =>
    (format_readV1Config ((and_not_mask_eq_zero_iff mask).mp (not_not.mp hm))).bind fun cfg _ =>
    (format_readV1Instructions numIx.toNat numKeys.toNat).bind fun ixs _ =>
      Parses.pure (ParsedMessage.mk .v1 h ks bh ixs [] (some cfg))).congr fun m w => ?_
  constructor
  · rintro ⟨x, hx, _, ⟨h, -, _, ⟨mask, -, _, ⟨hm, bh, -, _, ⟨numIx, -, _, ⟨numKeys, -, _,
      ⟨hhdr, ks, _, _, ⟨new, hnew, hklen, -, hnd, rfl⟩, ⟨cfg, ⟨rfl, hwords, hfee, hheap⟩, _,
        ⟨ixs, ⟨hilen, hixs⟩, _, ⟨rfl, rfl⟩, rfl⟩, rfl⟩, rfl⟩, rfl⟩, rfl⟩, rfl⟩, rfl⟩, rfl⟩, rfl⟩
    obtain rfl : ks = new := by simpa using hnew
    obtain ⟨b, rfl⟩ := List.length_eq_one_iff.mp hx
    obtain ⟨h₁, h₂, h₃, h₄, h₅⟩ := (header_check_iff h numIx numKeys).mp hhdr
    have hmask := (and_not_mask_eq_zero_iff cfg.mask).mp (not_not.mp hm)
    have hIx : UInt8.ofNat ixs.length = numIx := by rw [hilen, UInt8.ofNat_toNat]
    have hKeys : UInt8.ofNat ks.length = numKeys := by rw [hklen, UInt8.ofNat_toNat]
    refine ⟨⟨rfl, rfl, rfl, hwords, ?_, ?_, fun ix hix => (hixs ix hix).1⟩,
      ⟨Nat.le_of_lt_succ hmask, hfee, hheap, h₁, h₂, ?_, ?_, ?_, hnd, fun ix hix => ?_⟩, b, ?_⟩
    · exact hklen ▸ h₄.trans (by norm_num)
    · exact hilen ▸ h₅.trans (by norm_num)
    · exact hklen ▸ h₃
    · exact hklen ▸ h₄
    · exact hilen ▸ h₅
    · exact hklen ▸ (hixs ix hix).2
    · simp [encodeV1Body, v1Config, hIx, hKeys]
  · rintro ⟨hw, hc, x, rfl⟩
    obtain ⟨v, h, ks, bh, ixs, ls, cfg⟩ := m
    obtain ⟨cfg, rfl⟩ : ∃ c, cfg = some c := Option.isSome_iff_exists.mp hw.config
    obtain rfl : v = .v1 := hw.version
    obtain rfl : ls = [] := hw.lookups
    have hIx : ixs.length = (UInt8.ofNat ixs.length).toNat := by
      have : ixs.length ≤ 255 := hw.instructions
      rw [UInt8.toNat_ofNat']; omega
    have hKeys : ks.length = (UInt8.ofNat ks.length).toNat := by
      have : ks.length ≤ 255 := hw.keys
      rw [UInt8.toNat_ofNat']; omega
    have hm : cfg.mask &&& ~~~0x1f = 0 :=
      (and_not_mask_eq_zero_iff cfg.mask).mpr (Nat.lt_succ_of_le hc.mask)
    have hhdr := (header_check_iff h (UInt8.ofNat ixs.length) (UInt8.ofNat ks.length)).mpr
      ⟨hc.signatures, hc.readonlySigned, hKeys ▸ hc.keyCount, hKeys ▸ hc.keys_le,
        hIx ▸ hc.instructions_le⟩
    refine ⟨[x], rfl, _, ⟨h, trivial, _, ⟨cfg.mask, trivial, _, ⟨not_not.mpr hm, bh, trivial, _,
      ⟨_, trivial, _, ⟨_, trivial, _, ⟨hhdr, ks, _, _, ⟨ks, rfl, hKeys, by simp, hc.distinct, rfl⟩,
        ⟨cfg, ⟨rfl, hw.words, hc.fee, hc.heap⟩, _, ⟨ixs, ⟨hIx, fun ix hix => ⟨hw.lengths ix hix, ?_⟩⟩,
          _, ⟨rfl, rfl⟩, rfl⟩, rfl⟩, rfl⟩, rfl⟩, rfl⟩, rfl⟩, rfl⟩, rfl⟩, ?_⟩
    · exact hKeys ▸ hc.indices ix hix
    · simp [encodeV1Body, v1Config]

end SolanaRfq
