import SolanaRfq.Decoder.Invariant
import SolanaRfq.Decoder.Exclusivity

/-!
# What the maker check proves

The check works on indices whose keys are partly unknown. A `Resolution` fixes the loaded keys; the
runtime rejects a loaded key that is also static, so the loaded keys of a resolution avoid the
static ones.

* `MakerCheck`: the conditions of the check; **`validateMakerAccounts_eq_ok_iff`**: it passes
  exactly under them;
* `Resolution`, `Resolution.resolveAll`: the resolved instructions of a message;
* `MakerSound`: the maker accounts appear once, in the slots of the reported leg;
* **`MakerCheck.sound`**: the check gives `MakerSound` under every resolution.
-/

namespace SolanaRfq

open ByteFormat Fallible

/-! ## Lists -/

section Lists

variable {α β : Type}

/-- Where a concatenation is one item, the part that has it is that item and the others are
empty. -/
theorem flatMap_eq_singleton_at {g : α → List β} {b : β} {xs : List α} {i : ℕ} {x : α}
    (h : xs.flatMap g = [b]) (hx : xs[i]? = some x) (hne : g x ≠ []) :
    g x = [b] ∧ ∀ j y, j ≠ i → xs[j]? = some y → g y = [] := by
  induction xs generalizing i with
  | nil => simp at hx
  | cons a xs ih =>
    rw [List.flatMap_cons] at h
    cases i with
    | zero =>
      obtain rfl : a = x := by simpa using hx
      rcases List.append_eq_singleton_iff.mp h with ⟨ha, -⟩ | ⟨ha, hxs⟩
      · exact absurd ha hne
      · refine ⟨ha, fun j y hj hy => ?_⟩
        obtain ⟨j, rfl⟩ := Nat.exists_eq_succ_of_ne_zero hj
        rw [List.getElem?_cons_succ] at hy
        exact List.flatMap_eq_nil_iff.mp hxs y (List.mem_of_getElem? hy)
    | succ i =>
      rw [List.getElem?_cons_succ] at hx
      rcases List.append_eq_singleton_iff.mp h with ⟨ha, hxs⟩ | ⟨-, hxs⟩
      · obtain ⟨hgx, hothers⟩ := ih hxs hx
        refine ⟨hgx, fun j y hj hy => ?_⟩
        cases j with
        | zero =>
          obtain rfl : a = y := by simpa using hy
          exact ha
        | succ j => exact hothers j y (fun hji => hj (congrArg Nat.succ hji)) (by simpa using hy)
      · exact absurd (List.flatMap_eq_nil_iff.mp hxs x (List.mem_of_getElem? hx)) hne

theorem not_mem_of_count_flatMap [DecidableEq β] {g : α → List β} {b : β} {xs : List α} {i : ℕ}
    {x : α} (h : (xs.flatMap g).count b = 1) (hx : xs[i]? = some x) (hb : b ∈ g x) (j : ℕ) (y : α)
    (hj : j ≠ i) (hy : xs[j]? = some y) : b ∉ g y := by
  have hfilter : (xs.flatMap fun x => (g x).filter (· = b)) = [b] := by
    rw [← List.filter_flatMap, List.filter_eq, h, List.replicate_one]
  have hne : (g x).filter (· = b) ≠ [] :=
    List.ne_nil_of_mem (List.mem_filter.mpr ⟨hb, by simp⟩)
  obtain ⟨-, hothers⟩ := flatMap_eq_singleton_at hfilter hx hne
  intro hmem
  have hmem' : b ∈ (g y).filter (· = b) := List.mem_filter.mpr ⟨hmem, by simp⟩
  rw [hothers j y hj hy] at hmem'
  exact List.not_mem_nil hmem'

theorem count_map_of_iff [DecidableEq α] [DecidableEq β] {f : α → β} {a : α} {b : β} {xs : List α}
    (h : ∀ x ∈ xs, f x = b ↔ x = a) : (xs.map f).count b = xs.count a := by
  rw [List.count, List.countP_map, List.count]
  refine List.countP_congr fun x hx => ?_
  simpa using h x hx

theorem mapM_eq_some_map {f : α → Option β} {g : α → β} {xs : List α}
    (h : ∀ x ∈ xs, f x = some (g x)) : xs.mapM f = some (xs.map g) := by
  induction xs with
  | nil => rfl
  | cons x xs ih =>
    obtain ⟨hx, hxs⟩ := List.forall_mem_cons.mp h
    rw [List.mapM_cons, hx, ih hxs]
    rfl

end Lists

/-! ## The conditions of the check -/

theorem rejectIf_eq_ok_iff {p : Prop} [Decidable p] {e : MakerValidationError} {u : Unit} :
    rejectIf p e = .ok u ↔ ¬ p := by
  unfold rejectIf
  split_ifs with h <;> simp [h]

theorem onlyMatch_eq_ok_iff {α : Type} {e₁ e₂ : MakerValidationError} {a : α} :
    ∀ {as : List α}, onlyMatch e₁ e₂ as = .ok a ↔ as = [a]
  | [] => by simp [onlyMatch]
  | [b] => by simp [onlyMatch]
  | b :: c :: as => by simp [onlyMatch]

theorem singleFill_eq_ok_iff {msg : DecodedMessage} {f : DecodedFill} :
    msg.singleFill = .ok f ↔ msg.hasUnsupportedEntrypoint = false ∧ msg.fills = [f] := by
  unfold DecodedMessage.singleFill
  cases msg.hasUnsupportedEntrypoint with
  | true => simp
  | false =>
    rcases msg.fills with _ | ⟨g, _ | ⟨g', fills⟩⟩ <;> simp

theorem findFillInstruction_eq_ok_iff {msg : DecodedMessage} {ix : DecodedInstruction} :
    findFillInstruction msg = .ok ix ↔
      msg.instructions.find? (fun ix => !ix.fills.isEmpty) = some ix := by
  unfold findFillInstruction
  cases msg.instructions.find? fun ix => !ix.fills.isEmpty <;> simp

/-- The indices expected in the slots of the leg. -/
def MakerValidationReport.expectedSlots (report : MakerValidationReport) : List (ℕ × UInt8) :=
  [(legProgramId, report.rfqProgramIndex), (legFillAuthority, report.fillAuthorityIndex),
    (legMakerBaseTokenAccount, report.makerBaseTokenAccountIndex),
    (legMakerQuoteTokenAccount, report.makerQuoteTokenAccountIndex)]

/-- The conditions of the check. -/
structure MakerCheck (msg : DecodedMessage) (maker : MakerAccounts)
    (report : MakerValidationReport) : Prop where
  distinct : maker.fillAuthority ≠ maker.makerBaseTokenAccount ∧
    maker.fillAuthority ≠ maker.makerQuoteTokenAccount ∧
    maker.makerBaseTokenAccount ≠ maker.makerQuoteTokenAccount
  fillAuthority : staticMatches msg maker.fillAuthority = [report.fillAuthorityIndex]
  makerBase : staticMatches msg maker.makerBaseTokenAccount = [report.makerBaseTokenAccountIndex]
  makerQuote :
    staticMatches msg maker.makerQuoteTokenAccount = [report.makerQuoteTokenAccountIndex]
  rfqProgram : staticMatches msg rfqV2ProgramIdBytes = [report.rfqProgramIndex]
  signer : report.fillAuthorityIndex < msg.header.numRequiredSignatures
  baseWritable : staticKeyIsWritable msg report.makerBaseTokenAccountIndex = true
  quoteWritable : staticKeyIsWritable msg report.makerQuoteTokenAccountIndex = true
  single : ∃ f, msg.singleFill = .ok f
  fillAuthorityCount : msg.references.count report.fillAuthorityIndex = 1
  makerBaseCount : msg.references.count report.makerBaseTokenAccountIndex = 1
  makerQuoteCount : msg.references.count report.makerQuoteTokenAccountIndex = 1
  rfqProgramCount : msg.references.count report.rfqProgramIndex = 1
  leg : ∃ ix, msg.instructions.find? (fun ix => !ix.fills.isEmpty) = some ix ∧
    ix.instructionIndex = report.instructionIndex ∧
    legMatches ix.accountIndices report.expectedSlots = [report.legOffset]

/-- **The check passes exactly under its conditions.** -/
theorem validateMakerAccounts_eq_ok_iff {msg : DecodedMessage} {maker : MakerAccounts}
    {report : MakerValidationReport} :
    validateMakerAccounts msg maker = .ok report ↔ MakerCheck msg maker report := by
  unfold validateMakerAccounts uniqueStaticIndex uniqueRfqProgramIndex
  simp only [except_bind_eq_ok, rejectIf_eq_ok_iff, onlyMatch_eq_ok_iff,
    findFillInstruction_eq_ok_iff, mapError_eq_ok_iff, not_or, not_not, ge_iff_le, UInt8.not_le,
    Bool.not_eq_false]
  constructor
  · rintro ⟨_, hd, i₀, h₀, i₁, h₁, i₂, h₂, _, hs, _, hw₁, _, hw₂, i₃, h₃, f, hf, ix, hix, _, c₀,
      _, c₁, _, c₂, _, c₃, o, ho, hreport⟩
    obtain rfl := Except.ok.inj hreport
    exact ⟨hd, h₀, h₁, h₂, h₃, hs, hw₁, hw₂, ⟨f, hf⟩, c₀, c₁, c₂, c₃, ix, hix, rfl, ho⟩
  · rintro ⟨hd, h₀, h₁, h₂, h₃, hs, hw₁, hw₂, ⟨f, hf⟩, c₀, c₁, c₂, c₃, ix, hix, hi, ho⟩
    refine ⟨(), hd, _, h₀, _, h₁, _, h₂, (), hs, (), hw₁, (), hw₂, _, h₃, f, hf, ix, hix, (), c₀,
      (), c₁, (), c₂, (), c₃, _, ho, ?_⟩
    rw [hi]
    rfl

/-! ## Resolutions -/

/-- The keys loaded from lookup tables; none of them is a static key. -/
structure Resolution (msg : DecodedMessage) where
  loaded : List Pubkey
  length_loaded : loaded.length = msg.loadedWritableCount + msg.loadedReadonlyCount
  disjoint : ∀ key ∈ loaded, key ∉ msg.staticAccountKeys

/-- An instruction with its program and accounts as keys. -/
structure ResolvedInstruction where
  programId : Pubkey
  accounts : List Pubkey
deriving DecidableEq

/-- Every key an instruction refers to. -/
def ResolvedInstruction.references (ix : ResolvedInstruction) : List Pubkey :=
  ix.programId :: ix.accounts

namespace Resolution

variable {msg : DecodedMessage} (r : Resolution msg)

/-- The key of an index: static keys first, then loaded keys. -/
def resolve (index : UInt8) : Option Pubkey := (msg.staticAccountKeys ++ r.loaded)[index.toNat]?

/-- Resolve the program and the accounts of an instruction. -/
def resolveInstruction (ix : DecodedInstruction) : Option ResolvedInstruction := do
  let programId ← r.resolve ix.programIdIndex
  let accounts ← ix.accountIndices.mapM r.resolve
  return { programId, accounts }

/-- Resolve every instruction of the message. -/
def resolveAll : Option (List ResolvedInstruction) := msg.instructions.mapM r.resolveInstruction

/-- The key of an index in range. -/
def keyAt (index : UInt8) : Pubkey := (r.resolve index).getD (List.Vector.replicate 32 0)

/-- The resolved form of an instruction whose indices are in range. -/
def resolved (ix : DecodedInstruction) : ResolvedInstruction :=
  ⟨r.keyAt ix.programIdIndex, ix.accountIndices.map r.keyAt⟩

theorem resolve_eq_keyAt {index : UInt8} (h : index.toNat < msg.totalAccountCount) :
    r.resolve index = some (r.keyAt index) := by
  have hlt : index.toNat < (msg.staticAccountKeys ++ r.loaded).length := by
    rw [List.length_append, r.length_loaded, ← Nat.add_assoc]
    exact h
  unfold keyAt resolve
  rw [List.getElem?_eq_getElem hlt]
  rfl

theorem resolveInstruction_eq {ix : DecodedInstruction}
    (hp : ix.programIdIndex.toNat < msg.totalAccountCount)
    (ha : ∀ index ∈ ix.accountIndices, index.toNat < msg.totalAccountCount) :
    r.resolveInstruction ix = some (r.resolved ix) := by
  unfold resolveInstruction
  rw [r.resolve_eq_keyAt hp,
    mapM_eq_some_map fun index hindex => r.resolve_eq_keyAt (ha index hindex)]
  rfl

theorem resolveAll_eq (hmsg : msg.WellFormed) :
    r.resolveAll = some (msg.instructions.map r.resolved) :=
  mapM_eq_some_map fun ix hix =>
    r.resolveInstruction_eq (hmsg.indices ix hix).1 (hmsg.indices ix hix).2

theorem flatMap_references_resolved :
    (msg.instructions.map r.resolved).flatMap ResolvedInstruction.references =
      msg.references.map r.keyAt := by
  rw [List.flatMap_map, DecodedMessage.references, List.map_flatMap]
  rfl

end Resolution

/-! ## Static keys -/

theorem staticMatches_spec {msg : DecodedMessage} {key : Pubkey} {i : UInt8}
    (hlen : msg.staticAccountKeys.length ≤ 256) (h : staticMatches msg key = [i]) :
    msg.staticAccountKeys[i.toNat]? = some key ∧
      ∀ j : ℕ, msg.staticAccountKeys[j]? = some key → j = i.toNat := by
  have hmem (k : UInt8) : k ∈ staticMatches msg key ↔
      ∃ j : ℕ, msg.staticAccountKeys[j]? = some key ∧ UInt8.ofNat j = k := by
    simp only [staticMatches, List.mem_map, List.mem_filter, decide_eq_true_eq, Prod.exists,
      List.mem_zipIdx_iff_getElem?]
    constructor
    · rintro ⟨_, j, ⟨hj, rfl⟩, rfl⟩
      exact ⟨j, hj, rfl⟩
    · rintro ⟨j, hj, rfl⟩
      exact ⟨key, j, ⟨hj, rfl⟩, rfl⟩
  have hcast (j : ℕ) (hj : msg.staticAccountKeys[j]? = some key) : (UInt8.ofNat j).toNat = j := by
    obtain ⟨hlt, -⟩ := List.getElem?_eq_some_iff.mp hj
    rw [UInt8.toNat_ofNat']
    omega
  obtain ⟨j, hj, hji⟩ := (hmem i).mp (h ▸ List.mem_singleton_self i)
  refine ⟨?_, fun k hk => ?_⟩
  · rw [← hji, hcast j hj]
    exact hj
  · have hki : UInt8.ofNat k = i := by
      have := (hmem _).mpr ⟨k, hk, rfl⟩
      rw [h] at this
      exact List.mem_singleton.mp this
    rw [← hki, hcast k hk]

theorem length_static_le {msg : DecodedMessage} (hmsg : msg.WellFormed) :
    msg.staticAccountKeys.length ≤ 256 := by
  have := hmsg.total
  unfold DecodedMessage.totalAccountCount maxAccountKeys at this
  omega

/-- Under a resolution an index has the key of a unique static index only if it is that index. -/
theorem Resolution.resolve_eq_iff {msg : DecodedMessage} (r : Resolution msg) {key : Pubkey}
    {i : UInt8} (hmsg : msg.WellFormed) (h : staticMatches msg key = [i]) (index : UInt8) :
    r.resolve index = some key ↔ index = i := by
  obtain ⟨hi, huniq⟩ := staticMatches_spec (length_static_le hmsg) h
  have hkey : key ∈ msg.staticAccountKeys := List.mem_of_getElem? hi
  obtain ⟨hlt, -⟩ := List.getElem?_eq_some_iff.mp hi
  unfold Resolution.resolve
  constructor
  · intro hindex
    by_cases hs : index.toNat < msg.staticAccountKeys.length
    · rw [List.getElem?_append_left hs] at hindex
      exact UInt8.toNat_inj.mp (huniq _ hindex)
    · rw [List.getElem?_append_right (not_lt.mp hs)] at hindex
      exact absurd hkey (r.disjoint key (List.mem_of_getElem? hindex))
  · rintro rfl
    rw [List.getElem?_append_left hlt]
    exact hi

theorem Resolution.accounts_resolved {msg : DecodedMessage} (r : Resolution msg)
    (hmsg : msg.WellFormed) {ix : DecodedInstruction} (hix : ix ∈ msg.instructions) {slot : ℕ}
    {index : UInt8} {key : Pubkey} (hslot : ix.accountIndices[slot]? = some index)
    (hkey : staticMatches msg key = [index]) : (r.resolved ix).accounts[slot]? = some key := by
  have hlt := (hmsg.indices ix hix).2 index (List.mem_of_getElem? hslot)
  have hres := (r.resolve_eq_iff hmsg hkey index).mpr rfl
  rw [r.resolve_eq_keyAt hlt] at hres
  rw [Resolution.resolved, List.getElem?_map, hslot, Option.map_some, hres]

theorem Resolution.programId_resolved {msg : DecodedMessage} (r : Resolution msg)
    (hmsg : msg.WellFormed) {ix : DecodedInstruction} (hix : ix ∈ msg.instructions)
    {programId : Pubkey} (hprogram : msg.staticAccountKeys[ix.programIdIndex.toNat]? = some programId) :
    (r.resolved ix).programId = programId := by
  obtain ⟨hlt, -⟩ := List.getElem?_eq_some_iff.mp hprogram
  have hres := r.resolve_eq_keyAt (hmsg.indices ix hix).1
  rw [Resolution.resolve, List.getElem?_append_left hlt, hprogram] at hres
  exact (Option.some.inj hres).symm

theorem Resolution.count_eq {msg : DecodedMessage} (r : Resolution msg) {key : Pubkey} {i : UInt8}
    (hmsg : msg.WellFormed) (h : staticMatches msg key = [i]) :
    ((msg.instructions.map r.resolved).flatMap ResolvedInstruction.references).count key =
      msg.references.count i := by
  rw [r.flatMap_references_resolved]
  refine count_map_of_iff fun index hindex => ?_
  obtain ⟨ix, hix, hmem⟩ := List.mem_flatMap.mp hindex
  have hlt : index.toNat < msg.totalAccountCount := by
    rcases List.mem_cons.mp hmem with rfl | hmem
    · exact (hmsg.indices ix hix).1
    · exact (hmsg.indices ix hix).2 index hmem
  rw [← r.resolve_eq_iff hmsg h index, r.resolve_eq_keyAt hlt, Option.some.injEq]

/-! ## Soundness -/

/-- The maker accounts and the RFQ program appear once each, in the slots of the reported leg, and
that leg is the only fill. -/
structure MakerSound (msg : DecodedMessage) (maker : MakerAccounts)
    (report : MakerValidationReport) (ixs : List ResolvedInstruction) : Prop where
  once : ∀ key ∈ rfqV2ProgramIdBytes :: maker.pubkeys,
    (ixs.flatMap ResolvedInstruction.references).count key = 1
  leg : ∃ ix, ixs[report.instructionIndex]? = some ix ∧
    report.legOffset + 13 ≤ ix.accounts.length ∧
    ix.accounts[report.legOffset]? = some rfqV2ProgramIdBytes ∧
    ix.accounts[report.legOffset + 4]? = some maker.fillAuthority ∧
    ix.accounts[report.legOffset + 5]? = some maker.makerBaseTokenAccount ∧
    ix.accounts[report.legOffset + 6]? = some maker.makerQuoteTokenAccount ∧
    isDexSolanaV3Program ix.programId
  fill : ∃ f ix, msg.instructions[report.instructionIndex]? = some ix ∧ ix.fills = [f] ∧
    msg.fills = [f]
  noOtherFill : ∀ (j : ℕ) (ix : DecodedInstruction), j ≠ report.instructionIndex →
    msg.instructions[j]? = some ix → ix.fills = []
  supported : ∀ ix ∈ msg.instructions, ix.entrypoint ≠ some .unsupported
  signer : report.fillAuthorityIndex.toNat < msg.header.numRequiredSignatures.toNat ∧
    msg.staticAccountKeys[report.fillAuthorityIndex.toNat]? = some maker.fillAuthority
  baseWritable : staticKeyIsWritable msg report.makerBaseTokenAccountIndex = true ∧
    msg.staticAccountKeys[report.makerBaseTokenAccountIndex.toNat]? = some maker.makerBaseTokenAccount
  quoteWritable : staticKeyIsWritable msg report.makerQuoteTokenAccountIndex = true ∧
    msg.staticAccountKeys[report.makerQuoteTokenAccountIndex.toNat]? =
      some maker.makerQuoteTokenAccount

theorem mem_legMatches_iff {accountIndices : List UInt8} {slots : List (ℕ × UInt8)} {o : ℕ} :
    o ∈ legMatches accountIndices slots ↔ o + solRfqV2LegWidth ≤ accountIndices.length ∧
      ∀ p ∈ slots, accountIndices[o + p.1]? = some p.2 := by
  simp only [legMatches, List.mem_filter, List.mem_range, decide_eq_true_eq, ge_iff_le,
    and_iff_right_iff_imp]
  omega

theorem hasUnsupportedEntrypoint_eq_false_iff {msg : DecodedMessage} :
    msg.hasUnsupportedEntrypoint = false ↔
      ∀ ix ∈ msg.instructions, ix.entrypoint ≠ some .unsupported := by
  simp [DecodedMessage.hasUnsupportedEntrypoint, List.any_eq_false]

theorem MakerCheck.once {msg : DecodedMessage} {maker : MakerAccounts}
    {report : MakerValidationReport} (h : MakerCheck msg maker report) (hmsg : msg.WellFormed)
    (r : Resolution msg) : ∀ key ∈ rfqV2ProgramIdBytes :: maker.pubkeys,
      ((msg.instructions.map r.resolved).flatMap ResolvedInstruction.references).count key = 1 := by
  intro key hkey
  simp only [MakerAccounts.pubkeys, List.mem_cons, List.not_mem_nil, or_false] at hkey
  rcases hkey with rfl | rfl | rfl | rfl
  · rw [r.count_eq hmsg h.rfqProgram, h.rfqProgramCount]
  · rw [r.count_eq hmsg h.fillAuthority, h.fillAuthorityCount]
  · rw [r.count_eq hmsg h.makerBase, h.makerBaseCount]
  · rw [r.count_eq hmsg h.makerQuote, h.makerQuoteCount]

/-- **The check is sound under every resolution of the loaded keys.** -/
theorem MakerCheck.sound {msg : DecodedMessage} {maker : MakerAccounts}
    {report : MakerValidationReport} (h : MakerCheck msg maker report) (hmsg : msg.WellFormed)
    (r : Resolution msg) : MakerSound msg maker report (msg.instructions.map r.resolved) := by
  obtain ⟨f, hf⟩ := h.single
  obtain ⟨hsupported, hfills⟩ := singleFill_eq_ok_iff.mp hf
  obtain ⟨ix, hfind, hindex, hleg⟩ := h.leg
  have hix : ix ∈ msg.instructions := List.mem_of_find?_eq_some hfind
  have hne : ix.fills ≠ [] := by simpa using List.find?_some hfind
  obtain ⟨i, hi⟩ := List.mem_iff_getElem?.mp hix
  have hreport : report.instructionIndex = i := hindex ▸ hmsg.numbered i ix hi
  obtain ⟨hone, hothers⟩ := flatMap_eq_singleton_at hfills hi hne
  obtain ⟨-, programId, hprogram, hdex⟩ := hmsg.fills ix hix hne
  obtain ⟨hwidth, hslots⟩ := mem_legMatches_iff.mp (hleg ▸ List.mem_singleton_self _)
  have hslot (slot : ℕ) (index : UInt8) (key : Pubkey)
      (hmem : (slot, index) ∈ report.expectedSlots) (hkey : staticMatches msg key = [index]) :
      (r.resolved ix).accounts[report.legOffset + slot]? = some key :=
    r.accounts_resolved hmsg hix (hslots _ hmem) hkey
  refine ⟨h.once hmsg r, ⟨r.resolved ix, ?_, ?_, ?_, ?_, ?_, ?_, ?_⟩, ?_, ?_, ?_, ?_, ?_, ?_⟩
  · rw [hreport, List.getElem?_map, hi, Option.map_some]
  · rw [Resolution.resolved, List.length_map]
    exact hwidth
  · exact hslot 0 _ _ (by simp [MakerValidationReport.expectedSlots, legProgramId]) h.rfqProgram
  · exact hslot 4 _ _ (by simp [MakerValidationReport.expectedSlots, legFillAuthority])
      h.fillAuthority
  · exact hslot 5 _ _ (by simp [MakerValidationReport.expectedSlots, legMakerBaseTokenAccount])
      h.makerBase
  · exact hslot 6 _ _ (by simp [MakerValidationReport.expectedSlots, legMakerQuoteTokenAccount])
      h.makerQuote
  · rw [r.programId_resolved hmsg hix hprogram]
    exact hdex
  · exact ⟨f, ix, hreport ▸ hi, hone, hfills⟩
  · rw [hreport]
    exact hothers
  · exact hasUnsupportedEntrypoint_eq_false_iff.mp hsupported
  · exact ⟨h.signer, (staticMatches_spec (length_static_le hmsg) h.fillAuthority).1⟩
  · exact ⟨h.baseWritable, (staticMatches_spec (length_static_le hmsg) h.makerBase).1⟩
  · exact ⟨h.quoteWritable, (staticMatches_spec (length_static_le hmsg) h.makerQuote).1⟩

/-- **An accepted maker appears once in the resolved transaction, in the reported leg.** -/
theorem validateMakerAccounts_sound {b : List UInt8} {msg : DecodedMessage} (hb : DecodedFrom b msg)
    {maker : MakerAccounts} (r : Resolution msg) {report : MakerValidationReport}
    (h : validateMakerAccounts msg maker = .ok report) :
    ∃ ixs, r.resolveAll = some ixs ∧ MakerSound msg maker report ixs := by
  have hmsg := hb.wellFormed
  exact ⟨_, r.resolveAll_eq hmsg, (validateMakerAccounts_eq_ok_iff.mp h).sound hmsg r⟩

/-- The maker of the sample leg. -/
def sampleMaker : MakerAccounts :=
  ⟨List.Vector.replicate 32 0x11, List.Vector.replicate 32 0x22, List.Vector.replicate 32 0x33⟩

/-- A swap with one `SolRfqV2` route of one level. -/
def sampleSwapData : List UInt8 :=
  Entrypoint.swap ++ (Borsh.encodeU64 1 ++ (Borsh.encodeU64 1000 ++ (Borsh.encodeU64 0 ++
    (Borsh.encodeU16 0 ++ (toLE 4 1 ++ (117 :: 0 :: (Borsh.encodeU64 7 ++ (Borsh.encodeI64 100 ++
      (toLE 4 1 ++ (Borsh.encodeU64 5 ++ (Borsh.encodeU64 9 ++ (Borsh.encodeU16 10000 ++
        [0]))))))))))))

/-- A v0 message whose only instruction is a leg with one loaded account. -/
def sampleLegMessage : ParsedMessage where
  version := .v0
  header := ⟨1, 0, 3⟩
  staticAccountKeys := sampleMaker.pubkeys ++
    [rfqV2ProgramIdBytes, dexSolanaV3ProgramIdBytes, List.Vector.replicate 32 0x44]
  recentBlockhash := List.Vector.replicate 32 9
  instructions := [⟨4, [3, 5, 5, 5, 0, 1, 2, 5, 5, 5, 5, 6, 5], sampleSwapData⟩]
  addressTableLookups := [⟨List.Vector.replicate 32 3, [4], []⟩]
  transactionConfig := none

/-- The sample leg with its loaded account. -/
def sampleResolution : Resolution (extractFills (bareMessage sampleLegMessage)) where
  loaded := [List.Vector.replicate 32 0x55]
  length_loaded := by decide
  disjoint key hkey := by
    rw [List.mem_singleton.mp hkey]
    decide +kernel

theorem compactMessage_sampleLegMessage : CompactMessage sampleLegMessage :=
  ⟨⟨rfl, by decide +kernel, by decide +kernel, by decide +kernel, by decide +kernel⟩, by decide,
    by decide⟩

theorem accepted_sampleLegMessage : Accepted sampleLegMessage :=
  ⟨by decide +kernel, by decide +kernel, by decide +kernel, by decide +kernel, by decide +kernel⟩

theorem decodedFrom_sampleLegMessage : DecodedFrom (encodeCompactMessage sampleLegMessage)
    (extractFills (bareMessage sampleLegMessage)) := by
  have hparse := parseMessage_encode compactMessage_sampleLegMessage []
  rw [List.append_nil] at hparse
  exact .inl (decodeMessageBytes_eq_ok_iff.mpr ⟨_, hparse, accepted_sampleLegMessage, rfl⟩)

theorem validateMakerAccounts_sample : ∃ ixs, sampleResolution.resolveAll = some ixs ∧
    MakerSound (extractFills (bareMessage sampleLegMessage)) sampleMaker ⟨0, 0, 0, 1, 2, 3⟩ ixs :=
  validateMakerAccounts_sound decodedFrom_sampleLegMessage sampleResolution (by decide +kernel)

end SolanaRfq
