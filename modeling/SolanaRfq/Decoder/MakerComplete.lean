import SolanaRfq.Decoder.MakerCheck
import Mathlib.Data.List.NodupEquivFin

/-!
# The maker check accepts every proper leg

The converse of the soundness of the check, and the error that it never returns.

* `LegPlaced`: a message whose only fill has the maker accounts in its slots;
* `LegPlaced.makerCheck`, `MakerCheck.legPlaced`: its report meets the conditions of the check, and
  a report that meets them is one of such a message;
* `legMatchesIndexed`: the search with its accesses; `legMatchesIndexed_eq`: all are in bounds;
* `legMatches_length_le`: an index referenced once starts at most one leg;
* **`validateMakerAccounts_complete`**: the check accepts such a message at its offset, never finds
  two legs, and never reads out of bounds.
-/

namespace SolanaRfq

open Fallible

/-! ## Lists -/

section Lists

variable {α : Type} [DecidableEq α]

theorem getElem?_inj_of_count_le {xs : List α} {a : α} (h : xs.count a ≤ 1) {i j : ℕ}
    (hi : xs[i]? = some a) (hj : xs[j]? = some a) : i = j := by
  have hnot : ¬ xs.Duplicate a := by
    rw [List.duplicate_iff_two_le_count]
    omega
  have hne (m n : ℕ) (hm : xs[m]? = some a) (hn : xs[n]? = some a) (hmn : m < n) : False := by
    obtain ⟨hm', hma⟩ := List.getElem?_eq_some_iff.mp hm
    obtain ⟨hn', hna⟩ := List.getElem?_eq_some_iff.mp hn
    exact hnot (List.duplicate_iff_exists_distinct_get.mpr
      ⟨⟨m, hm'⟩, ⟨n, hn'⟩, hmn, hma.symm, hna.symm⟩)
  rcases Nat.lt_trichotomy i j with hlt | heq | hgt
  · exact absurd hlt (fun hlt => hne i j hi hj hlt)
  · exact heq
  · exact absurd hgt (fun hgt => hne j i hj hi hgt)

omit [DecidableEq α] in
theorem filterM_eq_some {f : α → Option Bool} {p : α → Bool} {xs : List α}
    (h : ∀ x ∈ xs, f x = some (p x)) : xs.filterM f = some (xs.filter p) := by
  have haux : ∀ (xs acc : List α), (∀ x ∈ xs, f x = some (p x)) →
      xs.filterAuxM f acc = some ((xs.filter p).reverse ++ acc) := by
    intro xs
    induction xs with
    | nil => exact fun _ _ => rfl
    | cons x xs ih =>
      intro acc hxs
      obtain ⟨hx, hrest⟩ := List.forall_mem_cons.mp hxs
      show f x >>= (fun b => xs.filterAuxM f (cond b (x :: acc) acc)) = _
      rw [hx]
      show xs.filterAuxM f (cond (p x) (x :: acc) acc) = _
      rw [ih _ hrest, List.filter_cons]
      cases p x with
      | true => simp
      | false => simp
  unfold List.filterM
  rw [haux xs [] h]
  simp

end Lists

/-! ## The search for the leg -/

/-- The slots of a leg, as the program indexes them: `none` is an access out of bounds. It stops at
the first slot that differs. -/
def slotsHold (accountIndices : List UInt8) (offset : ℕ) : List (ℕ × UInt8) → Option Bool
  | [] => some true
  | (slot, index) :: slots => do
    let found ← accountIndices[offset + slot]?
    if found = index then slotsHold accountIndices offset slots else some false

/-- The search with its accesses. -/
def legMatchesIndexed (accountIndices : List UInt8) (expectedSlots : List (ℕ × UInt8)) :
    Option (List ℕ) :=
  (List.range (accountIndices.length - solRfqV2LegWidth + 1)).filterM fun offset =>
    if accountIndices.length ≥ offset + solRfqV2LegWidth then
      slotsHold accountIndices offset expectedSlots
    else some false

theorem slotsHold_eq {accountIndices : List UInt8} {offset : ℕ} {slots : List (ℕ × UInt8)}
    (h : ∀ p ∈ slots, offset + p.1 < accountIndices.length) :
    slotsHold accountIndices offset slots =
      some (decide (∀ p ∈ slots, accountIndices[offset + p.1]? = some p.2)) := by
  induction slots with
  | nil => simp [slotsHold]
  | cons p slots ih =>
    obtain ⟨slot, index⟩ := p
    obtain ⟨hslot, hrest⟩ := List.forall_mem_cons.mp h
    rw [slotsHold, List.getElem?_eq_getElem hslot]
    show (if accountIndices[offset + slot] = index then _ else _) = _
    by_cases hfound : accountIndices[offset + slot] = index
    · rw [if_pos hfound, ih hrest]
      simp [hfound, hslot]
    · rw [if_neg hfound]
      simp [hfound, hslot]

/-- **The guard in front of the slots keeps every access in bounds.** -/
theorem legMatchesIndexed_eq {slots : List (ℕ × UInt8)} (h : ∀ p ∈ slots, p.1 < solRfqV2LegWidth)
    (accountIndices : List UInt8) :
    legMatchesIndexed accountIndices slots = some (legMatches accountIndices slots) := by
  refine filterM_eq_some fun offset _ => ?_
  by_cases hwidth : accountIndices.length ≥ offset + solRfqV2LegWidth
  · have hbounds : ∀ p ∈ slots, offset + p.1 < accountIndices.length := fun p hp => by
      have := h p hp
      omega
    rw [if_pos hwidth, slotsHold_eq hbounds]
    simp [hwidth]
  · rw [if_neg hwidth]
    simp [hwidth]

theorem expectedSlots_lt (report : MakerValidationReport) :
    ∀ p ∈ report.expectedSlots, p.1 < solRfqV2LegWidth := by
  simp [MakerValidationReport.expectedSlots, legProgramId, legFillAuthority,
    legMakerBaseTokenAccount, legMakerQuoteTokenAccount, solRfqV2LegWidth]

/-- **An index referenced once starts at most one leg.** -/
theorem legMatches_length_le {accountIndices : List UInt8} {slot : ℕ} {index : UInt8}
    {slots : List (ℕ × UInt8)} (hcount : accountIndices.count index ≤ 1) :
    (legMatches accountIndices ((slot, index) :: slots)).length ≤ 1 := by
  have hunique : ∀ o ∈ legMatches accountIndices ((slot, index) :: slots),
      ∀ o' ∈ legMatches accountIndices ((slot, index) :: slots), o = o' := by
    intro o ho o' ho'
    have h := (mem_legMatches_iff.mp ho).2 (slot, index) List.mem_cons_self
    have h' := (mem_legMatches_iff.mp ho').2 (slot, index) List.mem_cons_self
    have := getElem?_inj_of_count_le hcount h h'
    omega
  have hnodup : (legMatches accountIndices ((slot, index) :: slots)).Nodup :=
    List.nodup_range.filter _
  rcases hleg : legMatches accountIndices ((slot, index) :: slots) with _ | ⟨o, _ | ⟨o', rest⟩⟩
  · simp
  · simp
  · rw [hleg] at hunique hnodup
    have heq : o = o' := hunique o (by simp) o' (by simp)
    rw [List.nodup_cons, heq] at hnodup
    exact absurd (List.mem_cons_self) hnodup.1

/-- An index referenced once: a leg that starts with it is the only one. -/
theorem legMatches_eq_singleton {accountIndices : List UInt8} {slot o : ℕ} {index : UInt8}
    {slots : List (ℕ × UInt8)} (hcount : accountIndices.count index ≤ 1)
    (ho : o ∈ legMatches accountIndices ((slot, index) :: slots)) :
    legMatches accountIndices ((slot, index) :: slots) = [o] := by
  obtain ⟨o', ho'⟩ := List.length_eq_one_iff.mp
    (le_antisymm (legMatches_length_le hcount) (List.length_pos_of_mem ho))
  rw [ho'] at ho ⊢
  rw [List.mem_singleton.mp ho]

theorem count_accountIndices_le {msg : DecodedMessage} {ix : DecodedInstruction} {index : UInt8}
    (hix : ix ∈ msg.instructions) (h : msg.references.count index = 1) :
    ix.accountIndices.count index ≤ 1 := by
  have hsub : ix.accountIndices.Sublist msg.references :=
    (List.sublist_cons_self _ _).trans
      (List.sublist_flatten_of_mem (List.mem_map_of_mem hix))
  have := hsub.count_le index
  omega

/-! ## Errors -/

theorem rejectIf_eq_error_iff {p : Prop} [Decidable p] {e e' : MakerValidationError} :
    rejectIf p e = .error e' ↔ p ∧ e = e' := by
  unfold rejectIf
  split_ifs with h <;> simp [h]

theorem onlyMatch_eq_error_iff {α : Type} {e₁ e₂ e : MakerValidationError} : ∀ {as : List α},
    onlyMatch e₁ e₂ as = .error e ↔ as = [] ∧ e₁ = e ∨ 1 < as.length ∧ e₂ = e
  | [] => by simp [onlyMatch]
  | [a] => by simp [onlyMatch]
  | a :: b :: as => by simp [onlyMatch]

theorem mapError_fillCount_ne {α : Type} {x : Except FillCountError α} :
    x.mapError MakerValidationError.fillCount ≠ .error .multipleLegMatches := by
  cases x <;> simp [Except.mapError]

theorem findFillInstruction_ne {msg : DecodedMessage} :
    findFillInstruction msg ≠ .error .multipleLegMatches := by
  unfold findFillInstruction
  cases msg.instructions.find? fun ix => !ix.fills.isEmpty <;> simp

/-- **Two legs are never found**: their program index would be referenced twice. -/
theorem validateMakerAccounts_ne_multipleLegMatches (msg : DecodedMessage) (maker : MakerAccounts) :
    validateMakerAccounts msg maker ≠ .error .multipleLegMatches := by
  intro h
  unfold validateMakerAccounts uniqueStaticIndex uniqueRfqProgramIndex at h
  simp only [except_bind_eq_error, rejectIf_eq_error_iff, onlyMatch_eq_error_iff,
    mapError_fillCount_ne, findFillInstruction_ne, reduceCtorEq, and_false, or_false, false_or,
    rejectIf_eq_ok_iff, findFillInstruction_eq_ok_iff, not_not, and_true, pure, Except.pure,
    exists_false] at h
  obtain ⟨-, -, _, -, _, -, _, -, -, -, -, -, -, -, rfqProgramIndex, -, -, -, ix, hfind, -, -, -, -,
    -, -, -, hcount, htwo⟩ := h
  have hix := List.mem_of_find?_eq_some hfind
  exact absurd htwo (not_lt.mpr (legMatches_length_le (count_accountIndices_le hix hcount)))

/-! ## Completeness -/

/-- A static key that may be written to: a writable signer, or a writable account after the
signers. -/
def StaticWritable (msg : DecodedMessage) (index : UInt8) : Prop :=
  index.toNat + msg.header.numReadonlySignedAccounts.toNat < msg.header.numRequiredSignatures.toNat ∨
    msg.header.numRequiredSignatures.toNat ≤ index.toNat ∧
      index.toNat + msg.header.numReadonlyUnsignedAccounts.toNat < msg.staticAccountKeys.length

theorem staticKeyIsWritable_iff {msg : DecodedMessage} {index : UInt8} :
    staticKeyIsWritable msg index = true ↔ StaticWritable msg index := by
  unfold staticKeyIsWritable StaticWritable
  dsimp only
  split_ifs with hsigner
  · rw [decide_eq_true_eq]
    omega
  · rw [decide_eq_true_eq]
    omega

/-- The static key of an index. -/
def IsStaticKey (msg : DecodedMessage) (index : UInt8) (key : Pubkey) : Prop :=
  msg.staticAccountKeys[index.toNat]? = some key

/-- A message whose only fill has the maker accounts in the slots of a leg at `o`. -/
structure LegPlaced (msg : DecodedMessage) (maker : MakerAccounts) (o : ℕ) : Prop where
  distinct : maker.pubkeys.Nodup
  once : ∀ key ∈ rfqV2ProgramIdBytes :: maker.pubkeys, msg.staticAccountKeys.count key = 1
  signer : ∀ index, IsStaticKey msg index maker.fillAuthority →
    index < msg.header.numRequiredSignatures
  writable : ∀ key ∈ [maker.makerBaseTokenAccount, maker.makerQuoteTokenAccount], ∀ index,
    IsStaticKey msg index key → StaticWritable msg index
  single : ∃ f, msg.singleFill = .ok f
  referenced : ∀ key ∈ rfqV2ProgramIdBytes :: maker.pubkeys, ∀ index,
    IsStaticKey msg index key → msg.references.count index = 1
  leg : ∃ ix ∈ msg.instructions, ix.fills ≠ [] ∧ o + 13 ≤ ix.accountIndices.length ∧
    ∀ p ∈ [(0, rfqV2ProgramIdBytes), (4, maker.fillAuthority), (5, maker.makerBaseTokenAccount),
      (6, maker.makerQuoteTokenAccount)],
      ∃ index, ix.accountIndices[o + p.1]? = some index ∧ IsStaticKey msg index p.2

theorem length_staticMatches (msg : DecodedMessage) (key : Pubkey) :
    (staticMatches msg key).length = msg.staticAccountKeys.count key := by
  rw [staticMatches, List.length_map, ← List.countP_eq_length_filter, List.count]
  conv_rhs => rw [← List.zipIdx_map_fst 0 msg.staticAccountKeys, List.countP_map]
  exact List.countP_congr fun p _ => by simp

theorem staticMatches_of_count {msg : DecodedMessage} {key : Pubkey}
    (h : msg.staticAccountKeys.count key = 1) : ∃ index, staticMatches msg key = [index] :=
  List.length_eq_one_iff.mp ((length_staticMatches msg key).trans h)

theorem IsStaticKey.eq {msg : DecodedMessage} {key : Pubkey} {index i : UInt8}
    (hlen : msg.staticAccountKeys.length ≤ 256) (h : staticMatches msg key = [i])
    (hindex : IsStaticKey msg index key) : index = i :=
  UInt8.toNat_inj.mp ((staticMatches_spec hlen h).2 _ hindex)

/-- With a single fill the instruction that carries it is the one the check looks at. -/
theorem find_fill {msg : DecodedMessage} {f : DecodedFill} (hfills : msg.fills = [f])
    {ix : DecodedInstruction} (hix : ix ∈ msg.instructions) (hne : ix.fills ≠ []) :
    msg.instructions.find? (fun ix => !ix.fills.isEmpty) = some ix := by
  have hsome : (msg.instructions.find? fun ix => !ix.fills.isEmpty).isSome = true :=
    List.find?_isSome.mpr ⟨ix, hix, by simpa using hne⟩
  obtain ⟨ix', hfind⟩ := Option.isSome_iff_exists.mp hsome
  have hne' : ix'.fills ≠ [] := by simpa using List.find?_some hfind
  obtain ⟨i, hi⟩ := List.mem_iff_getElem?.mp hix
  obtain ⟨j, hj⟩ := List.mem_iff_getElem?.mp (List.mem_of_find?_eq_some hfind)
  obtain ⟨-, hothers⟩ := flatMap_eq_singleton_at hfills hi hne
  have hij : j = i := by
    by_contra hji
    exact hne' (hothers j ix' hji hj)
  rw [hij, hi] at hj
  rw [hfind, hj]

theorem LegPlaced.exists_index {msg : DecodedMessage} {maker : MakerAccounts} {o : ℕ}
    (h : LegPlaced msg maker o) (hmsg : msg.WellFormed) (key : Pubkey)
    (hkey : key ∈ rfqV2ProgramIdBytes :: maker.pubkeys) :
    ∃ index, staticMatches msg key = [index] ∧ IsStaticKey msg index key ∧
      msg.references.count index = 1 := by
  obtain ⟨index, hindex⟩ := staticMatches_of_count (h.once key hkey)
  have hstatic : IsStaticKey msg index key := (staticMatches_spec (length_static_le hmsg) hindex).1
  exact ⟨index, hindex, hstatic, h.referenced key hkey index hstatic⟩

/-- **The report of such a message meets the conditions of the check.** -/
theorem LegPlaced.makerCheck {msg : DecodedMessage} {maker : MakerAccounts} {o : ℕ}
    (h : LegPlaced msg maker o) (hmsg : msg.WellFormed) :
    ∃ report, MakerCheck msg maker report ∧ report.legOffset = o := by
  obtain ⟨rfqProgramIndex, m₃, -, c₃⟩ := h.exists_index hmsg _ List.mem_cons_self
  obtain ⟨fillAuthorityIndex, m₀, k₀, c₀⟩ :=
    h.exists_index hmsg maker.fillAuthority (by simp [MakerAccounts.pubkeys])
  obtain ⟨makerBaseTokenAccountIndex, m₁, k₁, c₁⟩ :=
    h.exists_index hmsg maker.makerBaseTokenAccount (by simp [MakerAccounts.pubkeys])
  obtain ⟨makerQuoteTokenAccountIndex, m₂, k₂, c₂⟩ :=
    h.exists_index hmsg maker.makerQuoteTokenAccount (by simp [MakerAccounts.pubkeys])
  obtain ⟨f, hf⟩ := h.single
  obtain ⟨ix, hix, hne, hwidth, hslots⟩ := h.leg
  -- a slot with the key holds the only index of the key
  have hslot {slot : ℕ} {key : Pubkey} {index : UInt8} (hkey : staticMatches msg key = [index])
      (hp : ∃ i, ix.accountIndices[o + slot]? = some i ∧ IsStaticKey msg i key) :
      ix.accountIndices[o + slot]? = some index := by
    obtain ⟨i, hi, hstatic⟩ := hp
    rw [hi, hstatic.eq (length_static_le hmsg) hkey]
  let report : MakerValidationReport := ⟨ix.instructionIndex, o, fillAuthorityIndex,
    makerBaseTokenAccountIndex, makerQuoteTokenAccountIndex, rfqProgramIndex⟩
  have hmem : o ∈ legMatches ix.accountIndices report.expectedSlots := by
    refine mem_legMatches_iff.mpr ⟨hwidth, ?_⟩
    rw [MakerValidationReport.expectedSlots]
    refine List.forall_mem_cons.mpr ⟨?_, List.forall_mem_cons.mpr ⟨?_, List.forall_mem_cons.mpr
      ⟨?_, List.forall_mem_singleton.mpr ?_⟩⟩⟩
    · exact hslot m₃ (hslots (0, rfqV2ProgramIdBytes) (by simp))
    · exact hslot m₀ (hslots (4, maker.fillAuthority) (by simp))
    · exact hslot m₁ (hslots (5, maker.makerBaseTokenAccount) (by simp))
    · exact hslot m₂ (hslots (6, maker.makerQuoteTokenAccount) (by simp))
  have hleg : legMatches ix.accountIndices report.expectedSlots = [o] :=
    legMatches_eq_singleton (count_accountIndices_le hix c₃) hmem
  have hdistinct := h.distinct
  simp only [MakerAccounts.pubkeys, List.nodup_cons, List.mem_cons, List.not_mem_nil, or_false,
    not_or, List.nodup_nil, and_true, not_false_eq_true] at hdistinct
  refine ⟨report, ⟨⟨hdistinct.1.1, hdistinct.1.2, hdistinct.2⟩, m₀, m₁, m₂, m₃, h.signer _ k₀, ?_,
    ?_, ⟨f, hf⟩, c₀, c₁, c₂, c₃, ix, find_fill (singleFill_eq_ok_iff.mp hf).2 hix hne, rfl, hleg⟩,
    rfl⟩
  · exact staticKeyIsWritable_iff.mpr (h.writable _ (by simp) _ k₁)
  · exact staticKeyIsWritable_iff.mpr (h.writable _ (by simp) _ k₂)

theorem MakerCheck.index {msg : DecodedMessage} {maker : MakerAccounts}
    {report : MakerValidationReport} (h : MakerCheck msg maker report) (key : Pubkey)
    (hkey : key ∈ rfqV2ProgramIdBytes :: maker.pubkeys) :
    ∃ index, staticMatches msg key = [index] ∧ msg.references.count index = 1 := by
  simp only [MakerAccounts.pubkeys, List.mem_cons, List.not_mem_nil, or_false] at hkey
  rcases hkey with rfl | rfl | rfl | rfl
  · exact ⟨_, h.rfqProgram, h.rfqProgramCount⟩
  · exact ⟨_, h.fillAuthority, h.fillAuthorityCount⟩
  · exact ⟨_, h.makerBase, h.makerBaseCount⟩
  · exact ⟨_, h.makerQuote, h.makerQuoteCount⟩

/-- **The conditions of the check place the leg at the reported offset.** -/
theorem MakerCheck.legPlaced {msg : DecodedMessage} {maker : MakerAccounts}
    {report : MakerValidationReport} (h : MakerCheck msg maker report) (hmsg : msg.WellFormed) :
    LegPlaced msg maker report.legOffset := by
  have hlen := length_static_le hmsg
  obtain ⟨ix, hfind, -, hleg⟩ := h.leg
  have hne : ix.fills ≠ [] := by simpa using List.find?_some hfind
  obtain ⟨hwidth, hslots⟩ := mem_legMatches_iff.mp (hleg ▸ List.mem_singleton_self _)
  have hslot {slot : ℕ} {index : UInt8} {key : Pubkey} (hmem : (slot, index) ∈ report.expectedSlots)
      (hkey : staticMatches msg key = [index]) : ∃ i,
        ix.accountIndices[report.legOffset + slot]? = some i ∧ IsStaticKey msg i key :=
    ⟨index, hslots _ hmem, (staticMatches_spec hlen hkey).1⟩
  refine ⟨?_, fun key hkey => ?_, fun index hindex => ?_, fun key hkey index hindex => ?_,
    h.single, fun key hkey index hindex => ?_, ix, List.mem_of_find?_eq_some hfind, hne, hwidth, ?_⟩
  · simp [MakerAccounts.pubkeys, h.distinct.1, h.distinct.2.1, h.distinct.2.2]
  · obtain ⟨index, hindex, -⟩ := h.index key hkey
    rw [← length_staticMatches, hindex, List.length_singleton]
  · rw [hindex.eq hlen h.fillAuthority]
    exact h.signer
  · simp only [List.mem_cons, List.not_mem_nil, or_false] at hkey
    rcases hkey with rfl | rfl
    · rw [hindex.eq hlen h.makerBase]
      exact staticKeyIsWritable_iff.mp h.baseWritable
    · rw [hindex.eq hlen h.makerQuote]
      exact staticKeyIsWritable_iff.mp h.quoteWritable
  · obtain ⟨i, hi, hcount⟩ := h.index key hkey
    rw [hindex.eq hlen hi, hcount]
  · simp only [List.forall_mem_cons, List.not_mem_nil, IsEmpty.forall_iff, implies_true, and_true]
    exact ⟨hslot (by simp [MakerValidationReport.expectedSlots, legProgramId]) h.rfqProgram,
      hslot (by simp [MakerValidationReport.expectedSlots, legFillAuthority]) h.fillAuthority,
      hslot (by simp [MakerValidationReport.expectedSlots, legMakerBaseTokenAccount]) h.makerBase,
      hslot (by simp [MakerValidationReport.expectedSlots, legMakerQuoteTokenAccount])
        h.makerQuote⟩

/-- **The check accepts every message with a placed leg, at its offset; it never reports two legs; and
every access of its search is in bounds.** -/
theorem validateMakerAccounts_complete :
    (∀ {b : List UInt8} {msg : DecodedMessage} {maker : MakerAccounts} {o : ℕ}, DecodedFrom b msg →
      LegPlaced msg maker o →
      ∃ report, validateMakerAccounts msg maker = .ok report ∧ report.legOffset = o) ∧
    (∀ (msg : DecodedMessage) (maker : MakerAccounts),
      validateMakerAccounts msg maker ≠ .error .multipleLegMatches) ∧
    ∀ (accountIndices : List UInt8) (report : MakerValidationReport),
      legMatchesIndexed accountIndices report.expectedSlots =
        some (legMatches accountIndices report.expectedSlots) := by
  refine ⟨fun {b msg maker o} hb h => ?_, validateMakerAccounts_ne_multipleLegMatches,
    fun accountIndices report => legMatchesIndexed_eq (expectedSlots_lt report) accountIndices⟩
  obtain ⟨report, hcheck, ho⟩ := h.makerCheck hb.wellFormed
  exact ⟨report, validateMakerAccounts_eq_ok_iff.mpr hcheck, ho⟩

theorem legPlaced_sampleLegMessage :
    LegPlaced (extractFills (bareMessage sampleLegMessage)) sampleMaker 0 := by
  have hlen := length_static_le decodedFrom_sampleLegMessage.wellFormed
  have m₀ : staticMatches (extractFills (bareMessage sampleLegMessage)) sampleMaker.fillAuthority =
      [0] := by decide +kernel
  have m₁ : staticMatches (extractFills (bareMessage sampleLegMessage))
      sampleMaker.makerBaseTokenAccount = [1] := by decide +kernel
  have m₂ : staticMatches (extractFills (bareMessage sampleLegMessage))
      sampleMaker.makerQuoteTokenAccount = [2] := by decide +kernel
  have m₃ : staticMatches (extractFills (bareMessage sampleLegMessage)) rfqV2ProgramIdBytes =
      [3] := by decide +kernel
  refine ⟨by decide +kernel, fun key hkey => ?_, fun index h => ?_, fun key hkey index h => ?_,
    ⟨⟨.bid, 7, 100, [⟨5, 9⟩]⟩, by decide +kernel⟩, fun key hkey index h => ?_, ?_⟩
  · simp only [MakerAccounts.pubkeys, List.mem_cons, List.not_mem_nil, or_false] at hkey
    rcases hkey with rfl | rfl | rfl | rfl
    · decide +kernel
    · decide +kernel
    · decide +kernel
    · decide +kernel
  · rw [h.eq hlen m₀]
    decide
  · rw [← staticKeyIsWritable_iff]
    simp only [List.mem_cons, List.not_mem_nil, or_false] at hkey
    rcases hkey with rfl | rfl
    · rw [h.eq hlen m₁]
      decide
    · rw [h.eq hlen m₂]
      decide
  · simp only [MakerAccounts.pubkeys, List.mem_cons, List.not_mem_nil, or_false] at hkey
    rcases hkey with rfl | rfl | rfl | rfl
    · rw [h.eq hlen m₃]
      decide +kernel
    · rw [h.eq hlen m₀]
      decide +kernel
    · rw [h.eq hlen m₁]
      decide +kernel
    · rw [h.eq hlen m₂]
      decide +kernel
  · refine ⟨extractInstruction sampleLegMessage.staticAccountKeys (bareInstruction 0
        ⟨4, [3, 5, 5, 5, 0, 1, 2, 5, 5, 5, 5, 6, 5], sampleSwapData⟩), List.mem_singleton_self _,
      by decide +kernel, by decide +kernel, fun p hp => ?_⟩
    simp only [List.mem_cons, List.not_mem_nil, or_false] at hp
    rcases hp with rfl | rfl | rfl | rfl
    · exact ⟨3, by decide +kernel, (staticMatches_spec hlen m₃).1⟩
    · exact ⟨0, by decide +kernel, (staticMatches_spec hlen m₀).1⟩
    · exact ⟨1, by decide +kernel, (staticMatches_spec hlen m₁).1⟩
    · exact ⟨2, by decide +kernel, (staticMatches_spec hlen m₂).1⟩

theorem validateMakerAccounts_complete_sample :
    ∃ report, validateMakerAccounts (extractFills (bareMessage sampleLegMessage)) sampleMaker =
      .ok report ∧ report.legOffset = 0 :=
  validateMakerAccounts_complete.1 decodedFrom_sampleLegMessage legPlaced_sampleLegMessage

end SolanaRfq
