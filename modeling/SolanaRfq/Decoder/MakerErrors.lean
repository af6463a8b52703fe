import SolanaRfq.Decoder.MakerComplete
import SolanaRfq.Format.Checklist

/-!
# The errors of the maker check

The check works through a list of conditions on a message and its maker, and reports the first one
that fails.

* `makerConditions`: the conditions in order, each with its error;
* `checks_onlyMatch`, `checks_singleFill`, ...: the part of the list that each step checks;
* **`validateMakerAccounts_checklist`**: the check fails with the error of the first condition that
  fails, and succeeds if there is none.
-/

namespace SolanaRfq

open Checklist Fallible

/-! ## The conditions -/

/-- The first static index of a key, cast to `u8`. -/
def keyIndex (msg : DecodedMessage) (key : Pubkey) : UInt8 :=
  UInt8.ofNat (msg.staticAccountKeys.idxOf key)

/-- A key is static, once. -/
def staticConditions (msg : DecodedMessage) (key : Pubkey) (notFound duplicate : MakerValidationError) :
    List (Condition MakerValidationError) :=
  [⟨key ∈ msg.staticAccountKeys, notFound⟩, ⟨msg.staticAccountKeys.count key ≤ 1, duplicate⟩]

/-- The message has exactly one fill, and no refused entrypoint. -/
def fillConditions (msg : DecodedMessage) : List (Condition FillCountError) :=
  [⟨∀ ix ∈ msg.instructions, ix.entrypoint ≠ some .unsupported, .unsupportedEntrypoint⟩,
    ⟨msg.fills ≠ [], .notFound⟩, ⟨msg.fills.length ≤ 1, .multiple msg.fills.length⟩]

/-- A leg with the keys in its slots starts at `o` in an instruction with a fill. -/
def LegAt (msg : DecodedMessage) (maker : MakerAccounts) (o : ℕ) : Prop :=
  ∃ ix ∈ msg.instructions, ix.fills ≠ [] ∧ o + 13 ≤ ix.accountIndices.length ∧
    ∀ p ∈ [(0, rfqV2ProgramIdBytes), (4, maker.fillAuthority), (5, maker.makerBaseTokenAccount),
      (6, maker.makerQuoteTokenAccount)], ix.accountIndices[o + p.1]? = some (keyIndex msg p.2)

/-- A condition on the number of references to a key. -/
def referencedOnce (msg : DecodedMessage) (key : Pubkey) (error : ℕ → MakerValidationError) :
    Condition MakerValidationError :=
  ⟨msg.references.count (keyIndex msg key) = 1, error (msg.references.count (keyIndex msg key))⟩

/-- A condition on a token account: its static index is writable. -/
def writableAt (msg : DecodedMessage) (key : Pubkey) (role : String) :
    Condition MakerValidationError :=
  ⟨StaticWritable msg (keyIndex msg key), .tokenAccountNotWritable role (keyIndex msg key)⟩

/-- The conditions of the check, step by step. -/
def makerConditions (msg : DecodedMessage) (maker : MakerAccounts) :
    List (Condition MakerValidationError) := List.flatten
  [[⟨maker.pubkeys.Nodup, .keysNotDistinct⟩],
    staticConditions msg maker.fillAuthority (.notStatic fillAuthorityRole)
      (.duplicateStaticKey fillAuthorityRole),
    staticConditions msg maker.makerBaseTokenAccount (.notStatic makerBaseTokenAccountRole)
      (.duplicateStaticKey makerBaseTokenAccountRole),
    staticConditions msg maker.makerQuoteTokenAccount (.notStatic makerQuoteTokenAccountRole)
      (.duplicateStaticKey makerQuoteTokenAccountRole),
    [⟨keyIndex msg maker.fillAuthority < msg.header.numRequiredSignatures,
      .fillAuthorityNotSigner (keyIndex msg maker.fillAuthority)⟩],
    [writableAt msg maker.makerBaseTokenAccount makerBaseTokenAccountRole],
    [writableAt msg maker.makerQuoteTokenAccount makerQuoteTokenAccountRole],
    staticConditions msg rfqV2ProgramIdBytes .rfqProgramNotStatic .duplicateRfqProgramStaticKey,
    (fillConditions msg).map fun c => ⟨c.holds, .fillCount c.error⟩,
    [],
    [referencedOnce msg maker.fillAuthority (.referenceCount fillAuthorityRole)],
    [referencedOnce msg maker.makerBaseTokenAccount (.referenceCount makerBaseTokenAccountRole)],
    [referencedOnce msg maker.makerQuoteTokenAccount (.referenceCount makerQuoteTokenAccountRole)],
    [referencedOnce msg rfqV2ProgramIdBytes .rfqProgramReferenceCount],
    [⟨∃ o, LegAt msg maker o, .legNotFound⟩]]

/-! ## The steps -/

theorem checks_rejectIf {p q : Prop} [Decidable p] {e : MakerValidationError} (h : ¬ p ↔ q) :
    Checks (rejectIf p e) [⟨q, e⟩] := by
  intro e'
  rw [rejectIf_eq_error_iff, firstFailing_cons_iff, ← h, not_not]
  simp [not_firstFailing_nil]

variable {msg : DecodedMessage} {maker : MakerAccounts}

theorem eq_keyIndex {key : Pubkey} {i : UInt8} (h : staticMatches msg key = [i]) :
    i = keyIndex msg key := by
  have hmem : key ∈ msg.staticAccountKeys := by
    rw [← List.count_pos_iff, ← length_staticMatches, h]
    exact Nat.one_pos
  have hfirst : keyIndex msg key ∈ staticMatches msg key := by
    refine List.mem_map.mpr ⟨(key, msg.staticAccountKeys.idxOf key), ?_, rfl⟩
    rw [List.mem_filter, List.mem_zipIdx_iff_getElem?, List.getElem?_idxOf hmem]
    exact ⟨rfl, decide_eq_true rfl⟩
  rw [h, List.mem_singleton] at hfirst
  exact hfirst.symm

theorem checks_onlyMatch (key : Pubkey) (notFound duplicate : MakerValidationError) :
    Checks (onlyMatch notFound duplicate (staticMatches msg key))
      (staticConditions msg key notFound duplicate) := by
  intro e
  rw [onlyMatch_eq_error_iff, staticConditions, firstFailing_cons_iff, firstFailing_cons_iff]
  have hlength := length_staticMatches msg key
  have hnil : staticMatches msg key = [] ↔ key ∉ msg.staticAccountKeys := by
    rw [← List.length_eq_zero_iff, hlength, List.count_eq_zero]
  have hmem (h : 1 < msg.staticAccountKeys.count key) : key ∈ msg.staticAccountKeys :=
    List.count_pos_iff.mp (Nat.zero_lt_of_lt h)
  simp only [hnil, hlength, not_firstFailing_nil, not_le, and_false, or_false]
  exact or_congr Iff.rfl ⟨fun h => ⟨hmem h.1, h⟩, fun h => h.2⟩

theorem checks_singleFill : Checks (msg.singleFill.mapError .fillCount)
    ((fillConditions msg).map fun c => (⟨c.holds, .fillCount c.error⟩ : Condition MakerValidationError)) := by
  intro e
  simp only [fillConditions, List.map_cons, List.map_nil, firstFailing_cons_iff,
    not_firstFailing_nil, and_false, or_false, ← hasUnsupportedEntrypoint_eq_false_iff]
  unfold DecodedMessage.singleFill
  cases msg.hasUnsupportedEntrypoint with
  | true => simp [Except.mapError]
  | false =>
    rcases msg.fills with _ | ⟨f, _ | ⟨g, fills⟩⟩ <;> simp [Except.mapError]

theorem checks_findFillInstruction {f : DecodedFill} (h : msg.singleFill = .ok f) :
    Checks (findFillInstruction msg) [] := by
  have hfills := (singleFill_eq_ok_iff.mp h).2
  have hmem : f ∈ msg.fills := hfills ▸ List.mem_singleton_self f
  obtain ⟨ix, hix, hf⟩ := List.mem_flatMap.mp hmem
  rw [show findFillInstruction msg = .ok ix from findFillInstruction_eq_ok_iff.mpr
    (find_fill hfills hix (List.ne_nil_of_mem hf))]
  exact .ok ix

theorem not_nodup_pubkeys_iff : ¬ (maker.fillAuthority = maker.makerBaseTokenAccount ∨
    maker.fillAuthority = maker.makerQuoteTokenAccount ∨
    maker.makerBaseTokenAccount = maker.makerQuoteTokenAccount) ↔ maker.pubkeys.Nodup := by
  simp [MakerAccounts.pubkeys, not_or, and_assoc]

theorem ok_of_staticMatches {key : Pubkey} {notFound duplicate : MakerValidationError} {i : UInt8}
    (h : onlyMatch notFound duplicate (staticMatches msg key) = .ok i) : i = keyIndex msg key :=
  eq_keyIndex (onlyMatch_eq_ok_iff.mp h)

variable (msg maker) in
/-- The indices expected in the slots of the leg. -/
def legSlots : List (ℕ × UInt8) :=
  [(legProgramId, keyIndex msg rfqV2ProgramIdBytes),
    (legFillAuthority, keyIndex msg maker.fillAuthority),
    (legMakerBaseTokenAccount, keyIndex msg maker.makerBaseTokenAccount),
    (legMakerQuoteTokenAccount, keyIndex msg maker.makerQuoteTokenAccount)]

theorem mem_legMatches_legSlots {f : DecodedFill} {ix : DecodedInstruction}
    (hfills : msg.fills = [f])
    (hfind : msg.instructions.find? (fun ix => !ix.fills.isEmpty) = some ix) (o : ℕ) :
    o ∈ legMatches ix.accountIndices (legSlots msg maker) ↔ LegAt msg maker o := by
  have hslots (ix : DecodedInstruction) : (∀ p ∈ legSlots msg maker,
      ix.accountIndices[o + p.1]? = some p.2) ↔ ∀ p ∈ [(0, rfqV2ProgramIdBytes),
        (4, maker.fillAuthority), (5, maker.makerBaseTokenAccount),
        (6, maker.makerQuoteTokenAccount)], ix.accountIndices[o + p.1]? = some (keyIndex msg p.2) := by
    simp [legSlots, legProgramId, legFillAuthority, legMakerBaseTokenAccount,
      legMakerQuoteTokenAccount]
  rw [mem_legMatches_iff, hslots]
  constructor
  · rintro ⟨hwidth, hleg⟩
    exact ⟨ix, List.mem_of_find?_eq_some hfind, by simpa using List.find?_some hfind, hwidth, hleg⟩
  · rintro ⟨ix', hix', hne, hwidth, hleg⟩
    obtain rfl := Option.some.inj ((find_fill hfills hix' hne).symm.trans hfind)
    exact ⟨hwidth, hleg⟩

/-- The search for the leg in the instruction with the fill: two legs are never found. -/
theorem checks_legMatches {f : DecodedFill} {ix : DecodedInstruction} (hf : msg.singleFill = .ok f)
    (hix : findFillInstruction msg = .ok ix)
    (hcount : msg.references.count (keyIndex msg rfqV2ProgramIdBytes) = 1) :
    Checks (onlyMatch .legNotFound .multipleLegMatches
      (legMatches ix.accountIndices (legSlots msg maker)))
      [⟨∃ o, LegAt msg maker o, .legNotFound⟩] := by
  have hfind := findFillInstruction_eq_ok_iff.mp hix
  have hleg (o : ℕ) : o ∈ legMatches ix.accountIndices (legSlots msg maker) ↔ LegAt msg maker o :=
    mem_legMatches_legSlots (singleFill_eq_ok_iff.mp hf).2 hfind o
  have hone : (legMatches ix.accountIndices (legSlots msg maker)).length ≤ 1 :=
    legMatches_length_le (count_accountIndices_le (List.mem_of_find?_eq_some hfind) hcount)
  intro e
  rw [onlyMatch_eq_error_iff, firstFailing_cons_iff, List.eq_nil_iff_forall_not_mem, not_exists]
  simp only [hleg, not_lt.mpr hone, not_firstFailing_nil, false_and, and_false, or_false]

/-- **The check fails with the error of the first condition that fails, and succeeds exactly if there
is none.** -/
theorem validateMakerAccounts_checklist (msg : DecodedMessage) (maker : MakerAccounts) :
    (∀ e, validateMakerAccounts msg maker = .error e ↔
      FirstFailing (makerConditions msg maker) e) ∧
    ((∃ report, validateMakerAccounts msg maker = .ok report) ↔
      Passes (makerConditions msg maker)) := by
  have hchecks : Checks (validateMakerAccounts msg maker) (makerConditions msg maker) := by
    unfold validateMakerAccounts uniqueStaticIndex uniqueRfqProgramIndex makerConditions
    refine (checks_rejectIf not_nodup_pubkeys_iff).bind fun _ _ => ?_
    refine (checks_onlyMatch _ _ _).bind fun i₀ h₀ => ?_
    refine (checks_onlyMatch _ _ _).bind fun i₁ h₁ => ?_
    refine (checks_onlyMatch _ _ _).bind fun i₂ h₂ => ?_
    obtain rfl := ok_of_staticMatches h₀
    obtain rfl := ok_of_staticMatches h₁
    obtain rfl := ok_of_staticMatches h₂
    refine (checks_rejectIf UInt8.not_le).bind fun _ _ => ?_
    refine (checks_rejectIf (by rw [Bool.not_eq_false, staticKeyIsWritable_iff])).bind fun _ _ => ?_
    refine (checks_rejectIf (by rw [Bool.not_eq_false, staticKeyIsWritable_iff])).bind fun _ _ => ?_
    refine (checks_onlyMatch _ _ _).bind fun i₃ h₃ => ?_
    obtain rfl := ok_of_staticMatches h₃
    refine checks_singleFill.bind fun f hf => ?_
    have hsingle := mapError_eq_ok_iff.mp hf
    refine (checks_findFillInstruction hsingle).bind fun ix hix => ?_
    refine (checks_rejectIf not_not).bind fun _ _ => ?_
    refine (checks_rejectIf not_not).bind fun _ _ => ?_
    refine (checks_rejectIf not_not).bind fun _ _ => ?_
    refine (checks_rejectIf not_not).bind fun _ hcount => ?_
    exact (checks_legMatches hsingle hix (not_not.mp (rejectIf_eq_ok_iff.mp hcount))).bind
      fun _ _ => .ok _
  exact ⟨hchecks, hchecks.exists_ok_iff⟩

end SolanaRfq
