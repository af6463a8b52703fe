import SolanaRfq.Program.Types
import SolanaRfq.Decoder.MakerCheck

/-!
# The on-chain exclusivity check

`check_fill_exclusivity` of `programs/solana-rfq-v2/src/handler.rs` walks the instructions sysvar
until the first load error.

* `InstructionsSysvar`: the sysvar with its two load functions; `checkFillExclusivity`: the check;
* **`checkFillExclusivity_eq`**: it fails exactly when another instruction has a protected key;
* **`checkFillExclusivity_agrees`**: it passes on every message the off-chain check accepts.
-/

namespace SolanaRfq

/-- The instructions sysvar: an instruction loads exactly below the instruction count, and the
current index is that of the executing instruction. -/
structure InstructionsSysvar where
  instructions : List ResolvedInstruction
  currentIndex : UInt16
  loadCurrentIndexChecked : Except ProgramError UInt16
  loadInstructionAtChecked : ℕ → Except ProgramError ResolvedInstruction
  current_eq : loadCurrentIndexChecked = .ok currentIndex
  load_eq_ok_iff : ∀ i ix, loadInstructionAtChecked i = .ok ix ↔ instructions[i]? = some ix

namespace InstructionsSysvar

theorem lt_of_load {s : InstructionsSysvar} {i : ℕ} {ix : ResolvedInstruction}
    (h : s.loadInstructionAtChecked i = .ok ix) : i < s.instructions.length := by
  obtain ⟨hlt, -⟩ := List.getElem?_eq_some_iff.mp ((s.load_eq_ok_iff i ix).mp h)
  exact hlt

end InstructionsSysvar

/-- The loop of `check_fill_exclusivity` from instruction `idx` on. It ends because an instruction
loads only below the instruction count. -/
def checkFillExclusivityLoop (s : InstructionsSysvar) (protectedKeys : List Pubkey) (current : ℕ)
    (idx : ℕ) : Except ProgramError Unit :=
  match h : s.loadInstructionAtChecked idx with
  | .error _ => .ok ()
  | .ok ix =>
    if idx ≠ current ∧ ∃ key ∈ ix.accounts, key ∈ protectedKeys then
      .error (.code .makerAppearsInOtherInstruction)
    else checkFillExclusivityLoop s protectedKeys current (idx + 1)
termination_by s.instructions.length - idx
decreasing_by
  have := InstructionsSysvar.lt_of_load h
  omega

/-- No other instruction of the transaction lists a protected key. -/
def checkFillExclusivity (s : InstructionsSysvar) (protectedKeys : List Pubkey) :
    Except ProgramError Unit := do
  let current ← s.loadCurrentIndexChecked
  checkFillExclusivityLoop s protectedKeys current.toNat 0

/-! ## The exact meaning of the check -/

/-- An instruction other than the current one has a protected key among its accounts. -/
def ProtectedElsewhere (ixs : List ResolvedInstruction) (protectedKeys : List Pubkey)
    (current : ℕ) : Prop :=
  ∃ (i : ℕ) (ix : ResolvedInstruction), i ≠ current ∧ ixs[i]? = some ix ∧
    ∃ key ∈ ix.accounts, key ∈ protectedKeys

/-- `ProtectedElsewhere` from instruction `idx` on. -/
def ProtectedFrom (ixs : List ResolvedInstruction) (protectedKeys : List Pubkey)
    (current idx : ℕ) : Prop :=
  ∃ (i : ℕ) (ix : ResolvedInstruction), idx ≤ i ∧ i ≠ current ∧ ixs[i]? = some ix ∧
    ∃ key ∈ ix.accounts, key ∈ protectedKeys

theorem protectedFrom_zero_iff {ixs : List ResolvedInstruction} {protectedKeys : List Pubkey}
    {current : ℕ} : ProtectedFrom ixs protectedKeys current 0 ↔
      ProtectedElsewhere ixs protectedKeys current := by
  simp only [ProtectedFrom, ProtectedElsewhere, Nat.zero_le, true_and]

theorem protectedFrom_succ_iff {ixs : List ResolvedInstruction} {protectedKeys : List Pubkey}
    {current idx : ℕ} {ix : ResolvedInstruction} (hix : ixs[idx]? = some ix)
    (hpass : ¬ (idx ≠ current ∧ ∃ key ∈ ix.accounts, key ∈ protectedKeys)) :
    ProtectedFrom ixs protectedKeys current idx ↔
      ProtectedFrom ixs protectedKeys current (idx + 1) := by
  constructor
  · rintro ⟨i, ix', hi, hne, hix', hkey⟩
    rcases Nat.eq_or_lt_of_le hi with heq | hlt
    · subst heq
      obtain rfl : ix = ix' := Option.some.inj (hix.symm.trans hix')
      exact absurd ⟨hne, hkey⟩ hpass
    · exact ⟨i, ix', hlt, hne, hix', hkey⟩
  · rintro ⟨i, ix', hi, hrest⟩
    exact ⟨i, ix', by omega, hrest⟩

theorem checkFillExclusivityLoop_spec (s : InstructionsSysvar) (protectedKeys : List Pubkey)
    (current idx : ℕ) :
    (ProtectedFrom s.instructions protectedKeys current idx →
      checkFillExclusivityLoop s protectedKeys current idx =
        .error (.code .makerAppearsInOtherInstruction)) ∧
    (¬ ProtectedFrom s.instructions protectedKeys current idx →
      checkFillExclusivityLoop s protectedKeys current idx = .ok ()) := by
  fun_induction checkFillExclusivityLoop s protectedKeys current idx with
  | case1 idx e h =>
    -- past the last instruction nothing is left to find
    refine ⟨?_, fun _ => rfl⟩
    rintro ⟨i, ix, hi, -, hix, -⟩
    obtain ⟨hlt, -⟩ := List.getElem?_eq_some_iff.mp hix
    have hload := (s.load_eq_ok_iff idx _).mpr (List.getElem?_eq_getElem (hi.trans_lt hlt))
    rw [h] at hload
    cases hload
  | case2 idx ix h hbad =>
    refine ⟨fun _ => rfl, fun hnone => ?_⟩
    exact absurd ⟨idx, ix, le_rfl, hbad.1, (s.load_eq_ok_iff idx ix).mp h, hbad.2⟩ hnone
  | case3 idx ix h hgood ih =>
    rw [protectedFrom_succ_iff ((s.load_eq_ok_iff idx ix).mp h) hgood]
    exact ih

/-- **The check fails exactly when another instruction has a protected key.** -/
theorem checkFillExclusivity_eq (s : InstructionsSysvar) (protectedKeys : List Pubkey) :
    (ProtectedElsewhere s.instructions protectedKeys s.currentIndex.toNat →
      checkFillExclusivity s protectedKeys = .error (.code .makerAppearsInOtherInstruction)) ∧
    (¬ ProtectedElsewhere s.instructions protectedKeys s.currentIndex.toNat →
      checkFillExclusivity s protectedKeys = .ok ()) := by
  have hstart : checkFillExclusivity s protectedKeys =
      checkFillExclusivityLoop s protectedKeys s.currentIndex.toNat 0 := by
    rw [checkFillExclusivity, s.current_eq]
    rfl
  rw [hstart, ← protectedFrom_zero_iff]
  exact checkFillExclusivityLoop_spec s protectedKeys s.currentIndex.toNat 0

/-! ## Agreement with the off-chain check -/

theorem MakerSound.not_elsewhere {msg : DecodedMessage} {maker : MakerAccounts}
    {report : MakerValidationReport} {ixs : List ResolvedInstruction}
    (h : MakerSound msg maker report ixs) :
    ¬ ProtectedElsewhere ixs maker.pubkeys report.instructionIndex := by
  rintro ⟨i, ix, hne, hix, key, hkey, hmaker⟩
  obtain ⟨leg, hleg, -, -, hfa, hbase, hquote, -⟩ := h.leg
  have hmem : key ∈ leg.references := by
    refine List.mem_cons_of_mem _ ?_
    simp only [MakerAccounts.pubkeys, List.mem_cons, List.not_mem_nil, or_false] at hmaker
    rcases hmaker with rfl | rfl | rfl
    · exact List.mem_of_getElem? hfa
    · exact List.mem_of_getElem? hbase
    · exact List.mem_of_getElem? hquote
  exact not_mem_of_count_flatMap (h.once key (List.mem_cons_of_mem _ hmaker)) hleg hmem i ix hne hix
    (List.mem_cons_of_mem _ hkey)

/-- **The on-chain check passes wherever the off-chain check does, and fails exactly on a protected
key in another instruction.** -/
theorem checkFillExclusivity_agrees :
    (∀ (b : List UInt8) (msg : DecodedMessage) (maker : MakerAccounts)
      (report : MakerValidationReport) (r : Resolution msg) (s : InstructionsSysvar),
      DecodedFrom b msg → validateMakerAccounts msg maker = .ok report →
      r.resolveAll = some s.instructions → s.currentIndex.toNat = report.instructionIndex →
      checkFillExclusivity s maker.pubkeys = .ok ()) ∧
    ∀ (s : InstructionsSysvar) (protectedKeys : List Pubkey),
      checkFillExclusivity s protectedKeys = .error (.code .makerAppearsInOtherInstruction) ↔
        ProtectedElsewhere s.instructions protectedKeys s.currentIndex.toNat := by
  refine ⟨fun b msg maker report r s hb h hres hcur => ?_, fun s protectedKeys => ?_⟩
  · have hmsg := hb.wellFormed
    have hsound := (validateMakerAccounts_eq_ok_iff.mp h).sound hmsg r
    rw [r.resolveAll_eq hmsg] at hres
    rw [Option.some.inj hres] at hsound
    refine (checkFillExclusivity_eq s maker.pubkeys).2 ?_
    rw [hcur]
    exact hsound.not_elsewhere
  · obtain ⟨hfail, hpass⟩ := checkFillExclusivity_eq s protectedKeys
    refine ⟨fun h => ?_, hfail⟩
    by_contra hnone
    rw [hpass hnone] at h
    exact absurd h (by simp)

/-- The sysvar of a list of instructions. -/
def InstructionsSysvar.ofList (instructions : List ResolvedInstruction) (currentIndex : UInt16) :
    InstructionsSysvar where
  instructions := instructions
  currentIndex := currentIndex
  loadCurrentIndexChecked := .ok currentIndex
  loadInstructionAtChecked i :=
    match instructions[i]? with
    | some ix => .ok ix
    | none => .error (.runtime 0)
  current_eq := rfl
  load_eq_ok_iff i ix := by cases instructions[i]? <;> simp

/-- The sample leg passes on chain, and fails with a copy of itself behind it. -/
theorem checkFillExclusivity_sample :
    ∃ ixs, sampleResolution.resolveAll = some ixs ∧
      checkFillExclusivity (.ofList ixs 0) sampleMaker.pubkeys = .ok () ∧
      checkFillExclusivity (.ofList (ixs ++ ixs) 0) sampleMaker.pubkeys =
        .error (.code .makerAppearsInOtherInstruction) := by
  have hmsg := decodedFrom_sampleLegMessage.wellFormed
  refine ⟨_, sampleResolution.resolveAll_eq hmsg, ?_, ?_⟩
  · exact checkFillExclusivity_agrees.1 _ _ sampleMaker ⟨0, 0, 0, 1, 2, 3⟩ sampleResolution
      (.ofList _ 0) decodedFrom_sampleLegMessage (by decide +kernel)
      (sampleResolution.resolveAll_eq hmsg) rfl
  · refine (checkFillExclusivity_agrees.2 _ _).mpr ⟨1, _, by decide, rfl, ?_⟩
    decide +kernel

end SolanaRfq
