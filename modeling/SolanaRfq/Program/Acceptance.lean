import SolanaRfq.Decoder.DecodeTx
import SolanaRfq.Program.Exposure

/-!
# From the decision of the maker to the chain

`decode-tx` reads a transaction before it is signed; the chain executes it later, with the keys that
its lookup tables load. Whatever these are, the accounts of an accepted maker are reached in one
instruction only, and so is this program.

* `MakerSound.not_referenced`: no other instruction refers to the keys of the check;
* `FilledIn`: what happens to the maker in a run of the transaction;
* **`accepted_filledIn`**: exit code 0 gives it, for every run of the resolved transaction;
* **`accepted_makerValue_le`**: an accepted transaction does not lower the value of a maker whose
  accounts are guarded where it is filled.
-/

namespace SolanaRfq

open TracedRun

variable {rt : Runtime} {ixs : List ResolvedInstruction}

/-! ## One instruction -/

section Sound

variable {msg : DecodedMessage} {maker : MakerAccounts} {report : MakerValidationReport}

theorem MakerSound.not_referenced (h : MakerSound msg maker report ixs) {key : Pubkey}
    (hkey : key ∈ rfqV2ProgramIdBytes :: maker.pubkeys) {j : ℕ} (hj : j ≠ report.instructionIndex)
    {ix : ResolvedInstruction} (hix : ixs[j]? = some ix) : key ∉ ix.references := by
  obtain ⟨leg, hleg, -, hprogram, hauthority, hbase, hquote, -⟩ := h.leg
  have hmem : key ∈ leg.accounts := by
    simp only [MakerAccounts.pubkeys, List.mem_cons, List.not_mem_nil, or_false] at hkey
    rcases hkey with rfl | rfl | rfl | rfl
    · exact List.mem_of_getElem? hprogram
    · exact List.mem_of_getElem? hauthority
    · exact List.mem_of_getElem? hbase
    · exact List.mem_of_getElem? hquote
  exact not_mem_of_count_flatMap (h.once key hkey) hleg (List.mem_cons_of_mem _ hmem) j ix hj hix

theorem MakerSound.not_listed (h : MakerSound msg maker report ixs) {key : Pubkey}
    (hkey : key ∈ maker.pubkeys) {j : ℕ} (hj : j ≠ report.instructionIndex) :
    ∀ ix, ixs[j]? = some ix → key ∉ ix.accounts := fun _ hix hmem =>
  h.not_referenced (List.mem_cons_of_mem _ hkey) hj hix (List.mem_cons_of_mem _ hmem)

theorem MakerSound.makes_eq (h : MakerSound msg maker report ixs) {e : Execution rt ixs} {j : ℕ}
    {f : FillCall} (hf : Makes e j f) : j = report.instructionIndex := by
  by_contra hne
  obtain ⟨hplaced, -⟩ := hf.spec
  obtain ⟨ix, hix, hprogram, -⟩ := hplaced.listed
  exact h.not_referenced List.mem_cons_self hne hix hprogram

theorem MakerSound.lt_length (h : MakerSound msg maker report ixs) :
    report.instructionIndex < ixs.length := by
  obtain ⟨leg, hleg, -⟩ := h.leg
  exact (List.getElem?_eq_some_iff.mp hleg).1

/-- The calls of the whole run are those of the reported instruction. -/
theorem MakerSound.fullTrace_eq (h : MakerSound msg maker report ixs) (e : Execution rt ixs) :
    e.fullTrace = e.trace report.instructionIndex := by
  refine e.fullTrace_eq h.lt_length fun j hj hne => ?_
  exact List.eq_nil_iff_forall_not_mem.mpr fun f hf => hne (h.makes_eq ⟨hj, hf⟩)

end Sound

/-! ## The run of an accepted transaction -/

/-- In the run `e` everything happens to the maker in instruction `i`, a swap of the aggregator: its
accounts do not change elsewhere, and no other instruction calls this program, for any maker. -/
structure FilledIn (maker : MakerAccounts) (e : Execution rt ixs) (i : ℕ) : Prop where
  swap : ∃ ix, ixs[i]? = some ix ∧ isDexSolanaV3Program ix.programId
  before : ∀ key ∈ maker.pubkeys, ∀ j ≤ i,
    (e.state j).ledger.tokens key = (e.state 0).ledger.tokens key
  after : ∀ key ∈ maker.pubkeys, ∀ j, i < j → j ≤ ixs.length →
    (e.state j).ledger.tokens key = (e.state (i + 1)).ledger.tokens key
  calls : ∀ j f, Makes e j f → j = i
  events : (e.state ixs.length).events = (e.state 0).events ++ (e.trace i).map FillCall.event

theorem MakerSound.filledIn {msg : DecodedMessage} {maker : MakerAccounts}
    {report : MakerValidationReport} (h : MakerSound msg maker report ixs) (e : Execution rt ixs) :
    FilledIn maker e report.instructionIndex := by
  have hisolated (key : Pubkey) (hkey : key ∈ maker.pubkeys) :=
    e.isolated (fun w => w.ledger.tokens key) report.instructionIndex fun j _ hj _ _ _ hstep =>
      hstep.tokens_eq (h.not_listed hkey hj)
  refine ⟨?_, fun key hkey j hj => ?_, fun key hkey => (hisolated key hkey).2,
    fun _ _ => h.makes_eq, ?_⟩
  · obtain ⟨leg, hleg, -, -, -, -, -, hdex⟩ := h.leg
    exact ⟨leg, hleg, hdex⟩
  · exact (hisolated key hkey).1 j hj (hj.trans h.lt_length.le)
  · rw [← h.fullTrace_eq e]
    exact ((Transacted.committed rt ixs e).run.within composable_chain_log
      fun _ _ _ hstep => hstep.log).1

/-! ## The decision -/

section Decision

variable {host : Host} {args : Args} {t : ParsedTransaction} {maker : MakerArgs}
  {keys : MakerAccounts}

theorem exists_report_of_exitCode (h : exitCode host args = 0) (ht : Received host args t)
    (hmaker : args.maker = some maker) (hkeys : KeysOf host maker keys) :
    ∃ report, validateMakerAccounts t.decoded keys = .ok report := by
  rw [exists_report_iff ht.accepted.wellFormed]
  by_contra hnone
  rw [not_exists] at hnone
  have hreadable : KeysReadable host args := fun maker' hmaker' => by
    obtain rfl := Option.some.inj (hmaker.symm.trans hmaker')
    exact ⟨keys, hkeys⟩
  have hother (n : ℕ) (hn : n ≠ 0) (hverdict : Verdict host args n) : False :=
    hn (hverdict.exitCode_eq.symm.trans h)
  by_cases hrefused : RefusedSwap t.message
  · exact hother 6 (by decide) (.refused t ht hreadable hrefused)
  · have hlegs := messageLegs_iff.mpr (rfl : t.decoded.fills = t.decoded.fills)
    by_cases hcount : t.decoded.fills.length = 1
    · obtain ⟨fill, hfill⟩ := List.length_eq_one_iff.mp hcount
      rw [hfill] at hlegs
      exact hother 3 (by decide) (.misplaced t fill maker keys ht hrefused hlegs hmaker hkeys hnone)
    · exact hother 4 (by decide) (.fillCount t _ ht hreadable hrefused hlegs hcount)

theorem exists_makerSound (h : exitCode host args = 0) (ht : Received host args t)
    (hmaker : args.maker = some maker) (hkeys : KeysOf host maker keys) (r : Resolution t.decoded)
    (hixs : r.resolveAll = some ixs) :
    ∃ report, MakerCheck t.decoded keys report ∧ MakerSound t.decoded keys report ixs := by
  obtain ⟨report, hreport⟩ := exists_report_of_exitCode h ht hmaker hkeys
  have hcheck := validateMakerAccounts_eq_ok_iff.mp hreport
  have hmsg := ht.accepted.wellFormed
  rw [r.resolveAll_eq hmsg] at hixs
  obtain rfl := Option.some.inj hixs
  exact ⟨report, hcheck, hcheck.sound hmsg r⟩

/-- **When the chain runs an accepted transaction, whatever keys its lookup tables load, everything
happens to the maker in one instruction.** -/
theorem accepted_filledIn (h : exitCode host args = 0) (ht : Received host args t)
    (hmaker : args.maker = some maker) (hkeys : KeysOf host maker keys) (r : Resolution t.decoded)
    (hixs : r.resolveAll = some ixs) (e : Execution rt ixs) : ∃ i, FilledIn keys e i := by
  obtain ⟨report, -, hsound⟩ := exists_makerSound h ht hmaker hkeys r hixs
  exact ⟨_, hsound.filledIn e⟩

/-! ### A sample decision -/

/-- A swap with one route, the sample bid. -/
def sampleFillArgs : Idl.SwapArgs where
  orderId := 1
  amountIn := 150
  expectAmountOut := 10
  slippage := 0
  routes := ⟨[⟨.solRfqV2 .bid 7 100 ⟨sampleParams.levels, by decide⟩, 10000, 0⟩], by decide⟩

/-- Another program funds the quote account of the user, then the aggregator fills the bid. The mints,
the token programs, the sysvar and the event authority are loaded. -/
def sampleFillMessage : ParsedMessage where
  version := .v0
  header := ⟨2, 1, 3⟩
  staticAccountKeys := [sampleKey 1, sampleKey 2, sampleKey 5, sampleKey 6, sampleKey 3, sampleKey 4,
    rfqV2ProgramIdBytes, dexSolanaV3ProgramIdBytes, sampleKey 10]
  recentBlockhash := sampleKey 9
  instructions := [⟨8, [0, 5], [2]⟩,
    ⟨7, [0, 6, 0, 5, 4, 1, 2, 3, 9, 10, 11, 12, 13, 14], Entrypoint.swap ++ sampleFillArgs.encode⟩]
  addressTableLookups := [⟨sampleKey 11, [], [0, 1, 2, 3, 4, 5]⟩]
  transactionConfig := none

/-- The sample message with the signatures of its two signers. -/
def sampleFillTransaction : ParsedTransaction :=
  ⟨[List.Vector.replicate 64 7, List.Vector.replicate 64 8], sampleFillMessage⟩

/-- The maker of the sample world. -/
def sampleFillMaker : MakerAccounts := ⟨sampleKey 2, sampleKey 5, sampleKey 6⟩

/-- The base64 text of the transaction. -/
def sampleFillText : String :=
  "AgcHBwcHBwcHBwcHBwcHBwcHBwcHBwcHBwcHBwcHBwcHBwcHBwcHBwcHBwcHBwcHBwcHBwcHBwcHBwcHBwcH" ++
    "BwcICAgICAgICAgICAgICAgICAgICAgICAgICAgICAgICAgICAgICAgICAgICAgICAgICAgICAgICAgICAgI" ++
    "CAgIgAIBAwkBAQEBAQEBAQEBAQEBAQEBAQEBAQEBAQEBAQEBAQEBAQICAgICAgICAgICAgICAgICAgICAgIC" ++
    "AgICAgICAgICBQUFBQUFBQUFBQUFBQUFBQUFBQUFBQUFBQUFBQUFBQUGBgYGBgYGBgYGBgYGBgYGBgYGBgYG" ++
    "BgYGBgYGBgYGBgMDAwMDAwMDAwMDAwMDAwMDAwMDAwMDAwMDAwMDAwMDBAQEBAQEBAQEBAQEBAQEBAQEBAQE" ++
    "BAQEBAQEBAQEBAQGNjfQgU42PigXPKZdBOE1rZu6wW3w/w0/2Fp0ahSiPgxCm9fBj1D4FW2a/Bzd5y32aNmr" ++
    "O+yva1cNV2ZkWtnICgoKCgoKCgoKCgoKCgoKCgoKCgoKCgoKCgoKCgoKCgoJCQkJCQkJCQkJCQkJCQkJCQkJ" ++
    "CQkJCQkJCQkJCQkJCQIIAgAFAQIHDgAGAAUEAQIDCQoLDA0OX/jGnpHhdYfIAQAAAAAAAACWAAAAAAAAAAoA" ++
    "AAAAAAAAAAABAAAAdQAHAAAAAAAAAGQAAAAAAAAAAgAAAAoAAAAAAAAAZAAAAAAAAAAKAAAAAAAAAG4AAAAA" ++
    "AAAAECcAAQsLCwsLCwsLCwsLCwsLCwsLCwsLCwsLCwsLCwsLCwsLAAYAAQIDBAU="

def sampleMakerArgs : MakerArgs where
  fillAuthority := "8qbHbw2BbbTHBW1sbeqakYXVKRQM8Ne7pLK7m6CVfeR"
  makerBaseTokenAccount := "LbUiWL3xVV8hTFYBVdbTNrpDo41NKS6o3LHHuDzjfcY"
  makerQuoteTokenAccount := "QWmroo4YnnMqYW3cnxWkFdaTxGD3P7vMSzwMHGbUzwF"

/-- A host that knows the codes of the sample. -/
def sampleHost : Host where
  base64 s := if s = trimText sampleFillText then
      some (encodeCompactTransaction sampleFillTransaction)
    else none
  bs58 s :=
    if s = sampleMakerArgs.fillAuthority then .ok (sampleKey 2).toList
    else if s = sampleMakerArgs.makerBaseTokenAccount then .ok (sampleKey 5).toList
    else if s = sampleMakerArgs.makerQuoteTokenAccount then .ok (sampleKey 6).toList
    else .error "provided string contained invalid character"
  fetchTxBase64 _ _ := .error "error sending request"
  debug s := s!"\"{s}\""

def sampleArgs : Args := ⟨some sampleFillText, none, none, some sampleMakerArgs, false⟩

theorem keysOf_sample : KeysOf sampleHost sampleMakerArgs sampleFillMaker where
  fillAuthority := by simp [sampleHost, sampleFillMaker]
  makerBase := by simp [sampleHost, sampleMakerArgs, sampleFillMaker]
  makerQuote := by simp [sampleHost, sampleMakerArgs, sampleFillMaker]

theorem accepted_sampleFillMessage : Accepted sampleFillMessage :=
  ⟨by decide +kernel, by decide +kernel, by decide +kernel, by decide +kernel, by decide +kernel⟩

theorem received_sample : Received sampleHost sampleArgs sampleFillTransaction := by
  have hparse := parseTransaction_encode (t := sampleFillTransaction)
    ⟨by decide +kernel, ⟨⟨rfl, by decide +kernel, by decide +kernel, by decide +kernel,
      by decide +kernel⟩, by decide, by decide⟩⟩ (by decide +kernel) []
  rw [List.append_nil] at hparse
  have hbytes : sampleHost.base64 (trimText sampleFillText) =
      some (encodeCompactTransaction sampleFillTransaction) := by simp only [sampleHost, if_true]
  exact ⟨sampleFillText, _, .base64 _ rfl rfl, hbytes, hparse, by decide +kernel,
    accepted_sampleFillMessage⟩

theorem legPlaced_sampleFillMessage :
    LegPlaced (extractFills (bareMessage sampleFillMessage)) sampleFillMaker 1 := by
  have hreport : validateMakerAccounts (extractFills (bareMessage sampleFillMessage))
      sampleFillMaker = .ok ⟨1, 1, 1, 2, 3, 6⟩ := by decide +kernel
  exact (validateMakerAccounts_eq_ok_iff.mp hreport).legPlaced accepted_sampleFillMessage.wellFormed

theorem exitCode_sample : exitCode sampleHost sampleArgs = 0 := by
  refine Verdict.exitCode_eq (.accepted _ ⟨.bid, 7, 100, sampleParams.levels⟩ received_sample ?_ ?_ ?_)
  · exact not_refused_iff.mp (by decide +kernel)
  · exact messageLegs_iff.mpr (by decide +kernel)
  · rintro maker ⟨⟩
    exact ⟨sampleFillMaker, 1, keysOf_sample, legPlaced_sampleFillMessage⟩

/-- The keys that the lookup table of the sample loads. -/
def sampleFillResolution : Resolution (extractFills (bareMessage sampleFillMessage)) where
  loaded := [sampleKey 7, sampleKey 8, sampleKey 12, sampleKey 13, sampleKey 14, sampleKey 15]
  length_loaded := by decide
  disjoint := by
    simp only [List.forall_mem_cons, List.not_mem_nil, IsEmpty.forall_iff, implies_true, and_true]
    refine ⟨?_, ?_, ?_, ?_, ?_, ?_⟩ <;> decide +kernel

def sampleFillInstructions : List ResolvedInstruction :=
  [⟨sampleKey 10, [sampleKey 1, sampleKey 4]⟩,
    ⟨dexSolanaV3ProgramIdBytes, [sampleKey 1, rfqV2ProgramIdBytes, sampleKey 1, sampleKey 4,
      sampleKey 3, sampleKey 2, sampleKey 5, sampleKey 6, sampleKey 7, sampleKey 8, sampleKey 12,
      sampleKey 13, sampleKey 14, sampleKey 15]⟩]

theorem resolveAll_sample : sampleFillResolution.resolveAll = some sampleFillInstructions := by
  decide +kernel

/-! ### A run of the sample -/

/-- Before the user has quote atoms. -/
def unfundedWorld : World :=
  { sampleWorld with
    ledger := sampleWorld.ledger.setToken (sampleKey 4) ⟨.token, sampleKey 8, sampleKey 1, 0, 0⟩ }

def sampleFillCall : FillCall := sampleCallIn sampleFillInstructions 1

theorem sampleFillCall_run : (sampleFillCall.run (.ofClock ⟨5, 100⟩)).1 = .ok () := by
  decide +kernel

def boughtWorld : World := (sampleFillCall.run (.ofClock ⟨5, 100⟩)).2

/-- The aggregator has taken an atom of what the user bought. -/
def chargedWorld : World :=
  { boughtWorld with
    ledger := boughtWorld.ledger.setToken (sampleKey 3)
      ⟨.token2022, sampleKey 7, sampleKey 1, 13, 0⟩ }

theorem instructionStep_funded : InstructionStep (.ofClock ⟨5, 100⟩) sampleFillInstructions 0
    unfundedWorld [] sampleWorld := by
  refine .foreign unfundedWorld sampleWorld.ledger _ rfl fun k hk => ⟨?_, rfl⟩
  refine (Ledger.setToken_tokens_of_ne _ _ ?_).symm
  rintro rfl
  exact hk (by decide)

theorem instructionStep_bought : InstructionStep (.ofClock ⟨5, 100⟩) sampleFillInstructions 1
    sampleWorld [sampleFillCall] boughtWorld := by
  refine .fill sampleFillCall _ ⟨rfl, rfl, _, rfl, by decide +kernel, ?_⟩
    (Prod.ext sampleFillCall_run rfl)
  show ∀ k ∈ [_, _, _, _, _, _, _, _], k ∈ _
  simp only [List.forall_mem_cons, List.not_mem_nil, IsEmpty.forall_iff, implies_true, and_true]
  refine ⟨?_, ?_, ?_, ?_, ?_, ?_, ?_, ?_⟩ <;> decide +kernel

theorem instructionStep_charged : InstructionStep (.ofClock ⟨5, 100⟩) sampleFillInstructions 1
    boughtWorld [] chargedWorld :=
  .setToken boughtWorld _ rfl (by decide)

def sampleFillExecution : Execution (.ofClock ⟨5, 100⟩) sampleFillInstructions where
  state
    | 0 => unfundedWorld
    | 1 => sampleWorld
    | _ => chargedWorld
  trace
    | 1 => [sampleFillCall]
    | _ => []
  run
    | 0, _ => Run.single instructionStep_funded
    | 1, _ => .cons instructionStep_bought (Run.single instructionStep_charged)

/-- The aggregator's instruction makes the call, and all that happens to the maker happens there. -/
theorem accepted_filledIn_sample : Makes sampleFillExecution 1 sampleFillCall ∧
    FilledIn sampleFillMaker sampleFillExecution 1 := by
  have hmakes : Makes sampleFillExecution 1 sampleFillCall := ⟨by decide, List.mem_cons_self⟩
  obtain ⟨i, hfilled⟩ := accepted_filledIn exitCode_sample received_sample rfl keysOf_sample
    sampleFillResolution resolveAll_sample sampleFillExecution
  rw [← hfilled.calls 1 _ hmakes] at hfilled
  exact ⟨hmakes, hfilled⟩

/-! ## The value of an accepted maker -/

/-- **An accepted transaction does not lower the value of its maker**, if the calls in it quote no
better than the price and the maker's accounts are guarded in the instruction that lists them. -/
theorem accepted_makerValue_le {price : ℚ} (h0 : 0 ≤ price) (h : exitCode host args = 0)
    (ht : Received host args t) (hmaker : args.maker = some maker) (hkeys : KeysOf host maker keys)
    (r : Resolution t.decoded) (hixs : r.resolveAll = some ixs) (e : Execution rt ixs)
    (hguard : ∀ i ix, ixs[i]? = some ix → keys.makerBaseTokenAccount ∈ ix.accounts →
      Run (GuardedStep [keys.makerBaseTokenAccount, keys.makerQuoteTokenAccount]) (e.state i)
        (e.trace i) (e.state (i + 1)))
    (hcalls : ∀ i f, Makes e i f →
      SafeFor price keys.makerBaseTokenAccount keys.makerQuoteTokenAccount f) :
    makerValue price keys.makerBaseTokenAccount keys.makerQuoteTokenAccount (e.state 0) ≤
      makerValue price keys.makerBaseTokenAccount keys.makerQuoteTokenAccount
        (e.state ixs.length) := by
  obtain ⟨report, hcheck, hsound⟩ := exists_makerSound h ht hmaker hkeys r hixs
  obtain ⟨leg, hleg, -, -, -, hbase, -⟩ := hsound.leg
  have hlisted : ∀ k ∈ [keys.makerBaseTokenAccount, keys.makerQuoteTokenAccount], ∀ j,
      j ≠ report.instructionIndex → ∀ ix, ixs[j]? = some ix → k ∉ ix.accounts := fun k hk _ hj =>
    hsound.not_listed (List.mem_cons_of_mem _ hk) hj
  have hrun := guarded_of_listed e hlisted (hguard _ leg hleg (List.mem_of_getElem? hbase))
  refine hrun.within (composable_makerValue _ _ _)
    (fun _ _ _ hstep => hstep.le_makerValue h0 hcheck.distinct.2.2) fun f hf => ?_
  obtain ⟨i, hi, hmem⟩ := e.mem_fullTrace.mp hf
  exact hcalls i f ⟨hi, hmem⟩

theorem guardedRun_sampleFill : Run (GuardedStep [sampleKey 5, sampleKey 6]) sampleWorld
    [sampleFillCall] chargedWorld := by
  have hbought : GuardedStep [sampleKey 5, sampleKey 6] sampleWorld [sampleFillCall] boughtWorld :=
    ⟨⟨_, _, 1, instructionStep_bought⟩, fun hnil => absurd hnil (List.cons_ne_nil _ _)⟩
  exact .cons hbought (Run.single (.setToken ⟨_, _, 1, instructionStep_charged⟩ (by decide)))

/-- The maker of the sample has sold 14 base atoms for 150 quote atoms, at ten or more each. -/
theorem accepted_makerValue_le_sample :
    makerValue 10 (sampleKey 5) (sampleKey 6) (sampleFillExecution.state 0) = 430 ∧
      makerValue 10 (sampleKey 5) (sampleKey 6) (sampleFillExecution.state 2) = 440 ∧
      makerValue 10 (sampleKey 5) (sampleKey 6) (sampleFillExecution.state 0) ≤
        makerValue 10 (sampleKey 5) (sampleKey 6) (sampleFillExecution.state 2) := by
  refine ⟨?_, ?_, ?_⟩
  · have hbase : (sampleFillExecution.state 0).ledger.atoms (sampleKey 5) = 43 := by decide +kernel
    have hquote : (sampleFillExecution.state 0).ledger.atoms (sampleKey 6) = 0 := by decide +kernel
    rw [makerValue, hbase, hquote]
    norm_num
  · have hbase : (sampleFillExecution.state 2).ledger.atoms (sampleKey 5) = 29 := by decide +kernel
    have hquote : (sampleFillExecution.state 2).ledger.atoms (sampleKey 6) = 150 := by
      decide +kernel
    rw [makerValue, hbase, hquote]
    norm_num
  · refine accepted_makerValue_le (by norm_num) exitCode_sample received_sample rfl keysOf_sample
      sampleFillResolution resolveAll_sample sampleFillExecution (fun i ix hix hmem => ?_)
      fun i f hf => ?_
    · match i with
      | 0 =>
        obtain rfl := Option.some.inj hix
        exact absurd hmem (by decide)
      | 1 => exact guardedRun_sampleFill
    · match i with
      | 0 => exact absurd hf.2 List.not_mem_nil
      | 1 =>
        rw [List.mem_singleton.mp hf.2]
        exact .inl (quotedAt_sampleCallIn _ _)

end Decision

end SolanaRfq
