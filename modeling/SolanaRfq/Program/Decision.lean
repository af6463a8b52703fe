import SolanaRfq.Program.Call

/-!
# The decision of the handler

The handler decides before it acts: a fallible computation without effects rejects the call or finds
what it pays out, and only then come the two transfers and the event.

* `FillCall.decision`: the checks and the sweep; `FillCall.payments`: the transfers and the event;
* **`run_eq`**: the handler is its decision and then its payments;
* `Accepts`, `Refused`: the conditions of a call, and which error the first failing one gives;
  `SweepRefusal`: the codes of its sweep;
* **`run_eq_ok_iff`**: when a call succeeds, and what it leaves;
* **`run_eq_code_iff`**: which call fails with which code, and that it changes nothing.
-/

namespace SolanaRfq

open Fallible Transaction

variable (rt : Runtime) (f : FillCall)

/-! ## Deciding and acting -/

/-- The mint of the atoms the taker pays in. -/
def FillExactIn.mintIn {ledger : Ledger} (accounts : FillExactIn ledger) : Side → Loaded ledger.mints
  | .bid => accounts.quoteMint
  | .ask => accounts.baseMint

/-- The mint of the atoms the taker receives. -/
def FillExactIn.mintOut {ledger : Ledger} (accounts : FillExactIn ledger) :
    Side → Loaded ledger.mints
  | .bid => accounts.baseMint
  | .ask => accounts.quoteMint

/-- The token program of the atoms the taker pays in. -/
def FillExactIn.programIn {ledger : Ledger} (accounts : FillExactIn ledger) : Side → TokenProgram
  | .bid => accounts.quoteTokenProgram
  | .ask => accounts.baseTokenProgram

/-- The token program of the atoms the taker receives. -/
def FillExactIn.programOut {ledger : Ledger} (accounts : FillExactIn ledger) : Side → TokenProgram
  | .bid => accounts.baseTokenProgram
  | .ask => accounts.quoteTokenProgram

namespace FillCall

/-- The checks in front of the sweep. -/
def checks : Except ProgramError Unit := do
  require (f.amountInAtoms > 0) .zeroAmountIn
  require (f.params.levels ≠ []) .emptyLevels
  let clock ← clockGet rt
  require (clock.unixTimestamp ≤ f.params.expireAt) .staleOrderbook
  checkMintCompatibility rt f.accounts.baseMint.data clock.epoch
  checkMintCompatibility rt f.accounts.quoteMint.data clock.epoch
  checkFillExclusivity f.accounts.instructionsSysvar f.accounts.protectedKeys

/-- The checks and the sweep: what the call pays out. -/
def decision : Except ProgramError UInt64 := do
  f.checks rt
  assertSortedFor f.takerSide f.params.levels
  sweep f.takerSide f.amountInAtoms f.minOutAtoms f.params.levels

/-- The transfer from the user to the maker. -/
def payment : TransferChecked where
  fromAccount := f.accounts.userPays f.takerSide
  mint := (f.accounts.mintIn f.takerSide).key
  toAccount := f.accounts.makerReceives f.takerSide
  authority := f.accounts.user

/-- The transfer from the maker to the user. -/
def payout : TransferChecked where
  fromAccount := f.accounts.makerPays f.takerSide
  mint := (f.accounts.mintOut f.takerSide).key
  toAccount := f.accounts.userReceives f.takerSide
  authority := f.accounts.fillAuthority

/-- The two transfers and the event of a call that pays out `out`. -/
def payments (out : UInt64) : Exec Unit := do
  transferChecked rt (f.accounts.programIn f.takerSide) f.payment f.amountInAtoms
    (f.accounts.mintIn f.takerSide).data.decimals
  transferChecked rt (f.accounts.programOut f.takerSide) f.payout out
    (f.accounts.mintOut f.takerSide).data.decimals
  emitCpi rt { f.event with amountOutAtoms := out }

/-- The arm of a side, sorted out by its two amounts. -/
theorem handler_eq : handler rt f.accounts f.takerSide f.amountInAtoms f.minOutAtoms f.params =
    liftM (f.decision rt) >>= f.payments rt := by
  obtain ⟨w, accounts, side, amountIn, minOutAtoms, params⟩ := f
  cases side with
  | bid =>
    simp only [handler, decision, checks, liftM_bind_eq, bind_assoc, settleBid, pure_bind]
    rfl
  | ask =>
    simp only [handler, decision, checks, liftM_bind_eq, bind_assoc, settleAsk, pure_bind]
    rfl

/-- **The handler is its decision and then its payments.** -/
theorem run_eq : f.run rt = match f.decision rt with
    | .ok out => outcome (f.payments rt out) f.before
    | .error e => (.error e, f.before) := by
  rw [run, handler_eq, outcome_lift_bind]
  cases f.decision rt with
  | ok out => rfl
  | error e => rfl

end FillCall

/-! ## The conditions of a call -/

/-- A mint that takes no fee at `epoch`, as far as its configuration can be read. -/
def FeeFree (mint : Mint) (epoch : UInt64) : Prop :=
  mint.owner = .token ∨ ∀ cfg, rt.getMintExtensionData mint = .ok cfg →
    (rt.getEpochFee cfg epoch).transferFeeBasisPoints = 0

/-- The call has an amount and levels and comes in time. -/
structure Timely (clock : Clock) : Prop where
  amount : f.amountInAtoms > 0
  levels : f.params.levels ≠ []
  clock_eq : rt.clock = .ok clock
  live : clock.unixTimestamp ≤ f.params.expireAt

/-- The call passes the checks in front of the sweep. -/
structure Accepts (clock : Clock) : Prop extends Timely rt f clock where
  baseMint : FeeFree rt f.accounts.baseMint.data clock.epoch
  quoteMint : FeeFree rt f.accounts.quoteMint.data clock.epoch
  exclusive : ¬ ProtectedElsewhere f.accounts.instructionsSysvar.instructions
    f.accounts.protectedKeys f.accounts.instructionsSysvar.currentIndex.toNat

/-- The code of the first condition that a call fails. -/
inductive Refused : ErrorCode → Prop
  | zeroAmountIn : f.amountInAtoms = 0 → Refused .zeroAmountIn
  | emptyLevels : f.amountInAtoms > 0 → f.params.levels = [] → Refused .emptyLevels
  | staleOrderbook (clock : Clock) : f.amountInAtoms > 0 → f.params.levels ≠ [] →
      rt.clock = .ok clock → f.params.expireAt < clock.unixTimestamp → Refused .staleOrderbook
  | unsupportedMintExtension (clock : Clock) : Timely rt f clock →
      ¬ (FeeFree rt f.accounts.baseMint.data clock.epoch ∧
        FeeFree rt f.accounts.quoteMint.data clock.epoch) → Refused .unsupportedMintExtension
  | makerAppearsInOtherInstruction (clock : Clock) : Timely rt f clock →
      FeeFree rt f.accounts.baseMint.data clock.epoch →
      FeeFree rt f.accounts.quoteMint.data clock.epoch →
      ProtectedElsewhere f.accounts.instructionsSysvar.instructions f.accounts.protectedKeys
        f.accounts.instructionsSysvar.currentIndex.toNat → Refused .makerAppearsInOtherInstruction
  | invalidLevelOrdering (clock : Clock) : Accepts rt f clock →
      ¬ f.params.levels.Pairwise (RateGt f.takerSide) → Refused .invalidLevelOrdering
  | sweep (clock : Clock) (c : ErrorCode) : Accepts rt f clock →
      f.params.levels.Pairwise (RateGt f.takerSide) →
      sweep f.takerSide f.amountInAtoms f.minOutAtoms f.params.levels = .error (.code c) → Refused c

variable {rt} {f}

/-! ## The single checks -/

theorem require_eq_error {p : Prop} [Decidable p] {c : ErrorCode} {e : ProgramError} :
    require p c = .error e ↔ ¬ p ∧ e = .code c := by
  unfold require
  split_ifs with h <;> simp [h, eq_comm]

theorem checkMintCompatibility_spec (mint : Mint) (epoch : UInt64) :
    (FeeFree rt mint epoch → checkMintCompatibility rt mint epoch = .ok ()) ∧
      (¬ FeeFree rt mint epoch →
        checkMintCompatibility rt mint epoch = .error (.code .unsupportedMintExtension)) := by
  unfold FeeFree checkMintCompatibility
  by_cases howner : mint.owner = .token
  · simp [howner]
  · cases hcfg : rt.getMintExtensionData mint with
    | error e => simp [howner]
    | ok cfg => simp [howner, require]

theorem assertSorted_error {expected : Ordering} {levels : List Level} {e : ProgramError}
    (h : assertSorted expected levels = .error e) : e = .code .invalidLevelOrdering := by
  induction levels with
  | nil => cases h
  | cons a levels ih =>
    cases levels with
    | nil => cases h
    | cons b levels =>
      rcases except_bind_eq_error.mp h with h | ⟨_, -, h⟩
      · exact (require_eq_error.mp h).2
      · exact ih h

theorem assertSortedFor_spec (side : Side) (levels : List Level) :
    (levels.Pairwise (RateGt side) → assertSortedFor side levels = .ok ()) ∧
      (¬ levels.Pairwise (RateGt side) →
        assertSortedFor side levels = .error (.code .invalidLevelOrdering)) := by
  refine ⟨(assertSortedFor_eq_ok_iff side levels).mpr, fun hnot => ?_⟩
  cases h : assertSortedFor side levels with
  | ok u => exact absurd ((assertSortedFor_eq_ok_iff side levels).mp h) hnot
  | error e =>
    cases side with
    | bid => rw [assertSorted_error h]
    | ask => rw [assertSorted_error h]

/-! ## The decision -/

theorem Timely.checks_eq {clock : Clock} (h : Timely rt f clock) : f.checks rt = (do
    checkMintCompatibility rt f.accounts.baseMint.data clock.epoch
    checkMintCompatibility rt f.accounts.quoteMint.data clock.epoch
    checkFillExclusivity f.accounts.instructionsSysvar f.accounts.protectedKeys) := by
  unfold FillCall.checks clockGet
  rw [require_bind_of_pos h.amount, require_bind_of_pos h.levels, h.clock_eq]
  exact require_bind_of_pos h.live ..

theorem Accepts.checks_eq {clock : Clock} (h : Accepts rt f clock) : f.checks rt = .ok () := by
  rw [h.toTimely.checks_eq, (checkMintCompatibility_spec _ _).1 h.baseMint,
    (checkMintCompatibility_spec _ _).1 h.quoteMint]
  exact (checkFillExclusivity_eq _ _).2 h.exclusive

/-- Behind the checks the order of the levels decides, and then the sweep. -/
theorem Accepts.decision_eq {clock : Clock} (h : Accepts rt f clock) : f.decision rt = (do
    assertSortedFor f.takerSide f.params.levels
    sweep f.takerSide f.amountInAtoms f.minOutAtoms f.params.levels) := by
  rw [FillCall.decision, h.checks_eq]
  rfl

theorem decision_of_checks_error {e : ProgramError} (h : f.checks rt = .error e) :
    f.decision rt = .error e := by
  rw [FillCall.decision, h]
  rfl

theorem Refused.decision_eq {c : ErrorCode} (h : Refused rt f c) :
    f.decision rt = .error (.code c) := by
  cases h with
  | zeroAmountIn hamount =>
    refine decision_of_checks_error ?_
    rw [FillCall.checks, require_bind_of_neg (by rw [hamount]; decide)]
  | emptyLevels hamount hlevels =>
    refine decision_of_checks_error ?_
    rw [FillCall.checks, require_bind_of_pos hamount, require_bind_of_neg (not_not.mpr hlevels)]
  | staleOrderbook clock hamount hlevels hclock hstale =>
    refine decision_of_checks_error ?_
    rw [FillCall.checks, require_bind_of_pos hamount, require_bind_of_pos hlevels, clockGet, hclock]
    exact require_bind_of_neg (Int64.not_le.mpr hstale) ..
  | unsupportedMintExtension clock htimely hfee =>
    refine decision_of_checks_error ?_
    rw [htimely.checks_eq]
    by_cases hbase : FeeFree rt f.accounts.baseMint.data clock.epoch
    · rw [(checkMintCompatibility_spec _ _).1 hbase,
        (checkMintCompatibility_spec _ _).2 fun hquote => hfee ⟨hbase, hquote⟩]
      rfl
    · rw [(checkMintCompatibility_spec _ _).2 hbase]
      rfl
  | makerAppearsInOtherInstruction clock htimely hbase hquote helse =>
    refine decision_of_checks_error ?_
    rw [htimely.checks_eq, (checkMintCompatibility_spec _ _).1 hbase,
      (checkMintCompatibility_spec _ _).1 hquote]
    exact (checkFillExclusivity_eq _ _).1 helse
  | invalidLevelOrdering clock haccepts hsorted =>
    rw [haccepts.decision_eq, (assertSortedFor_spec _ _).2 hsorted]
    rfl
  | sweep clock c haccepts hsorted hsweep =>
    rw [haccepts.decision_eq, (assertSortedFor_spec _ _).1 hsorted]
    exact hsweep

theorem classify (rt : Runtime) (f : FillCall) : (∃ c, Refused rt f c) ∨
    (∃ e, f.decision rt = .error (.runtime e)) ∨
    ∃ clock out, Accepts rt f clock ∧ f.params.levels.Pairwise (RateGt f.takerSide) ∧
      sweep f.takerSide f.amountInAtoms f.minOutAtoms f.params.levels = .ok out := by
  by_cases hamount : f.amountInAtoms > 0
  swap
  · exact .inl ⟨_, .zeroAmountIn (by simpa [UInt64.pos_iff_ne_zero] using hamount)⟩
  by_cases hlevels : f.params.levels = []
  · exact .inl ⟨_, .emptyLevels hamount hlevels⟩
  cases hclock : rt.clock with
  | error e =>
    refine .inr (.inl ⟨e, decision_of_checks_error ?_⟩)
    rw [FillCall.checks, require_bind_of_pos hamount, require_bind_of_pos hlevels, clockGet, hclock]
    rfl
  | ok clock =>
    by_cases hlive : clock.unixTimestamp ≤ f.params.expireAt
    swap
    · exact .inl ⟨_, .staleOrderbook clock hamount hlevels hclock (Int64.not_le.mp hlive)⟩
    have htimely : Timely rt f clock := ⟨hamount, hlevels, hclock, hlive⟩
    by_cases hfee : FeeFree rt f.accounts.baseMint.data clock.epoch ∧
        FeeFree rt f.accounts.quoteMint.data clock.epoch
    swap
    · exact .inl ⟨_, .unsupportedMintExtension clock htimely hfee⟩
    by_cases helse : ProtectedElsewhere f.accounts.instructionsSysvar.instructions
        f.accounts.protectedKeys f.accounts.instructionsSysvar.currentIndex.toNat
    · exact .inl ⟨_, .makerAppearsInOtherInstruction clock htimely hfee.1 hfee.2 helse⟩
    have haccepts : Accepts rt f clock := ⟨htimely, hfee.1, hfee.2, helse⟩
    by_cases hsorted : f.params.levels.Pairwise (RateGt f.takerSide)
    swap
    · exact .inl ⟨_, .invalidLevelOrdering clock haccepts hsorted⟩
    cases hsweep : sweep f.takerSide f.amountInAtoms f.minOutAtoms f.params.levels with
    | ok out => exact .inr (.inr ⟨clock, out, haccepts, hsorted, rfl⟩)
    | error e =>
      cases e with
      | code c => exact .inl ⟨c, .sweep clock c haccepts hsorted hsweep⟩
      | runtime e =>
        refine .inr (.inl ⟨e, ?_⟩)
        rw [haccepts.decision_eq, (assertSortedFor_spec _ _).1 hsorted]
        exact hsweep

theorem decision_eq_ok_iff {out : UInt64} : f.decision rt = .ok out ↔
    ∃ clock, Accepts rt f clock ∧ f.params.levels.Pairwise (RateGt f.takerSide) ∧
      sweep f.takerSide f.amountInAtoms f.minOutAtoms f.params.levels = .ok out := by
  constructor
  · intro h
    rcases classify rt f with ⟨c, hrefused⟩ | ⟨e, herror⟩ | ⟨clock, out', haccepts, hsorted, hsweep⟩
    · rw [hrefused.decision_eq] at h
      cases h
    · rw [herror] at h
      cases h
    · rw [haccepts.decision_eq, (assertSortedFor_spec _ _).1 hsorted] at h
      exact ⟨clock, haccepts, hsorted, h⟩
  · rintro ⟨clock, haccepts, hsorted, hsweep⟩
    rw [haccepts.decision_eq, (assertSortedFor_spec _ _).1 hsorted]
    exact hsweep

theorem decision_eq_code_iff {c : ErrorCode} :
    f.decision rt = .error (.code c) ↔ Refused rt f c := by
  refine ⟨fun h => ?_, Refused.decision_eq⟩
  rcases classify rt f with ⟨c', hrefused⟩ | ⟨e, herror⟩ | ⟨clock, out, hpriced⟩
  · rw [hrefused.decision_eq] at h
    obtain rfl : c' = c := ProgramError.code.inj (Except.error.inj h)
    exact hrefused
  · rw [herror] at h
    cases h
  · rw [decision_eq_ok_iff.mpr ⟨clock, hpriced⟩] at h
    cases h

/-! ## The codes of a sweep -/

/-- The codes a sweep fails with: one for a degenerate level, and three for the amounts. -/
inductive SweepRefusal (levels : List Level) : ErrorCode → Prop
  | degenerate (l : Level) : l ∈ levels → ¬ (l.baseAtoms > 0 ∧ l.quoteAtoms > 0) →
      SweepRefusal levels .degenerateLevelEntry
  | overflow : SweepRefusal levels .overflow
  | insufficientLiquidity : SweepRefusal levels .insufficientLiquidity
  | slippageExceeded : SweepRefusal levels .slippageExceeded

theorem SweepRefusal.cons {levels : List Level} {c : ErrorCode} (l : Level)
    (h : SweepRefusal levels c) : SweepRefusal (l :: levels) c := by
  cases h with
  | degenerate l' hl hzero => exact .degenerate l' (List.mem_cons_of_mem _ hl) hzero
  | overflow => exact .overflow
  | insufficientLiquidity => exact .insufficientLiquidity
  | slippageExceeded => exact .slippageExceeded

theorem checkedAdd_eq_error {x y : UInt64} {e : ProgramError} (h : checkedAdd x y = .error e) :
    e = .code .overflow := by
  unfold checkedAdd at h
  split_ifs at h
  exact (Except.error.inj h).symm

theorem checkedSub_eq_error {x y : UInt64} {e : ProgramError} (h : checkedSub x y = .error e) :
    e = .code .overflow := by
  unfold checkedSub at h
  split_ifs at h
  exact (Except.error.inj h).symm

theorem sweepLoop_eq_error {side : Side} {levels : List Level} {remaining out : UInt64}
    {e : ProgramError} (h : sweepLoop side levels remaining out = .error e) :
    ∃ c, e = .code c ∧ SweepRefusal levels c := by
  induction levels generalizing remaining out with
  | nil => cases h
  | cons l levels ih =>
    unfold sweepLoop at h
    split_ifs at h with hdone hwhole
    · rcases except_bind_eq_error.mp h with h | ⟨_, -, h⟩
      · obtain ⟨hzero, rfl⟩ := require_eq_error.mp h
        exact ⟨_, rfl, .degenerate l List.mem_cons_self hzero⟩
      rcases except_bind_eq_error.mp h with h | ⟨_, -, h⟩
      · exact ⟨_, checkedSub_eq_error h, .overflow⟩
      rcases except_bind_eq_error.mp h with h | ⟨_, -, h⟩
      · exact ⟨_, checkedAdd_eq_error h, .overflow⟩
      obtain ⟨c, hc, hrefusal⟩ := ih h
      exact ⟨c, hc, hrefusal.cons l⟩
    · rcases except_bind_eq_error.mp h with h | ⟨_, -, h⟩
      · obtain ⟨hzero, rfl⟩ := require_eq_error.mp h
        exact ⟨_, rfl, .degenerate l List.mem_cons_self hzero⟩
      rcases except_bind_eq_error.mp h with h | ⟨_, -, h⟩
      · exact ⟨_, (require_eq_error.mp h).2, .overflow⟩
      rcases except_bind_eq_error.mp h with h | ⟨_, -, h⟩
      · exact ⟨_, (require_eq_error.mp h).2, .insufficientLiquidity⟩
      rcases except_bind_eq_error.mp h with h | ⟨_, -, h⟩
      · exact ⟨_, checkedAdd_eq_error h, .overflow⟩
      · cases h

theorem sweep_eq_error {side : Side} {levels : List Level} {amountIn minOutAtoms : UInt64}
    {e : ProgramError} (h : sweep side amountIn minOutAtoms levels = .error e) :
    ∃ c, e = .code c ∧ SweepRefusal levels c := by
  rcases except_bind_eq_error.mp h with h | ⟨_, -, h⟩
  · exact sweepLoop_eq_error h
  rcases except_bind_eq_error.mp h with h | ⟨_, -, h⟩
  · exact ⟨_, (require_eq_error.mp h).2, .insufficientLiquidity⟩
  rcases except_bind_eq_error.mp h with h | ⟨_, -, h⟩
  · exact ⟨_, (require_eq_error.mp h).2, .slippageExceeded⟩
  · cases h

/-! ## The run -/

theorem payments_eq_ok_iff {out : UInt64} {w w' : World} :
    outcome (f.payments rt out) w = (.ok (), w') ↔ ∃ l₁ l₂,
      rt.processTransferChecked (f.accounts.programIn f.takerSide) f.payment f.amountInAtoms
        (f.accounts.mintIn f.takerSide).data.decimals w.ledger = .ok l₁ ∧
      rt.processTransferChecked (f.accounts.programOut f.takerSide) f.payout out
        (f.accounts.mintOut f.takerSide).data.decimals l₁ = .ok l₂ ∧
      rt.invokeSelf { f.event with amountOutAtoms := out } = .ok () ∧
      w' = ⟨l₂, w.events ++ [{ f.event with amountOutAtoms := out }]⟩ := by
  unfold FillCall.payments
  rw [outcome_bind, outcome_transferChecked]
  cases rt.processTransferChecked (f.accounts.programIn f.takerSide) f.payment f.amountInAtoms
    (f.accounts.mintIn f.takerSide).data.decimals w.ledger with
  | error e => simp
  | ok l₁ =>
    dsimp only
    rw [outcome_bind, outcome_transferChecked]
    cases hpayout : rt.processTransferChecked (f.accounts.programOut f.takerSide) f.payout out
      (f.accounts.mintOut f.takerSide).data.decimals l₁ with
    | error e => simp [hpayout]
    | ok l₂ =>
      dsimp only
      rw [outcome_emitCpi]
      cases rt.invokeSelf { f.event with amountOutAtoms := out } with
      | error e => simp
      | ok u => simp [hpayout, eq_comm]

theorem payments_avoids (out : UInt64) : Avoids ProgramError.IsCode (f.payments rt out) :=
  (avoids_isCode_transferChecked rt _ _ _ _).bind fun _ =>
    (avoids_isCode_transferChecked rt _ _ _ _).bind fun _ => avoids_isCode_emitCpi rt _

theorem accepts_of_run {w' : World} (h : f.run rt = (.ok (), w')) : ∃ clock, Accepts rt f clock := by
  rw [f.run_eq rt] at h
  cases hdecision : f.decision rt with
  | error e =>
    rw [hdecision] at h
    cases h
  | ok out =>
    obtain ⟨clock, haccepts, -⟩ := decision_eq_ok_iff.mp hdecision
    exact ⟨clock, haccepts⟩

/-- **A call succeeds exactly when it passes every check, its sweep succeeds and the runtime makes the
two transfers and records the event.** -/
theorem run_eq_ok_iff (rt : Runtime) (f : FillCall) (w' : World) : f.run rt = (.ok (), w') ↔
    ∃ clock out l₁ l₂, Accepts rt f clock ∧ f.params.levels.Pairwise (RateGt f.takerSide) ∧
      sweep f.takerSide f.amountInAtoms f.minOutAtoms f.params.levels = .ok out ∧
      rt.processTransferChecked (f.accounts.programIn f.takerSide) f.payment f.amountInAtoms
        (f.accounts.mintIn f.takerSide).data.decimals f.before.ledger = .ok l₁ ∧
      rt.processTransferChecked (f.accounts.programOut f.takerSide) f.payout out
        (f.accounts.mintOut f.takerSide).data.decimals l₁ = .ok l₂ ∧
      rt.invokeSelf { f.event with amountOutAtoms := out } = .ok () ∧
      w' = ⟨l₂, f.before.events ++ [{ f.event with amountOutAtoms := out }]⟩ := by
  rw [f.run_eq rt]
  constructor
  · intro h
    cases hdecision : f.decision rt with
    | error e =>
      rw [hdecision] at h
      cases h
    | ok out =>
      rw [hdecision] at h
      obtain ⟨l₁, l₂, hpayments⟩ := payments_eq_ok_iff.mp h
      obtain ⟨clock, haccepts, hsorted, hsweep⟩ := decision_eq_ok_iff.mp hdecision
      exact ⟨clock, out, l₁, l₂, haccepts, hsorted, hsweep, hpayments⟩
  · rintro ⟨clock, out, l₁, l₂, haccepts, hsorted, hsweep, hpayments⟩
    rw [decision_eq_ok_iff.mpr ⟨clock, haccepts, hsorted, hsweep⟩]
    exact payments_eq_ok_iff.mpr ⟨l₁, l₂, hpayments⟩

theorem run_eq_code_iff_decision {c : ErrorCode} {w' : World} :
    f.run rt = (.error (.code c), w') ↔ f.decision rt = .error (.code c) ∧ w' = f.before := by
  rw [f.run_eq rt]
  cases hdecision : f.decision rt with
  | error e => simp [eq_comm]
  | ok out =>
    refine ⟨fun h => ?_, fun h => by cases h.1⟩
    exact absurd ⟨c, rfl⟩ (payments_avoids out _ _ _ h)

/-- **A call fails with a code of the program exactly when it is refused with it, and then it has
changed nothing.** -/
theorem run_eq_code_iff (rt : Runtime) (f : FillCall) (c : ErrorCode) (w' : World) :
    f.run rt = (.error (.code c), w') ↔ Refused rt f c ∧ w' = f.before := by
  rw [run_eq_code_iff_decision, decision_eq_code_iff]

end SolanaRfq
