import SolanaRfq.Effect.Run
import SolanaRfq.Program.Decision

/-!
# The execution of a transaction

A transaction runs its top-level instructions in order. Inside instruction `i` a program can change
only accounts that the instruction lists, which is what `check_fill_exclusivity` relies on; a call of
this program is given accounts that the instruction lists and reads the instructions of the
transaction from the sysvar. Between the calls of this program anything else may run.

* `InstructionStep`: one step inside an instruction; `Execution`: a run of the instructions;
* **`maker_isolated`**: the accounts of a maker change only during the instruction that fills it, and
  no other instruction makes a call that names one;
* **`top_level_fill_exact`**: around a call at the top level, a whole transaction changes the maker's
  accounts by exactly the amounts of the call.
-/

namespace SolanaRfq

open AccountMoves Transaction TracedRun

variable {rt : Runtime}

/-! ## Steps -/

/-- The call is made inside instruction `i` of the transaction: the sysvar holds its instructions,
and the instruction lists the accounts and the program. -/
structure FillCall.PlacedIn (f : FillCall) (ixs : List ResolvedInstruction) (i : ℕ) : Prop where
  instructions : f.accounts.instructionsSysvar.instructions = ixs
  current : f.accounts.instructionsSysvar.currentIndex.toNat = i
  listed : ∃ ix, ixs[i]? = some ix ∧ rfqV2ProgramIdBytes ∈ ix.references ∧
    ∀ k ∈ f.accounts.keys, k ∈ ix.accounts

/-- One step inside instruction `i`: a step of another program, which logs no event of this one, or a
call that succeeds. An instruction with a call that fails aborts the transaction. -/
inductive InstructionStep (rt : Runtime) (ixs : List ResolvedInstruction) (i : ℕ) :
    World → List FillCall → World → Prop
  | foreign (w : World) (ledger : Ledger) (ix : ResolvedInstruction) : ixs[i]? = some ix →
      (∀ k, k ∉ ix.accounts → ledger.tokens k = w.ledger.tokens k ∧
        ledger.mints k = w.ledger.mints k) →
      InstructionStep rt ixs i w [] { w with ledger }
  | fill (f : FillCall) (w' : World) : f.PlacedIn ixs i → f.run rt = (.ok (), w') →
      InstructionStep rt ixs i f.before [f] w'

/-- The run of a transaction: its instructions in order. -/
abbrev Execution (rt : Runtime) (ixs : List ResolvedInstruction) : Type :=
  Sequential (InstructionStep rt ixs) ixs.length

/-- Instruction `i` makes the call `f`. -/
def Makes {ixs : List ResolvedInstruction} (e : Execution rt ixs) (i : ℕ) (f : FillCall) : Prop :=
  i < ixs.length ∧ f ∈ e.trace i

theorem InstructionStep.tokens_eq {ixs : List ResolvedInstruction} {i : ℕ} {w w' : World}
    {t : List FillCall} (h : InstructionStep rt ixs i w t w') {k : Pubkey}
    (hk : ∀ ix, ixs[i]? = some ix → k ∉ ix.accounts) :
    w'.ledger.tokens k = w.ledger.tokens k := by
  cases h with
  | foreign _ ledger ix hix hframe => exact (hframe k (hk ix hix)).1
  | fill f _ hplaced hrun =>
    obtain ⟨ix, hix, -, hlisted⟩ := hplaced.listed
    exact (FillCall.settles_of_run hrun).tokens_eq fun hmem => hk ix hix (hlisted k hmem)

/-- Another program writes an account that the instruction lists. -/
theorem InstructionStep.setToken {ixs : List ResolvedInstruction} {i : ℕ} {ix : ResolvedInstruction}
    {k : Pubkey} (w : World) (a : TokenAccount) (hix : ixs[i]? = some ix) (hk : k ∈ ix.accounts) :
    InstructionStep rt ixs i w [] { w with ledger := w.ledger.setToken k a } := by
  refine .foreign w _ ix hix fun k' hk' => ⟨Ledger.setToken_tokens_of_ne _ _ ?_, rfl⟩
  rintro rfl
  exact hk' hk

theorem Makes.spec {ixs : List ResolvedInstruction} {e : Execution rt ixs} {i : ℕ} {f : FillCall}
    (h : Makes e i f) : f.PlacedIn ixs i ∧ ∃ w', f.run rt = (.ok (), w') := by
  refine (e.run i h.1).within (composable_all fun f => f.PlacedIn ixs i ∧
    ∃ w', f.run rt = (.ok (), w')) ?_ f h.2
  intro w t w' hstep f' hf'
  cases hstep with
  | foreign => exact absurd hf' List.not_mem_nil
  | fill g _ hplaced hrun =>
    rw [List.mem_singleton.mp hf']
    exact ⟨hplaced, w', hrun⟩

/-! ## A sample transaction -/

/-- The sample bid, made inside instruction `i` of a transaction. -/
def sampleCallIn (instructions : List ResolvedInstruction) (i : UInt16) : FillCall where
  before := sampleWorld
  accounts := { sampleAccounts with instructionsSysvar := .ofList instructions i }
  takerSide := .bid
  amountInAtoms := 150
  minOutAtoms := 10
  params := sampleParams

/-- A fill at the top level, and another program that empties an account of the user. -/
def sampleInstructions : List ResolvedInstruction :=
  [⟨rfqV2ProgramIdBytes, sampleAccounts.keys⟩, ⟨sampleKey 10, [sampleKey 4]⟩]

def sampleCall : FillCall := sampleCallIn sampleInstructions 0

theorem sampleCall_run : (sampleCall.run (.ofClock ⟨5, 100⟩)).1 = .ok () := by decide +kernel

/-- After the fill. -/
def filledWorld : World := (sampleCall.run (.ofClock ⟨5, 100⟩)).2

/-- After the other program. -/
def emptiedWorld : World :=
  { filledWorld with
    ledger := filledWorld.ledger.setToken (sampleKey 4) ⟨.token, sampleKey 8, sampleKey 1, 0, 0⟩ }

theorem instructionStep_filled :
    InstructionStep (.ofClock ⟨5, 100⟩) sampleInstructions 0 sampleWorld [sampleCall] filledWorld :=
  .fill sampleCall _ ⟨rfl, rfl, _, rfl, List.mem_cons_self, fun _ hk => hk⟩
    (Prod.ext sampleCall_run rfl)

theorem instructionStep_emptied :
    InstructionStep (.ofClock ⟨5, 100⟩) sampleInstructions 1 filledWorld [] emptiedWorld :=
  .setToken _ _ rfl (List.mem_singleton_self _)

/-- The sample transaction step by step. -/
def sampleExecution : Execution (.ofClock ⟨5, 100⟩) sampleInstructions where
  state
    | 0 => sampleWorld
    | 1 => filledWorld
    | _ => emptiedWorld
  trace
    | 0 => [sampleCall]
    | _ => []
  run
    | 0, _ => Run.single instructionStep_filled
    | 1, _ => Run.single instructionStep_emptied

theorem makes_sampleCall : Makes sampleExecution 0 sampleCall := ⟨by decide, List.mem_cons_self⟩

/-! ## Isolation -/

theorem Makes.not_listed {ixs : List ResolvedInstruction} {e : Execution rt ixs} {i : ℕ}
    {f : FillCall} (h : Makes e i f) {k : Pubkey} (hk : k ∈ f.accounts.protectedKeys) {j : ℕ}
    (hj : j ≠ i) : ∀ ix, ixs[j]? = some ix → k ∉ ix.accounts := by
  obtain ⟨hplaced, w', hrun⟩ := h.spec
  obtain ⟨clock, haccepts⟩ := accepts_of_run hrun
  have hnone := haccepts.exclusive
  rw [hplaced.instructions, hplaced.current] at hnone
  exact fun ix hix hmem => hnone ⟨j, ix, hj, hix, k, hmem, hk⟩

theorem Makes.tokens_isolated {ixs : List ResolvedInstruction} {e : Execution rt ixs} {i : ℕ}
    {f : FillCall} (h : Makes e i f) {k : Pubkey} (hk : k ∈ f.accounts.protectedKeys) :
    (∀ j ≤ i, (e.state j).ledger.tokens k = (e.state 0).ledger.tokens k) ∧
      ∀ j, i < j → j ≤ ixs.length →
        (e.state j).ledger.tokens k = (e.state (i + 1)).ledger.tokens k := by
  obtain ⟨hbefore, hafter⟩ := e.isolated (fun w => w.ledger.tokens k) i fun j _ hj _ _ _ hstep =>
    hstep.tokens_eq (h.not_listed hk hj)
  exact ⟨fun j hj => hbefore j hj (hj.trans h.1.le), hafter⟩

/-- A call in another instruction names no key that a call protects. -/
theorem Makes.eq_of_mem_keys {ixs : List ResolvedInstruction} {e : Execution rt ixs} {i j : ℕ}
    {f g : FillCall} (hf : Makes e i f) (hg : Makes e j g) {k : Pubkey}
    (hk : k ∈ f.accounts.protectedKeys) (hkg : k ∈ g.accounts.keys) : j = i := by
  by_contra hne
  obtain ⟨hplaced, -⟩ := hg.spec
  obtain ⟨ix, hix, -, hlisted⟩ := hplaced.listed
  exact hf.not_listed hk hne ix hix (hlisted k hkg)

/-- **The accounts of a maker change only during the instruction that fills it, and no call in another
instruction names one of them.** -/
theorem maker_isolated {ixs : List ResolvedInstruction} (e : Execution rt ixs) {i : ℕ}
    {f : FillCall} (h : Makes e i f) {k : Pubkey} (hk : k ∈ f.accounts.protectedKeys) :
    (∀ j ≤ i, (e.state j).ledger.tokens k = (e.state 0).ledger.tokens k) ∧
    (∀ j, i < j → j ≤ ixs.length →
      (e.state j).ledger.tokens k = (e.state (i + 1)).ledger.tokens k) ∧
    ∀ j g, Makes e j g → k ∈ g.accounts.keys → j = i := by
  obtain ⟨hbefore, hafter⟩ := h.tokens_isolated hk
  exact ⟨hbefore, hafter, fun _ _ hg => h.eq_of_mem_keys hg hk⟩

theorem maker_isolated_sample :
    (sampleExecution.state 2).ledger.tokens (sampleKey 5) =
      (sampleExecution.state 1).ledger.tokens (sampleKey 5) :=
  (maker_isolated sampleExecution makes_sampleCall
    (List.mem_cons_of_mem _ List.mem_cons_self)).2.1 2 (by decide) le_rfl

/-- The token accounts of the maker. -/
def FillExactIn.makerTokenAccounts {ledger : Ledger} (accounts : FillExactIn ledger) :
    List (Loaded ledger.tokens) := [accounts.makerBaseTokenAccount, accounts.makerQuoteTokenAccount]

theorem FillExactIn.key_mem_protectedKeys {ledger : Ledger} {accounts : FillExactIn ledger}
    {a : Loaded ledger.tokens} (ha : a ∈ accounts.makerTokenAccounts) :
    a.key ∈ accounts.protectedKeys := by
  simp only [makerTokenAccounts, List.mem_cons, List.not_mem_nil, or_false] at ha
  rcases ha with rfl | rfl <;> simp [protectedKeys]

/-- **Around a call at the top level, a whole transaction changes the maker's accounts by exactly the
amounts of the call.** -/
theorem top_level_fill_exact {ixs : List ResolvedInstruction} (e : Execution rt ixs) {i : ℕ}
    {f : FillCall} (h : Makes e i f) (hstart : e.state i = f.before)
    (hend : f.run rt = (.ok (), e.state (i + 1))) {a : Loaded f.before.ledger.tokens}
    (ha : a ∈ f.accounts.makerTokenAccounts) :
    (e.state 0).ledger.tokens a.key = some a.data ∧
      ∃ amount, (e.state ixs.length).ledger.tokens a.key = some { a.data with amount } ∧
        (amount.toNat : ℤ) = a.data.amount.toNat + net f.moves a.key := by
  obtain ⟨hbefore, hafter⟩ := h.tokens_isolated (FillExactIn.key_mem_protectedKeys ha)
  have hfirst : (e.state i).ledger.tokens a.key = some a.data := by
    rw [hstart]
    exact a.loaded
  obtain ⟨amount, hpresent, hamount⟩ := (FillCall.settles_of_run hend).moved.present _ _ a.loaded
  refine ⟨(hbefore i le_rfl).symm.trans hfirst, amount, ?_, hamount⟩
  rw [hafter ixs.length h.1 le_rfl, hpresent]

/-- The sample transaction takes 14 atoms from the maker's base account of 40. -/
theorem top_level_fill_exact_sample : ∃ amount,
    (sampleExecution.state 2).ledger.tokens (sampleKey 5) =
      some { sampleAccounts.makerBaseTokenAccount.data with amount } ∧
    (amount.toNat : ℤ) = (40 : UInt64).toNat + net sampleCall.moves (sampleKey 5) :=
  (top_level_fill_exact sampleExecution makes_sampleCall rfl (Prod.ext sampleCall_run rfl)
    (a := sampleCall.accounts.makerBaseTokenAccount) List.mem_cons_self).2

end SolanaRfq
