import SolanaRfq.Program.Execution

/-!
# The chain

Transactions one after another, each under its own runtime: one that commits leaves what its
instructions did, one that aborts leaves nothing.

* `ChainStep`: one step of a committed transaction; `Transacted`: a transaction;
* **`chain_log`**: the log of events is the list of the calls that settled, in their order;
* `GuardedStep ks`: a step that changes the accounts `ks` only by a call of this program;
* **`execution_guarded`**: to guard the accounts of a maker in a transaction it is enough to guard
  them in the instruction that fills it;
* **`chain_balances`**: guarded accounts hold what they held, and the net of the calls.
-/

namespace SolanaRfq

open AccountMoves TracedRun

/-! ## Steps and transactions -/

/-- One step of a committed transaction. -/
def ChainStep (w : World) (t : List FillCall) (w' : World) : Prop :=
  ∃ rt ixs i, InstructionStep rt ixs i w t w'

/-- A transaction: it commits a run of its instructions, or it aborts. -/
inductive Transacted : World → List FillCall → World → Prop
  | committed (rt : Runtime) (ixs : List ResolvedInstruction) (e : Execution rt ixs) :
      Transacted (e.state 0) e.fullTrace (e.state ixs.length)
  | aborted (w : World) : Transacted w [] w

theorem composable_run {step : World → List FillCall → World → Prop} : Composable (Run step) where
  refl := .nil
  trans h h' := h.append h'

theorem Transacted.run {w w' : World} {t : List FillCall} (h : Transacted w t w') :
    Run ChainStep w t w' := by
  cases h with
  | committed rt ixs e =>
    refine e.within_all composable_run fun i hi => ?_
    exact (e.run i hi).within composable_run fun _ _ _ hstep => Run.single ⟨rt, ixs, i, hstep⟩
  | aborted => exact .nil w

/-- A call that settled, in the world it settled in. -/
def FillCall.Settled (f : FillCall) : Prop := ∃ rt w', f.run rt = (.ok (), w') ∧ f.Settles rt w'

theorem ChainStep.log {w w' : World} {t : List FillCall} (h : ChainStep w t w') :
    w'.events = w.events ++ t.map FillCall.event ∧ ∀ f ∈ t, f.Settled := by
  obtain ⟨rt, ixs, i, h⟩ := h
  cases h with
  | foreign => exact ⟨(List.append_nil _).symm, fun _ hf => absurd hf List.not_mem_nil⟩
  | fill f _ _ hrun =>
    have hsettles := FillCall.settles_of_run hrun
    refine ⟨hsettles.event, fun g hg => ?_⟩
    rw [List.mem_singleton.mp hg]
    exact ⟨rt, w', hrun, hsettles⟩

theorem composable_chain_log : Composable fun (w : World) (t : List FillCall) (w' : World) =>
    w'.events = w.events ++ t.map FillCall.event ∧ ∀ f ∈ t, f.Settled :=
  (composable_log World.events FillCall.event).and (composable_all FillCall.Settled)

/-- **Over any transactions the log of events grows by the calls that settled, in their order, and by
nothing else.** -/
theorem chain_log {w w' : World} {t : List FillCall} (h : Run Transacted w t w') :
    w'.events = w.events ++ t.map FillCall.event ∧ ∀ f ∈ t, f.Settled :=
  h.within composable_chain_log fun _ _ _ htx =>
    htx.run.within composable_chain_log fun _ _ _ hstep => hstep.log

/-- An aborted transaction around the sample transaction. -/
theorem chain_log_sample : (sampleExecution.state 2).events = [sampleCall.event] :=
  (chain_log (.cons (.aborted sampleWorld) (.cons (.committed _ _ sampleExecution)
    (.cons (.aborted _) (.nil _))))).1

/-! ## Guarded accounts -/

/-- A step that changes the accounts `ks` only by a call of this program. -/
def GuardedStep (ks : List Pubkey) (w : World) (t : List FillCall) (w' : World) : Prop :=
  ChainStep w t w' ∧ (t = [] → ∀ k ∈ ks, w'.ledger.tokens k = w.ledger.tokens k)

theorem GuardedStep.mono {ks ks' : List Pubkey} {w w' : World} {t : List FillCall} (hks : ks ⊆ ks')
    (h : GuardedStep ks' w t w') : GuardedStep ks w t w' :=
  ⟨h.1, fun ht k hk => h.2 ht k (hks hk)⟩

/-- Another program may write any other account. -/
theorem GuardedStep.setToken {ks : List Pubkey} {w : World} {k : Pubkey} {a : TokenAccount}
    (h : ChainStep w [] { w with ledger := w.ledger.setToken k a }) (hk : k ∉ ks) :
    GuardedStep ks w [] { w with ledger := w.ledger.setToken k a } := by
  refine ⟨h, fun _ k' hk' => Ledger.setToken_tokens_of_ne _ _ ?_⟩
  rintro rfl
  exact hk hk'

/-- Accounts that only instruction `i` lists are guarded in a transaction if they are guarded there. -/
theorem guarded_of_listed {rt : Runtime} {ixs : List ResolvedInstruction} (e : Execution rt ixs)
    {i : ℕ} {ks : List Pubkey}
    (hlisted : ∀ k ∈ ks, ∀ j, j ≠ i → ∀ ix, ixs[j]? = some ix → k ∉ ix.accounts)
    (hguard : Run (GuardedStep ks) (e.state i) (e.trace i) (e.state (i + 1))) :
    Run (GuardedStep ks) (e.state 0) e.fullTrace (e.state ixs.length) := by
  refine e.within_all composable_run fun j hj => ?_
  by_cases hji : j = i
  · rw [hji]
    exact hguard
  · -- no step of another instruction reaches the accounts
    refine (e.run j hj).within composable_run fun _ _ _ hstep => Run.single ⟨⟨rt, ixs, j, hstep⟩, ?_⟩
    exact fun _ k hk => hstep.tokens_eq (hlisted k hk j hji)

/-- **To guard the accounts of a maker in a transaction it is enough to guard them in the instruction
that fills it.** -/
theorem execution_guarded {rt : Runtime} {ixs : List ResolvedInstruction} (e : Execution rt ixs)
    {i : ℕ} {f : FillCall} (h : Makes e i f)
    (hguard : Run (GuardedStep f.accounts.protectedKeys) (e.state i) (e.trace i)
      (e.state (i + 1))) :
    Run (GuardedStep f.accounts.protectedKeys) (e.state 0) e.fullTrace (e.state ixs.length) :=
  guarded_of_listed e (fun _ hk _ hj => h.not_listed hk hj) hguard

theorem guardedStep_filled :
    GuardedStep sampleCall.accounts.protectedKeys sampleWorld [sampleCall] filledWorld :=
  ⟨⟨_, _, 0, instructionStep_filled⟩, fun hnil => absurd hnil (List.cons_ne_nil _ _)⟩

theorem execution_guarded_sample :
    Run (GuardedStep sampleCall.accounts.protectedKeys) (sampleExecution.state 0)
      sampleExecution.fullTrace (sampleExecution.state 2) :=
  execution_guarded sampleExecution makes_sampleCall (Run.single guardedStep_filled)

theorem FillExactIn.moves_loaded {ledger : Ledger} (accounts : FillExactIn ledger) (side : Side)
    (amountIn out : UInt64) : ∀ m ∈ accounts.moves side amountIn out,
      ledger.tokens m.source ≠ none ∧ ledger.tokens m.destination ≠ none := by
  have hloaded (a : Loaded ledger.tokens) : ledger.tokens a.key ≠ none := by
    rw [a.loaded]
    exact Option.some_ne_none _
  intro m hm
  cases side with
  | bid | ask =>
    simp only [moves, List.mem_cons, List.not_mem_nil, or_false] at hm
    rcases hm with rfl | rfl <;> exact ⟨hloaded _, hloaded _⟩

theorem FillCall.Settles.atoms_eq {rt : Runtime} {f : FillCall} {w' : World} (h : f.Settles rt w')
    (k : Pubkey) : w'.ledger.atoms k = f.before.ledger.atoms k + net f.moves k := by
  have hmoved : Moved (net f.moves) f.before.ledger w'.ledger := Settled.moved h
  cases hk : f.before.ledger.tokens k with
  | some a => exact hmoved.atoms_eq (by rw [Ledger.mintOf, hk, Option.map_some])
  | none =>
    have hzero : net f.moves k = 0 := by
      refine net_of_not_touched fun m hm => ?_
      obtain ⟨hs, hd⟩ := f.accounts.moves_loaded _ _ _ m hm
      exact ⟨fun he => hs (he ▸ hk), fun he => hd (he ▸ hk)⟩
    rw [Ledger.atoms, Ledger.atoms, hmoved.tokens_eq hzero, hzero, add_zero]

/-- **Guarded accounts hold what they held, and the net of the calls.** -/
theorem chain_balances {ks : List Pubkey} {w w' : World} {t : List FillCall}
    (h : Run (GuardedStep ks) w t w') {k : Pubkey} (hk : k ∈ ks) :
    w'.ledger.atoms k = w.ledger.atoms k + (t.map fun f => net f.moves k).sum := by
  refine h.within (composable_sum (fun w : World => w.ledger.atoms k) _) ?_
  rintro w t w' ⟨⟨rt, ixs, i, hstep⟩, hguard⟩
  cases hstep with
  | foreign =>
    rw [List.map_nil, List.sum_nil, add_zero, Ledger.atoms, Ledger.atoms, hguard rfl k hk]
  | fill f _ _ hrun =>
    rw [List.map_singleton, List.sum_singleton]
    exact (FillCall.settles_of_run hrun).atoms_eq k

/-! ### A sample chain -/

theorem guardedStep_emptied :
    GuardedStep sampleCall.accounts.protectedKeys filledWorld [] emptiedWorld :=
  .setToken ⟨_, _, 1, instructionStep_emptied⟩ (by decide)

theorem emptiedWorld_mints : emptiedWorld.ledger.mints = sampleWorld.ledger.mints :=
  (FillCall.settles_of_run (Prod.ext sampleCall_run rfl)).moved.mints

/-- The sample accounts after the sample transaction. -/
def emptiedAccounts : FillExactIn emptiedWorld.ledger where
  user := sampleKey 1
  fillAuthority := sampleKey 2
  userBaseTokenAccount :=
    ⟨sampleKey 3, ⟨.token2022, sampleKey 7, sampleKey 1, 14, 0⟩, by decide +kernel⟩
  userQuoteTokenAccount :=
    ⟨sampleKey 4, ⟨.token, sampleKey 8, sampleKey 1, 0, 0⟩, by decide +kernel⟩
  makerBaseTokenAccount :=
    ⟨sampleKey 5, ⟨.token2022, sampleKey 7, sampleKey 2, 26, 3⟩, by decide +kernel⟩
  makerQuoteTokenAccount :=
    ⟨sampleKey 6, ⟨.token, sampleKey 8, sampleKey 2, 150, 0⟩, by decide +kernel⟩
  baseMint := ⟨sampleKey 7, _, (congrFun emptiedWorld_mints _).trans sampleAccounts.baseMint.loaded⟩
  quoteMint := ⟨sampleKey 8, _, (congrFun emptiedWorld_mints _).trans sampleAccounts.quoteMint.loaded⟩
  baseTokenProgram := .token2022
  quoteTokenProgram := .token
  instructionsSysvar := .ofList [⟨rfqV2ProgramIdBytes, sampleAccounts.keys⟩] 0
  userBase := ⟨rfl, rfl⟩
  userQuote := ⟨rfl, rfl⟩
  makerBase := ⟨rfl, rfl⟩
  makerQuote := ⟨rfl, rfl⟩
  makerBase_authority := rfl
  makerQuote_authority := rfl

/-- The user sells ten of the base atoms back, at a lower price. -/
def sampleAsk : FillCall where
  before := emptiedWorld
  accounts := emptiedAccounts
  takerSide := .ask
  amountInAtoms := 10
  minOutAtoms := 1
  params := ⟨8, 100, [⟨10, 90⟩]⟩

theorem sampleAsk_run : (sampleAsk.run (.ofClock ⟨5, 100⟩)).1 = .ok () := by decide +kernel

/-- After the second fill. -/
def soldWorld : World := (sampleAsk.run (.ofClock ⟨5, 100⟩)).2

theorem guardedStep_sold :
    GuardedStep sampleCall.accounts.protectedKeys emptiedWorld [sampleAsk] soldWorld := by
  refine ⟨⟨_, [⟨rfqV2ProgramIdBytes, sampleAccounts.keys⟩], 0, .fill sampleAsk _ ?_
    (Prod.ext sampleAsk_run rfl)⟩, fun hnil => absurd hnil (List.cons_ne_nil _ _)⟩
  exact ⟨rfl, rfl, _, rfl, List.mem_cons_self, fun _ hk => hk⟩

theorem guardedRun_sample : Run (GuardedStep sampleCall.accounts.protectedKeys) sampleWorld
    [sampleCall, sampleAsk] soldWorld :=
  .cons guardedStep_filled (.cons guardedStep_emptied (.cons guardedStep_sold (.nil _)))

/-- The maker sells 14 base atoms and buys ten back. -/
theorem chain_balances_sample : soldWorld.ledger.atoms (sampleKey 5) =
    sampleWorld.ledger.atoms (sampleKey 5) +
      ([sampleCall, sampleAsk].map fun f => net f.moves (sampleKey 5)).sum :=
  chain_balances guardedRun_sample (List.mem_cons_of_mem _ List.mem_cons_self)

end SolanaRfq
