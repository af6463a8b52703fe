import SolanaRfq.Program.Settlement

/-!
# Calls of the program

A call of `fill_exact_in` with all that its handler is given: the world it starts in, the accounts
and the arguments.

* `FillCall`, `FillCall.run`: a call and what its handler makes of it;
* `FillExactIn.keys`, `FillExactIn.protectedKeys`: its accounts, and those the exclusivity check
  protects;
* `FillCall.moves`, `FillCall.event`: what a success moves and logs; `FillCall.Settles`: its settlement;
* `FillExactIn.moves_eq`: the moves of a side by who pays and who receives.
-/

namespace SolanaRfq

open AccountMoves Transaction

/-! ## Calls -/

/-- A call of `fill_exact_in`, with the world it starts in. -/
structure FillCall where
  before : World
  accounts : FillExactIn before.ledger
  takerSide : Side
  amountInAtoms : UInt64
  minOutAtoms : UInt64
  params : FillExactInParams

/-- The keys of the accounts of a fill. -/
def FillExactIn.keys {ledger : Ledger} (accounts : FillExactIn ledger) : List Pubkey :=
  [accounts.user, accounts.fillAuthority, accounts.userBaseTokenAccount.key,
    accounts.userQuoteTokenAccount.key, accounts.makerBaseTokenAccount.key,
    accounts.makerQuoteTokenAccount.key, accounts.baseMint.key, accounts.quoteMint.key]

/-- The keys the exclusivity check protects. -/
def FillExactIn.protectedKeys {ledger : Ledger} (accounts : FillExactIn ledger) : List Pubkey :=
  [accounts.fillAuthority, accounts.makerBaseTokenAccount.key, accounts.makerQuoteTokenAccount.key]

namespace FillCall

variable (f : FillCall)

/-- The result of the handler. -/
def run (rt : Runtime) : Except ProgramError Unit × World :=
  outcome (handler rt f.accounts f.takerSide f.amountInAtoms f.minOutAtoms f.params) f.before

/-- What the sweep pays out, and nothing where it fails. -/
def amountOutAtoms : UInt64 :=
  match sweep f.takerSide f.amountInAtoms f.minOutAtoms f.params.levels with
  | .ok out => out
  | .error _ => 0

/-- The moves of a successful call. -/
def moves : List (Move Pubkey ℤ) := f.accounts.moves f.takerSide f.amountInAtoms f.amountOutAtoms

/-- The event of a successful call. -/
def event : FillExactInEvent where
  rfqId := f.params.rfqId
  user := f.accounts.user
  fillAuthority := f.accounts.fillAuthority
  takerSide := f.takerSide
  baseMint := f.accounts.baseMint.key
  quoteMint := f.accounts.quoteMint.key
  amountInAtoms := f.amountInAtoms
  amountOutAtoms := f.amountOutAtoms

/-- The settlement of a call that ends in `w'`. -/
def Settles (rt : Runtime) (w' : World) : Prop :=
  Settled rt f.accounts f.takerSide f.amountInAtoms f.minOutAtoms f.params w' f.amountOutAtoms

variable {f}

theorem settles_of_run {w' : World} (h : f.run rt = (.ok (), w')) : f.Settles rt w' := by
  obtain ⟨out, hout⟩ := settled_of_handler h
  have hamount : f.amountOutAtoms = out := by
    rw [amountOutAtoms, hout.swept]
  rw [Settles, hamount]
  exact hout

end FillCall

theorem FillExactIn.moves_mem_keys {ledger : Ledger} (accounts : FillExactIn ledger) (side : Side)
    (amountIn out : UInt64) :
    ∀ m ∈ accounts.moves side amountIn out, m.source ∈ accounts.keys ∧
      m.destination ∈ accounts.keys := by
  intro m hm
  cases side with
  | bid =>
    simp only [moves, List.mem_cons, List.not_mem_nil, or_false] at hm
    rcases hm with rfl | rfl <;> simp [keys]
  | ask =>
    simp only [moves, List.mem_cons, List.not_mem_nil, or_false] at hm
    rcases hm with rfl | rfl <;> simp [keys]

theorem FillCall.Settles.tokens_eq {f : FillCall} {w' : World} (h : f.Settles rt w') {k : Pubkey}
    (hk : k ∉ f.accounts.keys) : w'.ledger.tokens k = f.before.ledger.tokens k := by
  refine Settled.frame h k fun m hm => ?_
  obtain ⟨hs, hd⟩ := f.accounts.moves_mem_keys _ _ _ m hm
  exact ⟨fun he => hk (he ▸ hs), fun he => hk (he ▸ hd)⟩

/-! ## The accounts of the two sides of a fill -/

section Accounts

variable {ledger : Ledger} (accounts : FillExactIn ledger)

/-- The account the user pays from. -/
def FillExactIn.userPays : Side → Pubkey
  | .bid => accounts.userQuoteTokenAccount.key
  | .ask => accounts.userBaseTokenAccount.key

/-- The account the user is paid into. -/
def FillExactIn.userReceives : Side → Pubkey
  | .bid => accounts.userBaseTokenAccount.key
  | .ask => accounts.userQuoteTokenAccount.key

/-- The account the maker pays from. -/
def FillExactIn.makerPays : Side → Pubkey
  | .bid => accounts.makerBaseTokenAccount.key
  | .ask => accounts.makerQuoteTokenAccount.key

/-- The account the maker is paid into. -/
def FillExactIn.makerReceives : Side → Pubkey
  | .bid => accounts.makerQuoteTokenAccount.key
  | .ask => accounts.makerBaseTokenAccount.key

theorem FillExactIn.moves_eq (side : Side) (amountIn out : UInt64) :
    accounts.moves side amountIn out =
      [⟨accounts.userPays side, accounts.makerReceives side, amountIn.toNat⟩,
        ⟨accounts.makerPays side, accounts.userReceives side, out.toNat⟩] := by
  cases side with
  | bid | ask => rfl

end Accounts

end SolanaRfq
