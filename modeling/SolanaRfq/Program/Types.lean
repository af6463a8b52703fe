import SolanaRfq.Decoder.Types

/-!
# The types of the program

The records of `programs/solana-rfq-v2/src/types.rs` and the error codes of `error.rs`. `Side` and
`Level` are declared with the decoder's types.
-/

namespace SolanaRfq

/-- The quote of the maker. -/
structure FillExactInParams where
  rfqId : UInt64
  expireAt : Int64
  levels : List Level
deriving DecidableEq

/-- The event of a settled fill. -/
structure FillExactInEvent where
  rfqId : UInt64
  user : Pubkey
  fillAuthority : Pubkey
  takerSide : Side
  baseMint : Pubkey
  quoteMint : Pubkey
  amountInAtoms : UInt64
  amountOutAtoms : UInt64
deriving DecidableEq

/-- The error codes of the program, in the order of `error.rs`. -/
inductive ErrorCode where
  | overflow
  | insufficientLiquidity
  | staleOrderbook
  | invalidLevelOrdering
  | emptyLevels
  | makerAppearsInOtherInstruction
  | zeroAmountIn
  | degenerateLevelEntry
  | unsupportedMintExtension
  | slippageExceeded
deriving DecidableEq, Repr

/-- An error of the program: one of its own codes, or the code of a runtime or CPI failure. -/
inductive ProgramError where
  | code (e : ErrorCode)
  | runtime (e : UInt64)
deriving DecidableEq, Repr

/-- `require!(p, e)`. -/
def require (p : Prop) [Decidable p] (e : ErrorCode) : Except ProgramError Unit :=
  if p then .ok () else .error (.code e)

theorem require_eq_ok {p : Prop} [Decidable p] {e : ErrorCode} {u : Unit} :
    require p e = .ok u ↔ p := by
  unfold require
  split_ifs with h <;> simp [h]

theorem require_bind_eq_ok {α : Type} {p : Prop} [Decidable p] {e : ErrorCode}
    {f : Unit → Except ProgramError α} {a : α} :
    (require p e >>= f) = .ok a ↔ p ∧ f () = .ok a := by
  unfold require
  split_ifs with h <;> simp [h, bind, Except.bind]

theorem require_bind_of_pos {α : Type} {p : Prop} [Decidable p] (h : p) (e : ErrorCode)
    (f : Unit → Except ProgramError α) : require p e >>= f = f () := by
  rw [require, if_pos h]
  rfl

theorem require_bind_of_neg {α : Type} {p : Prop} [Decidable p] (h : ¬ p) (e : ErrorCode)
    (f : Unit → Except ProgramError α) : require p e >>= f = .error (.code e) := by
  rw [require, if_neg h]
  rfl

end SolanaRfq
