import SolanaRfq.Program.Exclusivity
import SolanaRfq.Program.Runtime
import SolanaRfq.Program.Sweep

/-!
# The handler

`programs/solana-rfq-v2/src/handler.rs`: the accounts of a fill, the mint check and the handler. A
handler that fails leaves what it changed to the runtime, which commits only a success.

* `FillExactIn`: the accounts, with the constraints they were loaded under;
* `checkMintCompatibility`: no mint with a transfer fee at the current epoch;
* `settleBid`, `settleAsk`: the two transfers of a side; `handler`: the instruction;
* `fillExactIn`: the instruction as the runtime commits it.
-/

namespace SolanaRfq

open Transaction

/-! ## The accounts -/

/-- An account loaded from the ledger. -/
structure Loaded {α : Type} (accounts : Pubkey → Option α) where
  key : Pubkey
  data : α
  loaded : accounts key = some data

/-- `token::mint` and `token::token_program`. -/
structure TokenConstraint (account : TokenAccount) (mint : Pubkey) (program : TokenProgram) :
    Prop where
  mint : account.mint = mint
  token_program : account.owner = program

/-- The accounts of a fill. -/
structure FillExactIn (ledger : Ledger) where
  user : Pubkey
  fillAuthority : Pubkey
  userBaseTokenAccount : Loaded ledger.tokens
  userQuoteTokenAccount : Loaded ledger.tokens
  makerBaseTokenAccount : Loaded ledger.tokens
  makerQuoteTokenAccount : Loaded ledger.tokens
  baseMint : Loaded ledger.mints
  quoteMint : Loaded ledger.mints
  baseTokenProgram : TokenProgram
  quoteTokenProgram : TokenProgram
  instructionsSysvar : InstructionsSysvar
  userBase : TokenConstraint userBaseTokenAccount.data baseMint.key baseTokenProgram
  userQuote : TokenConstraint userQuoteTokenAccount.data quoteMint.key quoteTokenProgram
  makerBase : TokenConstraint makerBaseTokenAccount.data baseMint.key baseTokenProgram
  makerQuote : TokenConstraint makerQuoteTokenAccount.data quoteMint.key quoteTokenProgram
  makerBase_authority : makerBaseTokenAccount.data.authority = fillAuthority
  makerQuote_authority : makerQuoteTokenAccount.data.authority = fillAuthority

/-! ## The instruction -/

variable (rt : Runtime)

/-- A Token-2022 mint may have no transfer fee at the current epoch. -/
def checkMintCompatibility (mint : Mint) (epoch : UInt64) : Except ProgramError Unit :=
  if mint.owner = .token then .ok ()
  else
    match rt.getMintExtensionData mint with
    | .ok cfg =>
      require ((rt.getEpochFee cfg epoch).transferFeeBasisPoints = 0) .unsupportedMintExtension
    | .error _ => .ok ()

variable {ledger : Ledger} (accounts : FillExactIn ledger)

/-- The `Side::Bid` arm: the user pays quote atoms, the maker base atoms. -/
def settleBid (amountInAtoms minOutAtoms : UInt64) (levels : List Level) : Exec UInt64 := do
  assertSortedBid levels
  let out ← sweepBid amountInAtoms minOutAtoms levels
  transferChecked rt accounts.quoteTokenProgram
    { fromAccount := accounts.userQuoteTokenAccount.key
      mint := accounts.quoteMint.key
      toAccount := accounts.makerQuoteTokenAccount.key
      authority := accounts.user }
    amountInAtoms accounts.quoteMint.data.decimals
  transferChecked rt accounts.baseTokenProgram
    { fromAccount := accounts.makerBaseTokenAccount.key
      mint := accounts.baseMint.key
      toAccount := accounts.userBaseTokenAccount.key
      authority := accounts.fillAuthority }
    out accounts.baseMint.data.decimals
  return out

/-- The `Side::Ask` arm: the user pays base atoms, the maker quote atoms. -/
def settleAsk (amountInAtoms minOutAtoms : UInt64) (levels : List Level) : Exec UInt64 := do
  assertSortedAsk levels
  let out ← sweepAsk amountInAtoms minOutAtoms levels
  transferChecked rt accounts.baseTokenProgram
    { fromAccount := accounts.userBaseTokenAccount.key
      mint := accounts.baseMint.key
      toAccount := accounts.makerBaseTokenAccount.key
      authority := accounts.user }
    amountInAtoms accounts.baseMint.data.decimals
  transferChecked rt accounts.quoteTokenProgram
    { fromAccount := accounts.makerQuoteTokenAccount.key
      mint := accounts.quoteMint.key
      toAccount := accounts.userQuoteTokenAccount.key
      authority := accounts.fillAuthority }
    out accounts.quoteMint.data.decimals
  return out

/-- The instruction handler: the checks, the arm of the side, the event. -/
def handler (takerSide : Side) (amountInAtoms minOutAtoms : UInt64) (params : FillExactInParams) :
    Exec Unit := do
  require (amountInAtoms > 0) .zeroAmountIn
  require (params.levels ≠ []) .emptyLevels
  let clock ← clockGet rt
  require (clock.unixTimestamp ≤ params.expireAt) .staleOrderbook
  checkMintCompatibility rt accounts.baseMint.data clock.epoch
  checkMintCompatibility rt accounts.quoteMint.data clock.epoch
  let protectedKeys := [accounts.fillAuthority, accounts.makerBaseTokenAccount.key,
    accounts.makerQuoteTokenAccount.key]
  checkFillExclusivity accounts.instructionsSysvar protectedKeys
  let amountOutAtoms ←
    match takerSide with
    | .bid => settleBid rt accounts amountInAtoms minOutAtoms params.levels
    | .ask => settleAsk rt accounts amountInAtoms minOutAtoms params.levels
  emitCpi rt
    { rfqId := params.rfqId
      user := accounts.user
      fillAuthority := accounts.fillAuthority
      takerSide := takerSide
      baseMint := accounts.baseMint.key
      quoteMint := accounts.quoteMint.key
      amountInAtoms := amountInAtoms
      amountOutAtoms := amountOutAtoms }

/-- `fill_exact_in`: the runtime commits the handler. -/
def fillExactIn (w : World) (accounts : FillExactIn w.ledger) (takerSide : Side)
    (amountInAtoms minOutAtoms : UInt64) (params : FillExactInParams) :
    Except ProgramError Unit × World :=
  commit (handler rt accounts takerSide amountInAtoms minOutAtoms params) w

end SolanaRfq
