import SolanaRfq.Format.Borsh
import SolanaRfq.Decoder.Types

/-!
# The aggregator arguments

`fill-decoder/src/idl_types.rs`: the swap entrypoints of the aggregator and the Borsh reader of
their arguments. Only `SolRfqV2` routes keep their fields; the body of any other route is skipped.

* `DexArm`, `dexArm`: what follows each variant tag; `deserializeDex`: the reader of a variant;
* `deserializeSwapArgs`, `decodeSwapArgs`: the arguments and the dispatch on the discriminator.
-/

namespace SolanaRfq

open ByteFormat Borsh

/-! ## Discriminators -/

namespace Entrypoint

def swap : List UInt8 := [248, 198, 158, 145, 225, 117, 135, 200]
def proxySwap : List UInt8 := [19, 44, 130, 148, 72, 56, 44, 238]
def swapToc : List UInt8 := [187, 201, 212, 51, 16, 155, 236, 60]
def swapTocV2 : List UInt8 := [127, 214, 107, 189, 23, 90, 47, 104]
def swapTocV3 : List UInt8 := [86, 222, 68, 49, 225, 9, 201, 235]
def swapTob : List UInt8 := [170, 41, 85, 177, 132, 80, 31, 53]
def swapTobV2 : List UInt8 := [72, 1, 215, 242, 8, 75, 54, 216]
def swapTobV3 : List UInt8 := [14, 191, 44, 246, 142, 225, 224, 157]
def swapTobWithReceiver : List UInt8 := [223, 170, 216, 234, 204, 6, 241, 25]
def swapTobWithReceiverV3 : List UInt8 := [26, 190, 234, 223, 241, 5, 177, 189]
def swapTobWithTokenLedger : List UInt8 := [36, 92, 147, 219, 26, 176, 159, 90]
def swapTobWithTokenLedgerV3 : List UInt8 := [132, 77, 6, 86, 35, 66, 224, 171]
def swapTobWithReceiverTokenLedger : List UInt8 := [239, 93, 10, 202, 161, 134, 127, 130]
def swapTobWithReceiverTokenLedgerV3 : List UInt8 := [119, 172, 209, 16, 91, 44, 63, 224]
def swapTobEnhanced : List UInt8 := [190, 156, 169, 176, 149, 154, 161, 108]

/-- The entrypoints whose arguments are decoded. -/
def supported : List (List UInt8) := [swap, proxySwap, swapToc, swapTocV2, swapTocV3]

/-- The entrypoints that are recognised and refused. -/
def unsupported : List (List UInt8) :=
  [swapTob, swapTobV2, swapTobV3, swapTobWithReceiver, swapTobWithReceiverV3, swapTobEnhanced,
    swapTobWithTokenLedger, swapTobWithTokenLedgerV3, swapTobWithReceiverTokenLedger,
    swapTobWithReceiverTokenLedgerV3]

end Entrypoint

/-! ## Variants -/

/-- The mirror of the `Dex` enum: a variant other than `SolRfqV2` is reduced to its tag. -/
inductive Dex where
  | solRfqV2 (takerSide : UInt8) (rfqId : UInt64) (expireAt : Int64) (levels : List Level)
  | other (tag : UInt8)
deriving DecidableEq

/-- What the reader does after a variant tag. -/
inductive DexArm where
  | skip (len : ℕ)
  | solRfqV2
  | remainingAccountsInfo
  | dynamicRouteSpec
  | borshBytes
  | tagOnly
  | outOfRange
deriving DecidableEq, Repr

/-- The arms of the `match tag`. -/
def dexArm (tag : UInt8) : DexArm :=
  if tag ∈ [23, 24, 34, 35] then .skip 1 -- cashback bool
  else if tag = 64 then .skip 50 -- SolRfq: 6×u64 + 2×bool
  else if tag ∈ [74, 75] then .skip 2 -- SugarMoneyBuy/Sell: 2×u8
  else if tag = 81 then .skip 8 -- HumidifiSwap2: u64
  else if tag = 82 then .skip 16 -- Scorch: u128
  else if tag = 100 then .skip 8 -- SanctumPrefundSwapViaStake: u64
  else if tag = 103 then .skip 16 -- WhalestreetV2: 2×u64
  else if tag ∈ [104, 120] then .skip 99 -- *WithSig payload
  else if tag = 117 then .solRfqV2
  else if tag = 118 then .skip 8 -- FluxMM: u64
  else if tag = 119 then .remainingAccountsInfo
  else if tag ∈ [121, 125, 138] then .skip 1 -- hook/book/oracle count
  else if tag = 126 then .dynamicRouteSpec
  else if tag = 132 then .skip 40 -- ZerofiWithSig signature
  else if tag = 133 then .borshBytes -- Native quote_data
  else if tag = 134 then .skip 96 -- HumidifiSwapRouter
  else if tag ≤ 22 ∨ 25 ≤ tag ∧ tag ≤ 33 ∨ 36 ≤ tag ∧ tag ≤ 63 ∨ 65 ≤ tag ∧ tag ≤ 73 ∨
    76 ≤ tag ∧ tag ≤ 80 ∨ 83 ≤ tag ∧ tag ≤ 99 ∨ 101 ≤ tag ∧ tag ≤ 102 ∨
    105 ≤ tag ∧ tag ≤ 116 ∨ 122 ≤ tag ∧ tag ≤ 124 ∨ 127 ≤ tag ∧ tag ≤ 131 ∨
    135 ≤ tag ∧ tag ≤ 137 ∨ 139 ≤ tag ∧ tag ≤ 140 then .tagOnly
  else .outOfRange

/-- A `u32` count of two-byte slices. -/
def skipRemainingAccountsInfo : BorshReader Unit := do
  let count ← u32
  let _ ← many (skipExact 2) count.toNat

/-- A `u32` length and that many bytes. -/
def skipBorshBytes : BorshReader Unit := do
  let len ← u32
  skipExact len.toNat

/-- The body length of a `DynamicCandidate`, by tag. -/
def candidateLen (candidate : UInt8) : Option ℕ :=
  if candidate ∈ [3, 14] then some 8 -- HumidifiSwap2 / FluxMM swap_id
  else if candidate ∈ [5, 16] then some 16 -- Scorch / ScorchV2 id
  else if candidate = 10 then some 99 -- BisonFiWithSig
  else if candidate = 15 then some 96 -- HumidifiSwapRouter
  else if candidate ≤ 2 ∨ candidate = 4 ∨ 6 ≤ candidate ∧ candidate ≤ 9 ∨
    11 ≤ candidate ∧ candidate ≤ 13 ∨ candidate = 17 then some 0
  else none

/-- A candidate tag and the body of that candidate. -/
def skipCandidate : BorshReader Unit := do
  let candidate ← byte
  match candidateLen candidate with
  | some len => skipExact len
  | none => throw (.invalidData
      s!"DynamicCandidate tag {candidate} out of declared range 0..=17")

/-- A mode, with an index behind the modes 1 and 2. -/
def skipSelectionMode : BorshReader Unit := do
  let mode ← byte
  if mode = 1 ∨ mode = 2 then skipExact 1
  else failIf (mode ≠ 0) (.invalidData s!"SelectionMode tag {mode} is invalid")

/-- A `u32` count of candidates, and the mode. -/
def skipDynamicRouteSpec : BorshReader Unit := do
  let count ← u32
  let _ ← many skipCandidate count.toNat
  skipSelectionMode

def deserializeLevel : BorshReader Level := do
  let baseAtoms ← u64
  let quoteAtoms ← u64
  return ⟨baseAtoms, quoteAtoms⟩

/-- The only variant whose fields are kept. -/
def deserializeSolRfqV2 : BorshReader Dex := do
  let takerSide ← byte
  let rfqId ← u64
  let expireAt ← i64
  let levels ← vec deserializeLevel
  return .solRfqV2 takerSide rfqId expireAt levels

/-- The arms of `Dex::deserialize_reader`. -/
def deserializeDexBody (tag : UInt8) : DexArm → BorshReader Dex
  | .solRfqV2 => deserializeSolRfqV2
  | .skip len => do
    skipExact len
    return .other tag
  | .remainingAccountsInfo => do
    skipRemainingAccountsInfo
    skipExact 1 -- bin_array_count
    return .other tag
  | .dynamicRouteSpec => do
    skipDynamicRouteSpec
    return .other tag
  | .borshBytes => do
    skipBorshBytes
    return .other tag
  | .tagOnly => return .other tag
  | .outOfRange => throw (.invalidData s!"Dex variant tag {tag} out of declared range 0..=140")

/-- `Dex::deserialize_reader`. -/
def deserializeDex : BorshReader Dex := do
  let tag ← byte
  deserializeDexBody tag (dexArm tag)

/-! ## Arguments -/

/-- A route of the aggregator's routing graph. -/
structure Route where
  dex : Dex
  weight : UInt16
  index : UInt8
deriving DecidableEq

/-- The arguments of a swap entrypoint. -/
structure SwapArgs where
  orderId : UInt64
  amountIn : UInt64
  expectAmountOut : UInt64
  slippage : UInt16
  routes : List Route
deriving DecidableEq

/-- Token-ledger arguments, without `amount_in`. -/
structure SwapArgsTokenLedger where
  orderId : UInt64
  expectAmountOut : UInt64
  slippage : UInt16
  routes : List Route
deriving DecidableEq

/-- The arguments of any recognised entrypoint. -/
inductive AnySwapArgs where
  | concrete (args : SwapArgs)
  | tokenLedger (args : SwapArgsTokenLedger)
  | unsupported
deriving DecidableEq

/-- Which shape of arguments an instruction used. -/
inductive EntrypointKind where
  | concrete
  | tokenLedger
  | unsupported
deriving DecidableEq, Repr

/-- The routes of any shape of arguments. -/
def AnySwapArgs.routes : AnySwapArgs → List Route
  | .concrete a => a.routes
  | .tokenLedger a => a.routes
  | .unsupported => []

/-- The shape of the arguments. -/
def AnySwapArgs.kind : AnySwapArgs → EntrypointKind
  | .concrete _ => .concrete
  | .tokenLedger _ => .tokenLedger
  | .unsupported => .unsupported

/-- A variant, its weight and its index. -/
def deserializeRoute : BorshReader Route := do
  let dex ← deserializeDex
  let weight ← u16
  let index ← byte
  return ⟨dex, weight, index⟩

/-- The four fields and the routes. -/
def deserializeSwapArgs : BorshReader SwapArgs := do
  let orderId ← u64
  let amountIn ← u64
  let expectAmountOut ← u64
  let slippage ← u16
  let routes ← vec deserializeRoute
  return ⟨orderId, amountIn, expectAmountOut, slippage, routes⟩

/-- Bytes behind the arguments are ignored. -/
def trySwapArgs (body : List UInt8) : Option AnySwapArgs :=
  match runReader deserializeSwapArgs body with
  | .ok args => some (.concrete args)
  | .error _ => none

/-- Match the first 8 bytes against the known discriminators. -/
def decodeSwapArgs (data : List UInt8) : Option AnySwapArgs :=
  if data.length < 8 then none
  else
    let disc := data.take 8
    let body := data.drop 8
    if disc ∈ Entrypoint.supported then trySwapArgs body
    else if disc ∈ Entrypoint.unsupported then some .unsupported
    else none

end SolanaRfq
