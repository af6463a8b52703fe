import SolanaRfq.Decoder.IdlTypes

/-!
# The declared aggregator arguments

The types that `fill-decoder/idls/dex_solana_v3.json` declares for the arguments of the swap
entrypoints, with their Borsh encodings. `RfqSide` and `RfqLevel` are `Side` and `Level`.

* `Dex`: the 136 declared variants; `Dex.tag`, `Dex.encodeFields`: the tag and the fields behind it;
* `DynamicCandidate`, `SelectionMode`, `DynamicRouteSpec`, `RemainingAccountsInfo`: nested types;
* `Route`, `SwapArgs`, `SwapArgs.encode`: the arguments.
-/

namespace SolanaRfq.Idl

open ByteFormat Borsh

/-! ## Field types -/

/-- A vector with a Borsh encoding: its length is a `u32`. -/
structure Vec (α : Type) where
  items : List α
  length_lt : items.length < 2 ^ 32

/-- The payload of the `*WithSig` variants. -/
structure SignedQuote where
  unixTimestamp : UInt64
  msgAmountIn : UInt64
  expectAmountOut : UInt64
  slippage : UInt16
  userRequestSlot : UInt64
  signature : List.Vector UInt8 64
  recoveryId : UInt8

/-- What a slice of remaining accounts is for. -/
inductive AccountsType where
  | transferHookInput
  | transferHookOutput

/-- A slice of remaining accounts: its kind and its length. -/
structure RemainingAccountsSlice where
  accountsType : AccountsType
  length : UInt8

/-- The slices of the remaining accounts of a hook swap. -/
structure RemainingAccountsInfo where
  slices : Vec RemainingAccountsSlice

/-- The 15 declared candidates of a dynamic route. -/
inductive DynamicCandidate where
  | manifest | tessera | goonfiV2
  | humidifiSwap2 (swapId : UInt64)
  | solfiV2
  | scorch (id : BitVec 128)
  | bisonFi | raydiumSwapV2 | raydiumClmmSwapV2 | whirlpoolV2
  | bisonFiWithSig (quote : SignedQuote)
  | quantum | zerofi | alphaQ
  | fluxMM (swapId : UInt64)

/-- How a dynamic route picks its candidate. -/
inductive SelectionMode where
  | auto
  | forced (index : UInt8)
  | hint (index : UInt8)

/-- The candidates of a dynamic route and the way one is picked. -/
structure DynamicRouteSpec where
  candidates : Vec DynamicCandidate
  mode : SelectionMode

/-- The 136 declared variants, in declaration order. -/
inductive Dex where
  | splTokenSwap | stableSwap | whirlpool | meteoraDynamicpool | goonfiV2WithSig
  | raydiumStableSwap | raydiumClmmSwap | aldrinExchangeV1 | aldrinExchangeV2 | lifinityV1
  | lifinityV2 | raydiumClmmSwapV2 | fluxBeam | meteoraDlmm | raydiumCpmmSwap | openBookV2
  | whirlpoolV2 | phoenix | obricV2 | sanctumAddLiq | sanctumRemoveLiq | sanctumNonWsolSwap
  | sanctumWsolSwap
  | pumpfunBuy (isCashBack : Bool)
  | pumpfunSell (isCashBack : Bool)
  | stabbleSwap | sanctumRouter | meteoraVaultDeposit | meteoraVaultWithdraw | saros
  | meteoraLst | solfi | qualiaSwap | zerofi
  | pumpfunammBuy (isCashBack : Bool)
  | pumpfunammSell (isCashBack : Bool)
  | virtuals | vertigoBuy | vertigoSell | perpetualsAddLiq | perpetualsRemoveLiq
  | perpetualsSwap | raydiumLaunchpad | letsBonkFun | woofi | meteoraDbc | meteoraDlmmSwap2
  | meteoraDAMMV2 | gavel | boopfunBuy | boopfunSell | meteoraDbc2 | gooseFX | dooar | numeraire
  | saberDecimalWrapperDeposit | saberDecimalWrapperWithdraw | sarosDlmm | oneDexSwap | manifest
  | byrealClmm | pancakeSwapV3Swap | pancakeSwapV3SwapV2 | tessera
  | solRfq (rfqId expectedMakerAmount expectedTakerAmount makerSendAmount takerSendAmount : UInt64)
    (expiry : UInt64) (makerUseNativeSol takerUseNativeSol : Bool)
  | humidifi | heavenBuy | heavenSell | solfiV2 | goonfi | moonitBuy | moonitSell
  | raydiumSwapV2 | whalestreet
  | sugarMoneyBuy (bondingCurveBump bondingCurveSolAssociatedAccountBump : UInt8)
  | sugarMoneySell (bondingCurveBump bondingCurveSolAssociatedAccountBump : UInt8)
  | meteoraDAMMV2Swap2 | alphaQ | futarchyAmm | pumpfunBuyV2 | pumpfunSellV2
  | humidifiSwap2 (swapId : UInt64)
  | scorch (id : BitVec 128)
  | jupiterLendDeposit | jupiterLendRedeem | taurusFi | bisonFi | goonfiV2 | quantum
  | boopfunBuy2 | boopfunSell2 | byrealClmm2 | dooar2 | heavenBuy2 | heavenSell2 | moonitBuy2
  | moonitSell2 | saberDecimalWrapperDeposit2 | saberDecimalWrapperWithdraw2 | byrealPropAmm
  | sanctumPrefundSwapViaStake (swapId : UInt64)
  | abyssAmm | aquifer
  | whalestreetV2 (authAmountIn auth : UInt64)
  | solfiV2WithSig (quote : SignedQuote)
  | fusionAmm | scaleAmmBuy | scaleAmmSell | scaleVmmBuy | scaleVmmSell | pumpfunBuy3
  | pumpfunSell3 | pumpfunammBuy2 | pumpfunammSell2 | riptide | zerofiSwapV2 | taurusFiV2
  | solRfqV2 (takerSide : Side) (rfqId : UInt64) (expireAt : Int64) (levels : Vec Level)
  | fluxMM (swapId : UInt64)
  | meteoraDlmmSwap2Hook (remainingAccountsInfo : RemainingAccountsInfo) (binArrayCount : UInt8)
  | bisonFiWithSig (quote : SignedQuote)
  | meteoraDbcSwapWithHook (baseHookCount : UInt8)
  | zerofiSwapV4 | moonpay | binaryFi
  | archer (makerBookCount : UInt8)
  | dynamicRouteV1 (spec : DynamicRouteSpec)
  | flint | raydiumStableSwapV2 | kipseli | hadron | denaliPropAmm
  | zerofiWithSig (signature : List.Vector UInt8 40)
  | native (quoteData : Vec UInt8)
  | humidifiSwapRouter (routerId claimedMs : UInt64) (seedRng : List.Vector UInt8 32)
    (token : List.Vector UInt8 16) (endUser : Pubkey)
  | deriverse

/-- A declared route. -/
structure Route where
  dex : Dex
  weight : UInt16
  index : UInt8

/-- The declared arguments of the swap entrypoints. -/
structure SwapArgs where
  orderId : UInt64
  amountIn : UInt64
  expectAmountOut : UInt64
  slippage : UInt16
  routes : Vec Route

/-! ## Encodings -/

/-- A `bool` is one byte, 0 or 1. -/
def encodeBool (b : Bool) : List UInt8 := [b.toUInt8]
def encodeU128 (v : BitVec 128) : List UInt8 := toLE 16 v.toNat

def SignedQuote.encode (q : SignedQuote) : List UInt8 :=
  encodeU64 q.unixTimestamp ++ encodeU64 q.msgAmountIn ++ encodeU64 q.expectAmountOut ++
    encodeU16 q.slippage ++ encodeU64 q.userRequestSlot ++ q.signature.toList ++ [q.recoveryId]

def RemainingAccountsSlice.encode (s : RemainingAccountsSlice) : List UInt8 :=
  [UInt8.ofNat s.accountsType.ctorIdx, s.length]

def RemainingAccountsInfo.encode (r : RemainingAccountsInfo) : List UInt8 :=
  encodeVec RemainingAccountsSlice.encode r.slices.items

/-- A candidate is written under its variant index. -/
def DynamicCandidate.tag (c : DynamicCandidate) : UInt8 := UInt8.ofNat c.ctorIdx

/-- The fields of a candidate, behind its tag. -/
def DynamicCandidate.encodeFields : DynamicCandidate → List UInt8
  | .humidifiSwap2 swapId => encodeU64 swapId
  | .scorch id => encodeU128 id
  | .bisonFiWithSig quote => quote.encode
  | .fluxMM swapId => encodeU64 swapId
  | _ => []

def DynamicCandidate.encode (c : DynamicCandidate) : List UInt8 := c.tag :: c.encodeFields

def SelectionMode.encode : SelectionMode → List UInt8
  | .auto => [0]
  | .forced index => [1, index]
  | .hint index => [2, index]

def DynamicRouteSpec.encode (s : DynamicRouteSpec) : List UInt8 :=
  encodeVec DynamicCandidate.encode s.candidates.items ++ s.mode.encode

def sideTag (s : Side) : UInt8 := UInt8.ofNat s.ctorIdx

/-- A variant is written under its index. -/
def Dex.tag (d : Dex) : UInt8 := UInt8.ofNat d.ctorIdx

/-- The fields of a variant, behind its tag. -/
def Dex.encodeFields : Dex → List UInt8
  | .pumpfunBuy isCashBack => encodeBool isCashBack
  | .pumpfunSell isCashBack => encodeBool isCashBack
  | .pumpfunammBuy isCashBack => encodeBool isCashBack
  | .pumpfunammSell isCashBack => encodeBool isCashBack
  | .solRfq rfqId expectedMaker expectedTaker makerSend takerSend expiry makerSol takerSol =>
    encodeU64 rfqId ++ encodeU64 expectedMaker ++ encodeU64 expectedTaker ++ encodeU64 makerSend ++
      encodeU64 takerSend ++ encodeU64 expiry ++ encodeBool makerSol ++ encodeBool takerSol
  | .sugarMoneyBuy bump accountBump => [bump, accountBump]
  | .sugarMoneySell bump accountBump => [bump, accountBump]
  | .humidifiSwap2 swapId => encodeU64 swapId
  | .scorch id => encodeU128 id
  | .sanctumPrefundSwapViaStake swapId => encodeU64 swapId
  | .whalestreetV2 authAmountIn auth => encodeU64 authAmountIn ++ encodeU64 auth
  | .solfiV2WithSig quote => quote.encode
  | .solRfqV2 takerSide rfqId expireAt levels =>
    [sideTag takerSide] ++ encodeU64 rfqId ++ encodeI64 expireAt ++
      encodeVec (fun l => encodeU64 l.baseAtoms ++ encodeU64 l.quoteAtoms) levels.items
  | .fluxMM swapId => encodeU64 swapId
  | .meteoraDlmmSwap2Hook remainingAccountsInfo binArrayCount =>
    remainingAccountsInfo.encode ++ [binArrayCount]
  | .bisonFiWithSig quote => quote.encode
  | .meteoraDbcSwapWithHook baseHookCount => [baseHookCount]
  | .archer makerBookCount => [makerBookCount]
  | .dynamicRouteV1 spec => spec.encode
  | .zerofiWithSig signature => signature.toList
  | .native quoteData => encodeVec (fun b => [b]) quoteData.items
  | .humidifiSwapRouter routerId claimedMs seedRng token endUser =>
    encodeU64 routerId ++ encodeU64 claimedMs ++ seedRng.toList ++ token.toList ++ endUser.toList
  | _ => []

def Dex.encode (d : Dex) : List UInt8 := d.tag :: d.encodeFields

def Route.encode (r : Route) : List UInt8 := r.dex.encode ++ encodeU16 r.weight ++ [r.index]

/-- The Borsh encoding of the arguments. -/
def SwapArgs.encode (a : SwapArgs) : List UInt8 :=
  encodeU64 a.orderId ++ encodeU64 a.amountIn ++ encodeU64 a.expectAmountOut ++
    encodeU16 a.slippage ++ encodeVec Route.encode a.routes.items

example : Dex.deriverse.tag = 135 := by decide

/-! ## Lengths -/

@[simp] theorem length_encodeBool (b : Bool) : (encodeBool b).length = 1 := rfl

@[simp] theorem length_encodeU128 (v : BitVec 128) : (encodeU128 v).length = 16 := length_toLE _ _

@[simp] theorem SignedQuote.length_encode (q : SignedQuote) : q.encode.length = 99 := by
  simp [SignedQuote.encode]

@[simp] theorem RemainingAccountsSlice.length_encode (s : RemainingAccountsSlice) :
    s.encode.length = 2 := rfl

end SolanaRfq.Idl
