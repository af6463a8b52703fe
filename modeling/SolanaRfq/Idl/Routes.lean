import SolanaRfq.Decoder.Aggregator
import SolanaRfq.Decoder.Spelling
import SolanaRfq.Idl.DexV3

/-!
# Declared routes decode in step

Each reader of a skipped body consumes exactly what the declaration of its variant writes, so no
route shifts the ones behind it.

* `Idl.Dex.mirror`, `Idl.Route.mirror`, `Idl.SwapArgs.mirror`: what the decoder keeps of a value;
* `candidateBody_encode`, `dexSpelled_encode`: one case per declared variant;
* **`decodeSwapArgs_encode`**: declared arguments decode to their mirror, whatever follows them;
* **`decodeSolrfqv2Legs_encode`**: and to exactly one fill per `SolRfqV2` route.
-/

namespace SolanaRfq

open ByteFormat Borsh

/-! ## What the decoder keeps -/

namespace Idl

/-- A `SolRfqV2` variant keeps its fields, any other its tag. -/
def Dex.mirror : Dex → SolanaRfq.Dex
  | .solRfqV2 takerSide rfqId expireAt levels =>
    .solRfqV2 (sideTag takerSide) rfqId expireAt levels.items
  | d => .other d.tag

/-- What the decoder keeps of a declared route. -/
def Route.mirror (r : Route) : SolanaRfq.Route := ⟨r.dex.mirror, r.weight, r.index⟩

/-- What the decoder keeps of declared arguments. -/
def SwapArgs.mirror (a : SwapArgs) : SolanaRfq.SwapArgs :=
  ⟨a.orderId, a.amountIn, a.expectAmountOut, a.slippage, a.routes.items.map Route.mirror⟩

/-- The fill of a `SolRfqV2` route. -/
def Route.fill? (r : Route) : Option DecodedFill :=
  match r.dex with
  | .solRfqV2 takerSide rfqId expireAt levels =>
    some { takerSide, rfqId, expireAt, levels := levels.items }
  | _ => none

end Idl

/-! ## Nested bodies -/

theorem remainingAccountsBody_encode (info : Idl.RemainingAccountsInfo) :
    RemainingAccountsBody info.encode := by
  have hn : (UInt32.ofNat info.slices.items.length).toNat = info.slices.items.length :=
    UInt32.toNat_ofNat_of_lt' info.slices.length_lt
  refine ⟨UInt32.ofNat info.slices.items.length,
    info.slices.items.flatMap Idl.RemainingAccountsSlice.encode, ?_, ?_⟩
  · rw [hn, List.flatMap_def, flatten_length_of_forall (k := 2), List.length_map]
    intro w hw
    obtain ⟨s, -, rfl⟩ := List.mem_map.mp hw
    exact s.length_encode
  · rw [encodeU32, hn]
    rfl

theorem candidateBody_encode (c : Idl.DynamicCandidate) : CandidateBody c.encode := by
  refine ⟨c.tag, c.encodeFields, ?_, rfl⟩
  cases c with
  | humidifiSwap2 swapId => rw [Idl.DynamicCandidate.encodeFields, length_encodeU64]; rfl
  | scorch id => rw [Idl.DynamicCandidate.encodeFields, Idl.length_encodeU128]; rfl
  | bisonFiWithSig quote =>
    rw [Idl.DynamicCandidate.encodeFields, Idl.SignedQuote.length_encode]; rfl
  | fluxMM swapId => rw [Idl.DynamicCandidate.encodeFields, length_encodeU64]; rfl
  | _ => rfl

theorem modeBody_encode (mode : Idl.SelectionMode) : ModeBody mode.encode := by
  cases mode with
  | auto => exact .inl rfl
  | forced index => exact .inr ⟨index, .inl rfl⟩
  | hint index => exact .inr ⟨index, .inr rfl⟩

theorem dynamicRouteBody_encode (spec : Idl.DynamicRouteSpec) : DynamicRouteBody spec.encode := by
  refine ⟨spec.candidates.items.map Idl.DynamicCandidate.encode, ?_, ?_, spec.mode.encode,
    modeBody_encode spec.mode, ?_⟩
  · rw [List.length_map]
    exact spec.candidates.length_lt
  · intro w hw
    obtain ⟨c, -, rfl⟩ := List.mem_map.mp hw
    exact candidateBody_encode c
  · rw [List.length_map, ← List.flatMap_def]
    rfl

theorem borshBytesBody_encode (bytes : Idl.Vec UInt8) :
    DexArm.borshBytes.Body (encodeVec (fun b => [b]) bytes.items) := by
  have hn : (UInt32.ofNat bytes.items.length).toNat = bytes.items.length :=
    UInt32.toNat_ofNat_of_lt' bytes.length_lt
  refine ⟨UInt32.ofNat bytes.items.length, bytes.items, hn.symm, ?_⟩
  rw [encodeU32, hn, encodeVec, List.flatMap_singleton']

/-! ## Variants -/

theorem dexSpelled_other {d : Idl.Dex} (arm : DexArm) (harm : dexArm d.tag = arm)
    (hbody : arm.Body d.encodeFields) : DexSpelled (.other d.tag) d.encode :=
  ⟨d.encodeFields, harm ▸ hbody, rfl⟩

/-- **Every declared variant is read as its mirror.** -/
theorem dexSpelled_encode (d : Idl.Dex) : DexSpelled d.mirror d.encode := by
  cases d with
  | solRfqV2 takerSide rfqId expireAt levels =>
    refine ⟨levels.length_lt, ?_⟩
    simp only [Idl.Dex.encode, Idl.Dex.encodeFields, encodeSolRfqV2, List.append_assoc]
    rfl
  | pumpfunBuy isCashBack => exact dexSpelled_other (.skip 1) rfl rfl
  | pumpfunSell isCashBack => exact dexSpelled_other (.skip 1) rfl rfl
  | pumpfunammBuy isCashBack => exact dexSpelled_other (.skip 1) rfl rfl
  | pumpfunammSell isCashBack => exact dexSpelled_other (.skip 1) rfl rfl
  | solRfq rfqId expectedMaker expectedTaker makerSend takerSend expiry makerSol takerSol =>
    refine dexSpelled_other (.skip 50) rfl ?_
    simp [DexArm.Body, Idl.Dex.encodeFields]
  | sugarMoneyBuy bump accountBump => exact dexSpelled_other (.skip 2) rfl rfl
  | sugarMoneySell bump accountBump => exact dexSpelled_other (.skip 2) rfl rfl
  | humidifiSwap2 swapId => exact dexSpelled_other (.skip 8) rfl (length_encodeU64 swapId)
  | scorch id => exact dexSpelled_other (.skip 16) rfl (Idl.length_encodeU128 id)
  | sanctumPrefundSwapViaStake swapId =>
    exact dexSpelled_other (.skip 8) rfl (length_encodeU64 swapId)
  | whalestreetV2 authAmountIn auth =>
    refine dexSpelled_other (.skip 16) rfl ?_
    simp [DexArm.Body, Idl.Dex.encodeFields]
  | solfiV2WithSig quote => exact dexSpelled_other (.skip 99) rfl quote.length_encode
  | fluxMM swapId => exact dexSpelled_other (.skip 8) rfl (length_encodeU64 swapId)
  | meteoraDlmmSwap2Hook info binArrayCount =>
    refine dexSpelled_other .remainingAccountsInfo rfl ?_
    exact ⟨info.encode, binArrayCount, remainingAccountsBody_encode info, rfl⟩
  | bisonFiWithSig quote => exact dexSpelled_other (.skip 99) rfl quote.length_encode
  | meteoraDbcSwapWithHook baseHookCount => exact dexSpelled_other (.skip 1) rfl rfl
  | archer makerBookCount => exact dexSpelled_other (.skip 1) rfl rfl
  | dynamicRouteV1 spec =>
    exact dexSpelled_other .dynamicRouteSpec rfl (dynamicRouteBody_encode spec)
  | zerofiWithSig signature => exact dexSpelled_other (.skip 40) rfl signature.toList_length
  | native quoteData => exact dexSpelled_other .borshBytes rfl (borshBytesBody_encode quoteData)
  | humidifiSwapRouter routerId claimedMs seedRng token endUser =>
    refine dexSpelled_other (.skip 96) rfl ?_
    simp [DexArm.Body, Idl.Dex.encodeFields]
  | _ => exact dexSpelled_other .tagOnly rfl rfl

/-! ## Routes and arguments -/

theorem routeSpelled_encode (r : Idl.Route) : RouteSpelled r.mirror r.encode :=
  ⟨r.dex.encode, dexSpelled_encode r.dex, by rw [Idl.Route.encode, List.append_assoc]; rfl⟩

theorem forall₂_routeSpelled (routes : List Idl.Route) :
    List.Forall₂ RouteSpelled (routes.map Idl.Route.mirror) (routes.map Idl.Route.encode) := by
  induction routes with
  | nil => exact .nil
  | cons r routes ih => exact .cons (routeSpelled_encode r) ih

/-- The encoding of declared arguments, over what the decoder keeps of them. -/
theorem Idl.SwapArgs.encode_eq (a : Idl.SwapArgs) : a.encode = encodeSwapHead a.mirror ++
    (toLE 4 a.mirror.routes.length ++ (a.routes.items.map Idl.Route.encode).flatten) := by
  rw [show a.mirror.routes.length = a.routes.items.length from List.length_map .., ← List.flatMap_def]
  simp only [Idl.SwapArgs.encode, encodeVec, encodeSwapHead, List.append_assoc]
  rfl

theorem swapArgsSpelled_encode (a : Idl.SwapArgs) : SwapArgsSpelled a.mirror a.encode := by
  have hlen : a.mirror.routes.length = a.routes.items.length := List.length_map ..
  exact ⟨hlen ▸ a.routes.length_lt, a.routes.items.map Idl.Route.encode,
    forall₂_routeSpelled a.routes.items, a.encode_eq⟩

theorem fillOfRoute_mirror (r : Idl.Route) : fillOfRoute r.mirror = r.fill? := by
  obtain ⟨dex, weight, index⟩ := r
  cases dex with
  | solRfqV2 takerSide rfqId expireAt levels => cases takerSide <;> rfl
  | _ => rfl

/-- **Declared arguments decode to their mirror, whatever bytes follow them.** -/
theorem decodeSwapArgs_encode {disc : List UInt8} (hdisc : disc ∈ Entrypoint.supported)
    (a : Idl.SwapArgs) (suffix : List UInt8) :
    decodeSwapArgs (disc ++ a.encode ++ suffix) = some (.concrete a.mirror) := by
  have hlen : disc.length = 8 := by
    have hall : ∀ w ∈ Entrypoint.supported, w.length = 8 := by decide
    exact hall disc hdisc
  have hread : runReader deserializeSwapArgs (a.encode ++ suffix) = .ok a.mirror :=
    parses_deserializeSwapArgs.runReader_eq_ok.mpr
      ⟨a.encode, suffix, swapArgsSpelled_encode a, rfl⟩
  rw [decodeSwapArgs, List.append_assoc, List.take_left' hlen, List.drop_left' hlen,
    if_neg (by rw [List.length_append]; omega), if_pos hdisc, trySwapArgs, hread]

/-- **No route desynchronises the decoder.** -/
theorem decodeSolrfqv2Legs_encode {disc : List UInt8} (hdisc : disc ∈ Entrypoint.supported)
    (a : Idl.SwapArgs) (suffix : List UInt8) :
    decodeSwapArgs (disc ++ a.encode ++ suffix) = some (.concrete a.mirror) ∧
    decodeSolrfqv2Legs (disc ++ a.encode ++ suffix) =
      (some .concrete, a.routes.items.filterMap Idl.Route.fill?) := by
  have hargs := decodeSwapArgs_encode hdisc a suffix
  refine ⟨hargs, ?_⟩
  rw [decodeSolrfqv2Legs, hargs]
  refine Prod.ext rfl ?_
  show (a.routes.items.map Idl.Route.mirror).filterMap fillOfRoute = _
  rw [List.filterMap_map]
  exact List.filterMap_congr fun r _ => fillOfRoute_mirror r

/-- Two skipped routes of variable length in front of an RFQ leg. -/
def sampleSwapArgs : Idl.SwapArgs where
  orderId := 1
  amountIn := 1000
  expectAmountOut := 0
  slippage := 50
  routes := ⟨[⟨.native ⟨[117, 0, 117], by decide⟩, 10000, 0⟩,
    ⟨.dynamicRouteV1 ⟨⟨[.scorch 7, .manifest], by decide⟩, .hint 1⟩, 5000, 1⟩,
    ⟨.solRfqV2 .ask 7 100 ⟨[⟨5, 9⟩], by decide⟩, 5000, 2⟩], by decide⟩

theorem decodeSolrfqv2Legs_sample :
    decodeSolrfqv2Legs (Entrypoint.swapTocV3 ++ sampleSwapArgs.encode ++ [117]) =
      (some .concrete, [⟨.ask, 7, 100, [⟨5, 9⟩]⟩]) :=
  (decodeSolrfqv2Legs_encode (by decide) sampleSwapArgs [117]).2

end SolanaRfq
