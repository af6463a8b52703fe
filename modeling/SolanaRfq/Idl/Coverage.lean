import SolanaRfq.Decoder.Dispatch
import SolanaRfq.Idl.Routes
import Mathlib.Data.Set.List

/-!
# How far the decoder outruns the declaration

The decoder skips bodies unread and knows a few more tags than the declared types. What it reads is
the encoding of a declared value except for the strings of `BeyondIdl`.

* `Declared`: a string that the declared `Dex` writes; `BeyondIdl`: the strings read besides;
* `unitVariants`, `bodyArms`: the tags without and with a body;
* **`dexSpelled_cases`**: every string a variant is read from is one or the other;
* **`argsSpelled_iff_listed`**: arguments are read exactly where routes of the two kinds are listed;
* **`BeyondIdl.not_declared`**: no string is of both kinds;
* **`decodeSwapArgs_declared`**: accepted arguments are declared exactly when none of their routes is
  beyond the declaration.
-/

namespace SolanaRfq

open ByteFormat Borsh

/-- The string is what a declared variant writes, and the decoder keeps `d` of it. -/
def Declared (d : Dex) (w : List UInt8) : Prop := ∃ e : Idl.Dex, e.mirror = d ∧ e.encode = w

/-- A candidate that the declaration does not have. -/
def UndeclaredCandidate (w : List UInt8) : Prop :=
  ∃ u, (w = 15 :: u ∧ u.length = 96) ∨ (w = 16 :: u ∧ u.length = 16) ∨ w = [17]

/-- The strings a variant is read from that no declared variant writes. -/
inductive BeyondIdl : Dex → List UInt8 → Prop
  /-- A `SolRfqV2` route whose side is neither `Bid` nor `Ask`. -/
  | takerSide {side : UInt8} (rfqId : UInt64) (expireAt : Int64) {levels : List Level} :
    1 < side → levels.length < 2 ^ 32 →
    BeyondIdl (.solRfqV2 side rfqId expireAt levels)
      (117 :: encodeSolRfqV2 side rfqId expireAt levels)
  /-- A cashback flag that is no `bool`. -/
  | cashback {tag x : UInt8} : tag ∈ [23, 24, 34, 35] → 1 < x → BeyondIdl (.other tag) [tag, x]
  /-- A flag of a `SolRfq` route that is no `bool`. -/
  | solRfqFlags {u : List UInt8} {x y : UInt8} : u.length = 48 → 1 < x ∨ 1 < y →
    BeyondIdl (.other 64) (64 :: (u ++ [x, y]))
  /-- A slice whose type is no `AccountsType`. -/
  | accountsType {slices : List (UInt8 × UInt8)} (binArrayCount : UInt8) :
    slices.length < 2 ^ 32 → (∃ s ∈ slices, 1 < s.1) →
    BeyondIdl (.other 119)
      (119 :: (encodeVec (fun s => [s.1, s.2]) slices ++ [binArrayCount]))
  /-- A dynamic route with a candidate of a later tag. -/
  | candidate {cs : List (List UInt8)} (mode : Idl.SelectionMode) : cs.length < 2 ^ 32 →
    (∀ c ∈ cs, (∃ e : Idl.DynamicCandidate, e.encode = c) ∨ UndeclaredCandidate c) →
    (∃ c ∈ cs, UndeclaredCandidate c) →
    BeyondIdl (.other 126) (126 :: (encodeVec id cs ++ mode.encode))
  /-- A later variant, taken to have no body. -/
  | unitVariant {tag : UInt8} : tag ∈ [136, 137, 139, 140] → BeyondIdl (.other tag) [tag]
  /-- The later variant taken to have one byte. -/
  | oracleCount (x : UInt8) : BeyondIdl (.other 138) [138, x]

/-! ## Fields -/

theorem exists_append_of_length {m n : ℕ} {w : List UInt8} (h : w.length = m + n) :
    ∃ u v, u.length = m ∧ v.length = n ∧ w = u ++ v := by
  refine ⟨w.take m, w.drop m, ?_, ?_, (List.take_append_drop m w).symm⟩
  · rw [List.length_take]
    omega
  · rw [List.length_drop]
    omega

theorem bool_or_lt (x : UInt8) : (∃ b : Bool, b.toUInt8 = x) ∨ 1 < x := by
  revert x
  apply forall_byte
  decide +kernel

theorem exists_vector {n : ℕ} {w : List UInt8} (h : w.length = n) :
    ∃ v : List.Vector UInt8 n, v.toList = w := ⟨⟨w, h⟩, rfl⟩

theorem exists_encodeU128 {w : List UInt8} (h : w.length = 16) : ∃ v, Idl.encodeU128 v = w := by
  obtain ⟨v, hv, rfl⟩ := exists_toLE h
  exact ⟨BitVec.ofNat 128 v, by rw [Idl.encodeU128, BitVec.toNat_ofNat, Nat.mod_eq_of_lt (by omega)]⟩

theorem exists_signedQuote {w : List UInt8} (h : w.length = 99) :
    ∃ q : Idl.SignedQuote, q.encode = w := by
  obtain ⟨_, _, h₁, t₁, rfl⟩ := exists_append_of_length (m := 8) (n := 91) h
  obtain ⟨_, _, h₂, t₂, rfl⟩ := exists_append_of_length (m := 8) (n := 83) t₁
  obtain ⟨_, _, h₃, t₃, rfl⟩ := exists_append_of_length (m := 8) (n := 75) t₂
  obtain ⟨_, _, h₄, t₄, rfl⟩ := exists_append_of_length (m := 2) (n := 73) t₃
  obtain ⟨_, _, h₅, t₅, rfl⟩ := exists_append_of_length (m := 8) (n := 65) t₄
  obtain ⟨_, _, h₆, h₇, rfl⟩ := exists_append_of_length (m := 64) (n := 1) t₅
  obtain ⟨unixTimestamp, rfl⟩ := exists_encodeU64 h₁
  obtain ⟨msgAmountIn, rfl⟩ := exists_encodeU64 h₂
  obtain ⟨expectAmountOut, rfl⟩ := exists_encodeU64 h₃
  obtain ⟨slippage, rfl⟩ := exists_encodeU16 h₄
  obtain ⟨userRequestSlot, rfl⟩ := exists_encodeU64 h₅
  obtain ⟨signature, rfl⟩ := exists_vector h₆
  obtain ⟨recoveryId, rfl⟩ := List.length_eq_one_iff.mp h₇
  exact ⟨⟨unixTimestamp, msgAmountIn, expectAmountOut, slippage, userRequestSlot, signature,
    recoveryId⟩, by simp [Idl.SignedQuote.encode]⟩

theorem exists_vec {α β : Type} {enc : α → List UInt8} {enc' : β → List UInt8} {bs : List β}
    (hlen : bs.length < 2 ^ 32) (h : ∀ b ∈ bs, ∃ a, enc a = enc' b) :
    ∃ as : Idl.Vec α, encodeVec enc as.items = encodeVec enc' bs := by
  have hmem : bs.map enc' ∈ {l | ∀ w ∈ l, w ∈ Set.range enc} := List.forall_mem_map.mpr h
  rw [← Set.range_list_map] at hmem
  obtain ⟨as, has⟩ := hmem
  have hlength : as.length = bs.length := by simpa using congrArg List.length has
  refine ⟨⟨as, hlength ▸ hlen⟩, ?_⟩
  show toLE 4 as.length ++ as.flatMap enc = toLE 4 bs.length ++ bs.flatMap enc'
  rw [hlength, List.flatMap_def, List.flatMap_def, has]

/-! ## Tags -/

/-- The variants without fields. -/
def unitVariants : List Idl.Dex :=
  [.splTokenSwap, .stableSwap, .whirlpool, .meteoraDynamicpool, .goonfiV2WithSig,
    .raydiumStableSwap, .raydiumClmmSwap, .aldrinExchangeV1, .aldrinExchangeV2, .lifinityV1,
    .lifinityV2, .raydiumClmmSwapV2, .fluxBeam, .meteoraDlmm, .raydiumCpmmSwap, .openBookV2,
    .whirlpoolV2, .phoenix, .obricV2, .sanctumAddLiq, .sanctumRemoveLiq, .sanctumNonWsolSwap,
    .sanctumWsolSwap, .stabbleSwap, .sanctumRouter, .meteoraVaultDeposit, .meteoraVaultWithdraw,
    .saros, .meteoraLst, .solfi, .qualiaSwap, .zerofi, .virtuals, .vertigoBuy, .vertigoSell,
    .perpetualsAddLiq, .perpetualsRemoveLiq, .perpetualsSwap, .raydiumLaunchpad, .letsBonkFun,
    .woofi, .meteoraDbc, .meteoraDlmmSwap2, .meteoraDAMMV2, .gavel, .boopfunBuy, .boopfunSell,
    .meteoraDbc2, .gooseFX, .dooar, .numeraire, .saberDecimalWrapperDeposit,
    .saberDecimalWrapperWithdraw, .sarosDlmm, .oneDexSwap, .manifest, .byrealClmm,
    .pancakeSwapV3Swap, .pancakeSwapV3SwapV2, .tessera, .humidifi, .heavenBuy, .heavenSell,
    .solfiV2, .goonfi, .moonitBuy, .moonitSell, .raydiumSwapV2, .whalestreet, .meteoraDAMMV2Swap2,
    .alphaQ, .futarchyAmm, .pumpfunBuyV2, .pumpfunSellV2, .jupiterLendDeposit, .jupiterLendRedeem,
    .taurusFi, .bisonFi, .goonfiV2, .quantum, .boopfunBuy2, .boopfunSell2, .byrealClmm2, .dooar2,
    .heavenBuy2, .heavenSell2, .moonitBuy2, .moonitSell2, .saberDecimalWrapperDeposit2,
    .saberDecimalWrapperWithdraw2, .byrealPropAmm, .abyssAmm, .aquifer, .fusionAmm, .scaleAmmBuy,
    .scaleAmmSell, .scaleVmmBuy, .scaleVmmSell, .pumpfunBuy3, .pumpfunSell3, .pumpfunammBuy2,
    .pumpfunammSell2, .riptide, .zerofiSwapV2, .taurusFiV2, .zerofiSwapV4, .moonpay, .binaryFi,
    .flint, .raydiumStableSwapV2, .kipseli, .hadron, .denaliPropAmm, .deriverse]

/-- The tags with a body, `SolRfqV2` apart. -/
def bodyArms : List (UInt8 × DexArm) :=
  [(23, .skip 1), (24, .skip 1), (34, .skip 1), (35, .skip 1), (64, .skip 50), (74, .skip 2),
    (75, .skip 2), (81, .skip 8), (82, .skip 16), (100, .skip 8), (103, .skip 16),
    (104, .skip 99), (118, .skip 8), (119, .remainingAccountsInfo), (120, .skip 99),
    (121, .skip 1), (125, .skip 1), (126, .dynamicRouteSpec), (132, .skip 40), (133, .borshBytes),
    (134, .skip 96), (138, .skip 1)]

theorem unitVariants_spec : ∀ e ∈ unitVariants, e.mirror = .other e.tag ∧ e.encodeFields = [] := by
  decide +kernel

theorem tagOnly_cases {tag : UInt8} (h : dexArm tag = .tagOnly) :
    (∃ e ∈ unitVariants, e.tag = tag) ∨ tag ∈ [136, 137, 139, 140] := by
  have hall : ∀ tag : UInt8, dexArm tag = .tagOnly →
      tag.toNat ∈ unitVariants.map Idl.Dex.ctorIdx ∨ tag ∈ [136, 137, 139, 140] := by
    apply forall_byte
    decide +kernel
  rcases hall tag h with hunit | hlater
  · obtain ⟨e, he, hidx⟩ := List.mem_map.mp hunit
    exact .inl ⟨e, he, by rw [Idl.Dex.tag, hidx, UInt8.ofNat_toNat]⟩
  · exact .inr hlater

theorem dexArm_cases (tag : UInt8) : (tag, dexArm tag) ∈ bodyArms ∨
    dexArm tag = .tagOnly ∨ dexArm tag = .solRfqV2 ∨ dexArm tag = .outOfRange := by
  revert tag
  apply forall_byte
  decide +kernel

/-! ## Bodies -/

theorem Declared.of_fields {tag : UInt8} {u : List UInt8} (e : Idl.Dex)
    (hmirror : e.mirror = .other tag) (htag : e.tag = tag) (hu : e.encodeFields = u) :
    Declared (.other tag) (tag :: u) :=
  ⟨e, hmirror, by rw [Idl.Dex.encode, htag, hu]⟩

theorem cashback_cases {tag : UInt8} {u : List UInt8} (e : Bool → Idl.Dex)
    (hmem : tag ∈ [23, 24, 34, 35]) (hmirror : ∀ b, (e b).mirror = .other tag)
    (htag : ∀ b, (e b).tag = tag) (hfields : ∀ b, (e b).encodeFields = Idl.encodeBool b)
    (hu : u.length = 1) : Declared (.other tag) (tag :: u) ∨ BeyondIdl (.other tag) (tag :: u) := by
  obtain ⟨x, rfl⟩ := List.length_eq_one_iff.mp hu
  rcases bool_or_lt x with ⟨b, rfl⟩ | hx
  · exact .inl (.of_fields (e b) (hmirror b) (htag b) (hfields b))
  · exact .inr (.cashback hmem hx)

theorem solRfq_cases {u : List UInt8} (hu : u.length = 50) :
    Declared (.other 64) (64 :: u) ∨ BeyondIdl (.other 64) (64 :: u) := by
  obtain ⟨v, w, hv, hw, rfl⟩ := exists_append_of_length (m := 48) (n := 2) hu
  obtain ⟨x, y, rfl⟩ := List.length_eq_two.mp hw
  rcases bool_or_lt x with ⟨makerSol, rfl⟩ | hx
  · rcases bool_or_lt y with ⟨takerSol, rfl⟩ | hy
    · obtain ⟨_, _, h₁, t₁, rfl⟩ := exists_append_of_length (m := 8) (n := 40) hv
      obtain ⟨_, _, h₂, t₂, rfl⟩ := exists_append_of_length (m := 8) (n := 32) t₁
      obtain ⟨_, _, h₃, t₃, rfl⟩ := exists_append_of_length (m := 8) (n := 24) t₂
      obtain ⟨_, _, h₄, t₄, rfl⟩ := exists_append_of_length (m := 8) (n := 16) t₃
      obtain ⟨_, _, h₅, h₆, rfl⟩ := exists_append_of_length (m := 8) (n := 8) t₄
      obtain ⟨rfqId, rfl⟩ := exists_encodeU64 h₁
      obtain ⟨expectedMaker, rfl⟩ := exists_encodeU64 h₂
      obtain ⟨expectedTaker, rfl⟩ := exists_encodeU64 h₃
      obtain ⟨makerSend, rfl⟩ := exists_encodeU64 h₄
      obtain ⟨takerSend, rfl⟩ := exists_encodeU64 h₅
      obtain ⟨expiry, rfl⟩ := exists_encodeU64 h₆
      refine .inl (.of_fields (.solRfq rfqId expectedMaker expectedTaker makerSend takerSend expiry
        makerSol takerSol) rfl rfl ?_)
      simp [Idl.Dex.encodeFields, Idl.encodeBool]
    · exact .inr (.solRfqFlags hv (.inr hy))
  · exact .inr (.solRfqFlags hv (.inl hx))

theorem slice_cases (s : UInt8 × UInt8) :
    (∃ e : Idl.RemainingAccountsSlice, e.encode = [s.1, s.2]) ∨ 1 < s.1 := by
  obtain ⟨t, length⟩ := s
  rcases bool_or_lt t with ⟨b, rfl⟩ | ht
  · cases b with
    | false => exact .inl ⟨⟨.transferHookInput, length⟩, rfl⟩
    | true => exact .inl ⟨⟨.transferHookOutput, length⟩, rfl⟩
  · exact .inr ht

theorem exists_slices {u : List UInt8} (h : RemainingAccountsBody u) :
    ∃ slices : List (UInt8 × UInt8), slices.length < 2 ^ 32 ∧
      u = encodeVec (fun s => [s.1, s.2]) slices := by
  obtain ⟨n, v, hv, rfl⟩ := h
  obtain ⟨ws, hn, hws, rfl⟩ := exists_chunks hv
  have hpairs : ∀ w ∈ ws, ∃ s : UInt8 × UInt8, [s.1, s.2] = w := by
    intro w hw
    obtain ⟨x, y, rfl⟩ := List.length_eq_two.mp (hws w hw)
    exact ⟨(x, y), rfl⟩
  have hmem : ws ∈ {l | ∀ w ∈ l, w ∈ Set.range fun s : UInt8 × UInt8 => [s.1, s.2]} := hpairs
  rw [← Set.range_list_map] at hmem
  obtain ⟨slices, rfl⟩ := hmem
  rw [List.length_map] at hn
  exact ⟨slices, hn ▸ n.toNat_lt, by rw [encodeVec, encodeU32, hn, List.flatMap_def]⟩

theorem remainingAccounts_cases {u : List UInt8} (h : DexArm.remainingAccountsInfo.Body u) :
    Declared (.other 119) (119 :: u) ∨ BeyondIdl (.other 119) (119 :: u) := by
  obtain ⟨v, binArrayCount, hv, rfl⟩ := h
  obtain ⟨slices, hlen, rfl⟩ := exists_slices hv
  by_cases hall : ∀ s ∈ slices, ∃ e : Idl.RemainingAccountsSlice, e.encode = [s.1, s.2]
  · obtain ⟨es, hes⟩ := exists_vec hlen hall
    refine .inl (.of_fields (.meteoraDlmmSwap2Hook ⟨es⟩ binArrayCount) rfl rfl ?_)
    rw [Idl.Dex.encodeFields, Idl.RemainingAccountsInfo.encode, hes]
  · obtain ⟨s, hs, hnone⟩ : ∃ s ∈ slices, ¬ ∃ e : Idl.RemainingAccountsSlice,
        e.encode = [s.1, s.2] := by
      simpa using hall
    exact .inr (.accountsType binArrayCount hlen ⟨s, hs, (slice_cases s).resolve_left hnone⟩)

/-- The candidates without fields. -/
def unitCandidates : List Idl.DynamicCandidate :=
  [.manifest, .tessera, .goonfiV2, .solfiV2, .bisonFi, .raydiumSwapV2, .raydiumClmmSwapV2,
    .whirlpoolV2, .quantum, .zerofi, .alphaQ]

theorem candidateLen_cases {tag : UInt8} {len : ℕ} (h : candidateLen tag = some len) :
    (tag, len) ∈ [(3, 8), (5, 16), (10, 99), (14, 8), (15, 96), (16, 16), (17, 0)] ∨
      len = 0 ∧ ∃ e ∈ unitCandidates, e.tag = tag ∧ e.encodeFields = [] := by
  have hall : ∀ tag : UInt8, ∀ len ∈ candidateLen tag,
      (tag, len) ∈ [(3, 8), (5, 16), (10, 99), (14, 8), (15, 96), (16, 16), (17, 0)] ∨
        len = 0 ∧ ∃ e ∈ unitCandidates, e.tag = tag ∧ e.encodeFields = [] := by
    apply forall_byte
    decide +kernel
  exact hall tag len h

theorem candidate_cases {w : List UInt8} (h : CandidateBody w) :
    (∃ e : Idl.DynamicCandidate, e.encode = w) ∨ UndeclaredCandidate w := by
  obtain ⟨tag, u, hlen, rfl⟩ := h
  rcases candidateLen_cases hlen with hmem | ⟨h0, e, -, rfl, hfields⟩
  · simp only [List.mem_cons, Prod.mk.injEq, List.not_mem_nil, or_false] at hmem
    rcases hmem with ⟨rfl, hu⟩ | ⟨rfl, hu⟩ | ⟨rfl, hu⟩ | ⟨rfl, hu⟩ | ⟨rfl, hu⟩ | ⟨rfl, hu⟩ | ⟨rfl, hu⟩
    · obtain ⟨swapId, rfl⟩ := exists_encodeU64 hu
      exact .inl ⟨.humidifiSwap2 swapId, rfl⟩
    · obtain ⟨id, rfl⟩ := exists_encodeU128 hu
      exact .inl ⟨.scorch id, rfl⟩
    · obtain ⟨quote, rfl⟩ := exists_signedQuote hu
      exact .inl ⟨.bisonFiWithSig quote, rfl⟩
    · obtain ⟨swapId, rfl⟩ := exists_encodeU64 hu
      exact .inl ⟨.fluxMM swapId, rfl⟩
    · exact .inr ⟨u, .inl ⟨rfl, hu⟩⟩
    · exact .inr ⟨u, .inr (.inl ⟨rfl, hu⟩)⟩
    · obtain rfl := List.length_eq_zero_iff.mp hu
      exact .inr ⟨[], .inr (.inr rfl)⟩
  · obtain rfl := List.length_eq_zero_iff.mp h0
    exact .inl ⟨e, by rw [Idl.DynamicCandidate.encode, hfields]⟩

theorem exists_mode {w : List UInt8} (h : ModeBody w) :
    ∃ mode : Idl.SelectionMode, mode.encode = w := by
  rcases h with rfl | ⟨x, rfl | rfl⟩
  · exact ⟨.auto, rfl⟩
  · exact ⟨.forced x, rfl⟩
  · exact ⟨.hint x, rfl⟩

theorem dynamicRoute_cases {u : List UInt8} (h : DynamicRouteBody u) :
    Declared (.other 126) (126 :: u) ∨ BeyondIdl (.other 126) (126 :: u) := by
  obtain ⟨cs, hlen, hcs, _, hmode, rfl⟩ := h
  obtain ⟨mode, rfl⟩ := exists_mode hmode
  rw [← List.flatMap_id, show toLE 4 cs.length ++ cs.flatMap id = encodeVec id cs from rfl]
  by_cases hall : ∀ c ∈ cs, ∃ e : Idl.DynamicCandidate, e.encode = id c
  · obtain ⟨es, hes⟩ := exists_vec hlen hall
    refine .inl (.of_fields (.dynamicRouteV1 ⟨es, mode⟩) rfl rfl ?_)
    rw [Idl.Dex.encodeFields, Idl.DynamicRouteSpec.encode, hes]
  · obtain ⟨c, hc, hnone⟩ : ∃ c ∈ cs, ¬ ∃ e : Idl.DynamicCandidate, e.encode = c := by
      simpa using hall
    exact .inr (.candidate mode hlen (fun c hc => candidate_cases (hcs c hc))
      ⟨c, hc, (candidate_cases (hcs c hc)).resolve_left hnone⟩)

theorem nativeBody_cases {u : List UInt8} (h : DexArm.borshBytes.Body u) :
    Declared (.other 133) (133 :: u) := by
  obtain ⟨n, v, hv, rfl⟩ := h
  refine .of_fields (.native ⟨v, hv ▸ n.toNat_lt⟩) rfl rfl ?_
  show encodeVec (fun b => [b]) v = _
  rw [encodeVec, encodeU32, hv, List.flatMap_singleton']

theorem routerBody_cases {u : List UInt8} (hu : u.length = 96) :
    Declared (.other 134) (134 :: u) := by
  obtain ⟨_, _, h₁, t₁, rfl⟩ := exists_append_of_length (m := 8) (n := 88) hu
  obtain ⟨_, _, h₂, t₂, rfl⟩ := exists_append_of_length (m := 8) (n := 80) t₁
  obtain ⟨_, _, h₃, t₃, rfl⟩ := exists_append_of_length (m := 32) (n := 48) t₂
  obtain ⟨_, _, h₄, h₅, rfl⟩ := exists_append_of_length (m := 16) (n := 32) t₃
  obtain ⟨routerId, rfl⟩ := exists_encodeU64 h₁
  obtain ⟨claimedMs, rfl⟩ := exists_encodeU64 h₂
  obtain ⟨seedRng, rfl⟩ := exists_vector h₃
  obtain ⟨token, rfl⟩ := exists_vector h₄
  obtain ⟨endUser, rfl⟩ := exists_vector h₅
  refine .of_fields (.humidifiSwapRouter routerId claimedMs seedRng token endUser) rfl rfl ?_
  simp [Idl.Dex.encodeFields]

/-! ## Variants -/

theorem bodyArms_cases {tag : UInt8} {arm : DexArm} (hmem : (tag, arm) ∈ bodyArms) {u : List UInt8}
    (hu : arm.Body u) : Declared (.other tag) (tag :: u) ∨ BeyondIdl (.other tag) (tag :: u) := by
  simp only [bodyArms, List.mem_cons, Prod.mk.injEq, List.not_mem_nil, or_false] at hmem
  rcases hmem with ⟨rfl, rfl⟩ | ⟨rfl, rfl⟩ | ⟨rfl, rfl⟩ | ⟨rfl, rfl⟩ | ⟨rfl, rfl⟩ | ⟨rfl, rfl⟩ |
    ⟨rfl, rfl⟩ | ⟨rfl, rfl⟩ | ⟨rfl, rfl⟩ | ⟨rfl, rfl⟩ | ⟨rfl, rfl⟩ | ⟨rfl, rfl⟩ | ⟨rfl, rfl⟩ |
    ⟨rfl, rfl⟩ | ⟨rfl, rfl⟩ | ⟨rfl, rfl⟩ | ⟨rfl, rfl⟩ | ⟨rfl, rfl⟩ | ⟨rfl, rfl⟩ | ⟨rfl, rfl⟩ |
    ⟨rfl, rfl⟩ | ⟨rfl, rfl⟩
  · exact cashback_cases .pumpfunBuy (by simp) (fun _ => rfl) (fun _ => rfl) (fun _ => rfl) hu
  · exact cashback_cases .pumpfunSell (by simp) (fun _ => rfl) (fun _ => rfl) (fun _ => rfl) hu
  · exact cashback_cases .pumpfunammBuy (by simp) (fun _ => rfl) (fun _ => rfl) (fun _ => rfl) hu
  · exact cashback_cases .pumpfunammSell (by simp) (fun _ => rfl) (fun _ => rfl) (fun _ => rfl) hu
  · exact solRfq_cases hu
  · obtain ⟨bump, accountBump, rfl⟩ := List.length_eq_two.mp hu
    exact .inl (.of_fields (.sugarMoneyBuy bump accountBump) rfl rfl rfl)
  · obtain ⟨bump, accountBump, rfl⟩ := List.length_eq_two.mp hu
    exact .inl (.of_fields (.sugarMoneySell bump accountBump) rfl rfl rfl)
  · obtain ⟨swapId, rfl⟩ := exists_encodeU64 hu
    exact .inl (.of_fields (.humidifiSwap2 swapId) rfl rfl rfl)
  · obtain ⟨id, rfl⟩ := exists_encodeU128 hu
    exact .inl (.of_fields (.scorch id) rfl rfl rfl)
  · obtain ⟨swapId, rfl⟩ := exists_encodeU64 hu
    exact .inl (.of_fields (.sanctumPrefundSwapViaStake swapId) rfl rfl rfl)
  · obtain ⟨_, _, h₁, h₂, rfl⟩ := exists_append_of_length (m := 8) (n := 8) hu
    obtain ⟨authAmountIn, rfl⟩ := exists_encodeU64 h₁
    obtain ⟨auth, rfl⟩ := exists_encodeU64 h₂
    exact .inl (.of_fields (.whalestreetV2 authAmountIn auth) rfl rfl rfl)
  · obtain ⟨quote, rfl⟩ := exists_signedQuote hu
    exact .inl (.of_fields (.solfiV2WithSig quote) rfl rfl rfl)
  · obtain ⟨swapId, rfl⟩ := exists_encodeU64 hu
    exact .inl (.of_fields (.fluxMM swapId) rfl rfl rfl)
  · exact remainingAccounts_cases hu
  · obtain ⟨quote, rfl⟩ := exists_signedQuote hu
    exact .inl (.of_fields (.bisonFiWithSig quote) rfl rfl rfl)
  · obtain ⟨baseHookCount, rfl⟩ := List.length_eq_one_iff.mp hu
    exact .inl (.of_fields (.meteoraDbcSwapWithHook baseHookCount) rfl rfl rfl)
  · obtain ⟨makerBookCount, rfl⟩ := List.length_eq_one_iff.mp hu
    exact .inl (.of_fields (.archer makerBookCount) rfl rfl rfl)
  · exact dynamicRoute_cases hu
  · obtain ⟨signature, rfl⟩ := exists_vector hu
    exact .inl (.of_fields (.zerofiWithSig signature) rfl rfl rfl)
  · exact .inl (nativeBody_cases hu)
  · exact .inl (routerBody_cases hu)
  · obtain ⟨x, rfl⟩ := List.length_eq_one_iff.mp hu
    exact .inr (.oracleCount x)

theorem side_cases (side : UInt8) : (∃ s : Side, Idl.sideTag s = side) ∨ 1 < side := by
  rcases bool_or_lt side with ⟨b, rfl⟩ | h
  · cases b with
    | false => exact .inl ⟨.bid, rfl⟩
    | true => exact .inl ⟨.ask, rfl⟩
  · exact .inr h

/-- **Every string a variant is read from is declared or beyond the declaration.** -/
theorem dexSpelled_cases {d : Dex} {w : List UInt8} (h : DexSpelled d w) :
    Declared d w ∨ BeyondIdl d w := by
  cases d with
  | solRfqV2 side rfqId expireAt levels =>
    obtain ⟨hlen, rfl⟩ := h
    rcases side_cases side with ⟨s, rfl⟩ | hside
    · refine .inl ⟨.solRfqV2 s rfqId expireAt ⟨levels, hlen⟩, rfl, ?_⟩
      simp only [Idl.Dex.encode, Idl.Dex.encodeFields, encodeSolRfqV2, List.append_assoc]
      rfl
    · exact .inr (.takerSide rfqId expireAt hside hlen)
  | other tag =>
    obtain ⟨u, hu, rfl⟩ := h
    rcases dexArm_cases tag with hmem | harm | harm | harm
    · exact bodyArms_cases hmem hu
    · rw [harm] at hu
      obtain rfl : u = [] := hu
      rcases tagOnly_cases harm with ⟨e, he, rfl⟩ | hlater
      · obtain ⟨hmirror, hfields⟩ := unitVariants_spec e he
        exact .inl (.of_fields e hmirror rfl hfields)
      · exact .inr (.unitVariant hlater)
    · rw [harm] at hu
      exact hu.elim
    · rw [harm] at hu
      exact hu.elim

/-! ## Routes and arguments -/

/-- The string is what a declared route writes, and the decoder keeps `r` of it. -/
def RouteDeclared (r : Route) (w : List UInt8) : Prop :=
  ∃ e : Idl.Route, e.mirror = r ∧ e.encode = w

/-- The variant of the route is beyond the declaration. -/
def RouteBeyond (r : Route) (w : List UInt8) : Prop :=
  ∃ u, BeyondIdl r.dex u ∧ w = u ++ (encodeU16 r.weight ++ [r.index])

theorem routeSpelled_cases {r : Route} {w : List UInt8} (h : RouteSpelled r w) :
    RouteDeclared r w ∨ RouteBeyond r w := by
  obtain ⟨u, hu, rfl⟩ := h
  rcases dexSpelled_cases hu with ⟨e, hmirror, rfl⟩ | hbeyond
  · obtain ⟨dex, weight, index⟩ := r
    obtain rfl : e.mirror = dex := hmirror
    exact .inl ⟨⟨e, weight, index⟩, rfl, by rw [Idl.Route.encode, List.append_assoc]⟩
  · exact .inr ⟨u, hbeyond, rfl⟩

theorem candidateBody_of_listed {w : List UInt8}
    (h : (∃ e : Idl.DynamicCandidate, e.encode = w) ∨ UndeclaredCandidate w) : CandidateBody w := by
  rcases h with ⟨e, rfl⟩ | ⟨u, ⟨rfl, hu⟩ | ⟨rfl, hu⟩ | rfl⟩
  · exact candidateBody_encode e
  · exact ⟨15, u, by rw [hu]; rfl, rfl⟩
  · exact ⟨16, u, by rw [hu]; rfl, rfl⟩
  · exact ⟨17, [], rfl, rfl⟩

theorem remainingAccountsBody_slices {slices : List (UInt8 × UInt8)} (hlen : slices.length < 2 ^ 32) :
    RemainingAccountsBody (encodeVec (fun s => [s.1, s.2]) slices) := by
  have hn : (UInt32.ofNat slices.length).toNat = slices.length := UInt32.toNat_ofNat_of_lt' hlen
  refine ⟨UInt32.ofNat slices.length, slices.flatMap fun s => [s.1, s.2], ?_, ?_⟩
  · rw [hn, List.flatMap_def, flatten_length_of_forall (k := 2), List.length_map]
    exact List.forall_mem_map.mpr fun _ _ => rfl
  · rw [encodeVec, encodeU32, hn]

theorem BeyondIdl.spelled {d : Dex} {w : List UInt8} (h : BeyondIdl d w) : DexSpelled d w := by
  cases h with
  | takerSide rfqId expireAt _ hlen => exact ⟨hlen, rfl⟩
  | @cashback tag x htag _ =>
    refine ⟨[x], ?_, rfl⟩
    simp only [List.mem_cons, List.not_mem_nil, or_false] at htag
    rcases htag with rfl | rfl | rfl | rfl <;> exact rfl
  | @solRfqFlags u x y hu _ =>
    refine ⟨u ++ [x, y], ?_, rfl⟩
    show (u ++ [x, y]).length = 50
    rw [List.length_append, hu]
    rfl
  | accountsType binArrayCount hlen _ =>
    exact ⟨_, ⟨_, binArrayCount, remainingAccountsBody_slices hlen, rfl⟩, rfl⟩
  | @candidate cs mode hlen hcs _ =>
    refine ⟨encodeVec id cs ++ mode.encode, ?_, rfl⟩
    exact ⟨cs, hlen, fun c hc => candidateBody_of_listed (hcs c hc), mode.encode,
      modeBody_encode mode, by rw [encodeVec, List.flatMap_id]⟩
  | unitVariant htag =>
    refine ⟨[], ?_, rfl⟩
    simp only [List.mem_cons, List.not_mem_nil, or_false] at htag
    rcases htag with rfl | rfl | rfl | rfl <;> exact rfl
  | oracleCount x => exact ⟨[x], rfl, rfl⟩

theorem routeSpelled_iff {r : Route} {w : List UInt8} :
    RouteSpelled r w ↔ RouteDeclared r w ∨ RouteBeyond r w := by
  refine ⟨routeSpelled_cases, ?_⟩
  rintro (⟨e, rfl, rfl⟩ | ⟨u, hu, rfl⟩)
  · exact routeSpelled_encode e
  · exact ⟨u, hu.spelled, rfl⟩

/-- Behind the discriminator are the head fields, the route count and one string per route, each
declared or beyond the declaration. -/
def ArgsListed (args : SwapArgs) (data : List UInt8) : Prop :=
  args.routes.length < 2 ^ 32 ∧ ∃ ws tail,
    List.Forall₂ (fun r w => RouteDeclared r w ∨ RouteBeyond r w) args.routes ws ∧
      data.drop 8 = encodeSwapHead args ++ (toLE 4 args.routes.length ++ ws.flatten) ++ tail

/-- **Arguments are read exactly where the declaration and the strings beyond it list them.** -/
theorem argsSpelled_iff_listed {args : SwapArgs} {data : List UInt8} :
    ArgsSpelled args data ↔ ArgsListed args data := by
  constructor
  · rintro ⟨w, tail, ⟨hlen, ws, hws, rfl⟩, hdata⟩
    exact ⟨hlen, ws, tail, hws.imp fun _ _ => routeSpelled_iff.mp, hdata⟩
  · rintro ⟨hlen, ws, tail, hws, hdata⟩
    exact ⟨_, tail, ⟨hlen, ws, hws.imp fun _ _ => routeSpelled_iff.mpr, rfl⟩, hdata⟩

/-- Declared routes come from declared values. -/
theorem exists_routes {rs : List Route} {ws : List (List UInt8)}
    (h : List.Forall₂ RouteDeclared rs ws) : ∃ es : List Idl.Route,
      es.map Idl.Route.mirror = rs ∧ es.map Idl.Route.encode = ws := by
  induction h with
  | nil => exact ⟨[], rfl, rfl⟩
  | cons hroute _ ih =>
    obtain ⟨e, hr, hw⟩ := hroute
    obtain ⟨es, hrs, hws⟩ := ih
    exact ⟨e :: es, by rw [List.map_cons, hr, hrs], by rw [List.map_cons, hw, hws]⟩

/-! ## Strings beyond the declaration are not declared -/

theorem Idl.Dex.ctorIdx_lt (e : Idl.Dex) : e.ctorIdx < 136 := by
  cases e <;> exact Nat.le_of_ble_eq_true rfl

theorem ctorIdx_of_mirror {e : Idl.Dex} {tag : UInt8} (h : e.mirror = .other tag) :
    e.ctorIdx = tag.toNat := by
  cases e with
  | solRfqV2 takerSide rfqId expireAt levels => cases h
  | _ =>
    obtain rfl := Dex.other.inj h
    rfl

theorem side_of_mirror {e : Idl.Dex} {side : UInt8} {rfqId : UInt64} {expireAt : Int64}
    {levels : List Level} (h : e.mirror = .solRfqV2 side rfqId expireAt levels) :
    ∃ s, Idl.sideTag s = side := by
  cases e with
  | solRfqV2 s _ _ _ => exact ⟨s, (Dex.solRfqV2.inj h).1⟩
  | _ => cases h

theorem bool_not_lt (b : Bool) : ¬ 1 < b.toUInt8 := by
  cases b <;> decide

theorem accountsType_not_lt (t : Idl.AccountsType) : ¬ 1 < UInt8.ofNat t.ctorIdx := by
  cases t <;> decide

theorem encodeVec_eq {α : Type} (enc : α → List UInt8) (xs : List α) :
    encodeVec enc xs = toLE 4 (xs.map enc).length ++ (xs.map enc).flatten := by
  rw [encodeVec, List.length_map, List.flatMap_def]

theorem items_inj {item : BorshReader Unit} {P : List UInt8 → Prop}
    (h : Parses item fun _ w => P w) {us vs : List (List UInt8)} (hu : ∀ w ∈ us, P w)
    (hv : ∀ w ∈ vs, P w) (hul : us.length < 2 ^ 32) (hvl : vs.length < 2 ^ 32) {s t : List UInt8}
    (hst : toLE 4 us.length ++ us.flatten ++ s = toLE 4 vs.length ++ vs.flatten ++ t) : us = vs := by
  rw [List.append_assoc, List.append_assoc] at hst
  obtain ⟨hcount, hitems⟩ := List.append_inj hst (by rw [length_toLE, length_toLE])
  have hlen : us.length = vs.length := by
    rw [← ofLE_toLE 4 us.length hul, hcount, ofLE_toLE 4 vs.length hvl]
  have hus : List.Forall₂ (fun _ w => P w) (List.replicate us.length ()) us :=
    forall₂_unit_iff.mpr ⟨List.length_replicate, hu⟩
  have hvs : List.Forall₂ (fun _ w => P w) (List.replicate vs.length ()) vs :=
    forall₂_unit_iff.mpr ⟨List.length_replicate, hv⟩
  exact (Parses.forall₂_inj h hus hvs (by simp [hlen]) hitems).2.1

theorem cashback_not_declared {tag x : UInt8} (htag : tag ∈ [23, 24, 34, 35]) (hx : 1 < x) :
    ¬ Declared (.other tag) [tag, x] := by
  rintro ⟨e, hmirror, henc⟩
  have hidx := ctorIdx_of_mirror hmirror
  have hflag : ∃ b : Bool, e.encodeFields = Idl.encodeBool b := by
    simp only [List.mem_cons, List.not_mem_nil, or_false] at htag
    rcases htag with rfl | rfl | rfl | rfl
    · exact Idl.Dex.pumpfunBuy.elim (motive := fun e => ∃ b, e.encodeFields = Idl.encodeBool b) e
        hidx fun b => ⟨b, rfl⟩
    · exact Idl.Dex.pumpfunSell.elim (motive := fun e => ∃ b, e.encodeFields = Idl.encodeBool b) e
        hidx fun b => ⟨b, rfl⟩
    · exact Idl.Dex.pumpfunammBuy.elim (motive := fun e => ∃ b, e.encodeFields = Idl.encodeBool b) e
        hidx fun b => ⟨b, rfl⟩
    · exact Idl.Dex.pumpfunammSell.elim (motive := fun e => ∃ b, e.encodeFields = Idl.encodeBool b)
        e hidx fun b => ⟨b, rfl⟩
  obtain ⟨b, hb⟩ := hflag
  rw [Idl.Dex.encode, hb, Idl.encodeBool] at henc
  obtain rfl : b.toUInt8 = x := (List.cons.inj (List.cons.inj henc).2).1
  exact bool_not_lt b hx

theorem solRfqFlags_not_declared {u : List UInt8} {x y : UInt8} (hu : u.length = 48)
    (hxy : 1 < x ∨ 1 < y) : ¬ Declared (.other 64) (64 :: (u ++ [x, y])) := by
  rintro ⟨e, hmirror, henc⟩
  have hflags : ∃ (v : List UInt8) (b c : Bool), v.length = 48 ∧
      e.encodeFields = v ++ [b.toUInt8, c.toUInt8] := by
    refine Idl.Dex.solRfq.elim (motive := fun e => ∃ (v : List UInt8) (b c : Bool),
      v.length = 48 ∧ e.encodeFields = v ++ [b.toUInt8, c.toUInt8]) e (ctorIdx_of_mirror hmirror)
      fun rfqId expectedMaker expectedTaker makerSend takerSend expiry makerSol takerSol => ?_
    refine ⟨encodeU64 rfqId ++ encodeU64 expectedMaker ++ encodeU64 expectedTaker ++
      encodeU64 makerSend ++ encodeU64 takerSend ++ encodeU64 expiry, makerSol, takerSol,
      by simp, ?_⟩
    simp [Idl.Dex.encodeFields, Idl.encodeBool]
  obtain ⟨v, b, c, hv, hfields⟩ := hflags
  rw [Idl.Dex.encode, hfields] at henc
  obtain ⟨-, hflags⟩ := List.append_inj (List.cons.inj henc).2 (hv.trans hu.symm)
  obtain ⟨rfl, hflag⟩ := List.cons.inj hflags
  obtain ⟨rfl, -⟩ := List.cons.inj hflag
  exact hxy.elim (bool_not_lt b) (bool_not_lt c)

theorem accountsType_not_declared {slices : List (UInt8 × UInt8)} {binArrayCount : UInt8}
    (hlen : slices.length < 2 ^ 32) (hs : ∃ s ∈ slices, 1 < s.1) :
    ¬ Declared (.other 119)
      (119 :: (encodeVec (fun s => [s.1, s.2]) slices ++ [binArrayCount])) := by
  rintro ⟨e, hmirror, henc⟩
  obtain ⟨es, count, hfields⟩ : ∃ (es : Idl.Vec Idl.RemainingAccountsSlice) (count : UInt8),
      e.encodeFields = encodeVec Idl.RemainingAccountsSlice.encode es.items ++ [count] :=
    Idl.Dex.meteoraDlmmSwap2Hook.elim (motive := fun e => ∃ (es : Idl.Vec _) (count : UInt8),
      e.encodeFields = encodeVec Idl.RemainingAccountsSlice.encode es.items ++ [count]) e
      (ctorIdx_of_mirror hmirror) fun info count => ⟨info.slices, count, rfl⟩
  rw [Idl.Dex.encode, hfields, encodeVec_eq, encodeVec_eq] at henc
  have hitems : es.items.map Idl.RemainingAccountsSlice.encode = slices.map fun s => [s.1, s.2] :=
    items_inj (parses_skipExact 2) (List.forall_mem_map.mpr fun s _ => s.length_encode)
      (List.forall_mem_map.mpr fun _ _ => rfl) (by rw [List.length_map]; exact es.length_lt)
      (by rw [List.length_map]; exact hlen) (List.cons.inj henc).2
  obtain ⟨s, hmem, ht⟩ := hs
  have hs' : [s.1, s.2] ∈ es.items.map Idl.RemainingAccountsSlice.encode :=
    hitems ▸ List.mem_map_of_mem (f := fun s : UInt8 × UInt8 => [s.1, s.2]) hmem
  obtain ⟨⟨accountsType, length⟩, -, hslice⟩ := List.mem_map.mp hs'
  rw [← (List.cons.inj hslice).1] at ht
  exact accountsType_not_lt accountsType ht

theorem candidate_not_declared {w : List UInt8} (h : UndeclaredCandidate w) :
    ¬ ∃ e : Idl.DynamicCandidate, e.encode = w := by
  have htag (e : Idl.DynamicCandidate) : e.tag < 15 := by
    cases e <;> exact of_decide_eq_true rfl
  rintro ⟨e, rfl⟩
  have hlt := htag e
  obtain ⟨u, ⟨hu, -⟩ | ⟨hu, -⟩ | hu⟩ := h
  · rw [(List.cons.inj hu).1] at hlt
    exact absurd hlt (by decide)
  · rw [(List.cons.inj hu).1] at hlt
    exact absurd hlt (by decide)
  · rw [(List.cons.inj hu).1] at hlt
    exact absurd hlt (by decide)

theorem candidates_not_declared {cs : List (List UInt8)} {mode : Idl.SelectionMode}
    (hlen : cs.length < 2 ^ 32)
    (hcs : ∀ c ∈ cs, (∃ e : Idl.DynamicCandidate, e.encode = c) ∨ UndeclaredCandidate c)
    (hc : ∃ c ∈ cs, UndeclaredCandidate c) :
    ¬ Declared (.other 126) (126 :: (encodeVec id cs ++ mode.encode)) := by
  rintro ⟨e, hmirror, henc⟩
  obtain ⟨spec, hfields⟩ : ∃ spec : Idl.DynamicRouteSpec, e.encodeFields = spec.encode :=
    Idl.Dex.dynamicRouteV1.elim (motive := fun e => ∃ spec : Idl.DynamicRouteSpec,
      e.encodeFields = spec.encode) e (ctorIdx_of_mirror hmirror) fun spec => ⟨spec, rfl⟩
  rw [Idl.Dex.encode, hfields, Idl.DynamicRouteSpec.encode, encodeVec_eq, encodeVec_eq,
    List.map_id] at henc
  have hbody : ∀ c ∈ cs, CandidateBody c := fun c hc => candidateBody_of_listed (hcs c hc)
  have hitems : spec.candidates.items.map Idl.DynamicCandidate.encode = cs :=
    items_inj parses_skipCandidate (List.forall_mem_map.mpr fun e _ => candidateBody_encode e) hbody
      (by rw [List.length_map]; exact spec.candidates.length_lt) hlen (List.cons.inj henc).2
  obtain ⟨c, hmem, hundeclared⟩ := hc
  rw [← hitems] at hmem
  obtain ⟨e, -, rfl⟩ := List.mem_map.mp hmem
  exact candidate_not_declared hundeclared ⟨e, rfl⟩

/-- **No string beyond the declaration is written by a declared variant.** -/
theorem BeyondIdl.not_declared {d : Dex} {w : List UInt8} (h : BeyondIdl d w) : ¬ Declared d w := by
  cases h with
  | takerSide rfqId expireAt hside hlen =>
    rintro ⟨e, hmirror, -⟩
    obtain ⟨s, rfl⟩ := side_of_mirror hmirror
    cases s <;> exact absurd hside (by decide)
  | cashback htag hx => exact cashback_not_declared htag hx
  | solRfqFlags hu hxy => exact solRfqFlags_not_declared hu hxy
  | accountsType binArrayCount hlen hs => exact accountsType_not_declared hlen hs
  | candidate mode hlen hcs hc => exact candidates_not_declared hlen hcs hc
  | unitVariant htag =>
    rintro ⟨e, hmirror, -⟩
    have hlt := ctorIdx_of_mirror hmirror ▸ e.ctorIdx_lt
    simp only [List.mem_cons, List.not_mem_nil, or_false] at htag
    rcases htag with rfl | rfl | rfl | rfl <;> exact absurd hlt (by decide)
  | oracleCount x =>
    rintro ⟨e, hmirror, -⟩
    have hlt := ctorIdx_of_mirror hmirror ▸ e.ctorIdx_lt
    exact absurd hlt (by decide)

/-! ## Arguments -/

theorem RouteBeyond.not_declared {r : Route} {w : List UInt8} (h : RouteBeyond r w) :
    ¬ RouteDeclared r w := by
  rintro ⟨e, rfl, henc⟩
  obtain ⟨u, hu, rfl⟩ := h
  rw [Idl.Route.encode, List.append_assoc] at henc
  obtain rfl := List.append_cancel_right henc
  exact hu.not_declared ⟨e.dex, rfl, rfl⟩

/-- The arguments are read from a declared value exactly when each route is. -/
theorem declared_iff {args : SwapArgs} {ws : List (List UInt8)} {body tail : List UInt8}
    (hlen : args.routes.length < 2 ^ 32) (hws : List.Forall₂ RouteSpelled args.routes ws)
    (hbody : body = encodeSwapHead args ++ (toLE 4 args.routes.length ++ ws.flatten) ++ tail) :
    (∃ a : Idl.SwapArgs, a.mirror = args ∧ a.encode <+: body) ↔
      List.Forall₂ RouteDeclared args.routes ws := by
  constructor
  · rintro ⟨a, rfl, tail', htail⟩
    rw [hbody, a.encode_eq, List.append_assoc, List.append_assoc, List.append_assoc,
      List.append_assoc] at htail
    have hroutes := List.append_cancel_left (List.append_cancel_left htail)
    obtain ⟨-, rfl, -⟩ := Parses.forall₂_inj parses_deserializeRoute
      (forall₂_routeSpelled a.routes.items) hws rfl hroutes
    refine List.forall₂_map_left_iff.mpr (List.forall₂_map_right_iff.mpr (List.forall₂_same.mpr ?_))
    exact fun e _ => ⟨e, rfl, rfl⟩
  · intro hall
    obtain ⟨es, hmirror, henc⟩ := exists_routes hall
    have hes : es.length = args.routes.length := by rw [← hmirror, List.length_map]
    let a : Idl.SwapArgs := ⟨args.orderId, args.amountIn, args.expectAmountOut, args.slippage,
      ⟨es, hes ▸ hlen⟩⟩
    have ha : a.mirror = args := by
      show SwapArgs.mk _ _ _ _ (es.map Idl.Route.mirror) = args
      rw [hmirror]
    refine ⟨a, ha, tail, ?_⟩
    rw [a.encode_eq, ha, hbody, show a.routes.items = es from rfl, henc]

theorem forall₂_or {α β : Type} {R S : α → β → Prop} {xs : List α} {ys : List β}
    (h : List.Forall₂ (fun x y => R x y ∨ S x y) xs ys)
    (hS : ∀ p ∈ xs.zip ys, ¬ S p.1 p.2) : List.Forall₂ R xs ys := by
  induction h with
  | nil => exact .nil
  | cons hxy _ ih =>
    rw [List.zip_cons_cons] at hS
    obtain ⟨hhead, htail⟩ := List.forall_mem_cons.mp hS
    exact .cons (hxy.resolve_right hhead) (ih htail)

/-- **Accepted arguments are read from one string per route, each declared or beyond the
declaration; a prefix of the body is the encoding of declared arguments with these routes exactly when
no route is beyond it.** -/
theorem decodeSwapArgs_declared {disc : List UInt8} (hdisc : disc ∈ Entrypoint.supported)
    {body : List UInt8} {args : SwapArgs}
    (h : decodeSwapArgs (disc ++ body) = some (.concrete args)) :
    ∃ ws tail, body = encodeSwapHead args ++ (toLE 4 args.routes.length ++ ws.flatten) ++ tail ∧
      List.Forall₂ (fun r w => RouteDeclared r w ∨ RouteBeyond r w) args.routes ws ∧
      ((∃ a : Idl.SwapArgs, a.mirror = args ∧ a.encode <+: body) ↔
        ∀ p ∈ args.routes.zip ws, ¬ RouteBeyond p.1 p.2) := by
  obtain ⟨-, w, tail, ⟨hlen, ws, hws, rfl⟩, hbody⟩ := decodeSwapArgs_eq_concrete_iff.mp h
  rw [List.drop_left' (length_supported disc hdisc)] at hbody
  have hcases := hws.imp fun r w => routeSpelled_cases
  refine ⟨ws, tail, hbody, hcases, ?_⟩
  rw [declared_iff hlen hws hbody]
  constructor
  · intro hall p hp hbeyond
    exact hbeyond.not_declared (List.forall₂_zip hall hp)
  · exact fun hno => forall₂_or hcases hno

theorem decodeSwapArgs_declared_sample : ∃ ws tail,
    sampleSwapArgs.encode = encodeSwapHead sampleSwapArgs.mirror ++
      (toLE 4 sampleSwapArgs.mirror.routes.length ++ ws.flatten) ++ tail ∧
    List.Forall₂ (fun r w => RouteDeclared r w ∨ RouteBeyond r w) sampleSwapArgs.mirror.routes ws ∧
    ((∃ a : Idl.SwapArgs, a.mirror = sampleSwapArgs.mirror ∧ a.encode <+: sampleSwapArgs.encode) ↔
      ∀ p ∈ sampleSwapArgs.mirror.routes.zip ws, ¬ RouteBeyond p.1 p.2) := by
  have hdisc : Entrypoint.swapTocV3 ∈ Entrypoint.supported := by decide
  refine decodeSwapArgs_declared hdisc ?_
  rw [← List.append_nil (Entrypoint.swapTocV3 ++ sampleSwapArgs.encode)]
  exact decodeSwapArgs_encode hdisc sampleSwapArgs []

/-- Arguments with one route, whose variant is `d`. -/
def oneRoute (d : Dex) : SwapArgs := ⟨1, 1000, 0, 50, [⟨d, 10000, 0⟩]⟩

/-- The same with `w` in the place of the variant. -/
def oneRouteBody (w : List UInt8) : List UInt8 :=
  encodeSwapHead (oneRoute (.other 0)) ++ (toLE 4 1 ++ (w ++ (encodeU16 10000 ++ [0])))

/-- The decoder accepts the route, and no prefix of the body is the encoding of declared arguments. -/
def AcceptedBeyond (d : Dex) (w : List UInt8) : Prop :=
  decodeSwapArgs (Entrypoint.swap ++ oneRouteBody w) = some (.concrete (oneRoute d)) ∧
    ¬ ∃ a : Idl.SwapArgs, a.encode <+: oneRouteBody w

theorem acceptedBeyond {d : Dex} {w : List UInt8} (hspelled : DexSpelled d w)
    (hbeyond : BeyondIdl d w) : AcceptedBeyond d w := by
  have hws : List.Forall₂ RouteSpelled (oneRoute d).routes [w ++ (encodeU16 10000 ++ [0])] :=
    .cons ⟨w, hspelled, rfl⟩ .nil
  have hbody : oneRouteBody w = encodeSwapHead (oneRoute d) ++ (toLE 4 (oneRoute d).routes.length ++
      [w ++ (encodeU16 10000 ++ [0])].flatten) ++ [] := by
    rw [List.append_nil, List.flatten_singleton]
    rfl
  have hlen : (oneRoute d).routes.length < 2 ^ 32 := by
    show 1 < 2 ^ 32
    norm_num
  have hdisc : Entrypoint.swap ∈ Entrypoint.supported := by decide
  have haccept : decodeSwapArgs (Entrypoint.swap ++ oneRouteBody w) =
      some (.concrete (oneRoute d)) := by
    refine decodeSwapArgs_eq_concrete_iff.mpr ⟨⟨_, hdisc, List.prefix_append _ _⟩, oneRouteBody w, [],
      ⟨hlen, _, hws, ?_⟩, ?_⟩
    · rw [hbody, List.append_nil]
    · rw [List.drop_left' (length_supported _ hdisc), List.append_nil]
  refine ⟨haccept, ?_⟩
  rintro ⟨a, tail, htail⟩
  -- a declared prefix would be decoded to its mirror
  have hmirror : a.mirror = oneRoute d := by
    have hdeclared := decodeSwapArgs_encode hdisc a tail
    rw [List.append_assoc, htail, haccept] at hdeclared
    exact (AnySwapArgs.concrete.inj (Option.some.inj hdeclared)).symm
  have hall := (declared_iff hlen hws hbody).mp ⟨a, hmirror, tail, htail⟩
  obtain ⟨hroute, -⟩ := List.forall₂_cons.mp hall
  exact RouteBeyond.not_declared ⟨w, hbeyond, rfl⟩ hroute

/-- A side that is neither bid nor ask, a flag that is no `bool`, a later candidate and a later
variant are all accepted. -/
theorem acceptedBeyond_samples :
    AcceptedBeyond (.solRfqV2 2 7 100 []) (117 :: encodeSolRfqV2 2 7 100 []) ∧
    AcceptedBeyond (.other 23) [23, 2] ∧
    AcceptedBeyond (.other 126) [126, 1, 0, 0, 0, 17, 0] ∧
    AcceptedBeyond (.other 136) [136] := by
  refine ⟨acceptedBeyond ⟨by decide, rfl⟩ (.takerSide 7 100 (by decide) (by decide)),
    acceptedBeyond ⟨[2], rfl, rfl⟩ (.cashback (by decide) (by decide)),
    acceptedBeyond ⟨[1, 0, 0, 0, 17, 0], ?_, rfl⟩ ?_,
    acceptedBeyond ⟨[], rfl, rfl⟩ (.unitVariant (by decide))⟩
  · exact ⟨[[17]], by decide, by simpa using ⟨17, [], rfl, rfl⟩, [0], .inl rfl, by decide⟩
  · have hlater : UndeclaredCandidate [17] := ⟨[], .inr (.inr rfl)⟩
    show BeyondIdl _ (126 :: (encodeVec id [[17]] ++ Idl.SelectionMode.auto.encode))
    exact .candidate .auto (by decide) (List.forall_mem_singleton.mpr (.inr hlater))
      ⟨[17], by simp, hlater⟩

end SolanaRfq
