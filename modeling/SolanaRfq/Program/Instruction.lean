import SolanaRfq.Decoder.Policy
import SolanaRfq.Program.Types

/-!
# The instruction data of the program

The arguments of `fill_exact_in`, in the order of `lib.rs` and with the derived readers of `types.rs`,
behind the discriminator of the IDL. The decoder has a reader of its own for the legs of a swap, and
skips a leg whose side byte is neither 0 nor 1, since the program could not read it.

* `deserializeFillExactIn`, `decodeFillExactIn`: the readers; `encodeFillExactIn`: the layout;
* `decodeFillExactIn_eq_some_iff`: the data the program reads;
* **`legs_read_on_chain`**: from the bytes of a leg the program reads what the decoder reports, at any
  amounts, and nothing where the decoder skips the leg.
-/

namespace SolanaRfq

open ByteFormat Borsh

/-! ## Arguments -/

/-- The arguments of `fill_exact_in`. -/
structure FillExactInArgs where
  takerSide : Side
  amountInAtoms : UInt64
  minOutAtoms : UInt64
  params : FillExactInParams
deriving DecidableEq

def fillExactInDiscriminator : List UInt8 := [222, 208, 6, 209, 154, 163, 54, 94]

/-- A side is its variant index. -/
def deserializeSide : BorshReader Side := do
  let tag ← byte
  if tag = 0 then return .bid
  else if tag = 1 then return .ask
  else throw (.invalidData s!"Unexpected variant tag: {tag}")

/-- The signed quote: its id, its expiry and its levels. -/
def deserializeParams : BorshReader FillExactInParams := do
  let rfqId ← u64
  let expireAt ← i64
  let levels ← vec deserializeLevel
  return ⟨rfqId, expireAt, levels⟩

/-- The arguments of `fill_exact_in`. -/
def deserializeFillExactIn : BorshReader FillExactInArgs := do
  let takerSide ← deserializeSide
  let amountInAtoms ← u64
  let minOutAtoms ← u64
  let params ← deserializeParams
  return ⟨takerSide, amountInAtoms, minOutAtoms, params⟩

/-- Match the discriminator and read the arguments behind it. -/
def decodeFillExactIn (data : List UInt8) : Option FillExactInArgs :=
  if fillExactInDiscriminator <+: data then
    match runReader deserializeFillExactIn (data.drop 8) with
    | .ok args => some args
    | .error _ => none
  else none

/-! ## The layout -/

/-- The variant index of a side. -/
def Side.toU8 : Side → UInt8
  | .bid => 0
  | .ask => 1

def encodeParams (params : FillExactInParams) : List UInt8 :=
  encodeU64 params.rfqId ++ (encodeI64 params.expireAt ++ encodeVec encodeLevel params.levels)

/-- The arguments as the client writes them. -/
def encodeFillExactIn (args : FillExactInArgs) : List UInt8 :=
  args.takerSide.toU8 :: (encodeU64 args.amountInAtoms ++ (encodeU64 args.minOutAtoms ++
    encodeParams args.params))

theorem format_deserializeSide :
    Format deserializeSide (fun _ => True) fun side => [side.toU8] := by
  refine (Format.byte.bind fun tag _ => Parses.ite (fun _ => Parses.pure Side.bid) fun _ =>
    Parses.ite (fun _ => Parses.pure Side.ask) fun _ => Parses.throw _).congr fun side w => ?_
  constructor
  · rintro ⟨tag, -, _, ⟨rfl, rfl, rfl⟩ | ⟨-, ⟨rfl, rfl, rfl⟩ | ⟨-, hfalse⟩⟩, rfl⟩
    · exact ⟨trivial, rfl⟩
    · exact ⟨trivial, rfl⟩
    · exact hfalse.elim
  · rintro ⟨-, rfl⟩
    cases side with
    | bid => exact ⟨0, trivial, [], .inl ⟨rfl, rfl, rfl⟩, rfl⟩
    | ask => exact ⟨1, trivial, [], .inr ⟨by decide, .inl ⟨rfl, rfl, rfl⟩⟩, rfl⟩

theorem format_deserializeParams :
    Format deserializeParams (fun p => p.levels.length < 2 ^ 32) encodeParams := by
  refine (format_u64.bind fun rfqId _ => format_i64.bind fun expireAt _ =>
    (Format.vec format_deserializeLevel).bind fun levels _ =>
      Parses.pure (FillExactInParams.mk rfqId expireAt levels)).congr fun p w => ?_
  constructor
  · rintro ⟨rfqId, -, _, ⟨expireAt, -, _, ⟨levels, ⟨hlen, -⟩, _, ⟨rfl, rfl⟩, rfl⟩, rfl⟩, rfl⟩
    exact ⟨hlen, by simp [encodeParams]⟩
  · rintro ⟨hlen, rfl⟩
    exact ⟨_, trivial, _, ⟨_, trivial, _, ⟨_, ⟨hlen, fun _ _ => trivial⟩, _, ⟨rfl, rfl⟩, rfl⟩, rfl⟩,
      by simp [encodeParams]⟩

theorem format_deserializeFillExactIn : Format deserializeFillExactIn
    (fun args => args.params.levels.length < 2 ^ 32) encodeFillExactIn := by
  refine (format_deserializeSide.bind fun side _ => format_u64.bind fun amountIn _ =>
    format_u64.bind fun minOut _ => format_deserializeParams.bind fun params _ =>
      Parses.pure (FillExactInArgs.mk side amountIn minOut params)).congr fun args w => ?_
  constructor
  · rintro ⟨side, -, _, ⟨amountIn, -, _, ⟨minOut, -, _, ⟨params, hlen, _, ⟨rfl, rfl⟩, rfl⟩, rfl⟩,
      rfl⟩, rfl⟩
    exact ⟨hlen, by simp [encodeFillExactIn]⟩
  · rintro ⟨hlen, rfl⟩
    exact ⟨_, trivial, _, ⟨_, trivial, _, ⟨_, trivial, _, ⟨_, hlen, _, ⟨rfl, rfl⟩, rfl⟩, rfl⟩, rfl⟩,
      by simp [encodeFillExactIn]⟩

theorem decodeFillExactIn_eq_some_iff {data : List UInt8} {args : FillExactInArgs} :
    decodeFillExactIn data = some args ↔ args.params.levels.length < 2 ^ 32 ∧
      ∃ tail, data = fillExactInDiscriminator ++ (encodeFillExactIn args ++ tail) := by
  unfold decodeFillExactIn
  split_ifs with hdisc
  · obtain ⟨body, rfl⟩ := hdisc
    have hdrop : (fillExactInDiscriminator ++ body).drop 8 = body := rfl
    have hread : (match runReader deserializeFillExactIn body with
        | .ok args => some args
        | .error _ => none) = some args ↔ runReader deserializeFillExactIn body = .ok args := by
      cases runReader deserializeFillExactIn body <;> simp
    rw [hdrop, hread, format_deserializeFillExactIn.runReader_eq_ok]
    simp only [List.append_cancel_left_eq]
  · refine iff_of_false (by simp) ?_
    rintro ⟨-, tail, rfl⟩
    exact hdisc (List.prefix_append _ _)

/-! ## Legs -/

/-- The data of a call with the bytes of a leg: its side byte and its other fields, with the amounts
in between. -/
def legCall (takerSide : UInt8) (fields : List UInt8) (amountIn minOut : UInt64) : List UInt8 :=
  fillExactInDiscriminator ++ takerSide :: (encodeU64 amountIn ++ (encodeU64 minOut ++ fields))

/-- The arguments of a call with the fields of a fill. -/
def DecodedFill.args (fill : DecodedFill) (amountIn minOut : UInt64) : FillExactInArgs :=
  ⟨fill.takerSide, amountIn, minOut, ⟨fill.rfqId, fill.expireAt, fill.levels⟩⟩

theorem decodeFillExactIn_legCall {params : FillExactInParams}
    (hlen : params.levels.length < 2 ^ 32) (side : Side) (amountIn minOut : UInt64) :
    decodeFillExactIn (legCall side.toU8 (encodeParams params) amountIn minOut) =
      some ⟨side, amountIn, minOut, params⟩ :=
  decodeFillExactIn_eq_some_iff.mpr ⟨hlen, [], by rw [List.append_nil, legCall, encodeFillExactIn]⟩

theorem decodeFillExactIn_legCall_eq_none {takerSide : UInt8} (h0 : takerSide ≠ 0)
    (h1 : takerSide ≠ 1) (fields : List UInt8) (amountIn minOut : UInt64) :
    decodeFillExactIn (legCall takerSide fields amountIn minOut) = none := by
  refine Option.eq_none_iff_forall_ne_some.mpr fun args hargs => ?_
  obtain ⟨-, tail, htail⟩ := decodeFillExactIn_eq_some_iff.mp hargs
  rw [legCall, List.append_cancel_left_eq, encodeFillExactIn, List.cons_append,
    List.cons.injEq] at htail
  cases hside : args.takerSide with
  | bid => exact h0 (htail.1.trans (by rw [hside]; rfl))
  | ask => exact h1 (htail.1.trans (by rw [hside]; rfl))

/-- The program reads a leg exactly when the decoder keeps it. -/
theorem decodeFillExactIn_of_leg {r : Route} {takerSide : UInt8} {rfqId : UInt64} {expireAt : Int64}
    {levels : List Level} (hdex : r.dex = .solRfqV2 takerSide rfqId expireAt levels)
    (hlen : levels.length < 2 ^ 32) (amountIn minOut : UInt64) :
    decodeFillExactIn (legCall takerSide (encodeParams ⟨rfqId, expireAt, levels⟩) amountIn minOut) =
      r.leg.map (·.args amountIn minOut) := by
  by_cases h0 : takerSide = 0
  · rw [Route.leg, hdex]
    subst h0
    exact decodeFillExactIn_legCall hlen .bid amountIn minOut
  · by_cases h1 : takerSide = 1
    · rw [Route.leg, hdex]
      subst h1
      exact decodeFillExactIn_legCall hlen .ask amountIn minOut
    · have hleg : r.leg = none := by simp only [Route.leg, hdex, h0, h1, if_false]
      rw [hleg, Option.map_none, decodeFillExactIn_legCall_eq_none h0 h1]

theorem ArgsSpelled.infix_data {args : SwapArgs} {data : List UInt8} (h : ArgsSpelled args data)
    {r : Route} (hr : r ∈ args.routes) : ∃ w, RouteSpelled r w ∧ w <:+: data := by
  obtain ⟨_, tail, ⟨-, ws, hws, rfl⟩, hdrop⟩ := h
  obtain ⟨i, hi, rfl⟩ := List.getElem_of_mem hr
  have hi' : i < ws.length := hws.length_eq ▸ hi
  refine ⟨ws[i], hws.get hi hi', ?_⟩
  have hflat : ws[i] <:+: ws.flatten := List.infix_of_mem_flatten (List.getElem_mem hi')
  have hdata : ws.flatten <:+: data.drop 8 := by
    rw [hdrop, ← List.append_assoc]
    exact List.infix_append _ _ _
  exact (hflat.trans hdata).trans (List.drop_suffix 8 data).isInfix

/-- **From the bytes of a leg the program reads the fill that the decoder reports, at any amounts, and
nothing where the decoder skips the leg.** -/
theorem legs_read_on_chain {data : List UInt8} {args : SwapArgs}
    (h : decodeSwapArgs data = some (.concrete args)) {r : Route} (hr : r ∈ args.routes)
    {takerSide : UInt8} {rfqId : UInt64} {expireAt : Int64} {levels : List Level}
    (hdex : r.dex = .solRfqV2 takerSide rfqId expireAt levels) :
    ∃ fields, 117 :: takerSide :: fields <:+: data ∧ ∀ amountIn minOut,
      decodeFillExactIn (legCall takerSide fields amountIn minOut) =
        r.leg.map (·.args amountIn minOut) := by
  obtain ⟨-, hargs⟩ := decodeSwapArgs_eq_concrete_iff.mp h
  obtain ⟨_, ⟨u, hu, rfl⟩, hdata⟩ := hargs.infix_data hr
  rw [hdex] at hu
  obtain ⟨hlen, rfl⟩ := hu
  exact ⟨_, (List.prefix_append _ _).isInfix.trans hdata, decodeFillExactIn_of_leg hdex hlen⟩

/-- The route of the sample swap. -/
def sampleRoute : Route := ⟨.solRfqV2 0 7 100 [⟨5, 9⟩], 10000, 0⟩

theorem legs_read_on_chain_sample : ∃ fields, 117 :: 0 :: fields <:+: sampleSwapData ∧
    ∀ amountIn minOut, decodeFillExactIn (legCall 0 fields amountIn minOut) =
      some ⟨.bid, amountIn, minOut, ⟨7, 100, [⟨5, 9⟩]⟩⟩ := by
  have hargs : decodeSwapArgs sampleSwapData = some (.concrete ⟨1, 1000, 0, 0, [sampleRoute]⟩) := by
    decide +kernel
  exact legs_read_on_chain hargs List.mem_cons_self rfl

end SolanaRfq
