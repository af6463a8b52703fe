import SolanaRfq.Decoder.MakerCheck
import SolanaRfq.Idl.Coverage

/-!
# The fill policy of a transaction

What `fills` and `single_fill` say about the instructions on the wire.

* `Route.leg`, `InstructionLegs`: the legs of a route and of a wire instruction; `RefusedSwap`: a
  `swap_tob*` instruction of a static aggregator program is present;
* **`decodeTransactionBytes_fillPolicy`**: the fills are the legs of the instructions in order, and
  `single_fill` counts them unless a refused swap is present;
* `SwapsKept`: no recognised swap is lost; **`swapsKept_iff`**: which messages keep theirs.
-/

namespace SolanaRfq

open ByteFormat

/-! ## Legs -/

/-- The leg of a route: a `SolRfqV2` route with side byte 0 or 1. -/
def Route.leg (r : Route) : Option DecodedFill :=
  match r.dex with
  | .solRfqV2 takerSide rfqId expireAt levels =>
    if takerSide = 0 then some ⟨.bid, rfqId, expireAt, levels⟩
    else if takerSide = 1 then some ⟨.ask, rfqId, expireAt, levels⟩
    else none
  | .other _ => none

theorem fillOfRoute_eq_leg : fillOfRoute = Route.leg := by
  funext r
  obtain ⟨dex, weight, index⟩ := r
  cases dex with
  | solRfqV2 takerSide rfqId expireAt levels =>
    simp only [fillOfRoute, Route.leg, Side.fromU8]
    split_ifs <;> rfl
  | other tag => rfl

/-- The legs of a wire instruction: those of its arguments if it is a swap of a static aggregator
program whose arguments can be read, and none otherwise. -/
inductive InstructionLegs (keys : List Pubkey) (ix : CompiledInstruction) : List DecodedFill → Prop
  | swap (args : SwapArgs) : DexProgram keys ix.programIdIndex →
      StartsWith Entrypoint.supported ix.data → ArgsSpelled args ix.data →
      InstructionLegs keys ix (args.routes.filterMap Route.leg)
  | other : (DexProgram keys ix.programIdIndex → StartsWith Entrypoint.supported ix.data →
      ∀ args, ¬ ArgsSpelled args ix.data) → InstructionLegs keys ix []

theorem instructionLegs_extractInstruction (keys : List Pubkey) (i : ℕ) (ix : CompiledInstruction) :
    InstructionLegs keys ix (extractInstruction keys (bareInstruction i ix)).fills := by
  by_cases hdex : DexProgram keys ix.programIdIndex
  · rw [extractInstruction_of_dex (bareInstruction i ix) hdex]
    show InstructionLegs keys ix (decodeSolrfqv2Legs ix.data).2
    unfold decodeSolrfqv2Legs
    cases hargs : decodeSwapArgs ix.data with
    | none =>
      refine .other fun _ hs args hspelled => ?_
      have hsome := decodeSwapArgs_eq_concrete_iff.mpr ⟨hs, hspelled⟩
      rw [hargs] at hsome
      exact absurd hsome (by simp)
    | some any =>
      cases any with
      | concrete args =>
        obtain ⟨hs, hspelled⟩ := decodeSwapArgs_eq_concrete_iff.mp hargs
        show InstructionLegs keys ix (args.routes.filterMap fillOfRoute)
        rw [fillOfRoute_eq_leg]
        exact .swap args hdex hs hspelled
      | tokenLedger args => exact absurd hargs (decodeSwapArgs_ne_tokenLedger _ args)
      | unsupported =>
        exact .other fun _ hs _ _ =>
          hs.not_unsupported (decodeSwapArgs_eq_unsupported_iff.mp hargs)
  · rw [extractInstruction_of_not_dex (bareInstruction i ix) hdex]
    exact .other fun h => absurd h hdex

theorem extractInstruction_entrypoint_unsupported_iff (keys : List Pubkey) (i : ℕ)
    (ix : CompiledInstruction) :
    (extractInstruction keys (bareInstruction i ix)).entrypoint = some .unsupported ↔
      DexProgram keys ix.programIdIndex ∧ StartsWith Entrypoint.unsupported ix.data := by
  by_cases hdex : DexProgram keys ix.programIdIndex
  · rw [extractInstruction_entrypoint (bareInstruction i ix) hdex, and_iff_right hdex,
      ← decodeSwapArgs_eq_unsupported_iff]
    show (decodeSwapArgs ix.data).map AnySwapArgs.kind = _ ↔ _
    cases decodeSwapArgs ix.data with
    | none => simp
    | some any => cases any <;> simp [AnySwapArgs.kind]
  · rw [extractInstruction_of_not_dex (bareInstruction i ix) hdex]
    simp [bareInstruction, hdex]

/-! ## Messages -/

/-- A `swap_tob*` instruction of a static aggregator program is present. -/
def RefusedSwap (m : ParsedMessage) : Prop :=
  ∃ ix ∈ m.instructions, DexProgram m.staticAccountKeys ix.programIdIndex ∧
    StartsWith Entrypoint.unsupported ix.data

/-- A decoded message without its fills and entrypoints. -/
def DecodedMessage.cleared (msg : DecodedMessage) : DecodedMessage :=
  { msg with instructions := msg.instructions.map fun ix =>
      { ix with fills := [], entrypoint := none } }

theorem forall₂_map_zipIdx {α β : Type} {R : α → β → Prop} {g : α × ℕ → β}
    (h : ∀ x i, R x (g (x, i))) (xs : List α) (k : ℕ) :
    List.Forall₂ R xs ((xs.zipIdx k).map g) := by
  induction xs generalizing k with
  | nil => exact .nil
  | cons x xs ih => exact .cons (h x k) (ih (k + 1))

theorem instructions_extractFills (m : ParsedMessage) :
    (extractFills (bareMessage m)).instructions = m.instructions.zipIdx.map fun p =>
      extractInstruction m.staticAccountKeys (bareInstruction p.2 p.1) := by
  simp only [extractFills, bareMessage, List.map_map, Function.comp_def]

theorem fills_extractFills (m : ParsedMessage) : ∃ legs,
    List.Forall₂ (InstructionLegs m.staticAccountKeys) m.instructions legs ∧
      (extractFills (bareMessage m)).fills = legs.flatten := by
  refine ⟨(extractFills (bareMessage m)).instructions.map DecodedInstruction.fills, ?_,
    List.flatMap_def⟩
  rw [instructions_extractFills, List.map_map]
  exact forall₂_map_zipIdx (fun ix i =>
    instructionLegs_extractInstruction m.staticAccountKeys i ix) m.instructions 0

theorem hasUnsupportedEntrypoint_extractFills (m : ParsedMessage) :
    (extractFills (bareMessage m)).hasUnsupportedEntrypoint = true ↔ RefusedSwap m := by
  rw [DecodedMessage.hasUnsupportedEntrypoint, List.any_eq_true, instructions_extractFills]
  simp only [List.mem_map, Prod.exists, decide_eq_true_eq]
  constructor
  · rintro ⟨_, ⟨ix, i, hix, rfl⟩, hrefused⟩
    exact ⟨ix, List.mem_of_getElem? (List.mem_zipIdx_iff_getElem?.mp hix),
      (extractInstruction_entrypoint_unsupported_iff _ i ix).mp hrefused⟩
  · rintro ⟨ix, hix, hrefused⟩
    obtain ⟨i, hi⟩ := List.mem_iff_getElem?.mp hix
    exact ⟨_, ⟨ix, i, List.mem_zipIdx_iff_getElem?.mpr hi, rfl⟩,
      (extractInstruction_entrypoint_unsupported_iff _ i ix).mpr hrefused⟩

theorem cleared_extractFills (m : ParsedMessage) :
    (extractFills (bareMessage m)).cleared = bareMessage m := by
  have hix (ix : CompiledInstruction) (i : ℕ) :
      { extractInstruction m.staticAccountKeys (bareInstruction i ix) with
        fills := [], entrypoint := none } = bareInstruction i ix := by
    rw [extractInstruction_eq]
    rfl
  unfold DecodedMessage.cleared
  rw [instructions_extractFills, List.map_map]
  simp only [Function.comp_def, hix]
  rfl

theorem singleFill_of_unsupported {msg : DecodedMessage} (h : msg.hasUnsupportedEntrypoint = true) :
    msg.singleFill = .error .unsupportedEntrypoint := if_pos h

theorem singleFill_of_supported {msg : DecodedMessage}
    (h : msg.hasUnsupportedEntrypoint = false) :
    (∀ f, msg.singleFill = .ok f ↔ msg.fills = [f]) ∧
      (msg.fills = [] → msg.singleFill = .error .notFound) ∧
      (2 ≤ msg.fills.length → msg.singleFill = .error (.multiple msg.fills.length)) := by
  refine ⟨fun f => by rw [singleFill_eq_ok_iff, and_iff_right h], fun hnil => ?_, fun hlen => ?_⟩
  · rw [DecodedMessage.singleFill, h, hnil]
    rfl
  · unfold DecodedMessage.singleFill
    rw [h]
    match hfills : msg.fills, hlen with
    | f :: g :: fills, _ => rfl

/-! ## The policy -/

/-- What the decoded message `msg` says about the wire message `m`. -/
structure FillPolicy (m : ParsedMessage) (msg : DecodedMessage) : Prop where
  kept : decodeMessage m = .ok msg.cleared
  legs : ∃ legs, List.Forall₂ (InstructionLegs m.staticAccountKeys) m.instructions legs ∧
    msg.fills = legs.flatten
  single : ∀ f, msg.singleFill = .ok f ↔ ¬ RefusedSwap m ∧ msg.fills = [f]
  refused : RefusedSwap m → msg.singleFill = .error .unsupportedEntrypoint
  notFound : ¬ RefusedSwap m → msg.fills = [] → msg.singleFill = .error .notFound
  multiple : ¬ RefusedSwap m → 2 ≤ msg.fills.length →
    msg.singleFill = .error (.multiple msg.fills.length)

theorem fillPolicy_extractFills {m : ParsedMessage} (hm : Accepted m) :
    FillPolicy m (extractFills (bareMessage m)) := by
  have hrefused := hasUnsupportedEntrypoint_extractFills m
  have hsupported (h : ¬ RefusedSwap m) :
      (extractFills (bareMessage m)).hasUnsupportedEntrypoint = false := by
    rw [← Bool.not_eq_true, hrefused]
    exact h
  refine ⟨decodeMessage_eq_ok_iff.mpr ⟨hm, cleared_extractFills m⟩, fills_extractFills m,
    fun f => ?_, fun h => singleFill_of_unsupported (hrefused.mpr h),
    fun h => (singleFill_of_supported (hsupported h)).2.1,
    fun h => (singleFill_of_supported (hsupported h)).2.2⟩
  rw [singleFill_eq_ok_iff, ← Bool.not_eq_true, hrefused]

/-- **The fills of a transaction are the legs of its instructions, and `single_fill` counts them
unless a refused swap is present.** -/
theorem decodeTransactionBytes_fillPolicy {b : List UInt8} {tx : DecodedTransaction}
    (h : decodeTransactionBytes b = .ok tx) :
    ∃ t, parseTransaction b = .ok t ∧ FillPolicy t.message tx.message := by
  obtain ⟨t, ht, -, hacc, rfl⟩ := decodeTransactionBytes_eq_ok_iff.mp h
  exact ⟨t, ht, fillPolicy_extractFills hacc⟩

/-- The sample leg with a signature. -/
def sampleLegTransaction : ParsedTransaction := ⟨[List.Vector.replicate 64 7], sampleLegMessage⟩

theorem decodeTransactionBytes_sampleLeg :
    decodeTransactionBytes (encodeCompactTransaction sampleLegTransaction) =
      .ok ⟨sampleLegTransaction.signatures, extractFills (bareMessage sampleLegMessage)⟩ := by
  have hparse := parseTransaction_encode (t := sampleLegTransaction)
    ⟨by decide +kernel, compactMessage_sampleLegMessage⟩ (by decide +kernel) []
  rw [List.append_nil] at hparse
  exact decodeTransactionBytes_eq_ok_iff.mpr
    ⟨_, hparse, by decide +kernel, accepted_sampleLegMessage, rfl⟩

theorem decodeTransactionBytes_fillPolicy_sample : ∃ t,
    parseTransaction (encodeCompactTransaction sampleLegTransaction) = .ok t ∧
      FillPolicy t.message (extractFills (bareMessage sampleLegMessage)) :=
  decodeTransactionBytes_fillPolicy decodeTransactionBytes_sampleLeg

/-! ## Lost swaps -/

/-- A swap of a static aggregator program, with any of the known discriminators. -/
def RecognisedSwap (msg : DecodedMessage) (ix : DecodedInstruction) : Prop :=
  DexProgram msg.staticAccountKeys ix.programIdIndex ∧
    StartsWith (Entrypoint.supported ++ Entrypoint.unsupported) ix.data

/-- No recognised swap is lost: each has an entrypoint, and a message with one whose arguments
cannot be read has no single fill. -/
structure SwapsKept (msg : DecodedMessage) : Prop where
  entrypoint : ∀ ix ∈ msg.instructions, RecognisedSwap msg ix → ix.entrypoint ≠ none
  refused : ∀ ix ∈ msg.instructions, RecognisedSwap msg ix → (∀ args, ¬ ArgsSpelled args ix.data) →
    ∀ f, msg.singleFill ≠ .ok f

theorem DecodedFrom.entrypoint {b : List UInt8} {msg : DecodedMessage} (h : DecodedFrom b msg)
    {ix : DecodedInstruction} (hix : ix ∈ msg.instructions)
    (hdex : DexProgram msg.staticAccountKeys ix.programIdIndex) :
    ix.entrypoint = (decodeSwapArgs ix.data).map AnySwapArgs.kind := by
  obtain ⟨m, -, rfl⟩ := h.accepted
  obtain ⟨i, cix, -, rfl⟩ := mem_instructions_extractFills hix
  have hdex' : DexProgram m.staticAccountKeys (bareInstruction i cix).programIdIndex := by
    rwa [extractInstruction_programIdIndex] at hdex
  rw [extractInstruction_data]
  exact extractInstruction_entrypoint _ hdex'

theorem decodeSwapArgs_ne_none_iff {data : List UInt8}
    (h : StartsWith (Entrypoint.supported ++ Entrypoint.unsupported) data) :
    decodeSwapArgs data ≠ none ↔
      StartsWith Entrypoint.unsupported data ∨ ∃ args, ArgsSpelled args data := by
  rw [startsWith_append_iff] at h
  by_cases hu : StartsWith Entrypoint.unsupported data
  · simp [decodeSwapArgs_of_unsupported hu, hu]
  · have hs := h.resolve_right hu
    rw [decodeSwapArgs_of_supported hs, ne_eq, trySwapArgs_eq_none_iff, or_iff_right hu]
    simp only [ne_eq, not_forall, not_not]
    exact exists_congr fun args => trySwapArgs_eq_concrete_iff

/-- **A recognised swap is lost exactly when its discriminator is decoded and no arguments of declared
or otherwise known routes follow it.** -/
theorem swapsKept_iff {b : List UInt8} {msg : DecodedMessage} (h : DecodedFrom b msg) :
    (∀ ix ∈ msg.instructions, RecognisedSwap msg ix → (ix.entrypoint ≠ none ↔
      StartsWith Entrypoint.unsupported ix.data ∨ ∃ args, ArgsListed args ix.data)) ∧
    (SwapsKept msg ↔ ∀ ix ∈ msg.instructions, DexProgram msg.staticAccountKeys ix.programIdIndex →
      StartsWith Entrypoint.supported ix.data → ∃ args, ArgsListed args ix.data) := by
  simp only [← argsSpelled_iff_listed]
  have hentry (ix : DecodedInstruction) (hix : ix ∈ msg.instructions)
      (hswap : RecognisedSwap msg ix) : ix.entrypoint ≠ none ↔
        StartsWith Entrypoint.unsupported ix.data ∨ ∃ args, ArgsSpelled args ix.data := by
    rw [h.entrypoint hix hswap.1, ne_eq, Option.map_eq_none_iff]
    exact decodeSwapArgs_ne_none_iff hswap.2
  refine ⟨hentry, fun hkept ix hix hdex hs => ?_, fun hread => ⟨fun ix hix hswap => ?_, ?_⟩⟩
  · have hswap : RecognisedSwap msg ix := ⟨hdex, startsWith_append_iff.mpr (.inl hs)⟩
    exact ((hentry ix hix hswap).mp (hkept.entrypoint ix hix hswap)).resolve_left hs.not_unsupported
  · rw [hentry ix hix hswap]
    rcases startsWith_append_iff.mp hswap.2 with hs | hu
    · exact .inr (hread ix hix hswap.1 hs)
    · exact .inl hu
  · intro ix hix hswap hargs f hok
    have hu : StartsWith Entrypoint.unsupported ix.data := by
      refine (startsWith_append_iff.mp hswap.2).resolve_left fun hs => ?_
      obtain ⟨args, hspelled⟩ := hread ix hix hswap.1 hs
      exact hargs args hspelled
    have hmark : ix.entrypoint = some .unsupported := by
      rw [h.entrypoint hix hswap.1, decodeSwapArgs_of_unsupported hu]
      rfl
    have hnone := hasUnsupportedEntrypoint_eq_false_iff.mp (singleFill_eq_ok_iff.mp hok).1
    exact hnone ix hix hmark

theorem swapsKept_sample : SwapsKept (extractFills (bareMessage sampleLegMessage)) := by
  refine (swapsKept_iff decodedFrom_sampleLegMessage).2.mpr fun ix hix _ hs => ?_
  obtain ⟨i, cix, hcix, rfl⟩ := mem_instructions_extractFills hix
  obtain rfl := List.mem_singleton.mp hcix
  rw [extractInstruction_data] at hs ⊢
  have hread : decodeSwapArgs sampleSwapData ≠ none := by decide +kernel
  obtain ⟨args, hargs⟩ := ((decodeSwapArgs_ne_none_iff (startsWith_append_iff.mpr (.inl hs))).mp
    hread).resolve_left hs.not_unsupported
  exact ⟨args, argsSpelled_iff_listed.mp hargs⟩

/-- The sample leg, followed by a swap without arguments. -/
def lostSwapMessage : ParsedMessage :=
  { sampleLegMessage with
    instructions := sampleLegMessage.instructions ++ [⟨4, [], Entrypoint.swap⟩] }

theorem decodedFrom_lostSwapMessage : DecodedFrom (encodeCompactMessage lostSwapMessage)
    (extractFills (bareMessage lostSwapMessage)) := by
  have hm : CompactMessage lostSwapMessage := ⟨⟨rfl, by decide +kernel, by decide +kernel,
    by decide +kernel, by decide +kernel⟩, by decide, by decide⟩
  have hparse := parseMessage_encode hm []
  rw [List.append_nil] at hparse
  exact .inl (decodeMessageBytes_eq_ok_iff.mpr ⟨_, hparse, ⟨by decide +kernel, by decide +kernel,
    by decide +kernel, by decide +kernel, by decide +kernel⟩, rfl⟩)

/-- The second swap of the message is lost, and the message still has a single fill. -/
theorem not_swapsKept_lostSwapMessage :
    DecodedFrom (encodeCompactMessage lostSwapMessage)
      (extractFills (bareMessage lostSwapMessage)) ∧
    (∃ f, (extractFills (bareMessage lostSwapMessage)).singleFill = .ok f) ∧
    ¬ SwapsKept (extractFills (bareMessage lostSwapMessage)) := by
  refine ⟨decodedFrom_lostSwapMessage, ⟨⟨.bid, 7, 100, [⟨5, 9⟩]⟩, by decide +kernel⟩, fun hkept => ?_⟩
  have hswap : RecognisedSwap (extractFills (bareMessage lostSwapMessage))
      ⟨1, 4, [], Entrypoint.swap, [], none⟩ :=
    ⟨⟨dexSolanaV3ProgramIdBytes, by decide +kernel, .inl rfl⟩, by decide⟩
  exact hkept.entrypoint _ (by decide +kernel) hswap rfl

end SolanaRfq
