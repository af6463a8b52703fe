import SolanaRfq.Decoder.IdlTypes

/-!
# The strings the aggregator arguments are read from

* `DexArm.Body`: the bodies an arm skips; `DexSpelled`, `RouteSpelled`, `SwapArgsSpelled`: the
  strings of a variant, a route and the arguments;
* **`parses_deserializeDex`**, **`parses_deserializeSwapArgs`**: the readers accept exactly these.
-/

namespace SolanaRfq

open ByteFormat Borsh

/-! ## Bodies -/

/-- A level is its base and its quote atoms. -/
def encodeLevel (l : Level) : List UInt8 := encodeU64 l.baseAtoms ++ encodeU64 l.quoteAtoms

theorem format_deserializeLevel : Format deserializeLevel (fun _ => True) encodeLevel := by
  refine (format_u64.bind fun b _ => format_u64.bind fun q _ =>
    Parses.pure (Level.mk b q)).congr fun l w => ?_
  constructor
  · rintro ⟨b, -, _, ⟨q, -, _, ⟨rfl, rfl⟩, rfl⟩, rfl⟩
    exact ⟨trivial, by simp [encodeLevel]⟩
  · rintro ⟨-, rfl⟩
    exact ⟨_, trivial, _, ⟨_, trivial, _, ⟨rfl, rfl⟩, rfl⟩, by simp [encodeLevel]⟩

/-- The bodies of a `RemainingAccountsInfo`: a count and two bytes per slice. -/
def RemainingAccountsBody (w : List UInt8) : Prop :=
  ∃ (n : UInt32) (u : List UInt8), u.length = 2 * n.toNat ∧ w = encodeU32 n ++ u

/-- A candidate: a tag in range and the body of that tag. -/
def CandidateBody (w : List UInt8) : Prop :=
  ∃ tag u, candidateLen tag = some u.length ∧ w = tag :: u

/-- A selection mode: `Auto`, or `Forced` or `Hint` with one byte. -/
def ModeBody (w : List UInt8) : Prop := w = [0] ∨ ∃ x, w = [1, x] ∨ w = [2, x]

/-- The bodies of a `DynamicRouteSpec`. -/
def DynamicRouteBody (w : List UInt8) : Prop :=
  ∃ cs : List (List UInt8), cs.length < 2 ^ 32 ∧ (∀ c ∈ cs, CandidateBody c) ∧
    ∃ mode, ModeBody mode ∧ w = toLE 4 cs.length ++ cs.flatten ++ mode

/-- The bodies an arm skips; the `SolRfqV2` arm skips nothing. -/
def DexArm.Body : DexArm → List UInt8 → Prop
  | .skip len, w => w.length = len
  | .solRfqV2, _ => False
  | .remainingAccountsInfo, w => ∃ u x, RemainingAccountsBody u ∧ w = u ++ [x]
  | .dynamicRouteSpec, w => DynamicRouteBody w
  | .borshBytes, w => ∃ (n : UInt32) (u : List UInt8), u.length = n.toNat ∧ w = encodeU32 n ++ u
  | .tagOnly, w => w = []
  | .outOfRange, _ => False

/-- The fields of a `SolRfqV2` variant. -/
def encodeSolRfqV2 (takerSide : UInt8) (rfqId : UInt64) (expireAt : Int64) (levels : List Level) :
    List UInt8 :=
  takerSide :: (encodeU64 rfqId ++ (encodeI64 expireAt ++ encodeVec encodeLevel levels))

/-- The strings a variant is read from. -/
def DexSpelled : Dex → List UInt8 → Prop
  | .solRfqV2 side rfqId expireAt levels, w =>
    levels.length < 2 ^ 32 ∧ w = 117 :: encodeSolRfqV2 side rfqId expireAt levels
  | .other tag, w => ∃ u, (dexArm tag).Body u ∧ w = tag :: u

/-! ## Skipped bodies -/

theorem flatten_length_of_forall {ws : List (List UInt8)} {k : ℕ} (h : ∀ w ∈ ws, w.length = k) :
    ws.flatten.length = k * ws.length := by
  induction ws with
  | nil => rfl
  | cons w ws ih =>
    obtain ⟨hw, hws⟩ := List.forall_mem_cons.mp h
    rw [List.flatten_cons, List.length_append, hw, ih hws, List.length_cons]
    ring

theorem exists_chunks {k n : ℕ} {u : List UInt8} (h : u.length = k * n) :
    ∃ ws : List (List UInt8), ws.length = n ∧ (∀ w ∈ ws, w.length = k) ∧ u = ws.flatten := by
  induction n generalizing u with
  | zero => exact ⟨[], rfl, by simp, by simpa using h⟩
  | succ n ih =>
    have hlen : (u.drop k).length = k * n := by
      rw [List.length_drop, h]
      rw [Nat.mul_succ]
      omega
    obtain ⟨ws, hws, hk, hu⟩ := ih hlen
    refine ⟨u.take k :: ws, by simp [hws], ?_, ?_⟩
    · intro w hw
      rcases List.mem_cons.mp hw with rfl | hw
      · rw [List.length_take, h, Nat.mul_succ]
        omega
      · exact hk w hw
    · rw [List.flatten_cons, ← hu, List.take_append_drop]

theorem forall₂_unit_iff {P : List UInt8 → Prop} : ∀ {us : List Unit} {ws : List (List UInt8)},
    List.Forall₂ (fun _ w => P w) us ws ↔ us.length = ws.length ∧ ∀ w ∈ ws, P w
  | [], [] => by simp
  | [], _ :: _ => by simp
  | _ :: _, [] => by simp
  | u :: us, w :: ws => by
    rw [List.forall₂_cons, forall₂_unit_iff, List.length_cons, List.length_cons,
      List.forall_mem_cons, Nat.add_right_cancel_iff]
    tauto

theorem parses_skipRemainingAccountsInfo :
    Parses skipRemainingAccountsInfo fun _ w => RemainingAccountsBody w := by
  refine (format_u32.bind fun n _ => ((parses_skipExact 2).many n.toNat).bind fun _ _ _ =>
    Parses.pure ()).congr fun _ w => ?_
  simp only [forall₂_unit_iff]
  constructor
  · rintro ⟨n, -, _, ⟨us, _, _, ⟨hn, ws, ⟨hlen, hws⟩, rfl⟩, ⟨-, rfl⟩, rfl⟩, rfl⟩
    refine ⟨n, ws.flatten, ?_, by rw [List.append_nil]⟩
    rw [flatten_length_of_forall hws, ← hlen, hn]
  · rintro ⟨n, u, hu, rfl⟩
    obtain ⟨ws, hn, hws, rfl⟩ := exists_chunks hu
    refine ⟨n, trivial, _, ⟨List.replicate n.toNat (), _, [], ⟨List.length_replicate, ws,
      ⟨?_, hws⟩, rfl⟩, ⟨trivial, rfl⟩, rfl⟩, by rw [List.append_nil]⟩
    rw [List.length_replicate, hn]

theorem parses_skipBorshBytes : Parses skipBorshBytes fun _ w =>
    ∃ (n : UInt32) (u : List UInt8), u.length = n.toNat ∧ w = encodeU32 n ++ u := by
  refine (format_u32.bind fun n _ => parses_skipExact n.toNat).congr fun _ w => ?_
  constructor
  · rintro ⟨n, -, u, hu, rfl⟩
    exact ⟨n, u, hu, rfl⟩
  · rintro ⟨n, u, hu, rfl⟩
    exact ⟨n, trivial, u, hu, rfl⟩

theorem parses_candidateBody (c : UInt8) : Parses (match candidateLen c with
    | some len => skipExact len
    | none => throw (.invalidData s!"DynamicCandidate tag {c} out of declared range 0..=17"))
    fun _ u => candidateLen c = some u.length := by
  cases candidateLen c with
  | none => exact (Parses.throw _).congr fun _ u => by simp
  | some len => exact (parses_skipExact len).congr fun _ u => by rw [Option.some.injEq, eq_comm]

theorem parses_skipCandidate : Parses skipCandidate fun _ w => CandidateBody w := by
  refine (Format.byte.bind fun c _ => parses_candidateBody c).congr fun _ w => ?_
  constructor
  · rintro ⟨c, -, u, hu, rfl⟩
    exact ⟨c, u, hu, rfl⟩
  · rintro ⟨c, u, hu, rfl⟩
    exact ⟨c, trivial, u, hu, rfl⟩

theorem parses_skipSelectionMode : Parses skipSelectionMode fun _ w => ModeBody w := by
  refine (Format.byte.bind fun mode _ => Parses.ite (fun _ => parses_skipExact 1) fun _ =>
    Parses.failIf_unit (mode ≠ 0) _).congr fun _ w => ?_
  constructor
  · rintro ⟨mode, -, u, ⟨hm, hu⟩ | ⟨-, hm, rfl⟩, rfl⟩
    · obtain ⟨x, rfl⟩ := List.length_eq_one_iff.mp hu
      rcases hm with rfl | rfl
      · exact .inr ⟨x, .inl rfl⟩
      · exact .inr ⟨x, .inr rfl⟩
    · exact .inl (by rw [not_not.mp hm]; rfl)
  · rintro (rfl | ⟨x, rfl | rfl⟩)
    · exact ⟨0, trivial, [], .inr ⟨by decide, by decide, rfl⟩, rfl⟩
    · exact ⟨1, trivial, [x], .inl ⟨.inl rfl, rfl⟩, rfl⟩
    · exact ⟨2, trivial, [x], .inl ⟨.inr rfl, rfl⟩, rfl⟩

theorem parses_skipDynamicRouteSpec :
    Parses skipDynamicRouteSpec fun _ w => DynamicRouteBody w := by
  refine ((format_u32.bind fun n _ => (parses_skipCandidate.many n.toNat).bind fun _ _ _ =>
    parses_skipSelectionMode)).congr fun _ w => ?_
  simp only [forall₂_unit_iff]
  constructor
  · rintro ⟨n, -, _, ⟨us, _, mode, ⟨hn, cs, ⟨hlen, hcs⟩, rfl⟩, hmode, rfl⟩, rfl⟩
    have hcount : cs.length = n.toNat := hlen.symm.trans hn
    exact ⟨cs, hcount ▸ n.toNat_lt, hcs, mode, hmode, by
      rw [hcount, List.append_assoc, encodeU32]⟩
  · rintro ⟨cs, hlt, hcs, mode, hmode, rfl⟩
    have hn : (UInt32.ofNat cs.length).toNat = cs.length := UInt32.toNat_ofNat_of_lt' hlt
    refine ⟨UInt32.ofNat cs.length, trivial, _, ⟨List.replicate cs.length (), _, mode,
      ⟨?_, cs, ⟨List.length_replicate, hcs⟩, rfl⟩, hmode, rfl⟩, ?_⟩
    · rw [List.length_replicate, hn]
    · rw [encodeU32, hn, List.append_assoc]

/-! ## Variants, routes and arguments -/

theorem parses_deserializeSolRfqV2 : Parses deserializeSolRfqV2 fun d w =>
    ∃ side rfqId expireAt levels, d = .solRfqV2 side rfqId expireAt levels ∧
      levels.length < 2 ^ 32 ∧ w = encodeSolRfqV2 side rfqId expireAt levels := by
  refine (Format.byte.bind fun side _ => format_u64.bind fun rfqId _ => format_i64.bind
    fun expireAt _ => (Format.vec format_deserializeLevel).bind fun levels _ =>
      Parses.pure (Dex.solRfqV2 side rfqId expireAt levels)).congr fun d w => ?_
  constructor
  · rintro ⟨side, -, _, ⟨rfqId, -, _, ⟨expireAt, -, _, ⟨levels, ⟨hlen, -⟩, _, ⟨rfl, rfl⟩, rfl⟩,
      rfl⟩, rfl⟩, rfl⟩
    exact ⟨side, rfqId, expireAt, levels, rfl, hlen, by simp [encodeSolRfqV2]⟩
  · rintro ⟨side, rfqId, expireAt, levels, rfl, hlen, rfl⟩
    exact ⟨side, trivial, _, ⟨rfqId, trivial, _, ⟨expireAt, trivial, _, ⟨levels,
      ⟨hlen, fun _ _ => trivial⟩, _, ⟨rfl, rfl⟩, rfl⟩, rfl⟩, rfl⟩, by simp [encodeSolRfqV2]⟩

theorem dexArm_eq_solRfqV2_iff (tag : UInt8) : dexArm tag = .solRfqV2 ↔ tag = 117 := by
  revert tag
  apply forall_byte
  decide +kernel

theorem Parses.skip {r : BorshReader Unit} {B : List UInt8 → Prop} (h : Parses r fun _ w => B w)
    (tag : UInt8) : Parses (r >>= fun _ => pure (Dex.other tag)) fun d w =>
      d = .other tag ∧ B w := by
  refine (Parses.bind h fun _ _ _ => Parses.pure (Dex.other tag)).congr fun d w => ?_
  constructor
  · rintro ⟨_, u, _, hu, ⟨rfl, rfl⟩, rfl⟩
    exact ⟨rfl, by rwa [List.append_nil]⟩
  · rintro ⟨rfl, hw⟩
    exact ⟨(), w, [], hw, ⟨rfl, rfl⟩, (List.append_nil w).symm⟩

theorem parses_deserializeDexBody (tag : UInt8) : ∀ arm : DexArm,
    Parses (deserializeDexBody tag arm) fun d u =>
      (arm = .solRfqV2 ∧ ∃ side rfqId expireAt levels, d = .solRfqV2 side rfqId expireAt levels ∧
        levels.length < 2 ^ 32 ∧ u = encodeSolRfqV2 side rfqId expireAt levels) ∨
      d = .other tag ∧ arm.Body u
  | .solRfqV2 => parses_deserializeSolRfqV2.congr fun d u => by simp [DexArm.Body]
  | .skip len => (Parses.skip (parses_skipExact len) tag).congr fun d u => by simp [DexArm.Body]
  | .remainingAccountsInfo => by
    refine (Parses.bind parses_skipRemainingAccountsInfo fun _ _ _ =>
      Parses.skip (parses_skipExact 1) tag).congr fun d u => ?_
    simp only [reduceCtorEq, false_and, false_or, DexArm.Body, List.length_eq_one_iff]
    constructor
    · rintro ⟨_, v, _, hv, ⟨hd, x, rfl⟩, rfl⟩
      exact ⟨hd, v, x, hv, rfl⟩
    · rintro ⟨hd, v, x, hv, rfl⟩
      exact ⟨(), v, [x], hv, ⟨hd, x, rfl⟩, rfl⟩
  | .dynamicRouteSpec =>
    (Parses.skip parses_skipDynamicRouteSpec tag).congr fun d u => by simp [DexArm.Body]
  | .borshBytes => (Parses.skip parses_skipBorshBytes tag).congr fun d u => by simp [DexArm.Body]
  | .tagOnly => (Parses.pure (Dex.other tag)).congr fun d u => by simp [DexArm.Body]
  | .outOfRange => (Parses.throw _).congr fun d u => by simp [DexArm.Body]

/-- **The strings a variant is read from.** -/
theorem parses_deserializeDex : Parses deserializeDex DexSpelled := by
  refine (Format.byte.bind fun tag _ => parses_deserializeDexBody tag (dexArm tag)).congr
    fun d w => ?_
  constructor
  · rintro ⟨tag, -, u, ⟨htag, side, rfqId, expireAt, levels, rfl, hlen, rfl⟩ | ⟨rfl, hu⟩, rfl⟩
    · obtain rfl := (dexArm_eq_solRfqV2_iff tag).mp htag
      exact ⟨hlen, rfl⟩
    · exact ⟨u, hu, rfl⟩
  · intro h
    cases d with
    | solRfqV2 side rfqId expireAt levels =>
      obtain ⟨hlen, rfl⟩ := h
      exact ⟨117, trivial, _, .inl ⟨rfl, side, rfqId, expireAt, levels, rfl, hlen, rfl⟩, rfl⟩
    | other tag =>
      obtain ⟨u, hu, rfl⟩ := h
      exact ⟨tag, trivial, u, .inr ⟨rfl, hu⟩, rfl⟩

/-- The strings a route is read from. -/
def RouteSpelled (r : Route) (w : List UInt8) : Prop :=
  ∃ u, DexSpelled r.dex u ∧ w = u ++ (encodeU16 r.weight ++ [r.index])

theorem parses_deserializeRoute : Parses deserializeRoute RouteSpelled := by
  refine (Parses.bind parses_deserializeDex fun d _ _ => format_u16.bind fun weight _ =>
    Format.byte.bind fun index _ => Parses.pure (Route.mk d weight index)).congr fun r w => ?_
  constructor
  · rintro ⟨d, u, _, hd, ⟨weight, -, _, ⟨index, -, _, ⟨rfl, rfl⟩, rfl⟩, rfl⟩, rfl⟩
    exact ⟨u, hd, by simp⟩
  · rintro ⟨u, hd, rfl⟩
    exact ⟨r.dex, u, _, hd, ⟨r.weight, trivial, _, ⟨r.index, trivial, _, ⟨rfl, rfl⟩, rfl⟩, rfl⟩,
      by simp⟩

/-- The fields in front of the routes. -/
def encodeSwapHead (a : SwapArgs) : List UInt8 :=
  encodeU64 a.orderId ++ (encodeU64 a.amountIn ++ (encodeU64 a.expectAmountOut ++
    encodeU16 a.slippage))

/-- The strings the arguments are read from: the fields, the route count and one string per
route. -/
def SwapArgsSpelled (a : SwapArgs) (w : List UInt8) : Prop :=
  a.routes.length < 2 ^ 32 ∧ ∃ ws, List.Forall₂ RouteSpelled a.routes ws ∧
    w = encodeSwapHead a ++ (toLE 4 a.routes.length ++ ws.flatten)

/-- **The strings the arguments are read from.** -/
theorem parses_deserializeSwapArgs : Parses deserializeSwapArgs SwapArgsSpelled := by
  refine (format_u64.bind fun o _ => format_u64.bind fun i _ => format_u64.bind fun e _ =>
    format_u16.bind fun s _ => (Parses.vec parses_deserializeRoute).bind fun rs _ _ =>
      Parses.pure (SwapArgs.mk o i e s rs)).congr fun a w => ?_
  constructor
  · rintro ⟨o, -, _, ⟨i, -, _, ⟨e, -, _, ⟨s, -, _, ⟨rs, _, _, ⟨hlen, ws, hws, rfl⟩, ⟨rfl, rfl⟩,
      rfl⟩, rfl⟩, rfl⟩, rfl⟩, rfl⟩
    exact ⟨hlen, ws, hws, by simp [encodeSwapHead]⟩
  · rintro ⟨hlen, ws, hws, rfl⟩
    exact ⟨a.orderId, trivial, _, ⟨a.amountIn, trivial, _, ⟨a.expectAmountOut, trivial, _,
      ⟨a.slippage, trivial, _, ⟨a.routes, _, [], ⟨hlen, ws, hws, rfl⟩, ⟨rfl, rfl⟩, rfl⟩, rfl⟩,
        rfl⟩, rfl⟩, by simp [encodeSwapHead]⟩

end SolanaRfq
