import SolanaRfq.Program.BestExecution
import SolanaRfq.Program.Chain

/-!
# What a maker is exposed to

A signed ladder can be swept again and again until it expires, by anyone and in any amounts, since
no level is used up on chain. The order check makes its first level the best one, so that level bounds
everything.

* `sweep_le_first_price`: a sweep pays at most the first quoted price;
* **`sweep_split`**: an order in parts pays at least what it pays at once, up to one atom for each
  further part, and at most the first quoted price;
* `makerValue`, `QuotedAt`: the value of a maker's accounts at a price, and calls that quote no better;
* **`makerValue_le`**: no run of calls lowers the value of guarded accounts.
-/

namespace SolanaRfq

open AccountMoves PayoutCurve TracedRun

variable {side : Side}

/-! ## Parts of an order -/

theorem sweep_le_first_price {levels : List Level} {first : Level} {amountIn minOutAtoms out : UInt64}
    (hsorted : assertSortedFor side levels = .ok ()) (hamount : 0 < amountIn)
    (hfirst : levels.head? = some first) (h : sweep side amountIn minOutAtoms levels = .ok out) :
    0 < (first.inAtoms side).toNat ∧
      out.toNat * (first.inAtoms side).toNat ≤ amountIn.toNat * (first.outAtoms side).toNat := by
  obtain ⟨hpos, -, -⟩ := sweep_curve hsorted hamount h
  have hproper : Proper (segments side levels) := proper_segments hpos
  have hfalling := pairwise_rateGe ((assertSortedFor_eq_ok_iff side levels).mp hsorted)
  obtain ⟨hle, -⟩ := sweep_floor hsorted hpos h
  have hhead : first.segment side ∈ (segments side levels).head? := by
    rw [segments, List.head?_map, hfirst]
    exact rfl
  have hprice := curve_le_first_rate hproper hfalling hhead
    (Nat.cast_nonneg (α := ℚ) amountIn.toNat)
  have hin : 0 ≤ (first.segment side).input := Nat.cast_nonneg _
  have hmul := (mul_le_mul_of_nonneg_right hle hin).trans hprice
  rw [segment_input, segment_output] at hmul
  exact ⟨hpos first (List.mem_of_mem_head? hfirst), by exact_mod_cast hmul⟩

/-- An order on a ladder, with what its sweep paid. -/
structure Order where
  amountIn : UInt64
  minOutAtoms : UInt64
  out : UInt64

/-- The order was swept. -/
def Order.Swept (side : Side) (levels : List Level) (o : Order) : Prop :=
  0 < o.amountIn ∧ sweep side o.amountIn o.minOutAtoms levels = .ok o.out

/-- What the parts of an order are worth on the curve is below what they paid, and an atom each. -/
theorem sum_curve_lt {levels : List Level} {parts : List Order}
    (hsorted : assertSortedFor side levels = .ok ()) (hpos : ∀ l ∈ levels, 0 < (l.inAtoms side).toNat)
    (hparts : ∀ o ∈ parts, o.Swept side levels) (hne : parts ≠ []) :
    (parts.map fun o => curve (segments side levels) (o.amountIn.toNat : ℚ)).sum <
      (parts.map fun o => (o.out.toNat : ℚ)).sum + parts.length := by
  have hlt := List.sum_lt_sum_of_ne_nil hne _ (fun o => (o.out.toNat : ℚ) + 1) fun o ho =>
    (sweep_floor hsorted hpos (hparts o ho).2).2
  rwa [List.sum_map_add, List.map_const', List.sum_replicate, nsmul_eq_mul, mul_one] at hlt

/-- **An order in parts pays at least what it pays at once, up to one atom for each further part, and
at most the first quoted price.** -/
theorem sweep_split (side : Side) {levels : List Level} (whole : Order) (parts : List Order)
    (hsorted : assertSortedFor side levels = .ok ()) (hwhole : whole.Swept side levels)
    (hparts : ∀ o ∈ parts, o.Swept side levels)
    (hsum : (parts.map fun o => o.amountIn.toNat).sum = whole.amountIn.toNat) :
    whole.out.toNat + 1 ≤ (parts.map fun o => o.out.toNat).sum + parts.length ∧
      ∃ first, levels.head? = some first ∧
        (parts.map fun o => o.out.toNat).sum * (first.inAtoms side).toNat ≤
          whole.amountIn.toNat * (first.outAtoms side).toNat := by
  obtain ⟨hamount, hswept⟩ := hwhole
  obtain ⟨hpos, -, -⟩ := sweep_curve hsorted hamount hswept
  have hproper : Proper (segments side levels) := proper_segments hpos
  have hfalling := pairwise_rateGe ((assertSortedFor_eq_ok_iff side levels).mp hsorted)
  constructor
  · have hne : parts ≠ [] := by
      rintro rfl
      have : 0 < whole.amountIn.toNat := UInt64.lt_iff_toNat_lt.mp hamount
      simp only [List.map_nil, List.sum_nil] at hsum
      omega
    have hcast : (parts.map fun o => (o.amountIn.toNat : ℚ)).sum = (whole.amountIn.toNat : ℚ) := by
      rw [← hsum, Nat.cast_list_sum, List.map_map]
      rfl
    have hnonneg : ∀ x ∈ parts.map fun o => (o.amountIn.toNat : ℚ), 0 ≤ x := by
      intro x hx
      obtain ⟨o, -, rfl⟩ := List.mem_map.mp hx
      exact Nat.cast_nonneg _
    have hsub := curve_sum_le hproper hfalling hnonneg
    have hlt : (whole.out.toNat : ℚ) <
        (parts.map fun o => (o.out.toNat : ℚ)).sum + parts.length :=
      calc (whole.out.toNat : ℚ)
          ≤ curve (segments side levels) (whole.amountIn.toNat : ℚ) :=
            (sweep_floor hsorted hpos hswept).1
        _ ≤ (parts.map fun o => curve (segments side levels) (o.amountIn.toNat : ℚ)).sum := by
            rwa [hcast, List.map_map] at hsub
        _ < (parts.map fun o => (o.out.toNat : ℚ)).sum + parts.length :=
            sum_curve_lt hsorted hpos hparts hne
    have houts : (parts.map fun o => (o.out.toNat : ℚ)).sum =
        ((parts.map fun o => o.out.toNat).sum : ℕ) := by
      rw [Nat.cast_list_sum, List.map_map]
      rfl
    rw [houts] at hlt
    exact_mod_cast hlt
  · obtain ⟨first, rest, -, rfl, -⟩ := exists_first_level hamount hswept
    refine ⟨first, rfl, ?_⟩
    calc (parts.map fun o => o.out.toNat).sum * (first.inAtoms side).toNat
        = (parts.map fun o => o.out.toNat * (first.inAtoms side).toNat).sum :=
          (List.sum_map_mul_right ..).symm
      _ ≤ (parts.map fun o => o.amountIn.toNat * (first.outAtoms side).toNat).sum :=
          List.sum_le_sum fun o ho => (sweep_le_first_price hsorted (hparts o ho).1 rfl
            (hparts o ho).2).2
      _ = whole.amountIn.toNat * (first.outAtoms side).toNat := by
          rw [List.sum_map_mul_right, hsum]

/-- The sample bid of 150 in two parts that lose an atom. -/
theorem sweep_split_sample :
    14 + 1 ≤ ([(⟨19, 1, 1⟩ : Order), ⟨131, 1, 12⟩].map fun o => o.out.toNat).sum + 2 := by
  refine (sweep_split .bid ⟨150, 1, 14⟩ [⟨19, 1, 1⟩, ⟨131, 1, 12⟩] sampleLadder_sorted
    ⟨by decide, sweep_sampleLadder⟩ (List.forall_mem_cons.mpr ⟨⟨by decide, by decide⟩, ?_⟩)
    (by decide)).1
  exact List.forall_mem_singleton.mpr ⟨by decide, by decide⟩

/-! ## What a fill does to its maker -/

section Accounts

variable {ledger : Ledger} (accounts : FillExactIn ledger)

theorem FillExactIn.maker_apart {side : Side}
    (hne : accounts.makerBaseTokenAccount.key ≠ accounts.makerQuoteTokenAccount.key)
    (hpayer : accounts.userPays side ∉
      [accounts.makerBaseTokenAccount.key, accounts.makerQuoteTokenAccount.key]) :
    accounts.makerPays side ≠ accounts.makerReceives side ∧
      accounts.userPays side ≠ accounts.makerPays side ∧
      accounts.userPays side ≠ accounts.makerReceives side := by
  simp only [List.mem_cons, List.not_mem_nil, or_false, not_or] at hpayer
  cases side with
  | bid => exact ⟨hne, hpayer⟩
  | ask => exact ⟨hne.symm, hpayer.symm⟩

/-- What a fill does to the maker: it is paid the amount, and pays at most what the sweep computed. -/
theorem FillExactIn.net_maker {side : Side} (amountIn out : UInt64)
    (hne : accounts.makerBaseTokenAccount.key ≠ accounts.makerQuoteTokenAccount.key)
    (hpayer : accounts.userPays side ∉
      [accounts.makerBaseTokenAccount.key, accounts.makerQuoteTokenAccount.key]) :
    (amountIn.toNat : ℤ) ≤ net (accounts.moves side amountIn out) (accounts.makerReceives side) ∧
      -(out.toNat : ℤ) ≤ net (accounts.moves side amountIn out) (accounts.makerPays side) := by
  obtain ⟨hne, hpays, hreceives⟩ := accounts.maker_apart hne hpayer
  have hin : (0 : ℤ) ≤ amountIn.toNat := Int.natCast_nonneg _
  have hout : (0 : ℤ) ≤ out.toNat := Int.natCast_nonneg _
  rw [moves_eq, net, net, net, add_zero, Pi.add_apply, Pi.add_apply]
  constructor
  · have hkeeps : 0 ≤ (Move.mk (accounts.makerPays side) (accounts.userReceives side)
        (out.toNat : ℤ)).change (accounts.makerReceives side) := change_nonneg hne.symm hout
    rw [change_destination hreceives.symm]
    exact le_add_of_nonneg_right hkeeps
  · have hkeeps : 0 ≤ (Move.mk (accounts.userPays side) (accounts.makerReceives side)
        (amountIn.toNat : ℤ)).change (accounts.makerPays side) := change_nonneg hpays.symm hin
    have hpaid : -(out.toNat : ℤ) ≤ (Move.mk (accounts.makerPays side)
        (accounts.userReceives side) (out.toNat : ℤ)).change (accounts.makerPays side) :=
      neg_le_change (M := ℤ) _ hout
    exact hpaid.trans (le_add_of_nonneg_left hkeeps)

end Accounts

/-! ## The value of a maker -/

/-- At `price` quote atoms for a base atom, what an atom that the taker pays in is worth. -/
def inPrice (price : ℚ) : Side → ℚ
  | .bid => 1
  | .ask => price

/-- What an atom that the taker receives is worth. -/
def outPrice (price : ℚ) : Side → ℚ
  | .bid => price
  | .ask => 1

/-- A level that quotes no better than `price`: what it pays out is worth at most what it takes in. -/
def Level.NoBetterThan (price : ℚ) (side : Side) (l : Level) : Prop :=
  outPrice price side * (l.outAtoms side).toNat ≤ inPrice price side * (l.inAtoms side).toNat

/-- The value of a base and a quote account at `price`. -/
def makerValue (price : ℚ) (base quote : Pubkey) (w : World) : ℚ :=
  price * w.ledger.atoms base + w.ledger.atoms quote

/-- A call for a maker whose ladder starts no better than `price`, paid from elsewhere. -/
structure QuotedAt (price : ℚ) (base quote : Pubkey) (f : FillCall) : Prop where
  makerBase : f.accounts.makerBaseTokenAccount.key = base
  makerQuote : f.accounts.makerQuoteTokenAccount.key = quote
  payer : f.accounts.userPays f.takerSide ∉ [base, quote]
  first : ∀ l ∈ f.params.levels.head?, l.NoBetterThan price f.takerSide

variable {price : ℚ}

theorem inPrice_nonneg (h : 0 ≤ price) (side : Side) : 0 ≤ inPrice price side := by
  cases side with
  | bid => exact zero_le_one
  | ask => exact h

theorem outPrice_nonneg (h : 0 ≤ price) (side : Side) : 0 ≤ outPrice price side := by
  cases side with
  | bid => exact h
  | ask => exact zero_le_one

theorem sweep_le_price (h0 : 0 ≤ price) {levels : List Level} {first : Level}
    {amountIn minOutAtoms out : UInt64} (hsorted : assertSortedFor side levels = .ok ())
    (hamount : 0 < amountIn) (hfirst : levels.head? = some first)
    (hprice : first.NoBetterThan price side) (h : sweep side amountIn minOutAtoms levels = .ok out) :
    outPrice price side * out.toNat ≤ inPrice price side * amountIn.toNat := by
  obtain ⟨hpos, hle⟩ := sweep_le_first_price hsorted hamount hfirst h
  have hle' : (out.toNat : ℚ) * (first.inAtoms side).toNat ≤
      amountIn.toNat * (first.outAtoms side).toNat := by exact_mod_cast hle
  refine le_of_mul_le_mul_right ?_ (Nat.cast_pos.mpr hpos : (0 : ℚ) < (first.inAtoms side).toNat)
  calc outPrice price side * out.toNat * (first.inAtoms side).toNat
      = outPrice price side * (out.toNat * (first.inAtoms side).toNat) := mul_assoc ..
    _ ≤ outPrice price side * (amountIn.toNat * (first.outAtoms side).toNat) :=
        mul_le_mul_of_nonneg_left hle' (outPrice_nonneg h0 side)
    _ = amountIn.toNat * (outPrice price side * (first.outAtoms side).toNat) := mul_left_comm ..
    _ ≤ amountIn.toNat * (inPrice price side * (first.inAtoms side).toNat) :=
        mul_le_mul_of_nonneg_left hprice (Nat.cast_nonneg _)
    _ = inPrice price side * amountIn.toNat * (first.inAtoms side).toNat := by ring

theorem makerValue_eq {ledger : Ledger} (accounts : FillExactIn ledger) (side : Side) (w : World) :
    makerValue price accounts.makerBaseTokenAccount.key accounts.makerQuoteTokenAccount.key w =
      inPrice price side * w.ledger.atoms (accounts.makerReceives side) +
        outPrice price side * w.ledger.atoms (accounts.makerPays side) := by
  cases side with
  | bid => rw [makerValue, inPrice, one_mul, add_comm]; rfl
  | ask => rw [makerValue, outPrice, one_mul]; rfl

theorem FillCall.Settles.le_makerValue (h0 : 0 ≤ price) {base quote : Pubkey} (hne : base ≠ quote)
    {rt : Runtime} {f : FillCall} {w' : World} (h : f.Settles rt w') (hf : QuotedAt price base quote f)
    (hamount : 0 < f.amountInAtoms) :
    makerValue price base quote f.before ≤ makerValue price base quote w' := by
  obtain ⟨rfl, rfl, hpayer, hfirst⟩ := hf
  obtain ⟨first, rest, -, hlevels, -⟩ := exists_first_level hamount (Settled.swept h)
  have hhead : f.params.levels.head? = some first := by
    rw [hlevels]
    rfl
  have hprice := sweep_le_price h0 (Settled.sorted h) hamount hhead (hfirst first hhead)
    (Settled.swept h)
  obtain ⟨hreceives, hpays⟩ := f.accounts.net_maker f.amountInAtoms f.amountOutAtoms hne hpayer
  have hreceives' : (f.amountInAtoms.toNat : ℚ) ≤
    (net f.moves (f.accounts.makerReceives f.takerSide) : ℤ) := by exact_mod_cast hreceives
  have hpays' : -(f.amountOutAtoms.toNat : ℚ) ≤
    (net f.moves (f.accounts.makerPays f.takerSide) : ℤ) := by exact_mod_cast hpays
  have hin := mul_le_mul_of_nonneg_left hreceives' (inPrice_nonneg h0 f.takerSide)
  have hout := mul_le_mul_of_nonneg_left hpays' (outPrice_nonneg h0 f.takerSide)
  rw [makerValue_eq f.accounts f.takerSide, makerValue_eq f.accounts f.takerSide, h.atoms_eq,
    h.atoms_eq, Int.cast_add, Int.cast_add]
  linarith

theorem makerValue_congr {base quote : Pubkey} {w w' : World}
    (hbase : w'.ledger.tokens base = w.ledger.tokens base)
    (hquote : w'.ledger.tokens quote = w.ledger.tokens quote) :
    makerValue price base quote w' = makerValue price base quote w := by
  rw [makerValue, makerValue, Ledger.atoms, Ledger.atoms, Ledger.atoms, Ledger.atoms, hbase, hquote]

/-- A call that quotes no better than `price` for the two accounts, or names neither. -/
def SafeFor (price : ℚ) (base quote : Pubkey) (f : FillCall) : Prop :=
  QuotedAt price base quote f ∨ base ∉ f.accounts.keys ∧ quote ∉ f.accounts.keys

theorem GuardedStep.le_makerValue (h0 : 0 ≤ price) {base quote : Pubkey} (hne : base ≠ quote)
    {w w' : World} {t : List FillCall} (h : GuardedStep [base, quote] w t w')
    (hcalls : ∀ f ∈ t, SafeFor price base quote f) :
    makerValue price base quote w ≤ makerValue price base quote w' := by
  obtain ⟨⟨rt, ixs, i, hstep⟩, hguard⟩ := h
  cases hstep with
  | foreign =>
    exact (makerValue_congr (hguard rfl base (by simp)) (hguard rfl quote (by simp))).ge
  | fill f _ _ hrun =>
    have hsettles := FillCall.settles_of_run hrun
    rcases hcalls f List.mem_cons_self with hquoted | ⟨hbase, hquote⟩
    · obtain ⟨clock, haccepts⟩ := accepts_of_run hrun
      exact hsettles.le_makerValue h0 hne hquoted haccepts.amount
    · exact (makerValue_congr (hsettles.tokens_eq hbase) (hsettles.tokens_eq hquote)).ge

theorem composable_makerValue (price : ℚ) (base quote : Pubkey) :
    Composable fun (w : World) (t : List FillCall) (w' : World) =>
      (∀ f ∈ t, SafeFor price base quote f) →
        makerValue price base quote w ≤ makerValue price base quote w' :=
  (composable_le (makerValue price base quote)).given (SafeFor price base quote)

/-- **No run of calls lowers the value of guarded accounts**, whatever the order, the sides and the
sizes of the calls: each quotes no better than the price, or names neither account. -/
theorem makerValue_le (h0 : 0 ≤ price) {base quote : Pubkey} (hne : base ≠ quote) {w w' : World}
    {t : List FillCall} (h : Run (GuardedStep [base, quote]) w t w')
    (hcalls : ∀ f ∈ t, SafeFor price base quote f) :
    makerValue price base quote w ≤ makerValue price base quote w' :=
  h.within (composable_makerValue price base quote) (fun _ _ _ hstep => hstep.le_makerValue h0 hne)
    hcalls

theorem quotedAt_sampleCallIn (instructions : List ResolvedInstruction) (i : UInt16) :
    QuotedAt 10 (sampleKey 5) (sampleKey 6) (sampleCallIn instructions i) where
  makerBase := rfl
  makerQuote := rfl
  payer := by
    show sampleKey 4 ∉ [sampleKey 5, sampleKey 6]
    decide
  first := by
    rintro l ⟨⟩
    show (10 : ℚ) * (10 : ℕ) ≤ 1 * (100 : ℕ)
    norm_num

theorem quotedAt_sampleAsk : QuotedAt 10 (sampleKey 5) (sampleKey 6) sampleAsk where
  makerBase := rfl
  makerQuote := rfl
  payer := by
    show sampleKey 3 ∉ [sampleKey 5, sampleKey 6]
    decide
  first := by
    rintro l ⟨⟩
    show (1 : ℚ) * (90 : ℕ) ≤ 10 * (10 : ℕ)
    norm_num

/-- The bid at the price of its first level and the ask below it. -/
theorem makerValue_le_sample : makerValue 10 (sampleKey 5) (sampleKey 6) sampleWorld ≤
    makerValue 10 (sampleKey 5) (sampleKey 6) soldWorld := by
  refine makerValue_le (by norm_num) (by decide) (t := [sampleCall, sampleAsk]) ?_ ?_
  · exact guardedRun_sample.within composable_run fun _ _ _ hstep =>
      Run.single (hstep.mono (List.subset_cons_self _ _))
  · exact List.forall_mem_cons.mpr ⟨.inl (quotedAt_sampleCallIn _ _),
      List.forall_mem_singleton.mpr (.inl quotedAt_sampleAsk)⟩

end SolanaRfq
