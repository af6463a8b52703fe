import SolanaRfq.Program.Handler
import SolanaRfq.Program.SweepCurve

/-!
# Settlement

A fill that succeeds makes the two transfers of its side and nothing else: the user pays the amount,
the maker what the sweep computed.

* `NoFee`: what the mint check establishes; `transferChecked_moved`: a transfer of a checked mint;
* `FillExactIn.moves`: the two moves of a side; `Settled`: what a successful fill did;
* `handler_failsClean`: an error of the program's own checks comes before any change;
* **`handler_settles`**: a success settles, a failure leaves the world as it was.
-/

namespace SolanaRfq

open AccountMoves Fallible Transaction

variable {rt : Runtime}

/-! ## One transfer -/

/-- The mint takes no fee at `epoch`. -/
def NoFee (rt : Runtime) (mint : Mint) (epoch : UInt64) : Prop :=
  ∀ cfg, mint.transferFeeConfig = some cfg →
    (rt.getEpochFee cfg epoch).transferFeeBasisPoints = 0

theorem noFee_of_checkMintCompatibility {mint : Mint} {epoch : UInt64}
    (h : checkMintCompatibility rt mint epoch = .ok ()) : NoFee rt mint epoch := by
  intro cfg hcfg
  have howner : mint.owner ≠ .token := fun ho => by
    rw [mint.classic ho] at hcfg
    cases hcfg
  rw [checkMintCompatibility, if_neg howner, rt.getMintExtensionData_eq_ok mint cfg hcfg] at h
  dsimp only at h
  by_contra hfee
  rw [require, if_neg hfee] at h
  cases h

/-- **A transfer of a checked mint moves the whole amount.** -/
theorem transferChecked_moved {program : TokenProgram} {t : TransferChecked} {amount : UInt64}
    {decimals : UInt8} {mint : Mint} {clock : Clock} {w w' : World} {u : Unit}
    (hclock : rt.clock = .ok clock) (hmint : w.ledger.mints t.mint = some mint)
    (hfee : NoFee rt mint clock.epoch)
    (h : outcome (transferChecked rt program t amount decimals) w = (.ok u, w')) :
    Moved (t.toMove amount).change w.ledger w'.ledger ∧
      w.ledger.mintOf t.fromAccount = w.ledger.mintOf t.toAccount ∧ w'.events = w.events := by
  rw [outcome_transferChecked] at h
  cases hp : rt.processTransferChecked program t amount decimals w.ledger with
  | error e =>
    rw [hp] at h
    cases h
  | ok ledger' =>
    rw [hp] at h
    obtain rfl : { w with ledger := ledger' } = w' := congrArg Prod.snd h
    obtain ⟨mint', fee, hmint', htransferred, hwithheld⟩ := rt.transferred _ _ _ _ _ _ hp
    obtain rfl : mint = mint' := Option.some.inj (hmint.symm.trans hmint')
    have hzero : fee = 0 := by
      cases hcfg : mint.transferFeeConfig with
      | none => simpa only [hcfg] using hwithheld
      | some cfg =>
        rw [hcfg] at hwithheld
        obtain ⟨clock', hclock', hcalc⟩ := hwithheld
        obtain rfl : clock = clock' := Except.ok.inj (hclock.symm.trans hclock')
        rw [rt.calculateFee_zero _ _ (hfee cfg hcfg)] at hcalc
        exact (Option.some.inj hcalc).symm
    subst hzero
    obtain ⟨hmoved, hsame⟩ := htransferred.moved
    exact ⟨hmoved, hsame, rfl⟩

/-! ## Two transfers -/

/-- The moves keep the accounts of each mint apart. -/
def MintsMatch (ledger : Ledger) (moves : List (Move Pubkey ℤ)) : Prop :=
  ∀ m ∈ moves, ledger.mintOf m.source = ledger.mintOf m.destination

theorem MintsMatch.totalOn_eq {ledger ledger' : Ledger} {moves : List (Move Pubkey ℤ)}
    (hmatch : MintsMatch ledger moves) (hmoved : Moved (net moves) ledger ledger')
    (s : Finset Pubkey) (hs : ∀ m ∈ moves, m.source ∈ s ∧ m.destination ∈ s) (mint : Pubkey) :
    ledger'.totalOn s mint = ledger.totalOn s mint := by
  refine hmoved.totalOn_eq (sum_net fun m hm => ?_)
  rw [Finset.mem_filter, Finset.mem_filter, hmatch m hm]
  exact and_congr_left fun _ => iff_of_true (hs m hm).1 (hs m hm).2

theorem MintsMatch.total_eq {ledger ledger' : Ledger} {moves : List (Move Pubkey ℤ)}
    (hmatch : MintsMatch ledger moves) (hmoved : Moved (net moves) ledger ledger') (mint : Pubkey) :
    ledger'.total mint = ledger.total mint := by
  unfold Ledger.total
  generalize hs : (Finset.univ : Finset Pubkey) = s
  have hall (k : Pubkey) : k ∈ s := by simp [← hs]
  exact hmatch.totalOn_eq hmoved s (fun m _ => ⟨hall m.source, hall m.destination⟩) mint

theorem transfers_moved {p₁ p₂ : TokenProgram} {t₁ t₂ : TransferChecked} {a₁ a₂ out out' : UInt64}
    {d₁ d₂ : UInt8} {m₁ m₂ : Mint} {clock : Clock} {w w' : World} (hclock : rt.clock = .ok clock)
    (hm₁ : w.ledger.mints t₁.mint = some m₁) (hf₁ : NoFee rt m₁ clock.epoch)
    (hm₂ : w.ledger.mints t₂.mint = some m₂) (hf₂ : NoFee rt m₂ clock.epoch)
    (h : outcome (do
      transferChecked rt p₁ t₁ a₁ d₁
      transferChecked rt p₂ t₂ a₂ d₂
      return out) w = (.ok out', w')) :
    out' = out ∧ w'.events = w.events ∧
      Moved (net [t₁.toMove a₁, t₂.toMove a₂]) w.ledger w'.ledger ∧
      MintsMatch w.ledger [t₁.toMove a₁, t₂.toMove a₂] := by
  obtain ⟨u₁, w₁, h₁, h⟩ := outcome_bind_ok.mp h
  obtain ⟨u₂, w₂, h₂, h⟩ := outcome_bind_ok.mp h
  obtain ⟨hout, rfl⟩ := Prod.mk.inj h
  obtain ⟨hmoved₁, hsame₁, hevents₁⟩ := transferChecked_moved hclock hm₁ hf₁ h₁
  rw [← hmoved₁.mints] at hm₂
  obtain ⟨hmoved₂, hsame₂, hevents₂⟩ := transferChecked_moved hclock hm₂ hf₂ h₂
  rw [hmoved₁.mintOf_eq, hmoved₁.mintOf_eq] at hsame₂
  refine ⟨(Except.ok.inj hout).symm, hevents₂.trans hevents₁, ?_, ?_⟩
  · rw [net, net, net, add_zero]
    exact hmoved₁.trans hmoved₂
  · intro m hm
    rcases List.mem_cons.mp hm with rfl | hm
    · exact hsame₁
    · rw [List.mem_singleton.mp hm]
      exact hsame₂

/-! ## A fill -/

/-- The moves of a fill: the user pays in, then the maker pays out. -/
def FillExactIn.moves {ledger : Ledger} (accounts : FillExactIn ledger) (side : Side)
    (amountIn out : UInt64) : List (Move Pubkey ℤ) :=
  match side with
  | .bid =>
    [⟨accounts.userQuoteTokenAccount.key, accounts.makerQuoteTokenAccount.key, amountIn.toNat⟩,
      ⟨accounts.makerBaseTokenAccount.key, accounts.userBaseTokenAccount.key, out.toNat⟩]
  | .ask =>
    [⟨accounts.userBaseTokenAccount.key, accounts.makerBaseTokenAccount.key, amountIn.toNat⟩,
      ⟨accounts.makerQuoteTokenAccount.key, accounts.userQuoteTokenAccount.key, out.toNat⟩]

/-- The arm of a side. -/
def settle (rt : Runtime) {ledger : Ledger} (accounts : FillExactIn ledger) (side : Side)
    (amountInAtoms minOutAtoms : UInt64) (levels : List Level) : Exec UInt64 :=
  match side with
  | .bid => settleBid rt accounts amountInAtoms minOutAtoms levels
  | .ask => settleAsk rt accounts amountInAtoms minOutAtoms levels

theorem settle_spec {w w' : World} {accounts : FillExactIn w.ledger} {side : Side}
    {amountIn minOutAtoms out : UInt64} {levels : List Level} {clock : Clock}
    (hclock : rt.clock = .ok clock) (hbase : NoFee rt accounts.baseMint.data clock.epoch)
    (hquote : NoFee rt accounts.quoteMint.data clock.epoch)
    (h : outcome (settle rt accounts side amountIn minOutAtoms levels) w = (.ok out, w')) :
    assertSortedFor side levels = .ok () ∧ sweep side amountIn minOutAtoms levels = .ok out ∧
      w'.events = w.events ∧ Moved (net (accounts.moves side amountIn out)) w.ledger w'.ledger ∧
      MintsMatch w.ledger (accounts.moves side amountIn out) := by
  cases side with
  | bid =>
    obtain ⟨⟨⟩, hsorted, h⟩ := outcome_lift_bind_ok.mp h
    obtain ⟨out', hswept, h⟩ := outcome_lift_bind_ok.mp h
    obtain ⟨rfl, hevents, hmoved, hmatch⟩ := transfers_moved hclock accounts.quoteMint.loaded hquote
      accounts.baseMint.loaded hbase h
    exact ⟨hsorted, hswept, hevents, hmoved, hmatch⟩
  | ask =>
    obtain ⟨⟨⟩, hsorted, h⟩ := outcome_lift_bind_ok.mp h
    obtain ⟨out', hswept, h⟩ := outcome_lift_bind_ok.mp h
    obtain ⟨rfl, hevents, hmoved, hmatch⟩ := transfers_moved hclock accounts.baseMint.loaded hbase
      accounts.quoteMint.loaded hquote h
    exact ⟨hsorted, hswept, hevents, hmoved, hmatch⟩

/-- What a successful fill did. -/
structure Settled (rt : Runtime) {w : World} (accounts : FillExactIn w.ledger) (side : Side)
    (amountIn minOutAtoms : UInt64) (params : FillExactInParams) (w' : World) (out : UInt64) :
    Prop where
  swept : sweep side amountIn minOutAtoms params.levels = .ok out
  one_le : 1 ≤ out.toNat
  minOutAtoms_le : minOutAtoms ≤ out
  live : ∃ clock, rt.clock = .ok clock ∧ clock.unixTimestamp ≤ params.expireAt
  sorted : assertSortedFor side params.levels = .ok ()
  moved : Moved (net (accounts.moves side amountIn out)) w.ledger w'.ledger
  withheld : ∀ k a a', w.ledger.tokens k = some a → w'.ledger.tokens k = some a' →
    a'.withheldAmount = a.withheldAmount
  frame : ∀ k, (∀ m ∈ accounts.moves side amountIn out, k ≠ m.source ∧ k ≠ m.destination) →
    w'.ledger.tokens k = w.ledger.tokens k
  totals : ∀ mint, w'.ledger.total mint = w.ledger.total mint
  event : w'.events = w.events ++ [{
    rfqId := params.rfqId
    user := accounts.user
    fillAuthority := accounts.fillAuthority
    takerSide := side
    baseMint := accounts.baseMint.key
    quoteMint := accounts.quoteMint.key
    amountInAtoms := amountIn
    amountOutAtoms := out }]

theorem Settled.of_settle {w w₁ : World} {accounts : FillExactIn w.ledger} {side : Side}
    {amountIn minOutAtoms out : UInt64} {params : FillExactInParams} {clock : Clock}
    (hamount : amountIn ≠ 0) (hclock : rt.clock = .ok clock)
    (hlive : clock.unixTimestamp ≤ params.expireAt)
    (hbase : NoFee rt accounts.baseMint.data clock.epoch)
    (hquote : NoFee rt accounts.quoteMint.data clock.epoch)
    (h : outcome (settle rt accounts side amountIn minOutAtoms params.levels) w = (.ok out, w₁)) :
    Settled rt accounts side amountIn minOutAtoms params { w₁ with events := w₁.events ++ [
      ⟨params.rfqId, accounts.user, accounts.fillAuthority, side, accounts.baseMint.key,
        accounts.quoteMint.key, amountIn, out⟩] } out := by
  obtain ⟨hsorted, hswept, hevents, hmoved, hmatch⟩ := settle_spec hclock hbase hquote h
  refine ⟨hswept, sweep_pos hamount hswept, (sweep_eq_ok_iff.mp hswept).2, ⟨clock, hclock, hlive⟩,
    hsorted, hmoved, ?_, ?_, ?_, by rw [hevents]⟩
  · intro k a a' ha ha'
    obtain ⟨x, hx, -⟩ := hmoved.present k a ha
    rw [Option.some.inj (ha'.symm.trans hx)]
  · intro k hk
    exact hmoved.tokens_eq (net_of_not_touched hk)
  · exact hmatch.total_eq hmoved

theorem settled_of_handler {w w' : World} {accounts : FillExactIn w.ledger} {side : Side}
    {amountIn minOutAtoms : UInt64} {params : FillExactInParams}
    (h : outcome (handler rt accounts side amountIn minOutAtoms params) w = (.ok (), w')) :
    ∃ out, Settled rt accounts side amountIn minOutAtoms params w' out := by
  unfold handler at h
  obtain ⟨_, hamount, h⟩ := outcome_lift_bind_ok.mp h
  obtain ⟨_, -, h⟩ := outcome_lift_bind_ok.mp h
  obtain ⟨clock, hclock, h⟩ := outcome_lift_bind_ok.mp h
  obtain ⟨_, hlive, h⟩ := outcome_lift_bind_ok.mp h
  obtain ⟨_, hbase, h⟩ := outcome_lift_bind_ok.mp h
  obtain ⟨_, hquote, h⟩ := outcome_lift_bind_ok.mp h
  obtain ⟨_, -, h⟩ := outcome_lift_bind_ok.mp h
  have hsettle : outcome (settle rt accounts side amountIn minOutAtoms params.levels >>= fun out =>
      emitCpi rt ⟨params.rfqId, accounts.user, accounts.fillAuthority, side, accounts.baseMint.key,
        accounts.quoteMint.key, amountIn, out⟩) w = (.ok (), w') := by
    cases side with
    | bid => exact h
    | ask => exact h
  obtain ⟨out, w₁, hsettle, hemit⟩ := outcome_bind_ok.mp hsettle
  have hpos : amountIn ≠ 0 := by
    rintro rfl
    exact absurd (require_eq_ok.mp hamount) (by decide)
  rw [eq_of_emitCpi_ok hemit]
  exact ⟨out, Settled.of_settle hpos (mapError_eq_ok_iff.mp hclock) (require_eq_ok.mp hlive)
    (noFee_of_checkMintCompatibility hbase) (noFee_of_checkMintCompatibility hquote) hsettle⟩

/-! ## Failures -/

theorem settle_failsClean (rt : Runtime) {ledger : Ledger} (accounts : FillExactIn ledger) (side : Side)
    (amountIn minOutAtoms : UInt64) (levels : List Level) :
    FailsClean ProgramError.IsCode (settle rt accounts side amountIn minOutAtoms levels) := by
  have htransfers (p₁ p₂ : TokenProgram) (t₁ t₂ : TransferChecked) (a₁ a₂ : UInt64)
      (d₁ d₂ : UInt8) (out : UInt64) : FailsClean ProgramError.IsCode (do
        transferChecked rt p₁ t₁ a₁ d₁
        transferChecked rt p₂ t₂ a₂ d₂
        return out) :=
    Avoids.failsClean <| (avoids_isCode_transferChecked rt p₁ t₁ a₁ d₁).bind fun _ =>
      (avoids_isCode_transferChecked rt p₂ t₂ a₂ d₂).bind fun _ => Avoids.pure out
  cases side with
  | bid => exact FailsClean.guard fun _ => FailsClean.guard fun _ => htransfers _ _ _ _ _ _ _ _ _
  | ask => exact FailsClean.guard fun _ => FailsClean.guard fun _ => htransfers _ _ _ _ _ _ _ _ _

/-- **An error of the program's own checks comes before any change.** -/
theorem handler_failsClean {ledger : Ledger} (accounts : FillExactIn ledger) (side : Side)
    (amountIn minOutAtoms : UInt64) (params : FillExactInParams) :
    FailsClean ProgramError.IsCode (handler rt accounts side amountIn minOutAtoms params) := by
  unfold handler
  refine FailsClean.guard fun _ => FailsClean.guard fun _ => FailsClean.guard fun _ => ?_
  refine FailsClean.guard fun _ => FailsClean.guard fun _ => FailsClean.guard fun _ => ?_
  refine FailsClean.guard fun _ => ?_
  have hsettle := (settle_failsClean rt accounts side amountIn minOutAtoms params.levels).bind
    fun out => avoids_isCode_emitCpi rt ⟨params.rfqId, accounts.user, accounts.fillAuthority, side,
      accounts.baseMint.key, accounts.quoteMint.key, amountIn, out⟩
  cases side with
  | bid => exact hsettle
  | ask => exact hsettle

/-- **A fill that succeeds settles exactly, and one that fails changes nothing.** -/
theorem handler_settles (rt : Runtime) {w : World} (accounts : FillExactIn w.ledger) (side : Side)
    (amountIn minOutAtoms : UInt64) (params : FillExactInParams) :
    (∀ w', outcome (handler rt accounts side amountIn minOutAtoms params) w = (.ok (), w') →
      ∃ out, Settled rt accounts side amountIn minOutAtoms params w' out) ∧
    (∀ c w', outcome (handler rt accounts side amountIn minOutAtoms params) w =
      (.error (.code c), w') → w' = w) ∧
    ∀ e, (fillExactIn rt w accounts side amountIn minOutAtoms params).1 = .error e →
      (fillExactIn rt w accounts side amountIn minOutAtoms params).2 = w :=
  ⟨fun _ h => settled_of_handler h,
    fun c w' h => handler_failsClean accounts side amountIn minOutAtoms params w _ w' h ⟨c, rfl⟩,
    fun _ h => commit_of_error h⟩

/-- The key of `n` equal bytes. -/
def sampleKey (n : UInt8) : Pubkey := List.Vector.replicate 32 n

/-- A base mint whose fee ended with epoch 4 and a classic quote mint; the user holds quote atoms and
the maker base atoms. -/
def sampleWorld : World where
  ledger := {
    mints := fun k =>
      if k = sampleKey 7 then some ⟨.token2022, 9, some ⟨⟨0, 1000, 50⟩, ⟨5, 0, 0⟩⟩, by simp⟩
      else if k = sampleKey 8 then some ⟨.token, 6, none, by simp⟩
      else none
    tokens := fun k =>
      if k = sampleKey 3 then some ⟨.token2022, sampleKey 7, sampleKey 1, 0, 0⟩
      else if k = sampleKey 4 then some ⟨.token, sampleKey 8, sampleKey 1, 200, 0⟩
      else if k = sampleKey 5 then some ⟨.token2022, sampleKey 7, sampleKey 2, 40, 3⟩
      else if k = sampleKey 6 then some ⟨.token, sampleKey 8, sampleKey 2, 0, 0⟩
      else none }
  events := []

def sampleAccounts : FillExactIn sampleWorld.ledger where
  user := sampleKey 1
  fillAuthority := sampleKey 2
  userBaseTokenAccount := ⟨sampleKey 3, _, rfl⟩
  userQuoteTokenAccount := ⟨sampleKey 4, _, rfl⟩
  makerBaseTokenAccount := ⟨sampleKey 5, _, rfl⟩
  makerQuoteTokenAccount := ⟨sampleKey 6, _, rfl⟩
  baseMint := ⟨sampleKey 7, _, rfl⟩
  quoteMint := ⟨sampleKey 8, _, rfl⟩
  baseTokenProgram := .token2022
  quoteTokenProgram := .token
  instructionsSysvar := .ofList [⟨sampleKey 9, [sampleKey 2, sampleKey 5, sampleKey 6]⟩] 0
  userBase := ⟨rfl, rfl⟩
  userQuote := ⟨rfl, rfl⟩
  makerBase := ⟨rfl, rfl⟩
  makerQuote := ⟨rfl, rfl⟩
  makerBase_authority := rfl
  makerQuote_authority := rfl

/-- A bid of 150 quote atoms on two levels. -/
def sampleParams : FillExactInParams := ⟨7, 100, [⟨10, 100⟩, ⟨10, 110⟩]⟩

theorem handler_settles_sample :
    ∃ w', Settled (.ofClock ⟨5, 100⟩) sampleAccounts .bid 150 10 sampleParams w' 14 := by
  have hrun : (outcome (handler (.ofClock ⟨5, 100⟩) sampleAccounts .bid 150 10 sampleParams)
      sampleWorld).1 = .ok () := by decide +kernel
  obtain ⟨out, h⟩ := (handler_settles (.ofClock ⟨5, 100⟩) sampleAccounts .bid 150 10 sampleParams).1
    _ (Prod.ext hrun rfl)
  have hswept : sweep .bid 150 10 sampleParams.levels = .ok 14 := by decide
  obtain rfl : out = 14 := Except.ok.inj (h.swept.symm.trans hswept)
  exact ⟨_, h⟩

end SolanaRfq
