import SolanaRfq.Effect.Transaction
import SolanaRfq.Ledger.Moves
import SolanaRfq.Program.Types
import Mathlib.Data.FinEnum
import Mathlib.Data.Fintype.Vector

/-!
# What the program runs on

The token accounts the program moves atoms between, and what it calls outside its own code: the
clock, the token programs and the self-invocation that records an event, each with what the program
relies on. The ledger keeps balances: the allowance of a delegate and the lamports of an account are
not in it.

* `Mint`, `TokenAccount`, `Ledger`, `World`: the state; `Ledger.total`: all atoms of a mint;
* `Transferred`: the effect of a transfer; `Runtime`: the runtime and its laws;
* `Exec`, `transferChecked`, `emitCpi`: the calls of the program;
* **`Moved`**: two ledgers that differ by a change of amounts; `Moved.trans`, `Moved.totalOn_eq`;
* `Runtime.ofClock`: a runtime that obeys the laws.
-/

namespace SolanaRfq

open AccountMoves Transaction

/-! ## The state -/

/-- The programs of `TokenInterface`. -/
inductive TokenProgram where
  | token
  | token2022
deriving DecidableEq, Repr

/-- A transfer fee and the epoch from which it counts. -/
structure TransferFee where
  epoch : UInt64
  maximumFee : UInt64
  transferFeeBasisPoints : UInt16
deriving DecidableEq

/-- The fee extension of a Token-2022 mint. -/
structure TransferFeeConfig where
  olderTransferFee : TransferFee
  newerTransferFee : TransferFee
deriving DecidableEq

/-- A mint. Only a Token-2022 mint can have a transfer fee. -/
structure Mint where
  owner : TokenProgram
  decimals : UInt8
  transferFeeConfig : Option TransferFeeConfig
  classic : owner = .token → transferFeeConfig = none

/-- A token account, with the atoms that fees have withheld in it. -/
structure TokenAccount where
  owner : TokenProgram
  mint : Pubkey
  authority : Pubkey
  amount : UInt64
  withheldAmount : UInt64
deriving DecidableEq

/-- The mints and the token accounts, by key. -/
structure Ledger where
  mints : Pubkey → Option Mint
  tokens : Pubkey → Option TokenAccount

namespace Ledger

/-- Write one token account. -/
def setToken (ledger : Ledger) (k : Pubkey) (a : TokenAccount) : Ledger :=
  { ledger with tokens := Function.update ledger.tokens k (some a) }

@[simp] theorem setToken_tokens_self (ledger : Ledger) (k : Pubkey) (a : TokenAccount) :
    (ledger.setToken k a).tokens k = some a := Function.update_self ..

theorem setToken_tokens_of_ne (ledger : Ledger) {k k' : Pubkey} (a : TokenAccount) (h : k' ≠ k) :
    (ledger.setToken k a).tokens k' = ledger.tokens k' := Function.update_of_ne h ..

/-- The mint of a token account. -/
def mintOf (ledger : Ledger) (k : Pubkey) : Option Pubkey := (ledger.tokens k).map TokenAccount.mint

/-- All atoms in an account. -/
def atoms (ledger : Ledger) (k : Pubkey) : ℤ :=
  match ledger.tokens k with
  | some a => a.amount.toNat + a.withheldAmount.toNat
  | none => 0

/-- All atoms of a mint in a set of accounts. -/
def totalOn (ledger : Ledger) (s : Finset Pubkey) (mint : Pubkey) : ℤ :=
  ∑ k ∈ s with ledger.mintOf k = some mint, ledger.atoms k

/-- All atoms of a mint. -/
def total (ledger : Ledger) (mint : Pubkey) : ℤ := ledger.totalOn Finset.univ mint

end Ledger

/-- What an instruction can change: the ledger and the log of events. -/
structure World where
  ledger : Ledger
  events : List FillExactInEvent

/-! ## The runtime -/

/-- The clock sysvar. -/
structure Clock where
  epoch : UInt64
  unixTimestamp : Int64
deriving DecidableEq

/-- The accounts of a `transfer_checked` call. -/
structure TransferChecked where
  fromAccount : Pubkey
  mint : Pubkey
  toAccount : Pubkey
  authority : Pubkey

/-- The effect of a transfer of `amount` that withholds `fee`. A transfer to the same account
changes nothing. -/
inductive Transferred (t : TransferChecked) (amount fee : UInt64) (ledger : Ledger) : Ledger → Prop
  | same : t.fromAccount = t.toAccount → Transferred t amount fee ledger ledger
  | move (source destination : TokenAccount) : t.fromAccount ≠ t.toAccount →
      ledger.tokens t.fromAccount = some source → ledger.tokens t.toAccount = some destination →
      source.mint = t.mint → destination.mint = t.mint →
      amount ≤ source.amount → fee ≤ amount →
      destination.amount.toNat + (amount - fee).toNat < 2 ^ 64 →
      Transferred t amount fee ledger
        ((ledger.setToken t.fromAccount { source with amount := source.amount - amount }).setToken
          t.toAccount { destination with
            amount := destination.amount + (amount - fee)
            withheldAmount := destination.withheldAmount + fee })

/-- The runtime. A token program takes the fee of the mint's configuration at the epoch of the
clock, which is nothing at zero basis points. -/
structure Runtime where
  clock : Except UInt64 Clock
  getEpochFee : TransferFeeConfig → UInt64 → TransferFee
  calculateFee : TransferFee → UInt64 → Option UInt64
  getMintExtensionData : Mint → Except UInt64 TransferFeeConfig
  processTransferChecked : TokenProgram → TransferChecked → UInt64 → UInt8 → Ledger →
    Except UInt64 Ledger
  invokeSelf : FillExactInEvent → Except UInt64 Unit
  calculateFee_zero : ∀ fee amount, fee.transferFeeBasisPoints = 0 →
    calculateFee fee amount = some 0
  getMintExtensionData_eq_ok : ∀ mint cfg, mint.transferFeeConfig = some cfg →
    getMintExtensionData mint = .ok cfg
  transferred : ∀ program t amount decimals ledger ledger',
    processTransferChecked program t amount decimals ledger = .ok ledger' →
    ∃ mint fee, ledger.mints t.mint = some mint ∧ Transferred t amount fee ledger ledger' ∧
      match mint.transferFeeConfig with
      | none => fee = 0
      | some cfg => ∃ c, clock = .ok c ∧ calculateFee (getEpochFee cfg c.epoch) amount = some fee

/-- A computation of the program. -/
abbrev Exec (α : Type) : Type := Effect ProgramError World α

/-- An error of the program's own checks. -/
def ProgramError.IsCode (e : ProgramError) : Prop := ∃ c, e = .code c

/-- `Clock::get()`. -/
def clockGet (rt : Runtime) : Except ProgramError Clock := rt.clock.mapError .runtime

/-- `transfer_checked`. -/
def transferChecked (rt : Runtime) (program : TokenProgram) (t : TransferChecked) (amount : UInt64)
    (decimals : UInt8) : Exec Unit := do
  let world ← get
  match rt.processTransferChecked program t amount decimals world.ledger with
  | .ok ledger => set { world with ledger }
  | .error e => throw (.runtime e)

/-- `emit_cpi!`. -/
def emitCpi (rt : Runtime) (event : FillExactInEvent) : Exec Unit := do
  match rt.invokeSelf event with
  | .ok () => modify fun world => { world with events := world.events ++ [event] }
  | .error e => throw (.runtime e)

/-! ## What the calls do -/

theorem outcome_transferChecked (rt : Runtime) (program : TokenProgram) (t : TransferChecked)
    (amount : UInt64) (decimals : UInt8) (w : World) :
    outcome (transferChecked rt program t amount decimals) w =
      match rt.processTransferChecked program t amount decimals w.ledger with
      | .ok ledger => (.ok (), { w with ledger })
      | .error e => (.error (.runtime e), w) := by
  rw [transferChecked, outcome_bind, show outcome (get : Exec World) w = (.ok w, w) from rfl]
  dsimp only
  cases rt.processTransferChecked program t amount decimals w.ledger with
  | ok ledger => rfl
  | error e => rfl

theorem outcome_emitCpi (rt : Runtime) (event : FillExactInEvent) (w : World) :
    outcome (emitCpi rt event) w =
      match rt.invokeSelf event with
      | .ok () => (.ok (), { w with events := w.events ++ [event] })
      | .error e => (.error (.runtime e), w) := by
  rw [emitCpi]
  cases rt.invokeSelf event with
  | ok u => rfl
  | error e => rfl

theorem eq_of_emitCpi_ok {rt : Runtime} {event : FillExactInEvent} {w w' : World} {u : Unit}
    (h : outcome (emitCpi rt event) w = (.ok u, w')) :
    w' = { w with events := w.events ++ [event] } := by
  rw [outcome_emitCpi] at h
  cases hp : rt.invokeSelf event with
  | ok u' =>
    rw [hp] at h
    exact (congrArg Prod.snd h).symm
  | error e =>
    rw [hp] at h
    cases h

/-- A call that succeeds or fails in the runtime never fails with an error of the program's own
checks. -/
theorem avoids_isCode {x : Exec Unit} (h : ∀ w, (∃ w', outcome x w = (.ok (), w')) ∨
    ∃ e, outcome x w = (.error (.runtime e), w)) : Avoids ProgramError.IsCode x := by
  intro w e w' hx he
  obtain ⟨c, rfl⟩ := he
  rcases h w with ⟨w₁, hok⟩ | ⟨e', herror⟩
  · rw [hok] at hx
    cases hx
  · rw [herror] at hx
    cases hx

theorem avoids_isCode_transferChecked (rt : Runtime) (program : TokenProgram) (t : TransferChecked)
    (amount : UInt64) (decimals : UInt8) :
    Avoids ProgramError.IsCode (transferChecked rt program t amount decimals) := by
  refine avoids_isCode fun w => ?_
  rw [outcome_transferChecked]
  cases rt.processTransferChecked program t amount decimals w.ledger with
  | ok ledger => exact .inl ⟨_, rfl⟩
  | error e => exact .inr ⟨e, rfl⟩

theorem avoids_isCode_emitCpi (rt : Runtime) (event : FillExactInEvent) :
    Avoids ProgramError.IsCode (emitCpi rt event) := by
  refine avoids_isCode fun w => ?_
  rw [outcome_emitCpi]
  cases rt.invokeSelf event with
  | ok u => exact .inl ⟨_, rfl⟩
  | error e => exact .inr ⟨e, rfl⟩

/-! ## Changes of amounts -/

/-- `ledger'` is `ledger` with the amounts changed by `change`, and nothing else. -/
structure Moved (change : Pubkey → ℤ) (ledger ledger' : Ledger) : Prop where
  mints : ledger'.mints = ledger.mints
  absent : ∀ k, ledger.tokens k = none → ledger'.tokens k = none
  present : ∀ k a, ledger.tokens k = some a → ∃ amount, ledger'.tokens k = some { a with amount } ∧
    (amount.toNat : ℤ) = a.amount.toNat + change k

namespace Moved

variable {c c' : Pubkey → ℤ} {ledger ledger₁ ledger' : Ledger}

theorem refl (ledger : Ledger) : Moved 0 ledger ledger where
  mints := rfl
  absent _ h := h
  present _ a h := ⟨a.amount, h, (add_zero _).symm⟩

theorem setToken {k : Pubkey} {a : TokenAccount} (ha : ledger.tokens k = some a) (amount : UInt64)
    {d : ℤ} (hd : (amount.toNat : ℤ) = a.amount.toNat + d) :
    Moved (Pi.single k d) ledger (ledger.setToken k { a with amount }) where
  mints := rfl
  absent k' hk' := by
    have hne : k' ≠ k := by
      rintro rfl
      rw [ha] at hk'
      cases hk'
    rw [Ledger.setToken_tokens_of_ne ledger _ hne, hk']
  present k' a' hk' := by
    by_cases h : k' = k
    · subst h
      obtain rfl : a = a' := Option.some.inj (ha.symm.trans hk')
      exact ⟨amount, Ledger.setToken_tokens_self .., by rw [Pi.single_eq_same, hd]⟩
    · refine ⟨a'.amount, ?_, by rw [Pi.single_eq_of_ne h, add_zero]⟩
      rw [Ledger.setToken_tokens_of_ne ledger _ h, hk']

theorem trans (h : Moved c ledger ledger₁) (h' : Moved c' ledger₁ ledger') :
    Moved (c + c') ledger ledger' where
  mints := h'.mints.trans h.mints
  absent k hk := h'.absent k (h.absent k hk)
  present k a hk := by
    obtain ⟨x, hx, hxc⟩ := h.present k a hk
    obtain ⟨y, hy, hyc⟩ := h'.present k _ hx
    refine ⟨y, hy, ?_⟩
    rw [hyc, hxc, Pi.add_apply, add_assoc]

theorem tokens_eq (h : Moved c ledger ledger') {k : Pubkey} (hk : c k = 0) :
    ledger'.tokens k = ledger.tokens k := by
  cases ha : ledger.tokens k with
  | none => exact h.absent k ha
  | some a =>
    obtain ⟨x, hx, hxc⟩ := h.present k a ha
    rw [hk, add_zero] at hxc
    have hxa : x = a.amount := UInt64.toNat_inj.mp (Int.ofNat_inj.mp hxc)
    rw [hx, hxa]

theorem mintOf_eq (h : Moved c ledger ledger') (k : Pubkey) :
    ledger'.mintOf k = ledger.mintOf k := by
  unfold Ledger.mintOf
  cases ha : ledger.tokens k with
  | none => rw [h.absent k ha]
  | some a =>
    obtain ⟨x, hx, -⟩ := h.present k a ha
    rw [hx]
    rfl

theorem atoms_eq (h : Moved c ledger ledger') {k mint : Pubkey} (hk : ledger.mintOf k = some mint) :
    ledger'.atoms k = ledger.atoms k + c k := by
  cases ha : ledger.tokens k with
  | none =>
    rw [Ledger.mintOf, ha] at hk
    cases hk
  | some a =>
    obtain ⟨x, hx, hxc⟩ := h.present k a ha
    simp only [Ledger.atoms, ha, hx]
    omega

/-- **Changes that cancel within a mint keep its total.** -/
theorem totalOn_eq (h : Moved c ledger ledger') {s : Finset Pubkey} {mint : Pubkey}
    (hc : ∑ k ∈ s with ledger.mintOf k = some mint, c k = 0) :
    ledger'.totalOn s mint = ledger.totalOn s mint := by
  unfold Ledger.totalOn
  simp only [h.mintOf_eq]
  calc ∑ k ∈ s with ledger.mintOf k = some mint, ledger'.atoms k
      = ∑ k ∈ s with ledger.mintOf k = some mint, (ledger.atoms k + c k) :=
        Finset.sum_congr rfl fun k hk => h.atoms_eq (Finset.mem_filter.mp hk).2
    _ = ∑ k ∈ s with ledger.mintOf k = some mint, ledger.atoms k := by
      rw [Finset.sum_add_distrib, hc, add_zero]

end Moved

/-! ## Transfers without a fee -/

/-- The move of a transfer. -/
def TransferChecked.toMove (t : TransferChecked) (amount : UInt64) : Move Pubkey ℤ :=
  ⟨t.fromAccount, t.toAccount, amount.toNat⟩

/-- **A transfer that withholds nothing moves the amount between two accounts of one mint.** -/
theorem Transferred.moved {t : TransferChecked} {amount : UInt64} {ledger ledger' : Ledger}
    (h : Transferred t amount 0 ledger ledger') :
    Moved (t.toMove amount).change ledger ledger' ∧
      ledger.mintOf t.fromAccount = ledger.mintOf t.toAccount := by
  cases h with
  | same hsame =>
    refine ⟨?_, by rw [hsame]⟩
    rw [TransferChecked.toMove, hsame, change_self]
    exact Moved.refl ledger
  | move source destination hne hsource hdest hsmint hdmint hle hfee hlt =>
    rw [UInt64.sub_zero] at hlt ⊢
    rw [UInt64.add_zero]
    have hle' : amount.toNat ≤ source.amount.toNat := UInt64.le_iff_toNat_le.mp hle
    have hout : ((source.amount - amount).toNat : ℤ) = source.amount.toNat + -amount.toNat := by
      rw [UInt64.toNat_sub_of_le _ _ hle, Nat.cast_sub hle', sub_eq_add_neg]
    have hin : ((destination.amount + amount).toNat : ℤ) =
        destination.amount.toNat + amount.toNat := by
      rw [UInt64.toNat_add, Nat.mod_eq_of_lt hlt, Nat.cast_add]
    have hdebit := Moved.setToken hsource (source.amount - amount) hout
    have hdest' := (Ledger.setToken_tokens_of_ne ledger
      { source with amount := source.amount - amount } hne.symm).trans hdest
    have hcredit := Moved.setToken hdest' (destination.amount + amount) hin
    refine ⟨?_, ?_⟩
    · rw [TransferChecked.toMove, Move.change, sub_eq_add_neg, ← Pi.single_neg, add_comm]
      exact hdebit.trans hcredit
    · rw [Ledger.mintOf, Ledger.mintOf, hsource, hdest, Option.map_some, Option.map_some, hsmint,
        hdmint]

/-! ## A runtime -/

/-- The newer fee from its epoch on, the older one before. -/
def TransferFeeConfig.epochFee (cfg : TransferFeeConfig) (epoch : UInt64) : TransferFee :=
  if cfg.newerTransferFee.epoch ≤ epoch then cfg.newerTransferFee else cfg.olderTransferFee

/-- Basis points of the amount, rounded up, and at most the maximum. -/
def TransferFee.fee (f : TransferFee) (amount : UInt64) : Option UInt64 :=
  if f.transferFeeBasisPoints = 0 then some 0
  else
    let raw := (amount.toNat * f.transferFeeBasisPoints.toNat + 9999) / 10000
    if raw < 2 ^ 64 then some (min (UInt64.ofNat raw) f.maximumFee) else none

/-- The fee of a mint at an epoch. -/
def Mint.feeAt (mint : Mint) (epoch amount : UInt64) : Option UInt64 :=
  match mint.transferFeeConfig with
  | none => some 0
  | some cfg => (cfg.epochFee epoch).fee amount

/-- The checks and the effect of a transfer. -/
def processTransfer (clock : Clock) (program : TokenProgram) (t : TransferChecked)
    (amount : UInt64) (decimals : UInt8) (ledger : Ledger) : Except UInt64 Ledger := do
  let some mint := ledger.mints t.mint | .error 0
  let some source := ledger.tokens t.fromAccount | .error 0
  let some destination := ledger.tokens t.toAccount | .error 0
  let some fee := mint.feeAt clock.epoch amount | .error 1
  if source.owner = program ∧ destination.owner = program ∧ source.mint = t.mint ∧
      destination.mint = t.mint ∧ decimals = mint.decimals ∧ source.authority = t.authority ∧
      amount ≤ source.amount ∧ fee ≤ amount then
    if t.fromAccount = t.toAccount then .ok ledger
    else if destination.amount.toNat + (amount - fee).toNat < 2 ^ 64 then
      .ok ((ledger.setToken t.fromAccount { source with amount := source.amount - amount }).setToken
        t.toAccount { destination with
          amount := destination.amount + (amount - fee)
          withheldAmount := destination.withheldAmount + fee })
    else .error 2
  else .error 3

theorem transferred_of_processTransfer {clock : Clock} {program : TokenProgram}
    {t : TransferChecked} {amount : UInt64} {decimals : UInt8} {ledger ledger' : Ledger}
    (h : processTransfer clock program t amount decimals ledger = .ok ledger') :
    ∃ mint fee, ledger.mints t.mint = some mint ∧ mint.feeAt clock.epoch amount = some fee ∧
      Transferred t amount fee ledger ledger' := by
  unfold processTransfer at h
  split at h
  case h_2 => cases h
  case h_1 mint hmint =>
    split at h
    case h_2 => cases h
    case h_1 source hsource =>
      split at h
      case h_2 => cases h
      case h_1 destination hdest =>
        split at h
        case h_2 => cases h
        case h_1 fee hfee =>
          refine ⟨mint, fee, hmint, hfee, ?_⟩
          split_ifs at h with hchecks hsame hlt
          · obtain rfl := Except.ok.inj h
            exact .same hsame
          · obtain rfl := Except.ok.inj h
            obtain ⟨-, -, hsmint, hdmint, -, -, hle, hfeele⟩ := hchecks
            exact .move source destination hsame hsource hdest hsmint hdmint hle hfeele hlt

/-- The runtime of a clock whose calls succeed when their checks pass. -/
def Runtime.ofClock (clock : Clock) : Runtime where
  clock := .ok clock
  getEpochFee := TransferFeeConfig.epochFee
  calculateFee := TransferFee.fee
  getMintExtensionData mint :=
    match mint.transferFeeConfig with
    | some cfg => .ok cfg
    | none => .error 0
  processTransferChecked := processTransfer clock
  invokeSelf _ := .ok ()
  calculateFee_zero f amount h := if_pos h
  getMintExtensionData_eq_ok mint cfg h := by rw [h]
  transferred program t amount decimals ledger ledger' h := by
    obtain ⟨mint, fee, hmint, hfee, htransferred⟩ := transferred_of_processTransfer h
    refine ⟨mint, fee, hmint, htransferred, ?_⟩
    unfold Mint.feeAt at hfee
    cases hcfg : mint.transferFeeConfig with
    | none =>
      rw [hcfg] at hfee
      exact (Option.some.inj hfee).symm
    | some cfg =>
      rw [hcfg] at hfee
      exact ⟨clock, rfl, hfee⟩

end SolanaRfq
