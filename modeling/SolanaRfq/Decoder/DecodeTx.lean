import SolanaRfq.Decoder.MakerComplete
import SolanaRfq.Decoder.Paths
import SolanaRfq.Decoder.Policy
import Mathlib.Data.List.DropRight

/-!
# The `decode-tx` command

`fill-decoder/src/bin/decode_tx.rs`, with the text entry points of `lib.rs` and `exclusivity.rs` that
it calls. The base64 and base58 codecs and the RPC node are a `Host`. The arguments are those that the
parser of the command line lets through. What the command prints is left out; its exit code is the
verdict.

* `decodeTransactionBase64`, `decodeMessageBase64`, `parsePubkeyBase58`: the text entry points;
* `Args`, `decodeTx`, `exitCode`: the command;
* `Received`, `KeysOf`, `Verdict`: what a run finds, read off the wire;
* **`exitCode_eq_iff`**: the exit code is the verdict.
-/

namespace SolanaRfq

open Fallible

/-! ## Text -/

/-- What the command takes from outside. -/
structure Host where
  /-- `STANDARD.decode` of the base64 engine. -/
  base64 : String → Option (List UInt8)
  /-- `bs58::decode`, with the message of its error. -/
  bs58 : String → Except String (List UInt8)
  /-- `fetch_tx_base64`, of a node and a signature. -/
  fetchTxBase64 : String → String → Except String String
  /-- The `Debug` form of a string. -/
  debug : String → String

/-- `char::is_whitespace`. -/
def isWhitespace (c : Char) : Bool :=
  c.toNat ∈ [0x0009, 0x000A, 0x000B, 0x000C, 0x000D, 0x0020, 0x0085, 0x00A0, 0x1680, 0x2000, 0x2001,
    0x2002, 0x2003, 0x2004, 0x2005, 0x2006, 0x2007, 0x2008, 0x2009, 0x200A, 0x2028, 0x2029, 0x202F,
    0x205F, 0x3000]

/-- `str::trim`. -/
def trimText (s : String) : String :=
  String.ofList ((s.toList.dropWhile isWhitespace).rdropWhile isWhitespace)

variable (host : Host)

/-- Decode a base64 text, or report its error as the decoder does. -/
def base64Decode (b64 : String) : Except FillDecoderError (List UInt8) :=
  match host.base64 (trimText b64) with
  | some bytes => .ok bytes
  | none => .error .invalidEncoding

/-- Decode a base64-encoded transaction. -/
def decodeTransactionBase64 (b64 : String) : Except FillDecoderError DecodedTransaction := do
  decodeTransactionBytes (← base64Decode host b64)

/-- Decode a base64-encoded message without its signatures. -/
def decodeMessageBase64 (b64 : String) : Except FillDecoderError DecodedMessage := do
  decodeMessageBytes (← base64Decode host b64)

/-- Decode a base58 string to a 32-byte key. -/
def parsePubkeyBase58 (s : String) : Except FillDecoderError Pubkey :=
  match host.bs58 s with
  | .error e => .error (.other s!"invalid base58 pubkey {host.debug s}: {e}")
  | .ok bytes =>
    if h : bytes.length = 32 then .ok ⟨bytes, h⟩
    else .error (.other s!"pubkey {host.debug s} decoded to {bytes.length} bytes, expected 32")

/-! ## The command -/

/-- A fill that rides inside a token-ledger entrypoint. -/
def DecodedMessage.hasTokenLedgerFill (msg : DecodedMessage) : Bool :=
  msg.instructions.any fun ix => !ix.fills.isEmpty ∧ ix.entrypoint = some .tokenLedger

/-- The three maker accounts as given on the command line. -/
structure MakerArgs where
  fillAuthority : String
  makerBaseTokenAccount : String
  makerQuoteTokenAccount : String

/-- The parsed arguments that decide the exit code. The parser requires the maker accounts together. -/
structure Args where
  base64 : Option String
  tx : Option String
  rpcUrl : Option String
  maker : Option MakerArgs
  allowTokenLedger : Bool

/-- `std::process::exit` when `x` fails. -/
def orExit {ε α : Type} (code : ℕ) (x : Except ε α) : Except ℕ α := x.mapError fun _ => code

/-- The base64 text of the transaction. -/
def Args.text (args : Args) : Except ℕ String :=
  match args.base64, args.tx with
  | some b, none => .ok b
  | none, some sig =>
    match args.rpcUrl with
    | some url => orExit 2 (host.fetchTxBase64 url sig)
    | none => .error 2
  | _, _ => .error 2

/-- The three keys of the maker, each a base58 text. -/
def MakerArgs.parse (maker : MakerArgs) : Except ℕ MakerAccounts := do
  let fillAuthority ← orExit 2 (parsePubkeyBase58 host maker.fillAuthority)
  let makerBaseTokenAccount ← orExit 2 (parsePubkeyBase58 host maker.makerBaseTokenAccount)
  let makerQuoteTokenAccount ← orExit 2 (parsePubkeyBase58 host maker.makerQuoteTokenAccount)
  return { fillAuthority, makerBaseTokenAccount, makerQuoteTokenAccount }

/-- The maker check, if the accounts are given. -/
def Args.makerCheck (args : Args) (msg : DecodedMessage) :
    Except ℕ (Option (Except MakerValidationError MakerValidationReport)) :=
  match args.maker with
  | none => .ok none
  | some maker => do return some (validateMakerAccounts msg (← maker.parse host))

/-- The checks that follow the report. -/
def policyExit (allowTokenLedger : Bool) (msg : DecodedMessage)
    (makerCheck : Option (Except MakerValidationError MakerValidationReport)) : Except ℕ Unit :=
  if msg.hasUnsupportedEntrypoint then .error 6
  else
    match msg.singleFill with
    | .error _ => .error 4
    | .ok _ =>
      if msg.hasTokenLedgerFill ∧ allowTokenLedger = false then .error 6
      else
        match makerCheck with
        | some (.error _) => .error 3
        | _ => .ok ()

/-- `main`: `.error` is an exit with that code. -/
def decodeTx (args : Args) : Except ℕ Unit := do
  let b64 ← args.text host
  let tx ← orExit 1 (decodeTransactionBase64 host b64)
  let makerCheck ← args.makerCheck host tx.message
  policyExit args.allowTokenLedger tx.message makerCheck

/-- The code with which `main` ends. -/
def exitCode (args : Args) : ℕ :=
  match decodeTx host args with
  | .ok () => 0
  | .error code => code

/-! ## What a run finds -/

/-- The text of the transaction, given or fetched. -/
inductive Text (args : Args) : String → Prop
  | base64 (b : String) : args.base64 = some b → args.tx = none → Text args b
  | rpc (sig url b : String) : args.base64 = none → args.tx = some sig → args.rpcUrl = some url →
      host.fetchTxBase64 url sig = .ok b → Text args b

/-- The transaction that the text spells; it has its signatures and passes the checks. -/
def Received (args : Args) (t : ParsedTransaction) : Prop :=
  ∃ b bytes, Text host args b ∧ host.base64 (trimText b) = some bytes ∧
    parseTransaction bytes = .ok t ∧
    t.signatures.length = t.message.header.numRequiredSignatures.toNat ∧ Accepted t.message

/-- The keys that the maker arguments spell. -/
structure KeysOf (maker : MakerArgs) (keys : MakerAccounts) : Prop where
  fillAuthority : host.bs58 maker.fillAuthority = .ok keys.fillAuthority.toList
  makerBase : host.bs58 maker.makerBaseTokenAccount = .ok keys.makerBaseTokenAccount.toList
  makerQuote : host.bs58 maker.makerQuoteTokenAccount = .ok keys.makerQuoteTokenAccount.toList

/-- The maker arguments, if given, spell keys. -/
def KeysReadable (args : Args) : Prop :=
  ∀ maker, args.maker = some maker → ∃ keys, KeysOf host maker keys

/-- The legs of a wire message, in order. -/
def MessageLegs (m : ParsedMessage) (fills : List DecodedFill) : Prop :=
  ∃ legs, List.Forall₂ (InstructionLegs m.staticAccountKeys) m.instructions legs ∧
    fills = legs.flatten

/-- The message as decoded. -/
abbrev ParsedTransaction.decoded (t : ParsedTransaction) : DecodedMessage :=
  extractFills (bareMessage t.message)

/-- What the exit code says. -/
inductive Verdict (args : Args) : ℕ → Prop
  | noText : (∀ b, ¬ Text host args b) → Verdict args 2
  | undecodable (b : String) : Text host args b → (∀ t, ¬ Received host args t) → Verdict args 1
  | noKeys (t : ParsedTransaction) : Received host args t → ¬ KeysReadable host args →
      Verdict args 2
  | refused (t : ParsedTransaction) : Received host args t → KeysReadable host args →
      RefusedSwap t.message → Verdict args 6
  | fillCount (t : ParsedTransaction) (fills : List DecodedFill) : Received host args t →
      KeysReadable host args → ¬ RefusedSwap t.message → MessageLegs t.message fills →
      fills.length ≠ 1 → Verdict args 4
  | misplaced (t : ParsedTransaction) (fill : DecodedFill) (maker : MakerArgs)
      (keys : MakerAccounts) : Received host args t → ¬ RefusedSwap t.message →
      MessageLegs t.message [fill] → args.maker = some maker → KeysOf host maker keys →
      (∀ o, ¬ LegPlaced t.decoded keys o) → Verdict args 3
  | accepted (t : ParsedTransaction) (fill : DecodedFill) : Received host args t →
      ¬ RefusedSwap t.message → MessageLegs t.message [fill] →
      (∀ maker, args.maker = some maker →
        ∃ keys o, KeysOf host maker keys ∧ LegPlaced t.decoded keys o) → Verdict args 0

variable {host} {args : Args}

/-! ## Text and keys -/

theorem orExit_eq_ok_iff {ε α : Type} {code : ℕ} {x : Except ε α} {a : α} :
    orExit code x = .ok a ↔ x = .ok a := mapError_eq_ok_iff

theorem orExit_eq_error {ε α : Type} {code n : ℕ} {x : Except ε α}
    (h : orExit code x = .error n) : n = code := by
  cases x with
  | ok a => exact absurd h (by simp [orExit, Except.mapError])
  | error e => exact (Except.error.inj h).symm

theorem eq_error_of_forall_ne {α : Type} {code : ℕ} {x : Except ℕ α}
    (hcode : ∀ n, x = .error n → n = code) (h : ∀ a, x ≠ .ok a) : x = .error code := by
  cases x with
  | ok a => exact absurd rfl (h a)
  | error n => rw [hcode n rfl]

theorem text_eq_ok_iff {b : String} : args.text host = .ok b ↔ Text host args b := by
  unfold Args.text
  constructor
  · intro h
    split at h
    · rename_i b' hb htx
      obtain rfl := Except.ok.inj h
      exact .base64 b' hb htx
    · rename_i sig hb htx
      split at h
      · rename_i url hurl
        exact .rpc sig url b hb htx hurl (orExit_eq_ok_iff.mp h)
      · exact absurd h (by simp)
    · exact absurd h (by simp)
  · intro h
    cases h with
    | base64 _ hb htx =>
      rw [hb, htx]
    | rpc sig url _ hb htx hurl hfetch =>
      rw [hb, htx, hurl]
      exact orExit_eq_ok_iff.mpr hfetch

theorem text_eq_error {n : ℕ} (h : args.text host = .error n) : n = 2 := by
  unfold Args.text at h
  split at h
  · exact absurd h (by simp)
  · split at h
    · exact orExit_eq_error h
    · exact (Except.error.inj h).symm
  · exact (Except.error.inj h).symm

theorem base64Decode_eq_ok_iff {b : String} {bytes : List UInt8} :
    base64Decode host b = .ok bytes ↔ host.base64 (trimText b) = some bytes := by
  unfold base64Decode
  cases host.base64 (trimText b) <;> simp

theorem parsePubkeyBase58_eq_ok_iff {s : String} {key : Pubkey} :
    parsePubkeyBase58 host s = .ok key ↔ host.bs58 s = .ok key.toList := by
  unfold parsePubkeyBase58
  cases host.bs58 s with
  | error e => simp
  | ok bytes =>
    dsimp only
    split_ifs with hlen
    · constructor
      · intro h
        rw [← Except.ok.inj h]
        rfl
      · intro h
        exact congrArg Except.ok (Subtype.ext (Except.ok.inj h))
    · simp only [Except.ok.injEq, false_iff]
      rintro rfl
      exact hlen key.toList_length

theorem parse_eq_ok_iff {maker : MakerArgs} {keys : MakerAccounts} :
    maker.parse host = .ok keys ↔ KeysOf host maker keys := by
  unfold MakerArgs.parse
  simp only [except_bind_eq_ok, orExit_eq_ok_iff, parsePubkeyBase58_eq_ok_iff]
  constructor
  · rintro ⟨_, h₀, _, h₁, _, h₂, hkeys⟩
    obtain rfl := Except.ok.inj hkeys
    exact ⟨h₀, h₁, h₂⟩
  · rintro ⟨h₀, h₁, h₂⟩
    exact ⟨_, h₀, _, h₁, _, h₂, rfl⟩

theorem parse_eq_error {maker : MakerArgs} {n : ℕ} (h : maker.parse host = .error n) : n = 2 := by
  unfold MakerArgs.parse at h
  simp only [except_bind_eq_error] at h
  rcases h with h | ⟨_, -, h | ⟨_, -, h | ⟨_, -, h⟩⟩⟩
  · exact orExit_eq_error h
  · exact orExit_eq_error h
  · exact orExit_eq_error h
  · exact absurd h (by simp [pure, Except.pure])

theorem KeysOf.eq {maker : MakerArgs} {keys keys' : MakerAccounts} (h : KeysOf host maker keys)
    (h' : KeysOf host maker keys') : keys = keys' := by
  rw [← parse_eq_ok_iff] at h h'
  exact Except.ok.inj (h.symm.trans h')

/-! ## The transaction -/

theorem InstructionLegs.eq {keys : List Pubkey} {ix : CompiledInstruction}
    {legs : List DecodedFill} (h : InstructionLegs keys ix legs) (i : ℕ) :
    (extractInstruction keys (bareInstruction i ix)).fills = legs := by
  have hextract := instructionLegs_extractInstruction keys i ix
  generalize (extractInstruction keys (bareInstruction i ix)).fills = legs' at hextract
  cases h with
  | swap args hdex hs hargs =>
    cases hextract with
    | swap args' _ _ hargs' =>
      have hread := decodeSwapArgs_eq_concrete_iff.mpr ⟨hs, hargs⟩
      rw [decodeSwapArgs_eq_concrete_iff.mpr ⟨hs, hargs'⟩] at hread
      rw [AnySwapArgs.concrete.inj (Option.some.inj hread)]
    | other hnone => exact absurd hargs (hnone hdex hs args)
  | other hnone =>
    cases hextract with
    | swap args hdex hs hargs => exact absurd hargs (hnone hdex hs args)
    | other => rfl

theorem map_fills_eq {keys : List Pubkey} {ixs : List CompiledInstruction}
    {legs : List (List DecodedFill)} (h : List.Forall₂ (InstructionLegs keys) ixs legs) (k : ℕ) :
    ((ixs.zipIdx k).map fun p => (extractInstruction keys (bareInstruction p.2 p.1)).fills) =
      legs := by
  induction h generalizing k with
  | nil => rfl
  | cons hix _ ih => rw [List.zipIdx_cons, List.map_cons, hix.eq, ih]

theorem messageLegs_iff {m : ParsedMessage} {fills : List DecodedFill} :
    MessageLegs m fills ↔ (extractFills (bareMessage m)).fills = fills := by
  constructor
  · rintro ⟨legs, hlegs, rfl⟩
    rw [DecodedMessage.fills, instructions_extractFills, List.flatMap_map, List.flatMap_def,
      map_fills_eq hlegs]
  · rintro rfl
    exact fills_extractFills m

/-- No fill rides inside a token-ledger entrypoint. -/
theorem hasTokenLedgerFill_extractFills {m : ParsedMessage} (hm : Accepted m) :
    (extractFills (bareMessage m)).hasTokenLedgerFill = false := by
  rw [DecodedMessage.hasTokenLedgerFill, List.any_eq_false]
  intro ix hix h
  obtain ⟨hne, hledger⟩ : ix.fills ≠ [] ∧ ix.entrypoint = some .tokenLedger := by simpa using h
  have hconcrete := (hm.wellFormed.fills ix hix hne).1
  rw [hledger] at hconcrete
  exact absurd hconcrete (by simp)

theorem decodeTransactionBase64_eq_ok_iff {b : String} {tx : DecodedTransaction} :
    decodeTransactionBase64 host b = .ok tx ↔
      ∃ bytes, host.base64 (trimText b) = some bytes ∧ decodeTransactionBytes bytes = .ok tx := by
  simp only [decodeTransactionBase64, except_bind_eq_ok, base64Decode_eq_ok_iff]

theorem decodeMessageBase64_eq_ok_iff {b : String} {msg : DecodedMessage} :
    decodeMessageBase64 host b = .ok msg ↔
      ∃ bytes, host.base64 (trimText b) = some bytes ∧ decodeMessageBytes bytes = .ok msg := by
  simp only [decodeMessageBase64, except_bind_eq_ok, base64Decode_eq_ok_iff]

/-- The text of the signed part decodes to the message of the transaction. -/
theorem decodeMessageBase64_messagePortion {b b' : String} {bytes : List UInt8}
    {tx : DecodedTransaction} (hbytes : host.base64 (trimText b) = some bytes)
    (h : decodeTransactionBase64 host b = .ok tx)
    (hportion : host.base64 (trimText b') = some (messagePortion tx bytes)) :
    decodeMessageBase64 host b' = .ok tx.message := by
  obtain ⟨bytes', hbytes', hdecode⟩ := decodeTransactionBase64_eq_ok_iff.mp h
  obtain rfl := Option.some.inj (hbytes.symm.trans hbytes')
  exact decodeMessageBase64_eq_ok_iff.mpr
    ⟨_, hportion, decodeMessageBytes_messagePortion hdecode⟩

theorem Received.decodes {t : ParsedTransaction} (h : Received host args t) :
    ∃ b, Text host args b ∧ decodeTransactionBase64 host b = .ok ⟨t.signatures, t.decoded⟩ := by
  obtain ⟨b, bytes, htext, hbytes, hparse, hsigs, hacc⟩ := h
  exact ⟨b, htext, decodeTransactionBase64_eq_ok_iff.mpr
    ⟨bytes, hbytes, decodeTransactionBytes_eq_ok_iff.mpr ⟨t, hparse, hsigs, hacc, rfl⟩⟩⟩

theorem received_of_decodes {b : String} {tx : DecodedTransaction} (htext : Text host args b)
    (h : decodeTransactionBase64 host b = .ok tx) :
    ∃ t, Received host args t ∧ tx = ⟨t.signatures, t.decoded⟩ := by
  obtain ⟨bytes, hbytes, hdecode⟩ := decodeTransactionBase64_eq_ok_iff.mp h
  obtain ⟨t, hparse, hsigs, hacc, rfl⟩ := decodeTransactionBytes_eq_ok_iff.mp hdecode
  exact ⟨t, ⟨b, bytes, htext, hbytes, hparse, hsigs, hacc⟩, rfl⟩

theorem Received.accepted {t : ParsedTransaction} (h : Received host args t) :
    Accepted t.message := by
  obtain ⟨-, -, -, -, -, -, hacc⟩ := h
  exact hacc

/-! ## The checks after the report -/

section Policy

variable {m : ParsedMessage} {allow : Bool}
  {check : Option (Except MakerValidationError MakerValidationReport)}

theorem policyExit_of_refused (h : RefusedSwap m) :
    policyExit allow (extractFills (bareMessage m)) check = .error 6 :=
  if_pos ((hasUnsupportedEntrypoint_extractFills m).mpr h)

theorem not_refused_iff :
    (extractFills (bareMessage m)).hasUnsupportedEntrypoint = false ↔ ¬ RefusedSwap m := by
  rw [← hasUnsupportedEntrypoint_extractFills, Bool.not_eq_true]

theorem policyExit_of_count (h : ¬ RefusedSwap m) {fills : List DecodedFill}
    (hlegs : MessageLegs m fills) (hcount : fills.length ≠ 1) :
    policyExit allow (extractFills (bareMessage m)) check = .error 4 := by
  unfold policyExit
  rw [if_neg (by simp [not_refused_iff.mpr h])]
  cases hsingle : (extractFills (bareMessage m)).singleFill with
  | error e => rfl
  | ok f =>
    have hone := (singleFill_eq_ok_iff.mp hsingle).2
    rw [messageLegs_iff.mp hlegs] at hone
    exact absurd (congrArg List.length hone) hcount

/-- With one fill only the maker check is left; the token-ledger flag decides nothing. -/
theorem policyExit_of_single (hm : Accepted m) (h : ¬ RefusedSwap m) {fill : DecodedFill}
    (hlegs : MessageLegs m [fill]) :
    policyExit allow (extractFills (bareMessage m)) check =
      match check with
      | some (.error _) => .error 3
      | _ => .ok () := by
  unfold policyExit
  rw [if_neg (by simp [not_refused_iff.mpr h]),
    singleFill_eq_ok_iff.mpr ⟨not_refused_iff.mpr h, messageLegs_iff.mp hlegs⟩]
  exact if_neg (by simp [hasTokenLedgerFill_extractFills hm])

end Policy

/-! ## The exit code -/

/-- **The maker check passes exactly when the leg is placed.** -/
theorem exists_report_iff {msg : DecodedMessage} {keys : MakerAccounts} (hmsg : msg.WellFormed) :
    (∃ report, validateMakerAccounts msg keys = .ok report) ↔ ∃ o, LegPlaced msg keys o := by
  simp only [validateMakerAccounts_eq_ok_iff]
  constructor
  · rintro ⟨report, hcheck⟩
    exact ⟨_, hcheck.legPlaced hmsg⟩
  · rintro ⟨o, hplaced⟩
    obtain ⟨report, hcheck, -⟩ := hplaced.makerCheck hmsg
    exact ⟨report, hcheck⟩

theorem exitCode_of_ok (h : decodeTx host args = .ok ()) : exitCode host args = 0 := by
  rw [exitCode, h]

theorem exitCode_of_error {n : ℕ} (h : decodeTx host args = .error n) : exitCode host args = n := by
  rw [exitCode, h]

theorem decodeTx_of_text {b : String} (h : Text host args b) : decodeTx host args =
    orExit 1 (decodeTransactionBase64 host b) >>= fun tx =>
      args.makerCheck host tx.message >>= policyExit args.allowTokenLedger tx.message := by
  rw [decodeTx, text_eq_ok_iff.mpr h]
  rfl

theorem decodeTx_of_received {t : ParsedTransaction} (h : Received host args t) :
    decodeTx host args =
      args.makerCheck host t.decoded >>= policyExit args.allowTokenLedger t.decoded := by
  obtain ⟨b, htext, hdecode⟩ := h.decodes
  rw [decodeTx_of_text htext, orExit_eq_ok_iff.mpr hdecode]
  rfl

theorem decodeTx_of_keys {t : ParsedTransaction} (h : Received host args t)
    (hkeys : KeysReadable host args) :
    ∃ check, decodeTx host args = policyExit args.allowTokenLedger t.decoded check := by
  rw [decodeTx_of_received h, Args.makerCheck]
  cases hmaker : args.maker with
  | none => exact ⟨none, rfl⟩
  | some maker =>
    obtain ⟨keys, hspelled⟩ := hkeys maker hmaker
    refine ⟨some (validateMakerAccounts t.decoded keys), ?_⟩
    dsimp only
    rw [parse_eq_ok_iff.mpr hspelled]
    rfl

theorem makerCheck_eq {maker : MakerArgs} {keys : MakerAccounts} (hmaker : args.maker = some maker)
    (hkeys : KeysOf host maker keys) (msg : DecodedMessage) :
    args.makerCheck host msg = .ok (some (validateMakerAccounts msg keys)) := by
  rw [Args.makerCheck, hmaker]
  dsimp only
  rw [parse_eq_ok_iff.mpr hkeys]
  rfl

theorem Verdict.exitCode_eq {n : ℕ} (h : Verdict host args n) : exitCode host args = n := by
  cases h with
  | noText hnone =>
    refine exitCode_of_error ?_
    rw [decodeTx, eq_error_of_forall_ne (fun _ => text_eq_error) fun b hb =>
      hnone b (text_eq_ok_iff.mp hb)]
    rfl
  | undecodable b htext hnone =>
    have hfail : orExit 1 (decodeTransactionBase64 host b) = .error 1 := by
      refine eq_error_of_forall_ne (fun _ => orExit_eq_error) fun tx htx => ?_
      obtain ⟨t, hreceived, -⟩ := received_of_decodes htext (orExit_eq_ok_iff.mp htx)
      exact hnone t hreceived
    refine exitCode_of_error ?_
    rw [decodeTx_of_text htext, hfail]
    rfl
  | noKeys t hreceived hkeys =>
    obtain ⟨maker, hmaker, hnone⟩ : ∃ maker, args.maker = some maker ∧
        ∀ keys, ¬ KeysOf host maker keys := by simpa [KeysReadable] using hkeys
    refine exitCode_of_error ?_
    rw [decodeTx_of_received hreceived, Args.makerCheck, hmaker]
    dsimp only
    rw [eq_error_of_forall_ne (fun _ => parse_eq_error) fun keys hok =>
      hnone keys (parse_eq_ok_iff.mp hok)]
    rfl
  | refused t hreceived hkeys hrefused =>
    obtain ⟨check, hrun⟩ := decodeTx_of_keys hreceived hkeys
    exact exitCode_of_error (hrun.trans (policyExit_of_refused hrefused))
  | fillCount t fills hreceived hkeys hrefused hlegs hcount =>
    obtain ⟨check, hrun⟩ := decodeTx_of_keys hreceived hkeys
    exact exitCode_of_error (hrun.trans (policyExit_of_count hrefused hlegs hcount))
  | misplaced t fill maker keys hreceived hrefused hlegs hmaker hkeys hnone =>
    refine exitCode_of_error ?_
    rw [decodeTx_of_received hreceived, makerCheck_eq hmaker hkeys]
    refine (policyExit_of_single hreceived.accepted hrefused hlegs).trans ?_
    cases hcheck : validateMakerAccounts t.decoded keys with
    | error e => rfl
    | ok report =>
      obtain ⟨o, hplaced⟩ := (exists_report_iff hreceived.accepted.wellFormed).mp ⟨report, hcheck⟩
      exact absurd hplaced (hnone o)
  | accepted t fill hreceived hrefused hlegs hplaced =>
    refine exitCode_of_ok ?_
    rw [decodeTx_of_received hreceived]
    cases hmaker : args.maker with
    | none =>
      rw [Args.makerCheck, hmaker]
      show policyExit args.allowTokenLedger t.decoded none = .ok ()
      exact policyExit_of_single hreceived.accepted hrefused hlegs
    | some maker =>
      obtain ⟨keys, o, hkeys, hleg⟩ := hplaced maker hmaker
      obtain ⟨report, hreport⟩ :=
        (exists_report_iff hreceived.accepted.wellFormed).mpr ⟨o, hleg⟩
      rw [makerCheck_eq hmaker hkeys, hreport]
      show policyExit args.allowTokenLedger t.decoded (some (.ok report)) = .ok ()
      exact policyExit_of_single hreceived.accepted hrefused hlegs

theorem exists_verdict (host : Host) (args : Args) : ∃ n, Verdict host args n := by
  by_cases htext : ∃ b, Text host args b
  · obtain ⟨b, hb⟩ := htext
    by_cases hreceived : ∃ t, Received host args t
    · obtain ⟨t, ht⟩ := hreceived
      by_cases hkeys : KeysReadable host args
      · by_cases hrefused : RefusedSwap t.message
        · exact ⟨6, .refused t ht hkeys hrefused⟩
        · have hlegs := messageLegs_iff.mpr (rfl : t.decoded.fills = t.decoded.fills)
          by_cases hcount : t.decoded.fills.length = 1
          · obtain ⟨fill, hfill⟩ := List.length_eq_one_iff.mp hcount
            rw [hfill] at hlegs
            by_cases hplaced : ∀ maker, args.maker = some maker →
                ∃ keys o, KeysOf host maker keys ∧ LegPlaced t.decoded keys o
            · exact ⟨0, .accepted t fill ht hrefused hlegs hplaced⟩
            · obtain ⟨maker, hmaker, hnone⟩ : ∃ maker, args.maker = some maker ∧
                  ¬ ∃ keys o, KeysOf host maker keys ∧ LegPlaced t.decoded keys o := by
                simpa only [not_forall, exists_prop] using hplaced
              obtain ⟨keys, hspelled⟩ := hkeys maker hmaker
              exact ⟨3, .misplaced t fill maker keys ht hrefused hlegs hmaker hspelled
                fun o ho => hnone ⟨keys, o, hspelled, ho⟩⟩
          · exact ⟨4, .fillCount t _ ht hkeys hrefused hlegs hcount⟩
      · exact ⟨2, .noKeys t ht hkeys⟩
    · exact ⟨1, .undecodable b hb fun t ht => hreceived ⟨t, ht⟩⟩
  · exact ⟨2, .noText fun b hb => htext ⟨b, hb⟩⟩

/-- **The exit code is the verdict.** -/
theorem exitCode_eq_iff (host : Host) (args : Args) (n : ℕ) :
    exitCode host args = n ↔ Verdict host args n := by
  refine ⟨fun h => ?_, Verdict.exitCode_eq⟩
  obtain ⟨n', hverdict⟩ := exists_verdict host args
  rwa [← h, hverdict.exitCode_eq]

end SolanaRfq
