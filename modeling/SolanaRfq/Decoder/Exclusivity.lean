import SolanaRfq.Decoder.Transaction

/-!
# The maker check

`fill-decoder/src/exclusivity.rs`: static-index validation of the three maker accounts of a
decoded message. Lookup tables are never loaded.

* `validateMakerAccounts`: the check; `MakerValidationReport`: where the leg was found.
-/

namespace SolanaRfq

/-- The signer and the two token accounts of a maker. -/
structure MakerAccounts where
  fillAuthority : Pubkey
  makerBaseTokenAccount : Pubkey
  makerQuoteTokenAccount : Pubkey
deriving DecidableEq

def MakerAccounts.pubkeys (maker : MakerAccounts) : List Pubkey :=
  [maker.fillAuthority, maker.makerBaseTokenAccount, maker.makerQuoteTokenAccount]

/-- Where the leg of the maker is, and the indices of its accounts. -/
structure MakerValidationReport where
  instructionIndex : ℕ
  legOffset : ℕ
  fillAuthorityIndex : UInt8
  makerBaseTokenAccountIndex : UInt8
  makerQuoteTokenAccountIndex : UInt8
  rfqProgramIndex : UInt8
deriving DecidableEq, Repr

/-- The reasons to refuse the leg of a maker. -/
inductive MakerValidationError where
  | keysNotDistinct
  | notStatic (role : String)
  | duplicateStaticKey (role : String)
  | fillAuthorityNotSigner (index : UInt8)
  | tokenAccountNotWritable (role : String) (index : UInt8)
  | rfqProgramNotStatic
  | duplicateRfqProgramStaticKey
  | fillCount (error : FillCountError)
  | referenceCount (role : String) (count : ℕ)
  | rfqProgramReferenceCount (count : ℕ)
  | legNotFound
  | multipleLegMatches
deriving DecidableEq, Repr

/-! The entries of `MAKER_ROLES`. -/

def fillAuthorityRole : String := "fill_authority"
def makerBaseTokenAccountRole : String := "maker_base_token_account"
def makerQuoteTokenAccountRole : String := "maker_quote_token_account"

/-! ## Static keys -/

/-- The static indices of a key, each cast to `u8`. -/
def staticMatches (msg : DecodedMessage) (pubkey : Pubkey) : List UInt8 :=
  (msg.staticAccountKeys.zipIdx.filter fun p => p.1 = pubkey).map fun p => UInt8.ofNat p.2

/-- The only item of a list, or an error. -/
def onlyMatch {α : Type} (notFound duplicate : MakerValidationError) :
    List α → Except MakerValidationError α
  | [] => .error notFound
  | [a] => .ok a
  | _ => .error duplicate

/-- The only static index of a key. -/
def uniqueStaticIndex (msg : DecodedMessage) (pubkey : Pubkey) (role : String) :
    Except MakerValidationError UInt8 :=
  onlyMatch (.notStatic role) (.duplicateStaticKey role) (staticMatches msg pubkey)

/-- The only static index of the RFQ program. -/
def uniqueRfqProgramIndex (msg : DecodedMessage) : Except MakerValidationError UInt8 :=
  onlyMatch .rfqProgramNotStatic .duplicateRfqProgramStaticKey
    (staticMatches msg rfqV2ProgramIdBytes)

/-- A static index is writable by the counts of the header. -/
def staticKeyIsWritable (msg : DecodedMessage) (index : UInt8) : Bool :=
  let requiredSignatures := msg.header.numRequiredSignatures.toNat
  let readonlySigned := msg.header.numReadonlySignedAccounts.toNat
  let readonlyUnsigned := msg.header.numReadonlyUnsignedAccounts.toNat
  if index.toNat < requiredSignatures then index.toNat < requiredSignatures - readonlySigned
  else index.toNat < msg.staticAccountKeys.length - readonlyUnsigned

/-! ## References and leg slots -/

/-- The program-id index and the account indices of an instruction. -/
def DecodedInstruction.references (ix : DecodedInstruction) : List UInt8 :=
  ix.programIdIndex :: ix.accountIndices

/-- Every index a message refers to. -/
def DecodedMessage.references (msg : DecodedMessage) : List UInt8 :=
  msg.instructions.flatMap (·.references)

/-- The offsets at which a leg starts whose slots hold the expected indices. -/
def legMatches (accountIndices : List UInt8) (expectedSlots : List (ℕ × UInt8)) : List ℕ :=
  (List.range (accountIndices.length - solRfqV2LegWidth + 1)).filter fun offset =>
    accountIndices.length ≥ offset + solRfqV2LegWidth ∧
      ∀ p ∈ expectedSlots, accountIndices[offset + p.1]? = some p.2

/-! ## The check -/

/-- Fail with `e` when `p` holds. -/
def rejectIf (p : Prop) [Decidable p] (e : MakerValidationError) :
    Except MakerValidationError Unit :=
  if p then .error e else .ok ()

/-- The first instruction that carries a fill. -/
def findFillInstruction (msg : DecodedMessage) : Except MakerValidationError DecodedInstruction :=
  match msg.instructions.find? fun ix => !ix.fills.isEmpty with
  | some ix => .ok ix
  | none => .error (.fillCount .notFound)

/-- The check a maker runs before it signs. -/
def validateMakerAccounts (msg : DecodedMessage) (maker : MakerAccounts) :
    Except MakerValidationError MakerValidationReport := do
  rejectIf (maker.fillAuthority = maker.makerBaseTokenAccount ∨
    maker.fillAuthority = maker.makerQuoteTokenAccount ∨
    maker.makerBaseTokenAccount = maker.makerQuoteTokenAccount) .keysNotDistinct
  let fillAuthorityIndex ← uniqueStaticIndex msg maker.fillAuthority fillAuthorityRole
  let makerBaseTokenAccountIndex ←
    uniqueStaticIndex msg maker.makerBaseTokenAccount makerBaseTokenAccountRole
  let makerQuoteTokenAccountIndex ←
    uniqueStaticIndex msg maker.makerQuoteTokenAccount makerQuoteTokenAccountRole
  rejectIf (fillAuthorityIndex ≥ msg.header.numRequiredSignatures)
    (.fillAuthorityNotSigner fillAuthorityIndex)
  rejectIf (staticKeyIsWritable msg makerBaseTokenAccountIndex = false)
    (.tokenAccountNotWritable makerBaseTokenAccountRole makerBaseTokenAccountIndex)
  rejectIf (staticKeyIsWritable msg makerQuoteTokenAccountIndex = false)
    (.tokenAccountNotWritable makerQuoteTokenAccountRole makerQuoteTokenAccountIndex)
  let rfqProgramIndex ← uniqueRfqProgramIndex msg
  let _ ← msg.singleFill.mapError .fillCount
  let fillIx ← findFillInstruction msg
  rejectIf (msg.references.count fillAuthorityIndex ≠ 1)
    (.referenceCount fillAuthorityRole (msg.references.count fillAuthorityIndex))
  rejectIf (msg.references.count makerBaseTokenAccountIndex ≠ 1)
    (.referenceCount makerBaseTokenAccountRole (msg.references.count makerBaseTokenAccountIndex))
  rejectIf (msg.references.count makerQuoteTokenAccountIndex ≠ 1)
    (.referenceCount makerQuoteTokenAccountRole (msg.references.count makerQuoteTokenAccountIndex))
  rejectIf (msg.references.count rfqProgramIndex ≠ 1)
    (.rfqProgramReferenceCount (msg.references.count rfqProgramIndex))
  let legOffset ← onlyMatch .legNotFound .multipleLegMatches
    (legMatches fillIx.accountIndices
      [(legProgramId, rfqProgramIndex), (legFillAuthority, fillAuthorityIndex),
        (legMakerBaseTokenAccount, makerBaseTokenAccountIndex),
        (legMakerQuoteTokenAccount, makerQuoteTokenAccountIndex)])
  return { instructionIndex := fillIx.instructionIndex, legOffset, fillAuthorityIndex,
           makerBaseTokenAccountIndex, makerQuoteTokenAccountIndex, rfqProgramIndex }

end SolanaRfq
