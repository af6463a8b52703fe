import SolanaRfq.Decoder.Wire
import SolanaRfq.Decoder.Aggregator

/-!
# Decoded messages and transactions

`fill-decoder/src/transaction.rs` and the entry points of `lib.rs`: the header, account-count and
index checks on a parsed message, and the fills attached to it. Lookup tables are never loaded, so
an index above the static keys stays opaque.

* `decodeMessage`, `decodeTransaction`: the checks; `extractFills`: the fills;
* `decodeTransactionBytes`, `decodeMessageBytes`: the entry points;
* `DecodedMessage.singleFill`: the fill policy.
-/

namespace SolanaRfq

def maxAccountKeys : ℕ := 256

/-- An instruction with the fills and the entrypoint found in its data. -/
structure DecodedInstruction where
  instructionIndex : ℕ
  programIdIndex : UInt8
  accountIndices : List UInt8
  data : List UInt8
  fills : List DecodedFill
  entrypoint : Option EntrypointKind
deriving DecidableEq

/-- A message whose indices are in range. -/
structure DecodedMessage where
  version : MessageVersion
  header : MessageHeader
  transactionConfig : Option V1TransactionConfig
  recentBlockhash : List.Vector UInt8 32
  staticAccountKeys : List Pubkey
  instructions : List DecodedInstruction
  addressTableLookups : List AddressTableLookup
  loadedWritableCount : ℕ
  loadedReadonlyCount : ℕ
deriving DecidableEq

/-- A decoded message with its signatures. -/
structure DecodedTransaction where
  signatures : List Signature
  message : DecodedMessage
deriving DecidableEq

namespace DecodedMessage

/-- Static and loaded accounts together. -/
def totalAccountCount (msg : DecodedMessage) : ℕ :=
  msg.staticAccountKeys.length + msg.loadedWritableCount + msg.loadedReadonlyCount

/-- Every leg in instruction order. -/
def fills (msg : DecodedMessage) : List DecodedFill := msg.instructions.flatMap (·.fills)

/-- A recognised but refused entrypoint is present. -/
def hasUnsupportedEntrypoint (msg : DecodedMessage) : Bool :=
  msg.instructions.any fun ix => ix.entrypoint = some .unsupported

/-- The fill policy: exactly one fill, and no refused entrypoint. -/
def singleFill (msg : DecodedMessage) : Except FillCountError DecodedFill :=
  if msg.hasUnsupportedEntrypoint then .error .unsupportedEntrypoint
  else
    match msg.fills with
    | [] => .error .notFound
    | first :: extra => if extra.length = 0 then .ok first else .error (.multiple (extra.length + 1))

end DecodedMessage

/-! ## Checks -/

/-- The closure `validate` of `build_instruction`. -/
def validateIndex (instructionIndex totalAccountCount : ℕ) (index : UInt8) (kind : String) :
    Except FillDecoderError Unit :=
  if index.toNat < totalAccountCount then .ok ()
  else .error (.other (s!"instruction {instructionIndex} {kind} index {index} is out of range for " ++
    s!"{totalAccountCount} account keys"))

/-- Check the indices of an instruction. -/
def buildInstruction (instructionIndex : ℕ) (ix : CompiledInstruction) (totalAccountCount : ℕ) :
    Except FillDecoderError DecodedInstruction := do
  validateIndex instructionIndex totalAccountCount ix.programIdIndex "program id"
  ix.accountIndices.forM fun index =>
    validateIndex instructionIndex totalAccountCount index "account"
  return { instructionIndex, programIdIndex := ix.programIdIndex,
           accountIndices := ix.accountIndices, data := ix.data, fills := [], entrypoint := none }

/-- Check a parsed message. -/
def decodeMessage (parsed : ParsedMessage) : Except FillDecoderError DecodedMessage := do
  let staticCount := parsed.staticAccountKeys.length
  let requiredSignatures := parsed.header.numRequiredSignatures.toNat
  let readonlySigned := parsed.header.numReadonlySignedAccounts.toNat
  let readonlyUnsigned := parsed.header.numReadonlyUnsignedAccounts.toNat
  if requiredSignatures > staticCount ∨ readonlySigned > requiredSignatures ∨
      readonlyUnsigned > staticCount - requiredSignatures then
    throw (.other s!"invalid message header for {staticCount} static account keys")
  let loadedWritableCount := (parsed.addressTableLookups.map (·.writableIndexes.length)).sum
  let loadedReadonlyCount := (parsed.addressTableLookups.map (·.readonlyIndexes.length)).sum
  let totalAccountCount := staticCount + loadedWritableCount + loadedReadonlyCount
  if totalAccountCount > maxAccountKeys then
    throw (.other (s!"message contains {totalAccountCount} account keys; " ++
      s!"maximum is {maxAccountKeys}"))
  let instructions ← parsed.instructions.zipIdx.mapM fun (ix, index) =>
    buildInstruction index ix totalAccountCount
  return { version := parsed.version, header := parsed.header,
           transactionConfig := parsed.transactionConfig,
           recentBlockhash := parsed.recentBlockhash,
           staticAccountKeys := parsed.staticAccountKeys, instructions,
           addressTableLookups := parsed.addressTableLookups,
           loadedWritableCount, loadedReadonlyCount }

/-- Check the number of signatures, and the message. -/
def decodeTransaction (parsed : ParsedTransaction) :
    Except FillDecoderError DecodedTransaction := do
  let requiredSignatures := parsed.message.header.numRequiredSignatures.toNat
  if parsed.signatures.length ≠ requiredSignatures then
    throw (.other (s!"transaction contains {parsed.signatures.length} signatures; " ++
      s!"message requires {requiredSignatures}"))
  return { signatures := parsed.signatures, message := ← decodeMessage parsed.message }

/-! ## Fills -/

/-- Attach the fills of an instruction whose program is a static `dex-solana-v3` key. -/
def extractInstruction (staticAccountKeys : List Pubkey) (ix : DecodedInstruction) :
    DecodedInstruction :=
  match staticAccountKeys[ix.programIdIndex.toNat]? with
  | some programId =>
    if isDexSolanaV3Program programId then
      let (kind, fills) := decodeSolrfqv2Legs ix.data
      { ix with entrypoint := kind, fills := fills }
    else ix
  | none => ix

/-- Look for fills in every instruction. -/
def extractFills (msg : DecodedMessage) : DecodedMessage :=
  { msg with instructions := msg.instructions.map (extractInstruction msg.staticAccountKeys) }

/-! ## Entry points -/

/-- Decode a full transaction. -/
def decodeTransactionBytes (bytes : List UInt8) : Except FillDecoderError DecodedTransaction := do
  let parsed ← parseTransaction bytes
  let tx ← decodeTransaction parsed
  return { tx with message := extractFills tx.message }

/-- Decode a message without its signatures. -/
def decodeMessageBytes (bytes : List UInt8) : Except FillDecoderError DecodedMessage := do
  let parsed ← parseMessage bytes
  let msg ← decodeMessage parsed
  return extractFills msg

end SolanaRfq
