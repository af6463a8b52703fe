import SolanaRfq.Decoder.Types

/-!
# The wire parser

`fill-decoder/src/wire.rs`: legacy and v0 messages with strict compact-u16 lengths, v1 messages
with fixed-width lengths.

* `readCompactU16`: the strict compact-u16 decoder;
* `parseMessageFromCursor`: legacy and v0 messages; `parseV1Message`: the signed part of v1;
* `parseTransaction`, `parseMessage`: the two entry points.
-/

namespace SolanaRfq

open ByteFormat

/-- A cursor operation of the wire parser. -/
abbrev WireReader (α : Type) : Type := Reader FillDecoderError α

def v0MessageVersionTag : UInt8 := 0x80
def v1MessageVersionTag : UInt8 := 0x81
def v1MaxTransactionSize : ℕ := 4096
def signatureLen : ℕ := 64

/-! ## The v1 configuration words -/

/-- The number of set bits of a `u32`. -/
def countOnes (x : UInt32) : ℕ := (List.range 32).countP fun i => x.toNat.testBit i

namespace V1TransactionConfig

/-- The word of a mask bit: the number of lower set bits is its place among the words. -/
def value (cfg : V1TransactionConfig) (bit : UInt32) : Option UInt32 :=
  if cfg.mask &&& (1 <<< bit) = 0 then none
  else cfg.values[countOnes (cfg.mask &&& ((1 <<< bit) - 1))]?

/-- The fee from its two words, low word first; no word means zero. -/
def priorityFeeLamports (cfg : V1TransactionConfig) : UInt64 :=
  ((cfg.value 0).getD 0).toUInt64 ||| (((cfg.value 1).getD 0).toUInt64 <<< 32)

/-- The word of bit 2, or zero. -/
def computeUnitLimit (cfg : V1TransactionConfig) : UInt32 := (cfg.value 2).getD 0

/-- The word of bit 3, or zero. -/
def loadedAccountsDataSizeLimit (cfg : V1TransactionConfig) : UInt32 := (cfg.value 3).getD 0

/-- The word of bit 4, or the default of 32 KiB. -/
def heapSize (cfg : V1TransactionConfig) : UInt32 := (cfg.value 4).getD (32 * 1024)

end V1TransactionConfig

/-! ## Cursor helpers -/

def readU32 : WireReader UInt32 := word 4 UInt32.ofNat

/-- A little-endian `u16` length. -/
def readU16 : WireReader UInt16 := word 2 UInt16.ofNat

/-- The loop of the compact-u16 decoder, with `n` turns left at turn `i`. -/
def readCompactU16Loop : ℕ → ℕ → UInt32 → WireReader UInt16
  | 0, _, _ => throw .nonCanonicalCompactU16
  | n + 1, i, result => do
    let b ← byte
    let value := b.toUInt32 &&& 0x7f
    let result := result ||| (value <<< UInt32.ofNat (i * 7))
    if b.toUInt32 &&& 0x80 = 0 then
      -- the last byte of a longer form must not be zero
      failIf (0 < i ∧ value = 0) .nonCanonicalCompactU16
      failIf (result > 65535) (.other "compact-u16 value exceeds u16::MAX")
      return result.toUInt16
    else
      readCompactU16Loop n (i + 1) result

/-- Strict compact-u16 decode. -/
def readCompactU16 : WireReader UInt16 := readCompactU16Loop 3 0 0

/-- A compact-u16 length followed by that many bytes. -/
def readCompactBytes : WireReader (List UInt8) := do
  let n ← readCompactU16
  take n.toNat

/-- The three counts of a message header. -/
def readHeader : WireReader MessageHeader := do
  let numRequiredSignatures ← byte
  let numReadonlySignedAccounts ← byte
  let numReadonlyUnsignedAccounts ← byte
  return ⟨numRequiredSignatures, numReadonlySignedAccounts, numReadonlyUnsignedAccounts⟩

/-! ## Legacy and v0 messages -/

/-- The version the first byte announces; a set high bit is a version tag and is consumed. -/
def readVersion (first : UInt8) : WireReader MessageVersion :=
  if first &&& v0MessageVersionTag ≠ 0 then do
    let _ ← take 1
    let tag := first &&& ~~~v0MessageVersionTag
    failIf (tag ≠ 0) (.other s!"unsupported message version {tag}")
    return .v0
  else
    return .legacy

/-- A program index, and the accounts and the data behind their counts. -/
def readInstruction : WireReader CompiledInstruction := do
  let programIdIndex ← byte
  let accountIndices ← readCompactBytes
  let data ← readCompactBytes
  return ⟨programIdIndex, accountIndices, data⟩

/-- A table key, and the two index lists behind their counts. -/
def readLookup : WireReader AddressTableLookup := do
  let tableKey ← array 32
  let writableIndexes ← readCompactBytes
  let readonlyIndexes ← readCompactBytes
  return ⟨tableKey, writableIndexes, readonlyIndexes⟩

/-- A compact-u16 count followed by that many items. -/
def readCounted {α : Type} (item : WireReader α) : WireReader (List α) := do
  let n ← readCompactU16
  many item n.toNat

/-- The lookup section, which only v0 messages have. -/
def readLookups (version : MessageVersion) : WireReader (List AddressTableLookup) :=
  if version = .v0 then readCounted readLookup else return []

/-- What follows the version tag of a legacy or v0 message. -/
def readMessageBody (version : MessageVersion) : WireReader ParsedMessage := do
  let header ← readHeader
  let staticAccountKeys ← readCounted (array 32)
  let recentBlockhash ← array 32
  let instructions ← readCounted readInstruction
  let addressTableLookups ← readLookups version
  return { version, header, staticAccountKeys, recentBlockhash, instructions,
           addressTableLookups, transactionConfig := none }

/-- A legacy or v0 message, by a look at its first byte. -/
def parseMessageFromCursor : WireReader ParsedMessage := do
  let first ← peek
  let version ← readVersion first
  readMessageBody version

/-! ## v1 messages -/

/-- The size limit of v1. -/
def validateV1Size (size : ℕ) : WireReader Unit :=
  failIf (size > v1MaxTransactionSize) (.other "v1 transaction exceeds 4096 bytes")

/-- A `u32` as `0x` and eight hexadecimal digits. -/
def hexU32 (x : UInt32) : String :=
  "0x" ++ String.ofList (List.leftpad 8 '0' (Nat.toDigits 16 x.toNat))

/-- Read `n` keys, none equal to another or to one of `seen`. -/
def readDistinctKeys : ℕ → List Pubkey → WireReader (List Pubkey)
  | 0, seen => return seen
  | n + 1, seen => do
    let key ← array 32
    failIf (key ∈ seen) (.other "duplicate v1 account address")
    readDistinctKeys n (seen ++ [key])

/-- The header of one v1 instruction: program index, account count and data length. -/
structure V1InstructionHeader where
  program : UInt8
  accounts : UInt8
  dataLen : UInt16
deriving DecidableEq, Repr

/-- The four bytes of an instruction header. -/
def readV1InstructionHeader : WireReader V1InstructionHeader := do
  let program ← byte
  let accounts ← byte
  let dataLen ← readU16
  return ⟨program, accounts, dataLen⟩

/-- The payload of one v1 instruction, whose indices must be below `numKeys`. -/
def readV1Payload (numKeys : ℕ) (h : V1InstructionHeader) : WireReader CompiledInstruction := do
  let accountIndices ← take h.accounts.toNat
  failIf (h.program.toNat ≥ numKeys ∨ ∃ index ∈ accountIndices, index.toNat ≥ numKeys)
    (.other "v1 instruction index out of range")
  let data ← take h.dataLen.toNat
  return ⟨h.program, accountIndices, data⟩

/-- All instruction headers, then all payloads. -/
def readV1Instructions (numIx numKeys : ℕ) : WireReader (List CompiledInstruction) := do
  let headers ← many readV1InstructionHeader numIx
  headers.mapM (readV1Payload numKeys)

/-- The configuration words of a mask, one for each set bit. -/
def readV1Config (mask : UInt32) : WireReader V1TransactionConfig := do
  failIf (mask &&& 3 ≠ 0 ∧ mask &&& 3 ≠ 3) (.other "v1 priority fee requires both mask bits")
  let values ← many readU32 (countOnes mask)
  let config : V1TransactionConfig := ⟨mask, values⟩
  failIf (¬ (32 * 1024 ≤ config.heapSize ∧ config.heapSize ≤ 256 * 1024) ∨
    config.heapSize % 1024 ≠ 0) (.other "invalid v1 heap size")
  return config

/-- The signed part of a v1 transaction. -/
def parseV1Message : WireReader ParsedMessage := do
  let _ ← take 1
  let header ← readHeader
  let mask ← readU32
  failIf (mask &&& ~~~0x1f ≠ 0)
    (.other ("unsupported v1 configuration mask bits: " ++ hexU32 (mask &&& ~~~0x1f)))
  let recentBlockhash ← array 32
  let numIx ← byte
  let numKeys ← byte
  failIf (header.numRequiredSignatures > 12 ∨
      header.numReadonlySignedAccounts ≥ header.numRequiredSignatures ∨
      numKeys.toNat < header.numRequiredSignatures.toNat +
        header.numReadonlyUnsignedAccounts.toNat ∨
      numKeys > 64 ∨ numIx > 64)
    (.other "invalid v1 header or counts")
  let staticAccountKeys ← readDistinctKeys numKeys.toNat []
  let config ← readV1Config mask
  let instructions ← readV1Instructions numIx.toNat numKeys.toNat
  return { version := .v1, header, staticAccountKeys, recentBlockhash, instructions,
           addressTableLookups := [], transactionConfig := some config }

/-- A v1 message with the signatures that follow it. -/
def readV1Envelope : WireReader ParsedTransaction := do
  let message ← parseV1Message
  let signatures ← many (array 64) message.header.numRequiredSignatures.toNat
  return ⟨signatures, message⟩

/-- A legacy or v0 message behind its counted signatures. -/
def readCompactEnvelope : WireReader ParsedTransaction := do
  let signatures ← readCounted (array 64)
  let message ← parseMessageFromCursor
  return ⟨signatures, message⟩

/-! ## Entry points -/

/-- `c.finish()`. -/
def finish : WireReader Unit := expectEnd (.other "trailing data after v1 payload")

/-- The body of `parse_transaction` on an input of `size` bytes. -/
def parseTransactionFromCursor (size : ℕ) : WireReader ParsedTransaction := do
  let first ← peek
  if first = v1MessageVersionTag then
    validateV1Size size
    let tx ← readV1Envelope
    finish
    return tx
  else
    readCompactEnvelope

/-- Parse a full transaction. -/
def parseTransaction (bytes : List UInt8) : Except FillDecoderError ParsedTransaction :=
  runReader (parseTransactionFromCursor bytes.length) bytes

/-- The body of `parse_message` on an input of `size` bytes. -/
def parseMessageFrom (size : ℕ) : WireReader ParsedMessage := do
  let first ← peek
  if first = v1MessageVersionTag then
    let message ← parseV1Message
    validateV1Size (size + message.header.numRequiredSignatures.toNat * signatureLen)
    finish
    return message
  else
    parseMessageFromCursor

/-- Parse a message-only payload. -/
def parseMessage (bytes : List UInt8) : Except FillDecoderError ParsedMessage :=
  runReader (parseMessageFrom bytes.length) bytes

end SolanaRfq
