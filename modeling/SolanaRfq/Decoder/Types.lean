import SolanaRfq.Format.Reader

/-!
# The types of the decoder

The records of `fill-decoder/src/types.rs`, `error.rs` and the wire types of `wire.rs`. `Side` and
`Level` are also the types of the on-chain program, which declares them with the same fields.
-/

namespace SolanaRfq

open ByteFormat

/-- A 32-byte public key. -/
abbrev Pubkey : Type := List.Vector UInt8 32

/-- A 64-byte signature. -/
abbrev Signature : Type := List.Vector UInt8 64

/-- Which side of the book the taker is on. -/
inductive Side where
  | bid
  | ask
deriving DecidableEq, Repr

/-- Decode a side from its wire discriminant. -/
def Side.fromU8 (b : UInt8) : Option Side :=
  if b = 0 then some .bid else if b = 1 then some .ask else none

/-- One maker-quoted price level. -/
structure Level where
  baseAtoms : UInt64
  quoteAtoms : UInt64
deriving DecidableEq, Repr

/-- One `SolRfqV2` leg recovered from an aggregator instruction. -/
structure DecodedFill where
  takerSide : Side
  rfqId : UInt64
  expireAt : Int64
  levels : List Level
deriving DecidableEq

/-- Why a message does not carry exactly one fill. -/
inductive FillCountError where
  | notFound
  | multiple (n : ℕ)
  | unsupportedEntrypoint
deriving DecidableEq, Repr

/-- The errors of the decoder. -/
inductive FillDecoderError where
  | invalidEncoding
  | truncated (expected actual : ℕ)
  | nonCanonicalCompactU16
  | borsh (reason : String)
  | other (reason : String)
deriving DecidableEq, Repr

instance : EofError FillDecoderError := ⟨.truncated⟩

/-! ## Wire types -/

/-- The three message versions. -/
inductive MessageVersion where
  | legacy
  | v0
  | v1
deriving DecidableEq, Repr

/-- The configuration words of a v1 message, in ascending mask-bit order. -/
structure V1TransactionConfig where
  mask : UInt32
  values : List UInt32
deriving DecidableEq, Repr

/-- The signer and read-only counts of a message. -/
structure MessageHeader where
  numRequiredSignatures : UInt8
  numReadonlySignedAccounts : UInt8
  numReadonlyUnsignedAccounts : UInt8
deriving DecidableEq, Repr

/-- An instruction with its accounts as indices. -/
structure CompiledInstruction where
  programIdIndex : UInt8
  accountIndices : List UInt8
  data : List UInt8
deriving DecidableEq, Repr

/-- The descriptor of one address lookup table; its contents are never loaded. -/
structure AddressTableLookup where
  tableKey : Pubkey
  writableIndexes : List UInt8
  readonlyIndexes : List UInt8
deriving DecidableEq

/-- A message as read from the wire. -/
structure ParsedMessage where
  version : MessageVersion
  header : MessageHeader
  staticAccountKeys : List Pubkey
  recentBlockhash : List.Vector UInt8 32
  instructions : List CompiledInstruction
  addressTableLookups : List AddressTableLookup
  transactionConfig : Option V1TransactionConfig
deriving DecidableEq

/-- A transaction as read from the wire. -/
structure ParsedTransaction where
  signatures : List Signature
  message : ParsedMessage
deriving DecidableEq

end SolanaRfq
