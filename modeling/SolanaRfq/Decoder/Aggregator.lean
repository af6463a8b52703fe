import SolanaRfq.Decoder.IdlTypes

/-!
# RFQ legs of an aggregator instruction

`fill-decoder/src/aggregator.rs`: the program ids, the account layout of a leg and the fills of an
instruction.
-/

namespace SolanaRfq

/-- The `solana-rfq-v2` program. -/
def rfqV2ProgramIdBytes : Pubkey :=
  ⟨[0x06, 0x36, 0x37, 0xd0, 0x81, 0x4e, 0x36, 0x3e, 0x28, 0x17, 0x3c, 0xa6, 0x5d, 0x04, 0xe1, 0x35,
    0xad, 0x9b, 0xba, 0xc1, 0x6d, 0xf0, 0xff, 0x0d, 0x3f, 0xd8, 0x5a, 0x74, 0x6a, 0x14, 0xa2, 0x3e],
    rfl⟩

/-! The account slots of a leg, relative to its start. -/

def legProgramId : ℕ := 0
def legFillAuthority : ℕ := 4
def legMakerBaseTokenAccount : ℕ := 5
def legMakerQuoteTokenAccount : ℕ := 6
def solRfqV2LegWidth : ℕ := 13

/-- The `dex-solana-v3` program. -/
def dexSolanaV3ProgramIdBytes : Pubkey :=
  ⟨[0x0c, 0x42, 0x9b, 0xd7, 0xc1, 0x8f, 0x50, 0xf8, 0x15, 0x6d, 0x9a, 0xfc, 0x1c, 0xdd, 0xe7, 0x2d,
    0xf6, 0x68, 0xd9, 0xab, 0x3b, 0xec, 0xaf, 0x6b, 0x57, 0x0d, 0x57, 0x66, 0x64, 0x5a, 0xd9, 0xc8],
    rfl⟩

/-- The staging deployment of `dex-solana-v3`. -/
def dexSolanaV3ProgramIdBytesStaging : Pubkey :=
  ⟨[0x0c, 0x42, 0x6f, 0x23, 0x18, 0xca, 0x48, 0x0b, 0xf4, 0x63, 0xc4, 0x9a, 0xb2, 0x3d, 0xab, 0x52,
    0xc2, 0xe3, 0xba, 0x10, 0x34, 0xd4, 0xfc, 0x68, 0xb3, 0x5c, 0xea, 0xed, 0x6d, 0x2f, 0x48, 0x56],
    rfl⟩

/-- A recognised deployment of `dex-solana-v3`. -/
def isDexSolanaV3Program (pubkey : Pubkey) : Prop :=
  pubkey = dexSolanaV3ProgramIdBytes ∨ pubkey = dexSolanaV3ProgramIdBytesStaging

instance (pubkey : Pubkey) : Decidable (isDexSolanaV3Program pubkey) :=
  inferInstanceAs (Decidable (_ ∨ _))

/-- The fill of a route, if it is a `SolRfqV2` route with a valid side byte. -/
def fillOfRoute (r : Route) : Option DecodedFill :=
  match r.dex with
  | .solRfqV2 takerSide rfqId expireAt levels => do
    let takerSide ← Side.fromU8 takerSide
    return { takerSide, rfqId, expireAt, levels }
  | .other _ => none

/-- The entrypoint kind and the fills of an instruction's data. -/
def decodeSolrfqv2Legs (data : List UInt8) : Option EntrypointKind × List DecodedFill :=
  match decodeSwapArgs data with
  | none => (none, [])
  | some args => (some args.kind, args.routes.filterMap fillOfRoute)

end SolanaRfq
