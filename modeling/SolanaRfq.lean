import SolanaRfq.Cli.Fills
import SolanaRfq.Decoder.DecodeErrors
import SolanaRfq.Decoder.DecodeTx
import SolanaRfq.Decoder.MakerComplete
import SolanaRfq.Decoder.MakerErrors
import SolanaRfq.Decoder.Paths
import SolanaRfq.Decoder.Policy
import SolanaRfq.Decoder.Refusals
import SolanaRfq.Decoder.Size
import SolanaRfq.Idl.Coverage
import SolanaRfq.Program.Acceptance
import SolanaRfq.Program.Exposure
import SolanaRfq.Program.Instruction
import SolanaRfq.Program.Settlement
import SolanaRfq.Program.SweepUnbounded
