import Mips32.Instruction
import Mips32.Signals
import Mips32.Literal
import Mips32.Json.Value
import Mips32.Config
import Mips32.Report
import Mips32.Log
import Mips32.Session
import Mips32.Outcome
import Mips32.Main
import Mips32.Proofs.Packing
import Mips32.Proofs.Mnemonics
import Mips32.Proofs.Decoding
import Mips32.Proofs.Disassembly
import Mips32.Proofs.Trimming
import Mips32.Proofs.Literals
import Mips32.Proofs.Sessions
import Mips32.Proofs.Selection
import Mips32.Proofs.Json.Numerals
import Mips32.Proofs.Json.Strings
import Mips32.Proofs.Json.Lexemes
import Mips32.Proofs.Json.Texts
import Mips32.Proofs.Reports
import Mips32.Proofs.Records
import Mips32.Proofs.Json.Skipping
import Mips32.Proofs.Json.Readers
import Mips32.Proofs.Json.Schemas
import Mips32.Proofs.Configuration
import Mips32.Proofs.Formatting
import Mips32.Proofs.Batches
import Mips32.Proofs.Runs
import Mips32.Proofs.Styles
import Mips32.Proofs.Quoting
import Mips32.Proofs.Logging
import Mips32.Proofs.Tiling
import Mips32.Proofs.Control
import Mips32.Proofs.Resolution
import Mips32.Proofs.ReadBack
import Mips32.Proofs.Operands
import Mips32.Proofs.Notes
import Mips32.Proofs.Settings
import Mips32.Proofs.Failures
import Mips32.Proofs.Names
import Mips32.Proofs.Messages
import Mips32.Proofs.Separators
