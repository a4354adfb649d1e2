import DrawScript.Command.Folder
import DrawScript.Main
import DrawScript.Proofs.Module.Dump
import DrawScript.Proofs.Script.RoundTrip
import DrawScript.Proofs.Script.Soundness
import DrawScript.Proofs.Script.Layout
import DrawScript.Proofs.Module.Sections
import DrawScript.Proofs.Log
import DrawScript.Proofs.Script.Concatenation
import DrawScript.Proofs.Script.Nesting
import DrawScript.Proofs.Script.Invariants
import DrawScript.Proofs.Module.FirstError
import DrawScript.Proofs.Module.Typing
import DrawScript.Proofs.Instruction.Registry
import DrawScript.Proofs.Text.Bytes
import DrawScript.Proofs.Toml.Strings
import DrawScript.Proofs.Toml.Rows
import DrawScript.Proofs.Instruction.Storage
import DrawScript.Proofs.Instruction.Order
import DrawScript.Proofs.Instruction.Reduction
import DrawScript.Proofs.Data.Tuples
import DrawScript.Proofs.Data.Elements
import DrawScript.Proofs.Data.Table
import DrawScript.Proofs.Data.Columns
import DrawScript.Proofs.Token.Scanner
import DrawScript.Proofs.Script.Simulation
import DrawScript.Proofs.Script.Readings
import DrawScript.Proofs.Script.ErrorPlace
import DrawScript.Proofs.Instruction.Validation
import DrawScript.Proofs.Script.Settled
import DrawScript.Proofs.Module.Layout
import DrawScript.Proofs.Script.LetterCase
import DrawScript.Proofs.Instruction.Broadcasting
import DrawScript.Proofs.Script.Encoding
import DrawScript.Proofs.Command.Input
import DrawScript.Proofs.Script.Progress
