import NibbleMachine.Text.Blank
import NibbleMachine.Text.Lines
import NibbleMachine.Text.Lower
import NibbleMachine.Text.Quoted
import NibbleMachine.Text.Replace
import NibbleMachine.Numeral.Binary
import NibbleMachine.Numeral.Decimal
import NibbleMachine.Numeral.Literal
import NibbleMachine.Numeral.Operand
import NibbleMachine.Field
import NibbleMachine.Word
import NibbleMachine.Register
import NibbleMachine.Command
import NibbleMachine.Abbreviation
import NibbleMachine.Instruction
import NibbleMachine.Instruction.Record
import NibbleMachine.Problem
import NibbleMachine.Diagnostics
import NibbleMachine.Fault
import NibbleMachine.Assembly
import NibbleMachine.Session
import NibbleMachine.Image
import NibbleMachine.Image.Reader
import NibbleMachine.Image.Table
import NibbleMachine.Path
import NibbleMachine.Workspace
import NibbleMachine.CommandLine.Assemble
import NibbleMachine.CommandLine.Dump
import NibbleMachine.Main
import NibbleMachine.Proofs.Text
import NibbleMachine.Proofs.LineEnds
import NibbleMachine.Proofs.Sweep
import NibbleMachine.Proofs.Operand
import NibbleMachine.Proofs.Symbols
import NibbleMachine.Proofs.Resolution
import NibbleMachine.Proofs.Layout
import NibbleMachine.Proofs.Encoding
import NibbleMachine.Proofs.Image
import NibbleMachine.Proofs.Instruction
import NibbleMachine.Proofs.Disassembly
import NibbleMachine.Proofs.Grammar
import NibbleMachine.Proofs.RoundTrip
import NibbleMachine.Proofs.DigitLimit
import NibbleMachine.Proofs.Findings
import NibbleMachine.Proofs.Target
import NibbleMachine.Proofs.Labels
import NibbleMachine.Proofs.Renumbering
import NibbleMachine.Proofs.Relocation
import NibbleMachine.Proofs.Cleaning
import NibbleMachine.Proofs.Program
import NibbleMachine.Proofs.Listing
import NibbleMachine.Proofs.Interleaving
import NibbleMachine.Proofs.SourceText
import NibbleMachine.Proofs.Expansion
import NibbleMachine.Proofs.Passage
import NibbleMachine.Proofs.Spelling
import NibbleMachine.Proofs.Roles
import NibbleMachine.Proofs.Accounting
import NibbleMachine.Proofs.Repair
import NibbleMachine.Proofs.History
import NibbleMachine.Proofs.SessionFaults
import NibbleMachine.Proofs.Repetition
import NibbleMachine.Proofs.ImageText
import NibbleMachine.Proofs.Literal
import NibbleMachine.Proofs.Workspace
import NibbleMachine.Proofs.CommandLine
import NibbleMachine.Proofs.EncodedRows
import NibbleMachine.Proofs.WrittenFiles
import NibbleMachine.Proofs.SubstitutionOrder
import NibbleMachine.Proofs.WordIdentity
import NibbleMachine.Proofs.SolidTokens
import NibbleMachine.Proofs.TableText
import NibbleMachine.Proofs.Field
import NibbleMachine.Proofs.Positional
import NibbleMachine.Proofs.Packing
import NibbleMachine.Proofs.NumeralText
