import Xref.CommandLine
import Xref.Main
import Xref.Proofs.Failure
import Xref.Proofs.Gate
import Xref.Proofs.LineGrammar
import Xref.Proofs.Provenance
import Xref.Proofs.RoundTrip
import Xref.Proofs.Session
import Xref.Proofs.Trail
import Xref.Proofs.Directory
import Xref.Proofs.Rows
import Xref.Proofs.SingleQuery
import Xref.Proofs.DefaultSymbol
import Xref.Proofs.Selection
import Xref.Proofs.Execution
import Xref.Proofs.Jumps
import Xref.Proofs.StatusLine
import Xref.Proofs.FieldSize
import Xref.Proofs.CommandGrammar
import Xref.Proofs.Nearest
import Xref.Proofs.Ancestors
import Xref.Proofs.LineNumbers
import Xref.Proofs.Refusal
import Xref.Proofs.Changes
import Xref.Proofs.Creation
import Xref.Proofs.Validation
import Xref.Proofs.Brackets
import Xref.Proofs.Settings
import Xref.Proofs.PrintedRecords
import Xref.Proofs.BufferSize
import Xref.Proofs.LeadingNumber
import Xref.Proofs.RowReading
