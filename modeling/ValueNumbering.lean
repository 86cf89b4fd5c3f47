import ValueNumbering.Main
import ValueNumbering.IR.Builder
import ValueNumbering.Proofs.Numbering.Actions
import ValueNumbering.Proofs.Numbering.Symbolic
import ValueNumbering.Proofs.Numbering.Known
import ValueNumbering.Proofs.Numbering.Meaning
import ValueNumbering.Proofs.Numbering.SymbolicEquality
import ValueNumbering.Proofs.Numbering.LookBack
import ValueNumbering.Proofs.Numbering.LookBackAgreement
import ValueNumbering.Proofs.Assembly.OperandTexts
import ValueNumbering.Proofs.Assembly.Coherent
import ValueNumbering.Proofs.Assembly.Definitions
import ValueNumbering.Proofs.Assembly.Drafts
import ValueNumbering.Proofs.Assembly.Consistency
import ValueNumbering.Proofs.Assembly.Coreference
import ValueNumbering.Proofs.Assembly.OperandIdentity
import ValueNumbering.Proofs.Assembly.RegularLines
import ValueNumbering.Proofs.Numbering.Stopping
import ValueNumbering.Proofs.Numbering.StoredNumbers
import ValueNumbering.Proofs.Numbering.Completion
import ValueNumbering.Proofs.Assembly.SingleAssignment
import ValueNumbering.Proofs.Numbering.Repetition
import ValueNumbering.Proofs.Assembly.OperationTypes
import ValueNumbering.Proofs.Assembly.RepeatedOperations
import ValueNumbering.Proofs.Assembly.RoundTrip
import ValueNumbering.Proofs.Assembly.FunctionAlone
import ValueNumbering.Proofs.Building.SameNumbers
import ValueNumbering.Proofs.Numbering.ExchangedOperands
import ValueNumbering.Proofs.Numbering.SharedLiterals
import ValueNumbering.Proofs.Numbering.SharingPattern
import ValueNumbering.Proofs.Numbering.NumbersHeld
import ValueNumbering.Proofs.Numbering.Accounting
import ValueNumbering.Proofs.Pass.Calls
import ValueNumbering.Proofs.Pass.Counts
import ValueNumbering.Proofs.Pass.ModuleRun
import ValueNumbering.Proofs.Json.Distinct
import ValueNumbering.Proofs.Text.Encoding
import ValueNumbering.Proofs.Pass.Documents
import ValueNumbering.Proofs.Pass.Printing
import ValueNumbering.Proofs.Pass.Effective
import ValueNumbering.Proofs.CommandLine.Pipelines
import ValueNumbering.Proofs.Pass.Diagnostics
import ValueNumbering.Proofs.CommandLine.Requests
import ValueNumbering.Proofs.CommandLine.Inputs
import ValueNumbering.Proofs.CommandLine.Spellings
import ValueNumbering.Proofs.CommandLine.Output
import ValueNumbering.Proofs.CommandLine.Reports
import ValueNumbering.Proofs.Assembly.Refusals
import ValueNumbering.Proofs.Pass.Success
import ValueNumbering.Proofs.CommandLine.Exits
import ValueNumbering.Proofs.Assembly.UndefinedValues
import ValueNumbering.Proofs.Assembly.ParameterLists
import ValueNumbering.Proofs.Assembly.ValueTypes
import ValueNumbering.Proofs.Assembly.SignatureTypes
import ValueNumbering.Proofs.Assembly.AccessLines
import ValueNumbering.Proofs.Assembly.MemoryAccesses
import ValueNumbering.Proofs.CommandLine.TextFiles
import ValueNumbering.Proofs.Numbering.DiagnosticLines
import ValueNumbering.Proofs.Building.Layout
import ValueNumbering.Proofs.Assembly.LineNumbers
import ValueNumbering.Proofs.Assembly.CommentEdits
import ValueNumbering.Proofs.Assembly.MetadataText
import ValueNumbering.Proofs.Assembly.ChangedText
import ValueNumbering.Proofs.Assembly.OperationLines
import ValueNumbering.Proofs.Assembly.AttachedMetadata
import ValueNumbering.Proofs.Text.CommaLists
import ValueNumbering.Proofs.Assembly.ImplicitSlots
import ValueNumbering.Proofs.Assembly.ParameterSlots
