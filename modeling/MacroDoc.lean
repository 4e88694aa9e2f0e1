import MacroDoc.Expansion.Pipeline
import MacroDoc.Main
import MacroDoc.Storage.Memory
import MacroDoc.Proofs.Expansion.Failure
import MacroDoc.Proofs.Expansion.Frame
import MacroDoc.Proofs.Expansion.Priority
import MacroDoc.Proofs.Expansion.Attempts
import MacroDoc.Proofs.Expansion.Spans
import MacroDoc.Proofs.Expansion.Limit
import MacroDoc.Proofs.Forest.MarkerCount
import MacroDoc.Proofs.Expansion.Account
import MacroDoc.Proofs.Forest.Append
import MacroDoc.Proofs.Expansion.Rounds
import MacroDoc.Proofs.Expansion.Parts
import MacroDoc.Proofs.Expansion.Depth
import MacroDoc.Proofs.Expansion.Strictness
import MacroDoc.Proofs.Call.Reread
import MacroDoc.Proofs.Call.Balance
import MacroDoc.Proofs.Source.Fence
import MacroDoc.Proofs.Source.Errors
import MacroDoc.Proofs.Forest.Outline
import MacroDoc.Proofs.Forest.Leaves
import MacroDoc.Proofs.Source.Held
import MacroDoc.Proofs.Source.Reading
import MacroDoc.Proofs.Source.Placeholders
import MacroDoc.Proofs.Source.Invocations
import MacroDoc.Proofs.Forest.Enumeration
import MacroDoc.Proofs.Expansion.Turns
import MacroDoc.Proofs.Expansion.Precedence
import MacroDoc.Proofs.Expansion.Refusals
import MacroDoc.Proofs.Forest.Replacement
import MacroDoc.Proofs.Xml.Written
import MacroDoc.Proofs.Forest.Words
import MacroDoc.Proofs.Macros.Template
import MacroDoc.Proofs.Expansion.History
import MacroDoc.Proofs.Macros.Definitions
import MacroDoc.Proofs.Expansion.Stages
import MacroDoc.Proofs.Dialect
import MacroDoc.Proofs.Command.TestRuns
import MacroDoc.Proofs.Testing.FrontMatter
import MacroDoc.Proofs.Forest.Listing
import MacroDoc.Proofs.Source.Decoding
