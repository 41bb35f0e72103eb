import FilterQuery.Compiler
import FilterQuery.Literal.Printer
import FilterQuery.Settings.File
import FilterQuery.Proofs.Document.Entries
import FilterQuery.Proofs.Document.Writes
import FilterQuery.Proofs.Document.Status
import FilterQuery.Proofs.Document.Replay
import FilterQuery.Proofs.Compiler.Items
import FilterQuery.Proofs.Operator.Occurrence
import FilterQuery.Proofs.Field.Assignment
import FilterQuery.Proofs.Operator.Standard
import FilterQuery.Proofs.Compiler.Pairs
import FilterQuery.Proofs.Compiler.Modes
import FilterQuery.Proofs.Compiler.Repeat
import FilterQuery.Proofs.Operator.Canonical
import FilterQuery.Proofs.Operator.Grammar
import FilterQuery.Proofs.Field.Encoding
import FilterQuery.Proofs.Value.Guess
import FilterQuery.Proofs.Field.Elements
import FilterQuery.Proofs.Compiler.Membership
import FilterQuery.Proofs.Document.Leaves
import FilterQuery.Proofs.Document.Reorder
import FilterQuery.Proofs.Document.Flatten
import FilterQuery.Proofs.Document.Expand
import FilterQuery.Proofs.Compiler.Overlay
import FilterQuery.Proofs.Compiler.Faults
import FilterQuery.Proofs.Number.Positional
import FilterQuery.Proofs.Compiler.DottedKeys
import FilterQuery.Proofs.Compiler.PlainValues
import FilterQuery.Proofs.Literal.Atoms
import FilterQuery.Proofs.Literal.RoundTrip
import FilterQuery.Proofs.Document.Nest
import FilterQuery.Proofs.Field.Conservation
import FilterQuery.Proofs.Operator.Search
import FilterQuery.Proofs.Operator.Negation
import FilterQuery.Proofs.Compiler.Composite
import FilterQuery.Proofs.Field.Plain
import FilterQuery.Proofs.Document.Lookup
import FilterQuery.Proofs.Compiler.KeyOrder
import FilterQuery.Proofs.Operator.Precedence
import FilterQuery.Proofs.Operator.Coercion
import FilterQuery.Proofs.Number.Decimal
import FilterQuery.Proofs.Operator.Index
import FilterQuery.Proofs.Toml.Strings
import FilterQuery.Proofs.Settings.RoundTrip
import FilterQuery.Proofs.Compiler.Braces
