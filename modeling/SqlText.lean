import SqlText.Config
import SqlText.Fetch
import SqlText.Log
import SqlText.Statement.Assembly
import SqlText.Statement.Reading
import SqlText.Statement.Writing
import SqlText.Proofs.Call
import SqlText.Proofs.Strictness
import SqlText.Proofs.NameText
import SqlText.Proofs.NumeralText
import SqlText.Proofs.QuoteScan
import SqlText.Proofs.Rendering
import SqlText.Proofs.TemplateQuotes
import SqlText.Proofs.Grammar.Reader
import SqlText.Proofs.Grammar.Leaf
import SqlText.Proofs.Grammar.Term
import SqlText.Proofs.Grammar.Change
import SqlText.Proofs.Grammar.Clause
import SqlText.Proofs.Grammar.Selection
import SqlText.Proofs.TemplateScan
import SqlText.Proofs.Pairing
import SqlText.Proofs.Demands
import SqlText.Proofs.Composition
import SqlText.Proofs.Grammar.StringLiteral
import SqlText.Proofs.Outside
import SqlText.Proofs.Reports
import SqlText.Proofs.Problems
import SqlText.Proofs.TemplateSpelling
import SqlText.Proofs.Session
import SqlText.Proofs.DigitText
import SqlText.Proofs.Carry
import SqlText.Proofs.FixedPoint
import SqlText.Proofs.Finiteness
import SqlText.Proofs.NumeralGrammar
import SqlText.Proofs.Misfits
import SqlText.Proofs.Acceptance
import SqlText.Proofs.LenientReports
import SqlText.Proofs.Json.Tree
import SqlText.Proofs.Json.Leaf
import SqlText.Proofs.Json.Text
import SqlText.Proofs.Json.Slots
import SqlText.Proofs.Description.Shown
import SqlText.Proofs.Description.Reading
import SqlText.Proofs.Description.RoundTrip
import SqlText.Proofs.Grammar.FieldMap
import SqlText.Proofs.Grammar.NameSpelling
import SqlText.Proofs.Conditions
import SqlText.Proofs.Indexing
import SqlText.Proofs.KeyOrder
import SqlText.Proofs.Json.Conversion
import SqlText.Proofs.Rounding
import SqlText.Proofs.IntegerText
import SqlText.Proofs.Clamping
import SqlText.Proofs.BlankNames
import SqlText.Proofs.Shortening
import SqlText.Proofs.SingleScan
import SqlText.Proofs.Skeleton
