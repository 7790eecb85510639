import StyleCalc.Double
import StyleCalc.Node.Equality
import StyleCalc.Scan
import StyleCalc.Configuration.Loading
import StyleCalc.Proofs.Lexical
import StyleCalc.Proofs.Outcome
import StyleCalc.Proofs.NormalForm
import StyleCalc.Proofs.Kinding
import StyleCalc.Proofs.Scoping
import StyleCalc.Proofs.Descent
import StyleCalc.Proofs.Propagation
import StyleCalc.Proofs.Nesting
import StyleCalc.Proofs.Rebuilding
import StyleCalc.Proofs.Termination
import StyleCalc.Proofs.Inlining
import StyleCalc.Proofs.Relevance
import StyleCalc.Proofs.Cycle
import StyleCalc.Proofs.Sides
import StyleCalc.Proofs.Addresses
import StyleCalc.Proofs.Finite
import StyleCalc.Proofs.Agreement
import StyleCalc.Proofs.Scanner
import StyleCalc.Proofs.Nearest
import StyleCalc.Proofs.Scientific
import StyleCalc.Proofs.Positional
import StyleCalc.Proofs.Shortest
import StyleCalc.Proofs.Readback
import StyleCalc.Proofs.Printing
import StyleCalc.Proofs.Framing
import StyleCalc.Proofs.Markers
import StyleCalc.Proofs.Pieces
import StyleCalc.Proofs.Grammar
import StyleCalc.Proofs.Regrouping
import StyleCalc.Proofs.Loading
import StyleCalc.Proofs.UnitSizes
import StyleCalc.Proofs.Joining
import StyleCalc.Proofs.Spelling
import StyleCalc.Proofs.Opposites
import StyleCalc.Proofs.OperandOrder
import StyleCalc.Proofs.Rereading
import StyleCalc.Proofs.ScannedLiterals
import StyleCalc.Proofs.Nameless
import StyleCalc.Proofs.Quoting
import StyleCalc.Proofs.HostText
import StyleCalc.Proofs.UrlText
import StyleCalc.Proofs.UrlReading
import StyleCalc.Proofs.QuotedAddresses
