import StarlarkPrinter.Emission.FaultySink
import StarlarkPrinter.Emission.Replay
import StarlarkPrinter.Printing.Printer
import StarlarkPrinter.Tree.Numeral
import StarlarkPrinter.Proofs.Plan
import StarlarkPrinter.Proofs.Factorisation
import StarlarkPrinter.Proofs.Renderable
import StarlarkPrinter.Proofs.LayoutIndependence
import StarlarkPrinter.Proofs.Unquote
import StarlarkPrinter.Proofs.Chars
import StarlarkPrinter.Proofs.Grammar
import StarlarkPrinter.Proofs.Reader
import StarlarkPrinter.Proofs.Readability
import StarlarkPrinter.Proofs.Path
import StarlarkPrinter.Proofs.Payload
import StarlarkPrinter.Proofs.LineShift
import StarlarkPrinter.Proofs.Bracketing
import StarlarkPrinter.Proofs.TripleQuoted
import StarlarkPrinter.Proofs.Occurrences
import StarlarkPrinter.Proofs.Breadcrumbs
import StarlarkPrinter.Proofs.Settings
import StarlarkPrinter.Proofs.OptionsRun
import StarlarkPrinter.Proofs.Outcome
import StarlarkPrinter.Proofs.Blocks
import StarlarkPrinter.Proofs.BlockReader
import StarlarkPrinter.Proofs.BlockReadability
import StarlarkPrinter.Proofs.SelfDelimiting
import StarlarkPrinter.Proofs.DocstringEnd
import StarlarkPrinter.Proofs.DocstringMargin
import StarlarkPrinter.Proofs.OptionOrder
import StarlarkPrinter.Proofs.DepthLinearity
import StarlarkPrinter.Proofs.IntegerLiterals
import StarlarkPrinter.Proofs.SequenceLayout
import StarlarkPrinter.Proofs.LoadBindings
