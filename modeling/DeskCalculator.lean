import DeskCalculator.Calculator.Desk
import DeskCalculator.Clock.Reading
import DeskCalculator.Display.Faultless
import DeskCalculator.Expr.Group
import DeskCalculator.Failure
import DeskCalculator.History.Shelf
import DeskCalculator.Journal.Chain
import DeskCalculator.Journal.Event
import DeskCalculator.Number.Bounds
import DeskCalculator.Settings.Admitted
import DeskCalculator.Proofs.Precedence
import DeskCalculator.Proofs.Yard
import DeskCalculator.Proofs.Evaluation
import DeskCalculator.Proofs.Entering
import DeskCalculator.Proofs.Reading
import DeskCalculator.Proofs.Writing
import DeskCalculator.Proofs.Nearest
import DeskCalculator.Proofs.Overflow
import DeskCalculator.Proofs.Keypad
import DeskCalculator.Proofs.ReadBack
import DeskCalculator.Proofs.Operations
import DeskCalculator.Proofs.Coherent
import DeskCalculator.Proofs.ErrorFlag
import DeskCalculator.Proofs.Readable
import DeskCalculator.Proofs.LastResult
import DeskCalculator.Proofs.SecondOperand
import DeskCalculator.Proofs.Failing
import DeskCalculator.Proofs.Newest
import DeskCalculator.Proofs.Reopening
import DeskCalculator.Proofs.Retention
import DeskCalculator.Proofs.Timestamps
import DeskCalculator.Proofs.Recording
import DeskCalculator.Proofs.Finished
import DeskCalculator.Proofs.Tiers
import DeskCalculator.Proofs.Loading
import DeskCalculator.Proofs.Bystander
import DeskCalculator.Proofs.Spelling
import DeskCalculator.Proofs.RoundTrip
import DeskCalculator.Proofs.HalfStep
import DeskCalculator.Proofs.Grid
import DeskCalculator.Proofs.Mantissa
import DeskCalculator.Proofs.Scaling
import DeskCalculator.Proofs.Width
import DeskCalculator.Proofs.Panels
import DeskCalculator.Proofs.Rescaling
import DeskCalculator.Proofs.TwoPaths
import DeskCalculator.Proofs.Modes
import DeskCalculator.Proofs.Shown
import DeskCalculator.Proofs.Numbered
import DeskCalculator.Proofs.Recalling
import DeskCalculator.Proofs.Steady
import DeskCalculator.Proofs.Integers
import DeskCalculator.Proofs.Accuracy
import DeskCalculator.Proofs.Percentage
import DeskCalculator.Proofs.Unary
import DeskCalculator.Proofs.Verdict
import DeskCalculator.Proofs.Provenance
import DeskCalculator.Proofs.Heights
import DeskCalculator.Proofs.LeftFold
import DeskCalculator.Proofs.Words
import DeskCalculator.Proofs.Formed
import DeskCalculator.Proofs.Canonical
import DeskCalculator.Proofs.Marker
import DeskCalculator.Proofs.Fetching
import DeskCalculator.Proofs.Merging
import DeskCalculator.Proofs.Milliseconds
import DeskCalculator.Proofs.Chronology
import DeskCalculator.Proofs.Aftermath
import DeskCalculator.Proofs.Extent
import DeskCalculator.Proofs.Brimming
import DeskCalculator.Proofs.BothEnds
