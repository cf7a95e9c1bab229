import FormattedOutput.Arg
import FormattedOutput.Binary64
import FormattedOutput.Character.Basic
import FormattedOutput.Character.Invisible
import FormattedOutput.Character.Mark
import FormattedOutput.Character.Unassigned
import FormattedOutput.Console
import FormattedOutput.Decimal.Basic
import FormattedOutput.Decimal.Shortest
import FormattedOutput.Directive.Basic
import FormattedOutput.Directive.Parser
import FormattedOutput.Directive.Symbol
import FormattedOutput.Fault
import FormattedOutput.Field
import FormattedOutput.Format
import FormattedOutput.Lock.Steps
import FormattedOutput.Lock.Ticket
import FormattedOutput.Main
import FormattedOutput.Number.Digits
import FormattedOutput.Number.Float
import FormattedOutput.Number.FloatParts
import FormattedOutput.Number.Integer
import FormattedOutput.Piece
import FormattedOutput.Power
import FormattedOutput.PowerTable.Generated
import FormattedOutput.PowerTable.Rebuild
import FormattedOutput.PowerTable.Stored
import FormattedOutput.PowerTable.Word
import FormattedOutput.Proofs.Arithmetic
import FormattedOutput.Proofs.Binary64.Rounding
import FormattedOutput.Proofs.Console.Sessions
import FormattedOutput.Proofs.Decimal.Coarsest
import FormattedOutput.Proofs.Decimal.Cutting
import FormattedOutput.Proofs.Decimal.Divisors
import FormattedOutput.Proofs.Decimal.Endings
import FormattedOutput.Proofs.Decimal.Keeping
import FormattedOutput.Proofs.Decimal.Nearest
import FormattedOutput.Proofs.Decimal.Quotients
import FormattedOutput.Proofs.Decimal.Scaling
import FormattedOutput.Proofs.Decimal.Shortest
import FormattedOutput.Proofs.Decimal.Significant
import FormattedOutput.Proofs.Decimal.Values
import FormattedOutput.Proofs.Directive.Consumption
import FormattedOutput.Proofs.Directive.Gifts
import FormattedOutput.Proofs.Directive.Invariant
import FormattedOutput.Proofs.Directive.Language
import FormattedOutput.Proofs.Directive.Marks
import FormattedOutput.Proofs.Directive.Precision
import FormattedOutput.Proofs.Directive.Reach
import FormattedOutput.Proofs.Directive.Sources
import FormattedOutput.Proofs.Field.Filling
import FormattedOutput.Proofs.Format.Demand
import FormattedOutput.Proofs.Format.FloatText
import FormattedOutput.Proofs.Format.IntegerText
import FormattedOutput.Proofs.Format.OneDirective
import FormattedOutput.Proofs.Format.Order
import FormattedOutput.Proofs.Format.Renderers
import FormattedOutput.Proofs.Format.Room
import FormattedOutput.Proofs.Format.Splitting
import FormattedOutput.Proofs.Format.Stars
import FormattedOutput.Proofs.Format.StringText
import FormattedOutput.Proofs.Lock.Holding
import FormattedOutput.Proofs.Loop
import FormattedOutput.Proofs.NearMultiples
import FormattedOutput.Proofs.Number.DecimalText
import FormattedOutput.Proofs.Number.DigitRows
import FormattedOutput.Proofs.Number.Digits
import FormattedOutput.Proofs.Number.FloatRows
import FormattedOutput.Proofs.Number.HexRows
import FormattedOutput.Proofs.Number.HexText
import FormattedOutput.Proofs.Number.IntegerText
import FormattedOutput.Proofs.Number.Layouts
import FormattedOutput.Proofs.Number.Numeral
import FormattedOutput.Proofs.Number.Opening
import FormattedOutput.Proofs.Number.Order
import FormattedOutput.Proofs.Number.ReadBack
import FormattedOutput.Proofs.Number.Rows
import FormattedOutput.Proofs.Number.Spelling
import FormattedOutput.Proofs.PowerTable.Products
import FormattedOutput.Proofs.PowerTable.Shifts
import FormattedOutput.Proofs.RoundTrip
import FormattedOutput.Proofs.Sink.Agreement
import FormattedOutput.Proofs.Tool.Command
import FormattedOutput.Quoted
import FormattedOutput.Renderer
import FormattedOutput.Segment
import FormattedOutput.Sink.Basic
import FormattedOutput.Sink.Bounded
import FormattedOutput.Sink.Steps
import FormattedOutput.Tool.Command
import FormattedOutput.Tool.TableSource
import FormattedOutput.Tool.Workspace
