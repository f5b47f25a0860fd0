import Joinery.Console
import Joinery.Console.Layout
import Joinery.Duration
import Joinery.Estimate.Breakdown
import Joinery.Estimate.Summary
import Joinery.Formula.Evaluation
import Joinery.Formula.Lint
import Joinery.Formula.Shown
import Joinery.Main
import Joinery.Product.Edit
import Joinery.Proofs.Component.Fresh
import Joinery.Proofs.Formula.Grammar
import Joinery.Proofs.Formula.Meaning
import Joinery.Proofs.Formula.Failure
import Joinery.Proofs.Number.Bound
import Joinery.Proofs.Outcome
import Joinery.Rates.Sheet
import Joinery.Resources
import Joinery.Proofs.Datum.Measure
import Joinery.Proofs.Estimate.Totals
import Joinery.Proofs.Product.Reach
import Joinery.Proofs.Product.Fresh
import Joinery.Proofs.Catalog.Names
import Joinery.Proofs.Record.Field
import Joinery.Proofs.Record.Reference
import Joinery.Proofs.Duration.Equality
import Joinery.Proofs.Record.Component
import Joinery.Proofs.Settings.Defaults
import Joinery.Proofs.Record.Product
import Joinery.Proofs.Record.Equality
import Joinery.Proofs.Record.RoundTrip
import Joinery.Proofs.Formula.Literal
import Joinery.Proofs.Component.Refusal
import Joinery.Proofs.Product.Refusal
import Joinery.Proofs.Estimate.Reports
import Joinery.Proofs.Number.Order
import Joinery.Proofs.Number.Monotone
import Joinery.Proofs.Datum.Double
import Joinery.Proofs.Catalog.Double
import Joinery.Proofs.Estimate.Work
import Joinery.Proofs.Record.Plain
import Joinery.Proofs.Record.Readable
import Joinery.Proofs.Record.Estimate
import Joinery.Proofs.Datum.Giant
import Joinery.Proofs.Formula.Answer
import Joinery.Proofs.Record.Reading
import Joinery.Proofs.Record.Fault
import Joinery.Proofs.Record.Refused
import Joinery.Proofs.Json.Depth
import Joinery.Proofs.Settings.Packaged
import Joinery.Proofs.Record.Import
import Joinery.Proofs.Moment.Read
import Joinery.Proofs.Record.Settled
import Joinery.Proofs.Record.Library
import Joinery.Proofs.Record.Reimport
import Joinery.Proofs.Number.Nearest
import Joinery.Proofs.Number.Quotient
import Joinery.Proofs.Number.Cents
import Joinery.Proofs.Number.Shortest
import Joinery.Proofs.Number.Sum
import Joinery.Proofs.Estimate.Cents
import Joinery.Proofs.Duration.Seen
import Joinery.Proofs.Estimate.Order
import Joinery.Proofs.Estimate.Priced
import Joinery.Proofs.Product.Distinct
import Joinery.Proofs.Keyed
import Joinery.Proofs.Formula.Unbound
import Joinery.Proofs.Catalog.Strict
import Joinery.Proofs.Duration.Environment
import Joinery.Proofs.Duration.Unbound
import Joinery.Proofs.Record.Derived
import Joinery.Proofs.Settings.Unread
import Joinery.Proofs.Number.Unsigned
import Joinery.Proofs.Component.Valid
import Joinery.Proofs.Product.Valid
import Joinery.Proofs.Record.Valid
import Joinery.Proofs.Product.Arises
import Joinery.Proofs.Formula.Unsigned
import Joinery.Proofs.Duration.Unsigned
import Joinery.Proofs.Component.Unsigned
import Joinery.Proofs.Formula.Run
import Joinery.Proofs.Formula.Sequence
import Joinery.Proofs.Catalog.Authoring
import Joinery.Proofs.Rates.Accepted
import Joinery.Proofs.Estimate.Share
import Joinery.Proofs.Estimate.Completion
import Joinery.Proofs.Component.Status
import Joinery.Proofs.Formula.Support
import Joinery.Proofs.Formula.Overflow
import Joinery.Proofs.Duration.Vanished
import Joinery.Proofs.Duration.Precedence
import Joinery.Proofs.Component.AddRemove
import Joinery.Proofs.Product.AddRemove
import Joinery.Proofs.Text.Key
import Joinery.Proofs.Rates.Override
import Joinery.Proofs.Rates.Sheet
import Joinery.Proofs.Number.Neighbor
import Joinery.Proofs.Number.Basin
import Joinery.Proofs.Number.Read
import Joinery.Proofs.Number.Correct
import Joinery.Proofs.Estimate.Portion
import Joinery.Proofs.Estimate.Progress
import Joinery.Proofs.Duration.Faultless
import Joinery.Proofs.Record.Shared
import Joinery.Unchecked
import Joinery.Proofs.Unchecked.Checked
import Joinery.Proofs.Unchecked.Editing
import Joinery.Proofs.Datum.Path
import Joinery.Proofs.Settings.Merge
import Joinery.Proofs.Formula.Cut
import Joinery.Proofs.Catalog.Referable
import Joinery.Proofs.Formula.Replace
import Joinery.Proofs.Formula.Shown
import Joinery.Proofs.Number.Rounded
import Joinery.Proofs.Datum.Order
import Joinery.Proofs.Duration.Bigger
import Joinery.Proofs.Estimate.Bigger
import Joinery.Proofs.Identity
import Joinery.Proofs.Text.Runs
import Joinery.Proofs.Formula.Yard
