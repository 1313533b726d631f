import Eaves.Address.Basic
import Eaves.Address.Fault
import Eaves.Address.Host
import Eaves.Address.Label
import Eaves.Address.Punycode
import Eaves.Answer.Layer
import Eaves.Answer.Settle
import Eaves.Bounds
import Eaves.Check.Design
import Eaves.Check.Spacing
import Eaves.Check.Verdict
import Eaves.Command.Desk
import Eaves.Command.Invocation
import Eaves.Command.Report
import Eaves.Command.Run
import Eaves.Command.Screen
import Eaves.Command.Switch
import Eaves.Design.Intent
import Eaves.Design.Layer
import Eaves.Device.Address
import Eaves.Device.Delivery
import Eaves.Device.Payload
import Eaves.Document.Cursor
import Eaves.Document.Literal
import Eaves.Document.Load
import Eaves.Document.Node
import Eaves.Document.Plain
import Eaves.Document.Quote
import Eaves.Document.Scalar
import Eaves.Document.Token
import Eaves.Failure
import Eaves.Files.Path
import Eaves.Files.Tree
import Eaves.Journal.Filling
import Eaves.Journal.Instant
import Eaves.Journal.Note
import Eaves.Journal.Setup
import Eaves.Journal.Template
import Eaves.Light.Color
import Eaves.Main
import Eaves.Motion
import Eaves.Number.Binary64
import Eaves.Number.Clamp
import Eaves.Number.Decimal
import Eaves.Number.Power
import Eaves.Number.Scalar
import Eaves.Number.Scientific
import Eaves.Outside.Disk
import Eaves.Outside.Http
import Eaves.Pixels.Canvas
import Eaves.Pixels.Compose
import Eaves.Pixels.Downlight
import Eaves.Pixels.Group
import Eaves.Pixels.Patterned
import Eaves.Pixels.Spaced
import Eaves.Problem
import Eaves.Prompt.Clause
import Eaves.Prompt.ColorNames
import Eaves.Prompt.Normal
import Eaves.Prompt.Parse
import Eaves.Prompt.Phrasebook
import Eaves.Prompt.SpacingPhrase
import Eaves.Proofs.Answer.Alike
import Eaves.Proofs.Answer.Change
import Eaves.Proofs.Answer.InTurn
import Eaves.Proofs.Answer.Possible
import Eaves.Proofs.Answer.Ranking
import Eaves.Proofs.Answer.Recommended
import Eaves.Proofs.Answer.Settling
import Eaves.Proofs.Answer.Spacing
import Eaves.Proofs.Answer.Step
import Eaves.Proofs.Check.Naming
import Eaves.Proofs.Check.Neighbours
import Eaves.Proofs.Check.Safety
import Eaves.Proofs.Check.Suggestions
import Eaves.Proofs.Check.Validation
import Eaves.Proofs.Command.Accepting
import Eaves.Proofs.Command.Status
import Eaves.Proofs.Design.Conflicts
import Eaves.Proofs.Design.Within
import Eaves.Proofs.Device.Delivery
import Eaves.Proofs.Device.Listing
import Eaves.Proofs.Device.Waits
import Eaves.Proofs.Files.Proper
import Eaves.Proofs.Files.Site
import Eaves.Proofs.Light.Hexadecimal
import Eaves.Proofs.Number.Finite
import Eaves.Proofs.Number.Grid
import Eaves.Proofs.Number.Shortest
import Eaves.Proofs.Outcome
import Eaves.Proofs.Pixels.AnchorGaps
import Eaves.Proofs.Pixels.Anchors
import Eaves.Proofs.Pixels.Canvas
import Eaves.Proofs.Pixels.Composition
import Eaves.Proofs.Pixels.Cycle
import Eaves.Proofs.Pixels.EvenCount
import Eaves.Proofs.Pixels.EvenGaps
import Eaves.Proofs.Pixels.ExactSpread
import Eaves.Proofs.Pixels.Gradient
import Eaves.Proofs.Pixels.Groups
import Eaves.Proofs.Pixels.Merging
import Eaves.Proofs.Pixels.Moved
import Eaves.Proofs.Pixels.Offsets
import Eaves.Proofs.Pixels.Rangewise
import Eaves.Proofs.Pixels.Spread
import Eaves.Proofs.Pixels.Templates
import Eaves.Proofs.Prompt.Assumed
import Eaves.Proofs.Prompt.Clauses
import Eaves.Proofs.Prompt.Count
import Eaves.Proofs.Prompt.Flags
import Eaves.Proofs.Prompt.Mentions
import Eaves.Proofs.Prompt.NormalForm
import Eaves.Proofs.Prompt.SpelledSpacing
import Eaves.Proofs.Question.Alike
import Eaves.Proofs.Question.Asking
import Eaves.Proofs.Question.Fading
import Eaves.Proofs.Question.LastOption
import Eaves.Proofs.Question.Offers
import Eaves.Proofs.Question.Previews
import Eaves.Proofs.Question.Recommending
import Eaves.Proofs.Record.Document
import Eaves.Proofs.Record.Form
import Eaves.Proofs.Record.Settings
import Eaves.Proofs.Record.Written
import Eaves.Proofs.Roofline.Edits
import Eaves.Proofs.Roofline.Lookup
import Eaves.Proofs.Roofline.Undoing
import Eaves.Proofs.Session.Adoption
import Eaves.Proofs.Session.Failing
import Eaves.Proofs.Session.Forms
import Eaves.Proofs.Session.Kept
import Eaves.Proofs.Session.OpenSpacing
import Eaves.Proofs.Session.Opening
import Eaves.Proofs.Session.Prompted
import Eaves.Proofs.Session.Reloaded
import Eaves.Proofs.Session.Rounds
import Eaves.Proofs.Session.Run
import Eaves.Proofs.Session.Valid
import Eaves.Proofs.Sorting
import Eaves.Proofs.Store.Agreement
import Eaves.Proofs.Store.Confinement
import Eaves.Proofs.Store.Interrupted
import Eaves.Proofs.Store.Listing
import Eaves.Proofs.Store.Mirror
import Eaves.Proofs.Store.Records
import Eaves.Proofs.Store.Shelf
import Eaves.Proofs.Store.Steps
import Eaves.Proofs.Text.Decimal
import Eaves.Proofs.Text.Lowercase
import Eaves.Proofs.Text.Numeral
import Eaves.Proofs.Text.Search
import Eaves.Proofs.Text.Words
import Eaves.Proofs.Value.Document
import Eaves.Proofs.Value.Numeral
import Eaves.Proofs.Value.Scanning
import Eaves.Proofs.Zone.Apart
import Eaves.Proofs.Zone.Ranges
import Eaves.Question.Ask
import Eaves.Question.Basic
import Eaves.Question.Preview
import Eaves.Record.Design
import Eaves.Record.Findings
import Eaves.Record.Numeral
import Eaves.Record.Pixels
import Eaves.Record.Question
import Eaves.Record.Reader
import Eaves.Record.Results
import Eaves.Record.Selector
import Eaves.Record.Settings
import Eaves.Record.Strip
import Eaves.Record.Time
import Eaves.Roofline.Basic
import Eaves.Roofline.Segment
import Eaves.Roofline.Shape
import Eaves.Session.Basic
import Eaves.Session.Keep
import Eaves.Session.Show
import Eaves.Settings.Basic
import Eaves.Spacing.Basic
import Eaves.Store.Directory
import Eaves.Store.Record
import Eaves.Store.Repository
import Eaves.Text.Blank
import Eaves.Text.Lowercase
import Eaves.Text.Numeral
import Eaves.Text.Printable
import Eaves.Text.Quoted
import Eaves.Text.Search
import Eaves.Value.Basic
import Eaves.Value.Json
import Eaves.Value.Literal
import Eaves.Word
import Eaves.Zone.Basic
import Eaves.Zone.Resolve
