import Typeahead.Fault
import Typeahead.Index
import Typeahead.Notice
import Typeahead.Text.Basic
import Typeahead.Text.Blank
import Typeahead.Text.Bytes
import Typeahead.Text.Digit
import Typeahead.Text.Graphic
import Typeahead.Text.Letter
import Typeahead.Text.Lowercase
import Typeahead.Text.Order
import Typeahead.Text.Quoted
import Typeahead.Text.Terminal
import Typeahead.Number.Binary64
import Typeahead.Number.Numeral
import Typeahead.Number.Shortest
import Typeahead.Number.Word
import Typeahead.Json.Basic
import Typeahead.Json.Reader
import Typeahead.Json.Spelling
import Typeahead.Json.Token
import Typeahead.Json.Writer
import Typeahead.World.Change
import Typeahead.World.Image
import Typeahead.World.Lookup
import Typeahead.World.Path
import Typeahead.World.Programs
import Typeahead.World.Tree
import Typeahead.Grammar.Basic
import Typeahead.Grammar.Checked
import Typeahead.Grammar.Hook
import Typeahead.Grammar.Position
import Typeahead.Grammar.Schema
import Typeahead.Grammar.Loading
import Typeahead.Line.Command
import Typeahead.Line.Reading
import Typeahead.Line.Span
import Typeahead.Suggestion.Basic
import Typeahead.Suggestion.Source
import Typeahead.Suggestion.Target
import Typeahead.Session.Action
import Typeahead.Session.Basic
import Typeahead.Session.Complete
import Typeahead.Session.Context
import Typeahead.Session.Cursor
import Typeahead.Session.Edit
import Typeahead.Session.Opening
import Typeahead.Session.Table
import Typeahead.Settings.Basic
import Typeahead.Settings.Store
import Typeahead.Settings.Threshold
import Typeahead.Console.Help
import Typeahead.Console.Options
import Typeahead.Console.Report
import Typeahead.Console.Request
import Typeahead.Console.Run
import Typeahead.Main
import Typeahead.Proofs.Grammar.Checked
import Typeahead.Proofs.Grammar.Find
import Typeahead.Proofs.Json.Depth
import Typeahead.Proofs.Json.Quote
import Typeahead.Proofs.Json.RoundTrip
import Typeahead.Proofs.Json.Word
import Typeahead.Proofs.Line.Appending
import Typeahead.Proofs.Line.Boundaries
import Typeahead.Proofs.Line.Division
import Typeahead.Proofs.Line.Entries
import Typeahead.Proofs.Line.Insertion
import Typeahead.Proofs.Line.Layout
import Typeahead.Proofs.Line.Position
import Typeahead.Proofs.Line.Reading
import Typeahead.Proofs.World.Dots
import Typeahead.Proofs.World.Programs
import Typeahead.Proofs.World.Refusal
import Typeahead.Proofs.World.Spelling
import Typeahead.Proofs.World.Writing
import Typeahead.Proofs.Suggestion.Best
import Typeahead.Proofs.Suggestion.Denoted
import Typeahead.Proofs.Suggestion.Target
import Typeahead.Proofs.Session.Acceptance
import Typeahead.Proofs.Session.Alike
import Typeahead.Proofs.Session.Answer
import Typeahead.Proofs.Session.Appending
import Typeahead.Proofs.Session.Arguments
import Typeahead.Proofs.Session.Bounds
import Typeahead.Proofs.Session.Build
import Typeahead.Proofs.Session.Choice
import Typeahead.Proofs.Session.Completion
import Typeahead.Proofs.Session.Current
import Typeahead.Proofs.Session.Draft
import Typeahead.Proofs.Session.Event
import Typeahead.Proofs.Session.Failure
import Typeahead.Proofs.Session.InStep
import Typeahead.Proofs.Session.Listing
import Typeahead.Proofs.Session.Nearest
import Typeahead.Proofs.Session.Operation
import Typeahead.Proofs.Session.Order
import Typeahead.Proofs.Session.Passing
import Typeahead.Proofs.Session.Placeholder
import Typeahead.Proofs.Session.Rebuild
import Typeahead.Proofs.Session.Refused
import Typeahead.Proofs.Session.Same
import Typeahead.Proofs.Session.Splice
import Typeahead.Proofs.Session.Treatment
import Typeahead.Proofs.Settings.Loading
import Typeahead.Proofs.Settings.RoundTrip
import Typeahead.Proofs.Session.Jump
import Typeahead.Proofs.Session.Typed
import Typeahead.Proofs.World.Normal
import Typeahead.Proofs.Suggestion.Nested
import Typeahead.Proofs.Session.Inside
import Typeahead.Proofs.Grammar.Slots
import Typeahead.Proofs.Line.Filling
import Typeahead.Proofs.Grammar.Hook
import Typeahead.Proofs.Line.Parts
import Typeahead.Proofs.Line.Plain
import Typeahead.Proofs.Line.Spacing
import Typeahead.Proofs.Session.Command
import Typeahead.Proofs.Line.Condensed
import Typeahead.Proofs.Text.Words
import Typeahead.Proofs.Number.Numeral
import Typeahead.Proofs.Grammar.Reference
import Typeahead.Proofs.Grammar.Range
import Typeahead.Proofs.Session.Erasing
import Typeahead.Proofs.Session.Replacing
import Typeahead.Proofs.Session.Selecting
import Typeahead.Proofs.Session.Deleting
import Typeahead.Proofs.Session.Repeating
import Typeahead.Proofs.World.Offered
import Typeahead.Proofs.Grammar.Canonical
import Typeahead.Proofs.Grammar.Isolation
import Typeahead.Proofs.Console.Threshold
import Typeahead.Proofs.Console.Writing
