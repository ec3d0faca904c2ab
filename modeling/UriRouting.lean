import UriRouting.Backtrack
import UriRouting.Codepoint.Alphabetic
import UriRouting.Codepoint.Case
import UriRouting.Codepoint.CaseFold
import UriRouting.Codepoint.DecimalDigit
import UriRouting.Codepoint.Graphic
import UriRouting.Codepoint.Identifier
import UriRouting.Codepoint.Letter
import UriRouting.Codepoint.Punctuation
import UriRouting.Codepoint.Ranges
import UriRouting.Codepoint.Symbol
import UriRouting.Codepoint.Word
import UriRouting.CommandLine.Arguments
import UriRouting.CommandLine.Commands
import UriRouting.CommandLine.Grammar
import UriRouting.CommandLine.Module
import UriRouting.CommandLine.Report
import UriRouting.CommandLine.Run
import UriRouting.CommandLine.Target
import UriRouting.Config
import UriRouting.Decimal.Natural
import UriRouting.Decimal.Shortest
import UriRouting.Error
import UriRouting.Exports
import UriRouting.Group.Basic
import UriRouting.Group.Forest
import UriRouting.Group.Growth
import UriRouting.Main
import UriRouting.Pattern
import UriRouting.Proofs.CommandLine.Reading
import UriRouting.Proofs.CommandLine.Targets
import UriRouting.Proofs.CommandLine.Pairs
import UriRouting.Proofs.CommandLine.Failing
import UriRouting.Proofs.CommandLine.Verbose
import UriRouting.Proofs.CommandLine.Presenting
import UriRouting.Proofs.Group.Confined
import UriRouting.Proofs.Group.Growth
import UriRouting.Proofs.Group.Placeholders
import UriRouting.Proofs.Pattern.Bare
import UriRouting.Proofs.Pattern.Compiled
import UriRouting.Proofs.Pattern.Configured
import UriRouting.Proofs.Pattern.Escaping
import UriRouting.Proofs.Pattern.Failing
import UriRouting.Proofs.Pattern.Groups
import UriRouting.Proofs.Pattern.Parameters
import UriRouting.Proofs.Pattern.Prefixed
import UriRouting.Proofs.Pattern.Raw
import UriRouting.Proofs.Pattern.Refused
import UriRouting.Proofs.Pattern.Renaming
import UriRouting.Proofs.Pattern.Reserved
import UriRouting.Proofs.Pattern.Tolerated
import UriRouting.Proofs.Pattern.Wrapping
import UriRouting.Proofs.Query.Decoding
import UriRouting.Proofs.Regex.Alike
import UriRouting.Proofs.Regex.Bounds
import UriRouting.Proofs.Regex.Captured
import UriRouting.Proofs.Regex.Closing
import UriRouting.Proofs.Regex.Enclosing
import UriRouting.Proofs.Regex.Faults
import UriRouting.Proofs.Regex.Follow
import UriRouting.Proofs.Regex.Followed
import UriRouting.Proofs.Regex.Framing
import UriRouting.Proofs.Regex.FullMatch
import UriRouting.Proofs.Regex.Moves
import UriRouting.Proofs.Regex.Named
import UriRouting.Proofs.Regex.Progress
import UriRouting.Proofs.Regex.Raised
import UriRouting.Proofs.Regex.Reading
import UriRouting.Proofs.Regex.Related
import UriRouting.Proofs.Regex.Sets
import UriRouting.Proofs.Regex.Shift
import UriRouting.Proofs.Regex.Suffixes
import UriRouting.Proofs.Regex.Tail
import UriRouting.Proofs.Regex.TailSets
import UriRouting.Proofs.Results
import UriRouting.Proofs.Router.Failing
import UriRouting.Proofs.Router.Mounting
import UriRouting.Proofs.Router.Naming
import UriRouting.Proofs.Router.OneByOne
import UriRouting.Proofs.Router.Refusing
import UriRouting.Proofs.Router.Registration
import UriRouting.Proofs.Router.Registry
import UriRouting.Proofs.Router.Removal
import UriRouting.Proofs.Router.RoundTrip
import UriRouting.Proofs.Router.Splat
import UriRouting.Proofs.Router.Survivors
import UriRouting.Proofs.Search
import UriRouting.Proofs.Template.BraceBalance
import UriRouting.Proofs.Template.BracketSets
import UriRouting.Proofs.Template.Brackets
import UriRouting.Proofs.Template.Dangling
import UriRouting.Proofs.Template.Escapes
import UriRouting.Proofs.Template.Expand
import UriRouting.Proofs.Template.Joining
import UriRouting.Proofs.Template.Openers
import UriRouting.Proofs.Template.Outline
import UriRouting.Proofs.Template.Parts
import UriRouting.Proofs.Template.Placeholder
import UriRouting.Proofs.Template.Printing
import UriRouting.Proofs.Template.Readings
import UriRouting.Proofs.Template.Segmentation
import UriRouting.Proofs.Template.Settled
import UriRouting.Proofs.Template.Words
import UriRouting.Proofs.Template.WrittenOut
import UriRouting.Proofs.Uri.Joining
import UriRouting.Proofs.Uri.Rendering
import UriRouting.Proofs.Uri.Silent
import UriRouting.Query.FormEncoding
import UriRouting.Regex.Attempt
import UriRouting.Regex.Basic
import UriRouting.Regex.CharTest
import UriRouting.Regex.Escape
import UriRouting.Regex.Flags
import UriRouting.Regex.Outcomes
import UriRouting.Regex.Parser
import UriRouting.Regex.Reader
import UriRouting.Regex.Search
import UriRouting.Regex.State
import UriRouting.Regex.Tolerance
import UriRouting.Route
import UriRouting.Router.Basic
import UriRouting.Router.Event
import UriRouting.Router.History
import UriRouting.Router.Table
import UriRouting.Session
import UriRouting.Template.Fault
import UriRouting.Template.Segment
import UriRouting.Template.Shorthand
import UriRouting.Template.Token
import UriRouting.Template.Tokenize
import UriRouting.Text.Basic
import UriRouting.Text.Blank
import UriRouting.Text.Printable
import UriRouting.Text.Quoted
import UriRouting.Uri.Join
import UriRouting.Uri.Render
import UriRouting.Value
