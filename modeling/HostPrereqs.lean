import HostPrereqs.CommandLine.Arguments
import HostPrereqs.CommandLine.Help
import HostPrereqs.CommandLine.Request
import HostPrereqs.CommandLine.Run
import HostPrereqs.CommandLine.Switch
import HostPrereqs.CommandLine.UsageFault
import HostPrereqs.Condition.Basic
import HostPrereqs.Condition.Evaluation
import HostPrereqs.Condition.Reading
import HostPrereqs.Entry.Document
import HostPrereqs.Entry.Validation
import HostPrereqs.Environment.Assignments
import HostPrereqs.Failure.Basic
import HostPrereqs.Failure.Report
import HostPrereqs.Failure.Told
import HostPrereqs.File.Basic
import HostPrereqs.Host.Basic
import HostPrereqs.Host.BuildConfig
import HostPrereqs.Host.Description
import HostPrereqs.Host.Family
import HostPrereqs.Host.Flag
import HostPrereqs.Host.Questions
import HostPrereqs.Json.Reader
import HostPrereqs.Json.Writer
import HostPrereqs.Loading.Basic
import HostPrereqs.Log.Display
import HostPrereqs.Log.Record
import HostPrereqs.Main
import HostPrereqs.Number.Double
import HostPrereqs.Number.Numeral
import HostPrereqs.Number.Shortest
import HostPrereqs.Output.Format
import HostPrereqs.Output.Grid
import HostPrereqs.Predicate.Basic
import HostPrereqs.Predicate.Builtin
import HostPrereqs.Predicate.Question
import HostPrereqs.Predicate.Registry
import HostPrereqs.Range.Basic
import HostPrereqs.Range.Clause
import HostPrereqs.Range.Text
import HostPrereqs.Requirements.Basic
import HostPrereqs.Requirements.Fragment
import HostPrereqs.Requirements.Table
import HostPrereqs.Resolution.Basic
import HostPrereqs.Settings.Basic
import HostPrereqs.Settings.Layer
import HostPrereqs.Text.Blank
import HostPrereqs.Text.Casing
import HostPrereqs.Text.CharSet
import HostPrereqs.Text.Escape
import HostPrereqs.Text.Literal
import HostPrereqs.Text.Printable
import HostPrereqs.Text.Similarity
import HostPrereqs.Text.WordChar
import HostPrereqs.Text.Words
import HostPrereqs.Text.Wrap
import HostPrereqs.Value.Basic
import HostPrereqs.Value.Literal
import HostPrereqs.Version.Basic
import HostPrereqs.Version.Limit
import HostPrereqs.Version.Text
import HostPrereqs.Yaml.Cursor
import HostPrereqs.Yaml.Fault
import HostPrereqs.Yaml.Lexer
import HostPrereqs.Yaml.Making
import HostPrereqs.Yaml.Merge
import HostPrereqs.Yaml.Node
import HostPrereqs.Yaml.Reader
import HostPrereqs.Yaml.Scalar
import HostPrereqs.Yaml.ScalarToken
import HostPrereqs.Yaml.Tag
import HostPrereqs.Yaml.TagToken
import HostPrereqs.Yaml.Token
import HostPrereqs.Yaml.Tokens
import HostPrereqs.Yaml.Writer
import HostPrereqs.Proofs.Version.Order
import HostPrereqs.Proofs.Version.RoundTrip
import HostPrereqs.Proofs.Version.Spelling
import HostPrereqs.Proofs.Version.Successor
import HostPrereqs.Proofs.Range.Admission
import HostPrereqs.Proofs.Range.Canonical
import HostPrereqs.Proofs.Range.RoundTrip
import HostPrereqs.Proofs.Range.LocalParts
import HostPrereqs.Proofs.Range.Loosening
import HostPrereqs.Proofs.Range.Grammar
import HostPrereqs.Proofs.Range.Meaning
import HostPrereqs.Proofs.Range.Conflicts
import HostPrereqs.Proofs.Range.LowerBounds
import HostPrereqs.Proofs.Range.Vacancy
import HostPrereqs.Proofs.Range.NormalForm
import HostPrereqs.Proofs.Requirements.Slots
import HostPrereqs.Proofs.Range.Joining
import HostPrereqs.Proofs.Requirements.Gathering
import HostPrereqs.Proofs.Requirements.Merging
import HostPrereqs.Proofs.Requirements.Order
import HostPrereqs.Proofs.Requirements.Rebuilding
import HostPrereqs.Proofs.Requirements.Copying
import HostPrereqs.Proofs.Requirements.Turns
import HostPrereqs.Proofs.Host.Similar
import HostPrereqs.Proofs.Value.Keys
import HostPrereqs.Proofs.Json.RoundTrip
import HostPrereqs.Proofs.Json.HugeNumbers
import HostPrereqs.Proofs.Yaml.Tokens
import HostPrereqs.Proofs.Yaml.Values
import HostPrereqs.Proofs.Loading.Written
import HostPrereqs.Proofs.Loading.Faults
import HostPrereqs.Proofs.Settings.Precedence
import HostPrereqs.Proofs.Condition.Evaluation
import HostPrereqs.Proofs.Resolution.EntryPoints
import HostPrereqs.Proofs.Resolution.Influence
import HostPrereqs.Proofs.Resolution.Listing
import HostPrereqs.Proofs.Resolution.Staging
import HostPrereqs.Proofs.Resolution.Building
import HostPrereqs.Proofs.Resolution.Validation
import HostPrereqs.Proofs.Text.Casing
import HostPrereqs.Proofs.Text.Escape
import HostPrereqs.Proofs.Text.Quoting
import HostPrereqs.Proofs.Text.Words
import HostPrereqs.Proofs.Condition.Reading
import HostPrereqs.Proofs.Condition.Grammar
import HostPrereqs.Proofs.Condition.Lines
import HostPrereqs.Proofs.Condition.Normal
import HostPrereqs.Proofs.Condition.Reach
import HostPrereqs.Proofs.Condition.Failures
import HostPrereqs.Proofs.Condition.Nesting
import HostPrereqs.Proofs.Predicate.Answers
import HostPrereqs.Proofs.Predicate.History
import HostPrereqs.Proofs.Predicate.Modules
import HostPrereqs.Proofs.Resolution.Session
import HostPrereqs.Proofs.CommandLine.Configuration
import HostPrereqs.Proofs.CommandLine.DataFiles
import HostPrereqs.Proofs.CommandLine.Defaults
import HostPrereqs.Proofs.CommandLine.Endings
import HostPrereqs.Proofs.CommandLine.Feeding
