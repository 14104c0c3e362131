import SuiteRunner.CommandLine.Arguments
import SuiteRunner.CommandLine.Execution
import SuiteRunner.Config.Cascade
import SuiteRunner.Config.Decode
import SuiteRunner.Config.Effective
import SuiteRunner.Config.Error
import SuiteRunner.Config.Layer
import SuiteRunner.Config.Load
import SuiteRunner.Config.Record
import SuiteRunner.Decimal.Binary64
import SuiteRunner.Directive.Basic
import SuiteRunner.Directive.Lexer
import SuiteRunner.Directive.Marker
import SuiteRunner.Discovery.Selection
import SuiteRunner.Discovery.TestCase
import SuiteRunner.Discovery.Walk
import SuiteRunner.Discovery.Walker
import SuiteRunner.Feature.Expr
import SuiteRunner.Feature.Parser
import SuiteRunner.Feature.Token
import SuiteRunner.Files.Error
import SuiteRunner.Files.Tree
import SuiteRunner.Json.Basic
import SuiteRunner.Json.Reader
import SuiteRunner.Main
import SuiteRunner.Ordered
import SuiteRunner.Path.Basic
import SuiteRunner.Pattern.Basic
import SuiteRunner.Pattern.CharSet
import SuiteRunner.Pattern.Folding
import SuiteRunner.Pattern.Parser
import SuiteRunner.Pattern.Word
import SuiteRunner.Proofs.Config.Ancestors
import SuiteRunner.Proofs.Config.Anchoring
import SuiteRunner.Proofs.Config.Chain
import SuiteRunner.Proofs.Config.Completeness
import SuiteRunner.Proofs.Config.Endless
import SuiteRunner.Proofs.Config.EntryLayer
import SuiteRunner.Proofs.Config.Extension
import SuiteRunner.Proofs.Config.Inheritance
import SuiteRunner.Proofs.Config.Keys
import SuiteRunner.Proofs.Config.Lineage
import SuiteRunner.Proofs.Config.Loading
import SuiteRunner.Proofs.Config.Merging
import SuiteRunner.Proofs.Config.Relevance
import SuiteRunner.Proofs.Config.VariableLists
import SuiteRunner.Proofs.Config.Variables
import SuiteRunner.Proofs.Directive.Concatenation
import SuiteRunner.Proofs.Directive.Continuation
import SuiteRunner.Proofs.Directive.Entries
import SuiteRunner.Proofs.Directive.FeatureLines
import SuiteRunner.Proofs.Directive.JoiningRules
import SuiteRunner.Proofs.Directive.Markers
import SuiteRunner.Proofs.Directive.Places
import SuiteRunner.Proofs.Directive.Reading
import SuiteRunner.Proofs.Directive.SilentLines
import SuiteRunner.Proofs.Directive.SourceOrder
import SuiteRunner.Proofs.Discovery.Alone
import SuiteRunner.Proofs.Discovery.Exactness
import SuiteRunner.Proofs.Discovery.Inheriting
import SuiteRunner.Proofs.Discovery.Layers
import SuiteRunner.Proofs.Discovery.Opening
import SuiteRunner.Proofs.Discovery.Order
import SuiteRunner.Proofs.Discovery.Restriction
import SuiteRunner.Proofs.Discovery.Selection
import SuiteRunner.Proofs.Discovery.Stalling
import SuiteRunner.Proofs.Discovery.Termination
import SuiteRunner.Proofs.Discovery.TwoWalks
import SuiteRunner.Proofs.Discovery.Walk
import SuiteRunner.Proofs.Discovery.Walker
import SuiteRunner.Proofs.Except
import SuiteRunner.Proofs.Feature.Grammar
import SuiteRunner.Proofs.Feature.Grouping
import SuiteRunner.Proofs.Feature.Outlook
import SuiteRunner.Proofs.Feature.Printing
import SuiteRunner.Proofs.Feature.SyntaxErrors
import SuiteRunner.Proofs.Feature.Tokens
import SuiteRunner.Proofs.Files.Course
import SuiteRunner.Proofs.Files.Descent
import SuiteRunner.Proofs.Files.Place
import SuiteRunner.Proofs.Files.Plain
import SuiteRunner.Proofs.Files.Spelling
import SuiteRunner.Proofs.Files.Standing
import SuiteRunner.Proofs.Json.RoundTrip
import SuiteRunner.Proofs.Ordered
import SuiteRunner.Proofs.Path.Absolute
import SuiteRunner.Proofs.Path.Components
import SuiteRunner.Proofs.Path.Joining
import SuiteRunner.Proofs.Path.Parents
import SuiteRunner.Proofs.Path.Shown
import SuiteRunner.Proofs.Run.Capturing
import SuiteRunner.Proofs.Run.ConsoleReport
import SuiteRunner.Proofs.Run.Deadlines
import SuiteRunner.Proofs.Run.Dependence
import SuiteRunner.Proofs.Run.ExactlyOnce
import SuiteRunner.Proofs.Run.ExitCode
import SuiteRunner.Proofs.Run.Expectations
import SuiteRunner.Proofs.Run.FailureLimit
import SuiteRunner.Proofs.Run.Gates
import SuiteRunner.Proofs.Run.Independence
import SuiteRunner.Proofs.Run.Launches
import SuiteRunner.Proofs.Run.Losses
import SuiteRunner.Proofs.Run.MachineReport
import SuiteRunner.Proofs.Run.Mentions
import SuiteRunner.Proofs.Run.Outcomes
import SuiteRunner.Proofs.Run.Passing
import SuiteRunner.Proofs.Run.Rounds
import SuiteRunner.Proofs.Run.Schedule
import SuiteRunner.Proofs.Run.Stopping
import SuiteRunner.Proofs.Substitution.Precedence
import SuiteRunner.Proofs.Substitution.Reading
import SuiteRunner.Proofs.Substitution.Scratch
import SuiteRunner.Proofs.Substitution.Segments
import SuiteRunner.Proofs.Text.BytePlaces
import SuiteRunner.Proofs.Text.Coloring
import SuiteRunner.Proofs.Text.Cutting
import SuiteRunner.Proofs.Text.Decoding
import SuiteRunner.Proofs.Text.Encoding
import SuiteRunner.Proofs.Text.Numerals
import SuiteRunner.Proofs.Tool.Lookup
import SuiteRunner.Run.Capture
import SuiteRunner.Run.Duration
import SuiteRunner.Run.Evaluation
import SuiteRunner.Run.Pipeline
import SuiteRunner.Run.Preparation
import SuiteRunner.Run.Report
import SuiteRunner.Run.Result
import SuiteRunner.Run.Runner
import SuiteRunner.Run.Schedule
import SuiteRunner.Run.Script
import SuiteRunner.Shell.Arithmetic
import SuiteRunner.Shell.Builtin
import SuiteRunner.Shell.Condition
import SuiteRunner.Shell.Evaluation
import SuiteRunner.Shell.Field
import SuiteRunner.Shell.Format
import SuiteRunner.Shell.Glob
import SuiteRunner.Shell.Host
import SuiteRunner.Shell.Invocation
import SuiteRunner.Shell.Machine
import SuiteRunner.Shell.Parser
import SuiteRunner.Shell.Program
import SuiteRunner.Shell.Reader
import SuiteRunner.Shell.Redirection
import SuiteRunner.Shell.Syntax
import SuiteRunner.Shell.Utility
import SuiteRunner.Shell.Utility.Basic
import SuiteRunner.Shell.Utility.Content
import SuiteRunner.Shell.Utility.Files
import SuiteRunner.Substitution.Engine
import SuiteRunner.Substitution.Rule
import SuiteRunner.Text.Basic
import SuiteRunner.Text.Hidden
import SuiteRunner.Text.Quoted
import SuiteRunner.Text.Utf8
import SuiteRunner.Toml.Document
import SuiteRunner.Toml.Quoted
import SuiteRunner.Toml.Scalar
import SuiteRunner.Toml.Table
import SuiteRunner.Toml.Value
import SuiteRunner.Tool.Lookup
