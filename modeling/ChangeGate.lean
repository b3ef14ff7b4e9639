import ChangeGate.Binary64
import ChangeGate.Bits
import ChangeGate.Bus
import ChangeGate.Cancellation
import ChangeGate.ChangedPaths.Git
import ChangeGate.ChangedPaths.Listing
import ChangeGate.CommandLine.Arguments
import ChangeGate.CommandLine.Display
import ChangeGate.CommandLine.Failure
import ChangeGate.CommandLine.Locations
import ChangeGate.CommandLine.Perform
import ChangeGate.CommandLine.Template
import ChangeGate.Config
import ChangeGate.Decision
import ChangeGate.Detector
import ChangeGate.Digraph
import ChangeGate.Error
import ChangeGate.Event
import ChangeGate.Expansion
import ChangeGate.FileTree
import ChangeGate.Form.Config
import ChangeGate.Form.Decision
import ChangeGate.Form.Event
import ChangeGate.Form.Report
import ChangeGate.Form.Scalar
import ChangeGate.Form.Schema
import ChangeGate.Form.Workflow
import ChangeGate.Gate
import ChangeGate.Ident
import ChangeGate.Interpolation
import ChangeGate.JobGraph
import ChangeGate.Json.Basic
import ChangeGate.Json.Draft
import ChangeGate.Json.Number
import ChangeGate.Json.Printer
import ChangeGate.Json.Reader
import ChangeGate.Json.Token
import ChangeGate.Main
import ChangeGate.Outcome
import ChangeGate.Pattern
import ChangeGate.Report
import ChangeGate.Revision
import ChangeGate.Run.OneThread
import ChangeGate.Run.Plan
import ChangeGate.Run.Progress
import ChangeGate.Run.Step
import ChangeGate.Shape
import ChangeGate.Shell.Arithmetic
import ChangeGate.Shell.Builtins
import ChangeGate.Shell.Complaint
import ChangeGate.Shell.Evaluation
import ChangeGate.Shell.Fields
import ChangeGate.Shell.Flow
import ChangeGate.Shell.Glob
import ChangeGate.Shell.LinePattern
import ChangeGate.Shell.Printing
import ChangeGate.Shell.Reader
import ChangeGate.Shell.State
import ChangeGate.Shell.Syntax
import ChangeGate.Shell.Testing
import ChangeGate.Shell.Utilities
import ChangeGate.Store.Basic
import ChangeGate.Store.Directory
import ChangeGate.Store.Files
import ChangeGate.Store.Request
import ChangeGate.Table
import ChangeGate.Task.Context
import ChangeGate.Task.Execution
import ChangeGate.Task.Forwarding
import ChangeGate.Task.Output
import ChangeGate.Text.Blank
import ChangeGate.Text.Digits
import ChangeGate.Text.Hidden
import ChangeGate.Text.Lines
import ChangeGate.Text.Quoted
import ChangeGate.Text.Search
import ChangeGate.Text.Utf8
import ChangeGate.Timestamp
import ChangeGate.Uuid
import ChangeGate.Workflow
import ChangeGate.Yaml.Grammar
import ChangeGate.Yaml.Mark
import ChangeGate.Yaml.Node
import ChangeGate.Yaml.Printer
import ChangeGate.Yaml.Reader
import ChangeGate.Yaml.Resolve
import ChangeGate.Yaml.Token
import ChangeGate.Yaml.Token.Block
import ChangeGate.Yaml.Token.Directive
import ChangeGate.Yaml.Token.Fold
import ChangeGate.Yaml.Token.Lexer
import ChangeGate.Yaml.Token.Plain
import ChangeGate.Yaml.Token.Quoted
import ChangeGate.Yaml.Token.Tag
import ChangeGate.Proofs.Run.Transition
import ChangeGate.Proofs.Run.Course
import ChangeGate.Proofs.Run.Detection
import ChangeGate.Proofs.ChangedPaths.Git
import ChangeGate.Proofs.Decision
import ChangeGate.Proofs.Plan
import ChangeGate.Proofs.Run.Cancellation
import ChangeGate.Proofs.Run.Handles
import ChangeGate.Proofs.Run.Lifecycle
import ChangeGate.Proofs.Run.OneThread
import ChangeGate.Proofs.Run.Slots
import ChangeGate.Proofs.Run.Termination
import ChangeGate.Proofs.Run.Liveness
import ChangeGate.Proofs.Pattern.Language
import ChangeGate.Proofs.Json.Number
import ChangeGate.Proofs.Json.Token
import ChangeGate.Proofs.Json.RoundTrip
import ChangeGate.Proofs.Store.WriteOnce
import ChangeGate.Proofs.Run.Call
import ChangeGate.Proofs.Store.Isolation
import ChangeGate.Proofs.Store.WriteSteps
import ChangeGate.Proofs.Store.Recording
import ChangeGate.Proofs.Store.Interleaving
import ChangeGate.Proofs.Store.Contest
import ChangeGate.Proofs.Run.Race
import ChangeGate.Proofs.Form.Workflow
import ChangeGate.Proofs.Run.Prediction
import ChangeGate.Proofs.CommandLine.DryRun
import ChangeGate.Proofs.Text.Utf8
import ChangeGate.Proofs.Except
import ChangeGate.Proofs.Expansion.Basic
import ChangeGate.Proofs.Expansion.Product
import ChangeGate.Proofs.Expansion.Listing
import ChangeGate.Proofs.Expansion.Relisting
import ChangeGate.Proofs.Run.Naming
import ChangeGate.Proofs.Digraph
import ChangeGate.Proofs.JobGraph
import ChangeGate.Proofs.Run.Gating
import ChangeGate.Proofs.Pattern.Spelling
import ChangeGate.Proofs.Interpolation
import ChangeGate.Proofs.Task.Context
import ChangeGate.Proofs.Task.Axes
import ChangeGate.Proofs.ChangedPaths.Records
import ChangeGate.Proofs.Text.Lines
import ChangeGate.Proofs.ChangedPaths.Listing
import ChangeGate.Proofs.Task.Forwarding
import ChangeGate.Proofs.Task.Completion
import ChangeGate.Proofs.Task.Unreadable
import ChangeGate.Proofs.Run.DecisionKey
import ChangeGate.Proofs.Run.SlotLimit
import ChangeGate.Proofs.Config
import ChangeGate.Proofs.FileTree
import ChangeGate.Proofs.CommandLine.Settings
import ChangeGate.Proofs.Text.Digits
import ChangeGate.Proofs.Yaml.Reader
import ChangeGate.Proofs.Form.Instance
import ChangeGate.Proofs.Form.Asking
import ChangeGate.Proofs.Form.Spelling
import ChangeGate.Proofs.Timestamp
import ChangeGate.Proofs.Json.Reader
import ChangeGate.Proofs.Form.Scalar
import ChangeGate.Proofs.Form.Decision
import ChangeGate.Proofs.Form.Report
import ChangeGate.Proofs.Form.Event
import ChangeGate.Proofs.Form.RoundTrip
import ChangeGate.Proofs.Pattern.Places
import ChangeGate.Proofs.Text.HexDigits
import ChangeGate.Proofs.Uuid
import ChangeGate.Proofs.Form.Ident
import ChangeGate.Proofs.Bus.Subscribers
import ChangeGate.Proofs.Store.FileNames
