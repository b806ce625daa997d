import AmbientTypes.Binary64.Basic
import AmbientTypes.Binary64.Places
import AmbientTypes.Binary64.Shortest
import AmbientTypes.Bundle.Header
import AmbientTypes.Bundle.ModulePath
import AmbientTypes.Bundle.Renaming
import AmbientTypes.Command.Arguments
import AmbientTypes.Command.Building
import AmbientTypes.Command.Flags
import AmbientTypes.Command.Help
import AmbientTypes.Command.Listing
import AmbientTypes.Command.Options
import AmbientTypes.Command.Preparation
import AmbientTypes.Command.Run
import AmbientTypes.Command.Showing
import AmbientTypes.Compilation.Basic
import AmbientTypes.Compilation.Job
import AmbientTypes.Compilation.Message
import AmbientTypes.Compilation.Printout
import AmbientTypes.Compilation.Program
import AmbientTypes.Console
import AmbientTypes.Execution.Basic
import AmbientTypes.Execution.Evaluation
import AmbientTypes.Execution.Script
import AmbientTypes.Execution.Start
import AmbientTypes.Failure
import AmbientTypes.Json.Basic
import AmbientTypes.Json.Lexeme
import AmbientTypes.Json.Printer
import AmbientTypes.Json.ReadError
import AmbientTypes.Json.Reader
import AmbientTypes.Json.Skip
import AmbientTypes.Main
import AmbientTypes.Manifest.Basic
import AmbientTypes.Manifest.Document
import AmbientTypes.Manifest.Load
import AmbientTypes.Manifest.Problem
import AmbientTypes.Path
import AmbientTypes.Pipeline.Plan
import AmbientTypes.Pipeline.Run
import AmbientTypes.Pipeline.StrictError
import AmbientTypes.Proofs.Action
import AmbientTypes.Proofs.Bundle.Checkout
import AmbientTypes.Proofs.Bundle.EntryPoints
import AmbientTypes.Proofs.Bundle.ExposedModules
import AmbientTypes.Proofs.Bundle.Header
import AmbientTypes.Proofs.Bundle.Literal
import AmbientTypes.Proofs.Bundle.ModulePath
import AmbientTypes.Proofs.Bundle.Modules
import AmbientTypes.Proofs.Bundle.NormalForm
import AmbientTypes.Proofs.Bundle.Occurrences
import AmbientTypes.Proofs.Bundle.PublicLiteral
import AmbientTypes.Proofs.Bundle.PublicName
import AmbientTypes.Proofs.Bundle.Renaming
import AmbientTypes.Proofs.Bundle.Respelling
import AmbientTypes.Proofs.Bundle.Segments
import AmbientTypes.Proofs.Bundle.SharedNames
import AmbientTypes.Proofs.Bundle.Substitution
import AmbientTypes.Proofs.Command.Arguments
import AmbientTypes.Proofs.Command.Building
import AmbientTypes.Proofs.Command.Listing
import AmbientTypes.Proofs.Command.Preparation
import AmbientTypes.Proofs.Command.Reporting
import AmbientTypes.Proofs.Command.Selecting
import AmbientTypes.Proofs.Command.Showing
import AmbientTypes.Proofs.Compilation.Continuation
import AmbientTypes.Proofs.Compilation.Directory
import AmbientTypes.Proofs.Compilation.Emission
import AmbientTypes.Proofs.Compilation.Outcome
import AmbientTypes.Proofs.Compilation.Printout
import AmbientTypes.Proofs.Compilation.Program
import AmbientTypes.Proofs.Compilation.Sources
import AmbientTypes.Proofs.Console
import AmbientTypes.Proofs.Execution.Notices
import AmbientTypes.Proofs.Json.Members
import AmbientTypes.Proofs.Json.Printer
import AmbientTypes.Proofs.Json.RoundTrip
import AmbientTypes.Proofs.Manifest.Acceptance
import AmbientTypes.Proofs.Manifest.Document
import AmbientTypes.Proofs.Manifest.Entries
import AmbientTypes.Proofs.Manifest.Names
import AmbientTypes.Proofs.Manifest.Printing
import AmbientTypes.Proofs.Manifest.Sources
import AmbientTypes.Proofs.Notices
import AmbientTypes.Proofs.Path.Components
import AmbientTypes.Proofs.Path.Relative
import AmbientTypes.Proofs.Pipeline.Footprint
import AmbientTypes.Proofs.Pipeline.History
import AmbientTypes.Proofs.Pipeline.Leftovers
import AmbientTypes.Proofs.Pipeline.Notices
import AmbientTypes.Proofs.Pipeline.Repetition
import AmbientTypes.Proofs.Pipeline.Report
import AmbientTypes.Proofs.Pipeline.Run
import AmbientTypes.Proofs.Pipeline.Strictness
import AmbientTypes.Proofs.Report.Calls
import AmbientTypes.Proofs.Result
import AmbientTypes.Proofs.Search.Finding
import AmbientTypes.Proofs.Search.Listing
import AmbientTypes.Proofs.Search.Naming
import AmbientTypes.Proofs.Search.Order
import AmbientTypes.Proofs.Search.Spelling
import AmbientTypes.Proofs.Search.Stability
import AmbientTypes.Proofs.Settings.Layers
import AmbientTypes.Proofs.SharedFolder.Calls
import AmbientTypes.Proofs.SharedFolder.Concurrent
import AmbientTypes.Proofs.SharedFolder.Footprint
import AmbientTypes.Proofs.SharedFolder.Index
import AmbientTypes.Proofs.SharedFolder.Merging
import AmbientTypes.Proofs.SharedFolder.Names
import AmbientTypes.Proofs.SharedFolder.Placing
import AmbientTypes.Proofs.SharedFolder.Repetition
import AmbientTypes.Proofs.SharedFolder.Reports
import AmbientTypes.Proofs.SharedFolder.Separation
import AmbientTypes.Proofs.SharedFolder.Sequence
import AmbientTypes.Proofs.SharedFolder.Steps
import AmbientTypes.Proofs.Storage
import AmbientTypes.Proofs.Storage.Replacing
import AmbientTypes.Proofs.Text.ByteOrder
import AmbientTypes.Proofs.Text.Digit
import AmbientTypes.Proofs.Text.Lines
import AmbientTypes.Proofs.Text.Pieces
import AmbientTypes.Proofs.Text.Split
import AmbientTypes.Proofs.Text.Trimming
import AmbientTypes.Proofs.Tree.Changes
import AmbientTypes.Proofs.Tree.Directories
import AmbientTypes.Proofs.Tree.Growth
import AmbientTypes.Proofs.Tree.Keeping
import AmbientTypes.Proofs.Tree.Limits
import AmbientTypes.Proofs.Tree.Nodes
import AmbientTypes.Proofs.Tree.Opening
import AmbientTypes.Proofs.Tree.Removal
import AmbientTypes.Proofs.Tree.Spelling
import AmbientTypes.Proofs.Tree.Steps
import AmbientTypes.Proofs.Tree.Walks
import AmbientTypes.Report.Call
import AmbientTypes.Report.Duration
import AmbientTypes.Report.Log
import AmbientTypes.Report.Notice
import AmbientTypes.Report.Remark
import AmbientTypes.Report.Reporter
import AmbientTypes.Search.Basic
import AmbientTypes.Search.Choice
import AmbientTypes.Search.Find
import AmbientTypes.Settings.Basic
import AmbientTypes.Settings.Load
import AmbientTypes.SharedFolder.Basic
import AmbientTypes.SharedFolder.Layout
import AmbientTypes.Snapshot
import AmbientTypes.Storage
import AmbientTypes.Text.Blank
import AmbientTypes.Text.Digit
import AmbientTypes.Text.Infix
import AmbientTypes.Text.Lines
import AmbientTypes.Text.Pieces
import AmbientTypes.Text.Printable
import AmbientTypes.Text.Quoted
import AmbientTypes.Text.Ranges
import AmbientTypes.Text.Split
import AmbientTypes.Text.Utf8
import AmbientTypes.Text.Word
import AmbientTypes.Toml.Basic
import AmbientTypes.Toml.Lexeme
import AmbientTypes.Toml.Reader
import AmbientTypes.Tree.Basic
import AmbientTypes.Tree.Error
import AmbientTypes.Tree.Operations
import AmbientTypes.Tree.Resolve
import AmbientTypes.World
