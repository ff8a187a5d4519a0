import PlanAssistant.Config.Keys
import PlanAssistant.Config.Profile
import PlanAssistant.Config.Registry
import PlanAssistant.Console.Action
import PlanAssistant.Console.Arguments
import PlanAssistant.Console.Command
import PlanAssistant.Console.Dialogue
import PlanAssistant.Console.Program
import PlanAssistant.Console.Terminal
import PlanAssistant.Datum
import PlanAssistant.Decimal.Nearest
import PlanAssistant.Decimal.Shortest
import PlanAssistant.Decision
import PlanAssistant.Document
import PlanAssistant.Document.Writer
import PlanAssistant.Engine.Basic
import PlanAssistant.Engine.Briefing
import PlanAssistant.Engine.Turn
import PlanAssistant.Files.Operations
import PlanAssistant.Files.Path
import PlanAssistant.Files.Resolve
import PlanAssistant.Files.Tree
import PlanAssistant.Instant
import PlanAssistant.Interpreter
import PlanAssistant.Json
import PlanAssistant.Main
import PlanAssistant.Model.Completion
import PlanAssistant.Model.Endpoint
import PlanAssistant.Model.Failure
import PlanAssistant.Model.Output
import PlanAssistant.Model.Query
import PlanAssistant.Model.Reply
import PlanAssistant.Model.Stream
import PlanAssistant.Pattern.Matching
import PlanAssistant.Pattern.Reading
import PlanAssistant.Pattern.Syntax
import PlanAssistant.Plan.Reference
import PlanAssistant.Plan.Step
import PlanAssistant.Prompt
import PlanAssistant.Session.Basic
import PlanAssistant.Session.Checking
import PlanAssistant.Session.Transition
import PlanAssistant.Text.Blank
import PlanAssistant.Text.CaseVariants
import PlanAssistant.Text.Casing
import PlanAssistant.Text.CharTable
import PlanAssistant.Text.CharacterName
import PlanAssistant.Text.CommonNames
import PlanAssistant.Text.Digit
import PlanAssistant.Text.Identifier
import PlanAssistant.Text.Lines
import PlanAssistant.Text.Printable
import PlanAssistant.Text.Quoted
import PlanAssistant.Text.Search
import PlanAssistant.Text.Surrogate
import PlanAssistant.Text.Utf8
import PlanAssistant.Text.Word
import PlanAssistant.Toml
import PlanAssistant.Tools.ListFiles
import PlanAssistant.Tools.Pass
import PlanAssistant.Tools.ReadFile
import PlanAssistant.Tools.Result
import PlanAssistant.Tools.SearchText
import PlanAssistant.Updates.Basic
import PlanAssistant.Updates.Emitter
import PlanAssistant.Validation
import PlanAssistant.Workspace
import PlanAssistant.Proofs.Engine.Accounts
import PlanAssistant.Proofs.Engine.Cancellation
import PlanAssistant.Proofs.Engine.Course
import PlanAssistant.Proofs.Engine.Decisions
import PlanAssistant.Proofs.Engine.Endings
import PlanAssistant.Proofs.Engine.Runs
import PlanAssistant.Proofs.Engine.ToolSnapshots
import PlanAssistant.Proofs.Engine.Trace
import PlanAssistant.Proofs.Engine.Trail
import PlanAssistant.Proofs.Files.Inside
import PlanAssistant.Proofs.Files.PathCount
import PlanAssistant.Proofs.Files.PathText
import PlanAssistant.Proofs.Files.RealPath
import PlanAssistant.Proofs.Files.Walking
import PlanAssistant.Proofs.Json.Limits
import PlanAssistant.Proofs.Model.Interruption
import PlanAssistant.Proofs.Pattern.Faults
import PlanAssistant.Proofs.Plan.Grammar
import PlanAssistant.Proofs.Session.Changes
import PlanAssistant.Proofs.Text.Readers
import PlanAssistant.Proofs.Tools.Breakdowns
import PlanAssistant.Proofs.Tools.Confinement
import PlanAssistant.Proofs.Tools.Observations
import PlanAssistant.Proofs.Tools.PassRecords
import PlanAssistant.Proofs.Tools.SearchOrder
import PlanAssistant.Proofs.Tools.Traversal
import PlanAssistant.Proofs.Updates.Delivery
import PlanAssistant.Proofs.Files.Growth
import PlanAssistant.Proofs.Files.Making
import PlanAssistant.Proofs.Document.Keeping
import PlanAssistant.Proofs.Document.Storing
import PlanAssistant.Proofs.Engine.Storage
import PlanAssistant.Proofs.Engine.Answers
import PlanAssistant.Proofs.Engine.Renewal
import PlanAssistant.Proofs.Model.Retries
import PlanAssistant.Proofs.Plan.Lines
import PlanAssistant.Proofs.Plan.References
import PlanAssistant.Proofs.Tools.ResolvedArguments
import PlanAssistant.Proofs.Tools.SkippedNames
import PlanAssistant.Proofs.Session.Refusals
import PlanAssistant.Proofs.Tools.SearchBudget
import PlanAssistant.Proofs.Files.Inventory
import PlanAssistant.Proofs.Tools.SearchCoverage
import PlanAssistant.Proofs.Decimal.Sign
import PlanAssistant.Proofs.Model.Costs
import PlanAssistant.Proofs.Model.Streaming
import PlanAssistant.Proofs.Text.Stripping
import PlanAssistant.Proofs.Text.Encoding
import PlanAssistant.Proofs.Text.LineEnds
import PlanAssistant.Proofs.Decision.Fences
import PlanAssistant.Proofs.Plan.Substitution
import PlanAssistant.Proofs.Config.KeyLines
import PlanAssistant.Proofs.Config.KeyLoading
import PlanAssistant.Proofs.Config.KeyFiles
import PlanAssistant.Proofs.Console.Startup
import PlanAssistant.Proofs.Engine.Books
import PlanAssistant.Proofs.Files.RelativeText
import PlanAssistant.Proofs.Files.LinkNames
import PlanAssistant.Proofs.Tools.Listings
import PlanAssistant.Proofs.Tools.PrintedPaths
import PlanAssistant.Proofs.Tools.OutsideWorlds
import PlanAssistant.Proofs.Console.Progress
import PlanAssistant.Proofs.Console.Spinner
import PlanAssistant.Proofs.Console.Carrying
