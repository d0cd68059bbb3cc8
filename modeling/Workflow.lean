import Workflow.Breakdown
import Workflow.Calendar
import Workflow.Check.Finding
import Workflow.Check.Persist
import Workflow.Check.References
import Workflow.Command
import Workflow.Command.Arguments
import Workflow.Compile
import Workflow.Diagnostic
import Workflow.Digest
import Workflow.Engine
import Workflow.EventGraph
import Workflow.Host
import Workflow.Invocation
import Workflow.Log
import Workflow.Main
import Workflow.Manifest
import Workflow.Manifest.Agent
import Workflow.Manifest.Breach
import Workflow.Manifest.Contract
import Workflow.Manifest.Database
import Workflow.Manifest.Event
import Workflow.Manifest.Function
import Workflow.Manifest.Kinds
import Workflow.Manifest.Product
import Workflow.Manifest.Rules
import Workflow.Manifest.State
import Workflow.Manifest.Step
import Workflow.Manifest.Webhook
import Workflow.Number.Binary64
import Workflow.Number.Decimal
import Workflow.Output
import Workflow.Persist
import Workflow.Plan
import Workflow.Policy
import Workflow.Predicate
import Workflow.Predicate.Bind
import Workflow.Predicate.Evaluate
import Workflow.Predicate.Parse
import Workflow.Predicate.Render
import Workflow.Predicate.Token
import Workflow.Proofs.Accounting
import Workflow.Proofs.Applying
import Workflow.Proofs.Assignments
import Workflow.Proofs.Breakdown
import Workflow.Proofs.Check.Closed
import Workflow.Proofs.Check.Codes
import Workflow.Proofs.Check.EventReferences
import Workflow.Proofs.Check.Expressions
import Workflow.Proofs.Check.Findings
import Workflow.Proofs.Check.Legible
import Workflow.Proofs.Check.Names
import Workflow.Proofs.Commitment
import Workflow.Proofs.Compile
import Workflow.Proofs.Course
import Workflow.Proofs.Decisions
import Workflow.Proofs.Effects
import Workflow.Proofs.Endings
import Workflow.Proofs.Engine
import Workflow.Proofs.EventGraph
import Workflow.Proofs.Except
import Workflow.Proofs.Existence
import Workflow.Proofs.Host
import Workflow.Proofs.Index
import Workflow.Proofs.InputChecks
import Workflow.Proofs.JsonDocuments
import Workflow.Proofs.Lexical
import Workflow.Proofs.LifeCycle
import Workflow.Proofs.LocationTexts
import Workflow.Proofs.Locations
import Workflow.Proofs.Manifest
import Workflow.Proofs.Number.Numeral
import Workflow.Proofs.Number.Rounding
import Workflow.Proofs.Number.Shortest
import Workflow.Proofs.OutputChecks
import Workflow.Proofs.Plan
import Workflow.Proofs.Policy.Grants
import Workflow.Proofs.Policy.Names
import Workflow.Proofs.Policy.Occurrences
import Workflow.Proofs.Policy.Rules
import Workflow.Proofs.Predicate.Binding
import Workflow.Proofs.Predicate.Bound
import Workflow.Proofs.Predicate.Clause
import Workflow.Proofs.Predicate.Faults
import Workflow.Proofs.Predicate.Gaps
import Workflow.Proofs.Predicate.Grammar
import Workflow.Proofs.Predicate.Layout
import Workflow.Proofs.Predicate.Lexing
import Workflow.Proofs.Predicate.Misfits
import Workflow.Proofs.Predicate.Numerals
import Workflow.Proofs.Predicate.Params
import Workflow.Proofs.Predicate.Qualified
import Workflow.Proofs.Predicate.Reading
import Workflow.Proofs.Predicate.Recutting
import Workflow.Proofs.Predicate.Rendering
import Workflow.Proofs.Predicate.Requoting
import Workflow.Proofs.Predicate.RoundTrip
import Workflow.Proofs.Predicate.Tokens
import Workflow.Proofs.Predicate.TwoRuns
import Workflow.Proofs.Recording
import Workflow.Proofs.Rejections
import Workflow.Proofs.Reloading
import Workflow.Proofs.Remembering
import Workflow.Proofs.Reordered.Findings
import Workflow.Proofs.Reordered.Graphs
import Workflow.Proofs.Reordered.Lookups
import Workflow.Proofs.Reordered.Plans
import Workflow.Proofs.Reporting
import Workflow.Proofs.Requests
import Workflow.Proofs.RequiredFields
import Workflow.Proofs.Rereading
import Workflow.Proofs.Resolution
import Workflow.Proofs.Returns
import Workflow.Proofs.Routing
import Workflow.Proofs.Severities
import Workflow.Proofs.Shape
import Workflow.Proofs.Shape.Stable
import Workflow.Proofs.Shape.Tracing
import Workflow.Proofs.Shape.Trails
import Workflow.Proofs.StateGraph
import Workflow.Proofs.StateLiterals
import Workflow.Proofs.StatePaths
import Workflow.Proofs.StateRows
import Workflow.Proofs.States
import Workflow.Proofs.Store.Refusals
import Workflow.Proofs.Store.Schema
import Workflow.Proofs.Store.Tables
import Workflow.Proofs.Store.Updates
import Workflow.Proofs.StoreClauses
import Workflow.Proofs.StoreNeeds
import Workflow.Proofs.TableNames
import Workflow.Proofs.Template.DottedPaths
import Workflow.Proofs.Template.Readers
import Workflow.Proofs.Template.References
import Workflow.Proofs.Template.Spelling
import Workflow.Proofs.Template.Substitution
import Workflow.Proofs.Template.Verbatim
import Workflow.Proofs.Text.Digits
import Workflow.Proofs.Text.Escapes
import Workflow.Proofs.Text.Split
import Workflow.Proofs.Text.Units
import Workflow.Proofs.Unlogged
import Workflow.Proofs.Value.Canonical
import Workflow.Proofs.Value.Identity
import Workflow.Proofs.Value.Json
import Workflow.Proofs.Verdict
import Workflow.Proofs.Yaml.Building
import Workflow.Proofs.Yaml.Composing
import Workflow.Proofs.Yaml.Cursor
import Workflow.Proofs.Yaml.Numbers
import Workflow.Proofs.Yaml.Quoted
import Workflow.Proofs.Yaml.Scanning
import Workflow.Proofs.Yaml.Word
import Workflow.Proofs.Yaml.Writing
import Workflow.Rejection
import Workflow.Settings
import Workflow.Settings.Layers
import Workflow.Shape
import Workflow.Shape.Fault
import Workflow.Shape.Numeral
import Workflow.StateGraph
import Workflow.Store
import Workflow.Store.Cell
import Workflow.Store.Clause
import Workflow.Store.Column
import Workflow.Template
import Workflow.Template.Expr
import Workflow.Template.Lexeme
import Workflow.Template.Piece
import Workflow.Template.Resolve
import Workflow.Template.Tag
import Workflow.Text.Digit
import Workflow.Text.Name
import Workflow.Text.Printable
import Workflow.Text.Quoted
import Workflow.Text.Split
import Workflow.Text.Word
import Workflow.Toml
import Workflow.Value
import Workflow.Value.Canonical
import Workflow.Value.Display
import Workflow.Value.FromJson
import Workflow.Value.Json
import Workflow.Yaml
import Workflow.Yaml.Cursor
import Workflow.Yaml.Layout
import Workflow.Yaml.Lexeme
import Workflow.Yaml.Node
import Workflow.Yaml.Scalar
import Workflow.Yaml.Tag
