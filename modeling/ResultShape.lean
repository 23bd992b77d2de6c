import ResultShape.Batch
import ResultShape.Catalog.Shared
import ResultShape.Config.Document
import ResultShape.Dependency
import ResultShape.Json.Printer
import ResultShape.Model.Document
import ResultShape.Proofs.Analysis.Layers
import ResultShape.Proofs.Analysis.Outcome
import ResultShape.Proofs.Sql.Inner
import ResultShape.Proofs.Analysis.Limit
import ResultShape.Proofs.Analysis.Termination
import ResultShape.Proofs.Routine.Rules
import ResultShape.Proofs.Routine.NestingLimit
import ResultShape.Proofs.Analysis.Restoration
import ResultShape.Proofs.Analysis.Naming
import ResultShape.Proofs.Routine.Outcome
import ResultShape.Proofs.Scope.Columns
import ResultShape.Proofs.Routine.DistinctNames
import ResultShape.Proofs.Scope.Origin
import ResultShape.Proofs.Analysis.CteColumns
import ResultShape.Proofs.Analysis.Register
import ResultShape.Proofs.Analysis.OuterJoin
import ResultShape.Proofs.Analysis.Success
import ResultShape.Proofs.Analysis.Qualifier
import ResultShape.Proofs.Analysis.Replay
import ResultShape.Proofs.Analysis.Recursion
import ResultShape.Proofs.Analysis.FirstReference
import ResultShape.Proofs.Scope.Padding
import ResultShape.Proofs.Analysis.Weakening
import ResultShape.Proofs.Analysis.ReadBack
import ResultShape.Proofs.Analysis.NamedQuery
import ResultShape.Proofs.Routine.Idle
import ResultShape.Proofs.Routine.NamedQuery
import ResultShape.Proofs.Scope.Laziness
import ResultShape.Proofs.Alike.Likeness
import ResultShape.Proofs.Text.Fold
import ResultShape.Proofs.Alike.Column
import ResultShape.Proofs.Alike.Naming
import ResultShape.Proofs.Alike.Analysis
import ResultShape.Proofs.Alike.Expr
import ResultShape.Proofs.Alike.Query
import ResultShape.Proofs.Alike.Routine
import ResultShape.Proofs.Routine.CaseFolding
import ResultShape.Proofs.Alike.Model
import ResultShape.Proofs.Routine.UserTypes
import ResultShape.Proofs.Routine.Ambiguity
import ResultShape.Proofs.ForJson.Words
import ResultShape.Proofs.ForJson.PrintedOptions
import ResultShape.Proofs.ForJson.NestedShape
import ResultShape.Proofs.Analysis.NestedJson
import ResultShape.Proofs.Analysis.TableEntries
import ResultShape.Proofs.Analysis.TableColumns
import ResultShape.Proofs.Model.Mentions
import ResultShape.Proofs.Routine.TableDependencies
import ResultShape.Proofs.Sql.Places
import ResultShape.Proofs.Analysis.Stays
import ResultShape.Proofs.Used.Column
import ResultShape.Proofs.Used.Scope
import ResultShape.Proofs.Used.Context
import ResultShape.Proofs.Used.Expr
import ResultShape.Proofs.Used.Query
import ResultShape.Proofs.Used.Routine
import ResultShape.Proofs.Routine.UsedObjects
import ResultShape.Proofs.Json.Record
import ResultShape.Proofs.Model.Document
import ResultShape.Proofs.Catalog.Answers
import ResultShape.Proofs.Routine.Settings
import ResultShape.Proofs.Routine.ControlFlow
import ResultShape.Proofs.Batch
import ResultShape.Proofs.Alike.Same
import ResultShape.Proofs.Analysis.Parentheses
import ResultShape.Proofs.Analysis.NullFunctions
import ResultShape.Proofs.Routine.NullFunctions
import ResultShape.Proofs.Analysis.Star
import ResultShape.Proofs.Analysis.Forms
import ResultShape.Proofs.Analysis.Laziness
import ResultShape.Proofs.Analysis.Settled
import ResultShape.Proofs.Analysis.MinMax
import ResultShape.Proofs.Analysis.Collisions
import ResultShape.Proofs.Routine.QueryParentheses
import ResultShape.Proofs.Analysis.Values
import ResultShape.Proofs.Analysis.AggregateMarks
import ResultShape.Proofs.Analysis.Placeholders
import ResultShape.Proofs.Typing.Precedence
import ResultShape.Proofs.Typing.Nullability
import ResultShape.Proofs.Routine.Conditionals
import ResultShape.Proofs.Analysis.SetOperations
import ResultShape.Proofs.Analysis.SelfReference
import ResultShape.Proofs.Typing.Widening
import ResultShape.Proofs.Text.Dotted
import ResultShape.Proofs.ForJson.DottedFields
import ResultShape.Proofs.Model.FirstMentions
import ResultShape.Proofs.Catalog.Lookups
import ResultShape.Proofs.Json.Row
import ResultShape.Proofs.Catalog.Sections
import ResultShape.Proofs.Routine.Bindings
import ResultShape.Proofs.Analysis.LeafEntries
import ResultShape.Proofs.Analysis.SourceEntries
import ResultShape.Proofs.Routine.StoredColumns
import ResultShape.Proofs.Routine.VariableTypes
import ResultShape.Proofs.Analysis.Targets
import ResultShape.Proofs.Routine.ChangedRows
import ResultShape.Proofs.Text.Names
import ResultShape.Proofs.Routine.Frame
import ResultShape.Proofs.Routine.ReturnTable
import ResultShape.Proofs.Routine.Returns
import ResultShape.Proofs.Sql.Completion
import ResultShape.Proofs.Analysis.Completion
import ResultShape.Proofs.Routine.DefaultSchema
