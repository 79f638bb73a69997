import DataAccess.Affinity
import DataAccess.Code.Block
import DataAccess.Code.ClassMembers
import DataAccess.Code.Closure
import DataAccess.Code.Emit
import DataAccess.Code.RuntimeNames
import DataAccess.CommandLine.Arguments
import DataAccess.CommandLine.Run
import DataAccess.Compile.Converters
import DataAccess.Compile.EntityMethod
import DataAccess.Compile.GeneratedDao
import DataAccess.Compile.Plugin
import DataAccess.Compile.QueryMethod
import DataAccess.Compile.Round
import DataAccess.Compile.Setting
import DataAccess.Compile.TransactionMethod
import DataAccess.Config
import DataAccess.Config.Codec
import DataAccess.Convert.Argument
import DataAccess.Convert.Column
import DataAccess.Convert.Converter
import DataAccess.Convert.Store
import DataAccess.Data.Decode
import DataAccess.Data.Json
import DataAccess.Data.Toml
import DataAccess.Data.Toml.Scalar
import DataAccess.Data.Toml.Table
import DataAccess.Data.Value
import DataAccess.Delivery.Provider
import DataAccess.Delivery.Reactive
import DataAccess.Delivery.Read
import DataAccess.Delivery.Write
import DataAccess.Diagnostics.Attempt
import DataAccess.Diagnostics.Codec
import DataAccess.Diagnostics.Log
import DataAccess.Diagnostics.Problem
import DataAccess.Diagnostics.Warning
import DataAccess.Environment
import DataAccess.Main
import DataAccess.Project.Load
import DataAccess.Project.Path
import DataAccess.Proofs.Code.AbsentValues
import DataAccess.Proofs.Code.Draft
import DataAccess.Proofs.Code.EmittedLines
import DataAccess.Proofs.Code.LineStarts
import DataAccess.Proofs.Code.Lines
import DataAccess.Proofs.Code.Literals
import DataAccess.Proofs.Code.LocalNames
import DataAccess.Proofs.Code.Nesting
import DataAccess.Proofs.Code.Program
import DataAccess.Proofs.Code.Reading
import DataAccess.Proofs.Code.Shadowing
import DataAccess.Proofs.Code.SharedMembers
import DataAccess.Proofs.Code.Splicing
import DataAccess.Proofs.CommandLine.GeneratedFiles
import DataAccess.Proofs.Compile.ConverterScopes
import DataAccess.Proofs.Compile.DeferredTypes
import DataAccess.Proofs.Compile.Emission
import DataAccess.Proofs.Compile.EntityResults
import DataAccess.Proofs.Compile.Locality
import DataAccess.Proofs.Compile.Narrowing
import DataAccess.Proofs.Compile.ParameterMatching
import DataAccess.Proofs.Compile.ProviderOrder
import DataAccess.Proofs.Compile.Resolution
import DataAccess.Proofs.Compile.Suppression
import DataAccess.Proofs.Convert.Arguments
import DataAccess.Proofs.Convert.Binding
import DataAccess.Proofs.Convert.ChainCode
import DataAccess.Proofs.Convert.Chains
import DataAccess.Proofs.Convert.Counting
import DataAccess.Proofs.Convert.Drafts
import DataAccess.Proofs.Convert.Lifting
import DataAccess.Proofs.Convert.Preference
import DataAccess.Proofs.Convert.Storage
import DataAccess.Proofs.Delivery.ClaimedTypes
import DataAccess.Proofs.Delivery.EmptyCompletion
import DataAccess.Proofs.Delivery.LineKinds
import DataAccess.Proofs.Delivery.NestedDelivery
import DataAccess.Proofs.Delivery.Observation
import DataAccess.Proofs.Delivery.Pages
import DataAccess.Proofs.Delivery.Provision
import DataAccess.Proofs.Delivery.Registration
import DataAccess.Proofs.Delivery.Transactions
import DataAccess.Proofs.Diagnostics.Accounting
import DataAccess.Proofs.Diagnostics.Buffering
import DataAccess.Proofs.Diagnostics.Findings
import DataAccess.Proofs.Diagnostics.Reports
import DataAccess.Proofs.Reference.ViewCreation
import DataAccess.Proofs.Rows.AbsentReads
import DataAccess.Proofs.Rows.AccessedTables
import DataAccess.Proofs.Rows.Accounting
import DataAccess.Proofs.Rows.ColumnPartition
import DataAccess.Proofs.Rows.KnownIndices
import DataAccess.Proofs.Rows.Literals
import DataAccess.Proofs.Rows.NarrowedRows
import DataAccess.Proofs.Rows.NestedReading
import DataAccess.Proofs.Rows.ParentFields
import DataAccess.Proofs.Rows.PlainReading
import DataAccess.Proofs.Rows.Pruning
import DataAccess.Proofs.Rows.RelationKeys
import DataAccess.Proofs.Rows.Resolution
import DataAccess.Proofs.Rows.ResolvedRows
import DataAccess.Proofs.Rows.ResultTypes
import DataAccess.Proofs.Rows.Selection
import DataAccess.Proofs.Rows.SelectionTokens
import DataAccess.Proofs.Rows.SharedKeys
import DataAccess.Proofs.Rows.Writing
import DataAccess.Proofs.Schema.Embedding
import DataAccess.Proofs.Schema.Places
import DataAccess.Proofs.Schema.Unfolding
import DataAccess.Proofs.Sql.Clauses
import DataAccess.Proofs.Sql.CommonTableScopes
import DataAccess.Proofs.Sql.KeywordTables
import DataAccess.Proofs.Sql.LexErrors
import DataAccess.Proofs.Sql.LexemeJoints
import DataAccess.Proofs.Sql.LexemeReading
import DataAccess.Proofs.Sql.LexemeSplit
import DataAccess.Proofs.Sql.MainVerb
import DataAccess.Proofs.Sql.NamePieces
import DataAccess.Proofs.Sql.Normalization
import DataAccess.Proofs.Sql.Quotations
import DataAccess.Proofs.Sql.ReaderSteps
import DataAccess.Proofs.Sql.Sections
import DataAccess.Proofs.Sql.SelectStatement
import DataAccess.Proofs.Sql.TableLists
import DataAccess.Proofs.Sql.TokenPositions
import DataAccess.Proofs.Statement.Accounting
import DataAccess.Proofs.Statement.BindIndices
import DataAccess.Proofs.Statement.EntityBody
import DataAccess.Proofs.Statement.EntityColumns
import DataAccess.Proofs.Statement.EntityDrafts
import DataAccess.Proofs.Statement.EntityPreparation
import DataAccess.Proofs.Statement.EntityRuns
import DataAccess.Proofs.Statement.EntitySlots
import DataAccess.Proofs.Statement.NestedBinding
import DataAccess.Proofs.Statement.Numbering
import DataAccess.Proofs.Statement.ParameterNames
import DataAccess.Proofs.Statement.Placeholders
import DataAccess.Proofs.Statement.PlainBinding
import DataAccess.Proofs.Statement.Preparation
import DataAccess.Proofs.Statement.QueryText
import DataAccess.Proofs.Statement.QuotedNames
import DataAccess.Proofs.Statement.TidyDrafts
import DataAccess.Proofs.Text.SnakeCase
import DataAccess.Proofs.TypeExpr.Display
import DataAccess.Proofs.TypeExpr.Grammar
import DataAccess.Reference.Catalog
import DataAccess.Reference.Database
import DataAccess.Reference.Expansion
import DataAccess.Reference.Function
import DataAccess.Reference.Grammar.Definition
import DataAccess.Reference.Grammar.Expression
import DataAccess.Reference.Grammar.Reader
import DataAccess.Reference.Grammar.Select
import DataAccess.Reference.Grammar.Statement
import DataAccess.Reference.Issue
import DataAccess.Reference.Limit
import DataAccess.Reference.Prepared
import DataAccess.Reference.Resolution
import DataAccess.Reference.Retry
import DataAccess.Reference.Scope
import DataAccess.Reference.Token
import DataAccess.Reference.Tree
import DataAccess.Reference.Write
import DataAccess.Rows.BoundField
import DataAccess.Rows.EntityRow
import DataAccess.Rows.Pruning
import DataAccess.Rows.RecordRow
import DataAccess.Rows.RelatedRows
import DataAccess.Rows.Result
import DataAccess.Rows.Row
import DataAccess.Schema.Codec
import DataAccess.Schema.Dao
import DataAccess.Schema.Declarations
import DataAccess.Schema.Field
import DataAccess.Schema.Record
import DataAccess.Schema.ResultCodec
import DataAccess.Schema.Shape
import DataAccess.Sql.Grammar.Expression
import DataAccess.Sql.Grammar.Reader
import DataAccess.Sql.Grammar.Select
import DataAccess.Sql.Grammar.Statement
import DataAccess.Sql.Grammar.Symbol
import DataAccess.Sql.KeywordScan
import DataAccess.Sql.Lexeme
import DataAccess.Sql.Mention
import DataAccess.Sql.Query
import DataAccess.Sql.StatementKind
import DataAccess.Sql.Token
import DataAccess.Statement.EntityWrite
import DataAccess.Statement.Placeholders
import DataAccess.Statement.QueryCode
import DataAccess.Text.CharClass
import DataAccess.Text.CharTable
import DataAccess.Text.Literal
import DataAccess.Text.NameSet
import DataAccess.Text.Words
import DataAccess.TypeExpr
import DataAccess.TypeExpr.Syntax
