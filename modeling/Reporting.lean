import Reporting.Aggregate
import Reporting.Calendar.Date
import Reporting.Calendar.DateTime
import Reporting.Calendar.Form
import Reporting.Calendar.Reader
import Reporting.Calendar.Text
import Reporting.Command.Arguments
import Reporting.Command.Basic
import Reporting.Command.Error
import Reporting.Command.Folder
import Reporting.Command.Host
import Reporting.Command.Item
import Reporting.Command.Listing
import Reporting.Command.Load
import Reporting.Command.Run
import Reporting.Command.Usage
import Reporting.Computation.Basic
import Reporting.Computation.Builtin
import Reporting.Computation.Context
import Reporting.Computation.Dependencies
import Reporting.Computation.Grouping
import Reporting.Computation.Instance
import Reporting.Computation.Registry
import Reporting.Computation.Session
import Reporting.Crosstab
import Reporting.Csv.Cell
import Reporting.Csv.Load
import Reporting.Csv.Reader
import Reporting.Csv.Writer
import Reporting.Decimal.Fixed
import Reporting.Decimal.Layout
import Reporting.Decimal.Reader
import Reporting.Decimal.Shortest
import Reporting.Filter
import Reporting.Json.Basic
import Reporting.Json.Reader
import Reporting.Keyed
import Reporting.Main
import Reporting.Memory
import Reporting.Path
import Reporting.Proofs.Calendar.Count
import Reporting.Proofs.Calendar.Forms
import Reporting.Proofs.Calendar.Order
import Reporting.Proofs.Calendar.Reading
import Reporting.Proofs.Calendar.Sorting
import Reporting.Proofs.Computation.Asking
import Reporting.Proofs.Computation.Builtin
import Reporting.Proofs.Computation.Changing
import Reporting.Proofs.Computation.Cycles
import Reporting.Proofs.Computation.Measures
import Reporting.Proofs.Computation.Once
import Reporting.Proofs.Computation.Preparing
import Reporting.Proofs.Computation.Requery
import Reporting.Proofs.Computation.Requirements
import Reporting.Proofs.Computation.Settling
import Reporting.Proofs.Computation.Share
import Reporting.Proofs.Computation.Sharing
import Reporting.Proofs.Crosstab
import Reporting.Proofs.Csv
import Reporting.Proofs.Csv.Cells
import Reporting.Proofs.Csv.Loading
import Reporting.Proofs.Decimal.ReadBack
import Reporting.Proofs.Decimal.Shortest
import Reporting.Proofs.Entities
import Reporting.Proofs.Floats
import Reporting.Proofs.Floats.Rounding
import Reporting.Proofs.Floats.Scientific
import Reporting.Proofs.Keys
import Reporting.Proofs.Kinds
import Reporting.Proofs.Lookups
import Reporting.Proofs.Memory
import Reporting.Proofs.Memory.Index
import Reporting.Proofs.Memory.Insertions
import Reporting.Proofs.Memory.Separation
import Reporting.Proofs.Memory.Sorting
import Reporting.Proofs.Memory.Traversal
import Reporting.Proofs.Order
import Reporting.Proofs.Parts
import Reporting.Proofs.Ranges
import Reporting.Proofs.Report.Active
import Reporting.Proofs.Report.Balances
import Reporting.Proofs.Report.BaseRows
import Reporting.Proofs.Report.Columns
import Reporting.Proofs.Report.Contexts
import Reporting.Proofs.Report.Display
import Reporting.Proofs.Report.Grouped
import Reporting.Proofs.Report.Naming
import Reporting.Proofs.Report.Owners
import Reporting.Proofs.Report.Partition
import Reporting.Proofs.Report.Pinned
import Reporting.Proofs.Report.Planning
import Reporting.Proofs.Report.Providers
import Reporting.Proofs.Report.QueryLog
import Reporting.Proofs.Report.Refusals
import Reporting.Proofs.Report.Related
import Reporting.Proofs.Report.Requery
import Reporting.Proofs.Report.Shapes
import Reporting.Proofs.Report.Share
import Reporting.Proofs.Report.Sourcing
import Reporting.Proofs.Results
import Reporting.Proofs.Sql.Agreement
import Reporting.Proofs.Sql.Cell
import Reporting.Proofs.Sql.Checks
import Reporting.Proofs.Sql.Compile
import Reporting.Proofs.Sql.Counts
import Reporting.Proofs.Sql.Dates
import Reporting.Proofs.Sql.Grouping
import Reporting.Proofs.Sql.Groups
import Reporting.Proofs.Sql.Joins
import Reporting.Proofs.Sql.KeyedGroups
import Reporting.Proofs.Sql.Mirror
import Reporting.Proofs.Sql.Numbers
import Reporting.Proofs.Sql.Partition
import Reporting.Proofs.Sql.Reading
import Reporting.Proofs.Sql.Related
import Reporting.Proofs.Sql.Storage
import Reporting.Proofs.Sql.Tables
import Reporting.Proofs.Sql.Tests
import Reporting.Proofs.Sql.Texts
import Reporting.Proofs.Tiling
import Reporting.Proofs.Walks
import Reporting.Proofs.Windows
import Reporting.Report.Basic
import Reporting.Report.Chart
import Reporting.Report.Column
import Reporting.Report.Definition
import Reporting.Report.Error
import Reporting.Report.Options
import Reporting.Report.Plan
import Reporting.Report.Response
import Reporting.Report.Shape
import Reporting.Report.Table
import Reporting.Row
import Reporting.Schema
import Reporting.Settings
import Reporting.Source.Basic
import Reporting.Source.Error
import Reporting.Sql.Cell
import Reporting.Sql.Compile
import Reporting.Sql.Database
import Reporting.Sql.Evaluate
import Reporting.Sql.Image.Basic
import Reporting.Sql.Image.Declaration
import Reporting.Sql.Image.Pages
import Reporting.Sql.Image.Record
import Reporting.Sql.Piece
import Reporting.Sql.Statement
import Reporting.Sql.Store
import Reporting.Text.Aligned
import Reporting.Text.Blank
import Reporting.Text.Digits
import Reporting.Text.Lower
import Reporting.Text.Quoted
import Reporting.Text.Unseen
import Reporting.Text.Utf8
import Reporting.Toml.Reader
import Reporting.Toml.Scalar
import Reporting.Toml.Table
import Reporting.Tree.Basic
import Reporting.Tree.Schema
import Reporting.Value
import Reporting.Window
