import Clausal.Aliases
import Clausal.Binary64.Basic
import Clausal.Binary64.Layout
import Clausal.Binary64.Shortest
import Clausal.Calendar.Date
import Clausal.Calendar.Digits
import Clausal.Calendar.Timestamp
import Clausal.Clause.Assignment
import Clausal.Clause.Basic
import Clausal.Clause.ColumnList
import Clausal.Clause.EntityRef
import Clausal.Clause.Filter
import Clausal.Dialect
import Clausal.Dictionary
import Clausal.Draft.Basic
import Clausal.Draft.Change
import Clausal.Draft.Definition
import Clausal.Draft.Query
import Clausal.Draft.Scope
import Clausal.Error
import Clausal.Expr.Basic
import Clausal.Expr.Leaves
import Clausal.Expr.Operator
import Clausal.Expr.Path
import Clausal.Expr.Render
import Clausal.Expr.Simplify
import Clausal.Json.Basic
import Clausal.Json.Printer
import Clausal.Json.Reader
import Clausal.Json.Shape
import Clausal.Mapping.Assembly
import Clausal.Mapping.Columns
import Clausal.Mapping.Grouping
import Clausal.Mapping.Mapper
import Clausal.Mapping.Naming
import Clausal.Mapping.Registry
import Clausal.Parse.Cursor
import Clausal.Parse.Error
import Clausal.Parse.Expr
import Clausal.Parse.Fragment
import Clausal.Parse.Statement
import Clausal.Record.Declared
import Clausal.Record.Error
import Clausal.Record.Mapper
import Clausal.Record.Row
import Clausal.Record.Segment
import Clausal.Schema.Catalog
import Clausal.Schema.ColumnType
import Clausal.Schema.Entity
import Clausal.Schema.LogicalType
import Clausal.Statement.Basic
import Clausal.Statement.Render
import Clausal.Text.Alphabetic
import Clausal.Text.Case
import Clausal.Text.Class
import Clausal.Text.Hex
import Clausal.Text.Lower
import Clausal.Text.Numeric
import Clausal.Text.Offset
import Clausal.Text.Quoted
import Clausal.Text.Ranges
import Clausal.Text.Snake
import Clausal.Token.Basic
import Clausal.Token.Keyword
import Clausal.Token.Scan
import Clausal.Token.Symbol
import Clausal.Value.Basic
import Clausal.Value.Literal
import Clausal.Wire.Clause
import Clausal.Wire.Dialect
import Clausal.Wire.Expr
import Clausal.Wire.Schema
import Clausal.Wire.Statement
import Clausal.Wire.Value
import Clausal.Proofs.Text.Classes
import Clausal.Proofs.Token.Kinds
import Clausal.Proofs.Token.Lexemes
import Clausal.Proofs.Token.Numeral
import Clausal.Proofs.Token.Atoms
import Clausal.Proofs.Record.Standard
import Clausal.Proofs.Record.RoundTrip
import Clausal.Proofs.Draft.Paths
import Clausal.Proofs.Draft.Candidates
import Clausal.Proofs.Draft.Scope
import Clausal.Proofs.Draft.Recording
import Clausal.Proofs.Draft.Renaming
import Clausal.Proofs.Draft.Consistency
import Clausal.Proofs.Draft.Finishing
import Clausal.Proofs.Binary64.Nearest
import Clausal.Proofs.Binary64.ReadBack
import Clausal.Proofs.Expr.Spelling
import Clausal.Proofs.Parse.Expr
import Clausal.Proofs.Parse.Operand
import Clausal.Proofs.Parse.Position
import Clausal.Proofs.Parse.ReadBack
import Clausal.Proofs.Parse.Reads
import Clausal.Proofs.Schema.ColumnType
import Clausal.Proofs.Expr.Places
import Clausal.Proofs.Statement.WellFormed
import Clausal.Proofs.Statement.Soundness
import Clausal.Proofs.Statement.Spelling
import Clausal.Proofs.Token.Names
import Clausal.Proofs.Parse.Gives
import Clausal.Proofs.Parse.Column
import Clausal.Proofs.Expr.Folding
import Clausal.Proofs.Parse.Filter
import Clausal.Proofs.Statement.Canonical
import Clausal.Proofs.Parse.Clauses
import Clausal.Proofs.Parse.Statement
import Clausal.Proofs.Statement.ReadBack
import Clausal.Proofs.Statement.Equality
import Clausal.Proofs.Parse.GivenClauses
import Clausal.Proofs.Parse.GivenStatement
import Clausal.Proofs.Statement.FixedPoint
import Clausal.Proofs.Mapping.Cycles
import Clausal.Proofs.Mapping.Depth
import Clausal.Proofs.Record.Reading
import Clausal.Proofs.Mapping.Expansion
import Clausal.Proofs.Record.Columns
import Clausal.Proofs.Record.Presence
import Clausal.Proofs.Json.Shape
import Clausal.Proofs.Wire.Schema
import Clausal.Proofs.Wire.Expr
import Clausal.Proofs.Wire.Clause
import Clausal.Proofs.Wire.Statement
import Clausal.Proofs.Parse.Agree
import Clausal.Proofs.Sorting
import Clausal.Proofs.Parse.Known
import Clausal.Proofs.Mapping.Grouping
import Clausal.Proofs.Statement.Known
import Clausal.Proofs.Statement.Table
import Clausal.Proofs.Expr.Truth
import Clausal.Proofs.Clause.Filter
import Clausal.Proofs.Statement.Overwriting
import Clausal.Proofs.Parse.Compare
import Clausal.Proofs.Parse.Elsewhere
import Clausal.Proofs.Parse.Deferred
import Clausal.Proofs.Statement.Resolved
import Clausal.Proofs.Parse.CustomType
import Clausal.Proofs.Mapping.Composite
import Clausal.Proofs.Text.Place
import Clausal.Proofs.Token.Tiling
import Clausal.Proofs.Parse.Place
import Clausal.Proofs.Statement.Failure
import Clausal.Proofs.Text.Quoted
import Clausal.Proofs.Token.Blob
import Clausal.Proofs.Draft.FieldOrder
import Clausal.Proofs.Token.Layout
import Clausal.Proofs.Statement.Layout
import Clausal.Proofs.Parse.Whole
import Clausal.Proofs.Expr.Numbers
import Clausal.Proofs.Parse.Numbers
import Clausal.Proofs.Parse.Uses
import Clausal.Proofs.Parse.WrittenClauses
import Clausal.Proofs.Parse.Digits
import Clausal.Proofs.Statement.Numbers
