import DocStore.Catalog.Load
import DocStore.Catalog.Queries
import DocStore.Cell
import DocStore.Condition.Basic
import DocStore.Condition.Compile
import DocStore.Condition.Key
import DocStore.Condition.Operator
import DocStore.Condition.Predicate
import DocStore.Config
import DocStore.Database.Basic
import DocStore.Database.Collection
import DocStore.Decimal.Float
import DocStore.Decimal.Shortest
import DocStore.Document
import DocStore.Error
import DocStore.Filter.Like
import DocStore.Filter.Table
import DocStore.Json.Basic
import DocStore.Json.Number
import DocStore.Json.Printer
import DocStore.Json.Reader
import DocStore.Json.Reader.WellFormed
import DocStore.Json.Token
import DocStore.Jsonb.Eval
import DocStore.Jsonb.Expr
import DocStore.Jsonb.Parse
import DocStore.Jsonb.Path
import DocStore.Jsonb.Token
import DocStore.Memory.Basic
import DocStore.Memory.Execute
import DocStore.Namespace
import DocStore.Ordered
import DocStore.Patch
import DocStore.Session
import DocStore.Sql.Path
import DocStore.Sql.Piece
import DocStore.Statement
import DocStore.Table.Basic
import DocStore.Table.Find
import DocStore.Table.Save
import DocStore.Text.Blank
import DocStore.Text.Integer
import DocStore.Text.Quoted
import DocStore.Text.Split
import DocStore.Proofs.Catalog.Load
import DocStore.Proofs.Catalog.Rows
import DocStore.Proofs.Clause.Eval
import DocStore.Proofs.Clause.Expr
import DocStore.Proofs.Clause.PlainServer
import DocStore.Proofs.Clause.ReadBack
import DocStore.Proofs.Clause.Server
import DocStore.Proofs.Clause.Token
import DocStore.Proofs.Collection
import DocStore.Proofs.Condition.Compiled
import DocStore.Proofs.Condition.KeyField
import DocStore.Proofs.Condition.Meaning
import DocStore.Proofs.Condition.Routing
import DocStore.Proofs.Condition.Structure
import DocStore.Proofs.Condition.Values
import DocStore.Proofs.Condition.Written
import DocStore.Proofs.Config.Password
import DocStore.Proofs.Creation
import DocStore.Proofs.Document
import DocStore.Proofs.Entries
import DocStore.Proofs.Except
import DocStore.Proofs.Exchange
import DocStore.Proofs.Expr.Legible
import DocStore.Proofs.Expr.ReadBack
import DocStore.Proofs.Expr.Scan
import DocStore.Proofs.Filter.Like
import DocStore.Proofs.Filter.Params
import DocStore.Proofs.History
import DocStore.Proofs.Json.Place
import DocStore.Proofs.Json.Rounding
import DocStore.Proofs.Json.WellFormed
import DocStore.Proofs.KeyColumn
import DocStore.Proofs.Listing
import DocStore.Proofs.Memory.Create
import DocStore.Proofs.Memory.Find
import DocStore.Proofs.Memory.Name
import DocStore.Proofs.Memory.NoSave
import DocStore.Proofs.Memory.Order
import DocStore.Proofs.Memory.Save
import DocStore.Proofs.Memory.Select
import DocStore.Proofs.Memory.Statement
import DocStore.Proofs.Namespace
import DocStore.Proofs.NewId
import DocStore.Proofs.Operation
import DocStore.Proofs.Patch.Append
import DocStore.Proofs.Patch.Assignment
import DocStore.Proofs.Patch.Commute
import DocStore.Proofs.Patch.Insertion
import DocStore.Proofs.Patch.Object
import DocStore.Proofs.Patch.OwnPath
import DocStore.Proofs.Patch.Parents
import DocStore.Proofs.Patch.Place
import DocStore.Proofs.Patch.Removal
import DocStore.Proofs.Patch.Written
import DocStore.Proofs.Path.ArrayText
import DocStore.Proofs.Path.Parts
import DocStore.Proofs.Path.Walk
import DocStore.Proofs.QualifiedName
import DocStore.Proofs.Reachable
import DocStore.Proofs.Refusal
import DocStore.Proofs.Save
import DocStore.Proofs.Sending
import DocStore.Proofs.Sql.Built
import DocStore.Proofs.Sql.Lexeme
import DocStore.Proofs.Sql.Template
import DocStore.Proofs.Text.Integer
import DocStore.Proofs.Text.Position
import DocStore.Proofs.Text.Split
