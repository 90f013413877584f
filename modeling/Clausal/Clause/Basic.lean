import Clausal.Clause.Assignment
import Clausal.Clause.ColumnList
import Clausal.Clause.EntityRef
import Clausal.Clause.Filter
import Clausal.Token.Keyword

/-!
# Clauses

The parts of which a statement is made. A clause opens a statement, belongs to its body, or modifies the
result. A clause of the body that has nothing to say is left out of the text.
-/

namespace Clausal

/-- What a query gives for each row. -/
inductive Selection where
  /-- The whole primary entity. -/
  | all
  | values (es : List Expr)
  | construct (name : String) (args : List Expr)
  deriving BEq, Repr

namespace Selection

def exprs : Selection → List Expr
  | all => []
  | values es => es
  | construct _ es => es

def mapExprs (f : Expr → Expr) : Selection → Selection
  | all => all
  | values es => values (es.map f)
  | construct name es => construct name (es.map f)

end Selection

/-- What a query gives, and whether equal rows are given once. -/
structure Projection where
  distinct : Bool
  selection : Selection
  deriving BEq, Repr

/-- What happens to a row that is already there. -/
inductive InsertMode where
  | insert
  | upsert
  | merge
  deriving DecidableEq, Repr

def InsertMode.keyword : InsertMode → Keyword
  | insert => .insert
  | upsert => .upsert
  | merge => .merge

inductive Direction where
  | asc
  | desc
  deriving DecidableEq, Repr

structure OrderTerm where
  expr : Expr
  direction : Direction
  deriving BEq, Repr

structure IndexHead where
  name : String
  unique : Bool
  deriving DecidableEq, Repr

inductive Clause where
  | select (p : Projection)
  | insert (mode : InsertMode)
  | update (e : EntityRef)
  | delete
  | createTable (e : EntityRef)
  | createIndex (h : IndexHead)
  | sources (s : Sources)
  | into (e : EntityRef)
  | on (e : EntityRef)
  | filter (f : Filter)
  | groupBy (ps : List Path)
  | having (f : Filter)
  | orderBy (ts : List OrderTerm)
  | values (as : List Assignment)
  | set (as : List Assignment)
  | columns (l : ColumnList)
  | indexColumns (ps : List Path)
  | limit (count : Option UInt64)
  | offset (count : Option UInt64)
  deriving BEq, Repr

namespace Clause

/-- The place of a clause in a statement. -/
inductive Role where
  /-- Opens a statement. -/
  | start
  /-- Belongs to the body. -/
  | main
  /-- Modifies the result. -/
  | other
  deriving DecidableEq, Repr

def role : Clause → Role
  | select _ | insert _ | update _ | delete | createTable _ | createIndex _ => .start
  | limit _ | offset _ => .other
  | _ => .main

def name : Clause → String
  | select _ => "select"
  | insert _ => "insert"
  | update _ => "update"
  | delete => "delete"
  | createTable _ => "createTable"
  | createIndex _ => "createIndex"
  | sources _ => "from"
  | into _ => "into"
  | on _ => "on"
  | filter _ => "where"
  | groupBy _ => "groupBy"
  | having _ => "having"
  | orderBy _ => "orderBy"
  | values _ => "values"
  | set _ => "set"
  | columns _ => "columns"
  | indexColumns _ => "indexColumns"
  | limit _ => "limit"
  | offset _ => "offset"

/-- Whether a clause has nothing to say. -/
def isOmitted : Clause → Bool
  | filter f | having f => f.isOmitted
  | groupBy ps | indexColumns ps => ps.isEmpty
  | orderBy ts => ts.isEmpty
  | values as | set as => as.isEmpty
  | columns l => l.isOmitted
  | limit count | offset count => count.isNone
  | _ => false

def bound? : Clause → Option (List EntityRef)
  | update e | createTable e | into e | on e => some [e]
  | sources s => some s.all
  | _ => none

def items? : Clause → Option Nat
  | groupBy ps | indexColumns ps => some ps.length
  | orderBy ts => some ts.length
  | values as | set as => some as.length
  | columns l => some l.groups.length
  | _ => none

end Clause

end Clausal
