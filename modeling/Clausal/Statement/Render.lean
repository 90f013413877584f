import Clausal.Expr.Render
import Clausal.Statement.Basic

/-!
# Text of statements

A statement is written clause by clause, with one space between neighbours; clauses that have nothing
to say are left out. The canonical text is the one that is read back.
-/

namespace Clausal

def EntityRef.render (d : Dialect) (e : EntityRef) : String :=
  match e.aliasName with
  | none => d.identifier e.name
  | some a => d.identifier e.name ++ (if d.aliasKeyword then " AS " else " ") ++ d.identifier a

def Path.renderAll (d : Dialect) (ps : List Path) : String :=
  String.intercalate ", " (ps.map (Path.render d))

/-- The conditions of a filter, each as an operand of a conjunction. -/
def Filter.render (d : Dialect) : Filter → String
  | unsatisfiable => "FALSE"
  | all ps => String.intercalate " AND " (ps.map (Expr.renderIn d Precedence.and false))

/-- What is selected; `primary` is the alias of the primary entity. -/
def Selection.render (d : Dialect) (primary : Option String) : Selection → String
  | all =>
    match primary, d.selectAll with
    | some a, .byAlias => d.identifier a
    | _, _ => "*"
  | values es => "(" ++ Expr.renderAll d es ++ ")"
  | construct name es => "NEW " ++ d.identifier name ++ "(" ++ Expr.renderAll d es ++ ")"

/-- A term to order by; only the descending direction is written. -/
def OrderTerm.render (d : Dialect) (t : OrderTerm) : String :=
  match t.direction with
  | .asc => t.expr.render d
  | .desc => t.expr.render d ++ " DESC"

def Assignment.render (d : Dialect) (a : Assignment) : String :=
  a.path.render d ++ "=" ++ a.value.render d

def Dialect.identifiers (d : Dialect) (names : List String) : String :=
  "(" ++ String.intercalate ", " (names.map d.identifier) ++ ")"

def Column.render (d : Dialect) (c : Column) : String := d.identifier c.name ++ " " ++ d.columnType c.type

def Constraint.Kind.render (d : Dialect) : Constraint.Kind → String
  | primaryKey names => "PRIMARY KEY " ++ d.identifiers names
  | unique names => "UNIQUE " ++ d.identifiers names
  | check e => "CHECK (" ++ e.render d ++ ")"

def Constraint.render (d : Dialect) (c : Constraint) : String :=
  "CONSTRAINT " ++ d.identifier c.name ++ " " ++ c.kind.render d

/-- The columns in their order, then the constraints in theirs. -/
def ColumnList.render (d : Dialect) (l : ColumnList) : String :=
  "(" ++ String.intercalate ", "
    ((l.sortedGroups.flatMap (·.columns)).map (Column.render d)
      ++ l.sortedConstraints.map (Constraint.render d)) ++ ")"

def renderCount (keyword : Keyword) (count : Option UInt64) : String :=
  match count with
  | none => ""
  | some n => keyword.text ++ " " ++ toString n.toNat

def Clause.render (d : Dialect) (primary : Option String) : Clause → String
  | select p =>
    "SELECT " ++ (if p.distinct then "DISTINCT " else "") ++ p.selection.render d primary
  | insert mode => mode.keyword.text
  | update e => "UPDATE " ++ e.render d
  | delete => "DELETE"
  | createTable e => "CREATE TABLE " ++ d.identifier e.name
  | createIndex h => "CREATE " ++ (if h.unique then "UNIQUE " else "") ++ "INDEX " ++ d.identifier h.name
  | sources s => "FROM " ++ String.intercalate ", " (s.all.map (EntityRef.render d))
  | into e => "INTO " ++ e.render d
  | on e => "ON " ++ e.render d
  | filter f => "WHERE " ++ f.render d
  | groupBy ps => "GROUP BY " ++ Path.renderAll d ps
  | having f => "HAVING " ++ f.render d
  | orderBy ts => "ORDER BY " ++ String.intercalate ", " (ts.map (OrderTerm.render d))
  | values as =>
    "(" ++ Path.renderAll d ((Assignment.effective as).map (·.path)) ++ ") VALUES ("
      ++ Expr.renderAll d ((Assignment.effective as).map (·.value)) ++ ")"
  | set as => "SET " ++ String.intercalate ", " ((Assignment.effective as).map (Assignment.render d))
  | columns l => l.render d
  | indexColumns ps => "(" ++ Path.renderAll d ps ++ ")"
  | limit count => renderCount .limit count
  | offset count => renderCount .offset count

/-- The alias of the entity that a selection of everything is about. -/
def Body.primaryAlias : Body → Option String
  | select s => s.sources.primary.aliasName
  | _ => none

def Statement.render (d : Dialect) (s : Statement) : String :=
  String.intercalate " " (s.shownClauses.map (Clause.render d s.body.primaryAlias))

def Statement.text (s : Statement) : String := s.render .canonical

end Clausal
