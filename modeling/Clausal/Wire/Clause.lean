import Clausal.Clause.Basic
import Clausal.Wire.Expr
import Clausal.Wire.Schema

/-!
# The JSON form of clauses

The contents of a clause are a record; a clause is the variant of its name with these contents. The
conditions of a filter are added one after the other when it is read, so what is read is always a filter
that could have been made.
-/

namespace Clausal

open Json (required withDefault optional)

def EntityRef.toJson (e : EntityRef) : Json :=
  .object ([("entity", e.entity.toJson), ("name", .string e.name)]
    ++ Json.fieldIf "alias" .string e.aliasName)

def EntityRef.ofJson? (how : Json.Reading) (j : Json) : Option EntityRef := do
  let fields ← j.asRecord? ["entity", "name", "alias"]
  let entity ← required fields "entity" (Entity.ofJson? how)
  let name ← required fields "name" Json.asString?
  let aliasName ← optional fields "alias" Json.asString?
  pure ⟨entity, name, aliasName⟩

def EntityRef.contents (e : EntityRef) : Json := .object [("entity", e.toJson)]

def EntityRef.ofContents? (how : Json.Reading) (j : Json) : Option EntityRef := do
  required (← j.asRecord? ["entity"]) "entity" (EntityRef.ofJson? how)

def Sources.contents (s : Sources) : Json :=
  .object (("primary", s.primary.toJson)
    :: if s.others.isEmpty then [] else [("others", .array (s.others.map EntityRef.toJson))])

def Sources.ofContents? (how : Json.Reading) (j : Json) : Option Sources := do
  let fields ← j.asRecord? ["primary", "others"]
  let primary ← required fields "primary" (EntityRef.ofJson? how)
  let others ← withDefault fields "others" [] (Json.asList? (EntityRef.ofJson? how))
  pure ⟨primary, others⟩

def Selection.toJson : Selection → Json
  | all => .string "all"
  | values es => .tagged "values" (.array (Expr.toJsonAll es))
  | construct name es =>
    .tagged "construct" (.object [("name", .string name), ("args", .array (Expr.toJsonAll es))])

def Selection.ofJson? (how : Json.Reading) : Json → Option Selection
  | .string "all" => some all
  | .object [("all", data)] => if how.isBare data then some all else none
  | .object [("values", j)] => (j.asItems?.bind (Expr.ofJsonAll? how)).map values
  | .object [("construct", .object fields)] => do
    let name ← required fields "name" Json.asString?
    let es ← Expr.ofListField? how "args" none fields
    pure (construct name es)
  | _ => none

def Projection.contents (p : Projection) : Json :=
  .object [("distinct", .bool p.distinct), ("selection", p.selection.toJson)]

def Projection.ofContents? (how : Json.Reading) (j : Json) : Option Projection := do
  let fields ← j.asRecord? ["distinct", "selection"]
  let distinct ← withDefault fields "distinct" false Json.asBool?
  let selection ← withDefault fields "selection" .all (Selection.ofJson? how)
  pure ⟨distinct, selection⟩

def InsertMode.tag : InsertMode → String
  | insert => "insert"
  | upsert => "upsert"
  | merge => "merge"

def InsertMode.contents (mode : InsertMode) : Json := .object [("mode", .string mode.tag)]

def InsertMode.ofContents? (how : Json.Reading) (j : Json) : Option InsertMode := do
  withDefault (← j.asRecord? ["mode"]) "mode" .insert
    (Json.asTag? how [("insert", insert), ("upsert", upsert), ("merge", merge)])

def IndexHead.contents (h : IndexHead) : Json :=
  .object [("name", .string h.name), ("unique", .bool h.unique)]

def IndexHead.ofContents? (j : Json) : Option IndexHead := do
  let fields ← j.asRecord? ["name", "unique"]
  let name ← required fields "name" Json.asString?
  let unique ← withDefault fields "unique" false Json.asBool?
  pure ⟨name, unique⟩

def Filter.contents (f : Filter) : Json :=
  .object ((if f.predicates.isEmpty then [] else
      [("predicates", .array (Expr.toJsonAll f.predicates))])
    ++ if f.isUnsatisfiable then [("unsatisfiable", .bool true)] else [])

def Filter.ofContents? (how : Json.Reading) (j : Json) : Option Filter := do
  let fields ← j.asRecord? ["predicates", "unsatisfiable"]
  let predicates ← Expr.ofListField? how "predicates" (some []) fields
  let unsatisfiable ← withDefault fields "unsatisfiable" false Json.asBool?
  pure (predicates.foldl Filter.and (if unsatisfiable then .unsatisfiable else .empty))

def Path.listContents (ps : List Path) : Json := .object [("properties", .array (ps.map Path.toJson))]

def Path.listOfContents? (j : Json) : Option (List Path) := do
  withDefault (← j.asRecord? ["properties"]) "properties" [] (Json.asList? Path.ofJson?)

def Direction.tag : Direction → String
  | asc => "asc"
  | desc => "desc"

def OrderTerm.toJson (t : OrderTerm) : Json :=
  .object [("expr", t.expr.toJson), ("direction", .string t.direction.tag)]

def OrderTerm.ofJson? (how : Json.Reading) (j : Json) : Option OrderTerm := do
  let fields ← j.asRecord? ["expr", "direction"]
  let expr ← required fields "expr" (Expr.ofJson? how)
  let direction ← withDefault fields "direction" .asc
    (Json.asTag? how [("asc", Direction.asc), ("desc", .desc)])
  pure ⟨expr, direction⟩

def OrderTerm.listContents (ts : List OrderTerm) : Json :=
  .object [("terms", .array (ts.map OrderTerm.toJson))]

def OrderTerm.listOfContents? (how : Json.Reading) (j : Json) : Option (List OrderTerm) := do
  withDefault (← j.asRecord? ["terms"]) "terms" [] (Json.asList? (OrderTerm.ofJson? how))

def Assignment.toJson (a : Assignment) : Json :=
  .object [("path", a.path.toJson), ("value", a.value.toJson)]

def Assignment.ofJson? (how : Json.Reading) (j : Json) : Option Assignment := do
  let fields ← j.asRecord? ["path", "value"]
  let path ← required fields "path" Path.ofJson?
  let value ← required fields "value" (Expr.ofJson? how)
  pure ⟨path, value⟩

def Assignment.listContents (as : List Assignment) : Json :=
  .object [("assignments", .array (as.map Assignment.toJson))]

def Assignment.listOfContents? (how : Json.Reading) (j : Json) : Option (List Assignment) := do
  withDefault (← j.asRecord? ["assignments"]) "assignments" [] (Json.asList? (Assignment.ofJson? how))

def Column.toJson (c : Column) : Json :=
  .object [("name", .string c.name), ("data_type", c.type.toJson)]

def Column.ofJson? (how : Json.Reading) (j : Json) : Option Column := do
  let fields ← j.asRecord? ["name", "data_type"]
  let name ← required fields "name" Json.asString?
  let type ← required fields "data_type" (ColumnType.ofJson? how)
  pure ⟨name, type⟩

def ColumnGroup.toJson (g : ColumnGroup) : Json :=
  .object [("path", g.path.toJson), ("declarations", .array (g.columns.map Column.toJson))]

def ColumnGroup.ofJson? (how : Json.Reading) (j : Json) : Option ColumnGroup := do
  let fields ← j.asRecord? ["path", "declarations"]
  let path ← required fields "path" Path.ofJson?
  let columns ← required fields "declarations" (Json.asList? (Column.ofJson? how))
  pure ⟨path, columns⟩

def Constraint.Kind.toJson : Constraint.Kind → Json
  | primaryKey names => .tagged "primaryKey" (.strings names)
  | unique names => .tagged "unique" (.strings names)
  | check e => .tagged "check" e.toJson

def Constraint.Kind.ofJson? (how : Json.Reading) : Json → Option Constraint.Kind
  | .object [("primaryKey", j)] => (j.asList? Json.asString?).map primaryKey
  | .object [("unique", j)] => (j.asList? Json.asString?).map unique
  | .object [("check", j)] => (Expr.ofJson? how j).map check
  | _ => none

def Constraint.toJson (c : Constraint) : Json :=
  .object [("name", .string c.name), ("kind", c.kind.toJson)]

def Constraint.ofJson? (how : Json.Reading) (j : Json) : Option Constraint := do
  let fields ← j.asRecord? ["name", "kind"]
  let name ← required fields "name" Json.asString?
  let kind ← required fields "kind" (Constraint.Kind.ofJson? how)
  pure ⟨name, kind⟩

def ColumnList.contents (l : ColumnList) : Json :=
  .object ([("columns", .array (l.groups.map ColumnGroup.toJson)),
      ("constraints", .array (l.constraints.map Constraint.toJson))]
    ++ if l.asWritten then [("asWritten", .bool true)] else [])

def ColumnList.ofContents? (how : Json.Reading) (j : Json) : Option ColumnList := do
  let fields ← j.asRecord? ["columns", "constraints", "asWritten"]
  let groups ← withDefault fields "columns" [] (Json.asList? (ColumnGroup.ofJson? how))
  let constraints ← withDefault fields "constraints" [] (Json.asList? (Constraint.ofJson? how))
  let asWritten ← withDefault fields "asWritten" false Json.asBool?
  pure ⟨groups, constraints, asWritten⟩

def countContents (count : Option UInt64) : Json :=
  .object (Json.fieldIf "count" (fun n => .ofNat n.toNat) count)

def countOfContents? (j : Json) : Option (Option UInt64) := do
  optional (← j.asRecord? ["count"]) "count" Json.asUInt64?

namespace Clause

/-- The contents of a clause; the clause that deletes has none. -/
def contents : Clause → Json
  | select p => p.contents
  | insert mode => mode.contents
  | update e | createTable e | into e | on e => e.contents
  | delete => .null
  | createIndex h => h.contents
  | sources s => s.contents
  | filter f | having f => f.contents
  | groupBy ps | indexColumns ps => Path.listContents ps
  | orderBy ts => OrderTerm.listContents ts
  | values as | set as => Assignment.listContents as
  | columns l => l.contents
  | limit count | offset count => countContents count

def toJson : Clause → Json
  | delete => .string "delete"
  | c => .tagged c.name c.contents

def ofJson? (how : Json.Reading) : Json → Option Clause
  | .string "delete" => some delete
  | .object [("delete", data)] => if how.isBare data then some delete else none
  | .object [("select", j)] => (Projection.ofContents? how j).map select
  | .object [("insert", j)] => (InsertMode.ofContents? how j).map insert
  | .object [("update", j)] => (EntityRef.ofContents? how j).map update
  | .object [("createTable", j)] => (EntityRef.ofContents? how j).map createTable
  | .object [("createIndex", j)] => (IndexHead.ofContents? j).map createIndex
  | .object [("from", j)] => (Sources.ofContents? how j).map sources
  | .object [("into", j)] => (EntityRef.ofContents? how j).map into
  | .object [("on", j)] => (EntityRef.ofContents? how j).map on
  | .object [("where", j)] => (Filter.ofContents? how j).map filter
  | .object [("groupBy", j)] => (Path.listOfContents? j).map groupBy
  | .object [("having", j)] => (Filter.ofContents? how j).map having
  | .object [("orderBy", j)] => (OrderTerm.listOfContents? how j).map orderBy
  | .object [("values", j)] => (Assignment.listOfContents? how j).map values
  | .object [("set", j)] => (Assignment.listOfContents? how j).map set
  | .object [("columns", j)] => (ColumnList.ofContents? how j).map columns
  | .object [("indexColumns", j)] => (Path.listOfContents? j).map indexColumns
  | .object [("limit", j)] => (countOfContents? j).map limit
  | .object [("offset", j)] => (countOfContents? j).map offset
  | _ => none

end Clause

end Clausal
