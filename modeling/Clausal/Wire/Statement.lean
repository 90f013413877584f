import Clausal.Statement.Basic
import Clausal.Wire.Clause

/-!
# The JSON form of statements

A body is a record of the contents of its clauses, each in the field of the clause's name, and of its
kind. Its clauses are read leniently, while a clause that stands alone is read strictly by those who read
it. The aliases are not part of a body: they are bound again when a body that has been read is checked.
-/

namespace Clausal

open Json (required withDefault)

namespace Body

/-- The field that holds the contents of a clause, if it has any. -/
def clauseField? : Clause → Option (String × Json)
  | .delete => none
  | c => some (c.name, c.contents)

def toJson (b : Body) : Json :=
  .object (("statement", .string b.kind) :: b.clauses.filterMap clauseField?)

def selectOfFields? (fields : List (String × Json)) : Option Select := do
  let projection ← withDefault fields "select" ⟨false, .all⟩ (Projection.ofContents? .lenient)
  let sources ← required fields "from" (Sources.ofContents? .lenient)
  let filter ← withDefault fields "where" .empty (Filter.ofContents? .lenient)
  let groupBy ← withDefault fields "groupBy" [] Path.listOfContents?
  let having ← withDefault fields "having" .empty (Filter.ofContents? .lenient)
  let orderBy ← withDefault fields "orderBy" [] (OrderTerm.listOfContents? .lenient)
  let limit ← withDefault fields "limit" none countOfContents?
  let offset ← withDefault fields "offset" none countOfContents?
  pure ⟨projection, sources, filter, groupBy, having, orderBy, limit, offset⟩

def insertOfFields? (fields : List (String × Json)) : Option Insert := do
  let mode ← withDefault fields "insert" .insert (InsertMode.ofContents? .lenient)
  let target ← required fields "into" (EntityRef.ofContents? .lenient)
  let values ← withDefault fields "values" [] (Assignment.listOfContents? .lenient)
  pure ⟨mode, target, values⟩

def updateOfFields? (fields : List (String × Json)) : Option Update := do
  let target ← required fields "update" (EntityRef.ofContents? .lenient)
  let assignments ← withDefault fields "set" [] (Assignment.listOfContents? .lenient)
  let filter ← withDefault fields "where" .empty (Filter.ofContents? .lenient)
  pure ⟨target, assignments, filter⟩

def deleteOfFields? (fields : List (String × Json)) : Option Delete := do
  let sources ← required fields "from" (Sources.ofContents? .lenient)
  let filter ← withDefault fields "where" .empty (Filter.ofContents? .lenient)
  pure ⟨sources, filter⟩

def createTableOfFields? (fields : List (String × Json)) : Option CreateTable := do
  let target ← required fields "createTable" (EntityRef.ofContents? .lenient)
  let columns ← withDefault fields "columns" .empty (ColumnList.ofContents? .lenient)
  pure ⟨target, columns⟩

def createIndexOfFields? (fields : List (String × Json)) : Option CreateIndex := do
  let head ← required fields "createIndex" IndexHead.ofContents?
  let target ← required fields "on" (EntityRef.ofContents? .lenient)
  let paths ← withDefault fields "indexColumns" [] Path.listOfContents?
  pure ⟨head, target, paths⟩

def ofFields? (kind : String) (fields : List (String × Json)) : Option Body :=
  match kind with
  | "select" => (selectOfFields? fields).map select
  | "insert" => (insertOfFields? fields).map insert
  | "update" => (updateOfFields? fields).map update
  | "delete" => (deleteOfFields? fields).map delete
  | "createTable" => (createTableOfFields? fields).map createTable
  | "createIndex" => (createIndexOfFields? fields).map createIndex
  | _ => none

def ofJson? : Json → Option Body
  | .object fields => do
    let kind ← required fields "statement" Json.asString?
    ofFields? kind fields
  | _ => none

end Body

namespace Statement

def toJson (s : Statement) : Json := s.body.toJson

/-- The statement of a JSON form, if its body is sound. -/
def ofJson? (j : Json) : Option (Except Error Statement) := (Body.ofJson? j).map ofBody

end Statement

end Clausal
