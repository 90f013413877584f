import Clausal.Proofs.Statement.ReadBack
import Clausal.Proofs.Wire.Clause
import Clausal.Wire.Statement

/-!
# Statements are read back

A statement is given back by its JSON form: the body is, with what is known of its entities, and binding the
aliases of the same body again gives the same aliases.
-/

namespace Clausal

namespace Body

def filters : Body → List Filter
  | select s => [s.filter, s.having]
  | update s => [s.filter]
  | delete s => [s.filter]
  | insert _ | createTable _ | createIndex _ => []

/-- The fields of a record of clauses hold their contents under different names, so each is found. -/
theorem ofJson?_toJson {b : Body} (h : ∀ f ∈ b.filters, f.Reached) : ofJson? b.toJson = some b := by
  have hfilter {f : Filter} (hf : f ∈ b.filters) : Filter.ofContents? .lenient f.contents = some f :=
    Filter.ofContents?_contents (h f hf)
  cases b with
  | select s =>
    have hwhere := hfilter (f := s.filter) (by simp [filters])
    have hhaving := hfilter (f := s.having) (by simp [filters])
    simp [toJson, kind, clauses, clauseField?, Clause.name, Clause.contents, ofJson?, ofFields?, selectOfFields?,
      hwhere, hhaving]
  | insert s =>
    simp [toJson, kind, clauses, clauseField?, Clause.name, Clause.contents, ofJson?, ofFields?, insertOfFields?]
  | update s =>
    have hwhere := hfilter (f := s.filter) (by simp [filters])
    simp [toJson, kind, clauses, clauseField?, Clause.name, Clause.contents, ofJson?, ofFields?, updateOfFields?,
      hwhere]
  | delete s =>
    have hwhere := hfilter (f := s.filter) (by simp [filters])
    simp [toJson, kind, clauses, clauseField?, Clause.name, Clause.contents, ofJson?, ofFields?, deleteOfFields?,
      List.filterMap_cons, hwhere]
  | createTable s =>
    simp [toJson, kind, clauses, clauseField?, Clause.name, Clause.contents, ofJson?, ofFields?,
      createTableOfFields?]
  | createIndex s =>
    simp [toJson, kind, clauses, clauseField?, Clause.name, Clause.contents, ofJson?, ofFields?,
      createIndexOfFields?]

end Body

namespace Statement

/-- The JSON form of a statement whose filters came about by adding conditions gives the statement back, its
aliases and what is known of its entities included. -/
theorem ofJson_toJson (s : Statement) (h : ∀ f ∈ s.body.filters, f.Reached) :
    ofJson? s.toJson = some (.ok s) := by
  rw [ofJson?, toJson, Body.ofJson?_toJson h, Option.map_some, ofBody_eq_ok s.sound]

private def product : Entity where
  name := "product"
  table := some "products"
  fields := [⟨"id", .key, false, true, none⟩, ⟨"price", .named "money", true, false, some "net"⟩]

private def inRange : Expr :=
  .binary (.isNull (.field ⟨some "p", ["price"]⟩) true) .and
    (.binary (.field ⟨some "p", ["price"]⟩) .lt (.param (.named "high")))

/-- A query of an entity with fields, with two conditions on the rows and an unsatisfiable one on the groups. -/
def knownQuery : Statement where
  body := .select
    { projection := ⟨true, .values [.field ⟨some "p", ["id"]⟩, .countAll]⟩
      sources := ⟨⟨product, "products", some "p"⟩, [⟨.opaqueNamed "order", "order", none⟩]⟩
      filter := .ofList [inRange]
      groupBy := [⟨some "p", ["id"]⟩]
      having := .ofList [.ofBool false]
      orderBy := [⟨.field ⟨some "p", ["price"]⟩, .desc⟩]
      limit := some 5
      offset := none }
  aliases := Dictionary.empty.insert "p" product
  sound := by rfl

theorem ofJson_toJson_knownQuery :
    (∀ f ∈ knownQuery.body.filters, f.Reached) ∧ ofJson? knownQuery.toJson = some (.ok knownQuery) := by
  have hreached : ∀ f ∈ knownQuery.body.filters, f.Reached := by
    intro f hf
    simp only [knownQuery, Body.filters, List.mem_cons, List.not_mem_nil, or_false] at hf
    rcases hf with rfl | rfl
    · exact ⟨[inRange], rfl⟩
    · exact ⟨[.ofBool false], rfl⟩
  exact ⟨hreached, ofJson_toJson knownQuery hreached⟩

end Statement

end Clausal
