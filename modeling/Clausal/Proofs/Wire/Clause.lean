import Clausal.Proofs.Expr.Folding
import Clausal.Proofs.Statement.WellFormed
import Clausal.Proofs.Wire.Expr
import Clausal.Proofs.Wire.Schema
import Clausal.Wire.Clause

/-!
# Clauses are read back

The contents of a clause are read as what the clause says. A filter is not read as it stands: its conditions are
added one after the other. A filter that came about in this way keeps folded conditions only, and such conditions
are kept as they are when they are added again.
-/

namespace Clausal

variable {how : Json.Reading}

/-! ### Entities and selections -/

@[simp] theorem EntityRef.ofJson?_toJson (e : EntityRef) : ofJson? how e.toJson = some e := by
  obtain ⟨entity, name, aliasName⟩ := e
  cases aliasName <;> simp [toJson, ofJson?]

@[simp] theorem EntityRef.ofContents?_contents (e : EntityRef) : ofContents? how e.contents = some e := by
  simp [contents, ofContents?]

@[simp] theorem Sources.ofContents?_contents (s : Sources) : ofContents? how s.contents = some s := by
  obtain ⟨primary, others⟩ := s
  have hothers : (Json.array (others.map EntityRef.toJson)).asList? (EntityRef.ofJson? how) = some others :=
    Json.asList?_map fun e _ => e.ofJson?_toJson
  cases others with
  | nil => simp [contents, ofContents?]
  | cons e others =>
    rw [List.map_cons] at hothers
    simp [contents, ofContents?, hothers]

@[simp] theorem Selection.ofJson?_toJson (s : Selection) : ofJson? how s.toJson = some s := by
  have hexprs (es : List Expr) : Expr.ofJsonAll? how (Expr.toJsonAll es) = some es :=
    Expr.ofJsonAll?_toJsonAll fun e _ => e.ofJson?_toJson
  cases s with
  | all => rfl
  | values es => simp [toJson, Json.tagged, ofJson?, Json.asItems?, hexprs]
  | construct name es => simp [toJson, Json.tagged, ofJson?, Expr.ofListField?_other, hexprs]

@[simp] theorem Projection.ofContents?_contents (p : Projection) : ofContents? how p.contents = some p := by
  simp [contents, ofContents?]

@[simp] theorem InsertMode.ofContents?_contents (mode : InsertMode) : ofContents? how mode.contents = some mode := by
  have htag : (Json.string mode.tag).asTag? how [("insert", insert), ("upsert", upsert), ("merge", merge)] =
      some mode := by
    cases mode <;> exact Json.asTag?_string rfl
  simp [contents, ofContents?, htag]

@[simp] theorem IndexHead.ofContents?_contents (h : IndexHead) : ofContents? h.contents = some h := by
  simp [contents, ofContents?]

/-! ### Filters -/

theorem Filter.ofContents?_contents {f : Filter} (h : f.Reached) : ofContents? how f.contents = some f := by
  have hconditions : ∀ p ∈ f.predicates, p.IsCondition := by
    obtain ⟨conditions, rfl⟩ := h
    exact isCondition_ofList conditions
  cases f with
  | unsatisfiable => simp [contents, ofContents?, predicates, isUnsatisfiable, Expr.ofListField?_other]
  | all ps =>
    have hread : Expr.ofJsonAll? how (Expr.toJsonAll ps) = some ps :=
      Expr.ofJsonAll?_toJsonAll fun e _ => e.ofJson?_toJson
    -- The conditions are not stored as they are read, but added to an empty filter.
    have hagain : ps.foldl Filter.and empty = all ps := foldl_and_all hconditions
    cases ps with
    | nil => simp [contents, ofContents?, predicates, isUnsatisfiable, empty]
    | cons p ps =>
      rw [List.foldl_cons] at hagain
      simp [contents, ofContents?, predicates, isUnsatisfiable, hread, hagain]

/-! ### Lists of paths, terms and assignments -/

@[simp] theorem Path.listOfContents?_listContents (ps : List Path) : listOfContents? (listContents ps) = some ps := by
  have hread : (Json.array (ps.map toJson)).asList? ofJson? = some ps := Json.asList?_map fun p _ => p.ofJson?_toJson
  simp [listContents, listOfContents?, hread]

@[simp] theorem OrderTerm.ofJson?_toJson (t : OrderTerm) : ofJson? how t.toJson = some t := by
  have htag : (Json.string t.direction.tag).asTag? how [("asc", Direction.asc), ("desc", .desc)] =
      some t.direction := by
    cases t.direction <;> exact Json.asTag?_string rfl
  simp [toJson, ofJson?, htag]

@[simp] theorem OrderTerm.listOfContents?_listContents (ts : List OrderTerm) :
    listOfContents? how (listContents ts) = some ts := by
  have hread : (Json.array (ts.map toJson)).asList? (ofJson? how) = some ts :=
    Json.asList?_map fun t _ => t.ofJson?_toJson
  simp [listContents, listOfContents?, hread]

@[simp] theorem Assignment.ofJson?_toJson (a : Assignment) : ofJson? how a.toJson = some a := by
  simp [toJson, ofJson?]

@[simp] theorem Assignment.listOfContents?_listContents (as : List Assignment) :
    listOfContents? how (listContents as) = some as := by
  have hread : (Json.array (as.map toJson)).asList? (ofJson? how) = some as :=
    Json.asList?_map fun a _ => a.ofJson?_toJson
  simp [listContents, listOfContents?, hread]

/-! ### Columns and constraints -/

@[simp] theorem Column.ofJson?_toJson (c : Column) : ofJson? how c.toJson = some c := by
  simp [toJson, ofJson?]

@[simp] theorem ColumnGroup.ofJson?_toJson (g : ColumnGroup) : ofJson? how g.toJson = some g := by
  have hread : (Json.array (g.columns.map Column.toJson)).asList? (Column.ofJson? how) = some g.columns :=
    Json.asList?_map fun c _ => c.ofJson?_toJson
  simp [toJson, ofJson?, hread]

@[simp] theorem Constraint.Kind.ofJson?_toJson (k : Constraint.Kind) : ofJson? how k.toJson = some k := by
  cases k <;> simp [toJson, Json.tagged, ofJson?]

@[simp] theorem Constraint.ofJson?_toJson (c : Constraint) : ofJson? how c.toJson = some c := by
  simp [toJson, ofJson?]

@[simp] theorem ColumnList.ofContents?_contents (l : ColumnList) : ofContents? how l.contents = some l := by
  obtain ⟨groups, constraints, asWritten⟩ := l
  have hgroups : (Json.array (groups.map ColumnGroup.toJson)).asList? (ColumnGroup.ofJson? how) = some groups :=
    Json.asList?_map fun g _ => g.ofJson?_toJson
  have hconstraints :
      (Json.array (constraints.map Constraint.toJson)).asList? (Constraint.ofJson? how) = some constraints :=
    Json.asList?_map fun c _ => c.ofJson?_toJson
  cases asWritten <;> simp [contents, ofContents?, hgroups, hconstraints]

private theorem countOfContents?_object (fields : List (String × Json)) :
    countOfContents? (.object fields) = Json.optional fields "count" Json.asUInt64? := rfl

@[simp] theorem countOfContents?_countContents (count : Option UInt64) :
    countOfContents? (countContents count) = some count := by
  rw [countContents, countOfContents?_object]
  cases count <;> simp [Json.asOption?_eq]

end Clausal
