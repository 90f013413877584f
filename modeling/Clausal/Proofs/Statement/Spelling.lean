import Clausal.Proofs.Clause.Assignment
import Clausal.Proofs.Expr.Spelling
import Clausal.Proofs.Parse.Column
import Clausal.Proofs.Statement.WellFormed
import Clausal.Statement.Render

/-!
# Tokens of statements

The tokens that the text of a clause spells in a dialect. Dialects differ in them only by the word before an alias
and by how everything is selected.
-/

namespace Clausal

open Token

def EntityRef.kinds (d : Dialect) (e : EntityRef) : List Kind :=
  match e.aliasName with
  | none => [.identifier e.name]
  | some a => .identifier e.name :: ((if d.aliasKeyword then [.keyword .as] else []) ++ [.identifier a])

def Filter.kindsOfCondition (p : Expr) : List Kind :=
  Expr.enclosedKinds p.precedence Precedence.and false p.kinds

def Filter.kinds : Filter → List Kind
  | unsatisfiable => [.keyword .false]
  | all [] => []
  | all (p :: ps) => kindsOfCondition p ++ ps.flatMap fun q => .keyword .and :: kindsOfCondition q

def Selection.kinds (d : Dialect) (primary : Option String) : Selection → List Kind
  | all =>
    match primary, d.selectAll with
    | some a, .byAlias => [.identifier a]
    | _, _ => [.symbol .star]
  | values es => Token.enclosed (Expr.kindsAll es)
  | construct name es => .keyword .new :: .identifier name :: Token.enclosed (Expr.kindsAll es)

def OrderTerm.kinds (t : OrderTerm) : List Kind :=
  t.expr.kinds ++
    match t.direction with
    | .asc => []
    | .desc => [.keyword .desc]

def Assignment.kinds (a : Assignment) : List Kind := a.path.kinds ++ .symbol .eq :: a.value.kinds

def Dialect.kindsOfNames (names : List String) : List Kind :=
  Token.enclosed (listed (names.map fun name => [.identifier name]))

def Column.kinds (c : Column) : List Kind := .identifier c.name :: Token.kinds c.type.spelling.toList

def Constraint.Kind.kinds : Constraint.Kind → List Token.Kind
  | primaryKey names => .keyword .primary :: .keyword .key :: Dialect.kindsOfNames names
  | unique names => .keyword .unique :: Dialect.kindsOfNames names
  | check e => .keyword .check :: Token.enclosed e.kinds

def Constraint.kinds (c : Constraint) : List Token.Kind :=
  .keyword .constraint :: .identifier c.name :: c.kind.kinds

/-- The columns in the order in which they are written. -/
def ColumnList.shownColumns (l : ColumnList) : List Column := l.sortedGroups.flatMap (·.columns)

theorem ColumnList.mem_sortedGroups {l : ColumnList} {g : ColumnGroup} :
    g ∈ l.sortedGroups ↔ g ∈ l.groups := by
  unfold ColumnList.sortedGroups
  split
  · rfl
  · exact List.mem_mergeSort

/-- The columns of groups of one column each. -/
theorem ColumnList.flatMap_single (cs : List Column) :
    (cs.map fun c => ColumnGroup.mk (.bare c.name) [c]).flatMap (·.columns) = cs := by
  rw [List.flatMap_map]
  exact List.flatMap_singleton' cs

theorem ColumnList.shownColumns_eq_nil {l : ColumnList} (h : l.WellFormed) : l.shownColumns = [] ↔ l.groups = [] := by
  constructor
  · intro hnil
    rw [List.eq_nil_iff_forall_not_mem]
    intro g hg
    obtain ⟨c, hc⟩ := List.exists_mem_of_ne_nil _ (h.1 g hg).1
    have hmem : c ∈ l.shownColumns := List.mem_flatMap.2 ⟨g, mem_sortedGroups.2 hg, hc⟩
    rw [hnil] at hmem
    exact absurd hmem List.not_mem_nil
  · intro hnil
    rw [shownColumns, sortedGroups, hnil, List.mergeSort_nil, ite_self, List.flatMap_nil]

theorem ColumnList.sortedConstraints_eq_nil {l : ColumnList} : l.sortedConstraints = [] ↔ l.constraints = [] := by
  constructor
  · intro hnil
    have hperm := List.mergeSort_perm l.constraints fun a b => (compare a.name b.name).isLE
    exact List.nil_perm.1 (hnil ▸ hperm)
  · intro hnil
    rw [sortedConstraints, hnil, List.mergeSort_nil]

/-- The tokens of the columns and constraints of a table. -/
def ColumnList.kinds (l : ColumnList) : List Kind :=
  Token.enclosed (listed (l.shownColumns.map Column.kinds ++ l.sortedConstraints.map Constraint.kinds))

def kindsOfCount (keyword : Keyword) (count : Option UInt64) : List Kind :=
  match count with
  | none => []
  | some n => [.keyword keyword, .integer n]

def Clause.kinds (d : Dialect) (primary : Option String) : Clause → List Kind
  | select p => .keyword .select :: ((if p.distinct then [.keyword .distinct] else []) ++ p.selection.kinds d primary)
  | insert mode => [.keyword mode.keyword]
  | update e => .keyword .update :: e.kinds d
  | delete => [.keyword .delete]
  | createTable e => [.keyword .create, .keyword .table, .identifier e.name]
  | createIndex h =>
    .keyword .create :: ((if h.unique then [.keyword .unique] else []) ++ [.keyword .index, .identifier h.name])
  | sources s => .keyword .from :: listed (s.all.map (EntityRef.kinds d))
  | into e => .keyword .into :: e.kinds d
  | on e => .keyword .on :: e.kinds d
  | filter f => .keyword .where :: f.kinds
  | groupBy ps => .keyword .group :: .keyword .by :: listed (ps.map Path.kinds)
  | having f => .keyword .having :: f.kinds
  | orderBy ts => .keyword .order :: .keyword .by :: listed (ts.map OrderTerm.kinds)
  | values as =>
    Token.enclosed (listed ((Assignment.effective as).map fun a => a.path.kinds)) ++
      .keyword .values :: Token.enclosed (Expr.kindsAll ((Assignment.effective as).map (·.value)))
  | set as => .keyword .set :: listed ((Assignment.effective as).map Assignment.kinds)
  | columns l => l.kinds
  | indexColumns ps => Token.enclosed (listed (ps.map Path.kinds))
  | limit count => kindsOfCount .limit count
  | offset count => kindsOfCount .offset count

/-! ### Texts of the parts -/

private theorem spells_count (keyword : Keyword) (count : Option UInt64) :
    Spells (renderCount keyword count) (kindsOfCount keyword count) := by
  cases count with
  | none => exact Spells.empty
  | some n => exact (Spells.keyword keyword).spaced (Spells.natural n)

section Spells

variable {d : Dialect} (hd : d.quote = '"')

include hd

private theorem spells_entityRef {e : EntityRef} (h : e.WellFormed) : Spells (e.render d) (e.kinds d) := by
  have hname := Spells.identifier hd h.1
  cases ha : e.aliasName with
  | none =>
    simp only [EntityRef.render, EntityRef.kinds, ha]
    exact hname
  | some a =>
    have halias := Spells.identifier hd fun he : a = "" => h.2 (by rw [ha, he])
    simp only [EntityRef.render, EntityRef.kinds, ha]
    split
    · have has : (" AS " : String) = " " ++ Keyword.as.text ++ " " := rfl
      have hall := (hname.spaced (Spells.keyword .as)).spaced halias
      simp only [has, ← String.append_assoc]
      exact hall
    · exact hname.spaced halias

private theorem spells_paths {ps : List Path} (h : ∀ p ∈ ps, p.WellFormed) :
    Spells (Path.renderAll d ps) (listed (ps.map Path.kinds)) := by
  apply Spells.listed
  rw [List.forall₂_map_left_iff, List.forall₂_map_right_iff, List.forall₂_same]
  exact fun p hp => Path.spells hd (h p hp)

private theorem spells_exprs {es : List Expr} (h : ∀ e ∈ es, e.WellFormed)
    (hfinite : ∀ e ∈ es, ∀ l ∈ e.literals, l.IsFinite) :
    Spells (Expr.renderAll d es) (Expr.kindsAll es) := by
  rw [Expr.renderAll_eq_intercalate, Expr.kindsAll_eq_listed]
  apply Spells.listed
  rw [List.forall₂_map_left_iff, List.forall₂_map_right_iff, List.forall₂_same]
  exact fun e he => Expr.spells hd (h e he) (hfinite e he)

private theorem spells_conditions {p : Expr} {ps : List Expr} (h : ∀ q ∈ p :: ps, q.WellFormed)
    (hfinite : ∀ q ∈ p :: ps, ∀ l ∈ q.literals, l.IsFinite) :
    Spells (String.intercalate " AND " ((p :: ps).map (Expr.renderIn d Precedence.and false)))
      (Filter.kindsOfCondition p ++ ps.flatMap fun q => .keyword .and :: Filter.kindsOfCondition q) := by
  have hand : (" AND " : String) = " " ++ Keyword.and.text ++ " " := rfl
  induction ps generalizing p with
  | nil =>
    rw [List.flatMap_nil, List.append_nil]
    exact Expr.spells_enclosed _ _ _
      (Expr.spells hd (h p List.mem_cons_self) (hfinite p List.mem_cons_self))
  | cons q ps ih =>
    have hfirst : Spells (Expr.renderIn d Precedence.and false p) (Filter.kindsOfCondition p) :=
      Expr.spells_enclosed _ _ _ (Expr.spells hd (h p List.mem_cons_self) (hfinite p List.mem_cons_self))
    have hrest := ih (fun r hr => h r (List.mem_cons_of_mem _ hr)) fun r hr => hfinite r (List.mem_cons_of_mem _ hr)
    have hall := (hfirst.spaced (Spells.keyword .and)).spaced hrest
    rw [List.map_cons, List.map_cons, String.intercalate_cons_cons, List.flatMap_cons, hand]
    simp only [String.append_assoc, List.append_assoc, List.cons_append, List.nil_append, List.map_cons] at hall ⊢
    exact hall

private theorem spells_filter {f : Filter} (h : ∀ p ∈ f.predicates, p.WellFormed)
    (hfinite : ∀ p ∈ f.predicates, ∀ l ∈ p.literals, l.IsFinite) : Spells (f.render d) f.kinds := by
  cases f with
  | unsatisfiable => exact Spells.keyword .false
  | all ps =>
    cases ps with
    | nil => exact Spells.empty
    | cons p ps => exact spells_conditions hd h hfinite

private theorem spells_selection {s : Selection} (primary : Option String) (hprimary : primary ≠ some "")
    (h : s.WellFormed) (hfinite : ∀ e ∈ s.exprs, ∀ l ∈ e.literals, l.IsFinite) :
    Spells (s.render d primary) (s.kinds d primary) := by
  cases s with
  | all =>
    simp only [Selection.render, Selection.kinds]
    cases primary with
    | none => exact Spells.star
    | some a =>
      cases d.selectAll with
      | byAlias => exact Spells.identifier hd fun he => hprimary (by rw [he])
      | byStar => exact Spells.star
  | values es => exact (spells_exprs hd h.2 hfinite).paren
  | construct name es =>
    have hname := Spells.identifier_paren hd h.1 (spells_exprs hd h.2 hfinite)
    have hall := (Spells.keyword .new).spaced hname
    simp only [String.append_assoc] at hall
    unfold Selection.render
    simp only [String.append_assoc]
    exact hall

private theorem spells_orderTerm {t : OrderTerm} (h : t.expr.WellFormed)
    (hfinite : ∀ l ∈ t.expr.literals, l.IsFinite) : Spells (t.render d) t.kinds := by
  have hexpr := Expr.spells hd h hfinite
  unfold OrderTerm.render OrderTerm.kinds
  cases t.direction with
  | asc => rwa [List.append_nil]
  | desc =>
    have hdesc := hexpr.spaced (Spells.keyword .desc)
    rwa [String.append_assoc] at hdesc

private theorem spells_assignment {a : Assignment} (hpath : a.path.WellFormed) (hvalue : a.value.WellFormed)
    (hfinite : ∀ l ∈ a.value.literals, l.IsFinite) : Spells (a.render d) a.kinds := by
  intro rest hrest
  have hsplit : (a.render d).toList ++ rest =
      (a.path.render d).toList ++ '=' :: ((a.value.render d).toList ++ rest) := by
    simp [Assignment.render, String.toList_append]
  rw [hsplit, Path.kinds_render hd hpath (Severed.eq _), kinds_eqSign, Expr.spells hd hvalue hfinite rest hrest,
    Assignment.kinds, List.append_assoc, List.cons_append]

private theorem spells_names {names : List String} (h : "" ∉ names) :
    Spells (d.identifiers names) (Dialect.kindsOfNames names) := by
  apply Spells.paren
  apply Spells.listed
  rw [List.forall₂_map_left_iff, List.forall₂_map_right_iff, List.forall₂_same]
  exact fun name hname => Spells.identifier hd fun he => h (he ▸ hname)

private theorem spells_column (hoverrides : d.typeOverrides = .empty) {c : Column} (hname : c.name ≠ "")
    (htype : c.type.Plain) : Spells (c.render d) c.kinds := by
  have hspelling : d.columnType c.type = c.type.spelling := by
    rw [Dialect.columnType, hoverrides, Dictionary.get?_empty, Option.getD_none]
  obtain ⟨name, args, htype⟩ := htype
  have htext := ColumnType.spells htype
  rw [Column.render, hspelling, Column.kinds, htext.kinds_eq]
  exact (Spells.identifier hd hname).spaced htext

private theorem spells_constraint {c : Constraint} (h : c.WellFormed)
    (hfinite : ∀ e, Body.checkedExpr? c = some e → ∀ l ∈ e.literals, l.IsFinite) :
    Spells (c.render d) c.kinds := by
  have hhead : Spells ("CONSTRAINT " ++ d.identifier c.name) [.keyword .constraint, .identifier c.name] :=
    (Spells.keyword .constraint).spaced (Spells.identifier hd h.1)
  have hkind : Spells (c.kind.render d) c.kind.kinds := by
    obtain ⟨name, kind⟩ := c
    cases kind with
    | primaryKey names =>
      exact ((Spells.keyword .primary).spaced (Spells.keyword .key)).spaced (spells_names hd h.2.2)
    | unique names => exact (Spells.keyword .unique).spaced (spells_names hd h.2.2)
    | check e =>
      have hcheck := (Spells.keyword .check).spaced (Expr.spells hd h.2 (hfinite e rfl)).paren
      have hopen : ("CHECK (" : String) = Keyword.check.text ++ " " ++ "(" := rfl
      simp only [Constraint.Kind.render, hopen, String.append_assoc] at hcheck ⊢
      exact hcheck
  exact hhead.spaced hkind

private theorem spells_columns (hoverrides : d.typeOverrides = .empty) {l : ColumnList} (h : l.WellFormed)
    (hfinite : ∀ e ∈ (Clause.columns l).exprs, ∀ x ∈ e.literals, x.IsFinite) :
    Spells (l.render d) l.kinds := by
  apply Spells.paren
  apply Spells.listed
  apply List.rel_append
  · rw [List.forall₂_map_left_iff, List.forall₂_map_right_iff, ColumnList.shownColumns, List.forall₂_same]
    intro c hc
    obtain ⟨g, hg, hc⟩ := List.mem_flatMap.1 hc
    have hcolumn := (h.1 g (ColumnList.mem_sortedGroups.1 hg)).2 c hc
    exact spells_column hd hoverrides hcolumn.1 (ColumnType.plain_of_readsBack hcolumn.2)
  · rw [List.forall₂_map_left_iff, List.forall₂_map_right_iff, List.forall₂_same]
    intro c hc
    have hc := List.mem_mergeSort.1 hc
    rw [Clause.exprs_columns] at hfinite
    exact spells_constraint hd (h.2 c hc) fun e he => hfinite e (List.mem_filterMap.2 ⟨c, hc, he⟩)

/-- The text of a clause is read as its tokens. -/
theorem Clause.spells (hoverrides : d.typeOverrides = .empty) {primary : Option String} (hprimary : primary ≠ some "")
    {c : Clause} (h : c.WellFormed) (hfinite : ∀ e ∈ c.exprs, ∀ l ∈ e.literals, l.IsFinite) :
    Spells (c.render d primary) (c.kinds d primary) := by
  cases c with
  | select p =>
    rw [exprs_select] at hfinite
    have hselection := spells_selection hd primary hprimary h hfinite
    have hselect : Spells "SELECT" [.keyword .select] := Spells.keyword .select
    cases hdistinct : p.distinct with
    | true =>
      have hall := (hselect.spaced (Spells.keyword .distinct)).spaced hselection
      simp only [Clause.render, Clause.kinds, hdistinct, if_true]
      exact hall
    | false =>
      have hall := hselect.spaced hselection
      simp only [Clause.render, Clause.kinds, hdistinct, Bool.false_eq_true, if_false, String.append_empty,
        List.nil_append]
      exact hall
  | insert mode => exact Spells.keyword mode.keyword
  | update e => exact (Spells.keyword .update).spaced (spells_entityRef hd h)
  | delete => exact Spells.keyword .delete
  | createTable e =>
    exact ((Spells.keyword .create).spaced (Spells.keyword .table)).spaced (Spells.identifier hd h.1)
  | createIndex head =>
    have hcreate : Spells "CREATE" [.keyword .create] := Spells.keyword .create
    have hname := (Spells.keyword .index).spaced (Spells.identifier hd h)
    cases hunique : head.unique with
    | true =>
      have hall := (hcreate.spaced (Spells.keyword .unique)).spaced hname
      have hwords : ("CREATE " : String) ++ "UNIQUE " ++ "INDEX " =
          "CREATE" ++ " " ++ Keyword.unique.text ++ " " ++ (Keyword.index.text ++ " ") := rfl
      simp only [Clause.render, Clause.kinds, hunique, if_true, hwords]
      simp only [String.append_assoc] at hall ⊢
      exact hall
    | false =>
      have hall := hcreate.spaced hname
      have hwords : ("CREATE " : String) ++ "" ++ "INDEX " =
          "CREATE" ++ " " ++ (Keyword.index.text ++ " ") := rfl
      simp only [Clause.render, Clause.kinds, hunique, Bool.false_eq_true, if_false, List.nil_append, hwords]
      rw [String.append_assoc]
      exact hall
  | sources s =>
    refine (Spells.keyword .from).spaced (Spells.listed ?_)
    rw [List.forall₂_map_left_iff, List.forall₂_map_right_iff, List.forall₂_same]
    exact fun e he => spells_entityRef hd (h e he)
  | into e => exact (Spells.keyword .into).spaced (spells_entityRef hd h)
  | on e => exact (Spells.keyword .on).spaced (spells_entityRef hd h)
  | filter f =>
    rw [exprs_filter] at hfinite
    exact (Spells.keyword .where).spaced (spells_filter hd h.2 hfinite)
  | groupBy ps => exact ((Spells.keyword .group).spaced (Spells.keyword .by)).spaced (spells_paths hd h)
  | having f =>
    rw [exprs_having] at hfinite
    exact (Spells.keyword .having).spaced (spells_filter hd h.2 hfinite)
  | orderBy ts =>
    refine ((Spells.keyword .order).spaced (Spells.keyword .by)).spaced (Spells.listed ?_)
    rw [List.forall₂_map_left_iff, List.forall₂_map_right_iff, List.forall₂_same]
    exact fun t ht => spells_orderTerm hd (h t ht) (hfinite t.expr (List.mem_map.2 ⟨t, ht, rfl⟩))
  | values as =>
    have hmem : ∀ a ∈ Assignment.effective as, a ∈ as := fun a ha => Assignment.mem_effective ha
    have hpaths := spells_paths hd (List.forall_mem_map.2 fun a ha => (h a (hmem a ha)).1)
    have hvalues := spells_exprs hd (List.forall_mem_map.2 fun a ha => (h a (hmem a ha)).2)
      (List.forall_mem_map.2 fun a ha => hfinite a.value (List.mem_map.2 ⟨a, hmem a ha, rfl⟩))
    have hall := (hpaths.paren.spaced (Spells.keyword .values)).spaced hvalues.paren
    have hbetween : (") VALUES (" : String) = ")" ++ " " ++ Keyword.values.text ++ " " ++ "(" := rfl
    simp only [Clause.render, Clause.kinds, hbetween, List.map_map, String.append_assoc, List.append_assoc,
      List.singleton_append] at hall ⊢
    exact hall
  | set as =>
    refine (Spells.keyword .set).spaced (Spells.listed ?_)
    rw [List.forall₂_map_left_iff, List.forall₂_map_right_iff, List.forall₂_same]
    intro a ha
    have ha := Assignment.mem_effective ha
    exact spells_assignment hd (h a ha).1 (h a ha).2 (hfinite a.value (List.mem_map.2 ⟨a, ha, rfl⟩))
  | columns l => exact spells_columns hd hoverrides h hfinite
  | indexColumns ps => exact (spells_paths hd h).paren
  | limit count => exact spells_count .limit count
  | offset count => exact spells_count .offset count

end Spells

/-! ### Texts of statements -/

namespace Statement

/-- The tokens of a statement. -/
def kinds (d : Dialect) (s : Statement) : List Kind :=
  (s.shownClauses.map (Clause.kinds d s.body.primaryAlias)).flatten

private theorem primaryAlias_ne_empty {b : Body} (h : ∀ c ∈ b.clauses, c.WellFormed) : b.primaryAlias ≠ some "" := by
  cases b with
  | select s => exact (h (.sources s.sources) (by simp [Body.clauses]) s.sources.primary List.mem_cons_self).2
  | _ => simp [Body.primaryAlias]

/-- The text of a statement is read as its tokens. -/
theorem kinds_render {d : Dialect} (hd : d.quote = '"') (hoverrides : d.typeOverrides = .empty) {s : Statement}
    (h : s.WellFormed) : Token.kinds (s.render d).toList = s.kinds d := by
  have htext : Spells (s.render d) (s.kinds d) := by
    apply Spells.flatten
    rw [List.forall₂_map_left_iff, List.forall₂_map_right_iff, List.forall₂_same]
    intro c hc
    have hc := (List.mem_filter.1 hc).1
    exact Clause.spells hd hoverrides (primaryAlias_ne_empty h.clauses) (h.clauses c hc) fun e he l hl =>
      Body.isFinite_of_check s.sound (Body.exprs_of_clause hc he) hl
  exact htext.kinds_eq

end Statement

end Clausal
