import Clausal.Proofs.Parse.Column
import Clausal.Proofs.Parse.GivenClauses
import Clausal.Proofs.Statement.Equality

/-!
# What reading statements gives

A statement that is read can be written and read again: its clauses are well-formed, its paths are resolved by the
aliases that its entities bind, and nothing is known of these entities. Only the names of types must be watched: the
quotes of a name are not kept in a type.
-/

namespace Clausal

/-- A body that is read, and the aliases that are bound at its end. -/
structure Body.IsRead (b : Body) (m : Aliases) : Prop where
  clauses : ∀ c ∈ b.clauses, c.WellFormed
  resolved : ∀ p ∈ paths b, p.Resolved m
  bound : bindAll .empty b.entityRefs = .ok m
  untold : b.withoutTemplates = b

private theorem wellFormed_exprs {es : List Expr} (h : ∀ e ∈ es, e.WellFormed) {p : Path} (hp : p ∈ paths es) :
    p.WellFormed := by
  obtain ⟨e, he, hp⟩ := List.mem_flatMap.1 hp
  exact (h e he).path hp

private theorem wellFormed_pathList {ps : List Path} (h : ∀ p ∈ ps, p.WellFormed) {p : Path} (hp : p ∈ paths ps) :
    p.WellFormed := by
  obtain ⟨q, hq, hp⟩ := List.mem_flatMap.1 hp
  exact List.mem_singleton.1 hp ▸ h q hq

private theorem wellFormed_values {as : List Assignment} (h : ∀ a ∈ as, a.path.WellFormed ∧ a.value.WellFormed)
    {p : Path} (hp : p ∈ paths as) : p.WellFormed := by
  obtain ⟨a, ha, hp⟩ := List.mem_flatMap.1 hp
  rcases List.mem_cons.1 hp with rfl | hp
  · exact (h a ha).1
  · exact (h a ha).2.path hp

private theorem wellFormed_constraints {cs : List Constraint} (h : ∀ c ∈ cs, c.WellFormed) {p : Path}
    (hp : p ∈ paths cs) : p.WellFormed := by
  obtain ⟨⟨name, kind⟩, hc, hp⟩ := List.mem_flatMap.1 hp
  have hkind := (h _ hc).2
  cases kind with
  | check e => exact Expr.WellFormed.path hkind hp
  | primaryKey _ | unique _ => exact absurd hp List.not_mem_nil

/-- The paths of clauses that can be written can be written. -/
theorem Body.wellFormed_paths {b : Body} (h : ∀ c ∈ b.clauses, c.WellFormed) {p : Path} (hp : p ∈ paths b) :
    p.WellFormed := by
  cases b <;> simp only [clauses, List.forall_mem_cons, List.not_mem_nil, false_imp_iff, implies_true, and_true] at h
  case select s =>
    obtain ⟨hselection, -, hfilter, hgroupBy, hhaving, horderBy, -⟩ := h
    simp only [paths, List.mem_append] at hp
    rcases hp with (((hp | hp) | hp) | hp) | hp
    · exact wellFormed_exprs hselection.exprs (s.projection.selection.paths_eq ▸ hp)
    · exact wellFormed_exprs hfilter.2 hp
    · exact wellFormed_pathList hgroupBy hp
    · exact wellFormed_exprs hhaving.2 hp
    · obtain ⟨t, ht, hp⟩ := List.mem_flatMap.1 hp
      exact (horderBy t ht).path hp
  case insert s => exact wellFormed_values h.2.2 hp
  case update s => exact (List.mem_append.1 hp).elim (wellFormed_values h.2.1) (wellFormed_exprs h.2.2.2)
  case delete s => exact wellFormed_exprs h.2.2.2 hp
  case createTable s => exact wellFormed_constraints h.2.2 hp
  case createIndex s => exact wellFormed_pathList h.2.2 hp

namespace Parse

open Token (Kind NamesType)

/-! ### Columns -/

private theorem gives_typeArgument {known : List Token → Prop} (hkept : Kept known) (m : Aliases) :
    Gives known typeArgument m fun _ m' => m' = m ∧ True := by
  refine Gives.place.bind ?_
  rintro position m' rfl
  refine (Gives.integer hkept).bind ?_
  rintro n m' rfl
  split
  · exact .pure ⟨rfl, trivial⟩
  · exact .fail _ _

private theorem gives_columnType {known : List Token → Prop} (hkept : Kept known) (m : Aliases) :
    Gives known columnType m fun _ m' => m' = m := by
  refine (Gives.identifier hkept).bind ?_
  rintro name m' ⟨rfl, -⟩
  refine (Gives.peek hkept).bind ?_
  rintro k m' ⟨rfl, -⟩
  split
  · refine (Gives.parenthesized hkept (Gives.commaList_same hkept (gives_typeArgument hkept) _)).bind ?_
    rintro args m' ⟨rfl, -⟩
    exact .pure rfl
  · exact .pure rfl

private theorem gives_names {known : List Token → Prop} (hkept : Kept known) (m : Aliases) :
    Gives known (parenthesized (commaList identifier)) m fun names m' =>
      m' = m ∧ names ≠ [] ∧ "" ∉ names := by
  refine (Gives.parenthesized hkept (Gives.commaList_same hkept (P := fun _ name => name ≠ "")
    (fun _ => Gives.identifier hkept) m)).mono ?_
  rintro names m' ⟨rfl, hne, hall⟩
  exact ⟨rfl, hne, fun he => hall "" he rfl⟩

private theorem gives_constraintKind {known : List Token → Prop} (hkept : Kept known) (m : Aliases) :
    Gives known constraintKind m fun k m' => m' = m ∧ k.WellFormed ∧ ∀ p ∈ paths k, p.Resolved m := by
  refine (Gives.eat hkept _).bind ?_
  rintro primary m' rfl
  cases primary with
  | true =>
    refine (Gives.keyword hkept _).bind ?_
    rintro _ m' rfl
    refine (gives_names hkept _).bind ?_
    rintro names m' ⟨rfl, hnames⟩
    exact .pure ⟨rfl, hnames, fun p hp => absurd hp List.not_mem_nil⟩
  | false =>
    refine (Gives.eat hkept _).bind ?_
    rintro unique m' rfl
    cases unique with
    | true =>
      refine (gives_names hkept _).bind ?_
      rintro names m' ⟨rfl, hnames⟩
      exact .pure ⟨rfl, hnames, fun p hp => absurd hp List.not_mem_nil⟩
    | false =>
      refine (Gives.eat hkept _).bind ?_
      rintro check m' rfl
      cases check with
      | true =>
        refine (Gives.parenthesized hkept (Gives.expression hkept m')).bind ?_
        rintro e m' ⟨rfl, he⟩
        exact .pure ⟨rfl, he.1, fun p hp => (he.2 p hp).resolved⟩
      | false => exact .unexpected _

private theorem gives_column {all : List Token} (hsane : ∀ t ∈ all, t.kind.Sane)
    (htypes : ∀ t name, NamesType all t → t.kind = .identifier name → Dialect.needsQuoting name = false) (m : Aliases) :
    Gives (Within all [.keyword .table, .symbol .leftParen]) column m fun c m' => m' = m ∧ c.WellFormed := by
  have hkept := Within.kept hsane [.keyword .table, .symbol .leftParen]
  intro c x c' hc hwithin hrun
  obtain ⟨name, c₁, hname, hrest⟩ := bind_run_eq_ok hrun
  obtain ⟨type, c₂, htype, hpure⟩ := bind_run_eq_ok hrest
  cases hpure
  obtain ⟨hwithin₁, hc₁, hne⟩ := Gives.identifier hkept c name c₁ hc hwithin hname
  obtain ⟨hwithin₂, hc₂⟩ := gives_columnType hkept m c₁ type c' hc₁ hwithin₁ htype
  obtain ⟨span, htokens⟩ := identifier_eq_ok hname
  obtain ⟨typeName, args, typeSpan, rest, hnext, rfl⟩ := columnType_eq_ok htype
  obtain ⟨before, hall, hwords⟩ := hwithin
  rw [htokens, hnext] at hall
  have hplain := htypes _ typeName ⟨before, name, span, rest, hall, hwords, typeName, rfl⟩ rfl
  exact ⟨hwithin₂, hc₂, hne, ColumnType.readsBack_of_plain (ColumnType.plain_ofParts args hplain)⟩

/-- Columns and constraints that are read, as far as a property of each column is known. -/
private structure ColumnsRead (P : Column → Prop) (m : Aliases) (l : ColumnList) : Prop where
  groups : ∀ g ∈ l.groups, g.columns ≠ [] ∧ ∀ c ∈ g.columns, P c
  constraints : ∀ c ∈ l.constraints, c.WellFormed
  resolved : ∀ p ∈ paths l.constraints, p.Resolved m

section Columns

variable {all : List Token} (hsane : ∀ t ∈ all, t.kind.Sane) {P : Column → Prop}
  (hcolumn : ∀ m, Gives (Within all [.keyword .table, .symbol .leftParen]) column m fun c m' => m' = m ∧ P c)

include hsane hcolumn

private theorem gives_item (m : Aliases) :
    Gives (Within all [.keyword .table, .symbol .leftParen]) columnOrConstraint m fun item m' =>
      m' = m ∧ item.elim P fun c => c.WellFormed ∧ ∀ p ∈ paths c, p.Resolved m := by
  have hkept := Within.kept hsane [.keyword .table, .symbol .leftParen]
  refine (Gives.eat hkept _).bind ?_
  rintro constraint m' rfl
  cases constraint with
  | true =>
    refine (Gives.identifier hkept).bind ?_
    rintro name m' ⟨rfl, hname⟩
    refine (gives_constraintKind hkept _).bind ?_
    rintro kind m' ⟨rfl, hkind, hpaths⟩
    exact .pure ⟨rfl, ⟨hname, hkind⟩, hpaths⟩
  | false =>
    refine (hcolumn _).bind ?_
    rintro c m' ⟨rfl, hc⟩
    exact .pure ⟨rfl, hc⟩

private theorem gives_columns (e : Entity) (m : Aliases) :
    Gives (Within all [.keyword .table]) (columns .empty e) m fun l m' => m' = m ∧ ColumnsRead P m l := by
  have hkept := Within.kept hsane [.keyword .table]
  refine (Gives.peek hkept).bind ?_
  rintro k m' ⟨rfl, -⟩
  split
  · refine (Gives.parenthesized_within hsane
      (Gives.commaList_same (Within.kept hsane _) (gives_item hsane hcolumn) m')).bind ?_
    rintro items m' ⟨rfl, -, hitems⟩
    have hcolumns : ∀ c ∈ items.filterMap Sum.getLeft?, P c := by
      intro c hc
      obtain ⟨item, hitem, hleft⟩ := List.mem_filterMap.1 hc
      rw [Sum.getLeft?_eq_some_iff] at hleft
      subst hleft
      exact hitems _ hitem
    have hconstraints : ∀ c ∈ items.filterMap Sum.getRight?, c.WellFormed ∧ ∀ p ∈ paths c, p.Resolved m' := by
      intro c hc
      obtain ⟨item, hitem, hright⟩ := List.mem_filterMap.1 hc
      rw [Sum.getRight?_eq_some_iff] at hright
      subst hright
      exact hitems _ hitem
    refine .pure ⟨rfl, fun g hg => ?_, fun c hc => (hconstraints c hc).1, fun p hp => ?_⟩
    · obtain ⟨c, hc, rfl⟩ := List.mem_map.1 hg
      exact ⟨List.cons_ne_nil _ _, fun d hd => List.mem_singleton.1 hd ▸ hcolumns c hc⟩
    · obtain ⟨c, hc, hp⟩ := List.mem_flatMap.1 hp
      exact (hconstraints c hc).2 p hp
  · refine .pure ⟨rfl, fun g hg => absurd hg List.not_mem_nil, fun c hc => absurd hc List.not_mem_nil, ?_⟩
    exact fun p hp => absurd hp List.not_mem_nil

private theorem gives_createTable :
    Gives (Within all [.keyword .table]) (createTable .empty) .empty fun b m =>
      ∃ target columns, b = .createTable ⟨target, columns⟩ ∧ BoundRef .empty target m ∧ ColumnsRead P m columns := by
  have hkept := Within.kept hsane [.keyword .table]
  refine (Gives.entityRef hkept _).bind fun target m htarget => ?_
  refine (gives_columns hsane hcolumn _ _).bind ?_
  rintro columns m ⟨rfl, hcolumns⟩
  exact .pure ⟨target, columns, rfl, htarget, hcolumns⟩

end Columns

/-! ### Bodies -/

private theorem resolved_exprs {m : Aliases} {es : List Expr} (h : ∀ e ∈ es, e.IsRead m) :
    ∀ p ∈ paths es, p.Resolved m := by
  intro p hp
  obtain ⟨e, he, hp⟩ := List.mem_flatMap.1 hp
  exact ((h e he).2 p hp).resolved

private theorem resolved_paths {m : Aliases} {ps : List Path} (h : ∀ p ∈ ps, p.IsRead m) :
    ∀ p ∈ paths ps, p.Resolved m := by
  intro p hp
  obtain ⟨q, hq, hp⟩ := List.mem_flatMap.1 hp
  rw [List.mem_singleton.1 hp]
  exact (h q hq).resolved

private theorem resolved_terms {m : Aliases} {ts : List OrderTerm} (h : ∀ t ∈ ts, t.expr.IsRead m) :
    ∀ p ∈ paths ts, p.Resolved m := by
  intro p hp
  obtain ⟨t, ht, hp⟩ := List.mem_flatMap.1 hp
  exact ((h t ht).2 p hp).resolved

private theorem resolved_assignments {m : Aliases} {as : List Assignment} (h : ∀ a ∈ as, a.IsRead m) :
    ∀ p ∈ paths as, p.Resolved m := by
  intro p hp
  obtain ⟨a, ha, hp⟩ := List.mem_flatMap.1 hp
  rcases List.mem_cons.1 hp with rfl | hp
  · exact (h a ha).1.resolved
  · exact ((h a ha).2.2 p hp).resolved

private theorem wellFormed_filter {m : Aliases} {f : Filter} (h : f.IsRead m) : f.WellFormed :=
  ⟨h.1, fun e he => (h.2 e he).1⟩

private theorem wellFormed_assignments {m : Aliases} {as : List Assignment} (h : ∀ a ∈ as, a.IsRead m) :
    ∀ a ∈ as, a.path.WellFormed ∧ a.value.WellFormed :=
  fun a ha => ⟨(h a ha).1.wellFormed, (h a ha).2.1⟩

section Bodies

variable {known : List Token → Prop} (hkept : Kept known)

include hkept

private theorem gives_select : Gives known (select .empty) .empty fun b m => b.IsRead m := by
  refine (Gives.eat hkept _).bind ?_
  rintro distinct m rfl
  refine (Gives.selected hkept).bind ?_
  rintro list m ⟨rfl, hlist⟩
  refine (Gives.keyword hkept _).bind ?_
  rintro _ m rfl
  refine (Gives.sources hkept _).bind ?_
  rintro entities m ⟨hbind, hentities, huntold⟩
  refine (Gives.resolveSelected entities.primary hlist m).bind ?_
  rintro selection m ⟨rfl, hselection⟩
  refine (Gives.filter hkept _ _).bind ?_
  rintro conditions m ⟨rfl, hconditions⟩
  refine (Gives.listBy hkept _ ((Gives.pathList hkept m).mono fun _ _ h => ⟨h.1, h.2.2⟩)).bind ?_
  rintro groupBy m ⟨rfl, hgroupBy⟩
  refine (Gives.filter hkept _ _).bind ?_
  rintro having m ⟨rfl, hhaving⟩
  refine (Gives.listBy hkept _ ((Gives.commaList_same hkept (Gives.orderTerm hkept) m).mono
    fun _ _ h => ⟨h.1, h.2.2⟩)).bind ?_
  rintro orderBy m ⟨rfl, horderBy⟩
  refine (Gives.count hkept _ _).bind ?_
  rintro limit m rfl
  refine (Gives.count hkept _ _).bind ?_
  rintro offset m rfl
  refine .pure ⟨?_, ?_, hbind, ?_⟩
  · simp only [Body.clauses, List.forall_mem_cons, List.not_mem_nil, false_imp_iff, implies_true, and_true]
    exact ⟨hselection.1, hentities, wellFormed_filter hconditions, fun p hp => (hgroupBy p hp).wellFormed,
      wellFormed_filter hhaving, fun t ht => (horderBy t ht).1, trivial, trivial⟩
  · have hselected : ∀ p ∈ paths selection, p.Resolved _ := selection.paths_eq ▸ resolved_exprs hselection.2
    simp only [paths, List.forall_mem_append]
    exact ⟨⟨⟨⟨hselected, resolved_exprs hconditions.2⟩, resolved_paths hgroupBy⟩,
      resolved_exprs hhaving.2⟩, resolved_terms horderBy⟩
  · rw [Body.withoutTemplates, huntold]

private theorem gives_insert (mode : InsertMode) :
    Gives known (insert .empty mode) .empty fun b m => b.IsRead m := by
  refine (Gives.keyword hkept _).bind ?_
  rintro _ m rfl
  refine (Gives.entityRef hkept _).bind ?_
  rintro target m ⟨hbind, htarget, huntold⟩
  have hbody : ∀ values : List Assignment, (∀ a ∈ values, a.IsRead m) →
      (Body.insert ⟨mode, target, values⟩).IsRead m := by
    intro values hvalues
    refine ⟨?_, resolved_assignments hvalues, hbind, by rw [Body.withoutTemplates, huntold]⟩
    simp only [Body.clauses, List.forall_mem_cons, List.not_mem_nil, false_imp_iff, implies_true, and_true]
    exact ⟨trivial, htarget, wellFormed_assignments hvalues⟩
  refine (Gives.peek hkept).bind ?_
  rintro k m ⟨rfl, -⟩
  split
  · refine (Gives.insertedValues hkept _).bind ?_
    rintro values m ⟨rfl, hvalues⟩
    exact .pure (hbody values hvalues)
  · exact .pure (hbody [] fun a ha => absurd ha List.not_mem_nil)

private theorem gives_update : Gives known (update .empty) .empty fun b m => b.IsRead m := by
  refine (Gives.entityRef hkept _).bind ?_
  rintro target m ⟨hbind, htarget, huntold⟩
  refine (Gives.assignments hkept _).bind ?_
  rintro as m ⟨rfl, has⟩
  refine (Gives.filter hkept _ _).bind ?_
  rintro conditions m ⟨rfl, hconditions⟩
  refine .pure ⟨?_, ?_, hbind, by rw [Body.withoutTemplates, huntold]⟩
  · simp only [Body.clauses, List.forall_mem_cons, List.not_mem_nil, false_imp_iff, implies_true, and_true]
    exact ⟨htarget, wellFormed_assignments has, wellFormed_filter hconditions⟩
  · simp only [paths, List.forall_mem_append]
    exact ⟨resolved_assignments has, resolved_exprs hconditions.2⟩

private theorem gives_delete : Gives known (delete .empty) .empty fun b m => b.IsRead m := by
  refine (Gives.keyword hkept _).bind ?_
  rintro _ m rfl
  refine (Gives.sources hkept _).bind ?_
  rintro entities m ⟨hbind, hentities, huntold⟩
  refine (Gives.filter hkept _ _).bind ?_
  rintro conditions m ⟨rfl, hconditions⟩
  refine .pure ⟨?_, resolved_exprs hconditions.2, hbind, by rw [Body.withoutTemplates, huntold]⟩
  simp only [Body.clauses, List.forall_mem_cons, List.not_mem_nil, false_imp_iff, implies_true, and_true]
  exact ⟨trivial, hentities, wellFormed_filter hconditions⟩

private theorem gives_createIndex : Gives known (createIndex .empty) .empty fun b m => b.IsRead m := by
  refine (Gives.eat hkept _).bind ?_
  rintro unique m rfl
  refine (Gives.keyword hkept _).bind ?_
  rintro _ m rfl
  refine (Gives.identifier hkept).bind ?_
  rintro name m ⟨rfl, hname⟩
  refine (Gives.keyword hkept _).bind ?_
  rintro _ m rfl
  refine (Gives.entityRef hkept _).bind ?_
  rintro target m ⟨hbind, htarget, huntold⟩
  have hbody : ∀ ps : List Path, (∀ p ∈ ps, p.IsRead m) →
      (Body.createIndex ⟨⟨name, unique⟩, target, ps⟩).IsRead m := by
    intro ps hps
    refine ⟨?_, resolved_paths hps, hbind, by rw [Body.withoutTemplates, huntold]⟩
    simp only [Body.clauses, List.forall_mem_cons, List.not_mem_nil, false_imp_iff, implies_true, and_true]
    exact ⟨hname, htarget, fun p hp => (hps p hp).wellFormed⟩
  refine (Gives.peek hkept).bind ?_
  rintro k m ⟨rfl, -⟩
  split
  · refine (Gives.parenthesized hkept (Gives.pathList hkept _)).bind ?_
    rintro ps m ⟨rfl, -, hps⟩
    exact .pure (hbody ps hps)
  · exact .pure (hbody [] fun p hp => absurd hp List.not_mem_nil)

/-- A word that tells which of two ways to go on. -/
private theorem gives_word (w : Keyword) {p q : Parser Body} {m : Aliases} {R : Body → Aliases → Prop}
    (hp : Gives known p m R) (hq : Gives known q m R) :
    Gives known (eatKeyword w >>= fun found => if found = true then p else q) m R := by
  refine (Gives.eat hkept _).bind ?_
  rintro found m rfl
  cases found with
  | true => exact hp
  | false => exact hq

end Bodies

section Whole

variable {all : List Token} (hsane : ∀ t ∈ all, t.kind.Sane)

include hsane

/-- Whatever holds of a body that is read holds of every one, if it holds of tables. -/
private theorem gives_wholeBody {R : Body → Aliases → Prop} (hread : ∀ b m, b.IsRead m → R b m)
    (htable : Gives (Within all [.keyword .table]) (createTable .empty) .empty R) :
    Gives (Within all []) (Parse.wholeBody .empty) .empty R := by
  have hkept := Within.kept hsane []
  have hcreate : Gives (Within all []) (create .empty) .empty R :=
    Gives.eat_bind (by decide) htable ((gives_createIndex hkept).mono hread)
  have hinsert (mode : InsertMode) := (gives_insert hkept mode).mono hread
  have hbody : Gives (Within all []) (Parse.body .empty) .empty R := by
    refine gives_word hkept _ ((gives_select hkept).mono hread) (gives_word hkept _ (hinsert .insert) ?_)
    refine gives_word hkept _ (hinsert .upsert) (gives_word hkept _ (hinsert .merge) ?_)
    refine gives_word hkept _ ((gives_update hkept).mono hread) ?_
    refine gives_word hkept _ ((gives_delete hkept).mono hread) (gives_word hkept _ hcreate (.unexpected _))
  refine hbody.bind fun b m hb => ?_
  refine (Gives.peek hkept).bind ?_
  rintro k m ⟨rfl, -⟩
  split
  · exact .pure hb
  · exact .unexpected_bind _

/-- Every body that is read can be read again. -/
theorem Gives.wholeBody
    (htypes : ∀ t name, NamesType all t → t.kind = .identifier name → Dialect.needsQuoting name = false) :
    Gives (Within all []) (Parse.wholeBody .empty) .empty fun b m => b.IsRead m := by
  refine gives_wholeBody hsane (fun _ _ h => h) ((gives_createTable hsane (gives_column hsane htypes)).mono ?_)
  rintro _ m ⟨target, columns, rfl, ⟨hbind, htarget, huntold⟩, hcolumns⟩
  refine ⟨?_, hcolumns.resolved, hbind, by rw [Body.withoutTemplates, huntold]⟩
  simp only [Body.clauses, List.forall_mem_cons, List.not_mem_nil, false_imp_iff, implies_true, and_true]
  exact ⟨htarget, hcolumns.groups, hcolumns.constraints⟩

/-- Whatever the types of columns are called, the paths of a body that is read have parts and are resolved by the
aliases of its entities. -/
theorem Gives.wholeBody_paths : Gives (Within all []) (Parse.wholeBody .empty) .empty fun b m =>
    (∀ p ∈ paths b, p.Resolved m ∧ p.WellFormed) ∧ Body.bindAll .empty b.entityRefs = .ok m := by
  have hcolumn (m : Aliases) : Gives (Within all [.keyword .table, .symbol .leftParen]) column m fun _ m' =>
      m' = m ∧ True := by
    have hkept := Within.kept hsane [.keyword .table, .symbol .leftParen]
    refine (Gives.identifier hkept).bind ?_
    rintro name m' ⟨rfl, -⟩
    refine (gives_columnType hkept _).bind ?_
    rintro type m' rfl
    exact .pure ⟨rfl, trivial⟩
  refine gives_wholeBody hsane (fun b m h => ⟨fun p hp => ⟨h.resolved p hp, ?_⟩, h.bound⟩)
    ((gives_createTable hsane hcolumn).mono ?_)
  · exact Body.wellFormed_paths h.clauses hp
  · rintro _ m ⟨target, columns, rfl, htarget, hcolumns⟩
    exact ⟨fun p hp => ⟨hcolumns.resolved p hp, wellFormed_constraints hcolumns.constraints hp⟩, htarget.1⟩

end Whole

end Parse

end Clausal
