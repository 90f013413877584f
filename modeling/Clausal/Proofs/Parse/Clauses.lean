import Clausal.Proofs.Parse.Filter
import Clausal.Proofs.Statement.Canonical

/-!
# Reading clauses

Every clause of a statement is read from its tokens. What may follow a clause are the words that begin the later
ones, and the end of the text.
-/

namespace Clausal.Parse

open Token (Kind listed)

variable {m m' : Aliases} {follow : Kind → Prop}

/-! ### Entities -/

def AfterEntity (k : Kind) : Prop := k ≠ .keyword .as ∧ ∀ name, k ≠ .identifier name

private theorem reads_bindAlias {name : String} {e : Entity} (span : Span) (h : m.bind name e = .ok m') :
    Reads (bindAlias name e span) m [] follow () m' := by
  intro ts rest stop hts _
  rw [List.map_eq_nil_iff.1 hts, List.nil_append]
  simp only [bindAlias, StateT.run_bind, StateT.run_get, pure_bind, h]
  rfl

private theorem reads_alias {d : Dialect} {name a : String} {e : Entity} (h : m.bind a e = .ok m') :
    Reads (do
      let introduced ← eatKeyword .as
      let position ← place
      match ← peek with
      | .identifier aliasName =>
        skip
        bindAlias aliasName e position
        return (⟨e, name, some aliasName⟩ : EntityRef)
      | _ =>
        if introduced then unexpected .identifier
        return ⟨e, name, none⟩) m ((if d.aliasKeyword then [.keyword .as] else []) ++ [.identifier a]) follow
      ⟨e, name, some a⟩ m' := by
  have hname : ∀ introduced : Bool, Reads (do
      let position ← place
      match ← peek with
      | .identifier aliasName =>
        skip
        bindAlias aliasName e position
        return (⟨e, name, some aliasName⟩ : EntityRef)
      | _ =>
        if introduced then unexpected .identifier
        return ⟨e, name, none⟩) m [.identifier a] follow ⟨e, name, some a⟩ m' := by
    intro introduced
    refine Reads.place_bind fun span => Reads.peek_bind fun next _ => ?_
    have hbind : Reads (bindAlias a e span) m [] (· = next) () m' := reads_bindAlias span h
    exact Reads.skip.cons (hbind.map fun _ => (⟨e, name, some a⟩ : EntityRef))
  split
  · exact Reads.eat_bind (hname true)
  · exact Reads.eat_other_bind (hname false) fun _ _ => by simp

theorem reads_entityRef (d : Dialect) {e : EntityRef} (h : Body.bindAll m [e.withoutTemplate] = .ok m') :
    Reads (entityRef .empty) m (e.kinds d) AfterEntity e.withoutTemplate m' := by
  obtain ⟨entity, name, aliasName⟩ := e
  cases aliasName with
  | none =>
    cases h
    refine (Reads.identifier name).cons (Reads.eat_other_bind ?_ fun _ hk => hk.1)
    refine Reads.place_bind fun span => Reads.peek_bind fun next hnext => ?_
    rw [List.headD_nil]
    split
    · exact absurd rfl (hnext.2 _)
    · exact Reads.pure _
  | some a =>
    have hbind : m.bind a (.opaqueNamed name) = .ok m' := by
      rw [Body.bindAll] at h
      simp only [EntityRef.withoutTemplate] at h
      split at h
      · rename_i hok
        cases h
        exact hok
      · cases h
    exact (Reads.identifier name).cons (reads_alias (d := d) hbind)

private theorem readsAll_entityRefs (d : Dialect) {es : List EntityRef}
    (h : Body.bindAll m (es.map EntityRef.withoutTemplate) = .ok m') :
    ReadsAll (entityRef .empty) AfterEntity m (es.map (EntityRef.kinds d)) (es.map EntityRef.withoutTemplate) m' := by
  induction es generalizing m with
  | nil =>
    cases h
    exact .nil _
  | cons e es ih =>
    rw [List.map_cons] at h
    rcases Body.bindAll_cons h with ⟨hnone, h⟩ | ⟨a, ha, hfree, h⟩
    · refine .cons (reads_entityRef d ?_) (ih h)
      rw [Body.bindAll, hnone]
      rfl
    · refine .cons (reads_entityRef d ?_) (ih h)
      rw [Body.bindAll, ha]
      simp only [Aliases.bind_eq_ok_iff.2 ⟨hfree, rfl⟩]
      rfl

theorem reads_sources (d : Dialect) {s : Sources} (h : Body.bindAll m s.withoutTemplates.all = .ok m') :
    Reads (sources .empty) m (listed (s.all.map (EntityRef.kinds d)))
      (fun k => AfterEntity k ∧ k ≠ .symbol .comma) s.withoutTemplates m' := by
  have hall : ReadsAll (entityRef .empty) AfterEntity m (s.all.map (EntityRef.kinds d))
      (s.all.map EntityRef.withoutTemplate) m' := readsAll_entityRefs d h
  have hcomma : AfterEntity (.symbol .comma) := ⟨by decide, by simp⟩
  rw [Sources.all, List.map_cons, List.map_cons] at hall
  rw [Sources.all, List.map_cons, listed_cons]
  cases hall with
  | cons hfirst hothers =>
    refine hfirst.bind ((Reads.moreItems hcomma hothers).map fun others => Sources.mk _ others) fun k hk => ?_
    cases s.others with
    | nil => exact hk.1
    | cons e es => exact hcomma

/-! ### Selections -/

/-- What is selected, before the entities are known. -/
def Shows (primary : Option String) (m : Aliases) (s : Selection) (list : Selected) : Prop :=
  match s with
  | .all => list = .star ∨ ∃ a span, primary = some a ∧ list = .entity a span
  | s => list = .given (s.mapExprs (Expr.mapPaths (Path.reread m)))

/-- The reader of what is selected from a place on. -/
def selectedAt (position : Span) : Parser Selected := do
  match ← peek with
  | .symbol .star =>
    skip
    return .star
  | .identifier name =>
    skip
    return .entity name position
  | .symbol .leftParen => return .given (.values (← parenthesized (commaList expression)))
  | .keyword .new =>
    skip
    let name ← identifier
    return .given (.construct name (← arguments))
  | _ => unexpected .selection

private theorem reads_arguments {es : List Expr} (h : ∀ e ∈ es, e.WellFormed) :
    Reads arguments m (Token.enclosed (Expr.kindsAll es)) follow (es.map (Expr.mapPaths (Path.reread m))) m := by
  refine (Reads.symbol .leftParen).cons ?_
  cases es with
  | nil => exact Reads.eat_bind (Reads.pure [])
  | cons e es =>
    refine Reads.eat_other_bind ?_ fun _ _ => ?_
    · have hlist := Reads.expressions (m := m) (List.cons_ne_nil e es) h
      refine hlist.bind ((Reads.symbol .rightParen).map fun _ => _) fun _ _ => ?_
      exact (by decide : Closing (.symbol .rightParen) ∧ Kind.symbol .rightParen ≠ .symbol .comma)
    · obtain ⟨k, ks, hks, hparen, -⟩ := kindsAll_begin (List.cons_ne_nil e es) h [.symbol .rightParen]
      rw [hks]
      exact hparen

private theorem reads_selectedAt (d : Dialect) (primary : Option String) {s : Selection} (h : s.WellFormed)
    (span : Span) :
    ∃ list, Shows primary m s list ∧ Reads (selectedAt span) m (s.kinds d primary) (fun _ => True) list m := by
  have star : Reads (selectedAt span) m [.symbol .star] (fun _ => True) .star m :=
    Reads.peek_bind fun next _ => Reads.skip.map fun _ => Selected.star
  cases s with
  | all =>
    cases primary with
    | none => exact ⟨.star, .inl rfl, star⟩
    | some a =>
      simp only [Selection.kinds]
      cases d.selectAll with
      | byStar => exact ⟨.star, .inl rfl, star⟩
      | byAlias =>
        refine ⟨.entity a span, .inr ⟨a, span, rfl, rfl⟩, Reads.peek_bind fun next _ => ?_⟩
        exact Reads.skip.map fun _ => Selected.entity a span
  | values es =>
    refine ⟨_, rfl, Reads.peek_bind fun next _ => ?_⟩
    exact (Reads.parenthesized (Reads.expressions h.1 h.2) (by decide)).map fun es => Selected.given (.values es)
  | construct name es =>
    refine ⟨_, rfl, Reads.peek_bind fun next _ => ?_⟩
    refine Reads.skip.cons ((Reads.identifier name).cons ?_)
    exact (reads_arguments h.2).map fun es => Selected.given (.construct name es)

/-- What is selected, and what is read after it. -/
theorem Reads.selected_bind {β : Type} {f : Selected → Parser β} {y : β} {ls : List Kind} (d : Dialect)
    (primary : Option String) {s : Selection} (hs : s.WellFormed)
    (h : ∀ list, Shows primary m s list → Reads (f list) m ls follow y m') :
    Reads (selected >>= f) m (s.kinds d primary ++ ls) follow y m' := by
  have hsplit : (selected >>= f) = place >>= fun span => selectedAt span >>= f := bind_assoc _ _ _
  rw [hsplit]
  refine Reads.place_bind fun span => ?_
  obtain ⟨list, hshows, hread⟩ := reads_selectedAt (m := m) d primary hs span
  exact hread.seq (h list hshows)

/-- The selection is resolved with the aliases that are known later. -/
theorem reads_resolveSelected {primary : EntityRef} {s : Selection} {list : Selected}
    (hlist : Shows primary.aliasName .empty s list) (h : ∀ e ∈ s.exprs, e.mapPaths (Path.reread m) = e) :
    Reads (resolveSelected primary list) m [] follow s m := by
  have given : ∀ s : Selection, (∀ e ∈ s.exprs, e.mapPaths (Path.reread m) = e) →
      (s.mapExprs (Expr.mapPaths (Path.reread .empty))).mapExprs (Expr.mapPaths (Path.resolve m)) = s := by
    intro s h
    have hresolve : (Path.resolve m ∘ Path.reread .empty) = Path.reread m := by
      funext p
      rw [Function.comp_apply, Path.reread_empty]
      rfl
    have hall : ∀ es : List Expr, (∀ e ∈ es, e.mapPaths (Path.reread m) = e) →
        (es.map (Expr.mapPaths (Path.reread .empty))).map (Expr.mapPaths (Path.resolve m)) = es := by
      intro es hes
      rw [List.map_map, List.map_congr_left (g := id), List.map_id]
      intro e he
      rw [Function.comp_apply, Expr.mapPaths_mapPaths, hresolve, hes e he]
      rfl
    cases s with
    | all => rfl
    | values es => exact congrArg Selection.values (hall es h)
    | construct name es => exact congrArg (Selection.construct name) (hall es h)
  cases s with
  | all =>
    rcases hlist with rfl | ⟨a, span, ha, rfl⟩
    · exact Reads.pure _
    · simp only [resolveSelected, ha, if_true]
      exact Reads.pure Selection.all
  | values es =>
    obtain rfl := hlist
    refine Reads.get_bind fun c hc => ?_
    rw [hc, given (.values es) h]
    exact Reads.pure _
  | construct name es =>
    obtain rfl := hlist
    refine Reads.get_bind fun c hc => ?_
    rw [hc, given (.construct name es) h]
    exact Reads.pure _

/-! ### Lists after a word -/

/-- The tokens of an optional list after a word and BY. -/
def kindsOfListBy {α : Type} (k : Keyword) (kinds : α → List Kind) (xs : List α) : List Kind :=
  if xs.isEmpty then [] else .keyword k :: .keyword .by :: listed (xs.map kinds)

private theorem reads_listBy {α : Type} (k : Keyword) {items : Parser (List α)} {kinds : α → List Kind} {xs : List α}
    (h : xs ≠ [] → Reads items m (listed (xs.map kinds)) follow xs m) :
    Reads (listBy k items) m (kindsOfListBy k kinds xs) (fun next => follow next ∧ next ≠ .keyword k) xs m := by
  unfold kindsOfListBy
  split
  · rename_i hempty
    rw [List.isEmpty_iff.1 hempty]
    exact Reads.eat_other_bind (Reads.pure []) fun _ hnext => hnext.2
  · rename_i hne
    refine Reads.eat_bind ((Reads.keyword .by).cons ?_)
    exact (h fun he => hne (by rw [he]; rfl)).mono fun _ hnext => hnext.1

theorem reads_paths {ps : List Path} (hne : ps ≠ []) (h : ∀ p ∈ ps, p.WellFormed ∧ p.Resolved m) :
    Reads pathList m (listed (ps.map Path.kinds)) (fun k => k ≠ .symbol .dot ∧ k ≠ .symbol .comma) ps m := by
  have hread := Reads.pathList (m := m) hne fun p hp => (h p hp).1.1
  rwa [List.map_congr_left (g := id) fun p hp => (h p hp).2.reread_eq (h p hp).1.1, List.map_id] at hread

theorem reads_groupBy {ps : List Path} (h : ∀ p ∈ ps, p.WellFormed ∧ p.Resolved m) :
    Reads (listBy .group pathList) m (kindsOfListBy .group Path.kinds ps)
      (fun k => (k ≠ .symbol .dot ∧ k ≠ .symbol .comma) ∧ k ≠ .keyword .group) ps m :=
  reads_listBy .group fun hne => reads_paths hne h

def AfterTerm (k : Kind) : Prop := Closing k ∧ k ≠ .keyword .desc ∧ k ≠ .keyword .asc

instance (k : Kind) : Decidable (AfterTerm k) := by
  unfold AfterTerm
  infer_instance

theorem discard_eq_bind {α : Type} (p : Parser α) : discard p = p >>= fun _ => pure () := by
  rw [Functor.discard, bind_pure_comp]
  rfl

private theorem reads_orderTerm {t : OrderTerm} (h : t.expr.WellFormed)
    (hpaths : t.expr.mapPaths (Path.reread m) = t.expr) : Reads orderTerm m t.kinds AfterTerm t m := by
  obtain ⟨e, direction⟩ := t
  have hexpr := Reads.expression (m := m) h
  rw [hpaths] at hexpr
  cases direction with
  | desc =>
    refine hexpr.bind (Reads.eat_bind (Reads.pure _)) fun _ _ => ?_
    exact (by decide : Closing (.keyword .desc))
  | asc =>
    refine hexpr.bind (Reads.eat_other_bind ?_ fun _ hk => hk.2.1) fun _ hk => hk.1
    have hasc := (Reads.eat_other (m := m) (.keyword .asc)).map fun _ => ()
    rw [← discard_eq_bind] at hasc
    have hlast := hasc.map fun _ => OrderTerm.mk e .asc
    exact hlast.mono fun _ hk => hk.2.2

theorem reads_orderBy {ts : List OrderTerm}
    (h : ∀ t ∈ ts, t.expr.WellFormed ∧ t.expr.mapPaths (Path.reread m) = t.expr) :
    Reads (listBy .order (commaList orderTerm)) m (kindsOfListBy .order OrderTerm.kinds ts)
      (fun k => (AfterTerm k ∧ k ≠ .symbol .comma) ∧ k ≠ .keyword .order) ts m := by
  refine reads_listBy .order fun hne => ?_
  have hall : ReadsAll orderTerm AfterTerm m (ts.map OrderTerm.kinds) (ts.map id) m :=
    .of_forall fun t ht => reads_orderTerm (h t ht).1 (h t ht).2
  rw [List.map_id] at hall
  exact Reads.commaList ⟨by decide, by decide, by decide⟩ hne hall

theorem reads_count (k : Keyword) (count : Option UInt64) :
    Reads (Parse.count k) m (kindsOfCount k count) (· ≠ .keyword k) count m := by
  cases count with
  | none => exact Reads.eat_other_bind (Reads.pure none) fun _ hk => hk
  | some n => exact Reads.eat_bind ((Reads.integer n).map some)

/-! ### Assignments -/

private theorem reads_assignment {a : Assignment} (hpath : a.path.WellFormed) (hresolved : a.path.Resolved m)
    (hvalue : a.value.WellFormed) (hpaths : a.value.mapPaths (Path.reread m) = a.value) :
    Reads assignment m a.kinds Closing a m := by
  have hread := Reads.path (m := m) hpath.1
  have hexpr := Reads.expression (m := m) hvalue
  rw [hresolved.reread_eq hpath.1] at hread
  rw [hpaths] at hexpr
  refine hread.bind ((Reads.symbol .eq).cons (hexpr.map fun v => Assignment.mk a.path v)) fun _ _ => ?_
  exact (by decide : Kind.symbol .eq ≠ .symbol .dot)

def Readable (m : Aliases) (a : Assignment) : Prop :=
  (a.path.WellFormed ∧ a.path.Resolved m) ∧ a.value.WellFormed ∧ a.value.mapPaths (Path.reread m) = a.value

/-- The tokens of optional assignments after SET. -/
def kindsOfAssignments (as : List Assignment) : List Kind :=
  if as.isEmpty then [] else .keyword .set :: listed (as.map Assignment.kinds)

theorem reads_assignments {as : List Assignment} (h : ∀ a ∈ as, Readable m a) :
    Reads assignments m (kindsOfAssignments as)
      (fun k => (Closing k ∧ k ≠ .symbol .comma) ∧ k ≠ .keyword .set) as m := by
  unfold kindsOfAssignments
  split
  · rename_i hempty
    rw [List.isEmpty_iff.1 hempty]
    exact Reads.eat_other_bind (Reads.pure []) fun _ hk => hk.2
  · rename_i hne
    have hall : ReadsAll assignment Closing m (as.map Assignment.kinds) (as.map id) m :=
      .of_forall fun a ha => reads_assignment (h a ha).1.1 (h a ha).1.2 (h a ha).2.1 (h a ha).2.2
    rw [List.map_id] at hall
    refine Reads.eat_bind ?_
    exact (Reads.commaList (by decide) (fun he => hne (by rw [he]; rfl)) hall).mono fun _ hk => hk.1

theorem reads_insertedValues {as : List Assignment} (hne : as ≠ []) (h : ∀ a ∈ as, Readable m a) :
    Reads insertedValues m
      (Token.enclosed (listed (as.map fun a => a.path.kinds)) ++
        .keyword .values :: Token.enclosed (Expr.kindsAll (as.map (·.value)))) follow as m := by
  have hpaths := reads_paths (List.map_eq_nil_iff.not.2 hne) (List.forall_mem_map.2 fun a ha => (h a ha).1)
  have hvalues := Reads.expressions (m := m) (List.map_eq_nil_iff.not.2 hne)
    (List.forall_mem_map.2 fun a ha => (h a ha).2.1)
  have hsame : (as.map (·.value)).map (Expr.mapPaths (Path.reread m)) = as.map (·.value) := by
    rw [List.map_map]
    exact List.map_congr_left fun a ha => (h a ha).2.2
  rw [hsame] at hvalues
  rw [List.map_map] at hpaths
  refine Reads.place_bind fun opening => ?_
  refine (Reads.parenthesized hpaths (by decide)).seq ?_
  refine (Reads.keyword .values).cons ((Reads.symbol .leftParen).cons ?_)
  refine hvalues.bind ?_ fun _ _ =>
    (by decide : Closing (.symbol .rightParen) ∧ Kind.symbol .rightParen ≠ .symbol .comma)
  refine Reads.place_bind fun closing => (Reads.symbol .rightParen).cons ?_
  rw [List.length_map, List.length_map, if_pos rfl]
  have hzip : (as.map (·.path)).zipWith Assignment.mk (as.map (·.value)) = as := by
    rw [List.zipWith_map, List.zipWith_self, List.map_id'']
    exact fun _ => rfl
  rw [hzip]
  exact Reads.pure as

/-! ### Columns -/

private theorem reads_names {names : List String} (hne : names ≠ []) :
    Reads (parenthesized (commaList identifier)) m (Dialect.kindsOfNames names) follow names m := by
  have hall : ReadsAll identifier (fun _ => True) m (names.map fun name => [.identifier name]) (names.map id) m :=
    .of_forall fun name _ => Reads.identifier name
  rw [List.map_id] at hall
  exact Reads.parenthesized (Reads.commaList trivial hne hall) (by decide)

private theorem reads_column {c : Column} (h : c.WellFormed) :
    Reads column m c.kinds (· ≠ .symbol .leftParen) c m := by
  obtain ⟨name, args, hspelled⟩ := ColumnType.plain_of_readsBack h.2
  have htype := reads_columnType (m := m) name args
  rw [hspelled.2.2] at htype
  rw [Column.kinds, (ColumnType.spells hspelled).kinds_eq]
  exact (Reads.identifier c.name).cons (htype.map fun t => Column.mk c.name t)

private theorem reads_constraintKind {k : Constraint.Kind} (h : k.WellFormed) :
    Reads constraintKind m k.kinds follow (mapPaths (Path.reread m) k) m := by
  cases k with
  | primaryKey names =>
    exact Reads.eat_bind ((Reads.keyword .key).cons ((reads_names h.1).map Constraint.Kind.primaryKey))
  | unique names =>
    refine Reads.eat_other_bind (Reads.eat_bind ((reads_names h.1).map Constraint.Kind.unique)) fun _ _ => ?_
    exact (by decide : Kind.keyword .unique ≠ .keyword .primary)
  | check e =>
    refine Reads.eat_other_bind (Reads.eat_other_bind (Reads.eat_bind ?_) fun _ _ => ?_) fun _ _ => ?_
    · exact (Reads.parenthesized (Reads.expression h) (by decide)).map Constraint.Kind.check
    · exact (by decide : Kind.keyword .check ≠ .keyword .unique)
    · exact (by decide : Kind.keyword .check ≠ .keyword .primary)

/-- What is read in the list of columns and constraints. -/
private def itemsOf (l : ColumnList) : List (Column ⊕ Constraint) :=
  l.shownColumns.map .inl ++ l.sortedConstraints.map fun c => .inr (mapPaths (Path.reread .empty) c)

private theorem lefts_itemsOf (l : ColumnList) : (itemsOf l).filterMap Sum.getLeft? = l.shownColumns := by
  simp [itemsOf, List.filterMap_append, List.filterMap_map, Function.comp_def]

private theorem rights_itemsOf (l : ColumnList) :
    (itemsOf l).filterMap Sum.getRight? = l.sortedConstraints.map (mapPaths (Path.reread .empty)) := by
  simp [itemsOf, List.filterMap_append, List.filterMap_map, Function.comp_def]

private theorem itemsOf_ne_nil {l : ColumnList} (h : l.WellFormed) (hshown : l.isOmitted = false) : itemsOf l ≠ [] := by
  intro hnil
  obtain ⟨hcolumns, hconstraints⟩ := List.append_eq_nil_iff.1 hnil
  rw [ColumnList.isOmitted, (ColumnList.shownColumns_eq_nil h).1 (List.map_eq_nil_iff.1 hcolumns),
    ColumnList.sortedConstraints_eq_nil.1 (List.map_eq_nil_iff.1 hconstraints)] at hshown
  cases hshown

private theorem reads_columnItem {c : Column} (h : c.WellFormed) :
    Reads columnOrConstraint m c.kinds (· ≠ .symbol .leftParen) (.inl c) m := by
  refine Reads.eat_other_bind ((reads_column h).map Sum.inl) fun _ _ => ?_
  exact (by simp : Kind.identifier c.name ≠ .keyword .constraint)

private theorem reads_constraintItem {c : Constraint} (h : c.WellFormed) :
    Reads columnOrConstraint m c.kinds follow (.inr (mapPaths (Path.reread m) c)) m := by
  refine Reads.eat_bind ((Reads.identifier c.name).cons ?_)
  have hkind : Reads constraintKind m c.kind.kinds follow (mapPaths (Path.reread m) c.kind) m :=
    reads_constraintKind h.2
  exact hkind.map fun kind => Sum.inr (Constraint.mk c.name kind)

private theorem reads_items {l : ColumnList} (h : l.WellFormed) :
    ReadsAll columnOrConstraint (· ≠ .symbol .leftParen) .empty
      (l.shownColumns.map Column.kinds ++ l.sortedConstraints.map Constraint.kinds) (itemsOf l) .empty := by
  refine ReadsAll.append (.of_forall fun c hc => ?_) (.of_forall fun c hc => ?_)
  · obtain ⟨g, hg, hc⟩ := List.mem_flatMap.1 hc
    exact reads_columnItem ((h.1 g (ColumnList.mem_sortedGroups.1 hg)).2 c hc)
  · exact reads_constraintItem (h.2 c (List.mem_mergeSort.1 hc))

theorem reads_columns {l : ColumnList} (h : l.WellFormed) (e : Entity) :
    Reads (columns .empty e) .empty (if l.isOmitted then [] else l.kinds) (· = .eof) l.reread .empty := by
  cases hshown : l.isOmitted with
  | true =>
    obtain ⟨hgroups, hconstraints⟩ := Bool.and_eq_true_iff.1 hshown
    have hreread : l.reread = columnList .empty e [] [] := by
      rw [ColumnList.reread, ColumnList.sortedConstraints, ColumnList.sortedGroups, List.isEmpty_iff.1 hgroups,
        List.isEmpty_iff.1 hconstraints, List.mergeSort_nil, List.mergeSort_nil, ite_self]
      rfl
    rw [hreread]
    refine Reads.peek_bind fun k hk => ?_
    rw [if_pos rfl, List.headD_nil, hk, if_neg (by decide)]
    exact Reads.pure _
  | false =>
    refine Reads.peek_bind fun k hk => ?_
    have hitems := Reads.commaList (by decide) (itemsOf_ne_nil h hshown) (reads_items h)
    have henclosed : Reads (parenthesized (commaList columnOrConstraint)) .empty l.kinds (· = k) (itemsOf l) .empty :=
      Reads.parenthesized hitems (by decide)
    have hlist := henclosed.map fun items =>
      columnList .empty e (items.filterMap Sum.getLeft?) (items.filterMap Sum.getRight?)
    rw [lefts_itemsOf, rights_itemsOf] at hlist
    exact hlist

end Clausal.Parse
