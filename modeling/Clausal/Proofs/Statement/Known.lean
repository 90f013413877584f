import Clausal.Proofs.Mapping.Grouping
import Clausal.Proofs.Parse.Known
import Clausal.Proofs.Statement.FixedPoint

/-!
# What is known of entities does not change what a text says

A text is accepted in a context if it is accepted where nothing is known, and it fails in the same way. The statement
has the same canonical text; it is even the same statement, up to templates, unless it defines a table. The columns
of a table may be grouped by field, but they are written in the order in which they were read.
-/

namespace Clausal

variable {ctx : Parse.Context}

/-! ### Columns -/

namespace ColumnList

/-- Columns are grouped, or they are left as they were read. -/
theorem known_cases (ctx : Parse.Context) (e : Entity) (l : ColumnList) :
    (∃ (s : Storage) (groups : List ColumnGroup), s.groups? e (l.groups.flatMap (·.columns)) = some groups ∧
      l.known ctx e = ⟨groups, l.constraints, false⟩) ∨
        l.known ctx e = l.known .empty e := by
  unfold known Parse.columnList
  split
  · rename_i groups hgroups
    obtain ⟨s, -, hgroups⟩ := Option.bind_eq_some_iff.1 hgroups
    exact .inl ⟨s, groups, hgroups, rfl⟩
  · exact .inr rfl

theorem constraints_known (ctx : Parse.Context) (e : Entity) (l : ColumnList) :
    (l.known ctx e).constraints = l.constraints := by
  rcases l.known_cases ctx e with ⟨s, groups, -, h⟩ | h <;> rw [h]
  rfl

variable {e e' : Entity} {l : ColumnList}

/-- Columns that were read where nothing is known are written in the order in which they were read. -/
theorem shownColumns_of_known (h : l.known .empty e' = l) : l.shownColumns = l.groups.flatMap (·.columns) := by
  have hwritten : l.asWritten = true := (congrArg asWritten h).symm
  rw [shownColumns, sortedGroups, if_pos hwritten]

theorem groups_of_known (h : l.known .empty e' = l) :
    l.groups = l.shownColumns.map fun c => ⟨.bare c.name, [c]⟩ := by
  rw [shownColumns_of_known h]
  exact (congrArg groups h).symm

/-- Grouping keeps the columns and their order. -/
theorem shownColumns_known (h : l.known .empty e' = l) (ctx : Parse.Context) (e : Entity) :
    (l.known ctx e).shownColumns = l.shownColumns := by
  rcases l.known_cases ctx e with ⟨s, groups, hgroups, hknown⟩ | hknown
  · rw [hknown, shownColumns_of_known h]
    exact (Storage.groups?_eq_some hgroups).1
  · rw [hknown]
    exact congrArg shownColumns h

theorem isOmitted_known (h : l.known .empty e' = l) (ctx : Parse.Context) (e : Entity) :
    (l.known ctx e).isOmitted = l.isOmitted := by
  rcases l.known_cases ctx e with ⟨s, groups, hgroups, hknown⟩ | hknown
  · obtain ⟨hflat, hne⟩ := Storage.groups?_eq_some hgroups
    have hgrouped : groups ≠ [] := by
      rintro rfl
      rw [List.mergeSort_nil] at hflat
      exact hne hflat.symm
    have hread : l.groups ≠ [] := by
      intro hnil
      rw [hnil] at hne
      exact hne rfl
    rw [hknown, isOmitted, isOmitted, List.isEmpty_eq_false_iff.2 hgrouped, List.isEmpty_eq_false_iff.2 hread]
  · rw [hknown]
    exact congrArg isOmitted h

theorem render_known (d : Dialect) (h : l.known .empty e' = l) (ctx : Parse.Context) (e : Entity) :
    (l.known ctx e).render d = l.render d := by
  have hcolumns := shownColumns_known h ctx e
  unfold shownColumns at hcolumns
  rw [render, render, hcolumns, sortedConstraints, sortedConstraints, constraints_known]

end ColumnList

/-! ### Bodies -/

namespace Body

variable {b : Body}

theorem known_of_parse {text : String} (h : parse .empty text = .ok b) : b.known .empty = b := by
  have hself := parse_eq_known .empty text
  rw [h] at hself
  exact (Except.ok.inj hself).symm

/-- Bodies differ in templates only, unless they define tables. -/
theorem withoutTemplates_known (h : b.known .empty = b) (htable : ∀ s, b ≠ .createTable s) (ctx : Parse.Context) :
    (b.known ctx).withoutTemplates = b := by
  have hsources (s : Sources) : (s.known ctx.catalog).withoutTemplates = s.known .empty := by
    show Sources.mk _ ((s.others.map _).map _) = Sources.mk _ (s.others.map _)
    rw [List.map_map]
    rfl
  cases b with
  | select s =>
    refine Eq.trans ?_ h
    rw [known, withoutTemplates, hsources]
    rfl
  | delete s =>
    refine Eq.trans ?_ h
    rw [known, withoutTemplates, hsources]
    rfl
  | createTable s => exact absurd rfl (htable s)
  | _ => exact h

theorem clauses_known (d : Dialect) (h : b.known .empty = b) (ctx : Parse.Context) :
    (b.known ctx).primaryAlias = b.primaryAlias ∧
      List.Forall₂ (Clause.SameText d b.primaryAlias) b.clauses (b.known ctx).clauses := by
  have hsources (s : Sources) (primary : Option String) :
      (Clause.sources s).SameText d primary (.sources (s.known ctx.catalog)) := by
    refine ⟨rfl, congrArg (fun texts => "FROM " ++ String.intercalate ", " texts) ?_⟩
    show (_ :: (s.others.map _).map _) = _ :: s.others.map _
    rw [List.map_map]
    rfl
  cases b with
  | select s =>
    refine ⟨rfl, .cons (Clause.sameText_self _) (.cons (hsources _ _) ?_)⟩
    exact List.forall₂_same.2 fun c _ => Clause.sameText_self c
  | insert s => exact ⟨rfl, .cons (Clause.sameText_self _) (.cons ⟨rfl, rfl⟩ (.cons (Clause.sameText_self _) .nil))⟩
  | update s =>
    exact ⟨rfl, .cons ⟨rfl, rfl⟩ (.cons (Clause.sameText_self _) (.cons (Clause.sameText_self _) .nil))⟩
  | delete s =>
    exact ⟨rfl, .cons (Clause.sameText_self _) (.cons (hsources _ _) (.cons (Clause.sameText_self _) .nil))⟩
  | createTable s =>
    have hcolumns : s.columns.known .empty (.opaqueNamed s.target.name) = s.columns :=
      congrArg CreateTable.columns (Body.createTable.inj h)
    refine ⟨rfl, .cons ⟨rfl, rfl⟩ (.cons ⟨?_, ?_⟩ .nil)⟩
    · exact ColumnList.isOmitted_known hcolumns ctx _
    · exact ColumnList.render_known d hcolumns ctx _
  | createIndex s =>
    exact ⟨rfl, .cons (Clause.sameText_self _) (.cons ⟨rfl, rfl⟩ (.cons (Clause.sameText_self _) .nil))⟩

theorem exprs_known (b : Body) (ctx : Parse.Context) : (b.known ctx).exprs = b.exprs := by
  cases b with
  | createTable s =>
    show (s.columns.known ctx _).constraints.filterMap checkedExpr? = _
    rw [ColumnList.constraints_known]
    rfl
  | _ => rfl

theorem entityRefs_known (b : Body) (ctx : Parse.Context) :
    (b.known ctx).entityRefs = b.entityRefs.map (EntityRef.known ctx.catalog) := by
  cases b <;> rfl

/-- The same aliases can be bound, whatever is known of their entities. -/
theorem bindAll_known (catalog : Catalog) {refs : List EntityRef} {m n : Aliases}
    (h : ∀ a, m.contains a = n.contains a) :
    (bindAll m (refs.map (EntityRef.known catalog))).map (fun _ => ()) = (bindAll n refs).map fun _ => () := by
  -- The maps differ in what their aliases stand for, so only the aliases are compared on the way.
  induction refs generalizing m n with
  | nil => rfl
  | cons r refs ih =>
    rw [List.map_cons, bindAll, bindAll]
    have hname : (r.known catalog).aliasName = r.aliasName := rfl
    rw [hname]
    cases r.aliasName with
    | none => exact ih h
    | some a =>
      simp only [Aliases.bind, h]
      cases n.contains a with
      | true => rfl
      | false =>
        refine ih fun b => ?_
        rw [Aliases.contains_insert, Aliases.contains_insert, h]

/-- A body is sound, or is not for the same reason, whatever is known of its entities. -/
theorem check_known (b : Body) (ctx : Parse.Context) :
    (b.known ctx).check.map (fun _ => ()) = b.check.map fun _ => () := by
  have hfinite : (b.known ctx).firstNonFinite? = b.firstNonFinite? := by
    rw [firstNonFinite?, exprs_known]
    rfl
  rw [check, check, hfinite, entityRefs_known]
  cases b.firstNonFinite? with
  | some x => rfl
  | none => exact bindAll_known ctx.catalog fun _ => rfl

end Body

/-! ### Statements -/

namespace Statement

/-- A text is refused for the same reason whether or not anything is known, or the statement is the one that is read
where nothing is known, as it is read in the context. -/
theorem parse_cases (ctx : Parse.Context) (text : String) :
    (∃ e, parse ctx text = .error e ∧ parse .empty text = .error e) ∨
      ∃ s t, parse .empty text = .ok s ∧ parse ctx text = .ok t ∧ t.body = s.body.known ctx ∧
        s.body.known .empty = s.body := by
  unfold parse read
  rw [Body.parse_eq_known ctx]
  cases hparse : Body.parse .empty text with
  | error f => exact .inl ⟨.ofFailure text f, rfl, rfl⟩
  | ok b =>
    have hcheck := b.check_known ctx
    cases hb : b.check with
    | error e =>
      rw [hb] at hcheck
      refine .inl ⟨.ofFailure text ⟨.rejected e, ⟨0, (Token.endMark text).span.stop⟩⟩, ?_, ?_⟩
      · simp only [Except.map, ofBody_eq_error (map_eq_error.1 hcheck), Except.mapError]
      · simp only [ofBody_eq_error hb, Except.mapError]
    | ok m =>
      rw [hb] at hcheck
      obtain ⟨m', hm', -⟩ := map_eq_ok.1 hcheck
      refine .inr ⟨⟨b, m, hb⟩, ⟨b.known ctx, m', hm'⟩, ?_, ?_, rfl, Body.known_of_parse hparse⟩
      · simp only [ofBody_eq_ok hb, Except.mapError]
      · simp only [Except.map, ofBody_eq_ok hm', Except.mapError]

theorem render_known {s t : Statement} (d : Dialect) (hbody : t.body = s.body.known ctx)
    (hself : s.body.known .empty = s.body) : t.render d = s.render d := by
  obtain ⟨hprimary, hclauses⟩ := Body.clauses_known d hself ctx
  rw [← hbody] at hprimary hclauses
  exact render_congr hprimary hclauses

/-- Whatever is known of entities, a text is accepted or fails in the same way, and says the same. Only the columns
of a table may be grouped, and then they are still written as they were read. -/
theorem parse_known (ctx : Parse.Context) (text : String) :
    (∀ e, parse ctx text = .error e ↔ parse .empty text = .error e) ∧
      ∀ s, parse .empty text = .ok s → ∃ t, parse ctx text = .ok t ∧ t.text = s.text ∧
        ((∀ a, s.body ≠ .createTable a) → t.body.withoutTemplates = s.body ∧ (s == t) = true) ∧
        ∀ a, s.body = .createTable a → ∃ b written, t.body = .createTable b ∧
          a.columns.groups = written.map (fun c => ⟨.bare c.name, [c]⟩) ∧
          b.columns.sortedGroups.flatMap (·.columns) = written ∧ b.columns.constraints = a.columns.constraints := by
  rcases parse_cases ctx text with ⟨e, hctx, hempty⟩ | ⟨s, t, hempty, hctx, hbody, hself⟩
  · rw [hctx, hempty]
    refine ⟨fun e' => Iff.rfl, fun s hs => ?_⟩
    cases hs
  rw [hctx, hempty]
  refine ⟨fun e => ⟨nofun, nofun⟩, fun s' hs' => ?_⟩
  cases hs'
  refine ⟨t, rfl, render_known .canonical hbody hself, fun htable => ?_, fun a ha => ?_⟩
  · have hsame : t.body.withoutTemplates = s.body := by
      rw [hbody]
      exact Body.withoutTemplates_known hself htable ctx
    refine ⟨hsame, ?_⟩
    show (s.body == t.body) = true
    rw [← hsame]
    exact Body.withoutTemplates_beq fun e he l hl => Body.isFinite_of_check t.sound he hl
  · rw [ha] at hbody hself
    have hcolumns : a.columns.known .empty (.opaqueNamed a.target.name) = a.columns :=
      congrArg CreateTable.columns (Body.createTable.inj hself)
    exact ⟨_, a.columns.shownColumns, hbody, ColumnList.groups_of_known hcolumns,
      ColumnList.shownColumns_known hcolumns ctx _, ColumnList.constraints_known ctx _ _⟩

private def parcel : Entity :=
  ⟨"parcel", none, [⟨"id_r", .int, true, false, none⟩, ⟨"id", .key, false, true, none⟩]⟩

private def parcelStorage : Storage := ⟨.default, .asIs⟩

private def parcelContext : Parse.Context := ⟨.ofEntities [parcel], some parcelStorage⟩

private def parcelTable : String :=
  "create table parcel (id bigint, id_rev bigint, id_r integer, constraint parcel_pk primary key (id))"

private def parcelQuery : String := "select * from parcel p where p.id_r > 1.5 and not p.id = 3"

private def parcelColumns : List Column := [⟨"id", .bigint⟩, ⟨"id_rev", .bigint⟩, ⟨"id_r", .integer⟩]

private def parcelGroups : List ColumnGroup :=
  [⟨.bare "id_r", [⟨"id_r", .integer⟩]⟩, ⟨.bare "id", [⟨"id", .bigint⟩, ⟨"id_rev", .bigint⟩]⟩]

private theorem groups?_parcel : parcelStorage.groups? parcel parcelColumns = some parcelGroups := by
  have hlater : (compare (Path.bare "id_r") (Path.bare "id")).isLE = false := by decide +kernel
  have hwritten : parcelColumns =
      (parcelGroups.mergeSort fun a b => (compare a.path b.path).isLE).flatMap (·.columns) := by
    simp [parcelGroups, parcelColumns, List.mergeSort, hlater]
  have hgiven : ∀ f ∈ parcel.fields, parcelStorage.fieldColumns f = .ok (parcelStorage.columnsOf f) :=
    List.forall_mem_cons.2 ⟨rfl, List.forall_mem_singleton.2 rfl⟩
  rw [hwritten]
  exact Storage.groups?_of_columns (List.cons_ne_nil _ _) hgiven rfl

private def isParcelTable (s : Statement) : Bool :=
  match s.body with
  | .createTable a => a.target.name == "parcel" && a.columns.groups.flatMap (·.columns) == parcelColumns
  | _ => false

/-- A table whose columns are grouped in another order than they are written, a query and a text that is refused. -/
theorem parse_known_parcel :
    (∃ s t b, parse .empty parcelTable = .ok s ∧ parse parcelContext parcelTable = .ok t ∧ t.text = s.text ∧
      t.body = .createTable b ∧ b.columns.groups = parcelGroups ∧
      b.columns.sortedGroups.flatMap (·.columns) = parcelColumns) ∧
      (∃ s t, parse .empty parcelQuery = .ok s ∧ parse parcelContext parcelQuery = .ok t ∧ (s == t) = true) ∧
        ∃ e, parse .empty "create table (" = .error e ∧ parse parcelContext "create table (" = .error e := by
  refine ⟨?_, ?_, ?_⟩
  · obtain ⟨s, hs, hparcel⟩ :=
      exists_of_accepted isParcelTable (show (parse .empty parcelTable).toOption.any _ = true by decide +kernel)
    obtain ⟨t, ht, htext, -, hcolumns⟩ := (parse_known parcelContext parcelTable).2 s hs
    unfold isParcelTable at hparcel
    split at hparcel
    · rename_i a ha
      obtain ⟨hname, hwritten⟩ := Bool.and_eq_true_iff.1 hparcel
      rw [beq_iff_eq] at hname hwritten
      obtain ⟨b, written, hb, hread, hshown, -⟩ := hcolumns a ha
      rw [hread, ColumnList.flatMap_single] at hwritten
      refine ⟨s, t, b, hs, ht, htext, hb, ?_, hshown.trans hwritten⟩
      rcases parse_cases parcelContext parcelTable with ⟨e, he, -⟩ | ⟨s', t', hs', ht', hbody, -⟩
      · cases ht.symm.trans he
      cases hs.symm.trans hs'
      cases ht.symm.trans ht'
      rw [hb, ha] at hbody
      have hgrouped : b.columns = a.columns.known parcelContext (parcelContext.catalog.resolve a.target.name) :=
        congrArg CreateTable.columns (Body.createTable.inj hbody)
      have hknown : parcelContext.catalog.resolve "parcel" = parcel := rfl
      rw [hgrouped, hname, hknown, ColumnList.known, hread, ColumnList.flatMap_single, hwritten, Parse.columnList]
      simp only [parcelContext, Option.bind_some, groups?_parcel]
    · cases hparcel
  · obtain ⟨s, hs, hquery⟩ := exists_of_accepted (fun s => s.body.kind != "createTable")
      (show (parse .empty parcelQuery).toOption.any _ = true by decide +kernel)
    obtain ⟨t, ht, -, hsame, -⟩ := (parse_known parcelContext parcelQuery).2 s hs
    refine ⟨s, t, hs, ht, (hsame fun a ha => ?_).2⟩
    rw [ha] at hquery
    exact absurd rfl (bne_iff_ne.1 hquery)
  · have hrefused : (parse .empty "create table (").toOption.any (fun _ => true) = false := by decide +kernel
    cases hempty : parse .empty "create table (" with
    | error e => exact ⟨e, rfl, ((parse_known parcelContext _).1 e).2 hempty⟩
    | ok s =>
      rw [hempty] at hrefused
      cases hrefused

end Statement

end Clausal
