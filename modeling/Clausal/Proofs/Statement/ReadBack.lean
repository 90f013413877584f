import Clausal.Proofs.Parse.Statement
import Clausal.Proofs.Statement.Equality

/-!
# Statements are read back from their texts

The text of a well-formed statement is read as the statement without what the text does not tell. The tokens of
the clauses that are written, one after the other, are the tokens that the reader of its kind of statement expects,
and what is read is sound because its literals and its aliases are those of the statement.
-/

namespace Clausal

open Token (Kind listed)
open Parse

variable {m : Aliases}

/-! ### Tokens of a body -/

/-- The tokens of the clauses that are written. -/
def Body.kinds (d : Dialect) (b : Body) : List Kind :=
  b.clauses.flatMap fun c => if c.isOmitted then [] else c.kinds d b.primaryAlias

theorem Statement.kinds_eq (d : Dialect) (s : Statement) : s.kinds d = s.body.kinds d := by
  unfold kinds shownClauses clauses Body.kinds
  induction s.body.clauses with
  | nil => rfl
  | cons c cs ih =>
    rw [List.flatMap_cons, ← ih]
    cases h : c.isOmitted <;> simp [h]

private theorem kinds_limit (d : Dialect) (primary : Option String) (count : Option UInt64) :
    (if (Clause.limit count).isOmitted then [] else (Clause.limit count).kinds d primary) =
      kindsOfCount .limit count := by
  cases count <;> rfl

private theorem kinds_offset (d : Dialect) (primary : Option String) (count : Option UInt64) :
    (if (Clause.offset count).isOmitted then [] else (Clause.offset count).kinds d primary) =
      kindsOfCount .offset count := by
  cases count <;> rfl

private theorem kinds_select (d : Dialect) (s : Select) :
    (Body.select s).kinds d =
      .keyword .select :: ((if s.projection.distinct then [.keyword .distinct] else []) ++ kindsOfRows d s) := by
  simp only [Body.kinds, Body.clauses, List.flatMap_cons, List.flatMap_nil, List.append_nil, kinds_limit, kinds_offset]
  simp only [Clause.isOmitted, Clause.kinds, Bool.false_eq_true, if_false, List.cons_append, List.append_assoc]
  rfl

private theorem kinds_insert (d : Dialect) (mode : InsertMode) (target : EntityRef) (values : List Assignment) :
    (Body.insert ⟨mode, target, values⟩).kinds d =
      .keyword mode.keyword ::
        .keyword .into :: (target.kinds d ++ kindsOfValues (Assignment.effective values)) := by
  simp only [kindsOfValues, Assignment.isEmpty_effective]
  simp only [Body.kinds, Body.clauses, List.flatMap_cons, List.flatMap_nil, List.append_nil]
  rfl

private theorem kinds_update (d : Dialect) (s : Update) :
    (Body.update s).kinds d =
      .keyword .update :: (s.target.kinds d ++ (kindsOfAssignments (Assignment.effective s.assignments) ++
        kindsOfFilter .where s.filter)) := by
  simp only [kindsOfAssignments, Assignment.isEmpty_effective]
  simp only [Body.kinds, Body.clauses, List.flatMap_cons, List.flatMap_nil, List.append_nil]
  rfl

private theorem kinds_delete (d : Dialect) (s : Delete) :
    (Body.delete s).kinds d =
      .keyword .delete :: .keyword .from ::
        (listed (s.sources.all.map (EntityRef.kinds d)) ++ kindsOfFilter .where s.filter) := by
  simp only [Body.kinds, Body.clauses, List.flatMap_cons, List.flatMap_nil, List.append_nil]
  rfl

private theorem kinds_createTable (d : Dialect) (s : CreateTable) :
    (Body.createTable s).kinds d =
      .keyword .create :: .keyword .table ::
        ([.identifier s.target.name] ++ if s.columns.isOmitted then [] else s.columns.kinds) := by
  simp only [Body.kinds, Body.clauses, List.flatMap_cons, List.flatMap_nil, List.append_nil]
  rfl

private theorem kinds_createIndex (d : Dialect) (s : CreateIndex) :
    (Body.createIndex s).kinds d =
      .keyword .create :: ((if s.head.unique then [.keyword .unique] else []) ++ kindsOfIndex d s) := by
  simp only [Body.kinds, Body.clauses, List.flatMap_cons, List.flatMap_nil, List.append_nil]
  simp only [Clause.isOmitted, Clause.kinds, Bool.false_eq_true, if_false, List.cons_append, List.append_assoc]
  rfl

/-! ### Reading a body -/

private theorem readableExprs {es : List Expr} (h : ∀ e ∈ es, e.WellFormed)
    (hresolved : ∀ p ∈ paths es, p.Resolved m) : ∀ e ∈ es, e.mapPaths (Path.reread m) = e :=
  fun e he => Expr.mapPaths_reread (h e he) fun p hp => hresolved p (List.mem_flatMap.2 ⟨e, he, hp⟩)

private theorem readableFilter {f : Filter} (h : f.WellFormed) (hresolved : ∀ p ∈ paths f, p.Resolved m) :
    ReadableFilter m f :=
  ⟨h, readableExprs h.2 hresolved⟩

private theorem readablePaths {ps : List Path} (h : ∀ p ∈ ps, p.WellFormed) (hresolved : ∀ p ∈ paths ps, p.Resolved m) :
    ∀ p ∈ ps, p.WellFormed ∧ p.Resolved m :=
  fun p hp => ⟨h p hp, hresolved p (List.mem_flatMap.2 ⟨p, hp, List.mem_cons_self⟩)⟩

private theorem readableTerms {ts : List OrderTerm} (h : ∀ t ∈ ts, t.expr.WellFormed)
    (hresolved : ∀ p ∈ paths ts, p.Resolved m) :
    ∀ t ∈ ts, t.expr.WellFormed ∧ t.expr.mapPaths (Path.reread m) = t.expr := by
  refine fun t ht => ⟨h t ht, Expr.mapPaths_reread (h t ht) fun p hp => ?_⟩
  exact hresolved p (List.mem_flatMap.2 ⟨t, ht, hp⟩)

private theorem readableAssignments {as : List Assignment} (h : ∀ a ∈ as, a.path.WellFormed ∧ a.value.WellFormed)
    (hresolved : ∀ p ∈ paths as, p.Resolved m) : ∀ a ∈ Assignment.effective as, Readable m a := by
  intro a ha
  have ha := Assignment.mem_effective ha
  have hpaths : ∀ p ∈ paths a, p.Resolved m := fun p hp => hresolved p (List.mem_flatMap.2 ⟨a, ha, hp⟩)
  refine ⟨⟨(h a ha).1, hpaths _ List.mem_cons_self⟩, (h a ha).2, Expr.mapPaths_reread (h a ha).2 fun p hp => ?_⟩
  exact hpaths p (List.mem_cons_of_mem _ hp)

/-- A word that is not the one asked for. -/
private theorem Parse.Reads.other {β : Type} {v w : Keyword} (hne : w ≠ v) {ls : List Kind} {f : Bool → Parser β}
    {y : β} {m' : Aliases} (h : Reads (f false) m (.keyword w :: ls) (· = .eof) y m') :
    Reads (eatKeyword v >>= f) m (.keyword w :: ls) (· = .eof) y m' :=
  Reads.eat_other_bind h fun _ _ he => hne (Kind.keyword.inj he)

/-- A body is read from its tokens, as far as they tell, and binds the aliases of its entities. -/
theorem Body.reads (d : Dialect) {b : Body} (hclauses : ∀ c ∈ b.clauses, c.WellFormed)
    (hresolved : ∀ p ∈ paths b, p.Resolved m)
    (hbind : bindAll .empty (b.entityRefs.map EntityRef.withoutTemplate) = .ok m) :
    ∃ m', bindAll .empty b.reread.entityRefs = .ok m' ∧
      Reads (Parse.body .empty) .empty (b.kinds d) (· = .eof) b.reread m' := by
  cases b <;> simp only [clauses, List.forall_mem_cons, List.not_mem_nil, false_imp_iff, implies_true, and_true]
    at hclauses
  case select s =>
    obtain ⟨hselection, -, hfilter, hgroup, hhaving, horder, -, -⟩ := hclauses
    simp only [paths, List.forall_mem_append] at hresolved
    obtain ⟨⟨⟨⟨hselected, hfiltered⟩, hgrouped⟩, hhad⟩, hordered⟩ := hresolved
    have hselected : ∀ p ∈ paths s.projection.selection, p.Resolved m := hselected
    rw [s.projection.selection.paths_eq] at hselected
    have hexprs := readableExprs hselection.exprs hselected
    refine ⟨m, hbind, ?_⟩
    rw [kinds_select]
    exact Reads.eat_bind (reads_select d hbind hselection hexprs (readableFilter hfilter hfiltered)
      (readablePaths hgroup hgrouped) (readableFilter hhaving hhad) (readableTerms horder hordered))
  case insert s =>
    obtain ⟨-, -, hvalues⟩ := hclauses
    obtain ⟨mode, target, values⟩ := s
    have hinsert := reads_insert d (s := ⟨mode, target, Assignment.effective values⟩) hbind
      (readableAssignments hvalues hresolved)
    refine ⟨m, hbind, ?_⟩
    rw [kinds_insert]
    cases mode with
    | insert => exact .other (by decide) (Reads.eat_bind hinsert)
    | upsert => exact .other (by decide) (.other (by decide) (Reads.eat_bind hinsert))
    | merge => exact .other (by decide) (.other (by decide) (.other (by decide) (Reads.eat_bind hinsert)))
  case update s =>
    obtain ⟨-, hassignments, hfilter⟩ := hclauses
    simp only [paths, List.forall_mem_append] at hresolved
    have hupdate := reads_update d (s := ⟨s.target, Assignment.effective s.assignments, s.filter⟩) hbind
      (readableAssignments hassignments hresolved.1) (readableFilter hfilter hresolved.2)
    refine ⟨m, hbind, ?_⟩
    rw [kinds_update]
    exact .other (by decide) (.other (by decide) (.other (by decide) (.other (by decide) (Reads.eat_bind hupdate))))
  case delete s =>
    obtain ⟨-, -, hfilter⟩ := hclauses
    have hdelete := reads_delete d (s := s) hbind (readableFilter hfilter hresolved)
    refine ⟨m, hbind, ?_⟩
    rw [kinds_delete]
    exact .other (by decide) (.other (by decide) (.other (by decide) (.other (by decide) (.other (by decide)
      (Reads.eat_bind hdelete)))))
  case createTable s =>
    refine ⟨.empty, rfl, ?_⟩
    rw [kinds_createTable]
    exact .other (by decide) (.other (by decide) (.other (by decide) (.other (by decide) (.other (by decide)
      (.other (by decide) (Reads.eat_bind (reads_createTable hclauses.2)))))))
  case createIndex s =>
    obtain ⟨-, -, hpaths⟩ := hclauses
    refine ⟨m, hbind, ?_⟩
    rw [kinds_createIndex]
    exact .other (by decide) (.other (by decide) (.other (by decide) (.other (by decide) (.other (by decide)
      (.other (by decide) (Reads.eat_bind (reads_createIndex d hbind (readablePaths hpaths hresolved))))))))

private theorem Parse.Reads.whole {ctx : Context} {m' : Aliases} {ks : List Kind} {b : Body}
    (h : Reads (Parse.body ctx) m ks (· = .eof) b m') : Reads (wholeBody ctx) m ks (· = .eof) b m' := by
  refine h.close (Reads.peek_bind fun k hk => ?_)
  rw [List.headD_nil, if_pos hk]
  exact Reads.pure b

/-! ### Soundness -/

/-- The literals of the body as it is read are literals of the body. -/
private theorem literals_reread {b : Body} {e : Expr} (he : e ∈ b.reread.exprs) :
    ∃ x ∈ b.exprs, e.literals = x.literals := by
  have value : ∀ {as : List Assignment}, e ∈ (Assignment.effective as).map (·.value) → e ∈ as.map (·.value) := by
    intro as he
    obtain ⟨a, ha, rfl⟩ := List.mem_map.1 he
    exact List.mem_map.2 ⟨a, Assignment.mem_effective ha, rfl⟩
  cases b with
  | select s => exact ⟨e, he, rfl⟩
  | insert s => exact ⟨e, value he, rfl⟩
  | update s => exact ⟨e, (List.mem_append.1 he).elim (fun h => List.mem_append_left _ (value h))
      (List.mem_append_right _), rfl⟩
  | delete s => exact ⟨e, he, rfl⟩
  | createTable s =>
    obtain ⟨c, hc, hchecked⟩ := List.mem_filterMap.1 he
    obtain ⟨⟨name, kind⟩, hsorted, rfl⟩ := List.mem_map.1 hc
    cases kind with
    | check x =>
      cases hchecked
      have hmem := List.mem_mergeSort.1 hsorted
      exact ⟨x, List.mem_filterMap.2 ⟨⟨name, .check x⟩, hmem, rfl⟩, Expr.literals_mapPaths _ x⟩
    | _ => cases hchecked
  | createIndex s => exact absurd he List.not_mem_nil

private theorem firstNonFinite?_reread {b : Body} (h : b.firstNonFinite? = none) : b.reread.firstNonFinite? = none := by
  refine List.findSome?_eq_none_iff.2 fun l hl => ?_
  obtain ⟨e, he, hl⟩ := List.mem_flatMap.1 hl
  obtain ⟨x, hx, hsame⟩ := literals_reread he
  exact List.findSome?_eq_none_iff.1 h l (List.mem_flatMap.2 ⟨x, hx, hsame ▸ hl⟩)

namespace Statement

/-- A well-formed statement is read from its text, as far as the text tells. -/
theorem read_render {d : Dialect} (hd : d.quote = '"') (hoverrides : d.typeOverrides = .empty) {s : Statement}
    (h : s.WellFormed) : ∃ t, read .empty (s.render d) = .ok t ∧ t.body = s.body.reread := by
  obtain ⟨m, hbind, hsame⟩ := Body.bindAll_withoutTemplate s.bindAll_entityRefs (n := .empty) fun _ => rfl
  have hresolved : ∀ p ∈ paths s.body, p.Resolved m := fun p hp => (h.resolved p hp).congr hsame
  obtain ⟨m', hm', hreads⟩ := Body.reads d h.clauses hresolved hbind
  have hcheck : s.body.reread.check = .ok m' :=
    Body.check_eq_ok.2 ⟨firstNonFinite?_reread s.firstNonFinite?_body, hm'⟩
  have hkinds : (Token.scan (s.render d)).map (·.kind) = s.body.kinds d := by
    rw [← s.kinds_eq, ← s.kinds_render hd hoverrides h]
    rfl
  have hrun := hreads.whole _ [] (Token.endMark (s.render d)).span.stop hkinds rfl
  have hparse : Body.parse .empty (s.render d) = .ok s.body.reread := by
    rw [List.append_nil] at hrun
    exact congrArg (Except.map (·.1)) hrun
  refine ⟨⟨s.body.reread, m', hcheck⟩, ?_, rfl⟩
  rw [read, hparse]
  simp only [ofBody_eq_ok hcheck]

end Statement

/-! ### What is read is the statement -/

private theorem map_single_columns {groups : List ColumnGroup} (h : ∀ g ∈ groups, ∃ c, g = ⟨.bare c.name, [c]⟩) :
    (groups.flatMap (·.columns)).map (fun c => ColumnGroup.mk (.bare c.name) [c]) = groups := by
  induction groups with
  | nil => rfl
  | cons g groups ih =>
    obtain ⟨c, rfl⟩ := h g List.mem_cons_self
    rw [List.flatMap_cons, List.map_append, ih fun g hg => h g (List.mem_cons_of_mem _ hg)]
    rfl

/-- Constraints whose paths are resolved are read back as they are. -/
theorem Constraint.mapPaths_reread {cs : List Constraint} (hcs : ∀ c ∈ cs, c.WellFormed)
    (hresolved : ∀ p ∈ paths cs, p.Resolved m) : mapPaths (Path.reread m) cs = cs := by
  show cs.map (mapPaths (Path.reread m)) = cs
  rw [List.map_congr_left (g := id), List.map_id]
  intro c hc
  have hkind : mapPaths (Path.reread m) c.kind = c.kind := by
    have hwell := (hcs c hc).2
    have hpaths : ∀ p ∈ paths c.kind, p.Resolved m := fun p hp => hresolved p (List.mem_flatMap.2 ⟨c, hc, hp⟩)
    obtain ⟨name, kind⟩ := c
    cases kind with
    | check e => exact congrArg Constraint.Kind.check (Expr.mapPaths_reread hwell hpaths)
    | _ => rfl
  exact congrArg (Constraint.mk c.name) hkind

private theorem reread_columns {l : ColumnList} (hl : l.WellFormed)
    (hresolved : ∀ p ∈ paths l.constraints, p.Resolved .empty) (h : l.AsRead) : l.reread = l := by
  obtain ⟨groups, constraints, asWritten⟩ := l
  obtain ⟨hwritten, hgroups, hsorted⟩ := h
  obtain rfl : asWritten = true := hwritten
  have hsame : constraints.mergeSort (fun a b => (compare a.name b.name).isLE) = constraints :=
    List.mergeSort_of_pairwise hsorted
  have hpaths : mapPaths (Path.reread .empty) constraints = constraints := Constraint.mapPaths_reread hl.2 hresolved
  show ColumnList.mk _ (mapPaths (Path.reread .empty) (constraints.mergeSort _)) true = _
  rw [hsame, hpaths]
  exact congrArg (ColumnList.mk · constraints true) (map_single_columns hgroups)

theorem Body.reread_eq {b : Body} (hbind : bindAll .empty b.entityRefs = .ok m)
    (hclauses : ∀ c ∈ b.clauses, c.WellFormed) (hresolved : ∀ p ∈ paths b, p.Resolved m) (h : b.AsRead) :
    b.reread = b.withoutTemplates := by
  cases b with
  | select s => rfl
  | insert s =>
    have heffective : Assignment.effective s.values = s.values := Assignment.effective_of_nodup h.distinct
    rw [reread, heffective, withoutTemplates]
  | update s =>
    have heffective : Assignment.effective s.assignments = s.assignments := Assignment.effective_of_nodup h.distinct
    rw [reread, heffective, withoutTemplates]
  | delete s => rfl
  | createTable s =>
    obtain ⟨hnone, hread⟩ := h.table s rfl
    obtain rfl : m = .empty := by
      rcases bindAll_cons hbind with ⟨-, hdone⟩ | ⟨a, ha, -⟩
      · cases hdone
        rfl
      · rw [hnone] at ha
        cases ha
    rw [reread, withoutTemplates, EntityRef.withoutTemplate, hnone,
      reread_columns (hclauses (.columns s.columns) (by simp [clauses])) hresolved hread]
  | createIndex s => rfl

namespace Statement

/-- Writing a statement and reading its text gives the statement again. -/
theorem parse_render {d : Dialect} (hd : d.quote = '"') (hoverrides : d.typeOverrides = .empty) {s : Statement}
    (h : s.WellFormed) (hread : s.body.AsRead) :
    ∃ t, parse .empty (s.render d) = .ok t ∧ (t == s) = true ∧ t.body = s.body.withoutTemplates := by
  obtain ⟨t, ht, hbody⟩ := read_render hd hoverrides h
  have hsame : t.body = s.body.withoutTemplates :=
    hbody.trans (Body.reread_eq s.bindAll_entityRefs h.clauses h.resolved hread)
  refine ⟨t, ?_, ?_, hsame⟩
  · rw [parse, ht]
    rfl
  · show (t.body == s.body) = true
    rw [hsame]
    exact Body.withoutTemplates_beq fun e he l hl => Body.isFinite_of_check s.sound he hl

private def outsidePrices : Expr :=
  .unary .not (.between (.field ⟨some "p", ["price"]⟩) (.literal (.integer (-1))) (.param (.named "high")) false)

/-- A query whose entity has a template and an alias. -/
def outsideQuery : Statement where
  body := .select
    { projection := ⟨true, .values [.field ⟨some "p", ["select"]⟩, .call "COUNT" [.wildcard] false]⟩
      sources := ⟨⟨.opaqueNamed "template", "product", some "p"⟩, [⟨.opaqueNamed "order", "order", none⟩]⟩
      filter := .ofList [outsidePrices]
      groupBy := [⟨some "p", ["select"]⟩]
      having := .ofList []
      orderBy := [⟨.field ⟨none, ["total"]⟩, .desc⟩]
      limit := some 5
      offset := none }
  aliases := Dictionary.empty.insert "p" (.opaqueNamed "template")
  sound := by rfl

theorem parse_render_outsideQuery :
    ∃ t, parse .empty (outsideQuery.render { Dialect.configured with aliasKeyword := true }) = .ok t ∧
      (t == outsideQuery) = true ∧ t.body = outsideQuery.body.withoutTemplates := by
  have hfilter : (Filter.ofList [outsidePrices]).WellFormed := by
    refine ⟨⟨_, rfl⟩, fun e he => ?_⟩
    obtain rfl : e = outsidePrices := List.mem_singleton.1 he
    simp [outsidePrices, Expr.WellFormed, Path.WellFormed, Path.parts, Param.WellFormed]
    decide
  have hhaving : (Filter.ofList []).WellFormed := ⟨⟨_, rfl⟩, fun e he => absurd he List.not_mem_nil⟩
  refine parse_render rfl rfl ⟨?_, ?_⟩ ⟨List.nodup_nil, fun s hs => by cases hs⟩
  · simp [clauses, Body.clauses, outsideQuery, Clause.WellFormed, hfilter, hhaving, Selection.WellFormed,
      Expr.WellFormed, Expr.AllWellFormed, Path.WellFormed, Path.parts, Sources.all, EntityRef.WellFormed]
  · have hpaths : paths outsideQuery.body =
        [⟨some "p", ["select"]⟩, ⟨some "p", ["price"]⟩, ⟨some "p", ["select"]⟩, ⟨none, ["total"]⟩] := rfl
    have hbound : outsideQuery.aliases.contains "p" = true := rfl
    rw [hpaths]
    simp only [List.forall_mem_cons, Path.Resolved, hbound, true_and]
    refine ⟨fun s hs => ?_, fun p hp => absurd hp List.not_mem_nil⟩
    cases hs
    rfl

end Statement

end Clausal
