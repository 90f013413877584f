import Clausal.Proofs.Statement.Known

/-!
# Tables are read back with their fields

The definition that follows from an entity is written field after field in the order of the paths, and its columns
do not tell where a field ends. Where the entity and its storage are known, they are grouped by field again as they
were, and the definition is given back but for the order of its constraints.
-/

namespace Clausal

variable {s : Storage} {e : Entity}

/-! ### Columns of fields -/

theorem StoredField.first_mem (f : StoredField) : f.first ∈ f.columns := List.mem_cons_self

/-- The groups of the fields of a table are those of the fields of the entity. -/
theorem Entity.groups_of_storedFields {stored : List StoredField} (h : e.storedFields s = .ok stored) :
    (∀ f ∈ e.fields, s.fieldColumns f = .ok (s.columnsOf f)) ∧
      stored.map StoredField.group = e.fields.map fun f => ⟨.bare f.name, s.columnsOf f⟩ := by
  obtain ⟨columns, hcolumns, hzip⟩ := bind_eq_ok.1 h
  cases hzip
  clear h
  replace hcolumns := mapM_eq_ok.1 hcolumns
  generalize e.fields = fields at hcolumns ⊢
  induction hcolumns with
  | nil => exact ⟨fun f hf => absurd hf List.not_mem_nil, rfl⟩
  | @cons f cs fs css hf _ ih =>
    obtain ⟨first, others, rfl⟩ := List.exists_cons_of_ne_nil (Storage.fieldColumns_ne_nil hf)
    have hsame := Storage.columnsOf_eq hf
    refine ⟨List.forall_mem_cons.2 ⟨hsame ▸ hf, ih.1⟩, ?_⟩
    rw [List.map_cons, ← ih.2, hsame]
    rfl

/-! ### Constraints -/

/-- The constraint can be written, and its paths have no alias. -/
def Constraint.Plain (c : Constraint) : Prop := c.WellFormed ∧ ∀ p ∈ paths c, p.Resolved .empty

section Constraints

variable {stored : List StoredField} {table : String}

theorem StoredField.plain_notNull {f : StoredField} (hname : f.first.name ≠ "") {c : Constraint}
    (h : f.notNull? table = some c) : c.Plain := by
  unfold notNull? at h
  split at h
  · cases h
  cases h
  refine ⟨⟨?_, ?_⟩, fun p hp => ?_⟩
  · exact fun hempty => absurd (String.append_eq_empty_iff.1 hempty).2 (by decide)
  · exact ⟨List.cons_ne_nil _ _, fun hmem => hname (List.mem_singleton.1 hmem).symm⟩
  · obtain rfl : p = .bare f.first.name := List.mem_singleton.1 hp
    exact fun _ _ => rfl

theorem Entity.plain_primaryKey (hnames : ∀ f ∈ stored, f.first.name ≠ "") {c : Constraint}
    (h : c ∈ primaryKey table stored) : c.Plain := by
  unfold primaryKey at h
  split at h
  · cases h
  rename_i hkey
  obtain rfl := List.mem_singleton.1 h
  refine ⟨⟨?_, hkey, fun hmem => ?_⟩, fun p hp => absurd hp List.not_mem_nil⟩
  · exact fun hempty => absurd (String.append_eq_empty_iff.1 hempty).2 (by decide)
  · obtain ⟨f, hf, hname⟩ := List.mem_map.1 hmem
    exact hnames f (List.mem_filter.1 hf).1 hname

theorem Entity.firstColumn_ne (hnames : ∀ f ∈ stored, f.first.name ≠ "") {name column : String}
    (h : e.firstColumn stored name = .ok column) : column ≠ "" := by
  unfold firstColumn at h
  split at h
  · rename_i f hfound
    cases h
    exact hnames f (List.mem_of_find?_eq_some hfound)
  · cases h

theorem Entity.plain_uniqueConstraint (hnames : ∀ f ∈ stored, f.first.name ≠ "") {u : UniqueDemand}
    (hname : u.name ≠ "") (hfields : u.fields ≠ []) {c : Constraint} (h : e.uniqueConstraint stored u = .ok c) :
    c.Plain := by
  obtain ⟨names, hcolumns, h⟩ := bind_eq_ok.1 h
  cases h
  have hall := mapM_eq_ok.1 hcolumns
  refine ⟨⟨hname, ?_, fun hmem => ?_⟩, fun p hp => absurd hp List.not_mem_nil⟩
  · rintro rfl
    exact hfields (List.forall₂_nil_right_iff.1 hall)
  · obtain ⟨name, -, hcolumn⟩ := exists_of_mem_right hall hmem
    exact firstColumn_ne hnames hcolumn rfl

end Constraints

/-! ### Definitions -/

/-- What the definition of an entity's table is made of, and that it can be written and read back. -/
theorem Entity.createTable_spec {unique : List UniqueDemand} {st : Statement} (h : e.createTable s unique = .ok st)
    (htable : e.tableName ≠ "") (hunique : ∀ u ∈ unique, u.name ≠ "" ∧ u.fields ≠ [])
    (hcolumns : ∀ f ∈ e.fields, ∀ columns, s.fieldColumns f = .ok columns → ∀ c ∈ columns, c.WellFormed) :
    ∃ constraints, st.body = .createTable
        ⟨.ofEntity e, ⟨e.fields.map fun f => ⟨.bare f.name, s.columnsOf f⟩, constraints, false⟩⟩ ∧
      (∀ f ∈ e.fields, s.fieldColumns f = .ok (s.columnsOf f)) ∧ (∀ c ∈ constraints, c.Plain) ∧ st.WellFormed := by
  obtain ⟨stored, demanded, hstored, hdemanded, hbody⟩ := RecordMapper.createTable_parts h
  obtain ⟨hgiven, hgroups⟩ := groups_of_storedFields hstored
  have hwell : ∀ f ∈ stored, ∀ c ∈ f.columns, c.WellFormed := by
    intro f hf c hc
    have hgroup : f.group ∈ stored.map StoredField.group := List.mem_map_of_mem hf
    rw [hgroups] at hgroup
    obtain ⟨x, hx, hsame⟩ := List.mem_map.1 hgroup
    have hsame : s.columnsOf x = f.columns := congrArg ColumnGroup.columns hsame
    exact hcolumns x hx _ (hgiven x hx) c (hsame ▸ hc)
  have hnames : ∀ f ∈ stored, f.first.name ≠ "" := fun f hf => (hwell f hf _ f.first_mem).1
  rw [hgroups] at hbody
  have hplain : ∀ c ∈ stored.filterMap (StoredField.notNull? e.tableName) ++ primaryKey e.tableName stored ++ demanded,
      c.Plain := by
    intro c hc
    rcases List.mem_append.1 hc with hc | hc
    · rcases List.mem_append.1 hc with hc | hc
      · obtain ⟨f, hf, hnotNull⟩ := List.mem_filterMap.1 hc
        exact StoredField.plain_notNull (hnames f hf) hnotNull
      · exact plain_primaryKey hnames hc
    · obtain ⟨u, hu, hdemand⟩ := exists_of_mem_right (mapM_eq_ok.1 hdemanded) hc
      exact plain_uniqueConstraint hnames (hunique u hu).1 (hunique u hu).2 hdemand
  refine ⟨_, hbody, hgiven, hplain, ?_, ?_⟩
  · rw [Statement.clauses, hbody]
    refine List.forall_mem_cons.2 ⟨⟨htable, fun hnone => by cases hnone⟩, List.forall_mem_singleton.2 ⟨?_, ?_⟩⟩
    · rw [← hgroups]
      intro g hg
      obtain ⟨f, hf, rfl⟩ := List.mem_map.1 hg
      exact ⟨List.cons_ne_nil _ _, hwell f hf⟩
    · exact fun c hc => (hplain c hc).1
  · -- The definition of a table has no aliases, so its paths are resolved where none is bound.
    have haliases : st.aliases = .empty := by
      have hbound := st.bindAll_entityRefs
      rw [hbody] at hbound
      exact (Except.ok.inj hbound).symm
    rw [hbody, haliases]
    intro p hp
    obtain ⟨c, hc, hp⟩ := List.mem_flatMap.1 hp
    exact (hplain c hc).2 p hp

/-- The columns of an entity are grouped again as they were, and the constraints stay as they are written. -/
theorem ColumnList.known_reread {ctx : Parse.Context} {l : ColumnList} (hfields : e.fields ≠ [])
    (hgiven : ∀ f ∈ e.fields, s.fieldColumns f = .ok (s.columnsOf f))
    (hgroups : l.groups = e.fields.map fun f => ⟨.bare f.name, s.columnsOf f⟩) (hwritten : l.asWritten = false)
    (hplain : ∀ c ∈ l.constraints, c.Plain) (hstorage : ctx.storage = some s) :
    l.reread.known ctx e = ⟨l.groups, l.sortedConstraints, false⟩ := by
  have hconstraints : l.reread.constraints = l.sortedConstraints := by
    have hsorted : ∀ c ∈ l.sortedConstraints, c.Plain := fun c hc => hplain c (List.mem_mergeSort.1 hc)
    refine Constraint.mapPaths_reread (fun c hc => (hsorted c hc).1) fun p hp => ?_
    obtain ⟨c, hc, hp⟩ := List.mem_flatMap.1 hp
    exact (hsorted c hc).2 p hp
  have hcolumns : l.reread.groups.flatMap (·.columns) =
      (l.groups.mergeSort fun a b => (compare a.path b.path).isLE).flatMap (·.columns) := by
    show (l.shownColumns.map _).flatMap _ = _
    rw [flatMap_single, shownColumns, sortedGroups, hwritten]
    rfl
  rw [known, hconstraints, hcolumns, Parse.columnList, hstorage, Option.bind_some,
    Storage.groups?_of_columns hfields hgiven hgroups]

namespace Statement

variable {ctx : Parse.Context}

/-- Where an entity and its storage are known, the text of its table's definition is read as this definition, field
by field, with the constraints in the order of their names. -/
theorem parse_createTable {unique : List UniqueDemand} {st : Statement} (h : e.createTable s unique = .ok st)
    (hfields : e.fields ≠ []) (htable : e.tableName ≠ "") (hunique : ∀ u ∈ unique, u.name ≠ "" ∧ u.fields ≠ [])
    (hcolumns : ∀ f ∈ e.fields, ∀ columns, s.fieldColumns f = .ok columns → ∀ c ∈ columns, c.WellFormed)
    (hknown : ctx.catalog.get? e.tableName = some e) (hstorage : ctx.storage = some s) :
    ∃ a t, st.body = .createTable a ∧ parse ctx st.text = .ok t ∧
      t.body = .createTable ⟨a.target, ⟨a.columns.groups, a.columns.sortedConstraints, false⟩⟩ ∧
      a.columns.groups.map (·.path) = e.fields.map (fun f => .bare f.name) ∧
      (∀ g ∈ a.columns.groups, ∃ f ∈ e.fields, g.path = .bare f.name ∧ s.fieldColumns f = .ok g.columns) ∧
      t.text = st.text := by
  obtain ⟨constraints, hbody, hgiven, hplain, hwell⟩ := Entity.createTable_spec h htable hunique hcolumns
  obtain ⟨r, hread, hreread⟩ := read_render (d := .canonical) rfl rfl hwell
  have hparse : parse .empty st.text = .ok r := by
    rw [parse, text, hread]
    rfl
  rcases parse_cases ctx st.text with ⟨_, -, hrefused⟩ | ⟨r', t, hr', ht, htbody, hself⟩
  · cases hparse.symm.trans hrefused
  cases hparse.symm.trans hr'
  refine ⟨_, t, hbody, ht, ?_, ?_, fun g hg => ?_, ?_⟩
  · rw [htbody, hreread, hbody]
    have hresolve : ctx.catalog.resolve e.tableName = e := by
      rw [Catalog.resolve, hknown, Option.getD_some]
    refine congrArg Body.createTable (congrArg₂ CreateTable.mk (congrArg (EntityRef.mk · e.tableName none) hresolve) ?_)
    show ColumnList.known ctx (ctx.catalog.resolve e.tableName) (ColumnList.reread _) = _
    rw [hresolve]
    exact ColumnList.known_reread hfields hgiven rfl rfl hplain hstorage
  · rw [List.map_map]
    rfl
  · obtain ⟨f, hf, rfl⟩ := List.mem_map.1 hg
    exact ⟨f, hf, rfl, hgiven f hf⟩
  · exact (render_known .canonical htbody hself).trans (render_of_body_eq hwell hreread)

private def crate : Entity :=
  ⟨"crate", none, [⟨"netWeight", .int, false, false, none⟩, ⟨"id_rev", .int, true, false, none⟩,
    ⟨"id", .key, false, true, none⟩]⟩

private def crateStorage : Storage := ⟨.default, .snakeCase⟩

private def crateGroups : List ColumnGroup :=
  [⟨.bare "netWeight", [⟨"net_weight", .integer⟩]⟩, ⟨.bare "id_rev", [⟨"id_rev", .integer⟩]⟩,
    ⟨.bare "id", [⟨"id", .bigint⟩, ⟨"id_rev", .bigint⟩]⟩]

private theorem wellFormed_crate : ∀ f ∈ crate.fields, ∀ columns, crateStorage.fieldColumns f = .ok columns →
    ∀ c ∈ columns, c.WellFormed := by
  have hinteger : ColumnType.integer.ReadsBack :=
    ColumnType.readsBack_of_plain ⟨"INTEGER", [], by decide +kernel, rfl, by decide +kernel⟩
  have hbigint : ColumnType.bigint.ReadsBack :=
    ColumnType.readsBack_of_plain ⟨"BIGINT", [], by decide +kernel, rfl, by decide +kernel⟩
  intro f hf columns hcolumns
  simp only [crate, List.mem_cons, List.not_mem_nil, or_false] at hf
  obtain ⟨given, hgiven, hwell⟩ :
      ∃ given, crateStorage.fieldColumns f = .ok given ∧ ∀ c ∈ given, c.WellFormed := by
    rcases hf with rfl | rfl | rfl
    · exact ⟨[⟨"net_weight", .integer⟩], rfl, List.forall_mem_singleton.2 ⟨by decide, hinteger⟩⟩
    · exact ⟨[⟨"id_rev", .integer⟩], rfl, List.forall_mem_singleton.2 ⟨by decide, hinteger⟩⟩
    · exact ⟨[⟨"id", .bigint⟩, ⟨"id_rev", .bigint⟩], rfl,
        List.forall_mem_cons.2 ⟨⟨by decide, hbigint⟩, List.forall_mem_singleton.2 ⟨by decide, hbigint⟩⟩⟩
  cases hgiven.symm.trans hcolumns
  exact hwell

private def crateContext : Parse.Context := ⟨.ofEntities [crate], some crateStorage⟩

/-- A field whose column has the name of the second column of another field, which comes after it. -/
theorem parse_createTable_crate : ∃ st a t,
    crate.createTable crateStorage [⟨"one_weight", ["netWeight"]⟩] = .ok st ∧ st.body = .createTable a ∧
      a.columns.groups = crateGroups ∧ parse crateContext st.text = .ok t ∧
      t.body = .createTable ⟨a.target, ⟨crateGroups, a.columns.sortedConstraints, false⟩⟩ ∧ t.text = st.text := by
  have made : ∃ st a, crate.createTable crateStorage [⟨"one_weight", ["netWeight"]⟩] = .ok st ∧
      st.body = .createTable a ∧ a.columns.groups = crateGroups := ⟨_, _, rfl, rfl, rfl⟩
  obtain ⟨st, a, hst, hbody, hgroups⟩ := made
  have hunique : ∀ u ∈ [UniqueDemand.mk "one_weight" ["netWeight"]], u.name ≠ "" ∧ u.fields ≠ [] :=
    List.forall_mem_singleton.2 ⟨by decide, List.cons_ne_nil _ _⟩
  have hknown : crateContext.catalog.get? crate.tableName = some crate := rfl
  obtain ⟨a', t, hbody', ht, htbody, -, -, htext⟩ :=
    parse_createTable hst (List.cons_ne_nil _ _) (by decide) hunique wellFormed_crate hknown rfl
  cases hbody.symm.trans hbody'
  exact ⟨st, a, t, hst, hbody, hgroups, ht, hgroups ▸ htbody, htext⟩

end Statement

end Clausal
