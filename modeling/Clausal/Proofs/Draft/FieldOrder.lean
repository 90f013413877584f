import Clausal.Proofs.Statement.Table

/-!
# The order of fields does not show in a table's text

Two entities that differ in the order of their fields have the same columns, group by group, and the same
constraints, but in another order. The names of the fields tell the groups apart and the names of the constraints
tell the constraints apart, so sorting brings both lists to one order. A demand finds its columns by the fields'
names, and a key of one field has its columns in one order only.
-/

namespace Clausal

variable {s : Storage} {e e' : Entity} {unique : List UniqueDemand}

/-- Lists of at most one element have one order. -/
private theorem eq_of_perm_of_length_le_one {α : Type} {xs ys : List α} (h : xs.Perm ys) (hlength : xs.length ≤ 1) :
    xs = ys := by
  match xs with
  | [] => exact (List.nil_perm.1 h).symm
  | [x] => exact List.singleton_perm.1 h
  | _ :: _ :: _ => exact absurd hlength (by simp)

/-- Among elements of different names, the one of a given name is found in any order. -/
private theorem find?_eq_of_perm {α : Type} {name : α → String} {xs ys : List α} (h : xs.Perm ys)
    (hdistinct : (xs.map name).Nodup) (n : String) :
    (xs.find? fun x => name x == n) = ys.find? fun x => name x == n := by
  have hlength : (xs.filter fun x => name x == n).length ≤ 1 := by
    have hcount := List.nodup_iff_count_le_one.1 hdistinct n
    rwa [List.count_eq_countP, List.countP_map, List.countP_eq_length_filter] at hcount
  rw [← List.head?_filter, ← List.head?_filter, eq_of_perm_of_length_le_one (h.filter _) hlength]

/-! ### Stored fields -/

namespace Entity

/-- The fields of an entity in another order. -/
structure Reorders (e e' : Entity) : Prop where
  name : e'.name = e.name
  table : e'.table = e.table
  fields : e.fields.Perm e'.fields

theorem Reorders.tableName_eq (h : Reorders e e') : e'.tableName = e.tableName := by
  rw [tableName, tableName, h.name, h.table]

/-- The entity's fields are stored exactly if each of them has columns. -/
theorem storedFields_eq_ok {stored : List StoredField} : e.storedFields s = .ok stored ↔
    (∀ f ∈ e.fields, ∃ columns, s.fieldColumns f = .ok columns) ∧
      stored = e.fields.filterMap fun f => StoredField.ofColumns? f (s.columnsOf f) := by
  have hmade : (∀ f ∈ e.fields, ∃ columns, s.fieldColumns f = .ok columns) →
      e.storedFields s = .ok (e.fields.filterMap fun f => StoredField.ofColumns? f (s.columnsOf f)) := by
    intro hgiven
    have hcolumns : e.fields.mapM s.fieldColumns = .ok (e.fields.map s.columnsOf) := by
      refine mapM_eq_map fun f hf => ?_
      obtain ⟨columns, hcolumns⟩ := hgiven f hf
      rw [hcolumns, Storage.columnsOf_eq hcolumns]
    have hzip : e.fields.zip (e.fields.map s.columnsOf) = e.fields.map fun f => (f, s.columnsOf f) :=
      List.map_prod_left_eq_zip.symm
    rw [storedFields, hcolumns, ok_bind, hzip, List.filterMap_map]
    rfl
  constructor
  · intro h
    have hgiven : ∀ f ∈ e.fields, ∃ columns, s.fieldColumns f = .ok columns :=
      fun f hf => ⟨_, (groups_of_storedFields h).1 f hf⟩
    exact ⟨hgiven, (Except.ok.inj ((hmade hgiven).symm.trans h)).symm⟩
  · rintro ⟨hgiven, rfl⟩
    exact hmade hgiven

theorem map_field_of_storedFields {stored : List StoredField} (h : e.storedFields s = .ok stored) :
    stored.map (·.field) = e.fields := by
  obtain ⟨hgiven, rfl⟩ := storedFields_eq_ok.1 h
  rw [List.map_filterMap]
  calc e.fields.filterMap _ = e.fields.filterMap some := by
        refine List.filterMap_congr fun f hf => ?_
        obtain ⟨columns, hcolumns⟩ := hgiven f hf
        obtain ⟨first, others, rfl⟩ := List.exists_cons_of_ne_nil (Storage.fieldColumns_ne_nil hcolumns)
        rw [Storage.columnsOf_eq hcolumns]
        rfl
    _ = e.fields := List.filterMap_some

/-- The fields in another order are stored in another order. -/
theorem Reorders.storedFields (h : Reorders e e') {stored : List StoredField} (hstored : e.storedFields s = .ok stored) :
    ∃ stored', e'.storedFields s = .ok stored' ∧ stored.Perm stored' := by
  obtain ⟨hgiven, rfl⟩ := storedFields_eq_ok.1 hstored
  exact ⟨_, storedFields_eq_ok.2 ⟨fun f hf => hgiven f (h.fields.mem_iff.2 hf), rfl⟩, h.fields.filterMap _⟩

end Entity

/-! ### Constraints -/

namespace Entity

variable {stored stored' : List StoredField}

/-- Fields of which no two have one name, and of which one at most is a key. -/
structure IsKeyed (fields : List Field) : Prop where
  distinct : (fields.map (·.name)).Nodup
  key : (fields.filter (·.key)).length ≤ 1

theorem primaryKey_eq_of_perm (h : stored.Perm stored') (hkeyed : IsKeyed (stored.map (·.field))) (table : String) :
    primaryKey table stored = primaryKey table stored' := by
  have hlength : (stored.filter (·.field.key)).length ≤ 1 := by
    have hkey := hkeyed.key
    rwa [List.filter_map, List.length_map] at hkey
  rw [primaryKey, primaryKey, eq_of_perm_of_length_le_one (h.filter _) hlength]

theorem Reorders.firstColumn (he : Reorders e e') (h : stored.Perm stored') (hkeyed : IsKeyed (stored.map (·.field))) :
    e.firstColumn stored = e'.firstColumn stored' := by
  have hdistinct : (stored.map (·.field.name)).Nodup := by
    have hnames := hkeyed.distinct
    rwa [List.map_map] at hnames
  funext n
  rw [Entity.firstColumn, Entity.firstColumn, find?_eq_of_perm h hdistinct n, he.name]

theorem Reorders.uniqueConstraint (he : Reorders e e') (h : stored.Perm stored')
    (hkeyed : IsKeyed (stored.map (·.field))) : e.uniqueConstraint stored = e'.uniqueConstraint stored' := by
  funext u
  rw [Entity.uniqueConstraint, Entity.uniqueConstraint, he.firstColumn h hkeyed]

end Entity

/-! ### Definitions -/

def Body.constraintNames : Body → List String
  | createTable a => a.columns.constraints.map (·.name)
  | _ => []

/-- Lists whose paths and names tell everything apart are written alike in any order. -/
theorem ColumnList.sameText_of_perm {gs gs' : List ColumnGroup} {cs cs' : List Constraint} (hgroups : gs.Perm gs')
    (hpaths : (gs.map (·.path)).Nodup) (hconstraints : cs.Perm cs') (hnames : (cs.map (·.name)).Nodup) (d : Dialect)
    (primary : Option String) :
    Clause.SameText d primary (.columns ⟨gs, cs, false⟩) (.columns ⟨gs', cs', false⟩) := by
  have hsorted : (ColumnList.mk gs cs false).sortedGroups = (ColumnList.mk gs' cs' false).sortedGroups :=
    mergeSort_eq_of_perm hgroups hpaths
  have hsorted' : (ColumnList.mk gs cs false).sortedConstraints = (ColumnList.mk gs' cs' false).sortedConstraints :=
    mergeSort_eq_of_perm hconstraints hnames
  constructor
  · show (gs'.isEmpty && cs'.isEmpty) = (gs.isEmpty && cs.isEmpty)
    rw [hgroups.isEmpty_eq, hconstraints.isEmpty_eq]
  · show (ColumnList.mk gs' cs' false).render d = (ColumnList.mk gs cs false).render d
    rw [render, render, hsorted, hsorted']

/-- A definition of a table with constraints that hold no numbers is sound. -/
private theorem ofBody_createTable {target : EntityRef} {columns : ColumnList} (htarget : target.aliasName = none)
    (h : ∀ c ∈ columns.constraints, ∀ x, Body.checkedExpr? c = some x → x.literals = []) :
    ∃ st, Statement.ofBody (.createTable ⟨target, columns⟩) = .ok st := by
  have hliterals : (Body.createTable ⟨target, columns⟩).exprs.flatMap Expr.literals = [] := by
    refine List.flatMap_eq_nil_iff.2 fun x hx => ?_
    obtain ⟨c, hc, hchecked⟩ := List.mem_filterMap.1 hx
    exact h c hc x hchecked
  have hcheck : (Body.createTable ⟨target, columns⟩).check = .ok .empty := by
    rw [Body.check, Body.firstNonFinite?, hliterals]
    simp only [List.findSome?_nil, Body.entityRefs, Body.bindAll, htarget]
  exact ⟨_, Statement.ofBody_eq_ok hcheck⟩

namespace Entity

variable {stored : List StoredField}

/-- No constraint that follows from an entity holds a literal. -/
theorem literals_of_mem_constraints {demanded : List Constraint}
    (hdemanded : unique.mapM (e.uniqueConstraint stored) = .ok demanded) {table : String} {c : Constraint}
    (hc : c ∈ stored.filterMap (StoredField.notNull? table) ++ primaryKey table stored ++ demanded) {x : Expr}
    (hx : Body.checkedExpr? c = some x) : x.literals = [] := by
  rcases List.mem_append.1 hc with hc | hc
  · rcases List.mem_append.1 hc with hc | hc
    · obtain ⟨f, -, hnotNull⟩ := List.mem_filterMap.1 hc
      unfold StoredField.notNull? at hnotNull
      split at hnotNull
      · cases hnotNull
      · cases hnotNull
        cases hx
        rfl
    · unfold primaryKey at hc
      split at hc
      · cases hc
      · obtain rfl := List.mem_singleton.1 hc
        cases hx
  · obtain ⟨u, -, hu⟩ := exists_of_mem_right (mapM_eq_ok.1 hdemanded) hc
    obtain ⟨columns, -, hu⟩ := bind_eq_ok.1 hu
    cases hu
    cases hx

/-- A table is defined exactly if all fields have columns and every demand is about fields of the entity. -/
theorem createTable_isOk_iff : (∃ st, e.createTable s unique = .ok st) ↔
    ∃ stored demanded, e.storedFields s = .ok stored ∧ unique.mapM (e.uniqueConstraint stored) = .ok demanded := by
  constructor
  · rintro ⟨st, h⟩
    obtain ⟨stored, demanded, hstored, hdemanded, -⟩ := RecordMapper.createTable_parts h
    exact ⟨stored, demanded, hstored, hdemanded⟩
  · rintro ⟨stored, demanded, hstored, hdemanded⟩
    rw [createTable, hstored, ok_bind, hdemanded, ok_bind]
    exact ofBody_createTable rfl fun c hc x hx => literals_of_mem_constraints hdemanded hc hx

theorem Reorders.symm (h : Reorders e e') : Reorders e' e := ⟨h.name.symm, h.table.symm, h.fields.symm⟩

theorem IsKeyed.of_perm {fields fields' : List Field} (h : fields.Perm fields') (hkeyed : IsKeyed fields) :
    IsKeyed fields' where
  distinct := ((h.map _).nodup_iff).1 hkeyed.distinct
  key := (h.filter _).length_eq ▸ hkeyed.key

/-- The parts of both definitions, if there is one of the first entity. -/
theorem Reorders.parts (h : Reorders e e') (hkeyed : IsKeyed e.fields) {stored : List StoredField}
    {demanded : List Constraint} (hstored : e.storedFields s = .ok stored)
    (hdemanded : unique.mapM (e.uniqueConstraint stored) = .ok demanded) :
    ∃ stored', e'.storedFields s = .ok stored' ∧ unique.mapM (e'.uniqueConstraint stored') = .ok demanded ∧
      stored.Perm stored' ∧ primaryKey e.tableName stored = primaryKey e.tableName stored' := by
  obtain ⟨stored', hstored', hperm⟩ := h.storedFields hstored
  have hfields : IsKeyed (stored.map (·.field)) := by rwa [map_field_of_storedFields hstored]
  rw [h.uniqueConstraint hperm hfields] at hdemanded
  exact ⟨stored', hstored', hdemanded, hperm, primaryKey_eq_of_perm hperm hfields _⟩

theorem Reorders.createTable_isOk (h : Reorders e e') (hkeyed : IsKeyed e.fields)
    (hmade : ∃ st, e.createTable s unique = .ok st) : ∃ st, e'.createTable s unique = .ok st := by
  obtain ⟨stored, demanded, hstored, hdemanded⟩ := createTable_isOk_iff.1 hmade
  obtain ⟨stored', hstored', hdemanded', -⟩ := h.parts hkeyed hstored hdemanded
  exact createTable_isOk_iff.2 ⟨stored', demanded, hstored', hdemanded'⟩

theorem Reorders.render_createTable (h : Reorders e e') (hkeyed : IsKeyed e.fields) {st st' : Statement}
    (hst : e.createTable s unique = .ok st) (hst' : e'.createTable s unique = .ok st')
    (hnames : st.body.constraintNames.Nodup) (d : Dialect) : st'.render d = st.render d := by
  obtain ⟨stored, demanded, hstored, hdemanded, hbody⟩ := RecordMapper.createTable_parts hst
  obtain ⟨stored', demanded', hstored', hdemanded', hbody'⟩ := RecordMapper.createTable_parts hst'
  obtain ⟨_, hsame, hdemandedSame, hperm, hkey⟩ := h.parts hkeyed hstored hdemanded
  cases hstored'.symm.trans hsame
  cases hdemanded'.symm.trans hdemandedSame
  have hpaths : ((stored.map StoredField.group).map (·.path)).Nodup := by
    rw [(groups_of_storedFields hstored).2, List.map_map]
    have hdistinct := hkeyed.distinct
    have hbare : Function.Injective Path.bare := fun a b hab => by cases hab; rfl
    rw [← List.nodup_map_iff hbare, List.map_map] at hdistinct
    exact hdistinct
  rw [h.tableName_eq, ← hkey] at hbody'
  rw [hbody] at hnames
  have hconstraints := ((hperm.filterMap (StoredField.notNull? e.tableName)).append_right
    (primaryKey e.tableName stored)).append_right demanded
  refine Statement.render_congr ?_ ?_
  · rw [hbody, hbody']
    rfl
  · rw [hbody, hbody']
    refine .cons ⟨rfl, ?_⟩ (.cons (ColumnList.sameText_of_perm (hperm.map _) hpaths hconstraints hnames d none) .nil)
    show "CREATE TABLE " ++ d.identifier e'.tableName = "CREATE TABLE " ++ d.identifier e.tableName
    rw [h.tableName_eq]

/-- The order of the fields neither decides whether a table is defined nor shows in its text, if the names of the
constraints are distinct. -/
theorem Reorders.createTable_sameText (h : Reorders e e') (hkeyed : IsKeyed e.fields) (s : Storage)
    (unique : List UniqueDemand) :
    ((∃ st, e.createTable s unique = .ok st) ↔ ∃ st, e'.createTable s unique = .ok st) ∧
      ∀ st st', e.createTable s unique = .ok st → e'.createTable s unique = .ok st' →
        st.body.constraintNames.Nodup → ∀ d, st'.render d = st.render d :=
  ⟨⟨h.createTable_isOk hkeyed, h.symm.createTable_isOk (hkeyed.of_perm h.fields)⟩,
    fun _ _ => h.render_createTable hkeyed⟩

private def parcel : Entity :=
  ⟨"parcel", some "parcels", [⟨"weight", .int, false, false, none⟩, ⟨"id", .key, false, true, none⟩,
    ⟨"note", .text, true, false, none⟩, ⟨"length", .int, false, false, some "len"⟩]⟩

private def parcelBackwards : Entity := { parcel with fields := parcel.fields.reverse }

private def parcelStorage : Storage := ⟨.default, .snakeCase⟩

private def parcelDemands : List UniqueDemand := [⟨"one_note", ["note", "id"]⟩, ⟨"a_size", ["length", "weight"]⟩]

/-- A key of two columns, a named column and two demands. -/
theorem createTable_parcel : ∃ st st', parcel.createTable parcelStorage parcelDemands = .ok st ∧
    parcelBackwards.createTable parcelStorage parcelDemands = .ok st' ∧
      st.body.constraintNames = ["parcels_weight_nn", "parcels_len_nn", "parcels_pk", "one_note", "a_size"] ∧
      st'.body.constraintNames = ["parcels_len_nn", "parcels_weight_nn", "parcels_pk", "one_note", "a_size"] ∧
      st'.text = st.text := by
  have hreorders : Reorders parcel parcelBackwards := ⟨rfl, rfl, (List.reverse_perm _).symm⟩
  have hkeyed : IsKeyed parcel.fields := ⟨by decide, by decide⟩
  have made : ∃ st, parcel.createTable parcelStorage parcelDemands = .ok st ∧ st.body.constraintNames =
      ["parcels_weight_nn", "parcels_len_nn", "parcels_pk", "one_note", "a_size"] := ⟨_, rfl, rfl⟩
  have made' : ∃ st, parcelBackwards.createTable parcelStorage parcelDemands = .ok st ∧ st.body.constraintNames =
      ["parcels_len_nn", "parcels_weight_nn", "parcels_pk", "one_note", "a_size"] := ⟨_, rfl, rfl⟩
  obtain ⟨st, hst, hnames⟩ := made
  obtain ⟨st', hst', hnames'⟩ := made'
  have htext := (hreorders.createTable_sameText hkeyed parcelStorage parcelDemands).2 st st' hst hst' (by rw [hnames]; decide)
  exact ⟨st, st', hst, hst', hnames, hnames', htext .canonical⟩

end Entity

end Clausal
