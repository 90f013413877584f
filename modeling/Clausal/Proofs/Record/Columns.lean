import Clausal.Draft.Definition
import Clausal.Proofs.Mapping.Expansion
import Clausal.Proofs.Record.RoundTrip
import Clausal.Proofs.Statement.Aliases

/-!
# Tables and rows have the same columns

The definition of a table lists the columns of each field; a mapper follows each field down to its columns
with a tree, and writes its rows by that tree. The tree of a field has exactly the columns of the field, or
both fail in the same way, because the tree grows link by link as the columns are expanded. A row has one
entry for every leaf, whatever the values are.
-/

namespace Clausal

namespace Segment

theorem columnsAll_eq_flatMap (ss : List Segment) : columnsAll ss = ss.flatMap columns := by
  induction ss with
  | nil => rfl
  | cons s ss ih => rw [columnsAll, ih, List.flatMap_cons]

mutual

theorem count_eq_length : (s : Segment) → s.count = s.columns.length
  | leaf _ _ => rfl
  | branch _ first siblings => by
    rw [count, columns, List.length_append, count_eq_length first, countAll_eq_length siblings]

theorem countAll_eq_length : (ss : List Segment) → countAll ss = (columnsAll ss).length
  | [] => rfl
  | s :: ss => by
    rw [countAll, columnsAll, List.length_append, count_eq_length s, countAll_eq_length ss]

end

mutual

/-- The entries that a segment writes have its columns. -/
theorem columns_of_write : (s : Segment) → ∀ {v : Value} {es : List Entry}, s.write v = .ok es →
    es.map (·.column) = s.columns
  | leaf l c, v, es, h => by
    obtain ⟨w, _, rfl⟩ := write_leaf h
    rfl
  | branch l first siblings, v, es, h => by
    obtain ⟨w, _, h⟩ := bind_eq_ok.1 h
    obtain ⟨es₁, es₂, h₁, h₂, rfl⟩ := writeAll_cons h
    rw [List.map_append, columns_of_write first h₁, columns_of_writeAll siblings h₂, columns]

theorem columns_of_writeAll : (ss : List Segment) → ∀ {v : Value} {es : List Entry},
    writeAll ss v = .ok es → es.map (·.column) = columnsAll ss
  | [], v, es, h => by
    cases h
    rfl
  | s :: ss, v, es, h => by
    obtain ⟨es₁, es₂, h₁, h₂, rfl⟩ := writeAll_cons h
    rw [List.map_append, columns_of_write s h₁, columns_of_writeAll ss h₂, columnsAll]

end

/-- The column to which the first links lead. -/
def firstColumn : Segment → Column
  | leaf _ c => c
  | branch _ first _ => firstColumn first

theorem columns_eq_cons : (s : Segment) → ∃ others, s.columns = s.firstColumn :: others
  | leaf _ _ => ⟨[], rfl⟩
  | branch _ first siblings => by
    obtain ⟨others, h⟩ := columns_eq_cons first
    exact ⟨others ++ columnsAll siblings, by rw [columns, h, List.cons_append, firstColumn]⟩

end Segment

namespace SegmentTree

theorem columns_eq (t : SegmentTree) :
    t.columns = ((t.first :: t.siblings).map Segment.columns).flatten := by
  rw [columns, Segment.columnsAll_eq_flatMap, List.flatMap_def]

theorem count_eq_length (t : SegmentTree) : t.count = t.columns.length :=
  Segment.countAll_eq_length (t.first :: t.siblings)

theorem columns_of_write {t : SegmentTree} {v : Value} {es : List Entry} (h : t.write v = .ok es) :
    es.map (·.column) = t.columns :=
  Segment.columns_of_writeAll (t.first :: t.siblings) h

/-- The column to which the first links of a tree lead. -/
def firstColumn (t : SegmentTree) : Column := t.first.firstColumn

theorem columns_eq_cons (t : SegmentTree) : t.columns = t.firstColumn :: t.columns.tail := by
  obtain ⟨others, h⟩ := t.first.columns_eq_cons
  have all : t.columns = t.firstColumn :: (others ++ Segment.columnsAll t.siblings) := by
    rw [columns, Segment.columnsAll, h, List.cons_append, firstColumn]
  rw [all, List.tail_cons]

end SegmentTree

namespace Registry

theorem columns_growLink {r : Registry} {depth : Nat}
    (grown : ∀ m base, (r.grow depth m base).map SegmentTree.columns = r.expand depth m base)
    (base : String) (l : Link) :
    (r.growLink depth base l).map Segment.columns = r.linkColumns depth base l := by
  cases target : l.target with
  | column type =>
    rw [growLink, target, linkColumns_column target]
    rfl
  | logical type =>
    rw [linkColumns_logical target]
    cases hm : r.lookup type with
    | error e =>
      rw [expandType_of_error hm]
      simp only [growLink, target, hm]
      rfl
    | ok child =>
      rw [expandType_of_lookup hm, ← grown]
      simp only [growLink, target, hm, ok_bind]
      cases r.grow depth child (l.columnName base) <;> rfl

/-- A tree has the columns into which its mapper is expanded, or cannot be grown for the same reason. -/
theorem columns_grow (r : Registry) (depth : Nat) (m : Mapper) (base : String) :
    (r.grow depth m base).map SegmentTree.columns = r.expand depth m base := by
  induction depth generalizing m base with
  | zero => rfl
  | succ depth ih =>
    have links : m.links.mapM (r.linkColumns depth base) =
        (m.links.mapM (r.growLink depth base)).map (List.map Segment.columns) := by
      rw [map_mapM]
      exact mapM_congr fun l _ => (columns_growLink ih base l).symm
    rw [expand_succ, links, grow_succ_eq, Mapper.links, List.mapM_cons]
    cases r.growLink depth base m.first with
    | error e => rfl
    | ok first =>
      cases m.siblings.mapM (r.growLink depth base) with
      | error e => rfl
      | ok siblings => exact congrArg Except.ok (SegmentTree.columns_eq ⟨first, siblings⟩)

end Registry

theorem Storage.columns_segmentTree (s : Storage) (f : Field) :
    (s.registry.segmentTree f.type (s.naming.columnName f)).map SegmentTree.columns = s.fieldColumns f := by
  unfold Registry.segmentTree fieldColumns Registry.physicalColumns
  cases s.registry.lookup f.type with
  | error e => rfl
  | ok m => exact s.registry.columns_grow _ m _

namespace MappedField

/-- A field with the columns of its tree. -/
def stored (f : MappedField) : StoredField := ⟨f.field, f.tree.firstColumn, f.tree.columns.tail⟩

theorem columns_stored (f : MappedField) : f.stored.columns = f.tree.columns := f.tree.columns_eq_cons.symm

theorem ofColumns?_columns (f : MappedField) :
    StoredField.ofColumns? f.field f.tree.columns = some f.stored := by
  rw [f.tree.columns_eq_cons]
  rfl

def ofField (s : Storage) (f : Field) : Except Error MappedField :=
  (s.registry.segmentTree f.type (s.naming.columnName f)).map (MappedField.mk f)

end MappedField

namespace RecordMapper

theorem ofEntity_eq (s : Storage) (e : Entity) :
    ofEntity s e = (e.fields.mapM (MappedField.ofField s)).map (RecordMapper.mk e) := by
  unfold ofEntity
  have same : ∀ f ∈ e.fields, (do
      pure ⟨f, ← s.registry.segmentTree f.type (s.naming.columnName f)⟩ : Except Error MappedField) =
      MappedField.ofField s f := by
    intro f _
    unfold MappedField.ofField
    cases s.registry.segmentTree f.type (s.naming.columnName f) <;> rfl
  rw [mapM_congr same]
  cases e.fields.mapM (MappedField.ofField s) <;> rfl

/-- Fields that are given their columns are the fields of the mapper with the columns of their trees. -/
theorem stored_of_columns (s : Storage) (fs : List Field) :
    ((fs.mapM s.fieldColumns).map fun columns =>
        (fs.zip columns).filterMap fun (f, cs) => StoredField.ofColumns? f cs) =
      (fs.mapM (MappedField.ofField s)).map (List.map MappedField.stored) := by
  induction fs with
  | nil => rfl
  | cons f fs ih =>
    rw [List.mapM_cons, List.mapM_cons, ← s.columns_segmentTree, MappedField.ofField]
    cases s.registry.segmentTree f.type (s.naming.columnName f) with
    | error e => rfl
    | ok t =>
      have here := MappedField.ofColumns?_columns ⟨f, t⟩
      cases given : fs.mapM s.fieldColumns with
      | error e =>
        rw [given] at ih
        have failed := map_eq_error.1 ih.symm
        rw [failed]
        rfl
      | ok columns =>
        rw [given] at ih
        obtain ⟨ms, mapped, same⟩ := map_eq_ok.1 ih.symm
        rw [mapped]
        refine congrArg Except.ok ?_
        rw [List.map_cons, same]
        exact List.filterMap_cons_some here

/-- The fields of a table are those of the mapper, with the columns of their trees. -/
theorem storedFields_eq (s : Storage) (e : Entity) :
    e.storedFields s = (ofEntity s e).map fun m => m.fields.map MappedField.stored := by
  calc e.storedFields s
      = (e.fields.mapM s.fieldColumns).map fun columns =>
          (e.fields.zip columns).filterMap fun (f, cs) => StoredField.ofColumns? f cs := by
        unfold Entity.storedFields
        cases e.fields.mapM s.fieldColumns <;> rfl
    _ = (e.fields.mapM (MappedField.ofField s)).map (List.map MappedField.stored) :=
        stored_of_columns s e.fields
    _ = (ofEntity s e).map fun m => m.fields.map MappedField.stored := by
        rw [ofEntity_eq]
        cases e.fields.mapM (MappedField.ofField s) <;> rfl

theorem fields_eq {s : Storage} {e : Entity} {m : RecordMapper} (h : ofEntity s e = .ok m) :
    m.entity = e ∧ m.fields.map (·.field) = e.fields := by
  rw [ofEntity_eq] at h
  obtain ⟨ms, mapped, rfl⟩ := map_eq_ok.1 h
  have same : ∀ f (m : MappedField), MappedField.ofField s f = .ok m → f = m.field := by
    intro f m h
    obtain ⟨t, _, rfl⟩ := map_eq_ok.1 h
    rfl
  have each := List.forall₂_map_right_iff.2 ((mapM_eq_ok.1 mapped).imp same)
  rw [List.forall₂_eq_eq_eq] at each
  exact ⟨rfl, each.symm⟩

/-- The groups of a table's columns are its fields with their columns; the constraints follow from these and from
the demands. -/
theorem createTable_parts {s : Storage} {e : Entity} {unique : List UniqueDemand} {st : Statement}
    (h : e.createTable s unique = .ok st) : ∃ stored demanded, e.storedFields s = .ok stored ∧
      unique.mapM (e.uniqueConstraint stored) = .ok demanded ∧
      st.body = .createTable ⟨.ofEntity e, ⟨stored.map StoredField.group,
        stored.filterMap (StoredField.notNull? e.tableName) ++ Entity.primaryKey e.tableName stored ++ demanded,
        false⟩⟩ := by
  obtain ⟨stored, hstored, h⟩ := bind_eq_ok.1 h
  obtain ⟨demanded, hdemanded, h⟩ := bind_eq_ok.1 h
  exact ⟨stored, demanded, hstored, hdemanded, Statement.body_ofBody h⟩

theorem group_stored : StoredField.group ∘ MappedField.stored = fun f => ⟨.bare f.field.name, f.tree.columns⟩ :=
  funext fun f => congrArg (ColumnGroup.mk (.bare f.field.name)) f.columns_stored

/-- The groups of a table's columns are the fields of the mapper, each with the columns of its tree. -/
theorem createTable_eq_ok {s : Storage} {e : Entity} {unique : List UniqueDemand} {st : Statement}
    (h : e.createTable s unique = .ok st) : ∃ m constraints demanded, ofEntity s e = .ok m ∧
      constraints = (m.fields.map MappedField.stored).filterMap (StoredField.notNull? e.tableName) ++
        Entity.primaryKey e.tableName (m.fields.map MappedField.stored) ++ demanded ∧
      st.body = .createTable ⟨.ofEntity e,
        ⟨m.fields.map fun f => ⟨.bare f.field.name, f.tree.columns⟩, constraints, false⟩⟩ := by
  obtain ⟨stored, demanded, hstored, -, body⟩ := createTable_parts h
  rw [storedFields_eq] at hstored
  obtain ⟨m, made, rfl⟩ := map_eq_ok.1 hstored
  refine ⟨m, _, demanded, made, rfl, ?_⟩
  rw [body, List.map_map, group_stored]

theorem count_of_check {m : RecordMapper} {values : List Value} (h : m.checkCount values = .ok ()) :
    values.length = m.fields.length := by
  unfold checkCount at h
  split at h
  · assumption
  · cases h

/-- A row is made of one group of entries for each field, with the columns of its tree. -/
theorem groups_of_toRow {m : RecordMapper} {values : List Value} {row : Row}
    (h : m.toRow values = .ok row) : values.length = m.fields.length ∧
      ∃ groups : List (List Entry), row.entries = groups.flatten ∧
        List.Forall₂ (fun p es => m.writeField p.1 p.2 = .ok es) (m.fields.zip values) groups := by
  obtain ⟨⟨⟩, checked, h⟩ := bind_eq_ok.1 h
  obtain ⟨groups, written, h⟩ := bind_eq_ok.1 h
  cases h
  exact ⟨count_of_check checked, groups, rfl, mapM_eq_ok.1 written⟩

theorem columns_of_groups {m : RecordMapper} {fs : List MappedField} {vs : List Value}
    {groups : List (List Entry)} (count : vs.length = fs.length)
    (written : List.Forall₂ (fun p es => m.writeField p.1 p.2 = .ok es) (fs.zip vs) groups) :
    groups.map (List.map (·.column)) = fs.map (·.tree.columns) := by
  induction fs generalizing vs groups with
  | nil =>
    cases written
    rfl
  | cons f fs ih =>
    cases vs with
    | nil => cases count
    | cons v vs =>
      cases written with
      | cons here rest =>
        rw [List.map_cons, List.map_cons, ih (Nat.succ.inj count) rest,
          SegmentTree.columns_of_write (write_of_writeField here)]

/-- A row has the columns of its record, whatever the values are: of each field as many as its tree has. -/
theorem columns_of_toRow {m : RecordMapper} {values : List Value} {row : Row}
    (h : m.toRow values = .ok row) : row.entries.map (·.column) = m.columns ∧
      ∃ groups : List (List Entry), row.entries = groups.flatten ∧
        groups.map (List.map (·.column)) = m.fields.map (·.tree.columns) ∧
        groups.map List.length = m.fields.map (·.tree.count) := by
  obtain ⟨count, groups, entries, written⟩ := groups_of_toRow h
  have each := columns_of_groups count written
  refine ⟨?_, groups, entries, each, ?_⟩
  · rw [entries, List.map_flatten, each, columns, List.flatMap_def]
  · have lengths := congrArg (List.map List.length) each
    simp only [List.map_map, Function.comp_def, List.length_map, ← SegmentTree.count_eq_length] at lengths
    exact lengths

/-- The definition of a table, the trees of its fields and the rows of its records agree on the columns of
an entity, if the types of its fields can be expanded at all. -/
theorem columns_agree {s : Storage} {e : Entity}
    (ends : ∀ f ∈ e.fields, s.registry.Ends f.type (s.naming.columnName f)) :
    (∀ f ∈ e.fields,
      (s.registry.segmentTree f.type (s.naming.columnName f)).map SegmentTree.columns = s.fieldColumns f ∧
      (∀ err, s.fieldColumns f = .error err → ∃ type, err = .unmapped type) ∧
      (s.registry.HasKinds → ∀ x,
        s.registry.Expands f.type (s.naming.columnName f) x ↔ s.fieldColumns f = x)) ∧
    (∀ unique err, ofEntity s e = .error err → e.createTable s unique = .error err) ∧
    (∀ unique st, e.createTable s unique = .ok st → ∃ m list, ofEntity s e = .ok m ∧
      m.fields.map (·.field) = e.fields ∧
      st.body = .createTable ⟨.ofEntity e, list⟩ ∧
      list.groups = m.fields.map (fun f => ⟨.bare f.field.name, f.tree.columns⟩) ∧
      list.groups.flatMap (·.columns) = m.columns ∧ list.sortedGroups.Perm list.groups) ∧
    (∀ m values row, ofEntity s e = .ok m → m.toRow values = .ok row →
      row.entries.map (·.column) = m.columns ∧
      ∃ groups : List (List Entry), row.entries = groups.flatten ∧
        groups.map (List.map (·.column)) = m.fields.map (·.tree.columns) ∧
        groups.map List.length = m.fields.map (·.tree.count)) := by
  refine ⟨fun f hf => ⟨s.columns_segmentTree f, fun err failed => ?_, fun kinds x => ?_⟩,
    fun unique err failed => ?_, fun unique st created => ?_, fun m values row _ written => ?_⟩
  · have settled := (ends f hf).at_size
    rw [Storage.fieldColumns_of_ends (ends f hf)] at failed
    exact Registry.unmapped_of_expandType failed settled
  · rw [Storage.fieldColumns_of_ends (ends f hf)]
    exact Registry.expands_iff kinds (ends f hf)
  · unfold Entity.createTable
    rw [storedFields_eq, failed]
    rfl
  · obtain ⟨m, constraints, _, made, _, body⟩ := createTable_eq_ok created
    refine ⟨m, _, made, (fields_eq made).2, body, rfl, ?_, List.mergeSort_perm _ _⟩
    rw [columns, List.flatMap_map]
  · exact columns_of_toRow written

private def offerComponents : List Mapper.Component := [⟨"seller", .key⟩, ⟨"cents", .long⟩]

private def offerLink (index : Nat) (c : Mapper.Component) : Link :=
  Mapper.componentLink (.named "offer") offerComponents index c

private def offerMappers : List (LogicalType × Mapper) :=
  [ (.long, Mapper.scalar .long .bigint), (.key, Mapper.key true),
    (.named "offer", ⟨offerLink 0 ⟨"seller", .key⟩, [offerLink 1 ⟨"cents", .long⟩]⟩),
    (.named "bid", Mapper.convert (.named "bid") (.named "offer") .ok .ok) ]

private def sale : Entity :=
  ⟨"sale", none, [⟨"id", .key, false, true, none⟩, ⟨"best", .named "bid", true, false, none⟩]⟩

/-- A composite of an identifier and a number behind a conversion, once with and once without a value. -/
theorem columns_agree_sale : ∃ m st, ofEntity ⟨⟨offerMappers⟩, .asIs⟩ sale = .ok m ∧
    sale.createTable ⟨⟨offerMappers⟩, .asIs⟩ [] = .ok st ∧
    m.columns.map (·.name) = ["id", "id_rev", "best_seller", "best_seller_rev", "best_cents"] ∧
    (∃ list, st.body = .createTable ⟨.ofEntity sale, list⟩ ∧
      list.groups.flatMap (·.columns) = m.columns) ∧
    (∀ x, Registry.Expands ⟨offerMappers⟩ (.named "bid") "best" x ↔
      x = .ok [⟨"best_seller", .bigint⟩, ⟨"best_seller_rev", .bigint⟩, ⟨"best_cents", .bigint⟩]) ∧
    ∀ v ∈ [Value.null, .record [.null, .int 250]], ∃ row,
      m.toRow [.key ⟨1, none⟩, v] = .ok row ∧ row.entries.map (·.column) = m.columns ∧
        ∃ groups : List (List Entry), row.entries = groups.flatten ∧ groups.map List.length = [2, 3] := by
  have kinds : Registry.HasKinds ⟨offerMappers⟩ := by
    intro e he
    simp only [offerMappers, List.mem_cons, List.not_mem_nil, or_false] at he
    rcases he with rfl | rfl | rfl | rfl
    · exact .scalar _ _
    · exact .key _
    · exact @Mapper.HasKind.composite "offer" offerComponents _ rfl
    · exact .convert _ _ _ _
  have ends : ∀ f ∈ sale.fields, Registry.Ends ⟨offerMappers⟩ f.type (Naming.asIs.columnName f) := by
    intro f hf
    simp only [sale, List.mem_cons, List.not_mem_nil, or_false] at hf
    rcases hf with rfl | rfl
    · exact .of_ok (show Registry.expandType ⟨offerMappers⟩ 4 .key "id" = .ok _ from rfl)
    · exact .of_ok (show Registry.expandType ⟨offerMappers⟩ 4 (.named "bid") "best" = .ok _ from rfl)
  obtain ⟨fields, _, tables, rows⟩ := @columns_agree ⟨⟨offerMappers⟩, .asIs⟩ sale ends
  have made : ∃ m st, ofEntity ⟨⟨offerMappers⟩, .asIs⟩ sale = .ok m ∧
      sale.createTable ⟨⟨offerMappers⟩, .asIs⟩ [] = .ok st ∧
      m.columns.map (·.name) = ["id", "id_rev", "best_seller", "best_seller_rev", "best_cents"] ∧
      m.fields.map (·.tree.count) = [2, 3] ∧
      ∀ v ∈ [Value.null, .record [.null, .int 250]], ∃ row, m.toRow [.key ⟨1, none⟩, v] = .ok row :=
    ⟨_, _, rfl, rfl, rfl, rfl, List.forall_mem_cons.2 ⟨⟨_, rfl⟩, List.forall_mem_singleton.2 ⟨_, rfl⟩⟩⟩
  obtain ⟨m, st, made, created, names, size, written⟩ := made
  refine ⟨m, st, made, created, names, ?_, fun x => ?_, fun v hv => ?_⟩
  · obtain ⟨m', list, made', _, body, _, same, _⟩ := tables [] st created
    cases made.symm.trans made'
    exact ⟨list, body, same⟩
  · have given := (fields _ (.tail _ (.head _))).2.2 kinds x
    exact given.trans eq_comm
  · obtain ⟨row, hrow⟩ := written v hv
    obtain ⟨same, groups, entries, _, count⟩ := rows m _ row made hrow
    exact ⟨row, hrow, same, groups, entries, count.trans size⟩

end RecordMapper

end Clausal
