import Clausal.Proofs.Record.Columns

/-!
# Which columns are there

The table of an entity demands of some fields that their first column is not null, and the mapper refuses
null for the fields that must be there. The first column of a field is the one to which the first links
lead, so a value that is there arrives in it as what those links make of it. That is null only if a link
on the way makes null of a value that is there: the first link of a composite whose first component is
null, or a conversion.
-/

namespace Clausal

namespace Segment

/-- What the first links make of a value, down to the column to which they lead. -/
def storedFirst : Segment → Value → Except Error Value
  | leaf l _, v => stored l v
  | branch l first _, v => stored l v >>= storedFirst first

/-- The first entry that a segment writes. -/
theorem head_write (s : Segment) {v : Value} {es : List Entry} (h : s.write v = .ok es) :
    ∃ w others, s.storedFirst v = .ok w ∧ es = ⟨s.firstColumn, w⟩ :: others := by
  cases s with
  | leaf l c =>
    obtain ⟨w, hw, rfl⟩ := write_leaf h
    exact ⟨w, [], hw, rfl⟩
  | branch l first siblings =>
    obtain ⟨u, hu, h⟩ := bind_eq_ok.1 h
    obtain ⟨es₁, es₂, h₁, _, rfl⟩ := writeAll_cons h
    obtain ⟨w, others, hw, rfl⟩ := head_write first h₁
    exact ⟨w, others ++ es₂, by rw [storedFirst, hu, ok_bind, hw], by rw [firstColumn, List.cons_append]⟩

end Segment

namespace Mapper

/-- Of what a mapper of the four kinds makes null for its first link. -/
inductive MakesNull : Mapper → Value → Prop
  | composite {name : String} {components : List Component} {m : Mapper} {parts : List Value}
      (made : composite name components = .ok m) : MakesNull m (.record (.null :: parts))
  | convert {source target : LogicalType} {toTarget fromTarget : Value → Except Error Value} {v : Value}
      (null : toTarget v = .ok .null) : MakesNull (convert source target toTarget fromTarget) v

theorem record_of_component {type : LogicalType} {cs : List Component} {c : Component} {v w : Value}
    (some : cs ≠ []) (h : (componentLink type cs 0 c).toTarget v = .ok w) :
    ∃ p parts, v = .record (p :: parts) ∧ p = w := by
  simp only [componentLink, component] at h
  split at h
  · rename_i parts
    split at h
    · cases h
    split at h
    · cases h
    · rename_i hcount _
      cases parts with
      | nil => exact absurd (List.length_eq_zero_iff.1 (not_not.1 hcount).symm) some
      | cons p parts =>
        cases h
        exact ⟨p, parts, rfl, rfl⟩
  · cases h

theorem HasKind.makesNull {m : Mapper} (kind : m.HasKind) {v : Value} (there : v ≠ .null)
    (null : m.first.toTarget v = .ok .null) : m.MakesNull v := by
  cases kind with
  | scalar type column => exact absurd (accept_eq_ok null).symm there
  | key revisioned =>
    obtain ⟨k, _, h⟩ := map_eq_ok.1 null
    cases h
  | convert source target f g => exact .convert null
  | @composite name components _ made =>
    obtain ⟨c, rest, hcs, hfirst⟩ := first_of_composite made
    rw [hfirst] at null
    obtain ⟨p, parts, rfl, first⟩ := record_of_component (by rw [hcs]; exact List.cons_ne_nil c rest) null
    rw [first]
    exact .composite made

theorem HasKind.nullTarget {m : Mapper} (kind : m.HasKind) : m.first.nullTarget = .null := by
  cases kind with
  | scalar type column => rfl
  | key revisioned => rfl
  | convert source target f g => rfl
  | composite made =>
    obtain ⟨c, rest, _, hfirst⟩ := first_of_composite made
    rw [hfirst]
    rfl

end Mapper

namespace SegmentTree

open Segment

/-- Writing a value makes null of another value that is there, on the way down the first links. -/
inductive NullsFirst : SegmentTree → Value → Mapper → Value → Prop
  | here {t : SegmentTree} {v : Value} (there : v ≠ .null)
      (null : t.first.link.toTarget v = .ok .null) : NullsFirst t v t.chain v
  | inside {t sub : SegmentTree} {l : Link} {v w x : Value} {m : Mapper}
      (branch : t.first = .branch l sub.first sub.siblings) (stored : Segment.stored l v = .ok w)
      (nulls : NullsFirst sub w m x) : NullsFirst t v m x

theorem NullsFirst.applies {t : SegmentTree} {v x : Value} {m : Mapper} (h : t.NullsFirst v m x) :
    t.Applies v m x := by
  induction h with
  | here there _ => exact .here there
  | inside branch stored _ ih => exact .inside (branch ▸ List.mem_cons_self) stored ih

theorem NullsFirst.null {t : SegmentTree} {v x : Value} {m : Mapper} (h : t.NullsFirst v m x) :
    m.first.toTarget x = .ok .null := by
  induction h with
  | here _ null => exact null
  | inside _ _ _ ih => exact ih

/-- Null in the first column comes from a link that makes null of a value that is there. -/
theorem nullsFirst_of_storedFirst : (s : Segment) → ∀ {siblings : List Segment} {v : Value}, v ≠ .null →
    s.storedFirst v = .ok .null → ∃ m x, (SegmentTree.mk s siblings).NullsFirst v m x
  | .leaf l c, siblings, v, there, h =>
    ⟨_, v, .here there ((stored_of_ne l there).symm.trans h)⟩
  | .branch l first inner, siblings, v, there, h => by
    obtain ⟨w, hw, h⟩ := bind_eq_ok.1 h
    by_cases null : w = .null
    · subst null
      exact ⟨_, v, .here there ((stored_of_ne l there).symm.trans hw)⟩
    · obtain ⟨m, x, nulls⟩ : ∃ m x, (SegmentTree.mk first inner).NullsFirst w m x :=
        nullsFirst_of_storedFirst first null h
      exact ⟨m, x, @NullsFirst.inside _ ⟨first, inner⟩ _ _ _ _ _ rfl hw nulls⟩

end SegmentTree

namespace Registry

open Segment

variable {r : Registry}

theorem HasKinds.lookup (kinds : r.HasKinds) {type : LogicalType} {m : Mapper}
    (h : r.lookup type = .ok m) : m.HasKind := by
  obtain ⟨e, he, rfl⟩ := mem_of_lookup h
  exact kinds e he

/-- Null arrives as null in the first column. -/
theorem storedFirst_null (kinds : r.HasKinds) {depth : Nat} {m : Mapper} {base : String} {t : SegmentTree}
    (kind : m.HasKind) (grown : r.grow depth m base = .ok t) : t.first.storedFirst .null = .ok .null := by
  induction depth generalizing m base t with
  | zero => cases grown
  | succ depth ih =>
    obtain ⟨follows, _⟩ := grow_succ grown
    have here : stored m.first .null = .ok .null := by rw [stored_null, kind.nullTarget]
    generalize t.first = s at follows
    cases follows with
    | leaf => exact here
    | branch target child below =>
      rw [storedFirst, here, ok_bind]
      exact ih (kinds.lookup child) below

/-- Once null was made of a value on the way down, null arrives in the first column. -/
theorem storedFirst_of_nullsFirst (kinds : r.HasKinds) {depth : Nat} {m m' : Mapper} {base : String}
    {t : SegmentTree} {v w x : Value} (grown : r.grow depth m base = .ok t)
    (nulls : t.NullsFirst v m' x) (h : t.first.storedFirst v = .ok w) : w = .null := by
  induction nulls generalizing depth m base with
  | @here t v there null =>
    have made : stored t.first.link v = .ok .null := (stored_of_ne _ there).trans null
    cases depth with
    | zero => cases grown
    | succ depth =>
      obtain ⟨follows, _⟩ := grow_succ grown
      rw [follows.link_eq] at made
      generalize t.first = s at follows h
      cases follows with
      | leaf => exact (Except.ok.inj (made.symm.trans h)).symm
      | branch target child below =>
        rw [storedFirst, made, ok_bind, storedFirst_null kinds (kinds.lookup child) below] at h
        exact (Except.ok.inj h).symm
  | @inside t sub l v u x m' branch hu _ ih =>
    cases depth with
    | zero => cases grown
    | succ depth =>
      obtain ⟨follows, _⟩ := grow_succ grown
      rw [branch] at follows h
      rw [storedFirst, hu, ok_bind] at h
      generalize hs : Segment.branch l sub.first sub.siblings = s at follows
      cases follows with
      | leaf => cases hs
      | branch target child below =>
        obtain ⟨first, siblings⟩ := sub
        cases hs
        exact ih below h

end Registry

/-- The table demands that the first column of a field is there. -/
inductive MappedField.Demanded (table : String) (constraints : List Constraint) (f : MappedField) : Prop
  | check {c : Constraint} (emitted : f.stored.notNull? table = some c) (mem : c ∈ constraints)
  | primaryKey {names : List String} (key : f.field.key = true)
      (mem : ⟨table ++ "_pk", .primaryKey names⟩ ∈ constraints) (named : f.tree.firstColumn.name ∈ names)

/-- A field of the key is in the primary key. -/
theorem Entity.mem_primaryKey {table : String} {stored : List StoredField} {f : StoredField}
    (hf : f ∈ stored) (key : f.field.key = true) :
    ∃ names, ⟨table ++ "_pk", .primaryKey names⟩ ∈ primaryKey table stored ∧ f.first.name ∈ names := by
  have named : f.first.name ∈ (stored.filter (·.field.key)).map (·.first.name) :=
    List.mem_map_of_mem (List.mem_filter.2 ⟨hf, key⟩)
  unfold primaryKey
  split
  · rename_i none
    rw [none] at named
    exact absurd named List.not_mem_nil
  · exact ⟨_, List.mem_singleton.2 rfl, named⟩

/-- A field that must not be null is checked, unless it is part of the key. -/
theorem StoredField.isSome_notNull? (table : String) (f : StoredField) :
    (f.notNull? table).isSome = (!f.field.key && !f.field.nullable) := by
  unfold notNull?
  cases f.field.key <;> cases f.field.nullable <;> rfl

namespace RecordMapper

/-- A table demands the fields of the key and those that must not be null. -/
theorem demanded_iff {table : String} {fs : List MappedField} {others : List Constraint} {f : MappedField}
    (hf : f ∈ fs) :
    f.Demanded table ((fs.map MappedField.stored).filterMap (StoredField.notNull? table) ++
      Entity.primaryKey table (fs.map MappedField.stored) ++ others) ↔
      f.field.key = true ∨ f.field.nullable = false := by
  have stored : f.stored ∈ fs.map MappedField.stored := List.mem_map_of_mem hf
  constructor
  · rintro (⟨emitted, _⟩ | ⟨key, _, _⟩)
    · have checked := f.stored.isSome_notNull? table
      rw [emitted, Option.isSome_some] at checked
      exact .inr (by simpa [MappedField.stored] using (Bool.and_eq_true_iff.1 checked.symm).2)
    · exact .inl key
  · intro h
    cases key : f.field.key with
    | true =>
      obtain ⟨names, mem, named⟩ := @Entity.mem_primaryKey table _ _ stored key
      exact .primaryKey key (List.mem_append_left _ (List.mem_append_right _ mem)) named
    | false =>
      have needed : f.field.nullable = false := h.resolve_left (by simp [key])
      have checked := f.stored.isSome_notNull? table
      rw [show f.stored.field = f.field from rfl, key, needed] at checked
      obtain ⟨c, emitted⟩ := Option.isSome_iff_exists.1 checked
      refine .check emitted (List.mem_append_left _ (List.mem_append_left _ ?_))
      exact List.mem_filterMap.2 ⟨_, stored, emitted⟩

/-- The entries of a field come after those of the fields before it. -/
theorem entries_of_groups {m : RecordMapper} {fs : List MappedField} {vs : List Value}
    {groups : List (List Entry)}
    (written : List.Forall₂ (fun p es => m.writeField p.1 p.2 = .ok es) (fs.zip vs) groups) {i : Nat}
    {f : MappedField} {v : Value} (hf : fs[i]? = some f) (hv : vs[i]? = some v) :
    ∃ before es after, groups.flatten = before ++ es ++ after ∧ m.writeField f v = .ok es ∧
      before.map (·.column) = (fs.take i).flatMap (·.tree.columns) := by
  induction i generalizing fs vs groups with
  | zero =>
    cases fs with
    | nil => cases hf
    | cons f' fs =>
      cases vs with
      | nil => cases hv
      | cons v' vs =>
        cases hf
        cases hv
        cases written with
        | @cons _ _ _ rest here _ => exact ⟨[], _, rest.flatten, rfl, here, rfl⟩
  | succ i ih =>
    cases fs with
    | nil => cases hf
    | cons f' fs =>
      cases vs with
      | nil => cases hv
      | cons v' vs =>
        cases written with
        | @cons _ es' _ rest here later =>
          obtain ⟨before, es, after, split, written, columns⟩ := ih later hf hv
          refine ⟨es' ++ before, es, after, ?_, written, ?_⟩
          · rw [List.flatten_cons, split, List.append_assoc, List.append_assoc, List.append_assoc]
          · rw [List.map_append, columns, List.take_succ_cons, List.flatMap_cons,
              SegmentTree.columns_of_write (write_of_writeField here)]

theorem ne_null_of_writeField {m : RecordMapper} {f : MappedField} {v : Value} {es : List Entry}
    (h : m.writeField f v = .ok es) (due : f.field.nullable = false) : v ≠ .null := by
  rintro rfl
  rw [writeField, due] at h
  cases h

/-- Where a table demands a field, a row has a value for the field that is not null, and null in its first
column only if a link on the way down to it makes null of a value that is there. With mappers of the four
kinds only composites whose first component is null and conversions do so. A field of the key that is said
to be nullable is left out. -/
theorem toRow_demanded {s : Storage} {e : Entity} {unique : List UniqueDemand} {st : Statement}
    {m : RecordMapper} {values : List Value} {row : Row} (created : e.createTable s unique = .ok st)
    (made : ofEntity s e = .ok m) (written : m.toRow values = .ok row) :
    ∃ list, st.body = .createTable ⟨.ofEntity e, list⟩ ∧
      (∀ f ∈ m.fields, f.Demanded e.tableName list.constraints ↔
        f.field.key = true ∨ f.field.nullable = false) ∧
      ∀ i f v, m.fields[i]? = some f → values[i]? = some v →
        f.Demanded e.tableName list.constraints → ¬ (f.field.key = true ∧ f.field.nullable = true) →
        v ≠ .null ∧ ∃ before entry after, row.entries = before ++ entry :: after ∧
          before.map (·.column) = (m.fields.take i).flatMap (·.tree.columns) ∧
          entry.column = f.tree.firstColumn ∧
          (entry.value = .null → ∃ m' x, f.tree.NullsFirst v m' x) ∧
          (s.registry.HasKinds → ∀ m' x, f.tree.NullsFirst v m' x →
            m'.MakesNull x ∧ entry.value = .null) := by
  obtain ⟨m', constraints, demanded, made', hconstraints, body⟩ := createTable_eq_ok created
  cases made.symm.trans made'
  have demands : ∀ f ∈ m.fields, f.Demanded e.tableName constraints ↔
      f.field.key = true ∨ f.field.nullable = false := fun f hf => hconstraints ▸ demanded_iff hf
  refine ⟨_, body, demands, fun i f v hf hv due apart => ?_⟩
  have mem : f ∈ m.fields := List.mem_of_getElem? hf
  have needed : f.field.nullable = false := by
    rcases (demands f mem).1 due with key | needed
    · simpa [key] using apart
    · exact needed
  obtain ⟨_, groups, entries, fields⟩ := groups_of_toRow written
  obtain ⟨before, es, after, split, here, columns⟩ := entries_of_groups fields hf hv
  have there := ne_null_of_writeField here needed
  refine ⟨there, ?_⟩
  obtain ⟨es₁, es₂, first, _, rfl⟩ := Segment.writeAll_cons (write_of_writeField here)
  obtain ⟨w, others, hw, rfl⟩ := f.tree.first.head_write first
  refine ⟨before, ⟨f.tree.firstColumn, w⟩, others ++ es₂ ++ after, ?_, columns, rfl, fun null => ?_,
    fun kinds m' x nulls => ?_⟩
  · rw [entries, split]
    simp [SegmentTree.firstColumn]
  · cases null
    exact SegmentTree.nullsFirst_of_storedFirst f.tree.first there hw
  · obtain ⟨root, found, grown⟩ := bind_eq_ok.1 (tree_of_mem made mem)
    have registered : m'.HasKind := by
      rcases Registry.mapper_of_applies grown nulls.applies with rfl | ⟨_, found'⟩
      · exact kinds.lookup found
      · exact kinds.lookup found'
    exact ⟨registered.makesNull nulls.applies.ne_null nulls.null,
      Registry.storedFirst_of_nullsFirst kinds grown nulls hw⟩

private def moneyComponents : List Mapper.Component := [⟨"currency", .text⟩, ⟨"amount", .long⟩]

private def moneyLink (index : Nat) (c : Mapper.Component) : Link :=
  Mapper.componentLink (.named "MoneyParts") moneyComponents index c

private def moneyMappers : List (LogicalType × Mapper) :=
  [ (.text, Mapper.scalar .text .text), (.long, Mapper.scalar .long .bigint), (.key, Mapper.key true),
    (.named "MoneyParts", ⟨moneyLink 0 ⟨"currency", .text⟩, [moneyLink 1 ⟨"amount", .long⟩]⟩),
    (.named "Blank", Mapper.convert (.named "Blank") .text (fun _ => .ok .null) .ok) ]

private def bill : Entity :=
  { name := "Bill"
    table := none
    fields :=
      [ ⟨"id", .key, false, true, none⟩, ⟨"total", .named "MoneyParts", false, false, none⟩,
        ⟨"note", .named "Blank", false, false, none⟩ ] }

/-- All fields of a bill, with an amount of no currency. -/
private def billValues : List Value := [.key ⟨1, none⟩, .record [.null, .int 12], .text "paid"]

private theorem hasKinds_moneyMappers : Registry.HasKinds ⟨moneyMappers⟩ := by
  intro e he
  simp only [moneyMappers, List.mem_cons, List.not_mem_nil, or_false] at he
  rcases he with rfl | rfl | rfl | rfl | rfl
  · exact .scalar _ _
  · exact .scalar _ _
  · exact .key _
  · exact @Mapper.HasKind.composite "MoneyParts" moneyComponents _ rfl
  · exact .convert _ _ _ _

/-- A record of which all fields are there, with a composite whose first component is null and a conversion
that gives null. -/
theorem toRow_demanded_bill : ∃ m row,
    ofEntity ⟨⟨moneyMappers⟩, .asIs⟩ bill = .ok m ∧
    m.toRow billValues = .ok row ∧
    ∀ i f v, m.fields[i]? = some f → billValues[i]? = some v →
      v ≠ .null ∧ ∃ before entry after, row.entries = before ++ entry :: after ∧
        before.map (·.column) = (m.fields.take i).flatMap (·.tree.columns) ∧
        entry.column = f.tree.firstColumn ∧
        (entry.value = .null ↔ ∃ m' x, f.tree.NullsFirst v m' x ∧ m'.MakesNull x) := by
  have made : ∃ m st row, ofEntity ⟨⟨moneyMappers⟩, .asIs⟩ bill = .ok m ∧
      bill.createTable ⟨⟨moneyMappers⟩, .asIs⟩ [] = .ok st ∧
      m.toRow billValues = .ok row ∧
      m.fields.all (fun f => !f.field.nullable) = true := ⟨_, _, _, rfl, rfl, rfl, rfl⟩
  obtain ⟨m, st, row, made, created, written, needed⟩ := made
  obtain ⟨list, _, demands, entries⟩ := toRow_demanded created made written
  refine ⟨m, row, made, written, fun i f v hf hv => ?_⟩
  have mem : f ∈ m.fields := List.mem_of_getElem? hf
  have due : f.field.nullable = false := by simpa using List.all_eq_true.1 needed f mem
  obtain ⟨there, before, entry, after, split, columns, first, lost, kept⟩ :=
    entries i f v hf hv ((demands f mem).2 (.inr due)) (by simp [due])
  refine ⟨there, before, entry, after, split, columns, first, fun null => ?_, ?_⟩
  · obtain ⟨m', x, nulls⟩ := lost null
    exact ⟨m', x, nulls, (kept hasKinds_moneyMappers m' x nulls).1⟩
  · rintro ⟨m', x, nulls, _⟩
    exact (kept hasKinds_moneyMappers m' x nulls).2

/-- The table demands that a bill has a currency and a note, and the mapper accepts a bill that is stored
with neither. -/
theorem toRow_null_in_checked : ∃ m st list row,
    ofEntity ⟨⟨moneyMappers⟩, .asIs⟩ bill = .ok m ∧
    bill.createTable ⟨⟨moneyMappers⟩, .asIs⟩ [] = .ok st ∧
    st.body = .createTable ⟨.ofEntity bill, list⟩ ∧
    m.fields.map (·.tree.firstColumn.name) = ["id", "total_currency", "note"] ∧
    ⟨"Bill_total_currency_nn", .check (.isNull (.field (.bare "total_currency")) true)⟩ ∈
      list.constraints ∧
    ⟨"Bill_note_nn", .check (.isNull (.field (.bare "note")) true)⟩ ∈ list.constraints ∧
    m.toRow billValues = .ok row ∧
    row.get? "total_currency" = some .null ∧ row.get? "note" = some .null :=
  ⟨_, _, _, _, rfl, rfl, rfl, rfl, .head _, .tail _ (.head _), rfl, rfl, rfl⟩

end RecordMapper

end Clausal
