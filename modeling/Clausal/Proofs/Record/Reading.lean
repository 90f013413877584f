import Clausal.Proofs.Record.RoundTrip

/-!
# Rows are read by their columns

Reading a record takes its entries from one row, through trees of any shape, and may stop early because a
value cannot be converted. Still the names of the columns alone decide which of the three errors about
columns can come up, and where: what was taken before has the names that were due. This holds of every
segment and is kept when segments are read one after the other, so it holds of the record.
-/

namespace Clausal

variable {α β : Type}

def Column.names (cs : List Column) : List String := cs.map (·.name)

def Entry.names (es : List Entry) : List String := es.map (·.column.name)

@[simp] theorem Column.names_append (cs ds : List Column) :
    Column.names (cs ++ ds) = Column.names cs ++ Column.names ds := List.map_append

@[simp] theorem Entry.names_append (es fs : List Entry) :
    Entry.names (es ++ fs) = Entry.names es ++ Entry.names fs := List.map_append

/-- An error that says how the columns of a row differ from those of the record. -/
def RecordError.IsAboutColumns : RecordError → Prop
  | columnMismatch _ _ | missingColumn _ | trailingColumns _ _ => True
  | value _ | missingAssembly _ | invalid _ _ => False

/-- What reading columns with the given names from the given entries may come to. -/
inductive Accounts (names : List String) (entries : List Entry) :
    Except RecordError (α × List Entry) → Prop
  | taken {a : α} {rest : List Entry} (before : List Entry) (split : entries = before ++ rest)
      (same : names = Entry.names before) : Accounts names entries (.ok (a, rest))
  | mismatch {e : Entry} {expected : String} (before rest : List Entry) (due : List String)
      (split : entries = before ++ e :: rest) (same : names = Entry.names before ++ expected :: due)
      (other : e.column.name ≠ expected) :
      Accounts names entries (.error (.columnMismatch expected e.column.name))
  | missing {expected : String} (due : List String) (same : names = Entry.names entries ++ expected :: due) :
      Accounts names entries (.error (.missingColumn expected))
  | other {x : RecordError} (other : ¬ x.IsAboutColumns) : Accounts names entries (.error x)

namespace Accounts

theorem pure (a : α) (entries : List Entry) : Accounts [] entries (.ok (a, entries)) := .taken [] rfl rfl

/-- Columns are accounted for one part after the other. -/
theorem bind {names names' : List String} {entries : List Entry} {x : Except RecordError (α × List Entry)}
    {f : α × List Entry → Except RecordError (β × List Entry)} (first : Accounts names entries x)
    (second : ∀ a rest, x = .ok (a, rest) → Accounts names' rest (f (a, rest))) :
    Accounts (names ++ names') entries (x >>= f) := by
  cases first with
  | @taken a rest before split same =>
    have h := second a rest rfl
    rw [ok_bind]
    subst split same
    generalize f (a, rest) = y at h ⊢
    cases h with
    | taken before' split same =>
      exact .taken (before ++ before') (by rw [split, List.append_assoc])
        (by rw [same, Entry.names_append])
    | mismatch before' rest' due split same other =>
      exact .mismatch (before ++ before') rest' due (by rw [split, List.append_assoc])
        (by rw [same, Entry.names_append, List.append_assoc]) other
    | missing due same => exact .missing due (by rw [same, Entry.names_append, List.append_assoc])
    | other h => exact .other h
  | mismatch before rest due split same other =>
    exact .mismatch before rest (due ++ names') split
      (by rw [same, List.append_assoc, List.cons_append]) other
  | missing due same =>
    exact .missing (due ++ names') (by rw [same, List.append_assoc, List.cons_append])
  | other h => exact .other h

end Accounts

/-- A computation that does not fail because of columns. -/
def Inward (x : Except RecordError α) : Prop := ∀ e, x = .error e → ¬ e.IsAboutColumns

theorem inward_lift (x : Except Error α) : Inward (liftM x : Except RecordError α) := by
  intro e h
  cases x with
  | error y =>
    cases h
    exact id
  | ok a => cases h

/-- What is computed of the values does not touch the columns. -/
theorem Accounts.inward {names : List String} {entries : List Entry} {x : Except RecordError α}
    {f : α → Except RecordError (β × List Entry)} (inward : Inward x)
    (h : ∀ a, Accounts names entries (f a)) : Accounts names entries (x >>= f) := by
  cases x with
  | error e => exact .other (inward e rfl)
  | ok a => exact h a

namespace Segment

theorem inward_restored (l : Link) (v : Value) : Inward (restored l v) := by
  unfold restored
  split
  · exact fun e h => nomatch h
  · exact inward_lift _

theorem inward_begin (l : Link) (v : Value) : Inward (begin l v) := by
  unfold begin
  split
  · intro e h
    cases h
    exact id
  · exact inward_lift _

theorem accounts_readColumn (c : Column) (entries : List Entry) :
    Accounts [c.name] entries (readColumn c entries) := by
  cases entries with
  | nil => exact .missing [] rfl
  | cons e rest =>
    rw [readColumn]
    split
    · rename_i same
      exact .taken [e] rfl (congrArg ([·]) same.symm)
    · rename_i other
      exact .mismatch [] rest [] rfl rfl other

mutual

theorem accounts_read : (s : Segment) → (entries : List Entry) →
    Accounts (Column.names s.columns) entries (s.read entries)
  | leaf _ c, entries => accounts_readColumn c entries
  | branch _ first [], entries => by
    rw [read, columns, Column.names_append]
    refine (accounts_read first entries).bind fun v rest _ => ?_
    exact .inward (inward_restored _ _) fun _ => .pure _ _
  | branch _ first (s :: ss), entries => by
    rw [read, columns, Column.names_append]
    refine (accounts_read first entries).bind fun v rest _ => ?_
    refine .inward (inward_begin _ _) fun a => ?_
    rw [← List.append_nil (Column.names _)]
    refine (accounts_readParts (s :: ss) a rest).bind fun b rest' _ => ?_
    exact .inward (inward_lift _) fun _ => .pure _ _

theorem accounts_readParts : (ss : List Segment) → (a : Assembly) → (entries : List Entry) →
    Accounts (Column.names (columnsAll ss)) entries (readParts ss a entries)
  | [], a, entries => .pure a entries
  | s :: ss, a, entries => by
    rw [readParts, columnsAll, Column.names_append]
    refine (accounts_read s entries).bind fun v rest _ => ?_
    exact .inward (inward_lift _) fun b => accounts_readParts ss b rest

end

end Segment

theorem SegmentTree.accounts_read (t : SegmentTree) (entries : List Entry) :
    Accounts (Column.names t.columns) entries (t.read entries) := by
  -- A tree reads what a branch with this tree below it reads, whatever the link is.
  have h := Segment.accounts_read (.branch t.first.link t.first t.siblings) entries
  rwa [Segment.read_branch] at h

namespace RecordMapper

theorem accounts_readFields (fs : List MappedField) (entries : List Entry) :
    Accounts (Column.names (fs.flatMap (·.tree.columns))) entries (readFields fs entries) := by
  induction fs generalizing entries with
  | nil => exact .pure [] entries
  | cons f fs ih =>
    rw [readFields, List.flatMap_cons, Column.names_append]
    refine (f.tree.accounts_read entries).bind fun v rest _ => ?_
    rw [← List.append_nil (Column.names _)]
    exact (ih rest).bind fun vs rest' _ => .pure _ _

theorem fromRow_eq_ok {m : RecordMapper} {r : Row} {values : List Value} :
    m.fromRow r = .ok values ↔ readFields m.fields r.entries = .ok (values, []) := by
  rw [fromRow, bind_eq_ok]
  constructor
  · rintro ⟨⟨vs, _ | ⟨e, rest⟩⟩, hread, h⟩
    · cases h
      exact hread
    · cases h
  · intro hread
    exact ⟨_, hread, rfl⟩

/-- Reading a row fails in a field, or because there are entries after the last one. -/
theorem fromRow_eq_error {m : RecordMapper} {r : Row} {x : RecordError} :
    m.fromRow r = .error x ↔
      readFields m.fields r.entries = .error x ∨
      ∃ values e rest, readFields m.fields r.entries = .ok (values, e :: rest) ∧
        x = .trailingColumns (rest.length + 1) e.column.name := by
  rw [fromRow, bind_eq_error]
  refine or_congr Iff.rfl ?_
  constructor
  · rintro ⟨⟨vs, _ | ⟨e, rest⟩⟩, hread, h⟩
    · cases h
    · cases h
      exact ⟨vs, e, rest, hread, rfl⟩
  · rintro ⟨vs, e, rest, hread, rfl⟩
    exact ⟨_, hread, rfl⟩

section

variable {m : RecordMapper} {r : Row}

theorem accounts_columns (m : RecordMapper) (r : Row) :
    Accounts (Column.names m.columns) r.entries (readFields m.fields r.entries) :=
  accounts_readFields m.fields r.entries

theorem names_of_ok {values : List Value} (h : m.fromRow r = .ok values) :
    r.names = Column.names m.columns := by
  have accounts := accounts_columns m r
  rw [fromRow_eq_ok.1 h] at accounts
  cases accounts with
  | taken before split same =>
    rw [List.append_nil] at split
    rw [same, ← split]
    rfl

theorem names_of_mismatch {expected found : String}
    (h : m.fromRow r = .error (.columnMismatch expected found)) :
    ∃ before rest due, r.names = before ++ found :: rest ∧
      Column.names m.columns = before ++ expected :: due ∧ found ≠ expected := by
  have accounts := accounts_columns m r
  rcases fromRow_eq_error.1 h with h | ⟨_, _, _, _, h⟩
  · rw [h] at accounts
    cases accounts with
    | @mismatch e _ before rest due split same other =>
      refine ⟨Entry.names before, Entry.names rest, due, ?_, same, other⟩
      rw [Row.names, split, List.map_append, List.map_cons]
      rfl
    | other h => exact absurd trivial h
  · cases h

theorem names_of_missing {expected : String} (h : m.fromRow r = .error (.missingColumn expected)) :
    ∃ due, Column.names m.columns = r.names ++ expected :: due := by
  have accounts := accounts_columns m r
  rcases fromRow_eq_error.1 h with h | ⟨_, _, _, _, h⟩
  · rw [h] at accounts
    cases accounts with
    | missing due same => exact ⟨due, same⟩
    | other h => exact absurd trivial h
  · cases h

theorem names_of_trailing {count : Nat} {first : String}
    (h : m.fromRow r = .error (.trailingColumns count first)) :
    ∃ surplus, r.names = Column.names m.columns ++ first :: surplus ∧
      count = (first :: surplus).length := by
  have accounts := accounts_columns m r
  rcases fromRow_eq_error.1 h with hread | ⟨values, e, rest, hread, hx⟩
  · rw [hread] at accounts
    cases accounts with
    | other h => exact absurd trivial h
  · cases hx
    rw [hread] at accounts
    cases accounts with
    | taken before split same =>
      refine ⟨Entry.names rest, ?_, by simp [Entry.names]⟩
      rw [Row.names, split, List.map_append, List.map_cons, same]
      rfl

end

/-- A row that is read has the columns of the record, by name and in order. Each of the three errors about
columns says exactly where the names of the row leave those of the record, and none of them comes up when
the names are the same. -/
theorem fromRow_names (m : RecordMapper) (r : Row) :
    (∀ values, m.fromRow r = .ok values → r.names = Column.names m.columns) ∧
    (∀ expected found, m.fromRow r = .error (.columnMismatch expected found) →
      ∃ i, r.names.take i = (Column.names m.columns).take i ∧
        (Column.names m.columns)[i]? = some expected ∧ r.names[i]? = some found ∧ found ≠ expected) ∧
    (∀ expected, m.fromRow r = .error (.missingColumn expected) →
      ∃ due, Column.names m.columns = r.names ++ expected :: due) ∧
    (∀ count first, m.fromRow r = .error (.trailingColumns count first) →
      ∃ surplus, r.names = Column.names m.columns ++ first :: surplus ∧
        count = (first :: surplus).length) ∧
    (r.names = Column.names m.columns → ∀ x, m.fromRow r = .error x → ¬ x.IsAboutColumns) := by
  refine ⟨fun _ => names_of_ok, fun expected found h => ?_, fun _ => names_of_missing,
    fun _ _ => names_of_trailing, fun same x h => ?_⟩
  · obtain ⟨before, rest, due, hrow, hcolumns, other⟩ := names_of_mismatch h
    exact ⟨before.length, by simp [hrow, hcolumns], by simp [hcolumns], by simp [hrow], other⟩
  · cases x with
    | columnMismatch expected found =>
      obtain ⟨before, rest, due, hrow, hcolumns, other⟩ := names_of_mismatch h
      rw [hrow, hcolumns] at same
      exact absurd (List.cons.inj (List.append_cancel_left same)).1 other
    | missingColumn expected =>
      obtain ⟨due, hcolumns⟩ := names_of_missing h
      rw [hcolumns] at same
      exact absurd (List.self_eq_append_right.1 same) (List.cons_ne_nil _ _)
    | trailingColumns count first =>
      obtain ⟨surplus, hrow, _⟩ := names_of_trailing h
      rw [hrow] at same
      exact absurd (List.append_right_eq_self.1 same) (List.cons_ne_nil _ _)
    | value error => exact id
    | missingAssembly type => exact id
    | invalid entity fault => exact id

/-- An entity whose first field takes up two columns. -/
private def owned : Entity :=
  ⟨"person", none, [⟨"id", .key, false, true, none⟩, ⟨"name", .text, false, false, none⟩]⟩

/-- A row of numbers with the given names. -/
private def rowNamed (names : List String) : Row := ⟨names.map fun n => ⟨⟨n, .bigint⟩, .int 1⟩⟩

/-- Columns in another order, too few, too many, and the right ones with a value that does not fit. -/
theorem fromRow_names_owned :
    ∃ m, ofEntity ⟨.default, .asIs⟩ owned = .ok m ∧
      (m.fromRow (rowNamed ["id_rev", "id", "name"]) = .error (.columnMismatch "id" "id_rev") ∧
        ∃ i : Nat, (Column.names m.columns)[i]? = some "id" ∧
          (rowNamed ["id_rev", "id", "name"]).names[i]? = some "id_rev") ∧
      (m.fromRow (rowNamed ["id"]) = .error (.missingColumn "id_rev") ∧
        ∃ due, Column.names m.columns = ["id"] ++ "id_rev" :: due) ∧
      (m.fromRow ⟨(rowNamed ["id", "id_rev"]).entries ++
          [⟨⟨"name", .text⟩, .text "Ann"⟩, ⟨⟨"age", .bigint⟩, .null⟩]⟩ =
          .error (.trailingColumns 1 "age") ∧
        ∃ surplus, ["id", "id_rev", "name", "age"] = Column.names m.columns ++ "age" :: surplus) ∧
      ∃ x, m.fromRow (rowNamed ["id", "id_rev", "name"]) = .error x ∧ ¬ x.IsAboutColumns := by
  have made : ∃ m, ofEntity ⟨.default, .asIs⟩ owned = .ok m ∧
      m.fromRow (rowNamed ["id_rev", "id", "name"]) = .error (.columnMismatch "id" "id_rev") ∧
      m.fromRow (rowNamed ["id"]) = .error (.missingColumn "id_rev") ∧
      m.fromRow ⟨(rowNamed ["id", "id_rev"]).entries ++
          [⟨⟨"name", .text⟩, .text "Ann"⟩, ⟨⟨"age", .bigint⟩, .null⟩]⟩ =
        .error (.trailingColumns 1 "age") ∧
      Column.names m.columns = ["id", "id_rev", "name"] ∧
      ∃ x, m.fromRow (rowNamed ["id", "id_rev", "name"]) = .error x :=
    ⟨_, rfl, rfl, rfl, rfl, rfl, _, rfl⟩
  obtain ⟨m, made, swapped, short, long, names, x, refused⟩ := made
  refine ⟨m, made, ⟨swapped, ?_⟩, ⟨short, ?_⟩, ⟨long, ?_⟩, x, refused, ?_⟩
  · obtain ⟨i, _, expected, found, _⟩ := (fromRow_names m _).2.1 _ _ swapped
    exact ⟨i, expected, found⟩
  · exact (fromRow_names m _).2.2.1 _ short
  · obtain ⟨surplus, hrow, _⟩ := (fromRow_names m _).2.2.2.1 _ _ long
    exact ⟨surplus, hrow⟩
  · exact (fromRow_names m _).2.2.2.2 (by rw [names]; rfl) x refused

end RecordMapper

end Clausal
