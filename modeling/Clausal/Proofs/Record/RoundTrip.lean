import Clausal.Proofs.Record.Standard
import Clausal.Record.Mapper

/-!
# Records and rows

A record that was written into a row is read back from it. The trees of the fields are followed from the
columns upwards: a leaf gives back the stored form that it wrote, a branch the value of the tree below
it, and a chain gets its value from the stored forms of its links. What follows in the row is never
looked at, so every field takes exactly the entries that it wrote.
-/

namespace Clausal

namespace SegmentTree

/-- The chain of links that a tree follows. -/
def chain (t : SegmentTree) : Mapper := ⟨t.first.link, t.siblings.map Segment.link⟩

/-- Writing a value applies a mapper to another value, which is not null. -/
inductive Applies : SegmentTree → Value → Mapper → Value → Prop
  | here {t : SegmentTree} {v : Value} (there : v ≠ .null) : Applies t v t.chain v
  | inside {t sub : SegmentTree} {l : Link} {v w x : Value} {m : Mapper}
      (branch : .branch l sub.first sub.siblings ∈ t.first :: t.siblings)
      (stored : Segment.stored l v = .ok w) (applies : Applies sub w m x) : Applies t v m x

/-- What writing a value goes through can be undone: a conversion gives a value that is not null and from
which its way back gets the converted one, and an identifier that is stored without a revision has none. -/
structure Reversible (t : SegmentTree) (v : Value) : Prop where
  convert : ∀ source target toTarget fromTarget x y,
    t.Applies v (Mapper.convert source target toTarget fromTarget) x → toTarget x = .ok y →
    y ≠ .null ∧ fromTarget y = .ok x
  key : ∀ k, t.Applies v (Mapper.key false) (.key k) → k.revision = none

theorem Applies.ne_null {t : SegmentTree} {v x : Value} {m : Mapper} (h : t.Applies v m x) :
    x ≠ .null := by
  induction h with
  | here there => exact there
  | inside _ _ _ ih => exact ih

theorem Reversible.inside {t sub : SegmentTree} {l : Link} {v w : Value} (h : t.Reversible v)
    (branch : .branch l sub.first sub.siblings ∈ t.first :: t.siblings)
    (stored : Segment.stored l v = .ok w) : sub.Reversible w where
  convert source target f g x y happ hf := h.convert source target f g x y (.inside branch stored happ) hf
  key k happ := h.key k (.inside branch stored happ)

/-- A standard chain gets a value back from what it stores of it. -/
theorem Reversible.restores {t : SegmentTree} {v : Value} (h : t.Reversible v)
    (standard : t.chain.IsStandard) : t.chain.Restores v := by
  refine standard.restores (fun source target f g w hm hv => ?_) (fun k hm hv => ?_)
  · exact h.convert source target f g v w (hm ▸ .here hv)
  · subst hv
    exact h.key k (hm ▸ .here (by simp))

end SegmentTree

namespace Segment

theorem write_leaf {l : Link} {c : Column} {v : Value} {es : List Entry}
    (h : (leaf l c).write v = .ok es) : ∃ w, stored l v = .ok w ∧ es = [⟨c, w⟩] := by
  obtain ⟨w, hw, h⟩ := bind_eq_ok.1 h
  cases h
  exact ⟨w, hw, rfl⟩

theorem write_branch {l : Link} {t : SegmentTree} {v : Value} {es : List Entry}
    (h : (branch l t.first t.siblings).write v = .ok es) :
    ∃ w, stored l v = .ok w ∧ t.write w = .ok es := by
  obtain ⟨w, hw, h⟩ := bind_eq_ok.1 h
  exact ⟨w, hw, h⟩

theorem read_branch (l : Link) (t : SegmentTree) (es : List Entry) :
    (branch l t.first t.siblings).read es = t.read es := by
  obtain ⟨first, siblings⟩ := t
  rw [read, SegmentTree.read]
  cases siblings <;> rfl

theorem writeAll_cons {s : Segment} {ss : List Segment} {v : Value} {es : List Entry}
    (h : writeAll (s :: ss) v = .ok es) :
    ∃ es₁ es₂, s.write v = .ok es₁ ∧ writeAll ss v = .ok es₂ ∧ es = es₁ ++ es₂ := by
  obtain ⟨es₁, h₁, h⟩ := bind_eq_ok.1 h
  obtain ⟨es₂, h₂, h⟩ := bind_eq_ok.1 h
  cases h
  exact ⟨es₁, es₂, h₁, h₂, rfl⟩

/-- A segment reads back the stored form that it wrote of a value, and nothing else. -/
def Returns (s : Segment) (v : Value) : Prop :=
  ∀ es, s.write v = .ok es →
    ∃ w, stored s.link v = .ok w ∧ ∀ rest, s.read (es ++ rest) = .ok (w, rest)

theorem returns_leaf (l : Link) (c : Column) (v : Value) : (leaf l c).Returns v := by
  intro es h
  obtain ⟨w, hw, rfl⟩ := write_leaf h
  refine ⟨w, hw, fun rest => ?_⟩
  rw [read, List.singleton_append, readColumn, if_pos rfl]

theorem returns_branch {l : Link} {t : SegmentTree} {v : Value}
    (h : ∀ w, stored l v = .ok w → ∀ es, t.write w = .ok es →
      ∀ rest, t.read (es ++ rest) = .ok (w, rest)) :
    (branch l t.first t.siblings).Returns v := by
  intro es hes
  obtain ⟨w, hw, ht⟩ := write_branch hes
  refine ⟨w, hw, fun rest => ?_⟩
  rw [read_branch, h w hw es ht rest]

theorem readParts_writeAll {ss : List Segment} {v : Value} {a b : Assembly} {es : List Entry}
    (returns : ∀ s ∈ ss, s.Returns v) (written : writeAll ss v = .ok es)
    (collected : collect v (ss.map link) a = .ok b) (rest : List Entry) :
    readParts ss a (es ++ rest) = .ok (b, rest) := by
  induction ss generalizing a es with
  | nil =>
    cases written
    cases collected
    rfl
  | cons s ss ih =>
    obtain ⟨es₁, es₂, h₁, h₂, rfl⟩ := writeAll_cons written
    obtain ⟨w, hw, hread⟩ := returns s List.mem_cons_self es₁ h₁
    obtain ⟨w', hw', collected⟩ := bind_eq_ok.1 collected
    obtain ⟨a', ha', collected⟩ := bind_eq_ok.1 collected
    have same : w' = w := Except.ok.inj (hw'.symm.trans hw)
    subst same
    rw [readParts, List.append_assoc, hread, ok_bind]
    simp only [ha']
    exact ih (fun s' hs' => returns s' (List.mem_cons_of_mem _ hs')) h₂ collected

end Segment

namespace SegmentTree

open Segment

/-- A tree reads a value back from the entries that it wrote for it, and leaves what follows. -/
def Inverts (t : SegmentTree) (v : Value) : Prop :=
  ∀ es, t.write v = .ok es → ∀ rest, t.read (es ++ rest) = .ok (v, rest)

theorem begin_eq_ok {l : Link} {w : Value} {a b : Assembly} (ha : l.assembly = some a)
    (hb : a.put l.part w = .ok b) : begin l w = .ok b := by
  rw [begin, ha]
  simp only [hb]
  rfl

theorem read_alone {first : Segment} {es rest : List Entry} {v w : Value}
    (hread : first.read es = .ok (w, rest)) (back : restored first.link w = .ok v) :
    (SegmentTree.mk first []).read es = .ok (v, rest) := by
  simp only [read, hread, ok_bind, List.isEmpty_nil, if_true, back, pure_eq_ok]

theorem read_several {first : Segment} {siblings : List Segment} {es es' rest : List Entry}
    {v w : Value} {a b : Assembly} (several : siblings ≠ []) (hread : first.read es = .ok (w, es'))
    (begun : begin first.link w = .ok a) (parts : readParts siblings a es' = .ok (b, rest))
    (built : b.build = .ok v) : (SegmentTree.mk first siblings).read es = .ok (v, rest) := by
  have more : siblings.isEmpty = false := by simpa using several
  simp only [read, hread, ok_bind, more, Bool.false_eq_true, if_false, begun, parts, built]
  rfl

/-- If the segments give back their stored forms and those give back the value, then so does the tree. -/
theorem inverts_of_returns {t : SegmentTree} {v : Value}
    (returns : ∀ s ∈ t.first :: t.siblings, s.Returns v) (restores : t.chain.Restores v) :
    t.Inverts v := by
  intro es written rest
  obtain ⟨first, siblings⟩ := t
  obtain ⟨es₁, es₂, h₁, h₂, rfl⟩ := writeAll_cons written
  obtain ⟨w, hw, hread⟩ := returns first List.mem_cons_self es₁ h₁
  rw [List.append_assoc]
  rcases restores w hw with ⟨alone, back⟩ | ⟨several, a, b, ha, collected, built⟩
  · have none : siblings = [] := List.map_eq_nil_iff.1 alone
    subst none
    cases h₂
    exact read_alone (hread _) back
  · have some : siblings ≠ [] := fun h => several (List.map_eq_nil_iff.2 h)
    obtain ⟨w', hw', collected⟩ := bind_eq_ok.1 collected
    obtain ⟨a', ha', collected⟩ := bind_eq_ok.1 collected
    have same : w' = w := Except.ok.inj (hw'.symm.trans hw)
    subst same
    have parts := readParts_writeAll (fun s hs => returns s (List.mem_cons_of_mem _ hs)) h₂ collected rest
    exact read_several some (hread _) (begin_eq_ok ha ha') parts built

end SegmentTree

namespace Registry

/-- How a link is followed down to its columns, through at most `depth` types. -/
inductive Follows (r : Registry) (depth : Nat) (base : String) : Link → Segment → Prop
  | leaf {l : Link} {type : ColumnType} (target : l.target = .column type) :
      Follows r depth base l (.leaf l ⟨l.columnName base, type⟩)
  | branch {l : Link} {type : LogicalType} {m : Mapper} {t : SegmentTree}
      (target : l.target = .logical type) (child : r.lookup type = .ok m)
      (grown : r.grow depth m (l.columnName base) = .ok t) :
      Follows r depth base l (.branch l t.first t.siblings)

theorem Follows.link_eq {r : Registry} {depth : Nat} {base : String} {l : Link} {s : Segment}
    (h : r.Follows depth base l s) : s.link = l := by
  cases h <;> rfl

theorem Follows.links_eq {r : Registry} {depth : Nat} {base : String} {ls : List Link}
    {ss : List Segment} (h : List.Forall₂ (r.Follows depth base) ls ss) : ss.map Segment.link = ls := by
  induction h with
  | nil => rfl
  | cons hs _ ih => rw [List.map_cons, hs.link_eq, ih]

/-- A link, followed down to its columns. -/
def growLink (r : Registry) (depth : Nat) (base : String) (l : Link) : Except Error Segment :=
  match l.target with
  | .column type => .ok (.leaf l ⟨l.columnName base, type⟩)
  | .logical type => do
    let child ← r.lookup type
    let t ← r.grow depth child (l.columnName base)
    pure (.branch l t.first t.siblings)

theorem grow_succ_eq (r : Registry) (depth : Nat) (m : Mapper) (base : String) :
    r.grow (depth + 1) m base = (do
      let first ← r.growLink depth base m.first
      let siblings ← m.siblings.mapM (r.growLink depth base)
      pure ⟨first, siblings⟩) := rfl

theorem follows_growLink {r : Registry} {depth : Nat} {base : String} {l : Link} {s : Segment}
    (h : r.growLink depth base l = .ok s) : r.Follows depth base l s := by
  unfold growLink at h
  split at h
  · rename_i type target
    cases h
    exact .leaf target
  · rename_i type target
    obtain ⟨child, hchild, h⟩ := bind_eq_ok.1 h
    obtain ⟨t, ht, h⟩ := bind_eq_ok.1 h
    cases h
    exact .branch target hchild ht

theorem grow_succ {r : Registry} {depth : Nat} {m : Mapper} {base : String} {t : SegmentTree}
    (h : r.grow (depth + 1) m base = .ok t) :
    r.Follows depth base m.first t.first ∧
      List.Forall₂ (r.Follows depth base) m.siblings t.siblings := by
  rw [grow_succ_eq] at h
  obtain ⟨first, hfirst, h⟩ := bind_eq_ok.1 h
  obtain ⟨siblings, hsiblings, h⟩ := bind_eq_ok.1 h
  cases h
  exact ⟨follows_growLink hfirst, (mapM_eq_ok.1 hsiblings).imp fun _ _ => follows_growLink⟩

theorem chain_grow {r : Registry} {depth : Nat} {m : Mapper} {base : String} {t : SegmentTree}
    (h : r.grow (depth + 1) m base = .ok t) : t.chain = m := by
  obtain ⟨hfirst, hsiblings⟩ := grow_succ h
  rw [SegmentTree.chain, hfirst.link_eq, Follows.links_eq hsiblings]

/-- The trees of a standard registry invert what they write, however deep they are. -/
theorem inverts_grow {r : Registry} (standard : r.IsStandard) :
    ∀ (depth : Nat) (m : Mapper) (base : String) (t : SegmentTree), m.IsStandard →
      r.grow depth m base = .ok t → ∀ v, t.Reversible v → t.Inverts v := by
  intro depth
  induction depth with
  | zero =>
    intro m base t _ h
    cases h
  | succ depth ih =>
    intro m base t hm h v reversible
    have returns : ∀ l s, r.Follows depth base l s → s ∈ t.first :: t.siblings → s.Returns v := by
      intro l s follows hs
      cases follows with
      | leaf => exact Segment.returns_leaf _ _ v
      | branch target child grown =>
        refine Segment.returns_branch fun w hw => ?_
        exact ih _ _ _ (standard.lookup child) grown w (reversible.inside hs hw)
    obtain ⟨hfirst, hsiblings⟩ := grow_succ h
    refine SegmentTree.inverts_of_returns (fun s hs => ?_)
      (reversible.restores ((chain_grow h).symm ▸ hm))
    rcases List.mem_cons.1 hs with rfl | hmem
    · exact returns _ _ hfirst hs
    · obtain ⟨l, _, follows⟩ := exists_of_mem_right hsiblings hmem
      exact returns l s follows hs

theorem inverts_segmentTree {r : Registry} (standard : r.IsStandard) {type : LogicalType}
    {base : String} {t : SegmentTree} (h : r.segmentTree type base = .ok t) {v : Value}
    (reversible : t.Reversible v) : t.Inverts v := by
  obtain ⟨m, hm, h⟩ := bind_eq_ok.1 h
  exact inverts_grow standard _ m base t (standard.lookup hm) h v reversible

/-- Writing a value applies only the mapper of its type and mappers of the registry. -/
theorem mapper_of_applies {r : Registry} {depth : Nat} {m m' : Mapper} {base : String}
    {t : SegmentTree} {v x : Value} (grown : r.grow depth m base = .ok t) (h : t.Applies v m' x) :
    m' = m ∨ ∃ type, r.lookup type = .ok m' := by
  induction h generalizing depth m base with
  | here there =>
    cases depth with
    | zero => cases grown
    | succ depth => exact .inl (chain_grow grown)
  | @inside t sub l v w x m' branch stored applies ih =>
    cases depth with
    | zero => cases grown
    | succ depth =>
      obtain ⟨hfirst, hsiblings⟩ := grow_succ grown
      have follows : ∃ l', r.Follows depth base l' (.branch l sub.first sub.siblings) := by
        rcases List.mem_cons.1 branch with he | hmem
        · exact ⟨_, he ▸ hfirst⟩
        · obtain ⟨l', _, follows⟩ := exists_of_mem_right hsiblings hmem
          exact ⟨l', follows⟩
      obtain ⟨l', follows⟩ := follows
      generalize hs : Segment.branch l sub.first sub.siblings = s at follows
      cases follows with
      | leaf => cases hs
      | branch target child below =>
        obtain ⟨first, siblings⟩ := sub
        cases hs
        rcases ih below with rfl | registered
        · exact .inr ⟨_, child⟩
        · exact .inr registered

/-- A registry with which nothing can be lost: every conversion can be undone, and identifiers are stored
with their revisions. -/
structure IsLossless (r : Registry) : Prop where
  convert : ∀ e ∈ r.mappers, ∀ source target toTarget fromTarget x y,
    e.2 = Mapper.convert source target toTarget fromTarget → x ≠ .null → toTarget x = .ok y →
    y ≠ .null ∧ fromTarget y = .ok x
  key : ∀ e ∈ r.mappers, e.2 ≠ Mapper.key false

/-- With such a registry every value can be got back. -/
theorem IsLossless.reversible {r : Registry} (lossless : r.IsLossless) {type : LogicalType}
    {base : String} {t : SegmentTree} (h : r.segmentTree type base = .ok t) (v : Value) :
    t.Reversible v := by
  obtain ⟨m, hm, grown⟩ := bind_eq_ok.1 h
  have registered : ∀ m' x, t.Applies v m' x → ∃ e ∈ r.mappers, e.2 = m' := by
    intro m' x applies
    rcases mapper_of_applies grown applies with rfl | ⟨_, found⟩
    · exact mem_of_lookup hm
    · exact mem_of_lookup found
  constructor
  · intro source target f g x y applies hf
    obtain ⟨e, he, same⟩ := registered _ _ applies
    exact lossless.convert e he source target f g x y same applies.ne_null hf
  · intro k applies
    obtain ⟨e, he, same⟩ := registered _ _ applies
    exact absurd same (lossless.key e he)

end Registry

namespace RecordMapper

theorem tree_of_mem {s : Storage} {e : Entity} {m : RecordMapper} (h : ofEntity s e = .ok m)
    {f : MappedField} (hf : f ∈ m.fields) :
    s.registry.segmentTree f.field.type (s.naming.columnName f.field) = .ok f.tree := by
  obtain ⟨fields, hfields, h⟩ := bind_eq_ok.1 h
  cases h
  obtain ⟨field, _, hfield⟩ := exists_of_mem_right (mapM_eq_ok.1 hfields) hf
  obtain ⟨tree, htree, hfield⟩ := bind_eq_ok.1 hfield
  cases hfield
  exact htree

theorem write_of_writeField {m : RecordMapper} {f : MappedField} {v : Value} {es : List Entry}
    (h : m.writeField f v = .ok es) : f.tree.write v = .ok es := by
  unfold writeField at h
  split at h
  · cases h
  · exact lift_eq_ok.1 h

/-- The fields of a row are read one after the other, each from where the one before has stopped. -/
theorem readFields_flatten {m : RecordMapper} {fs : List MappedField} {vs : List Value}
    {groups : List (List Entry)} (count : vs.length = fs.length)
    (written : List.Forall₂ (fun p es => m.writeField p.1 p.2 = .ok es) (fs.zip vs) groups)
    (inverts : ∀ p ∈ fs.zip vs, p.1.tree.Inverts p.2) :
    readFields fs groups.flatten = .ok (vs, []) := by
  induction fs generalizing vs groups with
  | nil =>
    have none : vs = [] := List.length_eq_zero_iff.1 count
    subst none
    cases written
    rfl
  | cons f fs ih =>
    cases vs with
    | nil => cases count
    | cons v vs =>
      cases written with
      | cons hes hrest =>
        have here := inverts (f, v) List.mem_cons_self _ (write_of_writeField hes)
        have there := ih (Nat.succ.inj count) hrest fun p hp => inverts p (List.mem_cons_of_mem _ hp)
        rw [readFields, List.flatten_cons, here, ok_bind]
        simp only [there]
        rfl

/-- A record that was written into a row is read back from it. The row is made of one group of entries for
each field, and reading the field takes its group, whatever follows. -/
theorem fromRow_toRow {s : Storage} {e : Entity} {m : RecordMapper} {values : List Value} {row : Row}
    (standard : s.registry.IsStandard) (made : ofEntity s e = .ok m)
    (reversible : ∀ p ∈ m.fields.zip values, p.1.tree.Reversible p.2)
    (written : m.toRow values = .ok row) :
    m.fromRow row = .ok values ∧
      ∃ groups : List (List Entry), row.entries = groups.flatten ∧
        List.Forall₂ (fun p es => p.1.tree.write p.2 = .ok es ∧
          ∀ rest, p.1.tree.read (es ++ rest) = .ok (p.2, rest)) (m.fields.zip values) groups := by
  have inverts : ∀ p ∈ m.fields.zip values, p.1.tree.Inverts p.2 := fun p hp =>
    Registry.inverts_segmentTree standard (tree_of_mem made (List.of_mem_zip hp).1) (reversible p hp)
  obtain ⟨⟨⟩, checked, written⟩ := bind_eq_ok.1 written
  obtain ⟨groups, hgroups, written⟩ := bind_eq_ok.1 written
  cases written
  have count : values.length = m.fields.length := by
    unfold checkCount at checked
    split at checked
    · assumption
    · cases checked
  have fields := mapM_eq_ok.1 hgroups
  refine ⟨?_, groups, rfl, ?_⟩
  · rw [fromRow]
    simp only [readFields_flatten count fields inverts]
    rfl
  · have both := (List.forall₂_and_left _ _).2 ⟨inverts, fields⟩
    refine both.imp fun p es h => ?_
    have wrote := write_of_writeField h.2
    exact ⟨wrote, h.1 es wrote⟩

/-- A truth value as a number. -/
private def numberOfFlag : Value → Except Error Value
  | .bool b => .ok (.int (if b then 1 else 0))
  | v => .error (.conversion (.named "flag") (.unexpected v.kind))

/-- A number as a truth value. -/
private def flagOfNumber : Value → Except Error Value
  | .int i => .ok (.bool (i == 1))
  | v => .error (.conversion (.named "flag") (.unexpected v.kind))

private theorem flagOfNumber_numberOfFlag {x y : Value} (h : numberOfFlag x = .ok y) :
    y ≠ .null ∧ flagOfNumber y = .ok x := by
  unfold numberOfFlag at h
  split at h
  · rename_i b
    cases h
    cases b <;> exact ⟨by simp, rfl⟩
  · cases h

private def visitComponents : List Mapper.Component := [⟨"of", .key⟩, ⟨"seen", .named "flag"⟩]

private def visitLink (index : Nat) (c : Mapper.Component) : Link :=
  Mapper.componentLink (.named "visit") visitComponents index c

private def visitMappers : List (LogicalType × Mapper) :=
  [ (.long, Mapper.scalar .long .bigint), (.key, Mapper.key true),
    (.named "flag", Mapper.convert (.named "flag") .long numberOfFlag flagOfNumber),
    (.named "visit", ⟨visitLink 0 ⟨"of", .key⟩, [visitLink 1 ⟨"seen", .named "flag"⟩]⟩) ]

private def visitField (name : String) : Field := ⟨name, .named "visit", true, false, none⟩

/-- A composite of an identifier and a converted flag, with a component that is null, and as null. -/
theorem fromRow_toRow_visits :
    ∃ m row,
      ofEntity ⟨⟨visitMappers⟩, .asIs⟩ ⟨"log", none, [visitField "first", visitField "last"]⟩ = .ok m ∧
      m.toRow [.record [.null, .bool true], .null] = .ok row ∧ row.size = 6 ∧
      m.fromRow row = .ok [.record [.null, .bool true], .null] := by
  have standard : Registry.IsStandard ⟨visitMappers⟩ := by
    intro e he
    simp only [visitMappers, List.mem_cons, List.not_mem_nil, or_false] at he
    rcases he with rfl | rfl | rfl | rfl
    · exact .scalar _ _
    · exact .key _
    · exact .convert _ _ _ _
    · exact @Mapper.IsStandard.composite "visit" visitComponents _ (by decide) rfl
  have lossless : Registry.IsLossless ⟨visitMappers⟩ := by
    constructor
    · intro e he source target f g x y same _ hf
      simp only [visitMappers, List.mem_cons, List.not_mem_nil, or_false] at he
      rcases he with rfl | rfl | rfl | rfl
      · cases same
      · cases same
      · cases same
        exact flagOfNumber_numberOfFlag hf
      · exact absurd (congrArg (·.siblings.length) same) (Nat.succ_ne_zero 0)
    · intro e he same
      simp only [visitMappers, List.mem_cons, List.not_mem_nil, or_false] at he
      rcases he with rfl | rfl | rfl | rfl <;> cases same
  have made : ∃ m, ofEntity ⟨⟨visitMappers⟩, .asIs⟩
      ⟨"log", none, [visitField "first", visitField "last"]⟩ = .ok m ∧
      ∃ row, m.toRow [.record [.null, .bool true], .null] = .ok row ∧ row.size = 6 :=
    ⟨_, rfl, _, rfl, rfl⟩
  obtain ⟨m, made, row, written, size⟩ := made
  have back := fromRow_toRow standard made (fun p hp => lossless.reversible
    (tree_of_mem made (List.of_mem_zip hp).1) p.2) written
  exact ⟨m, row, made, written, size, back.1⟩

end RecordMapper

end Clausal
