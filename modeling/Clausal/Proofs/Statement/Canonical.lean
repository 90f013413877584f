import Clausal.Proofs.Clause.Assignment
import Clausal.Proofs.Parse.Expr
import Clausal.Proofs.Statement.Aliases
import Clausal.Proofs.Statement.WellFormed
import Clausal.Statement.Render

/-!
# What a statement is read back as

The text of a statement does not say everything: what is known of its entities, which assignments were replaced by
later ones, the alias of a table and how its columns were grouped are lost, and its constraints are put in order.
What is read back is the body without all this. Its aliases are those of the statement.
-/

namespace Clausal

/-! ### Paths -/

namespace Path

theorem reread_parts (m : Aliases) {p : Path} (h : p.parts ≠ []) : (p.reread m).parts = p.parts := by
  unfold reread resolve
  cases hparts : p.parts with
  | nil => exact absurd hparts h
  | cons s rest =>
    simp only
    split <;> rfl

/-- A resolved path is read back as it is. -/
theorem Resolved.reread_eq {m : Aliases} {p : Path} (h : p.Resolved m) (hparts : p.parts ≠ []) : p.reread m = p := by
  obtain ⟨qualifier, segments⟩ := p
  cases qualifier with
  | some a =>
    have hbound : m.contains a = true := h
    simp only [reread, parts, Option.toList_some, List.singleton_append, resolve, hbound, if_true]
  | none =>
    cases segments with
    | nil => exact absurd rfl hparts
    | cons s rest =>
      have hfree : m.contains s = false := h s rfl
      simp only [reread, parts, Option.toList_none, List.nil_append, resolve, hfree, Bool.false_eq_true, if_false]

/-- A path that was read is resolved. -/
theorem resolved_resolve (m : Aliases) (segments : List String) : (resolve m ⟨none, segments⟩).Resolved m := by
  unfold resolve
  split
  · rename_i s rest heq
    split
    · rename_i hbound
      exact hbound
    · rename_i hfree
      cases heq
      intro t ht
      cases ht
      exact Bool.not_eq_true _ ▸ hfree
  · rename_i hnil
    cases segments with
    | nil => exact fun s hs => by cases hs
    | cons s rest => exact absurd rfl (hnil s rest)

theorem Resolved.congr {m n : Aliases} (hmn : ∀ a, n.contains a = m.contains a) {p : Path} (h : p.Resolved m) :
    p.Resolved n := by
  unfold Resolved at *
  split at h
  · rw [hmn]
    exact h
  · exact fun s hs => (hmn s).trans (h s hs)

theorem reread_empty (p : Path) : p.reread .empty = ⟨none, p.parts⟩ := by
  unfold reread resolve
  split
  · rename_i s rest _
    have free : (Dictionary.empty : Aliases).contains s = false := rfl
    rw [free, if_neg Bool.false_ne_true]
  · rfl

end Path

theorem Expr.literals_mapPaths (f : Path → Path) (e : Expr) : (e.mapPaths f).literals = e.literals := by
  have all : ∀ es : List Expr, (∀ x ∈ es, (x.mapPaths f).literals = x.literals) →
      literalsAll (mapPathsAll f es) = literalsAll es := by
    intro es ih
    rw [literalsAll_eq_flatMap, literalsAll_eq_flatMap, mapPathsAll_eq_map, List.flatMap_map]
    exact List.flatMap_congr ih
  induction e using recurse with
  | literal l => rfl
  | field p => rfl
  | param p => rfl
  | wildcard => rfl
  | binary l op r hl hr => simp only [mapPaths, literals, hl, hr]
  | unary op e he => simp only [mapPaths, literals, he]
  | isNull e n he => simp only [mapPaths, literals, he]
  | isIn e es n he hes => simp only [mapPaths, literals, he, all es hes]
  | between e l u n he hl hu => simp only [mapPaths, literals, he, hl, hu]
  | call f es d hes => simp only [mapPaths, literals, all es hes]

/-- The paths of a well-formed expression are not empty. -/
theorem Expr.WellFormed.path {e : Expr} (h : e.WellFormed) {p : Path} (hp : p ∈ e.paths) : p.WellFormed := by
  have all : ∀ es : List Expr, (∀ x ∈ es, x.WellFormed → p ∈ x.paths → p.WellFormed) → AllWellFormed es →
      p ∈ pathsAll es → p.WellFormed := by
    intro es ih h hp
    rw [pathsAll_eq_flatMap] at hp
    obtain ⟨x, hx, hp⟩ := List.mem_flatMap.1 hp
    exact ih x hx (allWellFormed_iff.1 h x hx) hp
  induction e using recurse with
  | literal l => exact absurd hp List.not_mem_nil
  | field q =>
    rw [List.mem_singleton.1 hp]
    exact h
  | param q => exact absurd hp List.not_mem_nil
  | wildcard => exact absurd hp List.not_mem_nil
  | binary l op r hl hr => exact (List.mem_append.1 hp).elim (hl h.1) (hr h.2)
  | unary op e he => exact he h hp
  | isNull e n he => exact he h hp
  | isIn e es n he hes => exact (List.mem_append.1 hp).elim (he h.1) (all es hes h.2.2)
  | between e l u n he hl hu =>
    rcases List.mem_append.1 hp with hp | hp
    · exact (List.mem_append.1 hp).elim (he h.1) (hl h.2.1)
    · exact hu h.2.2 hp
  | call f es d hes => exact all es hes h.2 hp

theorem Expr.mapPaths_reread {m : Aliases} {e : Expr} (h : e.WellFormed) (hresolved : ∀ p ∈ e.paths, p.Resolved m) :
    e.mapPaths (Path.reread m) = e :=
  (mapPaths_congr e fun p hp => (hresolved p hp).reread_eq (h.path hp).1).trans e.mapPaths_id

/-! ### Entities -/

namespace EntityRef

/-- The entity as far as the text tells. -/
def withoutTemplate (e : EntityRef) : EntityRef := ⟨.opaqueNamed e.name, e.name, e.aliasName⟩

theorem withoutTemplate_equal (e : EntityRef) : (e.withoutTemplate == e) = true := by
  show (e.name == e.name && e.aliasName == e.aliasName) = true
  rw [beq_self_eq_true, beq_self_eq_true]
  rfl

end EntityRef

/-- The entities as far as the text tells. -/
def Sources.withoutTemplates (s : Sources) : Sources :=
  ⟨s.primary.withoutTemplate, s.others.map EntityRef.withoutTemplate⟩

theorem Sources.all_withoutTemplates (s : Sources) : s.withoutTemplates.all = s.all.map EntityRef.withoutTemplate := rfl

/-- The same aliases can be bound to other entities. -/
theorem Body.bindAll_withoutTemplate {refs : List EntityRef} {m m' n : Aliases} (h : bindAll m refs = .ok m')
    (hmn : ∀ a, n.contains a = m.contains a) :
    ∃ n', bindAll n (refs.map EntityRef.withoutTemplate) = .ok n' ∧ ∀ a, n'.contains a = m'.contains a := by
  induction refs generalizing m n with
  | nil =>
    cases h
    exact ⟨n, rfl, hmn⟩
  | cons r refs ih =>
    rw [List.map_cons]
    rcases bindAll_cons h with ⟨hnone, h⟩ | ⟨a, ha, hfree, h⟩
    · obtain ⟨n', hn', hsame⟩ := ih h hmn
      refine ⟨n', ?_, hsame⟩
      rw [bindAll]
      simp only [EntityRef.withoutTemplate, hnone]
      exact hn'
    · obtain ⟨n', hn', hsame⟩ := ih (n := n.insert a (.opaqueNamed r.name)) h fun b => by
        rw [Aliases.contains_insert, Aliases.contains_insert, hmn]
      refine ⟨n', ?_, hsame⟩
      have hbind : n.bind a (.opaqueNamed r.name) = .ok (n.insert a (.opaqueNamed r.name)) :=
        Aliases.bind_eq_ok_iff.2 ⟨(hmn a).trans hfree, rfl⟩
      rw [bindAll]
      simp only [EntityRef.withoutTemplate, ha, hbind]
      exact hn'

/-! ### Bodies -/

/-- The columns as they are read from the text: each is a field of its own, and no path has an alias. -/
def ColumnList.reread (l : ColumnList) : ColumnList :=
  ⟨(l.sortedGroups.flatMap (·.columns)).map fun c => ⟨.bare c.name, [c]⟩,
    mapPaths (Path.reread .empty) l.sortedConstraints, true⟩

/-- The body as it is read from the text. -/
def Body.reread : Body → Body
  | select s => .select { s with sources := s.sources.withoutTemplates }
  | insert s => .insert ⟨s.mode, s.target.withoutTemplate, Assignment.effective s.values⟩
  | update s => .update ⟨s.target.withoutTemplate, Assignment.effective s.assignments, s.filter⟩
  | delete s => .delete ⟨s.sources.withoutTemplates, s.filter⟩
  | createTable s => .createTable ⟨⟨.opaqueNamed s.target.name, s.target.name, none⟩, s.columns.reread⟩
  | createIndex s => .createIndex { s with target := s.target.withoutTemplate }

end Clausal
