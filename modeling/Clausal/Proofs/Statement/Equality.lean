import Clausal.Proofs.Statement.Canonical

/-!
# Equal statements

Statements are compared as they are written: what is known of an entity does not matter, and numbers are compared
as numbers. So a body whose literals are finite equals itself, also without what is known of its entities.
-/

namespace Clausal

theorem Binary64.beq_self {x : Binary64} (h : x.isFinite = true) : (x == x) = true := by
  have hnan : x.isNaN = false := by
    have hlt := of_decide_eq_true h
    exact decide_eq_false (Nat.not_lt.2 (Nat.le_of_lt hlt))
  show (!x.isNaN && !x.isNaN && (decide (x = x) || (x.isZero && x.isZero))) = true
  rw [hnan, decide_eq_true rfl]
  rfl

theorem Literal.beq_self {l : Literal} (h : l.IsFinite) : (l == l) = true := by
  cases l with
  | integer i => exact beq_self_eq_true i
  | float x => exact Binary64.beq_self h
  | string s => exact beq_self_eq_true s
  | blob bytes => exact beq_self_eq_true bytes
  | boolean b => exact beq_self_eq_true b
  | null => rfl

private theorem list_beq_self {α : Type} [BEq α] {xs : List α} (h : ∀ x ∈ xs, (x == x) = true) : (xs == xs) = true := by
  induction xs with
  | nil => rfl
  | cons x xs ih =>
    rw [List.cons_beq_cons, h x List.mem_cons_self, ih fun y hy => h y (List.mem_cons_of_mem _ hy)]
    rfl

theorem Expr.beq_self {e : Expr} (h : ∀ l ∈ e.literals, l.IsFinite) : (e == e) = true := by
  show e.equal e = true
  have all : ∀ es : List Expr, (∀ x ∈ es, (∀ l ∈ x.literals, l.IsFinite) → x.equal x = true) →
      (∀ l ∈ literalsAll es, l.IsFinite) → equalAll es es = true := by
    intro es ih h
    induction es with
    | nil => rfl
    | cons x es ihs =>
      simp only [literalsAll, List.forall_mem_append] at h
      rw [equalAll, ih x List.mem_cons_self h.1, ihs (fun y hy => ih y (List.mem_cons_of_mem _ hy)) h.2]
      rfl
  induction e using recurse with
  | literal l =>
    rw [equal]
    exact Literal.beq_self (h l List.mem_cons_self)
  | field p => rw [equal, beq_self_eq_true]
  | param p => rw [equal, beq_self_eq_true]
  | wildcard => rw [equal]
  | binary l op r hl hr =>
    simp only [literals, List.forall_mem_append] at h
    rw [equal, hl h.1, hr h.2, beq_self_eq_true]
    rfl
  | unary op e he =>
    rw [equal, he h, beq_self_eq_true]
    rfl
  | isNull e n he =>
    rw [equal, he h, beq_self_eq_true]
    rfl
  | isIn e es n he hes =>
    simp only [literals, List.forall_mem_append] at h
    rw [equal, he h.1, all es hes h.2, beq_self_eq_true]
    rfl
  | between e l u n he hl hu =>
    simp only [literals, List.forall_mem_append] at h
    rw [equal, he h.1.1, hl h.1.2, hu h.2, beq_self_eq_true]
    rfl
  | call f es d hes =>
    rw [equal, all es hes h, beq_self_eq_true, beq_self_eq_true]
    rfl

private theorem exprs_beq_self {es : List Expr} (h : ∀ e ∈ es, ∀ l ∈ e.literals, l.IsFinite) : (es == es) = true :=
  list_beq_self fun e he => Expr.beq_self (h e he)

private theorem selection_beq_self {s : Selection} (h : ∀ e ∈ s.exprs, ∀ l ∈ e.literals, l.IsFinite) :
    (s == s) = true := by
  cases s with
  | all => rfl
  | values es => exact exprs_beq_self h
  | construct name es => exact Bool.and_eq_true_iff.2 ⟨beq_self_eq_true name, exprs_beq_self h⟩

private theorem filter_beq_self {f : Filter} (h : ∀ e ∈ f.predicates, ∀ l ∈ e.literals, l.IsFinite) :
    (f == f) = true := by
  cases f with
  | unsatisfiable => rfl
  | all ps => exact exprs_beq_self h

private theorem terms_beq_self {ts : List OrderTerm} (h : ∀ e ∈ ts.map (·.expr), ∀ l ∈ e.literals, l.IsFinite) :
    (ts == ts) = true :=
  list_beq_self fun t ht => Bool.and_eq_true_iff.2
    ⟨Expr.beq_self (h t.expr (List.mem_map_of_mem ht)), beq_self_eq_true t.direction⟩

private theorem assignments_beq_self {as : List Assignment}
    (h : ∀ e ∈ as.map (·.value), ∀ l ∈ e.literals, l.IsFinite) : (as == as) = true :=
  list_beq_self fun a ha => Bool.and_eq_true_iff.2
    ⟨beq_self_eq_true a.path, Expr.beq_self (h a.value (List.mem_map_of_mem ha))⟩

private theorem constraints_beq_self {cs : List Constraint}
    (h : ∀ e ∈ cs.filterMap Body.checkedExpr?, ∀ l ∈ e.literals, l.IsFinite) : (cs == cs) = true := by
  refine list_beq_self fun c hc => ?_
  obtain ⟨name, kind⟩ := c
  refine Bool.and_eq_true_iff.2 ⟨beq_self_eq_true name, ?_⟩
  cases kind with
  | primaryKey names => exact beq_self_eq_true names
  | unique names => exact beq_self_eq_true names
  | check e => exact Expr.beq_self (h e (List.mem_filterMap.2 ⟨_, hc, rfl⟩))

namespace Body

/-- The body without what is known of its entities. -/
def withoutTemplates : Body → Body
  | select s => .select { s with sources := s.sources.withoutTemplates }
  | insert s => .insert { s with target := s.target.withoutTemplate }
  | update s => .update { s with target := s.target.withoutTemplate }
  | delete s => .delete { s with sources := s.sources.withoutTemplates }
  | createTable s => .createTable { s with target := s.target.withoutTemplate }
  | createIndex s => .createIndex { s with target := s.target.withoutTemplate }

section Entities

variable (f : EntityRef → EntityRef)

private def mapSources (s : Sources) : Sources := ⟨f s.primary, s.others.map f⟩

private def mapEntities : Body → Body
  | select s => .select { s with sources := mapSources f s.sources }
  | insert s => .insert { s with target := f s.target }
  | update s => .update { s with target := f s.target }
  | delete s => .delete { s with sources := mapSources f s.sources }
  | createTable s => .createTable { s with target := f s.target }
  | createIndex s => .createIndex { s with target := f s.target }

variable {f} (hf : ∀ e, (f e == e) = true)

include hf

private theorem mapSources_beq (s : Sources) : (mapSources f s == s) = true := by
  have others : ∀ es : List EntityRef, (es.map f == es) = true := by
    intro es
    induction es with
    | nil => rfl
    | cons e es ih =>
      rw [List.map_cons, List.cons_beq_cons, hf, ih]
      rfl
  exact Bool.and_eq_true_iff.2 ⟨hf s.primary, others s.others⟩

/-- References that are written alike do not matter, and all other parts equal themselves. -/
private theorem mapEntities_beq {b : Body} (h : ∀ e ∈ b.exprs, ∀ l ∈ e.literals, l.IsFinite) :
    (b.mapEntities f == b) = true := by
  cases b with
  | select s =>
    simp only [exprs, List.forall_mem_append] at h
    obtain ⟨⟨⟨hselection, hfilter⟩, hhaving⟩, horder⟩ := h
    show ((s.projection.distinct == s.projection.distinct && s.projection.selection == s.projection.selection) &&
      (mapSources f s.sources == s.sources && (s.filter == s.filter && (s.groupBy == s.groupBy &&
        (s.having == s.having && (s.orderBy == s.orderBy && (s.limit == s.limit && s.offset == s.offset)))))))
      = true
    rw [selection_beq_self hselection, filter_beq_self hfilter, filter_beq_self hhaving, terms_beq_self horder,
      mapSources_beq hf]
    simp only [beq_self_eq_true, Bool.and_self]
  | insert s =>
    show (s.mode == s.mode && (f s.target == s.target && s.values == s.values)) = true
    rw [assignments_beq_self h, hf, beq_self_eq_true]
    rfl
  | update s =>
    simp only [exprs, List.forall_mem_append] at h
    show (f s.target == s.target && (s.assignments == s.assignments && s.filter == s.filter)) = true
    rw [assignments_beq_self h.1, filter_beq_self h.2, hf]
    rfl
  | delete s =>
    show (mapSources f s.sources == s.sources && s.filter == s.filter) = true
    rw [filter_beq_self h, mapSources_beq hf]
    rfl
  | createTable s =>
    show (f s.target == s.target && (s.columns.groups == s.columns.groups &&
      (s.columns.constraints == s.columns.constraints && s.columns.asWritten == s.columns.asWritten))) = true
    rw [constraints_beq_self h, hf, beq_self_eq_true, beq_self_eq_true]
    rfl
  | createIndex s =>
    show (s.head == s.head && (f s.target == s.target && s.paths == s.paths)) = true
    rw [hf, beq_self_eq_true, beq_self_eq_true]
    rfl

end Entities

theorem withoutTemplates_beq {b : Body} (h : ∀ e ∈ b.exprs, ∀ l ∈ e.literals, l.IsFinite) :
    (b.withoutTemplates == b) = true := by
  have hmap : b.withoutTemplates = b.mapEntities EntityRef.withoutTemplate := by cases b <;> rfl
  rw [hmap]
  exact mapEntities_beq EntityRef.withoutTemplate_equal h

theorem beq_self {b : Body} (h : ∀ e ∈ b.exprs, ∀ l ∈ e.literals, l.IsFinite) : (b == b) = true := by
  have hself : ∀ e : EntityRef, (id e == e) = true :=
    fun e => Bool.and_eq_true_iff.2 ⟨beq_self_eq_true e.name, beq_self_eq_true e.aliasName⟩
  have hsources : ∀ s : Sources, mapSources id s = s := fun s => congrArg (Sources.mk s.primary) s.others.map_id
  have hmap : b.mapEntities id = b := by
    cases b with
    | select s | delete s => rw [mapEntities, hsources]
    | _ => rfl
  have hsame := mapEntities_beq hself h
  rwa [hmap] at hsame

end Body

/-- A statement equals itself, since the numbers in it are finite. -/
theorem Statement.beq_self (s : Statement) : (s == s) = true :=
  Body.beq_self fun _ he _ hl => Body.isFinite_of_check s.sound he hl

end Clausal
