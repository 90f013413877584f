import Clausal.Proofs.Parse.Clauses
import Clausal.Proofs.Parse.GivenExpr

/-!
# What reading clauses gives

Whatever is read as part of a statement can be written, and its paths are as they are read. Entities bind the
aliases that they have, and nothing else does.
-/

namespace Clausal

/-- A selection of what is read. -/
def Selection.IsRead (m : Aliases) (s : Selection) : Prop := s.WellFormed ∧ ∀ e ∈ s.exprs, e.IsRead m

/-- An assignment of what is read. -/
def Assignment.IsRead (m : Aliases) (a : Assignment) : Prop := a.path.IsRead m ∧ a.value.IsRead m

/-- The conditions can be written, and they are what is read. -/
def Filter.IsRead (m : Aliases) (f : Filter) : Prop := f.Reached ∧ ∀ e ∈ f.predicates, e.IsRead m

theorem Expr.IsRead.simplify {m : Aliases} {e : Expr} (h : e.IsRead m) : e.simplify.IsRead m :=
  ⟨h.1.simplify, fun p hp => h.2 p (paths_simplify hp)⟩

theorem Expr.IsRead.conjuncts {m : Aliases} {e x : Expr} (h : e.IsRead m) (hx : x ∈ e.conjuncts) : x.IsRead m :=
  ⟨h.1.conjuncts hx, fun p hp => h.2 p (paths_conjuncts hx hp)⟩

namespace Parse

open Token (Kind)

/-! ### Entities -/

/-- An entity that is read: nothing is known of it but its name, and its alias is bound. -/
def BoundRef (m : Aliases) (e : EntityRef) (m' : Aliases) : Prop :=
  Body.bindAll m [e] = .ok m' ∧ e.WellFormed ∧ e.withoutTemplate = e

private theorem gives_bindAlias {known : List Token → Prop} {name : String} {e : Entity} (span : Span) {m : Aliases} :
    Gives known (bindAlias name e span) m fun _ m' => m.bind name e = .ok m' := by
  intro c x c' hc hknown hrun
  subst hc
  obtain ⟨aliases, hbind, rfl⟩ := bindAlias_eq_ok hrun
  exact ⟨hknown, hbind⟩

private theorem bindAll_of_bound {m m' m'' : Aliases} {e : EntityRef} {es : List EntityRef}
    (h : Body.bindAll m [e] = .ok m') (h' : Body.bindAll m' es = .ok m'') : Body.bindAll m (e :: es) = .ok m'' := by
  rcases Body.bindAll_cons h with ⟨hnone, hdone⟩ | ⟨a, ha, hfree, hdone⟩
  · cases hdone
    simp only [Body.bindAll, hnone, h']
  · cases hdone
    simp only [Body.bindAll, ha, Aliases.bind_eq_ok_iff.2 ⟨hfree, rfl⟩, h']

private theorem boundRefs {m m' : Aliases} {es : List EntityRef} (h : Chain BoundRef m es m') :
    Body.bindAll m es = .ok m' ∧ ∀ e ∈ es, e.WellFormed ∧ e.withoutTemplate = e := by
  induction h with
  | nil m => exact ⟨rfl, fun e he => absurd he List.not_mem_nil⟩
  | cons he _ ih => exact ⟨bindAll_of_bound he.1 ih.1, List.forall_mem_cons.2 ⟨he.2, ih.2⟩⟩

section

variable {known : List Token → Prop} (hkept : Kept known)

include hkept

/-! ### Paths -/

private theorem moreSegments_good {ts : List Token} (h : known ts) :
    known (moreSegments ts).2 ∧ "" ∉ (moreSegments ts).1 := by
  fun_induction moreSegments ts with
  | case1 span name span' rest segments rest' hmore ih =>
    have hname : Kind.Sane (.identifier name) := hkept.sane (hkept.tail h)
    obtain ⟨hrest, hsegments⟩ := ih (hkept.tail (hkept.tail h))
    rw [hmore] at hrest hsegments
    exact ⟨hrest, List.not_mem_cons_of_ne_of_not_mem (Ne.symm hname) hsegments⟩
  | case2 ts => exact ⟨h, List.not_mem_nil⟩

theorem Gives.path (m : Aliases) : Gives known Parse.path m fun p m' => m' = m ∧ p.IsRead m := by
  refine (Gives.identifier hkept).bind ?_
  rintro name m' ⟨rfl, hname⟩
  refine Gives.bind (?_ : Gives known _ m' fun segments m'' => m'' = m' ∧ "" ∉ segments) ?_
  · intro c segments c' hc hknown hrun
    cases hrun
    obtain ⟨hrest, hsegments⟩ := moreSegments_good hkept hknown
    exact ⟨hrest, hc, hsegments⟩
  rintro segments m' ⟨rfl, hsegments⟩
  refine (Gives.eat hkept _).bind ?_
  rintro dot m' rfl
  cases dot with
  | true => exact .unexpected_bind _
  | false =>
    refine Gives.get.bind ?_
    rintro c m' ⟨rfl, hc⟩
    refine .pure ⟨rfl, name :: segments, ⟨List.cons_ne_nil _ _, ?_⟩, by rw [hc]⟩
    exact List.not_mem_cons_of_ne_of_not_mem (Ne.symm hname) hsegments

theorem Gives.pathList (m : Aliases) :
    Gives known Parse.pathList m fun ps m' => m' = m ∧ ps ≠ [] ∧ ∀ p ∈ ps, p.IsRead m :=
  Gives.commaList_same hkept (Gives.path hkept) m

/-! ### Bound entities -/

theorem Gives.entityRef (m : Aliases) : Gives known (Parse.entityRef .empty) m (BoundRef m) := by
  refine (Gives.identifier hkept).bind ?_
  rintro name m' ⟨rfl, hname⟩
  refine (Gives.eat hkept _).bind ?_
  rintro introduced m' rfl
  refine Gives.place.bind ?_
  rintro position m' rfl
  refine (Gives.peek hkept).bind ?_
  rintro k m' ⟨rfl, hk⟩
  split
  · rename_i aliasName
    refine (Gives.skip hkept).bind ?_
    rintro _ m' rfl
    refine (gives_bindAlias position).bind fun _ m'' hbind => .pure ⟨?_, ⟨hname, ?_⟩, rfl⟩
    · simp only [Body.bindAll, hbind]
    · exact fun he => hk (Option.some.inj he)
  · cases introduced with
    | true => exact .unexpected_bind _
    | false => exact .pure ⟨rfl, ⟨hname, by simp⟩, rfl⟩

theorem Gives.sources (m : Aliases) :
    Gives known (Parse.sources .empty) m fun s m' =>
      Body.bindAll m s.all = .ok m' ∧ (∀ e ∈ s.all, e.WellFormed) ∧ s.withoutTemplates = s := by
  refine (Gives.entityRef hkept m).bind fun primary m₁ hprimary => ?_
  refine (Gives.moreItems hkept (Gives.entityRef hkept) m₁).bind fun others m₂ hothers => .pure ?_
  obtain ⟨hbind, hall⟩ := boundRefs (.cons hprimary hothers)
  refine ⟨hbind, fun e he => (hall e he).1, ?_⟩
  have hmap : others.map EntityRef.withoutTemplate = others := by
    rw [List.map_congr_left (g := id), List.map_id]
    exact fun e he => (hall e (List.mem_cons_of_mem _ he)).2
  rw [Sources.withoutTemplates, hprimary.2.2, hmap]

/-! ### Conditions, counts and lists -/

theorem Gives.filter (k : Keyword) (m : Aliases) :
    Gives known (Parse.filter k) m fun f m' => m' = m ∧ f.IsRead m := by
  refine (Gives.eat hkept _).bind ?_
  rintro found m' rfl
  cases found with
  | true =>
    refine (Gives.expression hkept m').bind ?_
    rintro e m' ⟨rfl, he⟩
    refine .pure ⟨rfl, ⟨[e], rfl⟩, fun x hx => ?_⟩
    rcases Filter.mem_and hx with hx | hx
    · exact absurd hx List.not_mem_nil
    · exact he.simplify.conjuncts hx
  | false => exact .pure ⟨rfl, ⟨[], rfl⟩, fun x hx => absurd hx List.not_mem_nil⟩

theorem Gives.count (k : Keyword) (m : Aliases) : Gives known (Parse.count k) m fun _ m' => m' = m := by
  refine (Gives.eat hkept _).bind ?_
  rintro found m' rfl
  cases found with
  | true =>
    refine (Gives.integer hkept).bind ?_
    rintro n m' rfl
    exact .pure rfl
  | false => exact .pure rfl

theorem Gives.listBy {α : Type} {items : Parser (List α)} {P : α → Prop} (k : Keyword) {m : Aliases}
    (h : Gives known items m fun xs m' => m' = m ∧ ∀ x ∈ xs, P x) :
    Gives known (Parse.listBy k items) m fun xs m' => m' = m ∧ ∀ x ∈ xs, P x := by
  refine (Gives.eat hkept _).bind ?_
  rintro found m' rfl
  cases found with
  | true =>
    refine (Gives.keyword hkept _).bind ?_
    rintro _ m' rfl
    exact h
  | false => exact .pure ⟨rfl, fun x hx => absurd hx List.not_mem_nil⟩

theorem Gives.orderTerm (m : Aliases) :
    Gives known Parse.orderTerm m fun t m' => m' = m ∧ t.expr.IsRead m := by
  refine (Gives.expression hkept m).bind ?_
  rintro e m' ⟨rfl, he⟩
  refine (Gives.eat hkept _).bind ?_
  rintro descending m' rfl
  cases descending with
  | true => exact .pure ⟨rfl, he⟩
  | false =>
    have hasc : Gives known (discard (eatKeyword .asc)) m' fun _ m'' => m'' = m' := by
      rw [discard_eq_bind]
      refine (Gives.eat hkept _).bind ?_
      rintro _ m'' rfl
      exact .pure rfl
    refine hasc.bind ?_
    rintro _ m'' rfl
    exact .pure ⟨rfl, he⟩

/-! ### Assignments -/

theorem Gives.assignment (m : Aliases) :
    Gives known Parse.assignment m fun a m' => m' = m ∧ a.IsRead m := by
  refine (Gives.path hkept m).bind ?_
  rintro p m' ⟨rfl, hp⟩
  refine (Gives.symbol hkept _).bind ?_
  rintro _ m' rfl
  refine (Gives.expression hkept m').bind ?_
  rintro e m' ⟨rfl, he⟩
  exact .pure ⟨rfl, hp, he⟩

theorem Gives.assignments (m : Aliases) :
    Gives known Parse.assignments m fun as m' => m' = m ∧ ∀ a ∈ as, a.IsRead m := by
  refine (Gives.eat hkept _).bind ?_
  rintro found m' rfl
  cases found with
  | true => exact (Gives.commaList_same hkept (Gives.assignment hkept) m').mono fun _ _ h => ⟨h.1, h.2.2⟩
  | false => exact .pure ⟨rfl, fun x hx => absurd hx List.not_mem_nil⟩

theorem Gives.insertedValues (m : Aliases) :
    Gives known Parse.insertedValues m fun as m' => m' = m ∧ ∀ a ∈ as, a.IsRead m := by
  refine Gives.place.bind ?_
  rintro opening m' rfl
  refine (Gives.parenthesized hkept (Gives.pathList hkept m')).bind ?_
  rintro ps m' ⟨rfl, -, hps⟩
  refine (Gives.keyword hkept _).bind ?_
  rintro _ m' rfl
  refine (Gives.symbol hkept _).bind ?_
  rintro _ m' rfl
  refine (Gives.commaList_same hkept (Gives.expression hkept) m').bind ?_
  rintro es m' ⟨rfl, -, hes⟩
  refine Gives.place.bind ?_
  rintro closing m' rfl
  refine (Gives.symbol hkept _).bind ?_
  rintro _ m' rfl
  split
  · refine .pure ⟨rfl, fun a ha => ?_⟩
    rw [← List.map_uncurry_zip_eq_zipWith] at ha
    obtain ⟨⟨p, e⟩, hmem, rfl⟩ := List.mem_map.1 ha
    obtain ⟨hp, he⟩ := List.of_mem_zip hmem
    exact ⟨hps p hp, hes e he⟩
  · exact .fail_bind _ _

/-! ### Selections -/

/-- What is selected can be written, and its paths have no alias yet. -/
def Selected.Good : Selected → Prop
  | star | entity .. => True
  | given s => s.IsRead .empty

private theorem gives_arguments (m : Aliases) :
    Gives known arguments m fun es m' => m' = m ∧ ∀ e ∈ es, e.IsRead m := by
  refine (Gives.symbol hkept _).bind ?_
  rintro _ m' rfl
  refine (Gives.eat hkept _).bind ?_
  rintro closed m' rfl
  cases closed with
  | true => exact .pure ⟨rfl, fun x hx => absurd hx List.not_mem_nil⟩
  | false =>
    refine (Gives.commaList_same hkept (Gives.expression hkept) m').bind ?_
    rintro es m' ⟨rfl, -, hes⟩
    refine (Gives.symbol hkept _).bind ?_
    rintro _ m' rfl
    exact .pure ⟨rfl, hes⟩

theorem Gives.selected : Gives known Parse.selected .empty fun list m' => m' = .empty ∧ list.Good := by
  refine Gives.place.bind ?_
  rintro position m' rfl
  refine (Gives.peek hkept).bind ?_
  rintro k m' ⟨rfl, hk⟩
  split
  · refine (Gives.skip hkept).bind ?_
    rintro _ m' rfl
    exact .pure ⟨rfl, trivial⟩
  · refine (Gives.skip hkept).bind ?_
    rintro _ m' rfl
    exact .pure ⟨rfl, trivial⟩
  · refine (Gives.parenthesized hkept (Gives.commaList_same hkept (Gives.expression hkept) _)).bind ?_
    rintro es m' ⟨rfl, hne, hes⟩
    exact .pure ⟨rfl, ⟨hne, fun e he => (hes e he).1⟩, hes⟩
  · refine (Gives.skip hkept).bind ?_
    rintro _ m' rfl
    refine (Gives.identifier hkept).bind ?_
    rintro name m' ⟨rfl, hname⟩
    refine (gives_arguments hkept _).bind ?_
    rintro es m' ⟨rfl, hes⟩
    exact .pure ⟨rfl, ⟨hname, fun e he => (hes e he).1⟩, hes⟩
  · exact .unexpected _

end

private theorem isRead_mapExprs {s : Selection} (h : s.IsRead .empty) (m : Aliases) :
    (s.mapExprs (Expr.mapPaths (Path.resolve m))).IsRead m := by
  have all : ∀ es : List Expr, (∀ e ∈ es, e.IsRead .empty) → ∀ e ∈ es.map (Expr.mapPaths (Path.resolve m)), e.IsRead m :=
    fun es hes => List.forall_mem_map.2 fun e he => (hes e he).resolve m
  cases s with
  | all => exact ⟨trivial, fun e he => absurd he List.not_mem_nil⟩
  | values es => exact ⟨⟨List.map_eq_nil_iff.not.2 h.1.1, fun e he => (all es h.2 e he).1⟩, all es h.2⟩
  | construct name es => exact ⟨⟨h.1.1, fun e he => (all es h.2 e he).1⟩, all es h.2⟩

theorem Gives.resolveSelected {known : List Token → Prop} (primary : EntityRef) {list : Selected} (h : list.Good)
    (m : Aliases) : Gives known (Parse.resolveSelected primary list) m fun s m' => m' = m ∧ s.IsRead m := by
  have hall : Selection.IsRead m .all := ⟨trivial, fun e he => absurd he List.not_mem_nil⟩
  cases list with
  | star => exact .pure ⟨rfl, hall⟩
  | entity name position =>
    simp only [Parse.resolveSelected]
    split
    · exact .pure ⟨rfl, hall⟩
    · exact .fail_bind _ _
  | given s =>
    refine Gives.get.bind ?_
    rintro c m' ⟨rfl, hc⟩
    rw [hc]
    exact .pure ⟨rfl, isRead_mapExprs h m'⟩

end Parse

end Clausal
