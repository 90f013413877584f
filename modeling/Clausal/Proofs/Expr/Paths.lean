import Clausal.Clause.Filter

/-!
# Replacing paths

What happens to an expression when its paths are replaced: replacing twice is replacing once, only the
paths that are there matter, and constants are folded in the same way before and after. An expression is
taken apart by `Expr.recurse`, which gives the hypothesis for every expression of a list.
-/

namespace Clausal.Expr

/-- Induction on expressions. -/
@[elab_as_elim]
theorem recurse {P : Expr → Prop} (literal : ∀ l, P (literal l)) (field : ∀ p, P (field p))
    (param : ∀ p, P (param p)) (wildcard : P wildcard)
    (binary : ∀ l op r, P l → P r → P (binary l op r)) (unary : ∀ op e, P e → P (unary op e))
    (isNull : ∀ e n, P e → P (isNull e n))
    (isIn : ∀ e es n, P e → (∀ x ∈ es, P x) → P (isIn e es n))
    (between : ∀ e l h n, P e → P l → P h → P (between e l h n))
    (call : ∀ f es d, (∀ x ∈ es, P x) → P (call f es d)) : ∀ e, P e
  | .literal l => literal l
  | .field p => field p
  | .param p => param p
  | .wildcard => wildcard
  | .binary l op r => binary l op r
      (recurse literal field param wildcard binary unary isNull isIn between call l)
      (recurse literal field param wildcard binary unary isNull isIn between call r)
  | .unary op e => unary op e
      (recurse literal field param wildcard binary unary isNull isIn between call e)
  | .isNull e n => isNull e n
      (recurse literal field param wildcard binary unary isNull isIn between call e)
  | .isIn e es n => isIn e es n
      (recurse literal field param wildcard binary unary isNull isIn between call e)
      (fun x _ => recurse literal field param wildcard binary unary isNull isIn between call x)
  | .between e l h n => between e l h n
      (recurse literal field param wildcard binary unary isNull isIn between call e)
      (recurse literal field param wildcard binary unary isNull isIn between call l)
      (recurse literal field param wildcard binary unary isNull isIn between call h)
  | .call f es d => call f es d
      (fun x _ => recurse literal field param wildcard binary unary isNull isIn between call x)
termination_by e => sizeOf e
decreasing_by
  all_goals simp_wf
  all_goals first
    | omega
    | have smaller := List.sizeOf_lt_of_mem ‹x ∈ es›
      omega

theorem pathsAll_eq_flatMap (es : List Expr) : pathsAll es = es.flatMap paths := by
  induction es with
  | nil => rfl
  | cons e es ih => rw [pathsAll, ih, List.flatMap_cons]

theorem mapPaths_mapPaths (f g : Path → Path) (e : Expr) :
    (e.mapPaths g).mapPaths f = e.mapPaths (f ∘ g) := by
  have all : ∀ es : List Expr, (∀ x ∈ es, (x.mapPaths g).mapPaths f = x.mapPaths (f ∘ g)) →
      mapPathsAll f (mapPathsAll g es) = mapPathsAll (f ∘ g) es := by
    intro es h
    simp only [mapPathsAll_eq_map, List.map_map]
    exact List.map_congr_left h
  induction e using recurse with
  | literal l => rfl
  | field p => rfl
  | param p => rfl
  | wildcard => rfl
  | binary l op r hl hr => simp only [mapPaths, hl, hr]
  | unary op e he => simp only [mapPaths, he]
  | isNull e n he => simp only [mapPaths, he]
  | isIn e es n he hes => simp only [mapPaths, he, all es hes]
  | between e l h n he hl hh => simp only [mapPaths, he, hl, hh]
  | call g es d hes => simp only [mapPaths, all es hes]

theorem mapPaths_id (e : Expr) : e.mapPaths id = e := by
  have all : ∀ es : List Expr, (∀ x ∈ es, x.mapPaths id = x) → mapPathsAll id es = es := by
    intro es h
    rw [mapPathsAll_eq_map, List.map_congr_left h, List.map_id']
  induction e using recurse with
  | literal l => rfl
  | field p => rfl
  | param p => rfl
  | wildcard => rfl
  | binary l op r hl hr => rw [mapPaths, hl, hr]
  | unary op e he => rw [mapPaths, he]
  | isNull e n he => rw [mapPaths, he]
  | isIn e es n he hes => rw [mapPaths, he, all es hes]
  | between e l h n he hl hh => rw [mapPaths, he, hl, hh]
  | call g es d hes => rw [mapPaths, all es hes]

/-- Replacements that agree on the paths of an expression give the same expression. -/
theorem mapPaths_congr {f g : Path → Path} (e : Expr) (h : ∀ p ∈ e.paths, f p = g p) :
    e.mapPaths f = e.mapPaths g := by
  have all : ∀ es : List Expr, (∀ x ∈ es, (∀ p ∈ x.paths, f p = g p) → x.mapPaths f = x.mapPaths g) →
      (∀ p ∈ pathsAll es, f p = g p) → mapPathsAll f es = mapPathsAll g es := by
    intro es ih h
    rw [pathsAll_eq_flatMap] at h
    simp only [mapPathsAll_eq_map]
    exact List.map_congr_left fun x hx => ih x hx fun p hp => h p (List.mem_flatMap.2 ⟨x, hx, hp⟩)
  induction e using recurse with
  | literal l => rfl
  | field p => exact congrArg field (h p List.mem_cons_self)
  | param p => rfl
  | wildcard => rfl
  | binary l op r hl hr =>
    simp only [paths, List.forall_mem_append] at h
    simp only [mapPaths, hl h.1, hr h.2]
  | unary op e he => simp only [mapPaths, he h]
  | isNull e n he => simp only [mapPaths, he h]
  | isIn e es n he hes =>
    simp only [paths, List.forall_mem_append] at h
    simp only [mapPaths, he h.1, all es hes h.2]
  | between e l u n he hl hu =>
    simp only [paths, List.forall_mem_append] at h
    simp only [mapPaths, he h.1.1, hl h.1.2, hu h.2]
  | call f es d hes => simp only [mapPaths, all es hes h]

theorem asBool?_mapPaths (f : Path → Path) (e : Expr) : (e.mapPaths f).asBool? = e.asBool? := by
  cases e <;> rfl

theorem foldConnective_mapPaths (f : Path → Path) (op : BinaryOp) (absorbing : Bool) (l r : Expr) :
    foldConnective op absorbing (l.mapPaths f) (r.mapPaths f) =
      (foldConnective op absorbing l r).mapPaths f := by
  simp only [foldConnective, asBool?_mapPaths]
  split
  · rfl
  split
  · rfl
  split <;> rfl

theorem foldNegation_mapPaths (f : Path → Path) (e : Expr) :
    foldNegation (e.mapPaths f) = (foldNegation e).mapPaths f := by
  fun_cases foldNegation e with
  | case1 b => rfl
  | case2 e => rfl
  | case3 e hbool hnot =>
    cases e with
    | literal l =>
      cases l with
      | boolean b => exact absurd rfl (hbool b)
      | _ => rfl
    | unary op e =>
      cases op with
      | not => exact absurd rfl (hnot e)
      | _ => rfl
    | _ => rfl

theorem simplify_mapPaths (f : Path → Path) (e : Expr) :
    (e.mapPaths f).simplify = e.simplify.mapPaths f := by
  induction e using recurse with
  | binary l op r hl hr =>
    cases op <;>
      simp only [mapPaths, simplify, hl, hr, foldConnective_mapPaths]
  | unary op e he =>
    cases op <;> simp only [mapPaths, simplify, he, foldNegation_mapPaths]
  | _ => rfl

theorem conjuncts_mapPaths (f : Path → Path) (e : Expr) :
    (e.mapPaths f).conjuncts = e.conjuncts.map (mapPaths f) := by
  induction e using recurse with
  | binary l op r hl hr =>
    cases op with
    | and => simp only [mapPaths, conjuncts, hl, hr, List.map_append]
    | _ => rfl
  | _ => rfl

theorem paths_foldConnective {op : BinaryOp} {absorbing : Bool} {l r : Expr} {p : Path}
    (h : p ∈ (foldConnective op absorbing l r).paths) : p ∈ l.paths ∨ p ∈ r.paths := by
  unfold foldConnective at h
  split at h
  · exact absurd h List.not_mem_nil
  split at h
  · exact .inr h
  split at h
  · exact .inl h
  · exact List.mem_append.1 h

theorem paths_foldNegation {e : Expr} {p : Path} (h : p ∈ (foldNegation e).paths) : p ∈ e.paths := by
  unfold foldNegation at h
  split at h
  · exact absurd h List.not_mem_nil
  · exact h
  · exact h

/-- Folding adds no path. -/
theorem paths_simplify {e : Expr} {p : Path} (h : p ∈ e.simplify.paths) : p ∈ e.paths := by
  induction e using recurse with
  | binary l op r hl hr =>
    cases op with
    | and => exact List.mem_append.2 ((paths_foldConnective h).imp hl hr)
    | or => exact List.mem_append.2 ((paths_foldConnective h).imp hl hr)
    | _ => exact h
  | unary op e he =>
    cases op with
    | not => exact he (paths_foldNegation h)
    | _ => exact h
  | _ => exact h

theorem paths_conjuncts {e x : Expr} {p : Path} (hx : x ∈ e.conjuncts) (hp : p ∈ x.paths) :
    p ∈ e.paths := by
  induction e using recurse with
  | binary l op r hl hr =>
    cases op with
    | and => exact List.mem_append.2 ((List.mem_append.1 hx).imp hl hr)
    | _ =>
      rw [List.mem_singleton.1 hx] at hp
      exact hp
  | _ =>
    rw [List.mem_singleton.1 hx] at hp
    exact hp

end Clausal.Expr

namespace Clausal.Filter

/-- Replaces the paths of all conditions. -/
def mapPaths (f : Path → Path) : Filter → Filter
  | unsatisfiable => unsatisfiable
  | all ps => all (ps.map (Expr.mapPaths f))

/-- What adding a condition does, by the constant that it is folded to. -/
theorem all_and (ps : List Expr) (e : Expr) :
    (all ps).and e =
      match e.simplify.asBool? with
      | some true => all ps
      | some false => unsatisfiable
      | none => all (ps ++ e.simplify.conjuncts) := by
  rw [Filter.and]
  split
  · rename_i h
    rw [h]
    rfl
  · rename_i h
    rw [h]
    rfl
  · rename_i folded htrue hfalse
    cases hb : e.simplify.asBool? with
    | none => rfl
    | some b =>
      have hlit : e.simplify = .literal (.boolean b) := by
        revert hb
        fun_cases Expr.asBool? e.simplify <;> simp_all
      cases b with
      | true => exact absurd hlit htrue
      | false => exact absurd hlit hfalse

theorem and_mapPaths (f : Path → Path) (c : Filter) (e : Expr) :
    (c.mapPaths f).and (e.mapPaths f) = (c.and e).mapPaths f := by
  cases c with
  | unsatisfiable => rfl
  | all ps =>
    rw [mapPaths, all_and, all_and, Expr.simplify_mapPaths, Expr.asBool?_mapPaths]
    cases e.simplify.asBool? with
    | none => simp only [mapPaths, Expr.conjuncts_mapPaths, List.map_append]
    | some b => cases b <;> rfl

/-- The conditions after one is added are conditions from before or parts of the new one. -/
theorem mem_and {c : Filter} {e x : Expr} (hx : x ∈ (c.and e).predicates) :
    x ∈ c.predicates ∨ x ∈ e.simplify.conjuncts := by
  cases c with
  | unsatisfiable => exact .inl hx
  | all ps =>
    rw [all_and] at hx
    split at hx
    · exact .inl hx
    · exact absurd hx List.not_mem_nil
    · exact List.mem_append.1 hx

end Clausal.Filter
