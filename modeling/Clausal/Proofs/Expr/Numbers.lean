import Mathlib.Data.List.Basic
import Clausal.Proofs.Expr.Paths

/-!
# Numbers

A number of a text is a constant, the index of a placeholder, a count of rows or an argument of a column type. The
numbers of an expression are its whole constants and the indices of its placeholders, left to right. Folding constants
may drop some of them, but neither changes one nor adds one.
-/

namespace Clausal

/-- A whole number of a text or a statement. -/
inductive Number where
  /-- A constant. -/
  | literal (i : Int)
  /-- The index of a placeholder. -/
  | index (n : Nat)
  /-- How many rows are given or passed over. -/
  | count (n : Nat)
  /-- An argument of a column type. -/
  | argument (n : Nat)
  deriving DecidableEq, Repr

namespace Number

/-- What a number is for. -/
inductive Role where
  | operand
  | count
  | argument
  deriving DecidableEq, Repr

def role : Number → Role
  | literal _ | index _ => .operand
  | count _ => .count
  | argument _ => .argument

/-- The numbers that are for one thing. -/
def ofRole (r : Role) (ns : List Number) : List Number := ns.filter fun n => n.role = r

theorem ofRole_append (r : Role) (ns more : List Number) : ofRole r (ns ++ more) = ofRole r ns ++ ofRole r more :=
  List.filter_append ns more

/-- Numbers for one thing are all for that and none for another. -/
theorem ofRole_eq {r : Role} {ns : List Number} (h : ∀ n ∈ ns, n.role = r) (r' : Role) :
    ofRole r' ns = if r' = r then ns else [] := by
  split
  · rename_i hr
    exact List.filter_eq_self.2 fun n hn => decide_eq_true ((h n hn).trans hr.symm)
  · rename_i hr
    exact List.filter_eq_nil_iff.2 fun n hn => by simpa [h n hn] using Ne.symm hr

end Number

namespace Expr

mutual

/-- The numbers of an expression. -/
def numbers : Expr → List Number
  | literal (.integer i) => [.literal i.toInt]
  | param (.positional n) => [.index n.toNat]
  | literal _ | param _ | field _ | wildcard => []
  | binary l _ r => numbers l ++ numbers r
  | unary _ e | isNull e _ => numbers e
  | isIn e es _ => numbers e ++ numbersAll es
  | between e l h _ => numbers e ++ numbers l ++ numbers h
  | call _ es _ => numbersAll es

def numbersAll : List Expr → List Number
  | [] => []
  | e :: es => numbers e ++ numbersAll es

end

theorem numbersAll_eq_flatMap (es : List Expr) : numbersAll es = es.flatMap numbers := by
  induction es with
  | nil => rfl
  | cons e es ih => rw [numbersAll, ih, List.flatMap_cons]

theorem numbers_mapPaths (f : Path → Path) (e : Expr) : (e.mapPaths f).numbers = e.numbers := by
  have all : ∀ es : List Expr, (∀ x ∈ es, (x.mapPaths f).numbers = x.numbers) →
      numbersAll (mapPathsAll f es) = numbersAll es := by
    intro es h
    rw [numbersAll_eq_flatMap, numbersAll_eq_flatMap, mapPathsAll_eq_map, List.flatMap_map]
    exact List.flatMap_congr h
  induction e using recurse with
  | literal l => rfl
  | field p => rfl
  | param p => rfl
  | wildcard => rfl
  | binary l op r hl hr => simp only [mapPaths, numbers, hl, hr]
  | unary op e he => simp only [mapPaths, numbers, he]
  | isNull e n he => simp only [mapPaths, numbers, he]
  | isIn e es n he hes => simp only [mapPaths, numbers, he, all es hes]
  | between e l h n he hl hh => simp only [mapPaths, numbers, he, hl, hh]
  | call g es d hes => simp only [mapPaths, numbers, all es hes]

theorem role_of_mem_numbers {e : Expr} {n : Number} (h : n ∈ e.numbers) : n.role = .operand := by
  have all : ∀ es : List Expr, (∀ x ∈ es, n ∈ x.numbers → n.role = .operand) → n ∈ numbersAll es →
      n.role = .operand := by
    intro es ih h
    rw [numbersAll_eq_flatMap] at h
    obtain ⟨x, hx, hn⟩ := List.mem_flatMap.1 h
    exact ih x hx hn
  induction e using recurse with
  | literal l =>
    cases l with
    | integer i =>
      rw [List.mem_singleton.1 h]
      rfl
    | _ => exact absurd h List.not_mem_nil
  | param p =>
    cases p with
    | positional i =>
      rw [List.mem_singleton.1 h]
      rfl
    | named name => exact absurd h List.not_mem_nil
  | field p => exact absurd h List.not_mem_nil
  | wildcard => exact absurd h List.not_mem_nil
  | binary l op r hl hr => exact (List.mem_append.1 h).elim hl hr
  | unary op e he => exact he h
  | isNull e n he => exact he h
  | isIn e es n he hes => exact (List.mem_append.1 h).elim he (all es hes)
  | between e l u n he hl hu => exact (List.mem_append.1 h).elim (fun h => (List.mem_append.1 h).elim he hl) hu
  | call f es d hes => exact all es hes h

/-! ### Folding -/

private theorem numbers_foldConnective (op : BinaryOp) (absorbing : Bool) (l r : Expr) :
    (foldConnective op absorbing l r).numbers.Sublist (l.numbers ++ r.numbers) := by
  unfold foldConnective
  split
  · exact List.nil_sublist _
  split
  · exact List.sublist_append_right _ _
  split
  · exact List.sublist_append_left _ _
  · exact List.Sublist.refl _

private theorem numbers_foldNegation (e : Expr) : (foldNegation e).numbers = e.numbers := by
  fun_cases foldNegation e <;> rfl

/-- Folding constants drops numbers at most. -/
theorem numbers_simplify (e : Expr) : e.simplify.numbers.Sublist e.numbers := by
  induction e using recurse with
  | binary l op r hl hr =>
    cases op with
    | and => exact (numbers_foldConnective _ _ _ _).trans (hl.append hr)
    | or => exact (numbers_foldConnective _ _ _ _).trans (hl.append hr)
    | _ => exact List.Sublist.refl _
  | unary op e he =>
    cases op with
    | not =>
      rw [simplify, numbers_foldNegation]
      exact he
    | neg => exact List.Sublist.refl _
  | _ => exact List.Sublist.refl _

theorem numbers_conjuncts (e : Expr) : e.conjuncts.flatMap numbers = e.numbers := by
  induction e using recurse with
  | binary l op r hl hr =>
    cases op with
    | and => rw [conjuncts, List.flatMap_append, hl, hr, numbers]
    | _ => exact List.flatMap_singleton _ _
  | _ => exact List.flatMap_singleton _ _

end Expr

/-- The conditions of a filter have no number that what was added has not. -/
theorem Filter.numbers_and (f : Filter) (e : Expr) :
    ((f.and e).predicates.flatMap Expr.numbers).Sublist (f.predicates.flatMap Expr.numbers ++ e.numbers) := by
  cases f with
  | unsatisfiable => exact List.nil_sublist _
  | all ps =>
    rw [all_and]
    split
    · exact List.sublist_append_left _ _
    · exact List.nil_sublist _
    · rw [predicates, List.flatMap_append, Expr.numbers_conjuncts]
      exact (List.Sublist.refl _).append e.numbers_simplify

theorem Filter.numbers_ofList (es : List Expr) :
    ((ofList es).predicates.flatMap Expr.numbers).Sublist (es.flatMap Expr.numbers) := by
  have run : ∀ (es : List Expr) (f : Filter), ((es.foldl and f).predicates.flatMap Expr.numbers).Sublist
      (f.predicates.flatMap Expr.numbers ++ es.flatMap Expr.numbers) := by
    intro es
    induction es with
    | nil => exact fun f => List.sublist_append_left _ _
    | cons e es ih =>
      intro f
      rw [List.flatMap_cons, ← List.append_assoc]
      exact (ih (f.and e)).trans ((f.numbers_and e).append (List.Sublist.refl _))
  exact run es empty

end Clausal
