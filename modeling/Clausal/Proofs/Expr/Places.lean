import Clausal.Proofs.Expr.WellFormed
import Mathlib.Data.List.Lex
import Mathlib.Tactic.Common

/-!
# Where literals stand

A place in an expression is the way down to it: the number of the part that is taken, at each step. Places in the
order of lexicographic comparison are places from left to right. The literals of an expression are those at all of
its places, in this order, and so are what is listed for several expressions one after the other. From such a list
the first literal of a kind can be told by its place.
-/

namespace Clausal

/-! ### Lists in the order of places -/

/-- `xs` is what stands at all places, in the order of the places. -/
def Lists {α : Type} (has : List Nat → α → Prop) (xs : List α) : Prop :=
  ∃ entries : List (List Nat × α), entries.map (·.2) = xs ∧ entries.Pairwise (fun a b => a.1 < b.1) ∧
    ∀ place x, (place, x) ∈ entries ↔ has place x

namespace Lists

variable {α β : Type} {has : List Nat → α → Prop} {xs : List α}

theorem congr {has' : List Nat → α → Prop} (h : Lists has xs) (same : ∀ place x, has place x ↔ has' place x) :
    Lists has' xs := by
  obtain ⟨entries, values, sorted, mem⟩ := h
  exact ⟨entries, values, sorted, fun place x => (mem place x).trans (same place x)⟩

theorem empty (none_ : ∀ place x, ¬ has place x) : Lists has [] :=
  ⟨[], rfl, .nil, fun place x => iff_of_false List.not_mem_nil (none_ place x)⟩

/-- What is listed for each element, one after the other, where places begin with the number of the element. -/
private theorem flatMap_from {ys : List β} {each : β → List Nat → α → Prop} {list : β → List α} (n : Nat)
    (h : ∀ y ∈ ys, Lists (each y) (list y)) :
    Lists (fun place x => ∃ i y rest, place = (n + i) :: rest ∧ ys[i]? = some y ∧ each y rest x)
      (ys.flatMap list) := by
  induction ys generalizing n with
  | nil =>
    refine empty ?_
    rintro place x ⟨i, y, rest, _, h, _⟩
    cases h
  | cons y ys ih =>
    obtain ⟨here, there⟩ := List.forall_mem_cons.1 h
    obtain ⟨entries, values, sorted, mem⟩ := here
    obtain ⟨more, values', sorted', mem'⟩ := ih (n + 1) there
    refine ⟨entries.map (fun e => (n :: e.1, e.2)) ++ more, ?_, ?_, fun place x => ?_⟩
    · rw [List.map_append, List.map_map, values', List.flatMap_cons, ← values]
      rfl
    · refine List.pairwise_append.2 ⟨List.pairwise_map.2 (sorted.imp fun h => List.cons_lt_cons_self.2 h), sorted', ?_⟩
      intro a ha b hb
      obtain ⟨e, _, rfl⟩ := List.mem_map.1 ha
      obtain ⟨i, _, rest, hplace, _⟩ := (mem' b.1 b.2).1 hb
      rw [hplace]
      exact List.Lex.rel (by omega)
    · rw [List.mem_append, mem', List.mem_map]
      constructor
      · rintro (⟨e, he, same⟩ | ⟨i, z, rest, rfl, hz, hx⟩)
        · cases same
          exact ⟨0, y, e.1, rfl, rfl, (mem _ _).1 he⟩
        · exact ⟨i + 1, z, rest, by rw [Nat.add_assoc, Nat.add_comm 1], hz, hx⟩
      · rintro ⟨i, z, rest, rfl, hz, hx⟩
        cases i with
        | zero =>
          cases hz
          exact .inl ⟨(rest, x), (mem rest x).2 hx, rfl⟩
        | succ i => exact .inr ⟨i, z, rest, by rw [Nat.add_assoc, Nat.add_comm 1], hz, hx⟩

/-- What is listed for each element, one after the other, where places begin with the number of the element. -/
theorem flatMap {ys : List β} {each : β → List Nat → α → Prop} {list : β → List α}
    (h : ∀ y ∈ ys, Lists (each y) (list y)) :
    Lists (fun place x => ∃ i y rest, place = i :: rest ∧ ys[i]? = some y ∧ each y rest x) (ys.flatMap list) :=
  (flatMap_from 0 h).congr fun place x => by simp only [Nat.zero_add]

theorem mem_iff (h : Lists has xs) {x : α} : x ∈ xs ↔ ∃ place, has place x := by
  obtain ⟨entries, rfl, _, mem⟩ := h
  constructor
  · intro hx
    obtain ⟨e, he, rfl⟩ := List.mem_map.1 hx
    exact ⟨e.1, (mem e.1 e.2).1 he⟩
  · rintro ⟨place, hx⟩
    exact List.mem_map.2 ⟨(place, x), (mem place x).2 hx, rfl⟩

/-- What is found first in a list stands at the first place at which there is something to find. -/
theorem findSome?_eq_some (h : Lists has xs) {f : α → Option β} {b : β} (found : xs.findSome? f = some b) :
    ∃ place x, has place x ∧ f x = some b ∧ ∀ other y, has other y → f y ≠ none → place ≤ other := by
  obtain ⟨entries, rfl, sorted, mem⟩ := h
  obtain ⟨before, x, after, split, hx, unfound⟩ := List.findSome?_eq_some_iff.1 found
  obtain ⟨left, right, rfl, rfl, hright⟩ := List.map_eq_append_iff.1 split
  obtain ⟨e, right, rfl, rfl, rfl⟩ := List.map_eq_cons_iff.1 hright
  refine ⟨e.1, e.2, (mem _ _).1 (by simp), hx, fun other y hy hf => ?_⟩
  rcases List.mem_append.1 ((mem other y).2 hy) with hl | hr
  · exact absurd (unfound y (List.mem_map.2 ⟨_, hl, rfl⟩)) hf
  · rcases List.mem_cons.1 hr with rfl | hr
    · exact le_refl _
    · exact le_of_lt ((List.pairwise_cons.1 (List.pairwise_append.1 sorted).2.1).1 _ hr)

end Lists

namespace Expr

/-! ### Places in expressions -/

/-- The expressions of which an expression is made, left to right. -/
def parts : Expr → List Expr
  | literal _ | field _ | param _ | wildcard => []
  | binary left _ right => [left, right]
  | unary _ operand => [operand]
  | isNull subject _ => [subject]
  | isIn subject list _ => subject :: list
  | between subject low high _ => [subject, low, high]
  | call _ args _ => args

/-- The literal `l` stands at a place of an expression. -/
inductive HasAt : Expr → List Nat → Literal → Prop
  | here (l : Literal) : HasAt (literal l) [] l
  | part {e c : Expr} {i : Nat} {place : List Nat} {l : Literal} (taken : e.parts[i]? = some c)
      (below : HasAt c place l) : HasAt e (i :: place) l

/-- An expression that is no literal has the literals of its parts. -/
theorem literals_eq_parts {e : Expr} (h : ∀ l, e ≠ literal l) : e.literals = e.parts.flatMap literals := by
  cases e with
  | literal l => exact absurd rfl (h l)
  | field | param | wildcard => rfl
  | binary left op right => simp [literals, parts]
  | unary op operand => simp [literals, parts]
  | isNull subject negated => simp [literals, parts]
  | isIn subject list negated => rw [literals, parts, literalsAll_eq_flatMap, List.flatMap_cons]
  | between subject low high negated => simp [literals, parts]
  | call function args distinct => rw [literals, parts, literalsAll_eq_flatMap]

theorem hasAt_parts {e : Expr} (h : ∀ l, e ≠ literal l) (place : List Nat) (l : Literal) :
    (∃ i c rest, place = i :: rest ∧ e.parts[i]? = some c ∧ c.HasAt rest l) ↔ e.HasAt place l := by
  constructor
  · rintro ⟨i, c, rest, rfl, taken, below⟩
    exact .part taken below
  · intro stands
    cases stands with
    | here => exact absurd rfl (h l)
    | part taken below => exact ⟨_, _, _, rfl, taken, below⟩

theorem hasAt_literal (l m : Literal) (place : List Nat) : (literal l).HasAt place m ↔ (place, m) = ([], l) := by
  constructor
  · intro stands
    cases stands with
    | here => rfl
    | part taken _ => cases taken
  · rintro ⟨⟩
    exact .here l

private theorem lists_of_parts {e : Expr} (h : ∀ l, e ≠ literal l) (below : ∀ c ∈ e.parts, Lists c.HasAt c.literals) :
    Lists e.HasAt e.literals := by
  rw [literals_eq_parts h]
  exact (Lists.flatMap below).congr (hasAt_parts h)

/-- The literals of an expression are those at all of its places, left to right. -/
theorem lists_literals (e : Expr) : Lists e.HasAt e.literals := by
  induction e using recurse with
  | literal l =>
    refine ⟨[([], l)], rfl, List.pairwise_singleton _ _, fun place m => ?_⟩
    rw [hasAt_literal, List.mem_singleton]
  | field p => exact lists_of_parts nofun nofun
  | param p => exact lists_of_parts nofun nofun
  | wildcard => exact lists_of_parts nofun nofun
  | binary left op right hl hr => exact lists_of_parts nofun (by simp [parts, hl, hr])
  | unary op e he => exact lists_of_parts nofun (by simp [parts, he])
  | isNull e n he => exact lists_of_parts nofun (by simp [parts, he])
  | isIn e es n he hes => exact lists_of_parts nofun (List.forall_mem_cons.2 ⟨he, hes⟩)
  | between e low high n he hl hh => exact lists_of_parts nofun (by simp [parts, he, hl, hh])
  | call f es d hes => exact lists_of_parts nofun hes

end Expr

end Clausal
