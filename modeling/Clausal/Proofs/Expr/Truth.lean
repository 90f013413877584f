import Clausal.Proofs.Expr.Folding

/-!
# What conditions say

A condition is true, false or unknown. AND, OR and NOT are those of Kleene's strong logic, and what they join down to
the atoms, which may have any value, is the skeleton of the condition. Folding keeps the value, whatever the atoms
say, and leaves a skeleton in which nothing can be folded.
-/

namespace Clausal

/-- A truth value of Kleene's logic. -/
inductive Truth where
  | no
  | unknown
  | yes
  deriving DecidableEq, Repr

namespace Truth

def ofBool : Bool → Truth
  | false => no
  | true => yes

def not : Truth → Truth
  | no => yes
  | unknown => unknown
  | yes => no

def and : Truth → Truth → Truth
  | no, _ | _, no => no
  | yes, t | t, yes => t
  | unknown, unknown => unknown

def or : Truth → Truth → Truth
  | yes, _ | _, yes => yes
  | no, t | t, no => t
  | unknown, unknown => unknown

/-- The conjunction of several values. -/
def all (ts : List Truth) : Truth := ts.foldr and yes

@[simp] theorem not_not (t : Truth) : t.not.not = t := by cases t <;> rfl

@[simp] theorem not_ofBool (b : Bool) : (ofBool b).not = ofBool !b := by cases b <;> rfl

theorem and_comm (s t : Truth) : s.and t = t.and s := by cases s <;> cases t <;> rfl

theorem or_comm (s t : Truth) : s.or t = t.or s := by cases s <;> cases t <;> rfl

@[simp] theorem no_and (t : Truth) : no.and t = no := by cases t <;> rfl

@[simp] theorem yes_and (t : Truth) : yes.and t = t := by cases t <;> rfl

@[simp] theorem and_yes (t : Truth) : t.and yes = t := by cases t <;> rfl

@[simp] theorem yes_or (t : Truth) : yes.or t = yes := by cases t <;> rfl

@[simp] theorem no_or (t : Truth) : no.or t = t := by cases t <;> rfl

theorem and_assoc (s t u : Truth) : (s.and t).and u = s.and (t.and u) := by
  cases s <;> cases t <;> cases u <;> rfl

@[simp] theorem all_nil : all [] = yes := rfl

@[simp] theorem all_cons (t : Truth) (ts : List Truth) : all (t :: ts) = t.and (all ts) := rfl

@[simp] theorem all_append (ts us : List Truth) : all (ts ++ us) = (all ts).and (all us) := by
  induction ts with
  | nil => simp
  | cons t ts ih => simp [ih, and_assoc]

end Truth

namespace Expr

/-- The value of a condition whose atoms have the values that `v` says. -/
def truth (v : Expr → Truth) : Expr → Truth
  | literal (.boolean b) => .ofBool b
  | binary l .and r => (truth v l).and (truth v r)
  | binary l .or r => (truth v l).or (truth v r)
  | unary .not e => (truth v e).not
  | e => v e

/-- The condition and everything that AND, OR and NOT join in it, down to the atoms. -/
def skeleton : Expr → List Expr
  | binary l .and r => binary l .and r :: (skeleton l ++ skeleton r)
  | binary l .or r => binary l .or r :: (skeleton l ++ skeleton r)
  | unary .not e => unary .not e :: skeleton e
  | e => [e]

/-- A boolean constant stands alone, and what is negated is neither a constant nor a negation. -/
structure IsNormal (e : Expr) : Prop where
  constant : ∀ b, ofBool b ∈ e.skeleton → e = ofBool b
  negation : ∀ x, unary .not x ∈ e.skeleton → (∀ b, x ≠ ofBool b) ∧ ∀ y, x ≠ unary .not y

/-! ### Folding keeps the value -/

variable {v : Expr → Truth}

theorem eq_ofBool_of_asBool? {e : Expr} {b : Bool} (h : e.asBool? = some b) : e = ofBool b := by
  unfold asBool? at h
  split at h
  · cases h
    rfl
  · cases h

/-- A connective is folded as its values are joined: one constant decides, and the other one leaves what it is
joined with. -/
private theorem truth_foldConnective (op : BinaryOp) (absorbing : Bool) {join : Truth → Truth → Truth}
    (hop : ∀ l r, (binary l op r).truth v = join (l.truth v) (r.truth v)) (hcomm : ∀ s t, join s t = join t s)
    (habsorb : ∀ t, join (.ofBool absorbing) t = .ofBool absorbing)
    (hneutral : ∀ t, join (.ofBool !absorbing) t = t) (l r : Expr) :
    (foldConnective op absorbing l r).truth v = join (l.truth v) (r.truth v) := by
  have value : ∀ {e : Expr} {b : Bool}, e.asBool? = some b → e.truth v = .ofBool b := by
    intro e b h
    rw [eq_ofBool_of_asBool? h]
    rfl
  have neutral : ∀ {e : Expr}, e.asBool?.isSome → e.asBool? ≠ some absorbing → e.truth v = .ofBool !absorbing := by
    intro e hsome hne
    obtain ⟨b, hb⟩ := Option.isSome_iff_exists.1 hsome
    have hother : b = !absorbing := Bool.eq_not.2 fun heq => hne (by rw [hb, heq])
    rw [value hb, hother]
  unfold foldConnective
  split
  · rename_i h
    rcases h with h | h
    · rw [value h, habsorb]
      rfl
    · rw [value h, hcomm, habsorb]
      rfl
  rename_i hne
  rw [not_or] at hne
  split
  · rename_i h
    rw [neutral h hne.1, hneutral]
  split
  · rename_i h
    rw [neutral h hne.2, hcomm, hneutral]
  · exact hop l r

private theorem truth_foldNegation (e : Expr) : (foldNegation e).truth v = (e.truth v).not := by
  fun_cases foldNegation e with
  | case1 b => exact (Truth.not_ofBool b).symm
  | case2 e => exact (Truth.not_not _).symm
  | case3 e => rfl

/-- Folding keeps the value of a condition. -/
theorem truth_simplify (v : Expr → Truth) (e : Expr) : e.simplify.truth v = e.truth v := by
  induction e using recurse with
  | binary l op r hl hr =>
    cases op with
    | and =>
      rw [simplify, truth_foldConnective .and false (fun _ _ => rfl) Truth.and_comm Truth.no_and Truth.yes_and, hl, hr]
      rfl
    | or =>
      rw [simplify, truth_foldConnective .or true (fun _ _ => rfl) Truth.or_comm Truth.yes_or Truth.no_or, hl, hr]
      rfl
    | _ => rfl
  | unary op e he =>
    cases op with
    | not =>
      rw [simplify, truth_foldNegation, he]
      rfl
    | neg => rfl
  | _ => rfl

theorem truth_conjuncts (v : Expr → Truth) (e : Expr) : Truth.all (e.conjuncts.map (truth v)) = e.truth v := by
  have alone : ∀ e : Expr, Truth.all ([e].map (truth v)) = e.truth v := fun e => Truth.and_yes _
  induction e using recurse with
  | binary l op r hl hr =>
    cases op with
    | and =>
      rw [conjuncts, List.map_append, Truth.all_append, hl, hr]
      rfl
    | _ => exact alone _
  | _ => exact alone _

/-! ### Folding leaves nothing to fold -/

theorem Folded.of_mem_skeleton {e x : Expr} (h : e.Folded) (hx : x ∈ e.skeleton) : x.Folded := by
  induction e using recurse with
  | binary l op r hl hr =>
    cases op with
    | and | or =>
      rcases List.mem_cons.1 hx with rfl | hx
      · exact h
      · exact (List.mem_append.1 hx).elim (hl h.1) (hr h.2.1)
    | _ => exact List.mem_singleton.1 hx ▸ h
  | unary op e he =>
    cases op with
    | not =>
      rcases List.mem_cons.1 hx with rfl | hx
      · exact h
      · exact he h.1 hx
    | neg => exact List.mem_singleton.1 hx ▸ h
  | _ => exact List.mem_singleton.1 hx ▸ h

theorem Folded.asBool?_of_mem_skeleton {e x : Expr} (h : e.Folded) (hbool : e.asBool? = none)
    (hx : x ∈ e.skeleton) : x.asBool? = none := by
  induction e using recurse with
  | binary l op r hl hr =>
    cases op with
    | and | or =>
      rcases List.mem_cons.1 hx with rfl | hx
      · exact hbool
      · exact (List.mem_append.1 hx).elim (hl h.1 h.2.2.1) (hr h.2.1 h.2.2.2)
    | _ => exact List.mem_singleton.1 hx ▸ hbool
  | unary op e he =>
    cases op with
    | not =>
      rcases List.mem_cons.1 hx with rfl | hx
      · exact hbool
      · exact he h.1 h.2.1 hx
    | neg => exact List.mem_singleton.1 hx ▸ hbool
  | _ => exact List.mem_singleton.1 hx ▸ hbool

theorem ne_ofBool_of_asBool? {e : Expr} (h : e.asBool? = none) (b : Bool) : e ≠ ofBool b := by
  rintro rfl
  cases h

theorem Folded.isNormal {e : Expr} (h : e.Folded) : e.IsNormal where
  constant b hb := by
    cases hbool : e.asBool? with
    | none => exact absurd rfl (ne_ofBool_of_asBool? (h.asBool?_of_mem_skeleton hbool hb) b)
    | some c =>
      obtain rfl := eq_ofBool_of_asBool? hbool
      exact (List.mem_singleton.1 hb).symm
  negation x hx := by
    have hfolded : (unary .not x).Folded := h.of_mem_skeleton hx
    exact ⟨ne_ofBool_of_asBool? hfolded.2.1, hfolded.2.2⟩

/-- Folding keeps what a condition says under every reading of its atoms, leaves it in normal form, and changes
nothing when it is done again. -/
theorem simplify_normalizes (e : Expr) :
    (∀ v, e.simplify.truth v = e.truth v) ∧ e.simplify.IsNormal ∧ e.simplify.simplify = e.simplify :=
  ⟨fun v => truth_simplify v e, (folded_simplify e).isNormal, (folded_simplify e).simplify_eq⟩

example (a b : Path) :
    simplify (.binary (.unary .not (.binary (.unary .not (.field a)) .or (ofBool false))) .and
        (.unary .not (.field b))) =
      .binary (.field a) .and (.unary .not (.field b)) :=
  rfl

end Expr

end Clausal
