import Mathlib.Data.List.Forall2
import Clausal.Parse.Statement

/-!
# Two runs of readers

Two readers are compared on cursors that correspond. Either both fail, in ways that correspond, or both give a value
and leave cursors that correspond again, so that they can be followed through everything they are put together from.
What corresponds depends on what is compared: the cursors may differ in the places of their tokens or in the aliases
that are bound, but never in the kind of the next token, by which a reader decides how to go on.
-/

namespace Clausal.Parse

open Token (Kind)

variable {α β γ δ : Type}

/-- Two outcomes that correspond. -/
inductive Matched (F : Failure → Failure → Prop) (R : α → β → Prop) : Except Failure α → Except Failure β → Prop where
  | failed {f g : Failure} (h : F f g) : Matched F R (.error f) (.error g)
  | given {x : α} {y : β} (h : R x y) : Matched F R (.ok x) (.ok y)

/-- Which cursors and which failures of two runs correspond. -/
structure Comparison where
  cursor : Cursor → Cursor → Prop
  failure : Failure → Failure → Prop
  kind_eq : ∀ {c d}, cursor c d → c.kind = d.kind
  length_eq : ∀ {c d}, cursor c d → c.tokens.length = d.tokens.length
  next : ∀ {c d}, cursor c d → cursor c.next d.next
  unexpected : ∀ {c d} (e : Expected), cursor c d →
    failure ⟨.unexpected e c.kind, c.span⟩ ⟨.unexpected e d.kind, d.span⟩

/-- On cursors that correspond the readers have outcomes that correspond. -/
def Compared (K : Comparison) (R : α → β → Prop) (p : Parser α) (q : Parser β) : Prop :=
  ∀ c d, K.cursor c d → Matched K.failure (fun x y => R x.1 y.1 ∧ K.cursor x.2 y.2) (p.run c) (q.run d)

namespace Compared

variable {K : Comparison} {R R' : α → β → Prop} {S : γ → δ → Prop} {p : Parser α} {q : Parser β}
  {f : α → Parser γ} {g : β → Parser δ}

theorem mono (h : Compared K R p q) (hR : ∀ x y, R x y → R' x y) : Compared K R' p q := by
  intro c d hcd
  have hboth := h c d hcd
  generalize p.run c = left at hboth ⊢
  generalize q.run d = right at hboth ⊢
  cases hboth with
  | failed hfail => exact .failed hfail
  | given hxy => exact .given ⟨hR _ _ hxy.1, hxy.2⟩

/-- What is given is given by runs from cursors that correspond. -/
theorem recorded (h : Compared K R p q) :
    Compared K (fun x y => R x y ∧ ∃ c d c' d', K.cursor c d ∧ p.run c = .ok (x, c') ∧ q.run d = .ok (y, d') ∧
      K.cursor c' d') p q := by
  intro c d hcd
  have hboth := h c d hcd
  generalize hp : p.run c = left at hboth ⊢
  generalize hq : q.run d = right at hboth ⊢
  cases hboth with
  | failed hfail => exact .failed hfail
  | @given x y hxy => exact .given ⟨⟨hxy.1, c, d, x.2, y.2, hcd, hp, hq, hxy.2⟩, hxy.2⟩

theorem pure {x : α} {y : β} (h : R x y) : Compared K R (Pure.pure x) (Pure.pure y) := fun _ _ hcd => .given ⟨h, hcd⟩

theorem bind (h : Compared K R p q) (hrest : ∀ x y, R x y → Compared K S (f x) (g y)) :
    Compared K S (p >>= f) (q >>= g) := by
  intro c d hcd
  rw [StateT.run_bind, StateT.run_bind]
  have hboth := h c d hcd
  generalize p.run c = left at hboth ⊢
  generalize q.run d = right at hboth ⊢
  cases hboth with
  | failed hfail => exact .failed hfail
  | given hxy => exact hrest _ _ hxy.1 _ _ hxy.2

/-- Readers of one value, with which both go on. -/
theorem andThen {p q : Parser α} {f : α → Parser γ} {g : α → Parser δ} (h : Compared K Eq p q)
    (hrest : ∀ x, Compared K S (f x) (g x)) : Compared K S (p >>= f) (q >>= g) :=
  h.bind fun x _ hxy => hxy ▸ hrest x

theorem fail {fault fault' : Fault} {span span' : Span} (h : K.failure ⟨fault, span⟩ ⟨fault', span'⟩) :
    Compared K R (Parse.fail fault span) (Parse.fail fault' span') :=
  fun _ _ _ => .failed h

theorem get : Compared K K.cursor (MonadState.get : Parser Cursor) MonadState.get := fun _ _ hcd => .given ⟨hcd, hcd⟩

theorem peek : Compared K Eq Parse.peek Parse.peek := fun _ _ hcd => .given ⟨K.kind_eq hcd, hcd⟩

/-- The places of two tokens that correspond need not be the same. -/
theorem place : Compared K (fun _ _ => True) Parse.place Parse.place := fun _ _ hcd => .given ⟨trivial, hcd⟩

theorem skip : Compared K Eq Parse.skip Parse.skip := fun _ _ hcd => .given ⟨rfl, K.next hcd⟩

theorem unexpected (expected : Expected) : Compared K R (Parse.unexpected expected) (Parse.unexpected expected) :=
  fun _ _ hcd => .failed (K.unexpected expected hcd)

theorem unexpected_bind (expected : Expected) {f : α → Parser γ} {g : α → Parser δ} :
    Compared K S (Parse.unexpected expected >>= f) (Parse.unexpected expected >>= g) :=
  (Compared.unexpected (R := fun _ _ => False) expected).bind fun _ _ h => h.elim

theorem fail_bind {fault fault' : Fault} {span span' : Span} (h : K.failure ⟨fault, span⟩ ⟨fault', span'⟩)
    {f : α → Parser γ} {g : α → Parser δ} :
    Compared K S (Parse.fail fault span >>= f) (Parse.fail fault' span' >>= g) :=
  (Compared.fail (R := fun _ _ => False) h).bind fun _ _ h => h.elim

/-! ### Tokens -/

theorem eat (k : Kind) : Compared K Eq (Parse.eat k) (Parse.eat k) := by
  refine peek.andThen fun next => ?_
  split
  · exact skip.andThen fun _ => .pure rfl
  · exact .pure rfl

theorem symbol (s : Symbol) : Compared K Eq (Parse.symbol s) (Parse.symbol s) := by
  refine (eat (.symbol s)).andThen fun found => ?_
  cases found with
  | true => exact .pure rfl
  | false => exact .unexpected _

theorem identifier : Compared K Eq Parse.identifier Parse.identifier := by
  refine peek.andThen fun next => ?_
  split
  · exact skip.andThen fun _ => .pure rfl
  · exact .unexpected _

theorem keyword (k : Keyword) : Compared K Eq (Parse.keyword k) (Parse.keyword k) := by
  refine (eat (.keyword k)).andThen fun found => ?_
  cases found with
  | true => exact .pure rfl
  | false => exact .unexpected _

theorem integer : Compared K Eq Parse.integer Parse.integer := by
  refine peek.andThen fun next => ?_
  split
  · refine skip.andThen fun _ => ?_
    exact .pure rfl
  · exact .unexpected _

/-- A word decides how to go on. -/
theorem word (k : Keyword) {p p' : Parser α} {q q' : Parser β} (h : Compared K R p q) (h' : Compared K R p' q') :
    Compared K R (eatKeyword k >>= fun found => if found = true then p else p')
      (eatKeyword k >>= fun found => if found = true then q else q') := by
  refine (eat (.keyword k)).andThen fun found => ?_
  cases found with
  | true => exact h
  | false => exact h'

/-! ### Lists -/

theorem moreItems (h : Compared K R p q) :
    Compared K (List.Forall₂ R) (fun c => Parse.moreItems p c) (fun c => Parse.moreItems q c) := by
  -- The lists end together because the cursors are always of one length.
  have run : ∀ n c d, c.tokens.length = n → K.cursor c d →
      Matched K.failure (fun x y => List.Forall₂ R x.1 y.1 ∧ K.cursor x.2 y.2) (Parse.moreItems p c)
        (Parse.moreItems q d) := by
    intro n
    induction n using Nat.strongRecOn with
    | ind n ih =>
      intro c d hn hcd
      rw [Parse.moreItems, Parse.moreItems, K.kind_eq hcd]
      split
      · have hitem := h c.next d.next (K.next hcd)
        generalize p.run c.next = left at hitem ⊢
        generalize q.run d.next = right at hitem ⊢
        cases hitem with
        | failed hfail => exact .failed hfail
        | @given x y hxy =>
          obtain ⟨hvalue, hleft⟩ := hxy
          simp only [K.length_eq hleft, K.length_eq hcd]
          split
          · rename_i hlt
            have hshorter : x.2.tokens.length < n := by rwa [← hn, K.length_eq hleft, K.length_eq hcd]
            have hmore := ih _ hshorter x.2 y.2 rfl hleft
            generalize Parse.moreItems p x.2 = left at hmore ⊢
            generalize Parse.moreItems q y.2 = right at hmore ⊢
            cases hmore with
            | failed hfail => exact .failed hfail
            | given hrest => exact .given ⟨.cons hvalue hrest.1, hrest.2⟩
          · exact .given ⟨.cons hvalue .nil, hleft⟩
      · exact .given ⟨.nil, hcd⟩
  exact fun c d hcd => run _ c d rfl hcd

theorem commaList (h : Compared K R p q) : Compared K (List.Forall₂ R) (Parse.commaList p) (Parse.commaList q) :=
  h.bind fun _ _ hxy => h.moreItems.bind fun _ _ hrest => .pure (.cons hxy hrest)

/-- A list of items that are the same is the same list. -/
theorem commaList_eq {p : Parser α} (h : Compared K Eq p p) : Compared K Eq (Parse.commaList p) (Parse.commaList p) :=
  h.commaList.mono fun _ _ hall => List.forall₂_eq_eq_eq ▸ hall

theorem parenthesized (h : Compared K R p q) : Compared K R (Parse.parenthesized p) (Parse.parenthesized q) :=
  (symbol _).andThen fun _ => h.bind fun _ _ hxy => (symbol _).andThen fun _ => .pure hxy

end Compared

/-! ### Selections -/

/-- Selections of the same kind and name, of expressions that are related. -/
inductive Selected.Related (R : Expr → Expr → Prop) : Selected → Selected → Prop where
  | star : Related R star star
  | entity (name : String) (position position' : Span) : Related R (entity name position) (entity name position')
  | values {es es' : List Expr} (h : List.Forall₂ R es es') : Related R (given (.values es)) (given (.values es'))
  | construct (name : String) {es es' : List Expr} (h : List.Forall₂ R es es') :
    Related R (given (.construct name es)) (given (.construct name es'))

namespace Compared

variable {K : Comparison} {R : Expr → Expr → Prop} (h : Compared K R expression expression)

include h

theorem arguments : Compared K (List.Forall₂ R) Parse.arguments Parse.arguments := by
  refine (symbol _).andThen fun _ => ?_
  refine (eat _).andThen fun closed => ?_
  cases closed with
  | true => exact .pure .nil
  | false =>
    refine h.commaList.bind fun es es' hes => ?_
    exact (symbol _).andThen fun _ => .pure hes

theorem selected : Compared K (Selected.Related R) Parse.selected Parse.selected := by
  refine place.bind fun position position' _ => ?_
  refine peek.andThen fun k => ?_
  split
  · exact skip.andThen fun _ => .pure .star
  · exact skip.andThen fun _ => .pure (.entity _ _ _)
  · exact h.commaList.parenthesized.bind fun es es' hes => .pure (.values hes)
  · refine skip.andThen fun _ => ?_
    refine identifier.andThen fun name => ?_
    exact (arguments h).bind fun es es' hes => .pure (.construct name hes)
  · exact .unexpected _

end Compared

end Clausal.Parse
