import Clausal.Proofs.Parse.Gives
import Clausal.Proofs.Parse.Numbers

/-!
# What readers use up

Whatever a reader gives, it has passed tokens that may stand where they do, and what it gives is told together with
the place behind these tokens and the numbers that they write. There is one rule for each way in which readers are put
together: the tokens of one reader stand in front of those of the next, and so do their numbers.
-/

namespace Clausal.Parse

open Token (Kind)

variable {α β : Type} {p q : Position} {r : Parser α} {f : α → Parser β}

/-- From a place on, a reader passes tokens that may stand there, and what it gives, the place behind them and their
numbers are related. -/
def Uses (p : Position) (r : Parser α) (Q : α → Position → List Number → Prop) : Prop :=
  ∀ c x c', r.run c = .ok (x, c') →
    ∃ used ns, c.tokens = used ++ c'.tokens ∧ p.written? used = some ns ∧ Q x (p.after used) ns

/-- A reader passes tokens without numbers. -/
def Passes (p : Position) (r : Parser α) (Q : α → Position → Prop) : Prop :=
  Uses p r fun x q ns => ns = [] ∧ Q x q

namespace Uses

variable {Q Q' : α → Position → List Number → Prop} {R : β → Position → List Number → Prop}

theorem mono (h : Uses p r Q) (hQ : ∀ x q ns, Q x q ns → Q' x q ns) : Uses p r Q' := by
  intro c x c' hrun
  obtain ⟨used, ns, htokens, hns, hx⟩ := h c x c' hrun
  exact ⟨used, ns, htokens, hns, hQ _ _ _ hx⟩

theorem pure {x : α} (h : Q x p []) : Uses p (Pure.pure x) Q := by
  intro c y c' hrun
  cases hrun
  exact ⟨[], [], rfl, rfl, h⟩

theorem bind (h : Uses p r Q)
    (hf : ∀ x q ns, Q x q ns → Uses q (f x) fun y q' more => R y q' (ns ++ more)) : Uses p (r >>= f) R := by
  intro c y c'' hrun
  obtain ⟨x, c', hr, hrest⟩ := bind_run_eq_ok hrun
  obtain ⟨used, ns, htokens, hns, hx⟩ := h c x c' hr
  obtain ⟨later, more, htokens', hmore, hy⟩ := hf _ _ _ hx c' y c'' hrest
  have hafter : p.after (used ++ later) = (p.after used).after later := List.foldl_append
  exact ⟨used ++ later, ns ++ more, by rw [htokens, htokens', List.append_assoc],
    Position.written?_append hns hmore, hafter.symm ▸ hy⟩

theorem fail (fault : Fault) (span : Span) : Uses p (Parse.fail fault span : Parser α) Q := by
  intro c x c' hrun
  cases hrun

theorem unexpected (expected : Expected) : Uses p (Parse.unexpected expected : Parser α) Q := by
  intro c x c' hrun
  cases hrun

theorem fail_bind (fault : Fault) (span : Span) {f : α → Parser β} : Uses p (Parse.fail fault span >>= f) R :=
  (Uses.fail (Q := fun _ _ _ => False) fault span).bind fun _ _ _ h => h.elim

theorem unexpected_bind (expected : Expected) {f : α → Parser β} : Uses p (Parse.unexpected expected >>= f) R :=
  (Uses.unexpected (Q := fun _ _ _ => False) expected).bind fun _ _ _ h => h.elim

end Uses

namespace Passes

variable {Q Q' : α → Position → Prop} {R : β → Position → List Number → Prop}

theorem mono (h : Passes p r Q) (hQ : ∀ x q, Q x q → Q' x q) : Passes p r Q' :=
  Uses.mono h fun _ _ _ hx => ⟨hx.1, hQ _ _ hx.2⟩

theorem uses (h : Passes p r Q) : Uses p r fun x q ns => Q x q ∧ ns = [] :=
  Uses.mono h fun _ _ _ hx => ⟨hx.2, hx.1⟩

theorem pure {x : α} (h : Q x p) : Passes p (Pure.pure x) Q := Uses.pure ⟨rfl, h⟩

theorem bind (h : Passes p r Q) (hf : ∀ x q, Q x q → Uses q (f x) R) : Uses p (r >>= f) R := by
  refine Uses.bind h ?_
  rintro x q _ ⟨rfl, hx⟩
  exact hf x q hx

theorem get : Passes p (MonadState.get : Parser Cursor) fun _ q => q = p := by
  intro c x c' hrun
  cases hrun
  exact ⟨[], [], rfl, rfl, rfl, rfl⟩

theorem peek : Passes p Parse.peek fun _ q => q = p := by
  intro c x c' hrun
  cases hrun
  exact ⟨[], [], rfl, rfl, rfl, rfl⟩

theorem place : Passes p Parse.place fun _ q => q = p := by
  intro c x c' hrun
  cases hrun
  exact ⟨[], [], rfl, rfl, rfl, rfl⟩

end Passes

/-! ### Tokens -/

/-- A token is passed that writes no number, whatever stands in front of it. -/
def Numberless (k : Kind) : Prop := k ≠ .eof ∧ ∀ p : Position, p.numbers? k = some []

theorem numberless_symbol (s : Symbol) : Numberless (.symbol s) := ⟨nofun, fun _ => rfl⟩

theorem numberless_keyword (k : Keyword) : Numberless (.keyword k) := ⟨nofun, fun _ => rfl⟩

theorem numberless_identifier (name : String) : Numberless (.identifier name) := ⟨nofun, fun _ => rfl⟩

theorem Numberless.written? {t : Token} {ts : List Token} {ns : List Number} (ht : Numberless t.kind)
    (hts : (p.next t.kind).written? ts = some ns) : p.written? (t :: ts) = some ns :=
  Position.written?_cons (ht.2 p) hts

/-- A token that is there is the first one. -/
theorem Cursor.tokens_eq_cons {c : Cursor} {k : Kind} (hkind : c.kind = k) (hk : k ≠ .eof) :
    ∃ t, t.kind = k ∧ c.tokens = t :: c.next.tokens := by
  obtain ⟨tokens, stop, m⟩ := c
  cases tokens with
  | nil => exact absurd hkind.symm hk
  | cons t ts => exact ⟨t, hkind, rfl⟩

/-- A token without a number stands in front of what is passed after it. -/
private theorem passes_first {k : Kind} (hk : Numberless k) {c : Cursor} (hkind : c.kind = k) {used rest : List Token}
    {ns : List Number} (htokens : c.next.tokens = used ++ rest) (hns : (p.next k).written? used = some ns) :
    ∃ all, c.tokens = all ++ rest ∧ p.written? all = some ns ∧ p.after all = (p.next k).after used := by
  obtain ⟨t, rfl, hfirst⟩ := c.tokens_eq_cons hkind hk.1
  exact ⟨t :: used, by rw [hfirst, htokens]; rfl, hk.written? hns, rfl⟩

/-- After a look at the next token the reader may pass it. -/
theorem Uses.peek_skip {R : β → Position → List Number → Prop} {f : Kind → Parser β}
    (h : ∀ k, (∃ g : Parser β, f k = Parse.skip >>= (fun _ => g) ∧ Numberless k ∧ Uses (p.next k) g R) ∨
      Uses p (f k) R) : Uses p (Parse.peek >>= f) R := by
  intro c y c'' hrun
  obtain ⟨k, c', hpeek, hrest⟩ := bind_run_eq_ok hrun
  cases hpeek
  rcases h c.kind with ⟨g, hskip, hk, hg⟩ | hother
  · rw [hskip] at hrest
    obtain ⟨_, c', hnext, hrest⟩ := bind_run_eq_ok hrest
    cases hnext
    obtain ⟨used, ns, htokens, hns, hy⟩ := hg _ _ _ hrest
    obtain ⟨all, hall, hns', hafter⟩ := passes_first hk rfl htokens hns
    exact ⟨all, ns, hall, hns', hafter.symm ▸ hy⟩
  · exact hother _ _ _ hrest

namespace Passes

theorem eat {k : Kind} (hk : Numberless k) :
    Passes p (Parse.eat k) fun found q => q = if found then p.next k else p := by
  intro c found c' hrun
  rcases eat_eq_ok hrun with ⟨rfl, hkind, rfl⟩ | ⟨rfl, -, rfl⟩
  · obtain ⟨all, hall, hns, hafter⟩ := passes_first (p := p) hk hkind (List.nil_append _).symm rfl
    exact ⟨all, [], hall, hns, rfl, hafter⟩
  · exact ⟨[], [], rfl, rfl, rfl, rfl⟩

theorem symbol (s : Symbol) : Passes p (Parse.symbol s) fun _ q => q = p.next (.symbol s) := by
  refine (eat (numberless_symbol s)).bind ?_
  rintro found q rfl
  cases found with
  | true => exact Passes.pure rfl
  | false => exact Uses.unexpected _

theorem keyword (k : Keyword) : Passes p (Parse.keyword k) fun _ q => q = p.next (.keyword k) := by
  refine (eat (numberless_keyword k)).bind ?_
  rintro found q rfl
  cases found with
  | true => exact Passes.pure rfl
  | false => exact Uses.unexpected _

theorem identifier : Passes p Parse.identifier fun name q => q = p.next (.identifier name) := by
  refine Uses.peek_skip fun k => ?_
  split
  · exact .inl ⟨_, rfl, numberless_identifier _, Passes.pure rfl⟩
  · exact .inr (Uses.unexpected _)

end Passes

/-- A word decides how to go on. -/
theorem Uses.word {R : α → Position → List Number → Prop} (k : Keyword) {r' : Parser α}
    (h : Uses (p.next (.keyword k)) r R) (h' : Uses p r' R) :
    Uses p (eatKeyword k >>= fun found => if found = true then r else r') R := by
  refine (Passes.eat (numberless_keyword k)).bind ?_
  rintro found q rfl
  cases found with
  | true => exact h
  | false => exact h'

theorem integer_eq_ok {n : UInt64} {c c' : Cursor} (h : integer.run c = .ok (n, c')) :
    c.kind = .integer n ∧ c' = c.next := by
  obtain ⟨k, c₁, hpeek, h⟩ := bind_run_eq_ok h
  cases hpeek
  split at h
  · rename_i n' hkind
    obtain ⟨_, c₂, hskip, h⟩ := bind_run_eq_ok h
    cases hskip
    cases h
    exact ⟨hkind, rfl⟩
  · cases h

/-- A whole number is passed that may stand where it does, or nothing is given in the end. -/
theorem Uses.integer_bind {f : UInt64 → Parser α} {R : α → Position → List Number → Prop}
    (hf : ∀ n x, p.number? n.toNat = some x → Uses (p.next (.integer n)) (f n) fun y q more => R y q (x :: more))
    (hnone : ∀ n, p.number? n.toNat = none → ∀ c, ∃ e, (f n).run c = .error e) :
    Uses p (Parse.integer >>= f) R := by
  intro c y c'' hrun
  obtain ⟨n, c', hinteger, hrest⟩ := bind_run_eq_ok hrun
  obtain ⟨hkind, rfl⟩ := integer_eq_ok hinteger
  obtain ⟨t, ht, htokens⟩ := c.tokens_eq_cons hkind nofun
  cases hx : p.number? n.toNat with
  | none =>
    obtain ⟨e, he⟩ := hnone n hx c.next
    cases hrest.symm.trans he
  | some x =>
    obtain ⟨used, ns, htokens', hns, hy⟩ := hf n x hx _ _ _ hrest
    rw [← ht] at hns hy
    have hone : p.numbers? t.kind = some [x] := by rw [ht, Position.numbers?, hx, Option.map_some]
    refine ⟨t :: used, x :: ns, ?_, Position.written?_cons hone hns, hy⟩
    rw [htokens, htokens']
    rfl

/-! ### Lists -/

/-- The numbers are those of the items, one item after the other. -/
inductive Shares (R : α → List Number → Prop) : List α → List Number → Prop where
  | nil : Shares R [] []
  | cons {x : α} {xs : List α} {ns more : List Number} (h : R x ns) (rest : Shares R xs more) :
    Shares R (x :: xs) (ns ++ more)

theorem Shares.eq_flatMap {g : α → List Number} {xs : List α} {ns : List Number}
    (h : Shares (fun x ns => ns = g x) xs ns) : ns = xs.flatMap g := by
  induction h with
  | nil => rfl
  | cons hx _ ih => rw [hx, ih, List.flatMap_cons]

section Lists

variable {P E : Position → Prop} {R : α → List Number → Prop} (h : ∀ p, P p → Uses p r fun x q ns => E q ∧ R x ns)
  (hcomma : ∀ q, E q → P (q.next (.symbol .comma)))

include h hcomma

theorem Uses.moreItems (hp : E p) : Uses p (fun c => Parse.moreItems r c) fun xs q ns => E q ∧ Shares R xs ns := by
  have run : ∀ c xs c', Parse.moreItems r c = .ok (xs, c') → ∀ p, E p →
      ∃ used ns, c.tokens = used ++ c'.tokens ∧ p.written? used = some ns ∧ E (p.after used) ∧ Shares R xs ns := by
    intro c
    fun_induction Parse.moreItems r c with
    | case1 c hkind f hitem =>
      intro xs c' hrun
      cases hrun
    | case2 c hkind x c₁ hitem hlen f hmore ih =>
      intro xs c' hrun
      cases hrun
    | case3 c hkind x c₁ hitem hlen xs c₂ hmore ih =>
      intro ys c' hrun p hp
      cases hrun
      obtain ⟨used, ns, htokens, hns, hE, hx⟩ := h _ (hcomma p hp) _ _ _ hitem
      obtain ⟨all, hall, hns', hafter⟩ := passes_first (numberless_symbol .comma) hkind htokens hns
      rw [← hafter] at hE
      obtain ⟨later, more, htokens', hmore, hE', hxs⟩ := ih _ _ hmore _ hE
      refine ⟨all ++ later, ns ++ more, ?_, Position.written?_append hns' hmore, ?_, .cons hx hxs⟩
      · rw [hall, htokens', List.append_assoc]
      · rw [Position.after, List.foldl_append]
        exact hE'
    | case4 c hkind x c₁ hitem hlen =>
      intro ys c' hrun p hp
      cases hrun
      obtain ⟨used, ns, htokens, hns, hE, hx⟩ := h _ (hcomma p hp) _ _ _ hitem
      obtain ⟨all, hall, hns', hafter⟩ := passes_first (numberless_symbol .comma) hkind htokens hns
      refine ⟨all, ns ++ [], hall, ?_, hafter.symm ▸ hE, .cons hx .nil⟩
      rwa [List.append_nil]
    | case5 c hkind =>
      intro xs c' hrun p hp
      cases hrun
      exact ⟨[], [], rfl, rfl, hp, .nil⟩
  exact fun c xs c' hrun => run c xs c' hrun p hp

theorem Uses.commaList (hp : P p) : Uses p (Parse.commaList r) fun xs q ns => E q ∧ Shares R xs ns := by
  refine (h p hp).bind ?_
  rintro x q ns ⟨hq, hx⟩
  refine (Uses.moreItems h hcomma hq).bind ?_
  rintro xs q' more ⟨hq', hxs⟩
  refine .pure ⟨hq', ?_⟩
  rw [List.append_nil]
  exact .cons hx hxs

end Lists

/-- Behind a closing parenthesis an operand has ended, whatever stands between the parentheses. -/
theorem Uses.parenthesized {R : α → List Number → Prop}
    (h : Uses (p.next (.symbol .leftParen)) r fun x _ ns => R x ns) :
    Uses p (Parse.parenthesized r) fun x q ns => q = .ended ∧ R x ns := by
  refine (Passes.symbol _).bind ?_
  rintro _ q rfl
  refine h.bind fun x q ns hx => ?_
  refine (Passes.symbol _).bind ?_
  rintro _ q' rfl
  exact .pure ⟨rfl, by rwa [List.append_nil]⟩

theorem Passes.parenthesized {Q : α → Position → Prop} (h : Passes (p.next (.symbol .leftParen)) r Q) :
    Passes p (Parse.parenthesized r) fun _ q => q = .ended :=
  (Uses.parenthesized (Uses.mono h fun _ _ _ hx => hx.1)).mono fun _ _ _ hx => ⟨hx.2, hx.1⟩

end Clausal.Parse
