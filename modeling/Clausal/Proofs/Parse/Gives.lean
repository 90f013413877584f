import Clausal.Parse.Fragment
import Clausal.Proofs.Token.Names

/-!
# What readers give

A property of what a reader gives whenever it gives anything, from tokens that some text has. The property also
speaks of the aliases that are bound then. As for reading tokens back, there is one rule for each way in which
readers are put together.
-/

namespace Clausal.Parse

open Token (Kind)

/-- What is known of the tokens that are left stays known when one is passed, and they are tokens of a text. -/
structure Kept (known : List Token → Prop) : Prop where
  tail : ∀ {t : Token} {ts : List Token}, known (t :: ts) → known ts
  sane : ∀ {t : Token} {ts : List Token}, known (t :: ts) → t.kind.Sane

/-- Whatever the reader gives has the property, and what is known of the tokens stays known. -/
def Gives {α : Type} (known : List Token → Prop) (p : Parser α) (m : Aliases) (Q : α → Aliases → Prop) : Prop :=
  ∀ c x c', c.aliases = m → known c.tokens → p.run c = .ok (x, c') → known c'.tokens ∧ Q x c'.aliases

theorem bind_run_eq_ok {α β : Type} {p : Parser α} {f : α → Parser β} {c c'' : Cursor} {y : β}
    (h : (p >>= f).run c = .ok (y, c'')) :
    ∃ x c', p.run c = .ok (x, c') ∧ (f x).run c' = .ok (y, c'') := by
  rw [StateT.run_bind] at h
  cases hp : p.run c with
  | error e =>
    rw [hp] at h
    cases h
  | ok r =>
    rw [hp] at h
    exact ⟨r.1, r.2, rfl, h⟩

theorem eat_eq_ok {k : Kind} {found : Bool} {c c' : Cursor} (h : (eat k).run c = .ok (found, c')) :
    (found = true ∧ c.kind = k ∧ c' = c.next) ∨ (found = false ∧ c.kind ≠ k ∧ c' = c) := by
  obtain ⟨next, c₁, hpeek, h⟩ := bind_run_eq_ok h
  cases hpeek
  split at h
  · rename_i hkind
    obtain ⟨_, c₂, hskip, h⟩ := bind_run_eq_ok h
    cases hskip
    cases h
    exact .inl ⟨rfl, hkind, rfl⟩
  · rename_i hkind
    cases h
    exact .inr ⟨rfl, hkind, rfl⟩

theorem keyword_eq_ok {k : Keyword} {c c' : Cursor} (h : (keyword k).run c = .ok ((), c')) :
    c.kind = .keyword k ∧ c' = c.next := by
  obtain ⟨found, c₁, heat, h⟩ := bind_run_eq_ok h
  rcases eat_eq_ok heat with ⟨rfl, hkind, rfl⟩ | ⟨rfl, -, -⟩
  · cases h
    exact ⟨hkind, rfl⟩
  · cases h

theorem bindAlias_eq_ok {name : String} {e : Entity} {span : Span} {c c' : Cursor} {x : Unit}
    (h : (bindAlias name e span).run c = .ok (x, c')) :
    ∃ aliases, c.aliases.bind name e = .ok aliases ∧ c' = { c with aliases } := by
  have hrun : (bindAlias name e span).run c =
      (c.aliases.bind name e |>.mapError fun error => ⟨.rejected error, span⟩).map fun aliases =>
        ((), { c with aliases }) := by
    simp only [bindAlias, StateT.run_bind, StateT.run_get, pure_bind]
    cases c.aliases.bind name e <;> rfl
  rw [hrun] at h
  cases hbind : c.aliases.bind name e with
  | error error =>
    rw [hbind] at h
    cases h
  | ok aliases =>
    rw [hbind] at h
    cases h
    exact ⟨aliases, rfl, rfl⟩

namespace Gives

variable {α β : Type} {known : List Token → Prop} {p : Parser α} {f : α → Parser β} {m : Aliases}
  {Q Q' : α → Aliases → Prop} {R : β → Aliases → Prop}

theorem mono (h : Gives known p m Q) (hQ : ∀ x m', Q x m' → Q' x m') : Gives known p m Q' := by
  intro c x c' hc hknown hrun
  obtain ⟨hknown', hx⟩ := h c x c' hc hknown hrun
  exact ⟨hknown', hQ _ _ hx⟩

theorem pure {x : α} (h : Q x m) : Gives known (Pure.pure x) m Q := by
  intro c y c' hc hknown hrun
  cases hrun
  exact ⟨hknown, hc ▸ h⟩

theorem bind (h : Gives known p m Q) (hf : ∀ x m', Q x m' → Gives known (f x) m' R) :
    Gives known (p >>= f) m R := by
  intro c y c'' hc hknown hrun
  obtain ⟨x, c', hp, hrest⟩ := bind_run_eq_ok hrun
  obtain ⟨hknown', hx⟩ := h c x c' hc hknown hp
  exact hf x _ hx c' y c'' rfl hknown' hrest

theorem fail (fault : Fault) (span : Span) : Gives known (Parse.fail fault span : Parser α) m Q := by
  intro c x c' _ _ hrun
  cases hrun

theorem unexpected (expected : Expected) : Gives known (Parse.unexpected expected : Parser α) m Q := by
  intro c x c' _ _ hrun
  cases hrun

theorem fail_bind (fault : Fault) (span : Span) {f : α → Parser β} : Gives known (Parse.fail fault span >>= f) m R :=
  (Gives.fail (Q := fun _ _ => False) fault span).bind fun _ _ h => h.elim

theorem unexpected_bind (expected : Expected) {f : α → Parser β} :
    Gives known (Parse.unexpected expected >>= f) m R :=
  (Gives.unexpected (Q := fun _ _ => False) expected).bind fun _ _ h => h.elim

theorem get : Gives known (MonadState.get : Parser Cursor) m fun c m' => m' = m ∧ c.aliases = m := by
  intro c x c' hc hknown hrun
  cases hrun
  exact ⟨hknown, hc, hc⟩

theorem place : Gives known Parse.place m fun _ m' => m' = m := by
  intro c x c' hc hknown hrun
  cases hrun
  exact ⟨hknown, hc⟩

end Gives

section Kept

variable {α : Type} {known : List Token → Prop} (hkept : Kept known) {m : Aliases}

include hkept

theorem Gives.peek : Gives known Parse.peek m fun k m' => m' = m ∧ k.Sane := by
  intro c x c' hc hknown hrun
  cases hrun
  refine ⟨hknown, hc, ?_⟩
  obtain ⟨ts, stop, m⟩ := c
  cases ts with
  | nil => exact trivial
  | cons t ts => exact hkept.sane hknown

theorem kept_next {c : Cursor} (h : known c.tokens) : known c.next.tokens := by
  obtain ⟨ts, stop, m⟩ := c
  cases ts with
  | nil => exact h
  | cons t ts => exact hkept.tail h

theorem Gives.skip : Gives known Parse.skip m fun _ m' => m' = m := by
  intro c x c' hc hknown hrun
  cases hrun
  exact ⟨kept_next hkept hknown, hc⟩

theorem Gives.eat (k : Kind) : Gives known (Parse.eat k) m fun _ m' => m' = m := by
  refine (Gives.peek hkept).bind ?_
  rintro next m' ⟨rfl, -⟩
  split
  · refine (Gives.skip hkept).bind ?_
    rintro _ m' rfl
    exact .pure rfl
  · exact .pure rfl

theorem Gives.symbol (s : Symbol) : Gives known (Parse.symbol s) m fun _ m' => m' = m := by
  refine (Gives.eat hkept (.symbol s)).bind ?_
  rintro b m' rfl
  cases b with
  | true => exact .pure rfl
  | false => exact .unexpected _

theorem Gives.keyword (k : Keyword) : Gives known (Parse.keyword k) m fun _ m' => m' = m := by
  refine (Gives.eat hkept (.keyword k)).bind ?_
  rintro b m' rfl
  cases b with
  | true => exact .pure rfl
  | false => exact .unexpected _

theorem Gives.identifier : Gives known Parse.identifier m fun name m' => m' = m ∧ name ≠ "" := by
  refine (Gives.peek hkept).bind ?_
  rintro next m' ⟨rfl, hsane⟩
  split
  · refine (Gives.skip hkept).bind ?_
    rintro _ m' rfl
    exact .pure ⟨rfl, hsane⟩
  · exact .unexpected _

theorem Gives.integer : Gives known Parse.integer m fun _ m' => m' = m := by
  refine (Gives.peek hkept).bind ?_
  rintro next m' ⟨rfl, -⟩
  split
  · refine (Gives.skip hkept).bind ?_
    rintro _ m' rfl
    exact .pure rfl
  · exact .unexpected _

end Kept

/-! ### Places in a text -/

/-- What is left of all tokens after some kinds of tokens have stood in this order. -/
def Within (all : List Token) (words : List Kind) (ts : List Token) : Prop :=
  ∃ before, all = before ++ ts ∧ words.Sublist (before.map (·.kind))

theorem Within.kept {all : List Token} (hsane : ∀ t ∈ all, t.kind.Sane) (words : List Kind) :
    Kept (Within all words) where
  tail := by
    rintro t ts ⟨before, hall, hwords⟩
    refine ⟨before ++ [t], by rw [hall, List.append_assoc, List.singleton_append], ?_⟩
    rw [List.map_append]
    exact hwords.trans (List.sublist_append_left _ _)
  sane := by
    rintro t ts ⟨before, rfl, -⟩
    exact hsane t (by simp)

theorem Within.next {words : List Kind} {k : Kind} (hk : k ≠ .eof) {all : List Token} {c : Cursor}
    (h : Within all words c.tokens) (hkind : c.kind = k) : Within all (words ++ [k]) c.next.tokens := by
  obtain ⟨tokens, stop, m⟩ := c
  obtain ⟨before, hall, hwords⟩ := h
  cases tokens with
  | nil => exact absurd hkind.symm hk
  | cons t ts =>
    refine ⟨before ++ [t], by rw [hall, List.append_assoc]; rfl, ?_⟩
    rw [List.map_append, ← hkind]
    exact hwords.append (List.Sublist.refl _)

theorem Within.start (all : List Token) : Within all [] all := ⟨[], rfl, List.Sublist.refl _⟩

theorem Within.of_append {all : List Token} {words later : List Kind} {ts : List Token}
    (h : Within all (words ++ later) ts) : Within all words ts := by
  obtain ⟨before, hall, hwords⟩ := h
  exact ⟨before, hall, (List.sublist_append_left _ _).trans hwords⟩

/-- After a token has been asked for, and was there, it is one of those that stood in front. -/
theorem Gives.eat_bind {β : Type} {all : List Token} {words : List Kind} {k : Kind}
    {f : Bool → Parser β} {m : Aliases} {R : β → Aliases → Prop}
    (hk : k ≠ .eof) (hthere : Gives (Within all (words ++ [k])) (f true) m R)
    (hother : Gives (Within all words) (f false) m R) :
    Gives (Within all words) (Parse.eat k >>= f) m R := by
  intro c y c'' hc hwithin hrun
  obtain ⟨found, c', heat, hrest⟩ := bind_run_eq_ok hrun
  rcases eat_eq_ok heat with ⟨rfl, hkind, rfl⟩ | ⟨rfl, -, rfl⟩
  · obtain ⟨hleft, hy⟩ := hthere c.next y c'' hc (hwithin.next hk hkind) hrest
    exact ⟨hleft.of_append, hy⟩
  · exact hother c' y c'' hc hwithin hrest

theorem Gives.parenthesized_within {α : Type} {all : List Token} (hsane : ∀ t ∈ all, t.kind.Sane) {words : List Kind}
    {inside : Parser α} {m : Aliases} {Q : α → Aliases → Prop}
    (h : Gives (Within all (words ++ [.symbol .leftParen])) inside m Q) :
    Gives (Within all words) (Parse.parenthesized inside) m Q := by
  have hsplit : Parse.parenthesized inside = Parse.eat (.symbol .leftParen) >>= fun found =>
      (if found = true then Pure.pure () else Parse.unexpected (.symbol .leftParen)) >>= fun _ =>
        inside >>= fun x => Parse.symbol .rightParen >>= fun _ => Pure.pure x := bind_assoc _ _ _
  rw [hsplit]
  refine Gives.eat_bind (by decide) ?_ (.unexpected_bind _)
  rw [if_pos rfl, pure_bind]
  refine h.bind fun x m' hx => ?_
  refine (Gives.symbol (Within.kept hsane _) _).bind ?_
  rintro _ m'' rfl
  exact .pure hx

/-! ### Lists -/

/-- A relation that holds along a list of items, with the aliases before and after each of them. -/
inductive Chain {α : Type} (R : Aliases → α → Aliases → Prop) : Aliases → List α → Aliases → Prop where
  | nil (m : Aliases) : Chain R m [] m
  | cons {m m' m'' : Aliases} {x : α} {xs : List α} : R m x m' → Chain R m' xs m'' → Chain R m (x :: xs) m''

theorem Chain.same {α : Type} {P : Aliases → α → Prop} {m m' : Aliases} {xs : List α}
    (h : Chain (fun m x m' => m' = m ∧ P m x) m xs m') : m' = m ∧ ∀ x ∈ xs, P m x := by
  induction h with
  | nil m => exact ⟨rfl, fun x hx => absurd hx List.not_mem_nil⟩
  | cons hx _ ih =>
    obtain ⟨rfl, hP⟩ := hx
    exact ⟨ih.1, List.forall_mem_cons.2 ⟨hP, ih.2⟩⟩

section Lists

variable {α : Type} {known : List Token → Prop} (hkept : Kept known) {item : Parser α}
  {R : Aliases → α → Aliases → Prop}

include hkept

theorem Gives.moreItems (h : ∀ m, Gives known item m (R m)) (m : Aliases) :
    Gives known (fun c => Parse.moreItems item c) m (Chain R m) := by
  have run : ∀ c xs c', known c.tokens → Parse.moreItems item c = .ok (xs, c') →
      known c'.tokens ∧ Chain R c.aliases xs c'.aliases := by
    intro c
    fun_induction Parse.moreItems item c with
    | case1 c hcomma f hitem =>
      intro xs c' _ hrun
      cases hrun
    | case2 c hcomma x c₁ hitem hlen f hmore ih =>
      intro xs c' _ hrun
      cases hrun
    | case3 c hcomma x c₁ hitem hlen xs c₂ hmore ih =>
      intro ys c' hknown hrun
      cases hrun
      obtain ⟨hknown₁, hx⟩ := h _ _ _ _ rfl (kept_next hkept hknown) hitem
      obtain ⟨hknown₂, hxs⟩ := ih _ _ hknown₁ hmore
      exact ⟨hknown₂, .cons hx hxs⟩
    | case4 c hcomma x c₁ hitem hlen =>
      intro ys c' hknown hrun
      cases hrun
      obtain ⟨hknown₁, hx⟩ := h _ _ _ _ rfl (kept_next hkept hknown) hitem
      exact ⟨hknown₁, .cons hx (.nil _)⟩
    | case5 c hstop =>
      intro xs c' hknown hrun
      cases hrun
      exact ⟨hknown, .nil _⟩
  intro c xs c' hc hknown hrun
  rw [← hc]
  exact run c xs c' hknown hrun

theorem Gives.commaList (h : ∀ m, Gives known item m (R m)) (m : Aliases) :
    Gives known (Parse.commaList item) m fun xs m' => xs ≠ [] ∧ Chain R m xs m' := by
  refine (h m).bind fun x m' hx => ?_
  refine (Gives.moreItems hkept h m').bind fun xs m'' hxs => ?_
  exact .pure ⟨List.cons_ne_nil x xs, .cons hx hxs⟩

theorem Gives.parenthesized {inside : Parser α} {m : Aliases} {Q : α → Aliases → Prop}
    (h : Gives known inside m Q) : Gives known (Parse.parenthesized inside) m Q := by
  refine (Gives.symbol hkept _).bind ?_
  rintro _ m' rfl
  refine h.bind fun x m' hx => ?_
  refine (Gives.symbol hkept _).bind ?_
  rintro _ m'' rfl
  exact .pure hx

/-- A list whose items leave the aliases as they are. -/
theorem Gives.commaList_same {P : Aliases → α → Prop}
    (h : ∀ m, Gives known item m fun x m' => m' = m ∧ P m x) (m : Aliases) :
    Gives known (Parse.commaList item) m fun xs m' => m' = m ∧ xs ≠ [] ∧ ∀ x ∈ xs, P m x := by
  refine (Gives.commaList hkept h m).mono fun xs m' hxs => ?_
  obtain ⟨hsame, hall⟩ := hxs.2.same
  exact ⟨hsame, hxs.1, hall⟩

end Lists

end Clausal.Parse
