import Clausal.Parse.Fragment
import Clausal.Proofs.Parse.ReadBack

/-!
# Readers and the tokens they read

A reader reads a list of kinds of tokens when it passes exactly these tokens, wherever what follows them is
allowed, gives the value and binds the aliases. There is one rule for each way in which readers are put
together.
-/

namespace Clausal.Parse

open Token (Kind listed)

/-- The reader passes exactly these tokens, if what follows is allowed. -/
def Reads {α : Type} (p : Parser α) (m : Aliases) (ks : List Kind) (follow : Kind → Prop) (x : α) (m' : Aliases) :
    Prop :=
  ∀ ts rest stop, ts.map (·.kind) = ks → follow (nextKind rest) →
    p.run ⟨ts ++ rest, stop, m⟩ = .ok (x, ⟨rest, stop, m'⟩)

theorem kind_eq_nextKind (c : Cursor) : c.kind = nextKind c.tokens := by
  obtain ⟨tokens, stop, m⟩ := c
  cases tokens <;> rfl

namespace Reads

variable {α β : Type} {p : Parser α} {f : α → Parser β} {m m' m'' : Aliases} {ks ls : List Kind} {k : Kind}
  {follow follow' : Kind → Prop} {x : α} {y : β}

theorem mono (h : Reads p m ks follow x m') (hf : ∀ k, follow' k → follow k) : Reads p m ks follow' x m' :=
  fun ts rest stop hts hrest => h ts rest stop hts (hf _ hrest)

theorem pure (x : α) : Reads (Pure.pure x) m [] follow x m := by
  intro ts rest stop hts _
  rw [List.map_eq_nil_iff.1 hts, List.nil_append]
  rfl

theorem bind (h : Reads p m ks follow x m') (h' : Reads (f x) m' ls follow' y m'')
    (hf : ∀ k, follow' k → follow (ls.headD k)) : Reads (p >>= f) m (ks ++ ls) follow' y m'' := by
  intro ts rest stop hts hrest
  obtain ⟨ts₁, ts₂, rfl, h₁, h₂⟩ := List.map_eq_append_iff.1 hts
  have hfirst := h ts₁ (ts₂ ++ rest) stop h₁ (by rw [nextKind_append h₂]; exact hf _ hrest)
  rw [List.append_assoc, StateT.run_bind, hfirst]
  exact h' ts₂ rest stop h₂ hrest

/-- What is done last and passes no token. -/
theorem close (h : Reads p m ks follow x m') (h' : Reads (f x) m' [] follow y m'') :
    Reads (p >>= f) m ks follow y m'' := by
  have hboth := h.bind h' fun _ hk => hk
  rwa [List.append_nil] at hboth

theorem map (h : Reads p m ks follow x m') (g : α → β) :
    Reads (p >>= fun a => Pure.pure (g a)) m ks follow (g x) m' :=
  h.close (Reads.pure (g x))

/-- What may be followed by anything. -/
theorem seq (h : Reads p m ks (fun _ => True) x m') (h' : Reads (f x) m' ls follow y m'') :
    Reads (p >>= f) m (ks ++ ls) follow y m'' :=
  h.bind h' fun _ _ => trivial

theorem cons (h : Reads p m [k] (fun _ => True) x m') (h' : Reads (f x) m' ls follow y m'') :
    Reads (p >>= f) m (k :: ls) follow y m'' :=
  h.seq h'

theorem peek_bind {f : Kind → Parser β} (h : ∀ k, follow k → Reads (f (ks.headD k)) m ks (· = k) y m') :
    Reads (peek >>= f) m ks follow y m' := by
  intro ts rest stop hts hrest
  have hkind : (Cursor.mk (ts ++ rest) stop m).kind = ks.headD (nextKind rest) := by
    rw [kind_eq_nextKind, nextKind_append hts]
  have hpeek : (peek >>= f).run ⟨ts ++ rest, stop, m⟩ =
      (f (Cursor.mk (ts ++ rest) stop m).kind).run ⟨ts ++ rest, stop, m⟩ := rfl
  rw [hpeek, hkind]
  exact h _ hrest ts rest stop hts rfl

theorem place_bind {f : Span → Parser β} (h : ∀ span, Reads (f span) m ks follow y m') :
    Reads (place >>= f) m ks follow y m' :=
  fun ts rest stop hts hrest => h _ ts rest stop hts hrest

theorem get_bind {f : Cursor → Parser β} (h : ∀ c, c.aliases = m → Reads (f c) m ks follow y m') :
    Reads (get >>= f) m ks follow y m' :=
  fun ts rest stop hts hrest => h _ rfl ts rest stop hts hrest

theorem skip : Reads Parse.skip m [k] follow () m := by
  intro ts rest stop hts _
  obtain ⟨t, ts, rfl, -, hts⟩ := List.map_eq_cons_iff.1 hts
  rw [List.map_eq_nil_iff.1 hts]
  rfl

/-! ### Single tokens -/

theorem eat (k : Kind) : Reads (Parse.eat k) m [k] follow true m := by
  refine peek_bind fun next _ => ?_
  rw [List.headD_cons, if_pos rfl]
  exact Reads.skip.map fun _ => true

theorem eat_other (k : Kind) : Reads (Parse.eat k) m [] (· ≠ k) false m := by
  refine peek_bind fun next hnext => ?_
  rw [List.headD_nil, if_neg hnext]
  exact Reads.pure false

theorem symbol (s : Symbol) : Reads (Parse.symbol s) m [.symbol s] follow () m := by
  exact (Reads.eat (.symbol s)).close (Reads.pure ())

theorem keyword (k : Keyword) : Reads (Parse.keyword k) m [.keyword k] follow () m := by
  exact (Reads.eat (.keyword k)).close (Reads.pure ())

theorem identifier (name : String) : Reads Parse.identifier m [.identifier name] follow name m := by
  refine peek_bind fun next _ => ?_
  exact Reads.skip.map fun _ => name

theorem integer (n : UInt64) : Reads Parse.integer m [.integer n] follow n m := by
  refine peek_bind fun next _ => ?_
  exact Reads.skip.map fun _ => n

/-- A word that decides which way to go on, and is there. -/
theorem eat_bind {f : Bool → Parser β} (h : Reads (f true) m ls follow y m') :
    Reads (Parse.eat k >>= f) m (k :: ls) follow y m' :=
  (Reads.eat k).cons h

/-- A word that decides which way to go on, and is not there. -/
theorem eat_other_bind {f : Bool → Parser β} (h : Reads (f false) m ls follow y m')
    (hk : ∀ next, follow next → ls.headD next ≠ k) : Reads (Parse.eat k >>= f) m ls follow y m' :=
  (Reads.eat_other k).bind h hk

end Reads

/-! ### Lists -/

theorem listed_cons (ks : List Kind) (kss : List (List Kind)) :
    listed (ks :: kss) = ks ++ kss.flatMap fun ls => .symbol .comma :: ls := by
  induction kss generalizing ks with
  | nil => rw [Token.listed_singleton, List.flatMap_nil, List.append_nil]
  | cons ls kss ih => rw [Token.listed_cons_cons, ih, List.flatMap_cons, List.cons_append]

/-- The items of a list one after the other, each with the aliases that the ones before it bind. -/
inductive ReadsAll {α : Type} (item : Parser α) (follow : Kind → Prop) :
    Aliases → List (List Kind) → List α → Aliases → Prop where
  | nil (m : Aliases) : ReadsAll item follow m [] [] m
  | cons {m m' m'' : Aliases} {ks : List Kind} {kss : List (List Kind)} {x : α} {xs : List α} :
    Reads item m ks follow x m' → ReadsAll item follow m' kss xs m'' →
      ReadsAll item follow m (ks :: kss) (x :: xs) m''

theorem ReadsAll.of_forall {α β : Type} {item : Parser β} {follow : Kind → Prop} {m : Aliases}
    {kinds : α → List Kind} {value : α → β} {xs : List α}
    (h : ∀ x ∈ xs, Reads item m (kinds x) follow (value x) m) :
    ReadsAll item follow m (xs.map kinds) (xs.map value) m := by
  induction xs with
  | nil => exact .nil m
  | cons x xs ih => exact .cons (h x List.mem_cons_self) (ih fun y hy => h y (List.mem_cons_of_mem _ hy))

theorem ReadsAll.append {α : Type} {item : Parser α} {follow : Kind → Prop} {m m' m'' : Aliases}
    {kss lss : List (List Kind)} {xs ys : List α} (h : ReadsAll item follow m kss xs m')
    (h' : ReadsAll item follow m' lss ys m'') : ReadsAll item follow m (kss ++ lss) (xs ++ ys) m'' := by
  induction h with
  | nil m => exact h'
  | cons hx _ ih => exact .cons hx (ih h')

theorem Reads.moreItems {α : Type} {item : Parser α} {follow : Kind → Prop} {m m' : Aliases}
    {kss : List (List Kind)} {xs : List α} (hcomma : follow (.symbol .comma))
    (h : ReadsAll item follow m kss xs m') :
    Reads (fun c => Parse.moreItems item c) m (kss.flatMap fun ls => .symbol .comma :: ls)
      (fun k => follow k ∧ k ≠ .symbol .comma) xs m' := by
  induction h with
  | nil m =>
    intro ts rest stop hts hrest
    rw [List.map_eq_nil_iff.1 hts, List.nil_append]
    have hstop : (Cursor.mk rest stop m).kind ≠ .symbol .comma := by
      rw [kind_eq_nextKind]
      exact hrest.2
    show Parse.moreItems item _ = _
    rw [Parse.moreItems, if_neg hstop]
  | @cons m m' m'' ks kss x xs hx hxs ih =>
    intro ts rest stop hts hrest
    rw [List.flatMap_cons, List.cons_append] at hts
    obtain ⟨t, ts, rfl, ht, hts⟩ := List.map_eq_cons_iff.1 hts
    obtain ⟨ts₁, ts₂, rfl, h₁, h₂⟩ := List.map_eq_append_iff.1 hts
    have hnext : follow (nextKind (ts₂ ++ rest)) := by
      rw [nextKind_append h₂]
      cases kss with
      | nil => exact hrest.1
      | cons ls kss => exact hcomma
    have hfirst := hx ts₁ (ts₂ ++ rest) stop h₁ hnext
    have hothers : Parse.moreItems item ⟨ts₂ ++ rest, stop, m'⟩ = .ok (xs, ⟨rest, stop, m''⟩) :=
      ih ts₂ rest stop h₂ hrest
    show Parse.moreItems item _ = _
    rw [Parse.moreItems, if_pos (by exact ht)]
    simp only [Cursor.next, List.cons_append, List.tail_cons, List.append_assoc, hfirst, hothers]
    rw [dif_pos (by simp only [List.length_cons, List.length_append]; omega)]

theorem Reads.commaList {α : Type} {item : Parser α} {follow : Kind → Prop} {m m' : Aliases}
    {kss : List (List Kind)} {xs : List α} (hcomma : follow (.symbol .comma)) (hne : xs ≠ [])
    (h : ReadsAll item follow m kss xs m') :
    Reads (Parse.commaList item) m (listed kss) (fun k => follow k ∧ k ≠ .symbol .comma) xs m' := by
  cases h with
  | nil m => exact absurd rfl hne
  | @cons _ m₁ _ ks kss x xs hx hxs =>
    rw [listed_cons]
    refine hx.bind ((Reads.moreItems hcomma hxs).map (x :: ·)) fun k hk => ?_
    cases kss with
    | nil => exact hk.1
    | cons ls kss => exact hcomma

theorem Reads.parenthesized {α : Type} {inside : Parser α} {m m' : Aliases} {ks : List Kind}
    {follow follow' : Kind → Prop} {x : α} (h : Reads inside m ks follow x m')
    (hclose : follow (.symbol .rightParen)) :
    Reads (Parse.parenthesized inside) m (Token.enclosed ks) follow' x m' := by
  refine (Reads.symbol .leftParen).cons (h.bind ?_ fun _ _ => hclose)
  exact (Reads.symbol .rightParen).map fun _ => x

/-! ### Expressions -/

/-- A token that goes on with no expression. -/
def Closing (k : Kind) : Prop := k ≠ .symbol .dot ∧ k ≠ .symbol .leftParen ∧ leftPower? k = none

theorem Closing.follows {k : Kind} (h : Closing k) (p : Nat) : Follows p k := .closing h.1 h.2.1 h.2.2

instance (k : Kind) : Decidable (Closing k) := by
  unfold Closing
  infer_instance

theorem binds_eq_false_of_none {power : Nat} {k : Kind} (h : leftPower? k = none) : binds power k = false := by
  rw [binds, h]

/-- An expression with nothing open around it ends before a token that does not bind it. -/
theorem run_done {m : Aliases} {floor stop : Nat} {rest : List Token} {e : Expr}
    (h : binds floor (nextKind rest) = false) : run m floor stop rest (.operator e) [] = .ok (e, rest) := by
  have hstep : ∀ t : Token, binds floor t.kind = false → step m floor (.operator e) [] t = .ok (.done e) := by
    intro t ht
    simp only [step]
    rw [settle, ht, if_neg (by decide)]
  cases rest with
  | nil => rw [run, hstep _ h]
  | cons t rest => rw [run, hstep t h]

theorem expressionAbove_of_runs {m : Aliases} {floor stop : Nat} {ks : List Kind} {follow : Kind → Prop} {e : Expr}
    {ts rest : List Token} (h : Runs m floor stop ks follow .operand [] (.operator e) [])
    (hts : ts.map (·.kind) = ks) (hrest : follow (nextKind rest)) (hend : binds floor (nextKind rest) = false) :
    (expressionAbove floor).run ⟨ts ++ rest, stop, m⟩ = .ok (e, ⟨rest, stop, m⟩) := by
  have hrun := h ts rest hts hrest
  rw [run_done hend] at hrun
  show expressionAbove floor _ = _
  simp only [expressionAbove, hrun]

theorem Reads.of_runs {m : Aliases} {ks : List Kind} {e : Expr}
    (h : ∀ stop, Runs m 0 stop ks Closing .operand [] (.operator e) []) :
    Reads expression m ks Closing e m :=
  fun _ _ stop hts hrest => expressionAbove_of_runs (h stop) hts hrest (binds_eq_false_of_none hrest.2.2)

/-- An expression is read back from its tokens, with its paths as they are read. -/
theorem Reads.expression {m : Aliases} {e : Expr} (h : e.WellFormed) :
    Reads Parse.expression m e.kinds Closing (e.mapPaths (Path.reread m)) m :=
  .of_runs fun _ => (runs_operand h [] (fits_zero e)).mono fun _ hk => hk.follows _

theorem Reads.expressions {m : Aliases} {es : List Expr} (hne : es ≠ []) (h : ∀ e ∈ es, e.WellFormed) :
    Reads (Parse.commaList Parse.expression) m (Expr.kindsAll es)
      (fun k => Closing k ∧ k ≠ .symbol .comma) (es.map (Expr.mapPaths (Path.reread m))) m := by
  rw [Expr.kindsAll_eq_listed]
  exact Reads.commaList (by decide) (by simpa using hne) (.of_forall fun e he => Reads.expression (h e he))

/-! ### Paths -/

/-- What is left after a path is an end of what was there. -/
theorem moreSegments_suffix (ts : List Token) : (moreSegments ts).2 <:+ ts := by
  fun_induction moreSegments ts with
  | case1 _ name _ rest segments left hmore ih =>
    rw [hmore] at ih
    exact ih.trans ((List.suffix_cons _ rest).trans (List.suffix_cons _ _))
  | case2 ts => exact List.suffix_rfl

private theorem moreSegments_pointed {ts rest : List Token} {names : List String}
    (hts : ts.map (·.kind) = Path.pointed names) (hrest : nextKind rest ≠ .symbol .dot) :
    moreSegments (ts ++ rest) = (names, rest) := by
  induction names generalizing ts with
  | nil =>
    rw [List.map_eq_nil_iff.1 hts, List.nil_append]
    unfold moreSegments
    split
    · exact absurd rfl hrest
    · rfl
  | cons name names ih =>
    rw [Path.pointed, List.flatMap_cons] at hts
    obtain ⟨⟨_, _⟩, ts₁, rfl, hdot, hts₁⟩ := List.map_eq_cons_iff.1 hts
    obtain ⟨⟨_, _⟩, ts₂, rfl, hname, hts₂⟩ := List.map_eq_cons_iff.1 hts₁
    cases hdot
    cases hname
    rw [List.cons_append, List.cons_append, moreSegments, ih hts₂]

theorem Reads.path {m : Aliases} {p : Path} (h : p.parts ≠ []) :
    Reads Parse.path m p.kinds (· ≠ .symbol .dot) (p.reread m) m := by
  rw [Path.kinds, Path.reread]
  cases hparts : p.parts with
  | nil => exact absurd hparts h
  | cons name names =>
    refine (Reads.identifier name).cons ?_
    refine Reads.close (?_ : Reads _ m (Path.pointed names) (· ≠ .symbol .dot) names m)
      (Reads.eat_other_bind (Reads.get_bind fun c hc => ?_) fun _ hk => hk)
    · intro ts rest stop hts hrest
      show Except.ok _ = _
      simp only [moreSegments_pointed hts hrest]
    · rw [hc]
      exact Reads.pure _

theorem Reads.pathList {m : Aliases} {ps : List Path} (hne : ps ≠ []) (h : ∀ p ∈ ps, p.parts ≠ []) :
    Reads Parse.pathList m (listed (ps.map Path.kinds)) (fun k => k ≠ .symbol .dot ∧ k ≠ .symbol .comma)
      (ps.map (Path.reread m)) m :=
  Reads.commaList (by decide) (by simpa using hne) (.of_forall fun p hp => Reads.path (h p hp))

end Clausal.Parse
