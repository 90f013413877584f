import Clausal.Proofs.Parse.Elsewhere
import Clausal.Proofs.Parse.Reads

/-!
# Selections whose aliases are bound later

What is selected is read while no alias is bound, and its paths are resolved when all are. The outcome is what would
have been read if the aliases had been bound from the start, and what a condition would be read as if it stood where
the expression stands. The two runs are compared: they take the same steps, and differ in their paths only.
-/

namespace Clausal.Parse

open Token (Kind)

def Selected.selection : Selected → Selection
  | star | entity .. => .all
  | given s => s

theorem Selected.Related.selection {g : Expr → Expr} {W : Expr → Prop} {list list' : Selected}
    (h : Related (fun e e' => e' = g e ∧ W e') list list') :
    list'.selection = list.selection.mapExprs g ∧ ∀ e ∈ list'.selection.exprs, W e := by
  have all (es es' : List Expr) (hes : List.Forall₂ (fun e e' => e' = g e ∧ W e') es es') :
      es' = es.map g ∧ ∀ e ∈ es', W e := by
    induction hes with
    | nil => exact ⟨rfl, fun e he => absurd he List.not_mem_nil⟩
    | cons he _ ih =>
      obtain ⟨rfl, hW⟩ := he
      exact ⟨congrArg (g _ :: ·) ih.1, List.forall_mem_cons.2 ⟨hW, ih.2⟩⟩
  cases h with
  | star => exact ⟨rfl, fun e he => absurd he List.not_mem_nil⟩
  | entity name position position' => exact ⟨rfl, fun e he => absurd he List.not_mem_nil⟩
  | values hes => exact ⟨congrArg Selection.values (all _ _ hes).1, (all _ _ hes).2⟩
  | construct name hes => exact ⟨congrArg (Selection.construct name) (all _ _ hes).1, (all _ _ hes).2⟩

/-! ### Before and after the aliases are bound -/

private theorem parallel_suffix (all : List Token) : Parallel fun ts us => us = ts ∧ us <:+ all where
  nil h := h.1
  cons := by
    rintro t ts _ ⟨rfl, hsuffix⟩
    exact ⟨t, ts, rfl, rfl, rfl, (List.suffix_cons t ts).trans hsuffix⟩

variable {all : List Token} {m : Aliases} {stop : Nat}

/-- Cursors at the same tokens of a text, one where nothing is bound and one where the aliases are. -/
private def deferred (all : List Token) (m : Aliases) (stop : Nat) : Comparison :=
  elsewhere (parallel_suffix all) (fun n n' => n = .empty ∧ n' = m) stop stop

/-- The expression is read somewhere in a text when the aliases are bound. -/
def ReadIn (all : List Token) (stop : Nat) (m : Aliases) (e : Expr) : Prop :=
  ∃ ts rest, ts <:+ all ∧ expression.run ⟨ts, stop, m⟩ = .ok (e, ⟨rest, stop, m⟩)

private theorem expression_deferred :
    Compared (deferred all m stop) (fun e e' => e' = e.mapPaths (Path.resolve m) ∧ ReadIn all stop m e')
      expression expression := by
  have hresolve : ∀ n n' : Aliases, n = .empty ∧ n' = m → ∀ segments,
      Path.resolve n' ⟨none, segments⟩ = Path.resolve m (Path.resolve n ⟨none, segments⟩) := by
    rintro n n' ⟨rfl, rfl⟩ segments
    have hnone : Path.resolve .empty ⟨none, segments⟩ = ⟨none, segments⟩ := Path.reread_empty ⟨none, segments⟩
    rw [hnone]
  -- The second run is kept, since it says where the expression stands.
  refine (Compared.expressionAbove (parallel_suffix all) hresolve 0).recorded.mono ?_
  rintro e e' ⟨he, c, d, c', d', hcd, -, hrun, hcd'⟩
  obtain ⟨⟨-, hsuffix⟩, ⟨-, rfl⟩, -, hstop⟩ := hcd
  obtain ⟨-, ⟨-, haliases⟩, -, hstop'⟩ := hcd'
  obtain ⟨ts, _, _⟩ := d
  obtain ⟨rest, _, _⟩ := d'
  obtain rfl := hstop
  obtain rfl := hstop'
  obtain rfl := haliases
  exact ⟨he, ts, rest, hsuffix, hrun⟩

/-- What is selected is read from the same tokens when the aliases are bound. Its paths are resolved then. -/
theorem selected_deferred {ts : List Token} {list : Selected} {c : Cursor}
    (h : selected.run ⟨ts, stop, .empty⟩ = .ok (list, c)) (m : Aliases) :
    c = ⟨c.tokens, stop, .empty⟩ ∧ ∃ list', selected.run ⟨ts, stop, m⟩ = .ok (list', ⟨c.tokens, stop, m⟩) ∧
      list'.selection = list.selection.mapExprs (Expr.mapPaths (Path.resolve m)) ∧
      ∀ e ∈ list'.selection.exprs, ReadIn ts stop m e := by
  have hstart : (deferred ts m stop).cursor ⟨ts, stop, .empty⟩ ⟨ts, stop, m⟩ :=
    ⟨⟨rfl, List.suffix_rfl⟩, ⟨rfl, rfl⟩, rfl, rfl⟩
  have hboth := Compared.selected expression_deferred _ _ hstart
  rw [h] at hboth
  generalize hlater : selected.run ⟨ts, stop, m⟩ = later at hboth ⊢
  cases hboth with
  | @given _ y hy =>
    obtain ⟨hrelated, ⟨htokens, -⟩, ⟨hempty, hbound⟩, hstop, hstop'⟩ := hy
    obtain ⟨list', d⟩ := y
    obtain ⟨rest, _, _⟩ := c
    obtain ⟨rest', _, _⟩ := d
    obtain rfl : rest' = rest := htokens
    obtain rfl := hempty
    obtain rfl := hbound
    obtain rfl := hstop
    obtain rfl := hstop'
    exact ⟨rfl, list', rfl, hrelated.selection⟩

/-- After the word that opens a condition, an expression is read as a condition. -/
theorem filter_run {k : Keyword} {w : Token} {ts : List Token} {e : Expr} {c : Cursor} (hw : w.kind = .keyword k)
    (h : expression.run ⟨ts, stop, m⟩ = .ok (e, c)) :
    (filter k).run ⟨w :: ts, stop, m⟩ = .ok (Filter.empty.and e, c) := by
  have hword : Reads (eatKeyword k) m [.keyword k] (fun _ => True) true m := Reads.eat _
  have heat : (eatKeyword k).run ⟨w :: ts, stop, m⟩ = .ok (true, ⟨ts, stop, m⟩) :=
    hword [w] ts stop (congrArg (fun kind => [kind]) hw) trivial
  unfold filter
  rw [StateT.run_bind, heat]
  show (expression >>= fun e => (Pure.pure (Filter.empty.and e) : Parser Filter)).run _ = _
  rw [StateT.run_bind, h]
  rfl

/-! ### How a query is read -/

theorem resolveSelected_eq_ok {primary : EntityRef} {list : Selected} {s : Selection} {c c' : Cursor}
    (h : (resolveSelected primary list).run c = .ok (s, c')) :
    s = list.selection.mapExprs (Expr.mapPaths (Path.resolve c.aliases)) := by
  cases list with
  | star =>
    cases h
    rfl
  | entity name position =>
    simp only [resolveSelected] at h
    split at h
    · cases h
      rfl
    · obtain ⟨_, _, hfail, -⟩ := bind_run_eq_ok h
      cases hfail
  | given s =>
    cases h
    rfl

/-- What is selected by a query is what was read, resolved by the aliases that were bound after it. -/
theorem select_eq_ok {ctx : Context} {b : Body} {c c' : Cursor} (h : (select ctx).run c = .ok (b, c')) :
    ∃ q c₁ list c₂ c₃, b = .select q ∧ (eat (.keyword .distinct)).run c = .ok (q.projection.distinct, c₁) ∧
      selected.run c₁ = .ok (list, c₂) ∧ c₂.kind = .keyword .from ∧
      (sources ctx.catalog).run c₂.next = .ok (q.sources, c₃) ∧
      q.projection.selection = list.selection.mapExprs (Expr.mapPaths (Path.resolve c₃.aliases)) := by
  obtain ⟨distinct, c₁, hdistinct, h⟩ := bind_run_eq_ok h
  obtain ⟨list, c₂, hlist, h⟩ := bind_run_eq_ok h
  obtain ⟨_, c₃, hfrom, h⟩ := bind_run_eq_ok h
  obtain ⟨entities, c₄, hentities, h⟩ := bind_run_eq_ok h
  obtain ⟨selection, c₅, hselection, h⟩ := bind_run_eq_ok h
  obtain ⟨conditions, c₆, -, h⟩ := bind_run_eq_ok h
  obtain ⟨groupBy, c₇, -, h⟩ := bind_run_eq_ok h
  obtain ⟨having, c₈, -, h⟩ := bind_run_eq_ok h
  obtain ⟨orderBy, c₉, -, h⟩ := bind_run_eq_ok h
  obtain ⟨limit, c₁₀, -, h⟩ := bind_run_eq_ok h
  obtain ⟨offset, c₁₁, -, h⟩ := bind_run_eq_ok h
  cases h
  obtain ⟨hkind, rfl⟩ := keyword_eq_ok hfrom
  exact ⟨_, c₁, list, c₂, c₄, rfl, hdistinct, hlist, hkind, hentities, resolveSelected_eq_ok hselection⟩

/-- Whatever the reader gives is no query. -/
private def NoQuery (p : Parser Body) : Prop := ∀ c q c', p.run c ≠ .ok (.select q, c')

private theorem NoQuery.bind {α : Type} {p : Parser α} {f : α → Parser Body} (h : ∀ x, NoQuery (f x)) :
    NoQuery (p >>= f) := by
  intro c q c' hrun
  obtain ⟨x, c₁, -, hrest⟩ := bind_run_eq_ok hrun
  exact h x c₁ q c' hrest

private theorem NoQuery.pure {b : Body} (h : ∀ q, b ≠ .select q) : NoQuery (Pure.pure b) := by
  intro c q c' hrun
  cases hrun
  exact h q rfl

private theorem NoQuery.ite {p : Prop} [Decidable p] {f g : Parser Body} (hf : NoQuery f) (hg : NoQuery g) :
    NoQuery (if p then f else g) := by
  split
  · exact hf
  · exact hg

section NoQuery

variable (ctx : Context)

private theorem noQuery_insert (mode : InsertMode) : NoQuery (insert ctx mode) := by
  refine .bind fun _ => .bind fun target => .bind fun k => .ite ?_ ?_
  · exact .bind fun values => .pure fun _ h => Body.noConfusion h
  · exact .pure fun _ h => Body.noConfusion h

private theorem noQuery_createIndex : NoQuery (createIndex ctx) := by
  refine .bind fun unique => .bind fun _ => .bind fun name => .bind fun _ => .bind fun target => .bind fun k => ?_
  refine .ite ?_ ?_
  · exact .bind fun ps => .pure fun _ h => Body.noConfusion h
  · exact .pure fun _ h => Body.noConfusion h

private theorem noQuery_others : NoQuery (do
    if ← eatKeyword .insert then insert ctx .insert
    else if ← eatKeyword .upsert then insert ctx .upsert
    else if ← eatKeyword .merge then insert ctx .merge
    else if ← eatKeyword .update then update ctx
    else if ← eatKeyword .delete then delete ctx
    else if ← eatKeyword .create then create ctx
    else unexpected .statement) := by
  have hupdate : NoQuery (update ctx) :=
    .bind fun _ => .bind fun _ => .bind fun _ => .pure fun _ h => Body.noConfusion h
  have hdelete : NoQuery (delete ctx) :=
    .bind fun _ => .bind fun _ => .bind fun _ => .pure fun _ h => Body.noConfusion h
  have htable : NoQuery (createTable ctx) := .bind fun _ => .bind fun _ => .pure fun _ h => Body.noConfusion h
  have hcreate : NoQuery (create ctx) := .bind fun _ => .ite htable (noQuery_createIndex ctx)
  have hnone : NoQuery (unexpected .statement) := fun c q c' hrun => by cases hrun
  refine .bind fun _ => .ite (noQuery_insert ctx _) (.bind fun _ => .ite (noQuery_insert ctx _) ?_)
  refine .bind fun _ => .ite (noQuery_insert ctx _) (.bind fun _ => .ite hupdate ?_)
  exact .bind fun _ => .ite hdelete (.bind fun _ => .ite hcreate hnone)

end NoQuery

/-- A query is read after its first word. -/
theorem wholeBody_eq_select {ctx : Context} {q : Select} {c c' : Cursor}
    (h : (wholeBody ctx).run c = .ok (.select q, c')) :
    c.kind = .keyword .select ∧ ∃ c'', (select ctx).run c.next = .ok (.select q, c'') := by
  obtain ⟨b, c₁, hbody, h⟩ := bind_run_eq_ok h
  obtain ⟨k, c₂, hpeek, h⟩ := bind_run_eq_ok h
  split at h
  · cases h
    obtain ⟨found, c₃, hfound, hrest⟩ := bind_run_eq_ok hbody
    rcases eat_eq_ok hfound with ⟨rfl, hkind, rfl⟩ | ⟨rfl, -, rfl⟩
    · exact ⟨hkind, _, hrest⟩
    · exact absurd hrest (noQuery_others ctx _ _ _)
  · obtain ⟨_, _, hfail, -⟩ := bind_run_eq_ok h
    cases hfail

end Clausal.Parse
