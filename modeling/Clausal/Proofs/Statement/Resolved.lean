import Clausal.Proofs.Parse.Deferred
import Clausal.Proofs.Statement.Known

/-!
# The paths of a statement that was read

Every path is resolved by the aliases that the statement binds. The list of a query stands before its entities, and
its paths are the ones that would have been read after them.
-/

namespace Clausal

/-- A resolved path has an alias that is bound, or it has none and begins with a segment that is no bound alias. -/
theorem Path.Resolved.qualified {m : Aliases} {p : Path} (h : p.Resolved m) (hparts : p.parts ≠ []) :
    (∀ a, p.qualifier = some a → m.contains a = true) ∧
      (p.qualifier = none → ∃ first rest, p.segments = first :: rest ∧ m.contains first = false) := by
  obtain ⟨qualifier, segments⟩ := p
  cases qualifier with
  | some a =>
    refine ⟨fun b hb => ?_, nofun⟩
    cases hb
    exact h
  | none =>
    refine ⟨nofun, fun _ => ?_⟩
    cases segments with
    | nil => exact absurd rfl hparts
    | cons first rest => exact ⟨first, rest, rfl, h first rfl⟩

namespace Parse

/-- The cursor at some tokens of a text, where some aliases are bound. -/
def Cursor.inText (text : String) (ts : List Token) (m : Aliases) : Cursor := ⟨ts, (Token.endMark text).span.stop, m⟩

/-- The list of a query as it stands in a text, after the words that open the query and before the entities. -/
structure ListOfQuery (text : String) (distinct : Bool) (ts rest : List Token) : Prop where
  opened : ∃ opening, Token.scan text = opening ++ ts ∧
    opening.map (·.kind) = .keyword .select :: if distinct then [.keyword .distinct] else []
  closed : nextKind rest = .keyword .from

/-- From the list of a query what is selected would be read with the aliases, and so would each expression if it were
a condition. -/
def SelectsAsBound (text : String) (m : Aliases) (p : Projection) : Prop :=
  ∃ ts rest, ListOfQuery text p.distinct ts rest ∧
    (∃ list, selected.run (.inText text ts m) = .ok (list, .inText text rest m) ∧ list.selection = p.selection) ∧
      ∀ e ∈ p.selection.exprs, ∃ us after, us <:+ ts ∧ ∀ w : Token, w.kind = .keyword .where →
        (filter .where).run (.inText text (w :: us) m) = .ok (Filter.empty.and e, .inText text after m)

theorem Cursor.tokens_of_kind {c : Cursor} {k : Token.Kind} (hk : k ≠ .eof) (h : c.kind = k) :
    ∃ t, t.kind = k ∧ c.tokens = t :: c.next.tokens := by
  obtain ⟨ts, stop, m⟩ := c
  cases ts with
  | nil => exact absurd h.symm hk
  | cons t ts => exact ⟨t, h, rfl⟩

private theorem opened_distinct {text : String} {c : Cursor} {distinct : Bool}
    (hselect : (Cursor.ofText text).kind = .keyword .select)
    (h : (eat (.keyword .distinct)).run (Cursor.ofText text).next = .ok (distinct, c)) :
    c = .inText text c.tokens .empty ∧ ∃ opening, Token.scan text = opening ++ c.tokens ∧
      opening.map (·.kind) = .keyword .select :: if distinct then [.keyword .distinct] else [] := by
  obtain ⟨t, ht, htokens⟩ := Cursor.tokens_of_kind (by decide) hselect
  rcases eat_eq_ok h with ⟨rfl, hkind, rfl⟩ | ⟨rfl, -, rfl⟩
  · obtain ⟨t', ht', htokens'⟩ := Cursor.tokens_of_kind (by decide) hkind
    refine ⟨rfl, [t, t'], ?_, ?_⟩
    · exact htokens.trans (congrArg (t :: ·) htokens')
    · rw [List.map_cons, List.map_singleton, ht, ht']
      rfl
  · refine ⟨rfl, [t], htokens, ?_⟩
    rw [List.map_singleton, ht]
    rfl

variable {text : String}

/-- What a query selects, where nothing is known of entities. -/
private theorem selectsAsBound {q : Select} {c : Cursor}
    (h : (wholeBody .empty).run (.ofText text) = .ok (.select q, c)) {m : Aliases}
    (hbound : Body.bindAll .empty q.sources.all = .ok m) {n : Aliases} (hn : ∀ a, n.contains a = m.contains a) :
    SelectsAsBound text n q.projection := by
  obtain ⟨hselect, _, hquery⟩ := wholeBody_eq_select h
  obtain ⟨_, c₁, list, c₂, c₃, hq, hdistinct, hlist, hfrom, hsources, hselection⟩ := select_eq_ok hquery
  cases hq
  obtain ⟨hc₁, opening, hscan, hopening⟩ := opened_distinct hselect hdistinct
  rw [hc₁] at hlist
  obtain ⟨hc₂, list', hread, hlist', hconditions⟩ := selected_deferred hlist n
  have hm : c₃.aliases = m := by
    have hkept : Kept (Within (Token.scan text) []) := Within.kept (fun t ht => Token.sane_scan ht) []
    have hstart : Within (Token.scan text) [] c₁.tokens := ⟨opening, hscan, List.nil_sublist _⟩
    obtain ⟨hwithin, hempty, -⟩ := Gives.selected hkept (.inText text c₁.tokens .empty) _ _ rfl hstart hlist
    obtain ⟨-, hall, -⟩ := Gives.sources hkept .empty c₂.next _ _ hempty (kept_next hkept hwithin) hsources
    exact Except.ok.inj (hall.symm.trans hbound)
  have hresolved : list'.selection = q.projection.selection := by
    rw [hlist', hselection, hm, Path.resolve_congr hn]
  refine ⟨c₁.tokens, c₂.tokens, ⟨⟨opening, hscan, hopening⟩, ?_⟩, ⟨list', hread, hresolved⟩, ?_⟩
  · rw [← kind_eq_nextKind, hfrom]
  · rw [← hresolved]
    intro e he
    obtain ⟨us, after, hus, hexpression⟩ := hconditions e he
    exact ⟨us, after, hus, fun w hw => filter_run hw hexpression⟩

end Parse

namespace Statement

variable {ctx : Parse.Context} {text : String} {s : Statement}

/-- The aliases that are bound in a context are those that are bound where nothing is known. -/
private theorem contains_aliases_known {s t : Statement} (h : t.body = s.body.known ctx) (a : String) :
    t.aliases.contains a = s.aliases.contains a := by
  have hrefs : t.body.entityRefs.map (·.aliasName) = s.body.entityRefs.map (·.aliasName) := by
    rw [h, Body.entityRefs_known, List.map_map]
    rfl
  rw [Bool.eq_iff_iff, Body.contains_bindAll t.bindAll_entityRefs, Body.contains_bindAll s.bindAll_entityRefs, hrefs]

private theorem paths_known (b : Body) (ctx : Parse.Context) : paths (b.known ctx) = paths b := by
  cases b with
  | createTable s =>
    show paths (s.columns.known ctx _).constraints = _
    rw [ColumnList.constraints_known]
    rfl
  | _ => rfl

private theorem select_of_known {b : Body} {q : Select} (h : b.known ctx = .select q) :
    ∃ q', b = .select q' ∧ q'.projection = q.projection := by
  cases b with
  | select q' =>
    cases h
    exact ⟨q', rfl, rfl⟩
  | _ => cases h

/-- Every path of a statement that is read is resolved: its alias is bound, or it has none, but a segment, and the
first segment is no alias that is bound. This is so for the list of a query too, although it stands before its
entities: from the same tokens the same is read when the aliases are bound, and after WHERE. -/
theorem parse_resolved (h : parse ctx text = .ok s) :
    (∀ p ∈ paths s.body, (∀ a, p.qualifier = some a → s.aliases.contains a = true) ∧
      (p.qualifier = none → ∃ first rest, p.segments = first :: rest ∧ s.aliases.contains first = false)) ∧
      ∀ q, s.body = .select q → Parse.SelectsAsBound text s.aliases q.projection := by
  rcases parse_cases ctx text with ⟨e, he, -⟩ | ⟨plain, t, hplain, ht, hbody, -⟩
  · cases h.symm.trans he
  cases h.symm.trans ht
  have hsame := contains_aliases_known hbody
  obtain ⟨c, hrun⟩ := run_of_read (read_of_parse hplain)
  have hsane : ∀ t ∈ Token.scan text, t.kind.Sane := fun t ht => Token.sane_scan ht
  obtain ⟨-, hpaths, hbound⟩ := Parse.Gives.wholeBody_paths hsane (.ofText text) _ c rfl (.start _) hrun
  have haliases : c.aliases = plain.aliases := Except.ok.inj (hbound.symm.trans plain.bindAll_entityRefs)
  constructor
  · intro p hp
    rw [hbody, paths_known] at hp
    obtain ⟨hresolved, hparts, -⟩ := hpaths p hp
    rw [haliases] at hresolved
    exact (hresolved.congr hsame).qualified hparts
  · intro q hq
    rw [hbody] at hq
    obtain ⟨q', hq', hprojection⟩ := select_of_known hq
    rw [hq'] at hrun hbound
    rw [← hprojection]
    exact Parse.selectsAsBound hrun (haliases ▸ hbound) hsame

private def shelfQuery : String :=
  "select new Shelf(p.title, q.price + 1, note in (p.rank, r.rank)) from book p, price as q where p.id = q.book"

private def shelfPaths : List Path :=
  [⟨some "p", ["title"]⟩, ⟨some "q", ["price"]⟩, ⟨none, ["note"]⟩, ⟨some "p", ["rank"]⟩, ⟨none, ["r", "rank"]⟩,
   ⟨some "p", ["id"]⟩, ⟨some "q", ["book"]⟩]

private def selectsShelf (s : Statement) : Bool :=
  s.body.kind == "select" && decide (paths s.body = shelfPaths)

/-- A query whose list has paths with and without aliases, one of them with a first segment that is no alias. -/
theorem parse_resolved_shelf :
    ∃ s q, parse .empty shelfQuery = .ok s ∧ s.body = .select q ∧ paths s.body = shelfPaths ∧
      s.aliases.contains "p" = true ∧ s.aliases.contains "r" = false ∧
      Parse.SelectsAsBound shelfQuery s.aliases q.projection := by
  obtain ⟨s, hs, hshelf⟩ :=
    exists_of_accepted selectsShelf (show (parse .empty shelfQuery).toOption.any _ = true by decide +kernel)
  obtain ⟨hkind, hpaths⟩ := Bool.and_eq_true_iff.1 hshelf
  rw [decide_eq_true_iff] at hpaths
  obtain ⟨hresolved, hlist⟩ := parse_resolved hs
  rw [hpaths] at hresolved
  have hp := (hresolved ⟨some "p", ["title"]⟩ (by decide)).1 "p" rfl
  obtain ⟨first, rest, hsegments, hfree⟩ := (hresolved ⟨none, ["r", "rank"]⟩ (by decide)).2 rfl
  cases hsegments
  cases hbody : s.body with
  | select q => exact ⟨s, q, hs, hbody, hpaths, hp, hfree, hlist q hbody⟩
  | _ =>
    rw [hbody] at hkind
    simp [Body.kind] at hkind

end Statement

end Clausal
