import Clausal.Proofs.Parse.GivenStatement
import Clausal.Proofs.Sorting
import Clausal.Proofs.Statement.ReadBack

/-!
# Canonical texts

The text of a statement that was read is read as a statement with the same text, so reading and writing once more
changes nothing. Most statements are even read as themselves; the others lose what their texts do not tell.
-/

namespace Clausal

/-! ### Texts that tell no aliases from first segments -/

namespace Expr

private theorem precedence_mapPaths (f : Path → Path) (e : Expr) : (e.mapPaths f).precedence = e.precedence := by
  cases e <;> rfl

private theorem isNumber_mapPaths (f : Path → Path) (e : Expr) : (e.mapPaths f).isNumber = e.isNumber := by
  cases e <;> rfl

/-- The text depends on the parts of the paths only. -/
theorem render_mapPaths {f : Path → Path} (d : Dialect) {e : Expr} (h : ∀ p ∈ e.paths, (f p).parts = p.parts) :
    (e.mapPaths f).render d = e.render d := by
  have all : ∀ es : List Expr,
      (∀ x ∈ es, (∀ p ∈ x.paths, (f p).parts = p.parts) → (x.mapPaths f).render d = x.render d) →
      (∀ p ∈ pathsAll es, (f p).parts = p.parts) → renderAll d (mapPathsAll f es) = renderAll d es := by
    intro es ih h
    rw [pathsAll_eq_flatMap] at h
    rw [renderAll_eq_intercalate, renderAll_eq_intercalate, mapPathsAll_eq_map, List.map_map]
    exact congrArg _ (List.map_congr_left fun x hx => ih x hx fun p hp => h p (List.mem_flatMap.2 ⟨x, hx, hp⟩))
  induction e using recurse with
  | literal l => rfl
  | field p =>
    simp only [mapPaths, render, Path.render]
    rw [h p List.mem_cons_self]
  | param p => rfl
  | wildcard => rfl
  | binary l op r hl hr =>
    simp only [paths, List.forall_mem_append] at h
    simp only [mapPaths, render, precedence_mapPaths, hl h.1, hr h.2]
  | unary op e he =>
    cases op with
    | not => simp only [mapPaths, render, precedence_mapPaths, he h]
    | neg => simp only [mapPaths, render, precedence_mapPaths, isNumber_mapPaths, he h]
  | isNull e n he => simp only [mapPaths, render, precedence_mapPaths, he h]
  | isIn e es n he hes =>
    simp only [paths, List.forall_mem_append] at h
    simp only [mapPaths, render, precedence_mapPaths, he h.1, all es hes h.2]
  | between e l u n he hl hu =>
    simp only [paths, List.forall_mem_append] at h
    simp only [mapPaths, render, precedence_mapPaths, he h.1.1, hl h.1.2, hu h.2]
  | call f es d hes => simp only [mapPaths, render, all es hes h]

end Expr

private theorem render_constraint (d : Dialect) (m : Aliases) {c : Constraint} (h : c.WellFormed) :
    (mapPaths (Path.reread m) c).render d = c.render d := by
  have hkind : (mapPaths (Path.reread m) c.kind).render d = c.kind.render d := by
    obtain ⟨name, kind⟩ := c
    cases kind with
    | check e =>
      have htext := Expr.render_mapPaths d fun p hp => Path.reread_parts m (Expr.WellFormed.path h.2 hp).1
      exact congrArg (fun text => "CHECK (" ++ text ++ ")") htext
    | _ => rfl
  exact congrArg (fun text => "CONSTRAINT " ++ d.identifier c.name ++ " " ++ text) hkind

/-! ### The text of what is read back -/

private theorem sortedConstraints_reread (l : ColumnList) :
    l.reread.sortedConstraints = l.sortedConstraints.map (mapPaths (Path.reread .empty)) := by
  refine List.mergeSort_of_pairwise (List.pairwise_map.2 (List.pairwise_mergeSort ?_ ?_ _))
  · exact fun a b c => Std.TransOrd.isLE_trans
  · exact fun a b => compare_isLE_total a.name b.name

private theorem shownColumns_reread (l : ColumnList) : l.reread.shownColumns = l.shownColumns :=
  ColumnList.flatMap_single l.shownColumns

private theorem render_columns (d : Dialect) {l : ColumnList} (h : l.WellFormed) : l.reread.render d = l.render d := by
  have hconstraints : (l.sortedConstraints.map (mapPaths (Path.reread .empty))).map (Constraint.render d) =
      l.sortedConstraints.map (Constraint.render d) := by
    rw [List.map_map]
    exact List.map_congr_left fun c hc => render_constraint d .empty (h.2 c (List.mem_mergeSort.1 hc))
  have hcolumns := shownColumns_reread l
  unfold ColumnList.shownColumns at hcolumns
  rw [ColumnList.render, ColumnList.render, hcolumns, sortedConstraints_reread, hconstraints]

private theorem isOmitted_columns {l : ColumnList} (h : l.WellFormed) : l.reread.isOmitted = l.isOmitted := by
  rw [Bool.eq_iff_iff]
  simp only [ColumnList.isOmitted, Bool.and_eq_true, List.isEmpty_iff, ColumnList.reread]
  refine and_congr ?_ ?_
  · exact List.map_eq_nil_iff.trans (ColumnList.shownColumns_eq_nil h)
  · exact List.map_eq_nil_iff.trans ColumnList.sortedConstraints_eq_nil

theorem Sources.render_withoutTemplates (d : Dialect) (s : Sources) :
    s.withoutTemplates.all.map (EntityRef.render d) = s.all.map (EntityRef.render d) := by
  rw [Sources.all_withoutTemplates, List.map_map]
  rfl

/-- A clause that is written as another one. -/
def Clause.SameText (d : Dialect) (primary : Option String) (c c' : Clause) : Prop :=
  c'.isOmitted = c.isOmitted ∧ c'.render d primary = c.render d primary

private theorem shown_congr {d : Dialect} {primary : Option String} {cs cs' : List Clause}
    (h : List.Forall₂ (Clause.SameText d primary) cs cs') :
    (cs'.filter fun c => !c.isOmitted).map (Clause.render d primary) =
      (cs.filter fun c => !c.isOmitted).map (Clause.render d primary) := by
  induction h with
  | nil => rfl
  | @cons c c' cs cs' hc _ ih =>
    rw [List.filter_cons, List.filter_cons, hc.1]
    split
    · rw [List.map_cons, List.map_cons, ih, hc.2]
    · exact ih

theorem Clause.sameText_self {d : Dialect} {primary : Option String} (c : Clause) : c.SameText d primary c := ⟨rfl, rfl⟩

/-- Statements whose clauses are written alike have the same text. -/
theorem Statement.render_congr {d : Dialect} {s t : Statement} (hprimary : t.body.primaryAlias = s.body.primaryAlias)
    (hclauses : List.Forall₂ (Clause.SameText d s.body.primaryAlias) s.body.clauses t.body.clauses) :
    t.render d = s.render d := by
  unfold render shownClauses clauses
  rw [hprimary, shown_congr hclauses]

/-- The body as it is read from a text has this text. -/
private theorem clauses_reread (d : Dialect) {b : Body} (h : ∀ c ∈ b.clauses, c.WellFormed) :
    b.reread.primaryAlias = b.primaryAlias ∧
      List.Forall₂ (Clause.SameText d b.primaryAlias) b.clauses b.reread.clauses := by
  cases b with
  | select s =>
    refine ⟨rfl, .cons (Clause.sameText_self _) (.cons ⟨rfl, ?_⟩ ?_)⟩
    · exact congrArg (fun texts => "FROM " ++ String.intercalate ", " texts) (Sources.render_withoutTemplates d s.sources)
    · exact List.forall₂_same.2 fun c _ => Clause.sameText_self c
  | insert s =>
    refine ⟨rfl, .cons (Clause.sameText_self _) (.cons ⟨rfl, rfl⟩ (.cons ⟨Assignment.isEmpty_effective _, ?_⟩ .nil))⟩
    simp only [Clause.render, Assignment.effective_effective]
  | update s =>
    refine ⟨rfl, .cons ⟨rfl, rfl⟩ (.cons ⟨Assignment.isEmpty_effective _, ?_⟩ (.cons (Clause.sameText_self _) .nil))⟩
    simp only [Clause.render, Assignment.effective_effective]
  | delete s =>
    refine ⟨rfl, .cons (Clause.sameText_self _) (.cons ⟨rfl, ?_⟩ (.cons (Clause.sameText_self _) .nil))⟩
    exact congrArg (fun texts => "FROM " ++ String.intercalate ", " texts) (Sources.render_withoutTemplates d s.sources)
  | createTable s =>
    have hcolumns : s.columns.WellFormed := h (.columns s.columns) (by simp [Body.clauses])
    exact ⟨rfl, .cons ⟨rfl, rfl⟩ (.cons ⟨isOmitted_columns hcolumns, render_columns d hcolumns⟩ .nil)⟩
  | createIndex s => exact ⟨rfl, .cons (Clause.sameText_self _) (.cons ⟨rfl, rfl⟩ (.cons (Clause.sameText_self _) .nil))⟩

namespace Statement

theorem render_of_body_eq {d : Dialect} {s t : Statement} (h : s.WellFormed) (hbody : t.body = s.body.reread) :
    t.render d = s.render d := by
  obtain ⟨hprimary, hclauses⟩ := clauses_reread d h.clauses
  rw [← hbody] at hprimary hclauses
  exact render_congr hprimary hclauses

/-! ### Texts that are read -/

theorem read_of_parse {ctx : Parse.Context} {text : String} {s : Statement} (h : parse ctx text = .ok s) :
    read ctx text = .ok s := by
  unfold parse at h
  cases hread : read ctx text with
  | error f =>
    rw [hread] at h
    cases h
  | ok t =>
    rw [hread] at h
    cases h
    rfl

theorem run_of_read {ctx : Parse.Context} {text : String} {s : Statement} (h : read ctx text = .ok s) :
    ∃ c, (Parse.wholeBody ctx).run (.ofText text) = .ok (s.body, c) := by
  unfold read at h
  split at h
  · cases h
  rename_i hparse
  split at h
  · rename_i t ht
    cases h
    obtain ⟨⟨_, c⟩, hrun, rfl⟩ := map_eq_ok.1 hparse
    rw [body_ofBody ht]
    exact ⟨c, hrun⟩
  · cases h

theorem isRead_of_read {text : String} {s : Statement} (h : read .empty text = .ok s)
    (htypes : ∀ t, Token.NamesType (Token.scan text) t → t.IsUnquoted text) : s.body.IsRead s.aliases := by
  obtain ⟨c, hrun⟩ := run_of_read h
  have hnames : ∀ t name, Token.NamesType (Token.scan text) t → t.kind = .identifier name →
      Dialect.needsQuoting name = false := by
    intro t name ht hname
    exact Token.needsQuoting_of_isUnquoted ht.mem (htypes t ht) hname
  have hsane : ∀ t ∈ Token.scan text, t.kind.Sane := fun t ht => Token.sane_scan ht
  obtain ⟨-, hread⟩ := Parse.Gives.wholeBody hsane hnames (.ofText text) _ c rfl (.start _) hrun
  have haliases : c.aliases = s.aliases := Except.ok.inj (hread.bound.symm.trans s.bindAll_entityRefs)
  rw [← haliases]
  exact hread

private theorem eq_of_body_eq {s t : Statement} (h : s.body = t.body) : s = t := by
  obtain ⟨b, m, hs⟩ := s
  obtain ⟨b', m', ht⟩ := t
  obtain rfl : b = b' := h
  obtain rfl : m = m' := Except.ok.inj (hs.symm.trans ht)
  rfl

/-- The text of a statement that was read is read as a statement with the same text, and as the same statement if it
is no table definition and assigns to no path twice. -/
theorem parse_text_of_parse {text : String} {s : Statement} (h : parse .empty text = .ok s)
    (htypes : ∀ t, Token.NamesType (Token.scan text) t → t.IsUnquoted text) :
    ∃ t, parse .empty s.text = .ok t ∧ t.text = s.text ∧
      ((∀ c, s.body ≠ .createTable c) → (s.body.assignments.map (·.path)).Nodup → t = s) := by
  have hread : s.body.IsRead s.aliases := by
    cases hstatement : read .empty text with
    | error f =>
      rw [parse, hstatement] at h
      cases h
    | ok r =>
      rw [parse, hstatement] at h
      cases h
      exact isRead_of_read hstatement htypes
  have hwell : s.WellFormed := ⟨hread.clauses, hread.resolved⟩
  obtain ⟨t, ht, hbody⟩ := read_render (d := .canonical) rfl rfl hwell
  refine ⟨t, ?_, render_of_body_eq hwell hbody, fun htable hdistinct => eq_of_body_eq ?_⟩
  · rw [parse, Statement.text, ht]
    rfl
  · have hasRead : s.body.AsRead := ⟨hdistinct, fun c hc => absurd hc (htable c)⟩
    rw [hbody, Body.reread_eq s.bindAll_entityRefs hread.clauses hread.resolved hasRead, hread.untold]

private def tableText : String := "create table product as p (id bigint, constraint b unique (id), constraint a check (p.id>0))"

private def updateText : String := "update product as p set p.note = 'x' where (p.id) != 1 and true -- c"

private def keepsItself (s : Statement) : Bool :=
  s.body.kind != "createTable" && decide (s.body.assignments.map Assignment.path).Nodup

theorem exists_of_accepted {ctx : Parse.Context} {text : String} (p : Statement → Bool)
    (h : (parse ctx text).toOption.any p = true) : ∃ s, parse ctx text = .ok s ∧ p s = true := by
  cases hparse : parse ctx text with
  | error e =>
    rw [hparse] at h
    cases h
  | ok s =>
    rw [hparse] at h
    exact ⟨s, rfl, h⟩

theorem parse_text_of_parse_accepted :
    (∃ s t, parse .empty tableText = .ok s ∧ parse .empty s.text = .ok t ∧ t.text = s.text) ∧
      ∃ s, parse .empty updateText = .ok s ∧ parse .empty s.text = .ok s := by
  constructor
  · obtain ⟨s, hs, -⟩ := exists_of_accepted (fun _ => true) (show (parse .empty tableText).toOption.any _ = true by decide +kernel)
    have hunquoted : '"' ∉ tableText.toList := by decide +kernel
    obtain ⟨t, ht, htext, -⟩ := parse_text_of_parse hs fun t _ => Token.isUnquoted_of_notMem hunquoted t
    exact ⟨s, t, hs, ht, htext⟩
  · obtain ⟨s, hs, hkeeps⟩ := exists_of_accepted keepsItself (show (parse .empty updateText).toOption.any _ = true by decide +kernel)
    have hunquoted : '"' ∉ updateText.toList := by decide +kernel
    obtain ⟨t, ht, -, hsame⟩ := parse_text_of_parse hs fun t _ => Token.isUnquoted_of_notMem hunquoted t
    obtain ⟨hkind, hdistinct⟩ := Bool.and_eq_true_iff.1 hkeeps
    have htable : ∀ c, s.body ≠ .createTable c := by
      intro c hc
      rw [hc] at hkind
      exact absurd rfl (bne_iff_ne.1 hkind)
    rw [hsame htable (of_decide_eq_true hdistinct)] at ht
    exact ⟨s, hs, ht⟩

end Statement

end Clausal
