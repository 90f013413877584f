import Clausal.Proofs.Parse.Clauses

/-!
# Reading statements

The tokens of a statement are read as the body of what its text tells. A clause that has nothing to say has no
tokens, and the word of the next one tells that it was left out.
-/

namespace Clausal.Parse

open Token (Kind listed)

variable {m m' m'' : Aliases} {α β : Type}

/-! ### Clauses one after the other -/

/-- The end of the text, or a word that begins one of the later clauses. -/
def After (words : List Keyword) (k : Kind) : Prop := k = .eof ∨ ∃ w ∈ words, k = .keyword w

/-- A clause that is left out, or begins with its word. -/
def Leads (w : Keyword) (ks : List Kind) : Prop := ks = [] ∨ ∃ rest, ks = .keyword w :: rest

private theorem After.append {w : Keyword} {words : List Keyword} {ks ls : List Kind} (hks : Leads w ks)
    (h : After words (ls.headD .eof)) : After (w :: words) ((ks ++ ls).headD .eof) := by
  rcases hks with rfl | ⟨rest, rfl⟩
  · exact h.imp_right fun ⟨v, hv, hk⟩ => ⟨v, List.mem_cons_of_mem _ hv, hk⟩
  · exact .inr ⟨w, List.mem_cons_self, rfl⟩

private theorem After.last {w : Keyword} {ks : List Kind} (hks : Leads w ks) : After [w] (ks.headD .eof) := by
  have h : After [w] ((ks ++ []).headD .eof) := After.append hks (.inl rfl)
  rwa [List.append_nil] at h

private theorem leads_filter (w : Keyword) (f : Filter) : Leads w (kindsOfFilter w f) := by
  unfold kindsOfFilter
  split
  · exact .inl rfl
  · exact .inr ⟨_, rfl⟩

private theorem leads_listBy (kinds : α → List Kind) (w : Keyword) (xs : List α) :
    Leads w (kindsOfListBy w kinds xs) := by
  unfold kindsOfListBy
  split
  · exact .inl rfl
  · exact .inr ⟨_, rfl⟩

private theorem leads_count (w : Keyword) (count : Option UInt64) : Leads w (kindsOfCount w count) := by
  cases count with
  | none => exact .inl rfl
  | some n => exact .inr ⟨_, rfl⟩

private theorem leads_assignments (as : List Assignment) : Leads .set (kindsOfAssignments as) := by
  unfold kindsOfAssignments
  split
  · exact .inl rfl
  · exact .inr ⟨_, rfl⟩

/-- A clause and the later ones. -/
private theorem Reads.clause {p : Parser α} {f : α → Parser β} {ks ls : List Kind} {follow : Kind → Prop} {x : α}
    {y : β} {words : List Keyword} (h : Reads p m ks follow x m') (hlater : After words (ls.headD .eof))
    (hend : follow .eof) (hwords : ∀ w ∈ words, follow (.keyword w))
    (h' : Reads (f x) m' ls (· = .eof) y m'') : Reads (p >>= f) m (ks ++ ls) (· = .eof) y m'' := by
  refine h.bind h' fun k hk => ?_
  rw [hk]
  rcases hlater with hk | ⟨w, hw, hk⟩
  · rw [hk]
    exact hend
  · rw [hk]
    exact hwords w hw

private theorem afterEntity_keyword {w : Keyword} (h : w ≠ .as) : AfterEntity (.keyword w) :=
  ⟨fun he => h (Kind.keyword.inj he), fun _ he => by cases he⟩

private theorem afterEntity_eof : AfterEntity .eof := ⟨by decide, fun _ he => by cases he⟩

/-! ### Queries -/

/-- The tokens of a query after SELECT and DISTINCT. -/
def kindsOfRows (d : Dialect) (s : Select) : List Kind :=
  s.projection.selection.kinds d s.sources.primary.aliasName ++
    (.keyword .from :: (listed (s.sources.all.map (EntityRef.kinds d)) ++
      (kindsOfFilter .where s.filter ++ (kindsOfListBy .group Path.kinds s.groupBy ++
        (kindsOfFilter .having s.having ++ (kindsOfListBy .order OrderTerm.kinds s.orderBy ++
          (kindsOfCount .limit s.limit ++ kindsOfCount .offset s.offset)))))))

private theorem selection_begins (d : Dialect) (primary : Option String) (s : Selection) (ls : List Kind) (k : Kind) :
    (s.kinds d primary ++ ls).headD k ≠ .keyword .distinct := by
  cases s with
  | all =>
    cases primary with
    | none => simp [Selection.kinds]
    | some a => cases hd : d.selectAll <;> simp [Selection.kinds, hd]
  | values es => simp [Selection.kinds, Token.enclosed]
  | construct name es => simp [Selection.kinds]

def ReadableFilter (m : Aliases) (f : Filter) : Prop :=
  f.WellFormed ∧ ∀ p ∈ f.predicates, p.mapPaths (Path.reread m) = p

private theorem reads_rows (d : Dialect) {s : Select} (distinct : Bool)
    (hbind : Body.bindAll .empty s.sources.withoutTemplates.all = .ok m)
    (hselection : s.projection.selection.WellFormed)
    (hexprs : ∀ e ∈ s.projection.selection.exprs, e.mapPaths (Path.reread m) = e)
    (hfilter : ReadableFilter m s.filter) (hgroup : ∀ p ∈ s.groupBy, p.WellFormed ∧ p.Resolved m)
    (hhaving : ReadableFilter m s.having)
    (horder : ∀ t ∈ s.orderBy, t.expr.WellFormed ∧ t.expr.mapPaths (Path.reread m) = t.expr) :
    Reads (do
      let list ← selected
      keyword .from
      let entities ← sources .empty
      let selection ← resolveSelected entities.primary list
      let conditions ← filter .where
      let groupBy ← listBy .group pathList
      let having ← filter .having
      let orderBy ← listBy .order (commaList orderTerm)
      let limit ← count .limit
      let offset ← count .offset
      return Body.select ⟨⟨distinct, selection⟩, entities, conditions, groupBy, having, orderBy, limit, offset⟩)
      .empty (kindsOfRows d s) (· = .eof)
      (.select ⟨⟨distinct, s.projection.selection⟩, s.sources.withoutTemplates, s.filter, s.groupBy, s.having,
        s.orderBy, s.limit, s.offset⟩) m := by
  have hoffsets := After.last (leads_count .offset s.offset)
  have hlimits := After.append (leads_count .limit s.limit) hoffsets
  have horders := After.append (leads_listBy OrderTerm.kinds .order s.orderBy) hlimits
  have hhavings := After.append (leads_filter .having s.having) horders
  have hgroups := After.append (leads_listBy Path.kinds .group s.groupBy) hhavings
  have hfilters := After.append (leads_filter .where s.filter) hgroups
  refine Reads.selected_bind d s.sources.primary.aliasName hselection fun list hlist => ?_
  refine (Reads.keyword .from).cons ?_
  refine (reads_sources d hbind).clause hfilters ⟨afterEntity_eof, by decide⟩ ?_ ?_
  · intro w hw
    refine ⟨afterEntity_keyword ?_, by simp⟩
    rintro rfl
    revert hw
    decide
  have hresolve : Reads (resolveSelected s.sources.withoutTemplates.primary list) m [] (fun _ => True)
      s.projection.selection m := reads_resolveSelected hlist hexprs
  refine hresolve.seq ?_
  refine (Reads.filter .where hfilter.1 hfilter.2).clause hgroups (by decide) (by decide) ?_
  refine (reads_groupBy hgroup).clause hhavings (by decide) (by decide) ?_
  refine (Reads.filter .having hhaving.1 hhaving.2).clause horders (by decide) (by decide) ?_
  refine (reads_orderBy horder).clause hlimits (by decide) (by decide) ?_
  refine (reads_count .limit s.limit).clause hoffsets (by decide) (by decide) ?_
  refine ((reads_count .offset s.offset).map fun offset => Body.select ⟨⟨distinct, s.projection.selection⟩,
    s.sources.withoutTemplates, s.filter, s.groupBy, s.having, s.orderBy, s.limit, offset⟩).mono ?_
  rintro k rfl
  decide

theorem reads_select (d : Dialect) {s : Select}
    (hbind : Body.bindAll .empty s.sources.withoutTemplates.all = .ok m)
    (hselection : s.projection.selection.WellFormed)
    (hexprs : ∀ e ∈ s.projection.selection.exprs, e.mapPaths (Path.reread m) = e)
    (hfilter : ReadableFilter m s.filter) (hgroup : ∀ p ∈ s.groupBy, p.WellFormed ∧ p.Resolved m)
    (hhaving : ReadableFilter m s.having)
    (horder : ∀ t ∈ s.orderBy, t.expr.WellFormed ∧ t.expr.mapPaths (Path.reread m) = t.expr) :
    Reads (select .empty) .empty ((if s.projection.distinct then [.keyword .distinct] else []) ++ kindsOfRows d s)
      (· = .eof) (.select { s with sources := s.sources.withoutTemplates }) m := by
  obtain ⟨⟨distinct, selection⟩, entities, conditions, groupBy, having, orderBy, limit, offset⟩ := s
  cases distinct with
  | true => exact Reads.eat_bind (reads_rows d true hbind hselection hexprs hfilter hgroup hhaving horder)
  | false =>
    refine Reads.eat_other_bind (reads_rows d false hbind hselection hexprs hfilter hgroup hhaving horder) ?_
    exact fun _ _ => selection_begins d _ _ _ _

/-! ### Changes of rows -/

/-- The tokens of optional values for the paths of a new row. -/
def kindsOfValues (as : List Assignment) : List Kind :=
  if as.isEmpty then []
  else Token.enclosed (listed (as.map fun a => a.path.kinds)) ++
    .keyword .values :: Token.enclosed (Expr.kindsAll (as.map (·.value)))

theorem reads_insert (d : Dialect) {s : Insert} (hbind : Body.bindAll .empty [s.target.withoutTemplate] = .ok m)
    (hvalues : ∀ a ∈ s.values, Readable m a) :
    Reads (insert .empty s.mode) .empty (.keyword .into :: (s.target.kinds d ++ kindsOfValues s.values)) (· = .eof)
      (.insert { s with target := s.target.withoutTemplate }) m := by
  refine (Reads.keyword .into).cons ((reads_entityRef d hbind).bind (Reads.peek_bind fun k hk => ?_) fun k hk => ?_)
  · unfold kindsOfValues
    split
    · rename_i hempty
      rw [List.headD_nil, hk, if_neg (by decide), ← List.isEmpty_iff.1 hempty]
      exact Reads.pure _
    · rename_i hne
      exact (reads_insertedValues (fun he => hne (by rw [he]; rfl)) hvalues).map fun values =>
        Body.insert ⟨s.mode, s.target.withoutTemplate, values⟩
  · rw [hk]
    unfold kindsOfValues
    split
    · exact afterEntity_eof
    · exact ⟨by simp [Token.enclosed], by simp [Token.enclosed]⟩

theorem reads_update (d : Dialect) {s : Update} (hbind : Body.bindAll .empty [s.target.withoutTemplate] = .ok m)
    (hassignments : ∀ a ∈ s.assignments, Readable m a) (hfilter : ReadableFilter m s.filter) :
    Reads (update .empty) .empty
      (s.target.kinds d ++ (kindsOfAssignments s.assignments ++ kindsOfFilter .where s.filter)) (· = .eof)
      (.update { s with target := s.target.withoutTemplate }) m := by
  have hfilters := After.last (leads_filter .where s.filter)
  have hsets := After.append (leads_assignments s.assignments) hfilters
  refine (reads_entityRef d hbind).clause hsets afterEntity_eof ?_ ?_
  · intro w hw
    refine afterEntity_keyword ?_
    rintro rfl
    revert hw
    decide
  refine (reads_assignments hassignments).clause hfilters (by decide) (by decide) ?_
  refine ((Reads.filter .where hfilter.1 hfilter.2).map fun conditions =>
    Body.update ⟨s.target.withoutTemplate, s.assignments, conditions⟩).mono ?_
  rintro k rfl
  decide

theorem reads_delete (d : Dialect) {s : Delete} (hbind : Body.bindAll .empty s.sources.withoutTemplates.all = .ok m)
    (hfilter : ReadableFilter m s.filter) :
    Reads (delete .empty) .empty
      (.keyword .from :: (listed (s.sources.all.map (EntityRef.kinds d)) ++ kindsOfFilter .where s.filter)) (· = .eof)
      (.delete { s with sources := s.sources.withoutTemplates }) m := by
  refine (Reads.keyword .from).cons ?_
  refine (reads_sources d hbind).clause (After.last (leads_filter .where s.filter)) ⟨afterEntity_eof, by decide⟩ ?_ ?_
  · intro w hw
    refine ⟨afterEntity_keyword ?_, by simp⟩
    rintro rfl
    revert hw
    decide
  refine ((Reads.filter .where hfilter.1 hfilter.2).map fun conditions =>
    Body.delete ⟨s.sources.withoutTemplates, conditions⟩).mono ?_
  rintro k rfl
  decide

/-! ### Definitions -/

theorem reads_createTable {s : CreateTable} (hcolumns : s.columns.WellFormed) :
    Reads (create .empty) .empty
      (.keyword .table :: ([.identifier s.target.name] ++ if s.columns.isOmitted then [] else s.columns.kinds))
      (· = .eof) (Body.createTable s).reread .empty := by
  have htarget : Reads (entityRef .empty) .empty [.identifier s.target.name] AfterEntity
      ⟨.opaqueNamed s.target.name, s.target.name, none⟩ .empty :=
    reads_entityRef .canonical (e := ⟨s.target.entity, s.target.name, none⟩) rfl
  refine Reads.eat_bind (htarget.bind ((reads_columns hcolumns _).map fun l => Body.createTable ⟨_, l⟩) fun k hk => ?_)
  rw [hk]
  split
  · exact afterEntity_eof
  · exact ⟨by simp [ColumnList.kinds, Token.enclosed], by simp [ColumnList.kinds, Token.enclosed]⟩

/-- The tokens of an index after CREATE and UNIQUE. -/
def kindsOfIndex (d : Dialect) (s : CreateIndex) : List Kind :=
  .keyword .index :: .identifier s.head.name :: .keyword .on :: (s.target.kinds d ++
    if s.paths.isEmpty then [] else Token.enclosed (listed (s.paths.map Path.kinds)))

private theorem reads_index (d : Dialect) {s : CreateIndex} (unique : Bool)
    (hbind : Body.bindAll .empty [s.target.withoutTemplate] = .ok m)
    (hpaths : ∀ p ∈ s.paths, p.WellFormed ∧ p.Resolved m) :
    Reads (do
      keyword .index
      let name ← identifier
      keyword .on
      let target ← entityRef .empty
      if (← peek) = .symbol .leftParen then
        return Body.createIndex ⟨⟨name, unique⟩, target, ← parenthesized pathList⟩
      else
        return Body.createIndex ⟨⟨name, unique⟩, target, []⟩) .empty (kindsOfIndex d s) (· = .eof)
      (.createIndex ⟨⟨s.head.name, unique⟩, s.target.withoutTemplate, s.paths⟩) m := by
  refine (Reads.keyword .index).cons ((Reads.identifier _).cons ((Reads.keyword .on).cons ?_))
  refine (reads_entityRef d hbind).bind (Reads.peek_bind fun k hk => ?_) fun k hk => ?_
  · split
    · rename_i hempty
      rw [List.headD_nil, hk, if_neg (by decide), List.isEmpty_iff.1 hempty]
      exact Reads.pure _
    · rename_i hne
      have hread := reads_paths (fun he => hne (by rw [he]; rfl)) hpaths
      exact (Reads.parenthesized hread (by decide)).map fun paths =>
        Body.createIndex ⟨⟨s.head.name, unique⟩, s.target.withoutTemplate, paths⟩
  · rw [hk]
    split
    · exact afterEntity_eof
    · exact ⟨by simp [Token.enclosed], by simp [Token.enclosed]⟩

theorem reads_createIndex (d : Dialect) {s : CreateIndex}
    (hbind : Body.bindAll .empty [s.target.withoutTemplate] = .ok m)
    (hpaths : ∀ p ∈ s.paths, p.WellFormed ∧ p.Resolved m) :
    Reads (create .empty) .empty ((if s.head.unique then [.keyword .unique] else []) ++ kindsOfIndex d s) (· = .eof)
      (.createIndex { s with target := s.target.withoutTemplate }) m := by
  obtain ⟨⟨name, unique⟩, target, ps⟩ := s
  cases unique with
  | true =>
    refine Reads.eat_other_bind (Reads.eat_bind (reads_index d true hbind hpaths)) fun _ _ => ?_
    exact (by decide : Kind.keyword .unique ≠ .keyword .table)
  | false =>
    refine Reads.eat_other_bind (Reads.eat_other_bind (reads_index d false hbind hpaths) fun _ _ => ?_) fun _ _ => ?_
    · exact (by decide : Kind.keyword .index ≠ .keyword .unique)
    · exact (by decide : Kind.keyword .index ≠ .keyword .table)

end Clausal.Parse
