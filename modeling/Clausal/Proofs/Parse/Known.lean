import Clausal.Parse.Statement
import Clausal.Proofs.Parse.Agree
import Clausal.Proofs.Parse.Clauses

/-!
# Reading with known entities

What is known of entities does not decide about what is read. A text is read in a context as it is read where
nothing is known, and fails in the same way at the same tokens; only then the templates of its entities are those of
the catalog, and the columns of a table are grouped if the fields and their storage are known.
-/

namespace Clausal

/-- The reference with the template that a catalog has under its name. -/
def EntityRef.known (catalog : Catalog) (e : EntityRef) : EntityRef := { e with entity := catalog.resolve e.name }

/-- The references with the templates that a catalog has under their names. -/
def Sources.known (catalog : Catalog) (s : Sources) : Sources :=
  ⟨s.primary.known catalog, s.others.map (EntityRef.known catalog)⟩

/-- The columns of an entity's table, grouped if the fields and their storage are known. -/
def ColumnList.known (ctx : Parse.Context) (e : Entity) (l : ColumnList) : ColumnList :=
  Parse.columnList ctx e (l.groups.flatMap (·.columns)) l.constraints

/-- A body that was read where nothing is known, as it is read in a context. -/
def Body.known (ctx : Parse.Context) : Body → Body
  | select s => .select { s with sources := s.sources.known ctx.catalog }
  | insert s => .insert { s with target := s.target.known ctx.catalog }
  | update s => .update { s with target := s.target.known ctx.catalog }
  | delete s => .delete { s with sources := s.sources.known ctx.catalog }
  | createTable s =>
    .createTable ⟨s.target.known ctx.catalog, s.columns.known ctx (ctx.catalog.resolve s.target.name)⟩
  | createIndex s => .createIndex { s with target := s.target.known ctx.catalog }

namespace Parse

/-! ### Runs that stay together -/

/-- Whatever is read, the two runs stay together: a failure at places of theirs is one failure, the same aliases are
bound, and the same expressions are read. -/
structure Comparison.Steady (K : Comparison) (placed : Span → Span → Prop) : Prop where
  span : ∀ {c d}, K.cursor c d → placed c.span d.span
  fails : ∀ {fault s s'}, fault.found? = none → placed s s' → K.failure ⟨fault, s⟩ ⟨fault, s'⟩
  bound : ∀ {c d}, K.cursor c d → ∀ a, c.aliases.contains a = d.aliases.contains a
  rebind : ∀ {c d}, K.cursor c d → ∀ {m n : Aliases}, (∀ a, m.contains a = n.contains a) →
    K.cursor { c with aliases := m } { d with aliases := n }
  segments : ∀ {c d}, K.cursor c d → (moreSegments c.tokens).1 = (moreSegments d.tokens).1 ∧
    K.cursor { c with tokens := (moreSegments c.tokens).2 } { d with tokens := (moreSegments d.tokens).2 }
  expression : Compared K Eq Parse.expression Parse.expression

/-- Selections that are the same, of an entity at places that are related. -/
inductive Selected.Same (placed : Span → Span → Prop) : Selected → Selected → Prop where
  | star : Same placed star star
  | entity (name : String) {position position' : Span} (h : placed position position') :
    Same placed (entity name position) (entity name position')
  | given (s : Selection) : Same placed (given s) (given s)

/-- Reads what follows the place of the parenthesis in front of inserted values. -/
def valuesAfter (opening : Span) : Parser (List Assignment) := do
  let paths ← parenthesized pathList
  keyword .values
  symbol .leftParen
  let values ← commaList expression
  let closing ← place
  symbol .rightParen
  unless paths.length = values.length do
    fail (.arity paths.length values.length) ⟨opening.start, closing.stop⟩
  return paths.zipWith Assignment.mk values

namespace Comparison.Steady

variable {K : Comparison} {placed : Span → Span → Prop} (hK : K.Steady placed)

include hK

theorem place : Compared K placed Parse.place Parse.place := fun _ _ hcd => .given ⟨hK.span hcd, hcd⟩

/-! ### Paths and expressions -/

theorem path : Compared K Eq Parse.path Parse.path := by
  refine Compared.identifier.andThen fun first => ?_
  refine Compared.bind (R := Eq) (fun c d hcd => .given (hK.segments hcd)) ?_
  rintro rest _ rfl
  refine (Compared.eat _).andThen fun dot => ?_
  cases dot with
  | true => exact .unexpected_bind _
  | false =>
    refine Compared.get.bind fun c d hcd => ?_
    rw [Path.resolve_congr (hK.bound hcd)]
    exact .pure rfl

theorem pathList : Compared K Eq Parse.pathList Parse.pathList := hK.path.commaList_eq

theorem filter (k : Keyword) : Compared K Eq (Parse.filter k) (Parse.filter k) := by
  refine .word k ?_ (.pure rfl)
  refine hK.expression.andThen fun e => ?_
  exact .pure rfl

omit hK in
theorem count (k : Keyword) : Compared K Eq (Parse.count k) (Parse.count k) := by
  refine .word k ?_ (.pure rfl)
  refine Compared.integer.andThen fun n => ?_
  exact .pure rfl

omit hK in
theorem listBy {α : Type} (k : Keyword) {items : Parser (List α)} (h : Compared K Eq items items) :
    Compared K Eq (Parse.listBy k items) (Parse.listBy k items) := by
  refine .word k ?_ (.pure rfl)
  refine (Compared.keyword _).andThen fun _ => ?_
  exact h

theorem orderTerm : Compared K Eq Parse.orderTerm Parse.orderTerm := by
  refine hK.expression.andThen fun e => ?_
  refine .word .desc (.pure rfl) ?_
  rw [discard_eq_bind]
  refine ((Compared.eat _).andThen fun _ => .pure rfl).andThen fun _ => ?_
  exact .pure rfl

theorem assignment : Compared K Eq Parse.assignment Parse.assignment := by
  refine hK.path.andThen fun p => ?_
  refine (Compared.symbol _).andThen fun _ => ?_
  refine hK.expression.andThen fun e => ?_
  exact .pure rfl

theorem assignments : Compared K Eq Parse.assignments Parse.assignments :=
  .word _ hK.assignment.commaList_eq (.pure rfl)

/-- Inserted values are the one thing that may fail at more than one token, from the first one on. -/
theorem valuesAfter {opening opening' : Span} (hfails : ∀ {fault s s'}, fault.found? = none → placed s s' →
      K.failure ⟨fault, ⟨opening.start, s.stop⟩⟩ ⟨fault, ⟨opening'.start, s'.stop⟩⟩) :
    Compared K Eq (Parse.valuesAfter opening) (Parse.valuesAfter opening') := by
  refine hK.pathList.parenthesized.andThen fun ps => ?_
  refine (Compared.keyword _).andThen fun _ => ?_
  refine (Compared.symbol _).andThen fun _ => ?_
  refine hK.expression.commaList_eq.andThen fun es => ?_
  refine hK.place.bind fun closing closing' hclosing => ?_
  refine (Compared.symbol _).andThen fun _ => ?_
  split
  · exact .pure rfl
  · exact .fail_bind (hfails rfl hclosing)

/-! ### Columns -/

theorem typeArgument : Compared K Eq Parse.typeArgument Parse.typeArgument := by
  refine hK.place.bind fun position position' hposition => ?_
  refine Compared.integer.andThen fun n => ?_
  split
  · exact .pure rfl
  · exact .fail (hK.fails rfl hposition)

theorem columnType : Compared K Eq Parse.columnType Parse.columnType := by
  refine Compared.identifier.andThen fun name => ?_
  refine Compared.peek.andThen fun k => ?_
  split
  · refine hK.typeArgument.commaList_eq.parenthesized.andThen fun args => ?_
    exact .pure rfl
  · exact .pure rfl

theorem column : Compared K Eq Parse.column Parse.column := by
  refine Compared.identifier.andThen fun name => ?_
  refine hK.columnType.andThen fun type => ?_
  exact .pure rfl

theorem constraintKind : Compared K Eq Parse.constraintKind Parse.constraintKind := by
  refine .word .primary ?_ (.word .unique ?_ (.word .check ?_ (.unexpected _)))
  · refine (Compared.keyword _).andThen fun _ => ?_
    refine Compared.identifier.commaList_eq.parenthesized.andThen fun names => ?_
    exact .pure rfl
  · refine Compared.identifier.commaList_eq.parenthesized.andThen fun names => ?_
    exact .pure rfl
  · refine hK.expression.parenthesized.andThen fun e => ?_
    exact .pure rfl

theorem columnOrConstraint : Compared K Eq Parse.columnOrConstraint Parse.columnOrConstraint := by
  refine .word .constraint ?_ ?_
  · refine Compared.identifier.andThen fun name => ?_
    refine hK.constraintKind.andThen fun kind => ?_
    exact .pure rfl
  · refine hK.column.andThen fun c => ?_
    exact .pure rfl

/-- Columns are grouped when they have been read. -/
theorem columns (ctx : Context) (e e' : Entity) :
    Compared K (fun l l' => l = ColumnList.known ctx e l') (Parse.columns ctx e) (Parse.columns .empty e') := by
  have hgrouped (cs : List Column) (ks : List Constraint) :
      columnList ctx e cs ks = (columnList .empty e' cs ks).known ctx e := by
    show _ = columnList ctx e ((cs.map fun c => ColumnGroup.mk (.bare c.name) [c]).flatMap (·.columns)) ks
    rw [ColumnList.flatMap_single]
  refine Compared.peek.andThen fun k => ?_
  split
  · refine hK.columnOrConstraint.commaList_eq.parenthesized.andThen fun items => ?_
    exact .pure (hgrouped _ _)
  · exact .pure (hgrouped [] [])

/-! ### Entities and selections -/

theorem bindAlias (name : String) (e e' : Entity) {position position' : Span} (hposition : placed position position') :
    Compared K Eq (Parse.bindAlias name e position) (Parse.bindAlias name e' position') := by
  refine Compared.get.bind fun c d hcd => ?_
  rw [Aliases.bind, Aliases.bind, hK.bound hcd]
  by_cases htaken : d.aliases.contains name = true
  · rw [if_pos htaken, if_pos htaken]
    exact .fail (hK.fails rfl hposition)
  · rw [if_neg htaken, if_neg htaken]
    refine fun _ _ _ => .given ⟨rfl, hK.rebind hcd fun a => ?_⟩
    rw [Aliases.contains_insert, Aliases.contains_insert, hK.bound hcd]

section Catalog

variable (catalog : Catalog)

theorem entityRef :
    Compared K (fun e e' => e = EntityRef.known catalog e') (Parse.entityRef catalog) (Parse.entityRef .empty) := by
  refine Compared.identifier.andThen fun name => ?_
  refine (Compared.eat _).andThen fun introduced => ?_
  refine hK.place.bind fun position position' hposition => ?_
  refine Compared.peek.andThen fun k => ?_
  split
  · refine Compared.skip.andThen fun _ => ?_
    refine (hK.bindAlias _ _ _ hposition).andThen fun _ => ?_
    exact .pure rfl
  · cases introduced with
    | true => exact .unexpected_bind _
    | false => exact .pure rfl

theorem sources :
    Compared K (fun s s' => s = Sources.known catalog s') (Parse.sources catalog) (Parse.sources .empty) := by
  refine (hK.entityRef catalog).bind ?_
  rintro _ primary rfl
  refine (hK.entityRef catalog).moreItems.bind fun others others' hall => .pure ?_
  have hothers : others = others'.map (EntityRef.known catalog) :=
    List.forall₂_eq_eq_eq ▸ List.forall₂_map_right_iff.2 hall
  rw [hothers]
  rfl

end Catalog

theorem selected : Compared K (Selected.Same placed) Parse.selected Parse.selected := by
  refine hK.place.bind fun position position' hposition => ?_
  refine Compared.peek.andThen fun k => ?_
  split
  · exact Compared.skip.andThen fun _ => .pure .star
  · exact Compared.skip.andThen fun _ => .pure (.entity _ hposition)
  · refine hK.expression.commaList_eq.parenthesized.andThen fun es => ?_
    exact .pure (.given _)
  · refine Compared.skip.andThen fun _ => ?_
    refine Compared.identifier.andThen fun name => ?_
    refine Compared.andThen (hK.expression.arguments.mono fun _ _ hall => List.forall₂_eq_eq_eq ▸ hall) fun es => ?_
    exact .pure (.given _)
  · exact .unexpected _

theorem resolveSelected (catalog : Catalog) (primary : EntityRef) {list list' : Selected}
    (hlist : Selected.Same placed list list') :
    Compared K Eq (Parse.resolveSelected (primary.known catalog) list) (Parse.resolveSelected primary list') := by
  cases hlist with
  | star => exact .pure rfl
  | entity name hposition =>
    have hsame : (primary.known catalog).aliasName = primary.aliasName := rfl
    simp only [Parse.resolveSelected]
    by_cases hprimary : primary.aliasName = some name
    · rw [if_pos (hsame.trans hprimary), if_pos hprimary]
      exact .pure rfl
    · rw [if_neg (hsame ▸ hprimary), if_neg hprimary]
      exact .fail_bind (hK.fails rfl hposition)
  | given s =>
    refine Compared.get.bind fun c d hcd => ?_
    rw [Path.resolve_congr (hK.bound hcd)]
    exact .pure rfl

/-! ### Bodies -/

section Bodies

variable (ctx : Context) (hvalues : Compared K Eq Parse.insertedValues Parse.insertedValues)

theorem select : Compared K (fun b b' => b = Body.known ctx b') (Parse.select ctx) (Parse.select .empty) := by
  refine (Compared.eat _).andThen fun distinct => ?_
  refine hK.selected.bind fun list list' hlist => ?_
  refine (Compared.keyword _).andThen fun _ => ?_
  refine (hK.sources ctx.catalog).bind ?_
  rintro _ entities rfl
  refine (hK.resolveSelected ctx.catalog entities.primary hlist).andThen fun selection => ?_
  refine (hK.filter _).andThen fun conditions => ?_
  refine (listBy _ hK.pathList).andThen fun groupBy => ?_
  refine (hK.filter _).andThen fun having => ?_
  refine (listBy _ hK.orderTerm.commaList_eq).andThen fun orderBy => ?_
  refine (count _).andThen fun limit => ?_
  refine (count _).andThen fun offset => ?_
  exact .pure rfl

include hvalues in
theorem insert (mode : InsertMode) :
    Compared K (fun b b' => b = Body.known ctx b') (Parse.insert ctx mode) (Parse.insert .empty mode) := by
  refine (Compared.keyword _).andThen fun _ => ?_
  refine (hK.entityRef ctx.catalog).bind ?_
  rintro _ target rfl
  refine Compared.peek.andThen fun k => ?_
  split
  · refine hvalues.andThen fun values => ?_
    exact .pure rfl
  · exact .pure rfl

theorem update : Compared K (fun b b' => b = Body.known ctx b') (Parse.update ctx) (Parse.update .empty) := by
  refine (hK.entityRef ctx.catalog).bind ?_
  rintro _ target rfl
  refine hK.assignments.andThen fun set => ?_
  refine (hK.filter _).andThen fun conditions => ?_
  exact .pure rfl

theorem delete : Compared K (fun b b' => b = Body.known ctx b') (Parse.delete ctx) (Parse.delete .empty) := by
  refine (Compared.keyword _).andThen fun _ => ?_
  refine (hK.sources ctx.catalog).bind ?_
  rintro _ entities rfl
  refine (hK.filter _).andThen fun conditions => ?_
  exact .pure rfl

theorem createTable :
    Compared K (fun b b' => b = Body.known ctx b') (Parse.createTable ctx) (Parse.createTable .empty) := by
  refine (hK.entityRef ctx.catalog).bind ?_
  rintro _ target rfl
  refine (hK.columns ctx _ _).bind ?_
  rintro _ list rfl
  exact .pure rfl

theorem createIndex :
    Compared K (fun b b' => b = Body.known ctx b') (Parse.createIndex ctx) (Parse.createIndex .empty) := by
  refine (Compared.eat _).andThen fun unique => ?_
  refine (Compared.keyword _).andThen fun _ => ?_
  refine Compared.identifier.andThen fun name => ?_
  refine (Compared.keyword _).andThen fun _ => ?_
  refine (hK.entityRef ctx.catalog).bind ?_
  rintro _ target rfl
  refine Compared.peek.andThen fun k => ?_
  split
  · refine hK.pathList.parenthesized.andThen fun ps => ?_
    exact .pure rfl
  · exact .pure rfl

include hvalues in
/-- A body is read in a context as it is read without one, up to what is known of its entities. -/
theorem wholeBody :
    Compared K (fun b b' => b = Body.known ctx b') (Parse.wholeBody ctx) (Parse.wholeBody .empty) := by
  have hbody : Compared K (fun b b' => b = Body.known ctx b') (Parse.body ctx) (Parse.body .empty) := by
    have hinsert := hK.insert ctx hvalues
    refine .word _ (hK.select ctx) (.word _ (hinsert .insert) (.word _ (hinsert .upsert) ?_))
    refine .word _ (hinsert .merge) (.word _ (hK.update ctx) (.word _ (hK.delete ctx) ?_))
    exact .word _ (.word _ (hK.createTable ctx) (hK.createIndex ctx)) (.unexpected _)
  refine hbody.bind ?_
  rintro _ b rfl
  refine Compared.peek.andThen fun k => ?_
  split
  · exact .pure rfl
  · exact .unexpected_bind _

end Bodies

end Comparison.Steady

/-! ### One text with and without a context -/

variable {all : List Token}

theorem steady_alike (all : List Token) : (alike all).Steady fun s s' => s = s' ∧ PlaceIn all s where
  span {c _} h := by
    obtain ⟨t, ht, hspan⟩ := c.placeIn_span
    exact ⟨h.1.span_eq, t, h.2.mem ht, hspan⟩
  fails := by
    rintro fault s _ hfound ⟨rfl, hplace⟩
    exact ⟨rfl, hplace.standsIn hfound⟩
  bound h := h.1.bound
  rebind h _ _ hbound := ⟨⟨h.1.tokens, h.1.stop, hbound⟩, h.2⟩
  segments {c d} h := by
    have hmore : moreSegments c.tokens = moreSegments d.tokens := congrArg moreSegments h.1.tokens
    have hrest : Cursor.rest ⟨(moreSegments c.tokens).2, c.stop, c.aliases⟩ <:+ c.rest :=
      Cursor.rest_suffix (moreSegments_suffix c.tokens) rfl
    exact ⟨congrArg Prod.fst hmore, ⟨congrArg Prod.snd hmore, h.1.stop, h.1.bound⟩, hrest.trans h.2⟩
  expression := Agree.expression

theorem Agree.insertedValues : Agree all Eq Parse.insertedValues Parse.insertedValues := by
  refine Agree.afterPlace (f := valuesAfter) (g := valuesAfter) fun opening ts => ?_
  refine (steady_alike (opening :: ts)).valuesAfter ?_
  rintro fault _ _ hfound ⟨rfl, t, ht, rfl⟩
  exact ⟨rfl, opening, ts, t, List.suffix_rfl, ht, rfl, fun k hk => by cases hfound.symm.trans hk⟩

end Parse

/-- In a context and without one reading fails at the same tokens of the text, or gives the same up to what is known
of the entities. -/
theorem Body.parse_matched (ctx : Parse.Context) (text : String) :
    Parse.Matched (Parse.alike (Token.scanAll text)).failure (fun b b' => b = known ctx b') (parse ctx text)
      (parse .empty text) := by
  have hboth := (Parse.steady_alike (Token.scanAll text)).wholeBody ctx Parse.Agree.insertedValues (.ofText text)
    (.ofText text) ⟨⟨rfl, rfl, fun _ => rfl⟩, List.suffix_rfl⟩
  unfold parse
  change Parse.Matched _ _ (Parse.wholeBody ctx _) (Parse.wholeBody .empty _) at hboth
  generalize Parse.wholeBody ctx (.ofText text) = left at hboth ⊢
  generalize Parse.wholeBody .empty (.ofText text) = right at hboth ⊢
  cases hboth with
  | failed hfail => exact .failed hfail
  | given hxy => exact .given hxy.1

/-- A text is read in a context as it is read without one, up to what is known of its entities. -/
theorem Body.parse_eq_known (ctx : Parse.Context) (text : String) :
    parse ctx text = (parse .empty text).map (known ctx) := by
  have hboth := parse_matched ctx text
  generalize parse ctx text = left at hboth ⊢
  generalize parse .empty text = right at hboth ⊢
  cases hboth with
  | failed hfail => exact congrArg Except.error hfail.1
  | given hb => exact congrArg Except.ok hb

/-- Reading fails at tokens of the text. -/
theorem Body.standsIn_of_parse_eq_error {ctx : Parse.Context} {text : String} {f : Parse.Failure}
    (h : parse ctx text = .error f) : f.StandsIn (Token.scanAll text) := by
  have hboth := parse_matched ctx text
  generalize parse .empty text = other at hboth
  rw [h] at hboth
  cases hboth with
  | failed hfail => exact hfail.2

end Clausal
