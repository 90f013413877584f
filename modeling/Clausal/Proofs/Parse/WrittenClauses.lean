import Clausal.Parse.Statement
import Clausal.Proofs.Mapping.Grouping
import Clausal.Proofs.Parse.Clauses
import Clausal.Proofs.Parse.Uses

/-!
# Numbers of clauses

What the clauses of a statement hold is what their tokens write. Counts and the arguments of types are kept as they
are, and so are the numbers of expressions, unless folding the conditions of a filter drops some of them.
-/

namespace Clausal

/-- The numbers are those that the type is made of, under whatever name. -/
def ColumnType.Holds (t : ColumnType) (ns : List Number) : Prop :=
  ∃ name args, t.Keeps name args ∧ ns = args.map fun n => .argument n.toNat

/-- The numbers of a condition that is checked. -/
def Constraint.numbers (c : Constraint) : List Number := c.kind.conditions.flatMap Expr.numbers

namespace Parse

open Token (Kind)

variable {p : Position}

/-- An operand or a name has ended. -/
def Position.IsEnded (p : Position) : Prop := p = ended ∨ p = typed

theorem Position.IsEnded.next_comma {q : Position} (h : q.IsEnded) : q.next (.symbol .comma) = .operand := by
  rcases h with rfl | rfl <;> rfl

theorem Position.isEnded_next_identifier (p : Position) (name : String) : (p.next (.identifier name)).IsEnded := by
  cases p <;> first | exact .inl rfl | exact .inr rfl

/-! ### Paths and entities -/

/-- What reads no number can be followed by a comma, and so on. -/
private theorem moreSegments_passes {q : Position} (hq : q.IsEnded) (ts : List Token) :
    ∃ used, ts = used ++ (moreSegments ts).2 ∧ q.written? used = some [] ∧ (q.after used).IsEnded := by
  fun_induction moreSegments ts generalizing q with
  | case1 span name span' rest segments rest' hmore ih =>
    have hdot : q.next (.symbol .dot) = .operand := by rcases hq with rfl | rfl <;> rfl
    obtain ⟨used, htokens, hns, hended⟩ := ih (q := .ended) (.inl rfl)
    rw [hmore] at htokens
    refine ⟨⟨.symbol .dot, span⟩ :: ⟨.identifier name, span'⟩ :: used, by rw [htokens]; rfl, ?_, ?_⟩
    · refine (numberless_symbol .dot).written? (t := ⟨.symbol .dot, span⟩) ?_
      rw [hdot]
      exact (numberless_identifier name).written? (t := ⟨.identifier name, span'⟩) hns
    · rw [Position.after, List.foldl_cons, hdot]
      exact hended
  | case2 ts => exact ⟨[], rfl, rfl, hq⟩

theorem passes_path : Passes p path fun _ q => q.IsEnded := by
  refine Passes.identifier.bind ?_
  rintro first q rfl
  refine Passes.bind (Q := fun _ q => q.IsEnded) ?_ fun rest q hq => ?_
  · intro c segments c' hrun
    cases hrun
    obtain ⟨used, htokens, hns, hended⟩ := moreSegments_passes (p.isEnded_next_identifier first) c.tokens
    exact ⟨used, [], htokens, hns, rfl, hended⟩
  refine (Passes.eat (numberless_symbol .dot)).bind ?_
  rintro dot q' rfl
  cases dot with
  | true => exact .unexpected_bind _
  | false =>
    refine Passes.get.bind ?_
    rintro c q' rfl
    exact Passes.pure hq

/-- Readers of items without numbers. -/
private theorem passes_commaList {α : Type} {item : Parser α} (h : ∀ p, Passes p item fun _ q => q.IsEnded) :
    Passes p (commaList item) fun _ q => q.IsEnded := by
  have hitem : ∀ p, True → Uses p item fun x q ns => q.IsEnded ∧ ns = (fun _ => []) x := fun p _ => (h p).uses
  refine (Uses.commaList hitem (fun _ _ => trivial) trivial).mono ?_
  rintro xs q ns ⟨hq, hns⟩
  exact ⟨by rw [hns.eq_flatMap, List.flatMap_eq_nil_iff.2 fun _ _ => rfl], hq⟩

theorem passes_pathList : Passes p pathList fun _ q => q.IsEnded := passes_commaList fun _ => passes_path

private theorem passes_names : Passes p (parenthesized (commaList identifier)) fun _ q => q = .ended := by
  have hidentifier : ∀ p : Position, Passes p identifier fun _ q => q.IsEnded := fun p =>
    Passes.identifier.mono fun name q hq => hq ▸ p.isEnded_next_identifier name
  exact (passes_commaList hidentifier).parenthesized

private theorem passes_bindAlias (name : String) (e : Entity) (span : Span) :
    Passes p (bindAlias name e span) fun _ q => q = p := by
  intro c x c' hrun
  obtain ⟨aliases, -, rfl⟩ := bindAlias_eq_ok hrun
  exact ⟨[], [], rfl, rfl, rfl, rfl⟩

theorem passes_entityRef (catalog : Catalog) : Passes p (entityRef catalog) fun _ q => q.IsEnded := by
  refine Passes.identifier.bind ?_
  rintro name q rfl
  refine (Passes.eat (numberless_keyword .as)).bind fun introduced q hq => ?_
  refine Passes.place.bind ?_
  rintro position q rfl
  refine Uses.peek_skip fun k => ?_
  split
  · rename_i aliasName
    refine .inl ⟨_, rfl, numberless_identifier aliasName, ?_⟩
    refine (passes_bindAlias _ _ _).bind ?_
    rintro _ q rfl
    exact Passes.pure (Position.isEnded_next_identifier _ aliasName)
  · refine .inr ?_
    cases introduced with
    | true => exact .unexpected_bind _
    | false =>
      rw [hq]
      exact Passes.pure (p.isEnded_next_identifier name)

theorem passes_sources (catalog : Catalog) : Passes p (sources catalog) fun _ q => q.IsEnded := by
  refine (passes_entityRef catalog).bind fun primary q hq => ?_
  have hentity : ∀ p, True → Uses p (entityRef catalog) fun e q ns => q.IsEnded ∧ ns = (fun _ => []) e := fun p _ =>
    (passes_entityRef catalog).uses
  refine (Uses.moreItems hentity (fun _ _ => trivial) hq).bind ?_
  rintro others q ns ⟨hq, hns⟩
  rw [hns.eq_flatMap, List.flatMap_eq_nil_iff.2 fun _ _ => rfl]
  exact Passes.pure hq

/-! ### Expressions and conditions -/

theorem uses_expression : Uses .operand expression fun e q ns => q = .ended ∧ ns = e.numbers := by
  intro c e c' hrun
  change expressionAbove 0 c = _ at hrun
  unfold expressionAbove at hrun
  split at hrun
  · cases hrun
  · rename_i e' rest hread
    cases hrun
    obtain ⟨used, ns, htokens, hns, hended, hnumbers⟩ := run_adds hread
    exact ⟨used, ns, htokens, hns, hended, hnumbers.symm⟩

/-- Items that begin where an operand does and end where a comma leads back there. -/
private theorem uses_commaList {α : Type} {item : Parser α} {g : α → List Number}
    (h : Uses .operand item fun x q ns => q.next (.symbol .comma) = .operand ∧ ns = g x) :
    Uses .operand (commaList item) fun xs q ns => q.next (.symbol .comma) = .operand ∧ ns = xs.flatMap g := by
  have hitem : ∀ p, p = .operand →
      Uses p item fun x q ns => q.next (.symbol .comma) = .operand ∧ ns = g x := by
    rintro _ rfl
    exact h
  exact (Uses.commaList hitem (fun _ hq => hq) rfl).mono fun xs q ns hx => ⟨hx.1, hx.2.eq_flatMap⟩

theorem uses_expressions :
    Uses .operand (commaList expression) fun es q ns => q.next (.symbol .comma) = .operand ∧ ns = es.flatMap Expr.numbers := by
  refine uses_commaList (uses_expression.mono ?_)
  rintro e q ns ⟨rfl, hns⟩
  exact ⟨rfl, hns⟩

/-- The numbers are those of expressions that a filter is made of. -/
def FilterOf (f : Filter) (ns : List Number) : Prop := ∃ es, f = .ofList es ∧ ns = es.flatMap Expr.numbers

theorem uses_filter {k : Keyword} (hk : p.next (.keyword k) = .operand) :
    Uses p (filter k) fun f _ ns => FilterOf f ns := by
  refine .word k ?_ (.pure ⟨[], rfl, rfl⟩)
  rw [hk]
  refine uses_expression.bind ?_
  rintro e q ns ⟨-, rfl⟩
  exact .pure ⟨[e], rfl, by rw [List.flatMap_singleton, List.append_nil]⟩

theorem uses_count {k : Keyword} (hk : p.next (.keyword k) = .count) :
    Uses p (count k) fun n _ ns => ns = n.toList.map fun n => .count n.toNat := by
  refine .word k ?_ (.pure rfl)
  rw [hk]
  refine .integer_bind (fun n x hx => ?_) fun n hn => ?_
  · simp only [Position.number?, Option.ite_none_right_eq_some, Option.some.injEq] at hx
    rw [← hx.2]
    exact .pure rfl
  · simp only [Position.number?, if_pos n.toNat_lt] at hn
    cases hn

theorem passes_groupBy : Passes p (listBy .group pathList) fun _ _ => True := by
  refine Uses.word .group ?_ (Passes.pure trivial)
  refine (Passes.keyword .by).bind fun _ q _ => ?_
  exact passes_pathList.mono fun _ _ _ => trivial

private theorem uses_orderTerm :
    Uses .operand orderTerm fun t q ns => q.next (.symbol .comma) = .operand ∧ ns = t.expr.numbers := by
  refine uses_expression.bind ?_
  rintro e q ns ⟨rfl, rfl⟩
  refine .word .desc (.pure ⟨rfl, List.append_nil _⟩) ?_
  rw [discard_eq_bind]
  have hasc : Passes .ended (eatKeyword .asc >>= fun _ => pure ()) fun _ q => q.next (.symbol .comma) = .operand := by
    refine (Passes.eat (numberless_keyword .asc)).bind ?_
    rintro found q rfl
    refine Passes.pure ?_
    cases found <;> rfl
  refine hasc.bind fun _ q hq => ?_
  exact .pure ⟨hq, List.append_nil _⟩

theorem uses_orderBy :
    Uses p (listBy .order (commaList orderTerm)) fun ts _ ns => ns = (ts.map (·.expr)).flatMap Expr.numbers := by
  refine .word .order ?_ (.pure rfl)
  refine (Passes.keyword .by).bind ?_
  rintro _ q rfl
  exact (uses_commaList uses_orderTerm).mono fun _ _ _ hx => by rw [List.flatMap_map, hx.2]

/-! ### Assignments -/

private theorem uses_assignment :
    Uses .operand assignment fun a q ns => q.next (.symbol .comma) = .operand ∧ ns = a.value.numbers := by
  refine passes_path.bind fun path q hq => ?_
  refine (Passes.symbol .eq).bind ?_
  rintro _ q' rfl
  have heq : q.next (.symbol .eq) = .operand := by rcases hq with rfl | rfl <;> rfl
  rw [heq]
  refine uses_expression.bind ?_
  rintro e q ns ⟨rfl, rfl⟩
  exact .pure ⟨rfl, List.append_nil _⟩

theorem uses_assignments :
    Uses p assignments fun as _ ns => ns = (as.map (·.value)).flatMap Expr.numbers := by
  refine .word .set ?_ (.pure rfl)
  exact (uses_commaList uses_assignment).mono fun _ _ _ hx => by rw [List.flatMap_map, hx.2]

theorem uses_insertedValues :
    Uses p insertedValues fun as _ ns => ns = (as.map (·.value)).flatMap Expr.numbers := by
  refine Passes.place.bind ?_
  rintro opening q rfl
  refine passes_pathList.parenthesized.bind ?_
  rintro ps q rfl
  refine (Passes.keyword .values).bind ?_
  rintro _ q rfl
  refine (Passes.symbol .leftParen).bind ?_
  rintro _ q rfl
  refine uses_expressions.bind ?_
  rintro es q _ ⟨-, rfl⟩
  refine Passes.place.bind ?_
  rintro closing q rfl
  refine (Passes.symbol .rightParen).bind ?_
  rintro _ q rfl
  split
  · rename_i hlength
    have hvalues : (ps.zipWith Assignment.mk es).map (·.value) = es := by
      rw [← List.map_uncurry_zip_eq_zipWith, List.map_map]
      exact List.map_snd_zip (Nat.le_of_eq hlength.symm)
    exact .pure (by rw [List.append_nil, hvalues])
  · exact .fail_bind _ _

/-! ### Selections -/

private theorem uses_arguments (hp : p.next (.symbol .leftParen) = .operand) :
    Uses p arguments fun es _ ns => ns = es.flatMap Expr.numbers := by
  refine (Passes.symbol .leftParen).bind ?_
  rintro _ q rfl
  refine (Passes.eat (numberless_symbol .rightParen)).bind ?_
  rintro closed q rfl
  cases closed with
  | true => exact .pure rfl
  | false =>
    rw [if_neg Bool.false_ne_true, hp]
    refine uses_expressions.bind ?_
    rintro es q _ ⟨-, rfl⟩
    refine (Passes.symbol .rightParen).bind ?_
    rintro _ q rfl
    exact .pure (List.append_nil _)

def Selected.exprs : Selected → List Expr
  | star | entity .. => []
  | given s => s.exprs

theorem uses_selected : Uses .operand selected fun list _ ns => ns = list.exprs.flatMap Expr.numbers := by
  refine Passes.place.bind ?_
  rintro position q rfl
  refine Uses.peek_skip fun k => ?_
  split
  · exact .inl ⟨_, rfl, numberless_symbol _, .pure rfl⟩
  · exact .inl ⟨_, rfl, numberless_identifier _, .pure rfl⟩
  · refine .inr ?_
    refine (Uses.parenthesized (p := .operand) (R := fun es ns => ns = es.flatMap Expr.numbers)
      (uses_expressions.mono fun _ _ _ hx => hx.2)).bind ?_
    rintro es q _ ⟨-, rfl⟩
    exact .pure (List.append_nil _)
  · refine .inl ⟨_, rfl, numberless_keyword _, ?_⟩
    refine Passes.identifier.bind ?_
    rintro name q rfl
    refine (uses_arguments rfl).bind ?_
    rintro es q _ rfl
    exact .pure (List.append_nil _)
  · exact .inr (.unexpected _)

theorem passes_resolveSelected (primary : EntityRef) (list : Selected) :
    Passes p (resolveSelected primary list) fun s _ =>
      s.exprs.flatMap Expr.numbers = list.exprs.flatMap Expr.numbers := by
  cases list with
  | star => exact Passes.pure rfl
  | entity name position =>
    simp only [resolveSelected]
    split
    · exact Passes.pure rfl
    · exact .fail_bind _ _
  | given s =>
    refine Passes.get.bind ?_
    rintro c q rfl
    refine Passes.pure ?_
    have hmap (f : Path → Path) (es : List Expr) :
        (es.map (Expr.mapPaths f)).flatMap Expr.numbers = es.flatMap Expr.numbers := by
      rw [List.flatMap_map]
      exact List.flatMap_congr fun e _ => e.numbers_mapPaths f
    cases s with
    | all => rfl
    | values es => exact hmap _ es
    | construct name es => exact hmap _ es

/-! ### Columns -/

private theorem uses_typeArgument :
    Uses .argument typeArgument fun n q ns => q = .argument ∧ ns = [.argument n.toNat] := by
  refine Passes.place.bind ?_
  rintro position q rfl
  refine .integer_bind (fun n x hx => ?_) fun n hn c => ?_
  · simp only [Position.number?, Option.ite_none_right_eq_some, Option.some.injEq] at hx
    obtain ⟨hbound, rfl⟩ := hx
    have hsize : n.toNat < UInt32.size := hbound
    rw [if_pos hsize]
    exact .pure ⟨rfl, by rw [UInt32.toNat_ofNat_of_lt' hsize]⟩
  · simp only [Position.number?, ite_eq_right_iff, reduceCtorEq, imp_false] at hn
    have hsize : ¬ n.toNat < UInt32.size := hn
    rw [if_neg hsize]
    exact ⟨_, rfl⟩

theorem uses_columnType : Uses .ended columnType fun t q ns => q.IsEnded ∧ t.Holds ns := by
  refine Passes.identifier.bind ?_
  rintro name q rfl
  refine Passes.peek.bind ?_
  rintro k q rfl
  split
  · have hargument : ∀ p, p = .argument →
        Uses p typeArgument fun n q ns => q = .argument ∧ ns = (fun n => [Number.argument n.toNat]) n := by
      rintro _ rfl
      exact uses_typeArgument
    have hcomma : ∀ q, q = Position.argument → q.next (.symbol .comma) = .argument := by
      rintro _ rfl
      rfl
    have hlist := Uses.commaList hargument hcomma rfl
    refine (Uses.parenthesized (R := fun args ns => ns = args.map fun n => .argument n.toNat) ?_).bind ?_
    · refine hlist.mono ?_
      rintro args q ns ⟨-, hns⟩
      rw [hns.eq_flatMap]
      exact List.flatMap_pure_eq_map _ args
    · rintro args q ns ⟨rfl, hns⟩
      exact .pure ⟨.inl rfl, name, args, ColumnType.keeps_ofParts name args, by rw [List.append_nil, hns]⟩
  · exact .pure ⟨.inr rfl, name, [], ColumnType.keeps_ofParts name [], rfl⟩

/-- Where a column or a constraint may begin. -/
private def BeginsItem (p : Position) : Prop := p = .operand ∨ p = .argument

private theorem uses_column (hp : BeginsItem p) : Uses p column fun c q ns => q.IsEnded ∧ c.type.Holds ns := by
  refine Passes.identifier.bind ?_
  rintro name q rfl
  have hname : p.next (.identifier name) = .ended := by rcases hp with rfl | rfl <;> rfl
  rw [hname]
  refine uses_columnType.bind ?_
  rintro type q ns ⟨hq, htype⟩
  exact .pure ⟨hq, by rwa [List.append_nil]⟩

private theorem uses_constraintKind (name : String) :
    Uses p constraintKind fun k q ns => q = .ended ∧ ns = (Constraint.mk name k).numbers := by
  refine .word .primary ?_ (.word .unique ?_ (.word .check ?_ (.unexpected _)))
  · refine (Passes.keyword .key).bind ?_
    rintro _ q rfl
    refine passes_names.bind ?_
    rintro names q rfl
    exact .pure ⟨rfl, rfl⟩
  · refine passes_names.bind ?_
    rintro names q rfl
    exact .pure ⟨rfl, rfl⟩
  · refine (Uses.parenthesized (p := .operand) (R := fun e ns => ns = e.numbers)
      (uses_expression.mono fun _ _ _ hx => hx.2)).bind ?_
    rintro e q _ ⟨rfl, rfl⟩
    exact .pure ⟨rfl, rfl⟩

/-- The numbers are the arguments of a column's type, or those of a constraint. -/
def ItemHolds (item : Column ⊕ Constraint) (ns : List Number) : Prop :=
  item.elim (fun c => c.type.Holds ns) fun c => ns = c.numbers

private theorem uses_columnOrConstraint (hp : BeginsItem p) :
    Uses p columnOrConstraint fun item q ns => q.IsEnded ∧ ItemHolds item ns := by
  refine .word .constraint ?_ ?_
  · refine Passes.identifier.bind ?_
    rintro name q rfl
    refine (uses_constraintKind name).bind ?_
    rintro kind q ns ⟨rfl, hns⟩
    exact .pure ⟨.inl rfl, by rw [List.append_nil]; exact hns⟩
  · refine (uses_column hp).bind ?_
    rintro c q ns ⟨hq, hc⟩
    exact .pure ⟨hq, by rw [List.append_nil]; exact hc⟩

/-- The columns are shown as they were read, whatever is known. -/
theorem shownColumns_columnList (ctx : Context) (e : Entity) (cs : List Column) (ks : List Constraint) :
    (columnList ctx e cs ks).shownColumns = cs := by
  unfold columnList
  split
  · rename_i groups hgroups
    obtain ⟨s, -, hgroups⟩ := Option.bind_eq_some_iff.1 hgroups
    exact (Storage.groups?_eq_some hgroups).1
  · exact ColumnList.flatMap_single cs

theorem constraints_columnList (ctx : Context) (e : Entity) (cs : List Column) (ks : List Constraint) :
    (columnList ctx e cs ks).constraints = ks := by
  unfold columnList
  split <;> rfl

/-- The columns and the constraints are those of items to which the numbers belong. -/
def ColumnsHold (l : ColumnList) (ns : List Number) : Prop :=
  ∃ items, Shares ItemHolds items ns ∧ l.shownColumns = items.filterMap Sum.getLeft? ∧
    l.constraints = items.filterMap Sum.getRight?

theorem uses_columns (ctx : Context) (e : Entity) (hp : p.IsEnded) :
    Uses p (columns ctx e) fun l _ ns => ColumnsHold l ns := by
  refine Passes.peek.bind ?_
  rintro k q rfl
  have hshown (items : List (Column ⊕ Constraint)) {ns : List Number} (h : Shares ItemHolds items ns) :
      ColumnsHold (columnList ctx e (items.filterMap Sum.getLeft?) (items.filterMap Sum.getRight?)) ns :=
    ⟨items, h, shownColumns_columnList _ _ _ _, constraints_columnList _ _ _ _⟩
  split
  · have hitem : ∀ p, BeginsItem p → Uses p columnOrConstraint fun item q ns => q.IsEnded ∧ ItemHolds item ns :=
      fun _ => uses_columnOrConstraint
    have hopening : BeginsItem (q.next (.symbol .leftParen)) := by
      rcases hp with rfl | rfl
      · exact .inl rfl
      · exact .inr rfl
    have hlist := Uses.commaList hitem (fun _ hq => .inl hq.next_comma) hopening
    refine (Uses.parenthesized (R := Shares ItemHolds) (hlist.mono fun _ _ _ hx => hx.2)).bind ?_
    rintro items q ns ⟨-, hns⟩
    exact .pure (by rw [List.append_nil]; exact hshown items hns)
  · exact .pure (hshown [] .nil)

end Parse

end Clausal
