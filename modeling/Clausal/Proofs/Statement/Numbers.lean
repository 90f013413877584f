import Clausal.Proofs.Parse.CustomType
import Clausal.Proofs.Parse.Digits
import Clausal.Proofs.Parse.WrittenClauses
import Clausal.Proofs.Statement.FixedPoint

/-!
# Numbers of statements

A statement holds the numbers that its text writes. Every number of an accepted text is in bounds where it stands; a
count is kept for the rows it counts, the arguments of a type are kept in the type, and the constants and
placeholders of the expressions are those of the text, in its order. Only folding the conditions of a filter may drop
some of them.
-/

namespace Clausal

open Parse

namespace Body

def counts : Body → List Number
  | select s => s.limit.toList.map (fun n => .count n.toNat) ++ s.offset.toList.map fun n => .count n.toNat
  | _ => []

/-- The types of the columns of a body, in the order in which they are written. -/
def columnTypes : Body → List ColumnType
  | createTable s => s.columns.shownColumns.map (·.type)
  | _ => []

/-- The numbers are those of the body, apart from what folding its conditions drops. -/
structure Holds (b : Body) (ns : List Number) : Prop where
  operands : ((b.clauses.flatMap Clause.exprs).flatMap Expr.numbers).Sublist (Number.ofRole .operand ns)
  counts : Number.ofRole .count ns = b.counts
  arguments : Shares ColumnType.Holds b.columnTypes (Number.ofRole .argument ns)

theorem role_of_mem_counts {b : Body} {n : Number} (h : n ∈ b.counts) : n.role = .count := by
  cases b with
  | select s =>
    rcases List.mem_append.1 h with h | h
    all_goals
      obtain ⟨k, -, rfl⟩ := List.mem_map.1 h
      rfl
  | _ => exact absurd h List.not_mem_nil

theorem role_of_mem_exprs {es : List Expr} {n : Number} (h : n ∈ es.flatMap Expr.numbers) : n.role = .operand := by
  obtain ⟨e, -, hn⟩ := List.mem_flatMap.1 h
  exact Expr.role_of_mem_numbers hn

/-- A body without types holds the numbers of the expressions that were written, and then its counts. -/
theorem holds_of_exprs {b : Body} {es : List Expr}
    (hexprs : (b.exprs.flatMap Expr.numbers).Sublist (es.flatMap Expr.numbers)) (htypes : b.columnTypes = []) :
    b.Holds (es.flatMap Expr.numbers ++ b.counts) := by
  rw [exprs_eq_flatMap] at hexprs
  have hoperands : ∀ n ∈ es.flatMap Expr.numbers, n.role = .operand := fun _ => role_of_mem_exprs
  have hcounts : ∀ n ∈ b.counts, n.role = .count := fun _ => role_of_mem_counts
  refine ⟨?_, ?_, ?_⟩
  · rwa [Number.ofRole_append, Number.ofRole_eq hoperands, Number.ofRole_eq hcounts, if_pos rfl, if_neg (by decide),
      List.append_nil]
  · rw [Number.ofRole_append, Number.ofRole_eq hoperands, Number.ofRole_eq hcounts, if_neg (by decide), if_pos rfl,
      List.nil_append]
  · rw [Number.ofRole_append, Number.ofRole_eq hoperands, Number.ofRole_eq hcounts, if_neg (by decide),
      if_neg (by decide), htypes]
    exact .nil

end Body

namespace Parse

variable {p : Position}

/-! ### Columns -/

/-- The numbers of the items of a table are shared out among its types and its constraints. -/
private theorem ofRole_items {items : List (Column ⊕ Constraint)} {ns : List Number} (h : Shares ItemHolds items ns) :
    Number.ofRole .operand ns = (items.filterMap Sum.getRight?).flatMap Constraint.numbers ∧
      Number.ofRole .count ns = [] ∧
      Shares ColumnType.Holds ((items.filterMap Sum.getLeft?).map (·.type)) (Number.ofRole .argument ns) := by
  induction h with
  | nil => exact ⟨rfl, rfl, .nil⟩
  | @cons item items ns more hitem _ ih =>
    obtain ⟨hoperands, hcounts, harguments⟩ := ih
    simp only [Number.ofRole_append, hoperands, hcounts, List.append_nil]
    cases item with
    | inl c =>
      have hns : ∀ n ∈ ns, n.role = .argument := by
        obtain ⟨name, args, -, rfl⟩ := hitem
        exact List.forall_mem_map.2 fun _ _ => rfl
      rw [Number.ofRole_eq hns, Number.ofRole_eq hns, Number.ofRole_eq hns, if_neg (by decide), if_neg (by decide),
        if_pos rfl]
      exact ⟨rfl, rfl, .cons hitem harguments⟩
    | inr c =>
      have hns : ∀ n ∈ ns, n.role = .operand := fun n hn => Body.role_of_mem_exprs (hitem ▸ hn)
      rw [Number.ofRole_eq hns, Number.ofRole_eq hns, Number.ofRole_eq hns, if_pos rfl, if_neg (by decide),
        if_neg (by decide)]
      exact ⟨congrArg (· ++ _) hitem, rfl, harguments⟩

private theorem holds_createTable {target : EntityRef} {l : ColumnList} {ns : List Number} (h : ColumnsHold l ns) :
    (Body.createTable ⟨target, l⟩).Holds ns := by
  obtain ⟨items, hitems, hcolumns, hconstraints⟩ := h
  obtain ⟨hoperands, hcounts, harguments⟩ := ofRole_items hitems
  refine ⟨?_, hcounts, ?_⟩
  · rw [← Body.exprs_eq_flatMap, Body.exprs, ← Clause.exprs_columns, Clause.exprs, List.flatMap_assoc, hconstraints,
      hoperands]
    exact List.Sublist.refl _
  · rwa [Body.columnTypes, hcolumns]

/-! ### Bodies -/

private theorem uses_select (ctx : Context) : Uses .operand (select ctx) fun b _ ns => b.Holds ns := by
  refine (Passes.eat (numberless_keyword .distinct)).bind fun distinct q hq => ?_
  obtain rfl : q = .operand := by rw [hq]; cases distinct <;> rfl
  refine uses_selected.bind ?_
  rintro list q _ rfl
  refine (Passes.keyword .from).bind fun _ q _ => ?_
  refine (passes_sources ctx.catalog).bind fun entities q _ => ?_
  refine (passes_resolveSelected entities.primary list).bind fun selection q hselection => ?_
  refine (uses_filter rfl).bind ?_
  rintro conditions q _ ⟨es, rfl, rfl⟩
  refine passes_groupBy.bind fun groupBy q _ => ?_
  refine (uses_filter rfl).bind ?_
  rintro having q _ ⟨hs, rfl, rfl⟩
  refine uses_orderBy.bind ?_
  rintro orderBy q _ rfl
  refine (uses_count rfl).bind ?_
  rintro limit q _ rfl
  refine (uses_count rfl).bind ?_
  rintro offset q _ rfl
  have hexprs : ((Body.select ⟨⟨distinct, selection⟩, entities, .ofList es, groupBy, .ofList hs, orderBy, limit,
      offset⟩).exprs.flatMap Expr.numbers).Sublist
        ((list.exprs ++ es ++ hs ++ orderBy.map (·.expr)).flatMap Expr.numbers) := by
    simp only [Body.exprs, List.flatMap_append]
    rw [hselection]
    exact (((List.Sublist.refl _).append (Filter.numbers_ofList es)).append (Filter.numbers_ofList hs)).append
      (List.Sublist.refl _)
  have hholds := Body.holds_of_exprs hexprs rfl
  refine .pure ?_
  simpa only [List.flatMap_append, List.append_assoc, List.append_nil, List.nil_append, Body.counts] using hholds

private theorem uses_insert (ctx : Context) (mode : InsertMode) :
    Uses p (insert ctx mode) fun b _ ns => b.Holds ns := by
  refine (Passes.keyword .into).bind fun _ q _ => ?_
  refine (passes_entityRef ctx.catalog).bind fun target q _ => ?_
  have hbody (values : List Assignment) :
      (Body.insert ⟨mode, target, values⟩).Holds ((values.map (·.value)).flatMap Expr.numbers ++ []) :=
    Body.holds_of_exprs (List.Sublist.refl _) rfl
  refine Passes.peek.bind fun k q _ => ?_
  split
  · refine uses_insertedValues.bind ?_
    rintro values q _ rfl
    exact .pure (hbody values)
  · exact .pure (hbody [])

private theorem uses_update (ctx : Context) : Uses p (update ctx) fun b _ ns => b.Holds ns := by
  refine (passes_entityRef ctx.catalog).bind fun target q _ => ?_
  refine uses_assignments.bind ?_
  rintro set q _ rfl
  refine (uses_filter rfl).bind ?_
  rintro conditions q _ ⟨es, rfl, rfl⟩
  have hexprs : ((Body.update ⟨target, set, .ofList es⟩).exprs.flatMap Expr.numbers).Sublist
      ((set.map (·.value) ++ es).flatMap Expr.numbers) := by
    rw [Body.exprs, List.flatMap_append, List.flatMap_append]
    exact (List.Sublist.refl _).append (Filter.numbers_ofList es)
  have hholds := Body.holds_of_exprs hexprs rfl
  refine .pure ?_
  rwa [List.flatMap_append, List.append_assoc] at hholds

private theorem uses_delete (ctx : Context) : Uses p (delete ctx) fun b _ ns => b.Holds ns := by
  refine (Passes.keyword .from).bind fun _ q _ => ?_
  refine (passes_sources ctx.catalog).bind fun entities q _ => ?_
  refine (uses_filter rfl).bind ?_
  rintro conditions q _ ⟨es, rfl, rfl⟩
  exact .pure (Body.holds_of_exprs (b := .delete ⟨entities, .ofList es⟩) (Filter.numbers_ofList es) rfl)

private theorem uses_createTable (ctx : Context) : Uses p (createTable ctx) fun b _ ns => b.Holds ns := by
  refine (passes_entityRef ctx.catalog).bind fun target q hq => ?_
  refine (uses_columns ctx target.entity hq).bind fun l q ns hl => ?_
  refine .pure (holds_createTable ?_)
  rwa [List.append_nil]

private theorem uses_createIndex (ctx : Context) : Uses p (createIndex ctx) fun b _ ns => b.Holds ns := by
  have hbody (head : IndexHead) (target : EntityRef) (ps : List Path) :
      (Body.createIndex ⟨head, target, ps⟩).Holds [] :=
    Body.holds_of_exprs (List.Sublist.refl _) rfl
  refine (Passes.eat (numberless_keyword .unique)).bind fun unique q _ => ?_
  refine (Passes.keyword .index).bind fun _ q _ => ?_
  refine Passes.identifier.bind fun name q _ => ?_
  refine (Passes.keyword .on).bind fun _ q _ => ?_
  refine (passes_entityRef ctx.catalog).bind fun target q _ => ?_
  refine Passes.peek.bind fun k q _ => ?_
  split
  · exact passes_pathList.parenthesized.bind fun ps q _ => .pure (hbody _ _ _)
  · exact .pure (hbody _ _ _)

theorem uses_body (ctx : Context) : Uses .operand (body ctx) fun b _ ns => b.Holds ns := by
  refine .word _ (uses_select ctx) (.word _ (uses_insert ctx _) (.word _ (uses_insert ctx _) ?_))
  refine .word _ (uses_insert ctx _) (.word _ (uses_update ctx) (.word _ (uses_delete ctx) ?_))
  exact .word _ (.word _ (uses_createTable ctx) (uses_createIndex ctx)) (.unexpected _)

/-- The whole text has been read when the body has been, and nothing is left of it. -/
theorem body_of_wholeBody {ctx : Context} {text : String} {b : Body} {c : Cursor}
    (h : (wholeBody ctx).run (.ofText text) = .ok (b, c)) :
    ∃ c', (body ctx).run (.ofText text) = .ok (b, c') ∧ c'.kind = .eof := by
  obtain ⟨b', c', hbody, hend⟩ := bind_run_eq_ok h
  obtain ⟨k, c'', hpeek, hend⟩ := bind_run_eq_ok hend
  cases hpeek
  split at hend
  · rename_i hkind
    cases hend
    exact ⟨_, hbody, hkind⟩
  · cases hend

end Parse

open Parse

namespace Statement

/-- A statement that is read from a text holds the numbers of the text, all of which are in bounds where they stand. -/
theorem holds_of_parse {ctx : Context} {text : String} {s : Statement} (h : parse ctx text = .ok s) :
    ∃ ns, Position.operand.written? (Token.scan text) = some ns ∧ s.body.Holds ns := by
  obtain ⟨c, hwhole⟩ := run_of_read (read_of_parse h)
  obtain ⟨c', hbody, hend⟩ := body_of_wholeBody hwhole
  obtain ⟨used, ns, htokens, hns, hholds⟩ := uses_body ctx _ _ _ hbody
  have htokens : Token.scan text = used ++ c'.tokens := htokens
  have hleft : c'.tokens = [] := by
    cases hrest : c'.tokens with
    | nil => rfl
    | cons t ts =>
      have hmem : t ∈ Token.scan text := by rw [htokens, hrest]; simp
      rw [Cursor.kind, hrest] at hend
      exact absurd hend (Token.ne_eof_of_mem_scan hmem)
  rw [hleft, List.append_nil] at htokens
  exact ⟨ns, htokens ▸ hns, hholds⟩

/-- Whole numbers are never wrapped or cut off: digits are read as what they denote or refused, the arguments that are
read for a type are all kept in it, and a statement that is read holds what its text writes and nothing else. -/
theorem numbers_exact {ds : List Char} (hne : ds ≠ []) (hds : ∀ c ∈ ds, c.isDigit = true) :
    ReadsDigits ds ∧
      (∀ name args,
        (∀ m, Reads columnType m (ColumnType.kindsOfParts name args) (· ≠ .symbol .leftParen) (.ofParts name args) m) ∧
          (ColumnType.ofParts name args).Keeps name args ∧
          (ColumnType.IsDecimalName name → args.length = 1 ∨ args.length = 2 → ColumnType.KeepsDecimal name args)) ∧
      ∀ ctx text s, parse ctx text = .ok s →
        ∃ ns, Position.operand.written? (Token.scan text) = some ns ∧ s.body.Holds ns := by
  refine ⟨readsDigits hne hds, fun name args => ⟨fun m => ?_, ?_, fun hname hargs => ?_⟩, fun ctx text s => holds_of_parse⟩
  · exact reads_columnType name args
  · exact ColumnType.keeps_ofParts name args
  · exact ColumnType.keepsDecimal hname hargs

private def lowestText : String := "SELECT * FROM t WHERE a = - 9223372036854775808 LIMIT 9223372036854775808"

/-- The lowest constant is refused without its sign. After the sign and as a count the same digits are kept. -/
theorem numbers_exact_lowest :
    ("9223372036854775808".toList ≠ [] ∧ ∀ c ∈ "9223372036854775808".toList, c.isDigit = true) ∧
      (∀ m, ∃ f, run m 0 0 [⟨Token.wholeKind "9223372036854775808".toList, ⟨0, 19⟩⟩] .operand [] = .error f) ∧
      ColumnType.ofParts "numeric" [65535, 65536] = .custom "numeric(65535, 65536)" ∧
      ∃ s, parse .empty lowestText = .ok s ∧
        s.body.Holds [.literal (-9223372036854775808), .count 9223372036854775808] := by
  have hdigits : "9223372036854775808".toList ≠ [] ∧ ∀ c ∈ "9223372036854775808".toList, c.isDigit = true :=
    ⟨by decide +kernel, List.all_eq_true.1 (by decide +kernel)⟩
  obtain ⟨hreads, htype, hholds⟩ := numbers_exact hdigits.1 hdigits.2
  refine ⟨hdigits, fun m => ?_, ?_, ?_⟩
  · have hlarge : 2 ^ 63 ≤ Token.decimal "9223372036854775808".toList := by decide +kernel
    exact (hreads.operand .operand rfl).2 hlarge
  · have hname : ColumnType.IsDecimalName "numeric" := .inr (by decide +kernel)
    exact ((htype "numeric" [65535, 65536]).2.2 hname (.inr rfl)).exceed ⟨65536, by decide +kernel⟩
  · obtain ⟨s, hs, -⟩ :=
      exists_of_accepted (fun _ => true) (show (parse .empty lowestText).toOption.any _ = true by decide +kernel)
    obtain ⟨ns, hns, hbody⟩ := hholds _ _ s hs
    have hwritten : Position.operand.written? (Token.scan lowestText) =
        some [.literal (-9223372036854775808), .count 9223372036854775808] := by
      decide +kernel
    rw [hwritten] at hns
    cases hns
    exact ⟨s, hs, hbody⟩

end Statement

end Clausal
