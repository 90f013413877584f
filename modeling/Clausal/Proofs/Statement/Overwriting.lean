import Clausal.Proofs.Statement.ReadBack

/-!
# Paths that are assigned twice

The text of an insertion or a change assigns to every path once, with its last value. So it is read as the statement
with the assignments that count, and everything else is as it was.
-/

namespace Clausal

/-- The body with the assignments that count in place of all assignments. -/
def Body.settled : Body → Body
  | insert s => .insert { s with values := Assignment.effective s.values }
  | update s => .update { s with assignments := Assignment.effective s.assignments }
  | b => b

namespace Body

variable {b : Body}

theorem assignments_settled : b.settled.assignments = Assignment.effective b.assignments := by cases b <;> rfl

/-- The body assigns values to paths. -/
def IsAssigning (b : Body) : Prop := (∃ s, b = .insert s) ∨ ∃ s, b = .update s

theorem reread_settled (h : b.IsAssigning) : b.reread = b.settled.withoutTemplates := by
  rcases h with ⟨s, rfl⟩ | ⟨s, rfl⟩ <;> rfl

theorem exprs_settled {e : Expr} (he : e ∈ b.settled.exprs) : e ∈ b.exprs := by
  have values : ∀ as : List Assignment, e ∈ (Assignment.effective as).map (·.value) → e ∈ as.map (·.value) := by
    intro as he
    obtain ⟨a, ha, rfl⟩ := List.mem_map.1 he
    exact List.mem_map_of_mem (Assignment.mem_effective ha)
  cases b with
  | insert s => exact values _ he
  | update s => exact List.mem_append.2 ((List.mem_append.1 he).imp_left (values _))
  | _ => exact he

end Body

namespace Statement

open Assignment (effective last? write)

/-- The last value given to a path counts: it stands where the path occurred first, and it is what is left when all
assignments are carried out one after the other. An insertion or a change is read from its text as the same
statement with the assignments that count. -/
theorem parse_text_settled :
    (∀ as : List Assignment,
      ((effective as).map (·.path)).Nodup ∧ (effective as).map (·.path) = (as.map (·.path)).eraseDups ∧
        (∀ a ∈ effective as, last? as a.path = some a) ∧
          ∀ m : Path → Option Expr, (effective as).foldl write m = as.foldl write m) ∧
      ∀ s : Statement, s.WellFormed → s.body.IsAssigning →
        ∃ t, parse .empty s.text = .ok t ∧ t.body.assignments = effective s.body.assignments ∧
          (t.body == s.body.settled) = true ∧ t.body = s.body.settled.withoutTemplates := by
  refine ⟨fun as => ?_, fun s hwell hassigning => ?_⟩
  · refine ⟨Assignment.nodup_effective as, Assignment.map_path_effective as, fun a ha => ?_,
      Assignment.foldl_write_effective as⟩
    rw [← Assignment.last?_effective]
    exact Assignment.last?_of_nodup (Assignment.nodup_effective as) ha
  · obtain ⟨t, ht, hbody⟩ := read_render (d := .canonical) rfl rfl hwell
    have hsettled : t.body = s.body.settled.withoutTemplates := hbody.trans (Body.reread_settled hassigning)
    refine ⟨t, ?_, ?_, ?_, hsettled⟩
    · rw [parse, text, ht]
      rfl
    · rw [hsettled, ← Body.assignments_settled]
      cases s.body.settled <;> rfl
    · rw [hsettled]
      exact Body.withoutTemplates_beq fun e he l hl => Body.isFinite_of_check s.sound (Body.exprs_settled he) hl

/-- A row whose name is given twice, with the age in between. -/
def renamedRow : Statement where
  body := .insert
    { mode := .merge
      target := ⟨.opaqueNamed "template", "product", some "p"⟩
      values :=
        [⟨⟨some "p", ["name"]⟩, .literal (.string "a")⟩, ⟨⟨some "p", ["age"]⟩, .literal (.integer 1)⟩,
          ⟨⟨some "p", ["name"]⟩, .field ⟨some "p", ["age"]⟩⟩] }
  aliases := Dictionary.empty.insert "p" (.opaqueNamed "template")
  sound := by rfl

theorem parse_text_settled_renamedRow :
    last? renamedRow.body.assignments ⟨some "p", ["name"]⟩ =
        some ⟨⟨some "p", ["name"]⟩, .field ⟨some "p", ["age"]⟩⟩ ∧
      ∃ t, parse .empty renamedRow.text = .ok t ∧ t.body.assignments =
        [⟨⟨some "p", ["name"]⟩, .field ⟨some "p", ["age"]⟩⟩, ⟨⟨some "p", ["age"]⟩, .literal (.integer 1)⟩] := by
  have hwell : renamedRow.WellFormed := by
    refine ⟨?_, ?_⟩
    · simp [clauses, Body.clauses, renamedRow, Clause.WellFormed, EntityRef.WellFormed, Expr.WellFormed,
        Path.WellFormed, Path.parts]
    · have hpaths : paths renamedRow.body =
          [⟨some "p", ["name"]⟩, ⟨some "p", ["age"]⟩, ⟨some "p", ["name"]⟩, ⟨some "p", ["age"]⟩] := rfl
      have hbound : renamedRow.aliases.contains "p" = true := rfl
      rw [hpaths]
      simp only [List.forall_mem_cons, Path.Resolved, hbound, true_and]
      exact fun p hp => absurd hp List.not_mem_nil
  have heffective : effective renamedRow.body.assignments =
      [⟨⟨some "p", ["name"]⟩, .field ⟨some "p", ["age"]⟩⟩, ⟨⟨some "p", ["age"]⟩, .literal (.integer 1)⟩] := rfl
  obtain ⟨hlists, htexts⟩ := parse_text_settled
  obtain ⟨-, -, hlast, -⟩ := hlists renamedRow.body.assignments
  obtain ⟨t, ht, hassignments, -⟩ := htexts renamedRow hwell (.inl ⟨_, rfl⟩)
  rw [heffective] at hlast hassignments
  exact ⟨hlast _ List.mem_cons_self, t, ht, hassignments⟩

end Statement

end Clausal
