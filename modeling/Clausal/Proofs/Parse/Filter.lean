import Clausal.Proofs.Expr.Folding
import Clausal.Proofs.Parse.Reads
import Clausal.Proofs.Statement.Spelling

/-!
# Reading conditions

The conditions of a filter are written as operands of a conjunction and are read as their conjunction, whose
conjuncts are the conditions again. No condition is a conjunction, so each of them stands to the right of AND with
no more parentheses than it is written with.
-/

namespace Clausal.Parse

open Token (Kind)

variable {m : Aliases} {stop : Nat}

private def AfterCondition (k : Kind) : Prop := k = .keyword .and ∨ Closing k

private theorem AfterCondition.follows {k : Kind} (h : AfterCondition k) {e : Expr}
    (hle : Precedence.and ≤ e.precedence) : Follows e.precedence k := by
  rcases h with rfl | h
  · exact .operator (p := Precedence.and) (by decide) (by decide) rfl (by decide) hle
  · exact h.follows _

private theorem runs_condition {p : Expr} (hwell : p.WellFormed) {stack : List Frame}
    (hfit : Precedence.and ≤ p.precedence → Fits (topPower 0 stack) p) :
    Runs m 0 stop (Filter.kindsOfCondition p) AfterCondition .operand stack
      (.operator (p.mapPaths (Path.reread m))) stack :=
  runs_enclosed (runs_operand hwell) (fun hbare => hfit (by simpa using hbare))
    fun hbare k hk => AfterCondition.follows hk (by simpa using hbare)

/-- One more condition. -/
private theorem runs_and {l p : Expr} (hwell : p.WellFormed) (hne : p.precedence ≠ Precedence.and) :
    Runs m 0 stop (.keyword .and :: Filter.kindsOfCondition p) AfterCondition (.operator l) []
      (.operator (.binary l .and (p.mapPaths (Path.reread m)))) [] := by
  have hop : Runs m 0 stop BinaryOp.and.kinds (fun _ => True) (.operator l) [] .operand [.binary l .and] :=
    runs_operator .and (Nat.zero_le _)
  have hoperand : Runs m 0 stop (Filter.kindsOfCondition p) AfterCondition .operand [.binary l .and]
      (.operator (p.mapPaths (Path.reread m))) [.binary l .and] :=
    runs_condition hwell fun hle => fits_right (by decide) (Nat.lt_of_le_of_ne hle (Ne.symm hne))
  have hclose : Runs m 0 stop [] AfterCondition (.operator (p.mapPaths (Path.reread m))) [.binary l .and]
      (.operator (.binary l .and (p.mapPaths (Path.reread m)))) [] := by
    refine runs_close_binary fun k hk => ?_
    rcases hk with rfl | hk
    · rfl
    · exact binds_eq_false_of_none hk.2.2
  exact hop.seq (hoperand.close hclose)

private theorem runs_conditions {ps : List Expr} (hwell : ∀ p ∈ ps, p.WellFormed)
    (hne : ∀ p ∈ ps, p.precedence ≠ Precedence.and) (l : Expr) :
    Runs m 0 stop (ps.flatMap fun p => .keyword .and :: Filter.kindsOfCondition p) AfterCondition (.operator l) []
      (.operator (Expr.conjunction l (ps.map (Expr.mapPaths (Path.reread m))))) [] := by
  induction ps generalizing l with
  | nil => exact Runs.refl
  | cons p ps ih =>
    refine (runs_and (hwell p List.mem_cons_self) (hne p List.mem_cons_self)).append (ih (fun q hq => hwell q (List.mem_cons_of_mem _ hq))
      (fun q hq => hne q (List.mem_cons_of_mem _ hq)) _) fun k hk => ?_
    cases ps with
    | nil => exact hk
    | cons q ps => exact .inl rfl

private theorem reads_conditions {p : Expr} {ps : List Expr} (hwell : ∀ q ∈ p :: ps, q.WellFormed)
    (hne : ∀ q ∈ p :: ps, q.precedence ≠ Precedence.and)
    (hpaths : ∀ q ∈ p :: ps, q.mapPaths (Path.reread m) = q) :
    Reads expression m (Filter.all (p :: ps)).kinds Closing (Expr.conjunction p ps) m := by
  refine .of_runs fun stop => ?_
  have hfirst : Runs m 0 stop (Filter.kindsOfCondition p) AfterCondition .operand []
      (.operator (p.mapPaths (Path.reread m))) [] :=
    runs_condition (hwell p List.mem_cons_self) fun _ => fits_zero p
  have hothers : Runs m 0 stop (ps.flatMap fun q => .keyword .and :: Filter.kindsOfCondition q) AfterCondition
      (.operator p) [] (.operator (Expr.conjunction p (ps.map (Expr.mapPaths (Path.reread m))))) [] :=
    runs_conditions (fun q hq => hwell q (List.mem_cons_of_mem _ hq)) (fun q hq => hne q (List.mem_cons_of_mem _ hq)) p
  rw [hpaths p List.mem_cons_self] at hfirst
  rw [List.map_congr_left fun q hq => hpaths q (List.mem_cons_of_mem _ hq), List.map_id'] at hothers
  refine (hfirst.append hothers fun k hk => ?_).mono fun _ hk => .inr hk
  cases ps with
  | nil => exact hk
  | cons q ps => exact .inl rfl

/-- The tokens of an optional clause with conditions. -/
def kindsOfFilter (k : Keyword) (f : Filter) : List Kind := if f.isOmitted then [] else .keyword k :: f.kinds

theorem Reads.filter (k : Keyword) {f : Filter} (h : f.WellFormed)
    (hpaths : ∀ p ∈ f.predicates, p.mapPaths (Path.reread m) = p) :
    Reads (Parse.filter k) m (kindsOfFilter k f) (fun next => Closing next ∧ next ≠ .keyword k) f m := by
  obtain ⟨⟨conditions, rfl⟩, hwell⟩ := h
  have hconditions := Filter.isCondition_ofList conditions
  generalize Filter.ofList conditions = f at *
  cases f with
  | unsatisfiable =>
    refine Reads.eat_bind ?_
    have hfalse : Reads Parse.expression m [.keyword .false] Closing (Expr.ofBool false) m :=
      Reads.expression (e := Expr.ofBool false) trivial
    exact (hfalse.map Filter.empty.and).mono fun _ hnext => hnext.1
  | all ps =>
    cases ps with
    | nil => exact Reads.eat_other_bind (Reads.pure _) fun _ hnext => hnext.2
    | cons p ps =>
      refine Reads.eat_bind ?_
      have hread := reads_conditions hwell (fun q hq => (hconditions q hq).precedence_ne) hpaths
      have hfilter := hread.map Filter.empty.and
      rw [Filter.empty_and_conjunction hconditions] at hfilter
      exact hfilter.mono fun _ hnext => hnext.1

end Clausal.Parse
