import Clausal.Proofs.Parse.Gives
import Clausal.Proofs.Parse.Whole
import Clausal.Proofs.Expr.WellFormed
import Clausal.Proofs.Statement.Canonical

/-!
# What reading an expression gives

An expression that is read can be written, and its paths are as they are read. This holds of every expression in the
mode and on the stack, and every step keeps it.
-/

namespace Clausal

/-- The path is what some segments are read as. -/
def Path.IsRead (m : Aliases) (p : Path) : Prop :=
  ∃ segments, (segments ≠ [] ∧ "" ∉ segments) ∧ p = resolve m ⟨none, segments⟩

theorem Path.IsRead.wellFormed {m : Aliases} {p : Path} (h : p.IsRead m) : p.WellFormed := by
  obtain ⟨segments, hsegments, rfl⟩ := h
  have hparts : (Path.mk none segments).parts = segments := rfl
  have hread := reread_parts m (p := ⟨none, segments⟩) (by rw [hparts]; exact hsegments.1)
  rw [reread, hparts] at hread
  rw [WellFormed, hread]
  exact hsegments

theorem Path.IsRead.resolved {m : Aliases} {p : Path} (h : p.IsRead m) : p.Resolved m := by
  obtain ⟨segments, -, rfl⟩ := h
  exact resolved_resolve m segments

namespace Expr

theorem paths_mapPaths (f : Path → Path) (e : Expr) : (e.mapPaths f).paths = e.paths.map f := by
  have all : ∀ es : List Expr, (∀ x ∈ es, (x.mapPaths f).paths = x.paths.map f) →
      pathsAll (mapPathsAll f es) = (pathsAll es).map f := by
    intro es ih
    rw [pathsAll_eq_flatMap, pathsAll_eq_flatMap, mapPathsAll_eq_map, List.flatMap_map, List.map_flatMap]
    exact List.flatMap_congr ih
  induction e using recurse with
  | literal l => rfl
  | field p => rfl
  | param p => rfl
  | wildcard => rfl
  | binary l op r hl hr => simp only [mapPaths, paths, hl, hr, List.map_append]
  | unary op e he => simp only [mapPaths, paths, he]
  | isNull e n he => simp only [mapPaths, paths, he]
  | isIn e es n he hes => simp only [mapPaths, paths, he, all es hes, List.map_append]
  | between e l u n he hl hu => simp only [mapPaths, paths, he, hl, hu, List.map_append]
  | call f es d hes => simp only [mapPaths, paths, all es hes]

theorem WellFormed.mapPaths {f : Path → Path} {e : Expr} (h : e.WellFormed) (hf : ∀ p ∈ e.paths, (f p).WellFormed) :
    (e.mapPaths f).WellFormed := by
  have all : ∀ es : List Expr,
      (∀ x ∈ es, x.WellFormed → (∀ p ∈ x.paths, (f p).WellFormed) → (x.mapPaths f).WellFormed) →
      AllWellFormed es → (∀ p ∈ pathsAll es, (f p).WellFormed) → AllWellFormed (mapPathsAll f es) := by
    intro es ih h hf
    rw [pathsAll_eq_flatMap] at hf
    rw [mapPathsAll_eq_map, allWellFormed_iff]
    refine List.forall_mem_map.2 fun x hx => ih x hx (allWellFormed_iff.1 h x hx) fun p hp => ?_
    exact hf p (List.mem_flatMap.2 ⟨x, hx, hp⟩)
  induction e using recurse with
  | literal l => exact trivial
  | field p => exact hf p List.mem_cons_self
  | param p => exact h
  | wildcard => exact trivial
  | binary l op r hl hr =>
    simp only [paths, List.forall_mem_append] at hf
    exact ⟨hl h.1 hf.1, hr h.2 hf.2⟩
  | unary op e he => exact he h hf
  | isNull e n he => exact he h hf
  | isIn e es n he hes =>
    simp only [paths, List.forall_mem_append] at hf
    refine ⟨he h.1 hf.1, ?_, all es hes h.2.2 hf.2⟩
    rw [mapPathsAll_eq_map]
    exact List.map_eq_nil_iff.not.2 h.2.1
  | between e l u n he hl hu =>
    simp only [paths, List.forall_mem_append] at hf
    exact ⟨he h.1 hf.1.1, hl h.2.1 hf.1.2, hu h.2.2 hf.2⟩
  | call f es d hes => exact ⟨h.1, all es hes h.2 hf⟩

/-- The expression can be written, and its paths are as they are read. -/
def IsRead (m : Aliases) (e : Expr) : Prop := e.WellFormed ∧ ∀ p ∈ e.paths, p.IsRead m

variable {m : Aliases}

/-- An expression that was read before its aliases were known. -/
theorem IsRead.resolve {e : Expr} (h : e.IsRead .empty) (m : Aliases) : (e.mapPaths (Path.resolve m)).IsRead m := by
  have hread : ∀ p ∈ e.paths, (Path.resolve m p).IsRead m := by
    intro p hp
    obtain ⟨segments, hsegments, rfl⟩ := h.2 p hp
    have hempty : Path.resolve .empty ⟨none, segments⟩ = ⟨none, segments⟩ := Path.reread_empty ⟨none, segments⟩
    exact ⟨segments, hsegments, by rw [hempty]⟩
  refine ⟨h.1.mapPaths fun p hp => (hread p hp).wellFormed, ?_⟩
  rw [paths_mapPaths]
  exact List.forall_mem_map.2 hread

theorem isRead_field {p : Path} (h : p.IsRead m) : (field p).IsRead m :=
  ⟨h.wellFormed, fun _ hq => List.mem_singleton.1 hq ▸ h⟩

theorem isRead_unary {op : UnaryOp} {e : Expr} (h : e.IsRead m) : (unary op e).IsRead m := h

theorem isRead_isNull {e : Expr} {n : Bool} (h : e.IsRead m) : (isNull e n).IsRead m := h

theorem isRead_binary {l r : Expr} {op : BinaryOp} (hl : l.IsRead m) (hr : r.IsRead m) : (binary l op r).IsRead m :=
  ⟨⟨hl.1, hr.1⟩, List.forall_mem_append.2 ⟨hl.2, hr.2⟩⟩

theorem isRead_between {e l u : Expr} {n : Bool} (he : e.IsRead m) (hl : l.IsRead m) (hu : u.IsRead m) :
    (between e l u n).IsRead m :=
  ⟨⟨he.1, hl.1, hu.1⟩, List.forall_mem_append.2 ⟨List.forall_mem_append.2 ⟨he.2, hl.2⟩, hu.2⟩⟩

private theorem isRead_all {es : List Expr} (h : ∀ e ∈ es, e.IsRead m) :
    AllWellFormed es ∧ ∀ p ∈ pathsAll es, p.IsRead m := by
  refine ⟨allWellFormed_iff.2 fun e he => (h e he).1, fun p hp => ?_⟩
  rw [pathsAll_eq_flatMap] at hp
  obtain ⟨e, he, hp⟩ := List.mem_flatMap.1 hp
  exact (h e he).2 p hp

theorem isRead_isIn {e : Expr} {es : List Expr} {n : Bool} (he : e.IsRead m) (hne : es ≠ [])
    (hes : ∀ x ∈ es, x.IsRead m) : (isIn e es n).IsRead m :=
  ⟨⟨he.1, hne, (isRead_all hes).1⟩, List.forall_mem_append.2 ⟨he.2, (isRead_all hes).2⟩⟩

theorem isRead_call {f : String} {es : List Expr} {distinct : Bool} (hf : f ≠ "") (hes : ∀ x ∈ es, x.IsRead m) :
    (call f es distinct).IsRead m :=
  ⟨⟨hf, (isRead_all hes).1⟩, (isRead_all hes).2⟩

end Expr

namespace Parse

open Token (Kind)

variable {m : Aliases} {floor stop : Nat}

/-- Every expression in the frame is one that is read. -/
def Frame.Good (m : Aliases) : Frame → Prop
  | group | unary _ => True
  | binary e _ | low e _ => e.IsRead m
  | item e _ before => e.IsRead m ∧ ∀ x ∈ before, x.IsRead m
  | high e _ l => e.IsRead m ∧ l.IsRead m
  | argument f _ before => f ≠ "" ∧ ∀ x ∈ before, x.IsRead m

/-- Every expression and name in the mode is one that is read. -/
def Mode.Good (m : Aliases) : Mode → Prop
  | operand | negated => True
  | path segments | segment segments => segments ≠ [] ∧ "" ∉ segments
  | arguments f | firstArgument f _ => f ≠ ""
  | operator e | nullTest e _ | negatedTest e | list e _ => e.IsRead m

/-- A step leads to a mode and a stack, or ends with an expression, of what is read. -/
def Step.Good (m : Aliases) : Step → Prop
  | shift mode stack => mode.Good m ∧ ∀ f ∈ stack, f.Good m
  | done e => e.IsRead m

private theorem good_cons {f : Frame} {stack : List Frame} (hf : f.Good m) (hstack : ∀ g ∈ stack, g.Good m) :
    ∀ g ∈ f :: stack, g.Good m :=
  List.forall_mem_cons.2 ⟨hf, hstack⟩

private theorem openOperator_good {e : Expr} {stack : List Frame} (he : e.IsRead m)
    (hstack : ∀ f ∈ stack, f.Good m) (k : Kind) : (openOperator e stack k).Good m := by
  unfold openOperator
  split
  · exact ⟨trivial, good_cons he hstack⟩
  split
  · exact ⟨he, hstack⟩
  · exact ⟨he, hstack⟩
  · exact ⟨he, hstack⟩
  · exact ⟨trivial, good_cons he hstack⟩
  · exact he

private theorem items_good {e : Expr} {before : List Expr} (he : e.IsRead m) (h : ∀ x ∈ before, x.IsRead m) :
    ∀ x ∈ (e :: before).reverse, x.IsRead m :=
  fun x hx => List.forall_mem_cons.2 ⟨he, h⟩ x (List.mem_reverse.1 hx)

private theorem settle_good {t : Token} {e : Expr} {stack : List Frame} {s : Step} (he : e.IsRead m)
    (hstack : ∀ f ∈ stack, f.Good m) (h : settle floor t e stack = .ok s) : s.Good m := by
  induction stack generalizing e with
  | nil =>
    rw [settle] at h
    cases h
    split
    · exact openOperator_good he hstack _
    · exact he
  | cons f stack ih =>
    obtain ⟨hf, hstack'⟩ := List.forall_mem_cons.1 hstack
    unfold settle at h
    split at h
    · cases h
      exact openOperator_good he hstack _
    cases f with
    | unary op => exact ih (Expr.isRead_unary he) hstack' h
    | binary l op => exact ih (Expr.isRead_binary hf he) hstack' h
    | high x n l => exact ih (Expr.isRead_between hf.1 hf.2 he) hstack' h
    | low x n =>
      simp only at h
      split at h <;> cases h
      exact ⟨trivial, good_cons ⟨hf, he⟩ hstack'⟩
    | group =>
      simp only at h
      split at h <;> cases h
      exact ⟨he, hstack'⟩
    | item x n before =>
      simp only at h
      split at h
      · cases h
        exact ⟨trivial, good_cons ⟨hf.1, List.forall_mem_cons.2 ⟨he, hf.2⟩⟩ hstack'⟩
      split at h <;> cases h
      exact ⟨Expr.isRead_isIn hf.1 (by simp) (items_good he hf.2), hstack'⟩
    | argument g d before =>
      simp only at h
      split at h
      · cases h
        exact ⟨trivial, good_cons ⟨hf.1, List.forall_mem_cons.2 ⟨he, hf.2⟩⟩ hstack'⟩
      split at h <;> cases h
      exact ⟨Expr.isRead_call hf.1 (items_good he hf.2), hstack'⟩

private theorem literal_good (l : Literal) : (Expr.literal l).IsRead m :=
  ⟨trivial, fun _ hp => absurd hp List.not_mem_nil⟩

private theorem integer?_good {negative : Bool} {n : UInt64} {e : Expr} (h : integer? negative n = some e) :
    e.IsRead m := by
  obtain ⟨l, rfl⟩ := literal_of_integer? h
  exact literal_good l

private theorem beginOperand_good {t : Token} {stack : List Frame} {s : Step} (ht : t.kind.Sane)
    (hstack : ∀ f ∈ stack, f.Good m) (h : beginOperand stack t = .ok s) : s.Good m := by
  have atom : ∀ e : Expr, e.IsRead m → Step.Good m (.shift (.operator e) stack) := fun e he => ⟨he, hstack⟩
  have bare : ∀ e : Expr, e.WellFormed → e.paths = [] → Step.Good m (.shift (.operator e) stack) :=
    fun e he hp => atom e ⟨he, fun _ hm => absurd (hp ▸ hm) List.not_mem_nil⟩
  cases hk : t.kind with
  | integer n =>
    rw [beginOperand_integer hk] at h
    obtain ⟨e, he, rfl⟩ := readInteger_eq_ok.1 h
    exact ⟨integer?_good he, hstack⟩
  | identifier name =>
    rw [beginOperand, hk] at h
    rw [hk] at ht
    cases h
    refine ⟨⟨List.cons_ne_nil _ _, ?_⟩, hstack⟩
    rw [List.mem_singleton]
    exact fun he => ht he.symm
  | float x | string x | blob x =>
    rw [beginOperand, hk] at h
    cases h
    exact atom _ (literal_good _)
  | positional n =>
    rw [beginOperand, hk] at h
    cases h
    exact bare _ trivial rfl
  | named name =>
    rw [beginOperand, hk] at h
    rw [hk] at ht
    cases h
    exact bare _ ht rfl
  | keyword k =>
    rw [beginOperand, hk] at h
    cases k with
    | not =>
      cases h
      exact ⟨trivial, good_cons trivial hstack⟩
    | true | false | null =>
      cases h
      exact atom _ (literal_good _)
    | _ => cases h
  | symbol y =>
    rw [beginOperand, hk] at h
    cases y with
    | minus =>
      cases h
      exact ⟨trivial, hstack⟩
    | leftParen =>
      cases h
      exact ⟨trivial, good_cons trivial hstack⟩
    | star =>
      cases h
      exact bare _ trivial rfl
    | _ => cases h
  | _ =>
    rw [beginOperand, hk] at h
    cases h

private theorem beginArgument_good {f : String} {distinct : Bool} {t : Token} {stack : List Frame} {s : Step}
    (ht : t.kind.Sane) (hf : f ≠ "") (hstack : ∀ f ∈ stack, f.Good m)
    (h : beginArgument f distinct stack t = .ok s) : s.Good m := by
  have hnone : ∀ x ∈ ([] : List Expr), x.IsRead m := fun x hx => absurd hx List.not_mem_nil
  unfold beginArgument at h
  split at h
  · cases h
    exact ⟨Expr.isRead_call hf hnone, hstack⟩
  · exact beginOperand_good ht (good_cons (f := .argument f distinct []) ⟨hf, hnone⟩ hstack) h

/-- Every step keeps what is read. -/
theorem step_good {mode : Mode} {stack : List Frame} {t : Token} {s : Step} (ht : t.kind.Sane) (hmode : mode.Good m)
    (hstack : ∀ f ∈ stack, f.Good m) (h : step m floor mode stack t = .ok s) : s.Good m := by
  have none_read : ∀ x ∈ ([] : List Expr), x.IsRead m := fun x hx => absurd hx List.not_mem_nil
  revert hmode h
  fun_cases step m floor mode stack t with
  | case1 => exact fun _ h => beginOperand_good ht hstack h
  | case2 n hn e he =>
    rintro - ⟨⟩
    exact ⟨integer?_good he, hstack⟩
  | case4 =>
    rintro - ⟨⟩
    exact ⟨literal_good _, hstack⟩
  | case5 => exact fun _ h => beginOperand_good ht (good_cons (f := .unary .neg) trivial hstack) h
  | case6 =>
    rintro hsegments ⟨⟩
    exact ⟨hsegments, hstack⟩
  | case7 =>
    rintro hsegments ⟨⟩
    exact ⟨fun he => hsegments.2 (he ▸ List.mem_cons_self), hstack⟩
  | case8 => exact fun hsegments h => settle_good (Expr.isRead_field ⟨_, hsegments, rfl⟩) hstack h
  | case9 before name hname =>
    rintro hsegments ⟨⟩
    rw [hname] at ht
    refine ⟨⟨by simp, ?_⟩, hstack⟩
    simp only [List.mem_append, List.mem_singleton, not_or]
    exact ⟨hsegments.2, fun he => ht he.symm⟩
  | case11 =>
    rintro hf ⟨⟩
    exact ⟨hf, hstack⟩
  | case12 => exact fun hf h => beginArgument_good ht hf hstack h
  | case13 => exact fun hf h => beginArgument_good ht hf hstack h
  | case14 => exact fun he h => settle_good he hstack h
  | case15 =>
    rintro he ⟨⟩
    exact ⟨Expr.isRead_isNull he, hstack⟩
  | case16 =>
    rintro he ⟨⟩
    exact ⟨he, hstack⟩
  | case18 =>
    rintro he ⟨⟩
    exact ⟨trivial, good_cons he hstack⟩
  | case19 =>
    rintro he ⟨⟩
    exact ⟨he, hstack⟩
  | case20 =>
    rintro he ⟨⟩
    exact ⟨trivial, good_cons he hstack⟩
  | case22 =>
    rintro he ⟨⟩
    exact ⟨trivial, good_cons ⟨he, none_read⟩ hstack⟩
  | case3 | case10 | case17 | case21 | case23 => rintro - ⟨⟩

private theorem run_good {known : List Token → Prop} (hkept : Kept known) {ts rest : List Token} {mode : Mode}
    {stack : List Frame} {e : Expr} (hknown : known ts) (hmode : mode.Good m) (hstack : ∀ f ∈ stack, f.Good m)
    (h : run m floor stop ts mode stack = .ok (e, rest)) : known rest ∧ e.IsRead m := by
  induction ts generalizing mode stack with
  | nil =>
    rw [run] at h
    split at h
    · cases h
    · rename_i hstep
      cases h
      have heof : (Token.mk .eof ⟨stop, stop⟩).kind.Sane := trivial
      exact ⟨hknown, step_good heof hmode hstack hstep⟩
    · cases h
  | cons t ts ih =>
    rw [run] at h
    split at h
    · cases h
    · rename_i hstep
      cases h
      exact ⟨hknown, step_good (hkept.sane hknown) hmode hstack hstep⟩
    · rename_i hstep
      obtain ⟨hmode', hstack'⟩ := step_good (hkept.sane hknown) hmode hstack hstep
      exact ih (hkept.tail hknown) hmode' hstack' h

theorem Gives.expression {known : List Token → Prop} (hkept : Kept known) (m : Aliases) :
    Gives known Parse.expression m fun e m' => m' = m ∧ e.IsRead m := by
  intro c e c' hc hknown hrun
  subst hc
  cases hread : run c.aliases 0 c.stop c.tokens .operand [] with
  | error f =>
    have herror : Parse.expression.run c = .error f := by
      show expressionAbove 0 c = _
      rw [expressionAbove, hread]
    cases herror.symm.trans hrun
  | ok r =>
    have hok : Parse.expression.run c = .ok (r.1, { c with tokens := r.2 }) := by
      show expressionAbove 0 c = _
      rw [expressionAbove, hread]
    cases hok.symm.trans hrun
    have hoperand : Mode.operand.Good c.aliases := trivial
    obtain ⟨hrest, he⟩ := run_good hkept hknown hoperand (fun f hf => absurd hf List.not_mem_nil) hread
    exact ⟨hrest, rfl, he⟩

end Parse

end Clausal
