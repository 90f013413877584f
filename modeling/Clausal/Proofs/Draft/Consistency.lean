import Clausal.Draft.Change
import Clausal.Draft.Definition
import Clausal.Draft.Query
import Clausal.Proofs.Draft.Candidates
import Clausal.Proofs.Draft.Scope

/-!
# Scopes stay consistent

A scope keeps two records of its aliases: with the entities, and in the map from aliases to entities. Calls
on the scope change both, in any order and with any handles, and some of the calls fail. The two records
always agree: the map binds the aliases that the entities have, each to its entity, and no two entities
share one. What fails changes nothing, and an entity that has an alias keeps it until another one is chosen
for it. This is why a draft over such a scope never meets a duplicate alias when it becomes a statement.
-/

namespace Clausal

namespace Scope

/-! ### Calls -/

inductive Call where
  | bind (e : Entity)
  | aliasOf (h : Handle)
  | setAlias (h : Handle) (aliasName : String)
  | path (h : Handle) (field : String)
  | field (h : Handle) (name : String)
  | whole (h : Handle)

def Call.Answer : Call → Type
  | bind _ => Handle
  | aliasOf _ => String
  | setAlias _ _ => Option String
  | path _ _ => Path
  | field _ _ | whole _ => Expr

def Call.run : (c : Call) → ScopeM c.Answer
  | bind e => Scope.bind e
  | aliasOf h => Scope.aliasOf h
  | setAlias h a => Scope.setAlias h a
  | path h f => Scope.path h f
  | field h f => Scope.field h f
  | whole h => Scope.whole h

/-- The scope after several calls, of which some may have failed. -/
def after (s : Scope) (calls : List Call) : Scope := calls.foldl (fun s c => (c.run s).2) s

/-- What a call can do to a scope. -/
inductive Step (s : Scope) : Call → Scope → Prop
  | nothing (c : Call) : Step s c s
  | bound (e : Entity) : Step s (.bind e) { s with entities := s.entities ++ [.ofEntity e] }
  | named {c : Call} {h : Handle} {a : String} {s' : Scope} (names : Names h s a s') : Step s c s'
  | chosen {h : Handle} {a : String} {released : Option String} {s' : Scope}
      (chooses : Chooses h a s released s') : Step s (.setAlias h a) s'

theorem Call.run_error {c : Call} {s s' : Scope} {x : Error} (hx : c.run s = (.error x, s')) : s' = s := by
  cases c with
  | bind e => cases hx
  | aliasOf h => exact aliasOf_error hx
  | setAlias h a => exact setAlias_error hx
  | path h f => exact path_error hx
  | field h f => exact path_error (map_error (f := Expr.field) hx)
  | whole h => exact aliasOf_error (map_error (f := fun a => Expr.field (.ofEntity a)) hx)

theorem Call.run_ok {c : Call} {s s' : Scope} {b : c.Answer} (hb : c.run s = (.ok b, s')) :
    Step s c s' := by
  cases c with
  | bind e =>
    cases hb
    exact .bound e
  | aliasOf h => exact .named (aliasOf_ok hb)
  | setAlias h a => exact .chosen (setAlias_ok hb)
  | path h f =>
    obtain ⟨a, _, names⟩ := path_ok hb
    exact .named names
  | field h f =>
    obtain ⟨p, t, hp, hb⟩ := bind_ok hb
    cases hb
    obtain ⟨a, _, names⟩ := path_ok hp
    exact .named names
  | whole h =>
    obtain ⟨a, t, ha, hb⟩ := bind_ok hb
    cases hb
    exact .named (aliasOf_ok ha)

theorem Call.step (c : Call) (s : Scope) : Step s c (c.run s).2 := by
  cases hrun : c.run s with
  | mk r s' =>
    cases r with
    | ok b => exact run_ok hrun
    | error x => exact run_error hrun ▸ .nothing c

/-! ### The two records of aliases -/

/-- Every alias belongs to one entity and is bound to it, and no other alias is bound. -/
structure Consistent (s : Scope) : Prop extends Sound s where
  held : ∀ (a : String) (t : Entity), s.aliases.get? a = some t →
    ∃ (i : Nat) (e : EntityRef), s.entities[i]? = some e ∧ e.aliasName = some a

theorem Consistent.empty : empty.Consistent where
  bound i e a he := by cases he
  distinct i j e e' a he := by cases he
  held a t ht := by cases ht

theorem Consistent.get?_eq_some_iff {s : Scope} (h : s.Consistent) {a : String} {t : Entity} :
    s.aliases.get? a = some t ↔ ∃ e ∈ s.entities, e.aliasName = some a ∧ e.entity = t := by
  constructor
  · intro ht
    obtain ⟨i, e, he, ha⟩ := h.held a t ht
    exact ⟨e, List.mem_of_getElem? he, ha, Option.some.inj ((h.bound i e a he ha).symm.trans ht)⟩
  · rintro ⟨e, he, ha, rfl⟩
    obtain ⟨i, hi⟩ := List.getElem?_of_mem he
    exact h.bound i e a hi ha

/-- The entry of an added entity is new and has no alias; the others stay where they are. -/
theorem getElem?_bound {s : Scope} {e : Entity} {i : Nat} {f : EntityRef} {a : String} (ha : f.aliasName = some a) :
    (s.entities ++ [EntityRef.ofEntity e])[i]? = some f ↔ s.entities[i]? = some f := by
  rw [List.getElem?_append]
  split
  · exact Iff.rfl
  · rename_i hi
    rw [List.getElem?_eq_none (Nat.le_of_not_lt hi)]
    constructor
    · intro hf
      rw [List.mem_singleton.1 (List.mem_of_getElem? hf)] at ha
      cases ha
    · intro hf
      cases hf

theorem Consistent.bound_step {s : Scope} (h : s.Consistent) (e : Entity) :
    Consistent { s with entities := s.entities ++ [.ofEntity e] } where
  bound i f a hf ha := h.bound i f a ((getElem?_bound ha).1 hf) ha
  distinct i j f g a hf hg ha hb :=
    h.distinct i j f g a ((getElem?_bound ha).1 hf) ((getElem?_bound hb).1 hg) ha hb
  held a t ht := by
    obtain ⟨i, f, hf, ha⟩ := h.held a t ht
    exact ⟨i, f, (getElem?_bound ha).2 hf, ha⟩

/-- An alias that was given is held by the entity it was given to; the others are held as before. -/
theorem held_assign {s : Scope} {h : Handle} {e : EntityRef} {a : String} {m : Aliases} (found : s.entities[h.index]? = some e)
    (others : ∀ (b : String) (t : Entity), b ≠ a → m.get? b = some t →
      ∃ (i : Nat) (f : EntityRef), i ≠ h.index ∧ s.entities[i]? = some f ∧ f.aliasName = some b)
    {b : String} {t : Entity} (ht : m.get? b = some t) :
    ∃ (i : Nat) (f : EntityRef), ({ s with aliases := m }.assign h a).entities[i]? = some f ∧
      f.aliasName = some b := by
  by_cases hb : b = a
  · subst hb
    refine ⟨h.index, { e with aliasName := some b }, ?_, rfl⟩
    rw [getElem?_assign, if_pos rfl]
    exact congrArg (Option.map _) found
  · obtain ⟨i, f, hi, hf, ha⟩ := others b t hb ht
    refine ⟨i, f, ?_, ha⟩
    rw [getElem?_assign, if_neg (Ne.symm hi)]
    exact hf

theorem Consistent.names {h : Handle} {s s' : Scope} {a : String} (consistent : s.Consistent)
    (names : Names h s a s') : s'.Consistent := by
  refine ⟨names.grows.sound consistent.toSound, fun b t ht => ?_⟩
  cases names with
  | old found named same => exact same ▸ consistent.held b t (same ▸ ht)
  | @made e found unnamed free changed =>
    subst changed
    refine held_assign found (fun c u hc hu => ?_) ht
    rw [Dictionary.get?_insert, if_neg (Ne.symm hc)] at hu
    obtain ⟨i, f, hf, hname⟩ := consistent.held c u hu
    refine ⟨i, f, fun hi => ?_, hf, hname⟩
    rw [hi, found] at hf
    cases hf
    exact Option.some_ne_none c (hname.symm.trans unnamed)

theorem Consistent.chooses {h : Handle} {a : String} {s s' : Scope} {released : Option String}
    (consistent : s.Consistent) (chooses : Chooses h a s released s') : s'.Consistent := by
  refine ⟨chooses.sound consistent.toSound, fun b t ht => ?_⟩
  cases chooses with
  | same found named none_ kept => exact kept ▸ consistent.held b t (kept ▸ ht)
  | @changed e found other free old changed =>
    subst changed
    refine held_assign found (fun c u hc hu => ?_) ht
    rw [Dictionary.get?_insert, if_neg (Ne.symm hc)] at hu
    -- What is still bound was bound before, and is not the alias that was released.
    have before : s.aliases.get? c = some u ∧ e.aliasName ≠ some c := by
      cases named : e.aliasName with
      | none =>
        rw [named] at hu
        exact ⟨hu, (Option.some_ne_none c).symm⟩
      | some d =>
        rw [named, Option.elim, Dictionary.get?_erase] at hu
        split at hu
        · cases hu
        · rename_i hne
          exact ⟨hu, fun h => hne (Option.some.inj h)⟩
    obtain ⟨i, f, hf, hname⟩ := consistent.held c u before.1
    refine ⟨i, f, fun hi => ?_, hf, hname⟩
    rw [hi, found] at hf
    cases hf
    exact before.2 hname

theorem Step.consistent {s s' : Scope} {c : Call} (step : Step s c s') (h : s.Consistent) :
    s'.Consistent := by
  cases step with
  | nothing => exact h
  | bound e => exact h.bound_step e
  | named names => exact h.names names
  | chosen chooses => exact h.chooses chooses

theorem Consistent.after {s : Scope} (h : s.Consistent) (calls : List Call) :
    (s.after calls).Consistent := by
  induction calls generalizing s with
  | nil => exact h
  | cons c calls ih => exact ih ((c.step s).consistent h)

/-! ### An alias stays -/

theorem Step.kept {s s' : Scope} {c : Call} (step : Step s c s') {i : Nat} {e : EntityRef} {a : String}
    (found : s.entities[i]? = some e) (named : e.aliasName = some a) (other : ∀ b, c ≠ .setAlias ⟨i⟩ b) :
    s'.entities[i]? = some e := by
  cases step with
  | nothing => exact found
  | bound f => exact (getElem?_bound named).2 found
  | named names => exact names.grows.kept i e a found named
  | @chosen h b released s' chooses =>
    cases chooses with
    | same found' named' none_ kept => exact kept ▸ found
    | changed found' other' free old changed =>
      have hne : h.index ≠ i := fun hi => other b (hi ▸ rfl)
      rw [changed, getElem?_assign, if_neg hne]
      exact found

theorem kept_after {s : Scope} {i : Nat} {e : EntityRef} {a : String} (found : s.entities[i]? = some e)
    (named : e.aliasName = some a) {calls : List Call} (others : ∀ b, .setAlias ⟨i⟩ b ∉ calls) :
    (s.after calls).entities[i]? = some e := by
  induction calls generalizing s with
  | nil => exact found
  | cons c calls ih =>
    have step : (c.run s).2.entities[i]? = some e := (c.step s).kept found named fun b h =>
      others b (h ▸ List.mem_cons_self)
    exact ih step fun b h => others b (List.mem_cons_of_mem _ h)

/-- A chosen alias is the one that was asked for, and the entity stays the same. -/
theorem Step.chosen_alias {s s' : Scope} {i : Nat} {b : String} (step : Step s (.setAlias ⟨i⟩ b) s')
    {e : EntityRef} {a : String} (found : s.entities[i]? = some e) (named : e.aliasName = some a) :
    s'.entities[i]? = some e ∨ s'.entities[i]? = some { e with aliasName := some b } := by
  cases step with
  | nothing => exact .inl found
  | named names => exact .inl (names.grows.kept i e a found named)
  | chosen chooses =>
    cases chooses with
    | same found' named' none_ kept => exact .inl (kept ▸ found)
    | changed found' other free old changed =>
      refine .inr ?_
      rw [changed, getElem?_assign, if_pos rfl]
      exact congrArg (Option.map _) found

/-! ### Statements over a scope -/

/-- No two entities share an alias. -/
theorem Sound.pairwise {s : Scope} (sound : s.Sound) :
    s.entities.Pairwise fun e e' => ∀ a, e.aliasName = some a → e'.aliasName ≠ some a := by
  refine List.pairwise_iff_getElem.2 fun i j hi hj hij a ha hb => ?_
  have same := sound.distinct i j _ _ a (List.getElem?_eq_getElem hi) (List.getElem?_eq_getElem hj) ha hb
  exact absurd same (Nat.ne_of_lt hij)

theorem Sound.nodup {s : Scope} (sound : s.Sound) : (s.entities.filterMap (·.aliasName)).Nodup :=
  List.pairwise_filterMap.2 (sound.pairwise.imp fun {_ _} apart a ha b hb (same : a = b) => apart a ha (same ▸ hb))

theorem aliasOf_ne_duplicate {h : Handle} {s s' : Scope} {a : String} :
    aliasOf h s ≠ (.error (.duplicateAlias a), s') := by
  rw [aliasOf_apply]
  split
  · intro hx
    cases hx
  split
  · intro hx
    cases hx
  split
  · rename_i x exhausted
    intro hx
    cases hx
    cases (Aliases.fresh_eq_error_iff.1 exhausted).1
  · rename_i b fresh
    rw [Aliases.bind_eq_ok_iff.2 ⟨Aliases.not_contains_fresh fresh, rfl⟩]
    intro hx
    cases hx

theorem forM_aliasOf_ne_duplicate {is : List Nat} {s s' : Scope} {a : String} :
    (is.forM fun i => discard (aliasOf ⟨i⟩) : ScopeM PUnit) s ≠ (.error (.duplicateAlias a), s') := by
  induction is generalizing s with
  | nil =>
    intro hx
    cases hx
  | cons i is ih =>
    intro hx
    rcases bind_error hx with hi | ⟨_, t, _, hx⟩
    · exact aliasOf_ne_duplicate (map_error hi)
    · exact ih hx

/-- The aliases with which a scope is finished are all different, and finding them meets no duplicate. -/
theorem Sound.sources {s : Scope} (sound : s.Sound) :
    (∀ a, s.sources ≠ .error (.duplicateAlias a)) ∧
      ∀ sources, s.sources = .ok sources → (sources.all.filterMap (·.aliasName)).Nodup := by
  unfold Scope.sources
  constructor
  · intro a hx
    rcases bind_eq_error.1 hx with hx | ⟨refs, _, hx⟩
    · unfold finish run at hx
      split at hx
      · cases hx
      · rename_i x t hall
        cases hx
        exact forM_aliasOf_ne_duplicate hall
    · split at hx <;> cases hx
  · intro sources hs
    obtain ⟨refs, finished, hs⟩ := bind_eq_ok.1 hs
    obtain ⟨t, rfl, grows, _⟩ := finish_ok finished
    split at hs
    · rename_i primary others heq
      cases hs
      have nodup := (grows.sound sound).nodup
      rw [heq] at nodup
      exact nodup
    · cases hs

/-- A body of finished sources becomes a statement without meeting a duplicate alias. -/
theorem Sound.build_sources {s : Scope} (sound : s.Sound) {body : Sources → Body}
    (binds : ∀ sources, (body sources).entityRefs = sources.all) (a : String) :
    (do Statement.ofBody (body (← s.sources))) ≠ .error (.duplicateAlias a) := by
  intro hx
  rcases bind_eq_error.1 hx with hx | ⟨sources, finished, hx⟩
  · exact sound.sources.1 a hx
  · refine Statement.ofBody_ne_duplicate ?_ a hx
    rw [binds]
    exact sound.sources.2 sources finished

/-- So does a body of a finished target. -/
theorem Sound.build_target {s : Scope} (sound : s.Sound) {body : EntityRef → Body}
    (binds : ∀ target, (body target).entityRefs = [target]) (a : String) :
    (do Statement.ofBody (body (← s.target))) ≠ .error (.duplicateAlias a) := by
  intro hx
  rcases bind_eq_error.1 hx with hx | ⟨target, _, hx⟩
  · unfold target at hx
    rcases bind_eq_error.1 hx with hx | ⟨sources, _, hx⟩
    · exact sound.sources.1 a hx
    · cases hx
  · refine Statement.ofBody_ne_duplicate ?_ a hx
    rw [binds, List.filterMap_cons]
    split <;> simp

/-- After any calls on a new scope, failed ones included, the aliases that are bound are those that the
entities have, each bound to its entity, and no two entities share one. A call that fails leaves the scope
as it is. An entity that has an alias keeps it through all calls that do not choose one for it, and gets no
other than the chosen one. No draft over the scope finds a duplicate alias when it becomes a statement. -/
theorem consistent_after {calls : List Call} {s : Scope} (reached : empty.after calls = s) :
    (∀ (a : String) (t : Entity),
      s.aliases.get? a = some t ↔ ∃ e ∈ s.entities, e.aliasName = some a ∧ e.entity = t) ∧
    (∀ (i j : Nat) (e e' : EntityRef) (a : String), s.entities[i]? = some e → s.entities[j]? = some e' →
      e.aliasName = some a → e'.aliasName = some a → i = j) ∧
    (∀ (c : Call) (x : Error) (s' : Scope), c.run s = (.error x, s') → s' = s) ∧
    (∀ (i : Nat) (e : EntityRef) (a : String), s.entities[i]? = some e → e.aliasName = some a →
      (∀ later : List Call, (∀ b, .setAlias ⟨i⟩ b ∉ later) → (s.after later).entities[i]? = some e) ∧
      ∀ b, ((Call.setAlias ⟨i⟩ b).run s).2.entities[i]? = some e ∨
        ((Call.setAlias ⟨i⟩ b).run s).2.entities[i]? = some { e with aliasName := some b }) ∧
    ∀ a : String,
      (∀ q, Query.build ⟨s, q⟩ ≠ .error (.duplicateAlias a)) ∧
      (∀ i, Insertion.build ⟨s, i⟩ ≠ .error (.duplicateAlias a)) ∧
      (∀ c, Change.build ⟨s, c⟩ ≠ .error (.duplicateAlias a)) ∧
      (∀ r, Removal.build ⟨s, r⟩ ≠ .error (.duplicateAlias a)) ∧
      ∀ i, IndexParts.build ⟨s, i⟩ ≠ .error (.duplicateAlias a) := by
  have consistent : s.Consistent := reached ▸ Consistent.empty.after calls
  have sound := consistent.toSound
  refine ⟨fun a t => consistent.get?_eq_some_iff, sound.distinct, fun c x s' => Call.run_error, ?_, ?_⟩
  · intro i e a found named
    exact ⟨fun later others => kept_after found named others,
      fun b => (Call.step _ s).chosen_alias found named⟩
  · intro a
    refine ⟨fun q => ?_, fun i => ?_, fun c => ?_, fun r => ?_, fun i => ?_⟩
    · exact sound.build_sources (fun _ => rfl) a
    · exact sound.build_target (fun _ => rfl) a
    · exact sound.build_target (fun _ => rfl) a
    · exact sound.build_sources (fun _ => rfl) a
    · exact sound.build_target (fun _ => rfl) a

/-- An alias is released and made up again for another entity; a taken one and a foreign handle are refused. -/
private def contended : List Call :=
  [.bind (.opaqueNamed "p"), .bind (.opaqueNamed "p"), .aliasOf ⟨0⟩, .setAlias ⟨0⟩ "q", .aliasOf ⟨1⟩,
    .setAlias ⟨1⟩ "q", .path ⟨7⟩ "x"]

theorem consistent_after_contended :
    ∃ s, empty.after contended = s ∧ s.entities.map (·.aliasName) = [some "q", some "p"] ∧
      s.aliases.get? "p" = some (.opaqueNamed "p") ∧ ((Call.setAlias ⟨1⟩ "q").run s).2 = s ∧
      (s.after [.setAlias ⟨1⟩ "r", .whole ⟨0⟩]).entities[0]? = some ⟨.opaqueNamed "p", "p", some "q"⟩ ∧
      Removal.build ⟨s, ⟨.empty⟩⟩ ≠ .error (.duplicateAlias "q") := by
  have entities : (empty.after contended).entities =
      [⟨.opaqueNamed "p", "p", some "q"⟩, ⟨.opaqueNamed "p", "p", some "p"⟩] := by decide +kernel
  have refused : (setAlias ⟨1⟩ "q" (empty.after contended)).1 = .error (.duplicateAlias "q") := by
    decide +kernel
  obtain ⟨bound, _, unchanged, stays, builds⟩ := @consistent_after contended _ rfl
  refine ⟨_, rfl, by rw [entities]; rfl, ?_, ?_, ?_, (builds "q").2.2.2.1 _⟩
  · exact (bound "p" _).2 ⟨⟨.opaqueNamed "p", "p", some "p"⟩, by simp [entities], rfl, rfl⟩
  · exact unchanged (.setAlias ⟨1⟩ "q") (.duplicateAlias "q") _ (Prod.ext refused rfl)
  · refine (stays 0 ⟨.opaqueNamed "p", "p", some "q"⟩ "q" (by rw [entities]; rfl) rfl).1 _ fun b => ?_
    simp

end Scope

end Clausal
