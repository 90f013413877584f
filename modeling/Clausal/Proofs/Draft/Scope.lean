import Clausal.Draft.Scope
import Clausal.Proofs.Statement.Aliases

/-!
# What a scope does

The operations on scopes, each by the state that it leaves. Asking for the alias of an entity adds at
most that alias; a failed operation adds nothing. In a sound scope every alias belongs to one entity, and
is bound to it.
-/

namespace Clausal.Scope

variable {α β : Type}

theorem bind_apply (x : ScopeM α) (f : α → ScopeM β) (s : Scope) :
    (x >>= f) s =
      match x s with
      | (.ok a, s') => f a s'
      | (.error e, s') => (.error e, s') := by
  change (ExceptT.bindCont f (x s).1) (x s).2 = _
  cases x s with
  | mk r s' => cases r <;> rfl

theorem pure_apply (a : α) (s : Scope) : (pure a : ScopeM α) s = (.ok a, s) := rfl

theorem map_apply (f : α → β) (x : ScopeM α) (s : Scope) :
    (f <$> x) s =
      match x s with
      | (.ok a, s') => (.ok (f a), s')
      | (.error e, s') => (.error e, s') := bind_apply x (fun a => pure (f a)) s

theorem get_apply (s : Scope) : (get : ScopeM Scope) s = (.ok s, s) := rfl

theorem modify_apply (f : Scope → Scope) (s : Scope) : (modify f : ScopeM PUnit) s = (.ok ⟨⟩, f s) := rfl

theorem lift_apply (x : Except Error α) (s : Scope) : (liftM x : ScopeM α) s = (x, s) := by
  cases x <;> rfl

/-- A computation that gives a value went through its steps. -/
theorem bind_ok {x : ScopeM α} {f : α → ScopeM β} {b : β} {s s' : Scope}
    (h : (x >>= f) s = (.ok b, s')) : ∃ a t, x s = (.ok a, t) ∧ f a t = (.ok b, s') := by
  rw [bind_apply] at h
  split at h
  · exact ⟨_, _, by assumption, h⟩
  · cases h

/-- A computation that fails does so in one of its steps. -/
theorem bind_error {x : ScopeM α} {f : α → ScopeM β} {s s' : Scope} {e : Error}
    (h : (x >>= f) s = (.error e, s')) :
    x s = (.error e, s') ∨ ∃ a t, x s = (.ok a, t) ∧ f a t = (.error e, s') := by
  rw [bind_apply] at h
  split at h
  · exact .inr ⟨_, _, by assumption, h⟩
  · rename_i e' t ht
    cases h
    exact .inl ht

theorem map_error {f : α → β} {x : ScopeM α} {s s' : Scope} {e : Error}
    (h : (f <$> x) s = (.error e, s')) : x s = (.error e, s') := by
  rcases bind_error h with h | ⟨a, t, _, h⟩
  · exact h
  · cases h

theorem entity_apply (h : Handle) (s : Scope) :
    entity h s =
      match s.entities[h.index]? with
      | some e => (.ok e, s)
      | none => (.error (Error.unboundHandle h.index), s) := by
  unfold entity
  rw [bind_apply, get_apply]
  simp only
  cases s.entities[h.index]? <;> rfl

theorem give_apply (h : Handle) (e : EntityRef) (a : String) (s : Scope) :
    give h e a s =
      match s.aliases.bind a e.entity with
      | .ok aliases => (.ok (), { s with aliases }.assign h a)
      | .error x => (.error x, s) := by
  unfold give
  simp only [bind_apply, get_apply, lift_apply]
  cases s.aliases.bind a e.entity <;> rfl

/-- How the alias of an entity was found or made up. -/
inductive Names (h : Handle) (s : Scope) (a : String) (s' : Scope) : Prop
  | old {e : EntityRef} (found : s.entities[h.index]? = some e) (named : e.aliasName = some a)
      (same : s' = s)
  | made {e : EntityRef} (found : s.entities[h.index]? = some e) (unnamed : e.aliasName = none)
      (free : s.aliases.contains a = false)
      (changed : s' = { s with aliases := s.aliases.insert a e.entity }.assign h a)

theorem aliasOf_apply (h : Handle) (s : Scope) :
    aliasOf h s =
      match s.entities[h.index]? with
      | none => (.error (Error.unboundHandle h.index), s)
      | some e =>
        match e.aliasName with
        | some a => (.ok a, s)
        | none =>
          match s.aliases.fresh e.entity.name with
          | .error x => (.error x, s)
          | .ok a =>
            match s.aliases.bind a e.entity with
            | .ok aliases => (.ok a, { s with aliases }.assign h a)
            | .error x => (.error x, s) := by
  unfold aliasOf
  rw [bind_apply, entity_apply]
  cases s.entities[h.index]? with
  | none => rfl
  | some e =>
    simp only
    cases e.aliasName with
    | some a => rfl
    | none =>
      simp only [bind_apply, get_apply, lift_apply]
      cases s.aliases.fresh e.entity.name with
      | error x => rfl
      | ok a =>
        simp only [give_apply]
        cases s.aliases.bind a e.entity <;> rfl

theorem aliasOf_error {h : Handle} {s s' : Scope} {x : Error} (hx : aliasOf h s = (.error x, s')) :
    s' = s := by
  rw [aliasOf_apply] at hx
  repeat' split at hx
  all_goals cases hx
  all_goals rfl

theorem aliasOf_ok {h : Handle} {s s' : Scope} {a : String} (ha : aliasOf h s = (.ok a, s')) :
    Names h s a s' := by
  rw [aliasOf_apply] at ha
  split at ha
  · cases ha
  rename_i e found
  split at ha
  · rename_i b named
    cases ha
    exact .old found named rfl
  rename_i unnamed
  split at ha
  · cases ha
  rename_i b fresh
  split at ha
  · rename_i aliases bound
    cases ha
    obtain ⟨free, rfl⟩ := Aliases.bind_eq_ok_iff.1 bound
    exact .made found unnamed free rfl
  · cases ha

theorem path_apply (h : Handle) (field : String) (s : Scope) :
    path h field s =
      match s.entities[h.index]? with
      | none => (.error (Error.unboundHandle h.index), s)
      | some e =>
        match e.entity.requireField field with
        | .error x => (.error x, s)
        | .ok _ =>
          match aliasOf h s with
          | (.ok a, s') => (.ok (.ofField a field), s')
          | (.error x, s') => (.error x, s') := by
  unfold path
  rw [bind_apply, entity_apply]
  cases s.entities[h.index]? with
  | none => rfl
  | some e =>
    simp only [bind_apply, lift_apply]
    cases e.entity.requireField field with
    | error x => rfl
    | ok u =>
      simp only [pure_apply]
      cases aliasOf h s with
      | mk r s' => cases r <;> rfl

theorem path_error {h : Handle} {field : String} {s s' : Scope} {x : Error}
    (hx : path h field s = (.error x, s')) : s' = s := by
  rw [path_apply] at hx
  split at hx
  · cases hx
    rfl
  split at hx
  · cases hx
    rfl
  split at hx
  · cases hx
  · rename_i y t ht
    cases hx
    exact aliasOf_error ht

theorem path_ok {h : Handle} {field : String} {s s' : Scope} {p : Path}
    (hp : path h field s = (.ok p, s')) : ∃ a, p = .ofField a field ∧ Names h s a s' := by
  rw [path_apply] at hp
  split at hp
  · cases hp
  split at hp
  · cases hp
  split at hp
  · rename_i a t ha
    cases hp
    exact ⟨a, rfl, aliasOf_ok ha⟩
  · cases hp

/-- How an alias was chosen for an entity, and which alias became free. -/
inductive Chooses (h : Handle) (a : String) (s : Scope) (released : Option String) (s' : Scope) : Prop
  | same {e : EntityRef} (found : s.entities[h.index]? = some e) (named : e.aliasName = some a)
      (none_ : released = none) (kept : s' = s)
  | changed {e : EntityRef} (found : s.entities[h.index]? = some e) (other : e.aliasName ≠ some a)
      (free : s.aliases.contains a = false) (old : released = e.aliasName)
      (changed : s' =
        { s with aliases := (e.aliasName.elim s.aliases s.aliases.erase).insert a e.entity }.assign h a)

theorem setAlias_ok {h : Handle} {a : String} {s s' : Scope} {released : Option String}
    (hs : setAlias h a s = (.ok released, s')) : Chooses h a s released s' := by
  unfold setAlias at hs
  obtain ⟨e, t, he, hs⟩ := bind_ok hs
  rw [entity_apply] at he
  split at he
  · rename_i e' found
    cases he
    split at hs
    · rename_i named
      cases hs
      exact .same found named rfl rfl
    rename_i other
    simp only [bind_apply, get_apply] at hs
    split at hs
    · cases hs
    rename_i free
    simp only [bind_apply, modify_apply, give_apply] at hs
    split at hs
    · rename_i r t' hgive
      cases hs
      split at hgive
      · rename_i aliases bound
        cases hgive
        obtain ⟨_, rfl⟩ := Aliases.bind_eq_ok_iff.1 bound
        exact .changed found other (by simpa using free) rfl rfl
      · cases hgive
    · cases hs
  · cases he

/-- Choosing an alias takes one step: nothing can fail between releasing an alias and giving the new one. -/
theorem setAlias_apply (h : Handle) (a : String) (s : Scope) :
    setAlias h a s =
      match s.entities[h.index]? with
      | none => (.error (Error.unboundHandle h.index), s)
      | some e =>
        if e.aliasName = some a then (.ok none, s)
        else if s.aliases.contains a then (.error (.duplicateAlias a), s)
        else (.ok e.aliasName,
          { s with aliases := (e.aliasName.elim s.aliases s.aliases.erase).insert a e.entity }.assign h a) := by
  unfold setAlias
  rw [bind_apply, entity_apply]
  cases s.entities[h.index]? with
  | none => rfl
  | some e =>
    simp only
    split
    · rfl
    simp only [bind_apply, get_apply]
    split
    · rfl
    rename_i free
    have released : (e.aliasName.elim s.aliases s.aliases.erase).contains a = false := by
      cases e.aliasName with
      | none => simpa using free
      | some b =>
        rw [Dictionary.contains_eq_isSome] at free ⊢
        rw [Option.elim, Dictionary.get?_erase]
        split
        · rfl
        · simpa using free
    simp only [bind_apply, modify_apply, give_apply, pure_apply]
    rw [Aliases.bind_eq_ok_iff.2 ⟨released, rfl⟩]

theorem setAlias_error {h : Handle} {a : String} {s s' : Scope} {x : Error}
    (hx : setAlias h a s = (.error x, s')) : s' = s := by
  rw [setAlias_apply] at hx
  repeat' split at hx
  all_goals cases hx
  all_goals rfl

theorem getElem?_assign (s : Scope) (h : Handle) (a : String) (i : Nat) :
    (s.assign h a).entities[i]? =
      if h.index = i then s.entities[i]?.map fun e => { e with aliasName := some a } else s.entities[i]? := by
  unfold assign
  simp only [List.getElem?_modify]
  split
  · rfl
  · exact congrFun Option.map_id _

theorem entities_assign (s : Scope) (h : Handle) (a : String) :
    (s.assign h a).entities.map (·.entity) = s.entities.map (·.entity) := by
  refine List.ext_getElem? fun i => ?_
  rw [List.getElem?_map, List.getElem?_map, getElem?_assign]
  split
  · rw [Option.map_map]
    rfl
  · rfl

/-- Every alias belongs to one entity, and is bound to it. -/
structure Sound (s : Scope) : Prop where
  bound : ∀ (i : Nat) (e : EntityRef) (a : String), s.entities[i]? = some e → e.aliasName = some a → s.aliases.get? a = some e.entity
  distinct : ∀ (i j : Nat) (e e' : EntityRef) (a : String), s.entities[i]? = some e → s.entities[j]? = some e' →
    e.aliasName = some a → e'.aliasName = some a → i = j

theorem Sound.ofEntity (e : Entity) : (Scope.ofEntity e).Sound := by
  have unnamed : ∀ (i : Nat) (r : EntityRef) (a : String),
      (Scope.ofEntity e).entities[i]? = some r → r.aliasName ≠ some a := by
    intro i r a h
    have hr : r = EntityRef.ofEntity e := List.mem_singleton.1 (List.mem_of_getElem? h)
    rw [hr]
    exact Option.some_ne_none a ∘ Eq.symm
  exact ⟨fun i r a h ha => absurd ha (unnamed i r a h),
    fun i j r r' a h _ ha => absurd ha (unnamed i r a h)⟩

/-- An alias that no entity has can be given to an entity, if the aliases of the others stay bound. -/
theorem Sound.assign {s : Scope} (sound : s.Sound) {h : Handle} {e : EntityRef} {a : String}
    {m : Aliases} (found : s.entities[h.index]? = some e) (free : s.aliases.contains a = false)
    (here : m.get? a = some e.entity)
    (others : ∀ (i : Nat) (f : EntityRef) (b : String), i ≠ h.index → s.entities[i]? = some f → f.aliasName = some b →
      m.get? b = s.aliases.get? b) :
    ({ s with aliases := m }.assign h a).Sound := by
  have fresh : ∀ (i : Nat) (f : EntityRef), s.entities[i]? = some f → f.aliasName ≠ some a := by
    intro i f hf ha
    have taken := sound.bound i f a hf ha
    rw [Dictionary.contains_eq_isSome, taken] at free
    cases free
  have entry : ∀ (i : Nat) (f : EntityRef), ({ s with aliases := m }.assign h a).entities[i]? = some f →
      (i = h.index ∧ f = { e with aliasName := some a }) ∨ (i ≠ h.index ∧ s.entities[i]? = some f) := by
    intro i f hf
    rw [getElem?_assign] at hf
    split at hf
    · rename_i hi
      have hf' : s.entities[i]?.map _ = some f := hf
      rw [← hi, found] at hf'
      exact .inl ⟨hi.symm, (Option.some.inj hf').symm⟩
    · rename_i hi
      exact .inr ⟨Ne.symm hi, hf⟩
  constructor
  · intro i f b hf hb
    rcases entry i f hf with ⟨_, rfl⟩ | ⟨hi, hf⟩
    · cases hb
      exact here
    · exact (others i f b hi hf hb).trans (sound.bound i f b hf hb)
  · intro i j f f' b hf hf' hb hb'
    rcases entry i f hf with ⟨hi, rfl⟩ | ⟨_, hf⟩
    · rcases entry j f' hf' with ⟨hj, _⟩ | ⟨_, hf'⟩
      · exact hi.trans hj.symm
      · cases hb
        exact absurd hb' (fresh j f' hf')
    · rcases entry j f' hf' with ⟨_, rfl⟩ | ⟨_, hf'⟩
      · cases hb'
        exact absurd hb (fresh i f hf)
      · exact sound.distinct i j f f' b hf hf' hb hb'

/-- Entities with their handles, which are their places. -/
def numbered (es : List Entity) : List (Handle × Entity) := es.zipIdx.map fun x => (⟨x.2⟩, x.1)

theorem numbered_append_singleton (es : List Entity) (e : Entity) :
    numbered (es ++ [e]) = numbered es ++ [(⟨es.length⟩, e)] := by
  simp [numbered, List.zipIdx_append]

theorem mem_numbered {es : List Entity} {h : Handle} {e : Entity} :
    (h, e) ∈ numbered es ↔ es[h.index]? = some e := by
  obtain ⟨i⟩ := h
  simp [numbered, List.mem_zipIdx_iff_getElem?]

def bindings (s : Scope) : List (Handle × Entity) := numbered (s.entities.map (·.entity))

theorem map_snd_bindings (s : Scope) : s.bindings.map (·.2) = s.entities.map (·.entity) := by
  rw [bindings, numbered, List.map_map]
  exact List.zipIdx_map_fst 0 _

/-- A scope to which entities may have been added, and in which more of the entities may have got aliases. -/
structure Grows (s : Scope) (added : List (Handle × Entity)) (s' : Scope) : Prop where
  bindings : s'.bindings = s.bindings ++ added
  kept : ∀ (i : Nat) (e : EntityRef) (a : String), s.entities[i]? = some e → e.aliasName = some a → s'.entities[i]? = some e
  sound : s.Sound → s'.Sound

theorem Grows.refl (s : Scope) : Grows s [] s := ⟨(List.append_nil _).symm, fun _ _ _ h _ => h, id⟩

theorem Grows.trans {s t u : Scope} {added more : List (Handle × Entity)} (h : Grows s added t)
    (h' : Grows t more u) : Grows s (added ++ more) u where
  bindings := by rw [h'.bindings, h.bindings, List.append_assoc]
  kept i e a he ha := h'.kept i e a (h.kept i e a he ha) ha
  sound := h'.sound ∘ h.sound

theorem Grows.entities {s s' : Scope} {added : List (Handle × Entity)} (h : Grows s added s') :
    s'.entities.map (·.entity) = s.entities.map (·.entity) ++ added.map (·.2) := by
  rw [← map_snd_bindings, h.bindings, List.map_append, map_snd_bindings]

/-- An entity that is added is the last one, and has no alias. -/
theorem grows_bind {e : Entity} {h : Handle} {s s' : Scope} (hs : Scope.bind e s = (.ok h, s')) :
    Grows s [(h, e)] s' := by
  cases hs
  have old : ∀ (i : Nat) (r : EntityRef) (a : String), (s.entities ++ [EntityRef.ofEntity e])[i]? = some r →
      r.aliasName = some a → s.entities[i]? = some r := by
    intro i r a hr ha
    rw [List.getElem?_append] at hr
    split at hr
    · exact hr
    · rw [List.mem_singleton.1 (List.mem_of_getElem? hr)] at ha
      exact absurd ha (Option.some_ne_none a).symm
  refine ⟨?_, fun i r a hr _ => ?_, fun sound => ⟨fun i r a hr ha => ?_, fun i j r r' a hr hr' ha ha' => ?_⟩⟩
  · simp only [Scope.bindings, List.map_append, List.map_singleton, numbered_append_singleton, List.length_map]
    rfl
  · rw [List.getElem?_append_left (List.getElem?_eq_some_iff.1 hr).1]
    exact hr
  · exact sound.bound i r a (old i r a hr ha) ha
  · exact sound.distinct i j r r' a (old i r a hr ha) (old j r' a hr' ha') ha ha'

theorem Names.grows {h : Handle} {s s' : Scope} {a : String} (names : Names h s a s') : Grows s [] s' := by
  cases names with
  | old found named same => exact same ▸ Grows.refl s
  | @made e found unnamed free changed =>
    subst changed
    refine ⟨?_, fun i f b hf hb => ?_, fun sound => ?_⟩
    · rw [Scope.bindings, entities_assign, List.append_nil]
      rfl
    · rw [getElem?_assign, if_neg fun hi => ?_]
      · exact hf
      · rw [hi, hf] at found
        cases found
        exact absurd (unnamed.symm.trans hb) (Option.some_ne_none b).symm
    · refine sound.assign found free (by simp [Dictionary.get?_insert]) fun i f b _ hf hb => ?_
      have taken := sound.bound i f b hf hb
      have hne : a ≠ b := by
        rintro rfl
        rw [Dictionary.contains_eq_isSome, taken] at free
        cases free
      rw [Dictionary.get?_insert, if_neg hne]

/-- The entity has the alias afterwards. -/
theorem Names.named {h : Handle} {s s' : Scope} {a : String} (names : Names h s a s') :
    ∃ e, s'.entities[h.index]? = some e ∧ e.aliasName = some a := by
  cases names with
  | @old e found named same => exact ⟨e, same ▸ found, named⟩
  | @made e found unnamed free changed =>
    refine ⟨{ e with aliasName := some a }, ?_, rfl⟩
    rw [changed, getElem?_assign, if_pos rfl]
    exact congrArg (Option.map _) found

theorem Chooses.sound {h : Handle} {a : String} {s s' : Scope} {released : Option String}
    (chooses : Chooses h a s released s') (sound : s.Sound) : s'.Sound := by
  cases chooses with
  | same found named none_ kept => exact kept ▸ sound
  | @changed e found other free old changed =>
    subst changed
    refine sound.assign found free (by simp [Dictionary.get?_insert]) fun i f b hi hf hb => ?_
    have taken := sound.bound i f b hf hb
    have hne : a ≠ b := by
      rintro rfl
      rw [Dictionary.contains_eq_isSome, taken] at free
      cases free
    rw [Dictionary.get?_insert, if_neg hne]
    cases he : e.aliasName with
    | none => rfl
    | some c =>
      have hcb : c ≠ b := by
        rintro rfl
        exact hi (sound.distinct i h.index f e c hf found hb he)
      rw [Option.elim, Dictionary.get?_erase, if_neg hcb]

theorem Chooses.entities {h : Handle} {a : String} {s s' : Scope} {released : Option String}
    (chooses : Chooses h a s released s') :
    s'.entities.map (·.entity) = s.entities.map (·.entity) := by
  cases chooses with
  | same found named none_ kept => rw [kept]
  | changed found other free old changed =>
    rw [changed]
    exact entities_assign _ h a

theorem forM_aliasOf {is : List Nat} {s s' : Scope}
    (h : (is.forM fun i => discard (aliasOf ⟨i⟩) : ScopeM PUnit) s = (.ok ⟨⟩, s')) :
    Grows s [] s' ∧ ∀ i ∈ is, ∃ e a, s'.entities[i]? = some e ∧ e.aliasName = some a := by
  induction is generalizing s with
  | nil =>
    cases h
    exact ⟨.refl _, fun _ hi => absurd hi List.not_mem_nil⟩
  | cons i is ih =>
    obtain ⟨_, t, hi, h⟩ := bind_ok h
    obtain ⟨a, t', ha, hi⟩ := bind_ok hi
    cases hi
    have names := aliasOf_ok ha
    obtain ⟨grows, named⟩ := ih h
    refine ⟨names.grows.trans grows, fun j hj => ?_⟩
    rcases List.mem_cons.1 hj with rfl | hj
    · obtain ⟨e, he, hname⟩ := names.named
      exact ⟨e, a, grows.kept _ e a he hname, hname⟩
    · exact named j hj

theorem run_ok {x : ScopeM α} {s s' : Scope} {a : α} :
    s.run x = .ok (a, s') ↔ x s = (.ok a, s') := by
  unfold run
  split
  · rename_i b t hx
    rw [hx]
    constructor
    · intro h
      cases h
      rfl
    · intro h
      cases h
      rfl
  · rename_i e t hx
    rw [hx]
    constructor <;> intro h <;> cases h

/-- Finished entities are the entities of the scope, and every one of them has an alias. -/
theorem finish_ok {s : Scope} {refs : List EntityRef} (h : s.finish = .ok refs) :
    ∃ s' : Scope, s'.entities = refs ∧ Grows s [] s' ∧ ∀ e ∈ refs, ∃ a, e.aliasName = some a := by
  unfold finish at h
  obtain ⟨⟨_, s'⟩, hrun, rfl⟩ := map_eq_ok.1 h
  have hall := run_ok.1 hrun
  unfold aliasAll at hall
  rw [bind_apply, get_apply] at hall
  obtain ⟨grows, named⟩ := forM_aliasOf hall
  refine ⟨s', rfl, grows, fun e he => ?_⟩
  obtain ⟨i, hi, rfl⟩ := List.mem_iff_getElem.1 he
  have hlen : s'.entities.length = s.entities.length := by
    simpa using congrArg List.length grows.entities
  obtain ⟨f, a, hf, ha⟩ := named i (List.mem_range.2 (hlen ▸ hi))
  rw [List.getElem?_eq_getElem hi] at hf
  cases hf
  exact ⟨a, ha⟩

end Clausal.Scope
