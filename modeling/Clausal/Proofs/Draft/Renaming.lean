import Clausal.Proofs.Draft.Mirror

/-!
# Renaming never redirects a path

What a run adds to a draft is what is noted of it, with the aliases that the entities have at that moment.
Choosing an alias replaces it in the parts of the draft; since no two entities share an alias, the
replacement meets the paths of that entity and no others, even where the alias was made up anew for another
entity in between.
-/

namespace Clausal

open Scope

theorem evaluate_ok {α β : Type} {d d' : Draft α} {x : ScopeM β} {b : β} :
    d.evaluate x = .ok (b, d') ↔ ∃ s', x d.scope = (.ok b, s') ∧ d' = { d with scope := s' } := by
  unfold Draft.evaluate
  rw [bind_eq_ok]
  constructor
  · rintro ⟨⟨c, s'⟩, hrun, h⟩
    cases h
    exact ⟨s', run_ok.1 hrun, rfl⟩
  · rintro ⟨s', hx, rfl⟩
    exact ⟨(b, s'), run_ok.2 hx, rfl⟩

theorem edit_ok {α β : Type} {d d' : Draft α} {x : ScopeM β} {add : β → α → α} :
    d.edit x add = .ok d' ↔ ∃ b s', x d.scope = (.ok b, s') ∧ d' = ⟨s', add b d.parts⟩ := by
  unfold Draft.edit
  rw [bind_eq_ok]
  constructor
  · rintro ⟨⟨b, d₁⟩, h₁, h⟩
    obtain ⟨s', hx, rfl⟩ := evaluate_ok.1 h₁
    cases h
    exact ⟨b, s', hx, rfl⟩
  · rintro ⟨b, s', hx, rfl⟩
    exact ⟨(b, _), evaluate_ok.2 ⟨s', hx, rfl⟩, rfl⟩

/-- Putting a chosen alias in place of the released one gives the new spelling. -/
theorem rename_spell {h : Handle} {a : String} {s s' : Scope} {released : Option String}
    (chooses : Chooses h a s released s') (sound : s.Sound) {p : Path} (asked : Asked s.entities p) :
    Asked s'.entities p ∧
      p.spell s'.entities =
        released.elim (p.spell s.entities) fun old => (p.spell s.entities).rename old a := by
  obtain ⟨r, e, b, rfl, found, named⟩ := asked
  cases chooses with
  | same found' named' none_ kept =>
    subst none_ kept
    exact ⟨⟨r, e, b, rfl, found, named⟩, rfl⟩
  | @changed e' found' other free old changed =>
    subst changed
    by_cases here : h.index = r.handle.index
    · -- The entity itself: its alias is the released one.
      rw [here, found] at found'
      cases found'
      have now := getElem?_assign
        { s with aliases := (e.aliasName.elim s.aliases s.aliases.erase).insert a e.entity } h a r.handle.index
      rw [if_pos here] at now
      have now' := now.trans (congrArg (Option.map _) found)
      refine ⟨⟨r, _, a, rfl, now', rfl⟩, ?_⟩
      rw [spell_symbol now', spell_symbol found, old, named]
      simp only [Option.elim, Path.rename, if_true]
    · -- Another entity: it has another alias, which stays.
      have now := getElem?_assign
        { s with aliases := (e'.aliasName.elim s.aliases s.aliases.erase).insert a e'.entity } h a
          r.handle.index
      rw [if_neg here] at now
      have now' := now.trans found
      refine ⟨⟨r, e, b, rfl, now', named⟩, ?_⟩
      rw [spell_symbol now', spell_symbol found, named]
      cases released with
      | none => rfl
      | some o =>
        have apart : b ≠ o := by
          rintro rfl
          exact here (sound.distinct _ _ _ _ b found' found old.symm named)
        simp only [Option.elim, Path.rename, Option.some.injEq, if_neg apart]

section

variable {α β : Type} [RenamesPaths α] [HasPaths β] {es added : List (Handle × Entity)}

/-- A draft and what is noted of it after the same steps, which have added the entities `es`. -/
structure Agree (es : List (Handle × Entity)) (d s : Draft α) : Prop where
  scope : s.scope = d.scope
  sound : d.scope.Sound
  bindings : d.scope.bindings = es
  parts : d.parts = mapPaths (Path.spell d.scope.entities) s.parts
  asked : ∀ p ∈ paths s.parts, Asked d.scope.entities p

theorem Agree.start {e : Entity} {parts : α} (fixed : ∀ f, mapPaths f parts = parts)
    (unused : paths parts = []) : Agree [(.primary, e)] ⟨.ofEntity e, parts⟩ ⟨.ofEntity e, parts⟩ where
  scope := rfl
  sound := .ofEntity e
  bindings := rfl
  parts := (fixed _).symm
  asked p hp := by
    rw [unused] at hp
    exact absurd hp List.not_mem_nil

/-- What was spelled stays spelled when entities are added and more of them get aliases. -/
theorem Agree.grows {d s : Draft α} (h : Agree es d s) {t : Scope} (grows : Grows d.scope added t) :
    Agree (es ++ added) { d with scope := t } { s with scope := t } where
  scope := rfl
  sound := grows.sound h.sound
  bindings := by rw [grows.bindings, h.bindings]
  parts := by
    rw [h.parts]
    exact mapPaths_congr _ fun p hp => ((h.asked p hp).grows grows).2.symm
  asked p hp := ((h.asked p hp).grows grows).1

theorem Agree.evaluate {d d' s : Draft α} {x y : ScopeM β} {b : β} (h : Agree es d s)
    (mirrors : MirrorsAt d.scope added x y) (hd : d.evaluate x = .ok (b, d')) :
    ∃ b' s', s.evaluate y = .ok (b', s') ∧ Agree (es ++ added) d' s' ∧
      b = mapPaths (Path.spell d'.scope.entities) b' ∧ ∀ p ∈ paths b', Asked d'.scope.entities p := by
  obtain ⟨t, hx, rfl⟩ := evaluate_ok.1 hd
  obtain ⟨b', hy, grows, hb, asked⟩ := mirrors _ _ h.sound hx
  exact ⟨b', _, evaluate_ok.2 ⟨t, h.scope ▸ hy, rfl⟩, h.grows grows, hb, asked⟩

/-- Drafts still agree when mirrored things are added to them, in a way that only adds their paths. -/
theorem Agree.edit {d d' s : Draft α} {x y : ScopeM β} {add : β → α → α} (h : Agree es d s)
    (mirrors : MirrorsAt d.scope added x y)
    (natural : ∀ f b a, add (mapPaths f b) (mapPaths f a) = mapPaths f (add b a))
    (covers : ∀ b a p, p ∈ paths (add b a) → p ∈ paths b ∨ p ∈ paths a)
    (hd : d.edit x add = .ok d') : ∃ s', s.edit y add = .ok s' ∧ Agree (es ++ added) d' s' := by
  obtain ⟨b, t, hx, rfl⟩ := edit_ok.1 hd
  obtain ⟨b', hy, grows, rfl, asked⟩ := mirrors _ _ h.sound hx
  have grown := h.grows grows
  refine ⟨⟨t, add b' s.parts⟩, edit_ok.2 ⟨b', t, h.scope ▸ hy, rfl⟩, rfl, grown.sound, grown.bindings, ?_, ?_⟩
  · have parts : d.parts = mapPaths (Path.spell t.entities) s.parts := grown.parts
    rw [parts]
    exact natural _ b' s.parts
  · intro p hp
    rcases covers b' s.parts p hp with hp | hp
    · exact asked p hp
    · exact grown.asked p hp

/-- What changes no path can change in both drafts. -/
theorem Agree.adjust {d s : Draft α} (h : Agree es d s) (g : α → α)
    (natural : ∀ f a, g (mapPaths f a) = mapPaths f (g a)) (covers : ∀ a, paths (g a) = paths a) :
    Agree es { d with parts := g d.parts } { s with parts := g s.parts } where
  scope := h.scope
  sound := h.sound
  bindings := h.bindings
  parts := by
    rw [h.parts]
    exact natural _ _
  asked p hp := h.asked p (covers s.parts ▸ hp)

theorem Agree.bind {d d' s : Draft α} (h : Agree es d s) (e : Entity) (hd : d.bind e = .ok d') :
    ∃ s', s.bind e = .ok s' ∧ Agree (es ++ d.scope.binding e) d' s' := by
  obtain ⟨handle, t, hx, rfl⟩ := edit_ok.1 hd
  have hbinding : d.scope.binding e = [(handle, e)] := by rw [Scope.binding, hx]
  rw [hbinding]
  exact ⟨_, edit_ok.2 ⟨handle, t, h.scope ▸ hx, rfl⟩, h.grows (grows_bind hx)⟩

/-- Choosing an alias renames the spelled paths into their new spelling. -/
theorem Agree.setAlias {d d' s : Draft α} {h : Handle} {a : String} (agree : Agree es d s)
    (hd : d.setAlias h a = .ok d') :
    ∃ s', s.edit (Scope.setAlias h a) (fun _ x => x) = .ok s' ∧ Agree es d' s' := by
  obtain ⟨released, t, hx, rfl⟩ := edit_ok.1 hd
  have chooses := setAlias_ok hx
  have spelled : ∀ p ∈ paths s.parts, _ := fun p hp =>
    rename_spell chooses agree.sound (agree.asked p hp)
  refine ⟨⟨t, s.parts⟩, edit_ok.2 ⟨released, t, agree.scope ▸ hx, rfl⟩, rfl, chooses.sound agree.sound,
    ?_, ?_, fun p hp => (spelled p hp).1⟩
  · rw [Scope.bindings, chooses.entities]
    exact agree.bindings
  cases released with
  | none => exact agree.parts.trans (mapPaths_congr _ fun p hp => (spelled p hp).2.symm)
  | some old =>
    simp only
    rw [RenamesPaths.rename_eq, agree.parts, mapPaths_mapPaths]
    exact mapPaths_congr _ fun p hp => (spelled p hp).2.symm

/-- Drafts that agree before a run agree after it, if every step keeps them so. -/
theorem Agree.run {σ : Type} {perform note : Draft α → σ → Except Error (Draft α)}
    {bindings : σ → Scope → List (Handle × Entity)}
    (step : ∀ es d s d' t, Agree es d s → perform d t = .ok d' →
      ∃ s', note s t = .ok s' ∧ Agree (es ++ bindings t d.scope) d' s')
    {steps : List σ} {d s d' : Draft α} (h : Agree es d s)
    (hd : steps.foldlM perform d = .ok d') :
    ∃ s', steps.foldlM note s = .ok s' ∧ Agree (es ++ d.bindings perform bindings steps) d' s' := by
  induction steps generalizing es d s with
  | nil =>
    cases hd
    exact ⟨s, rfl, by rwa [Draft.bindings, List.append_nil]⟩
  | cons t steps ih =>
    rw [List.foldlM_cons] at hd
    obtain ⟨d₁, h₁, hd⟩ := bind_eq_ok.1 hd
    obtain ⟨s₁, hs₁, agree⟩ := step es d s d₁ t h h₁
    obtain ⟨s', hs', agree'⟩ := ih agree hd
    refine ⟨s', ?_, ?_⟩
    · rw [List.foldlM_cons, hs₁, ok_bind, hs']
    · rw [Draft.bindings, h₁]
      rwa [List.append_assoc] at agree'

/-- No two entities have the same alias. -/
def AliasesApart (refs : List EntityRef) : Prop :=
  ∀ (i j : Nat) (e e' : EntityRef) (a : String), refs[i]? = some e → refs[j]? = some e' →
    e.aliasName = some a → e'.aliasName = some a → i = j

/-- A draft that has been finished, and what was noted of it. -/
structure Finished (es : List (Handle × Entity)) (refs : List EntityRef) (parts symbols : α) : Prop where
  entities : numbered (refs.map (·.entity)) = es
  parts : parts = mapPaths (Path.spell refs) symbols
  asked : ∀ p ∈ paths symbols, Asked refs p
  apart : AliasesApart refs

theorem Agree.finish {d s : Draft α} (h : Agree es d s) {refs : List EntityRef}
    (finished : d.scope.finish = .ok refs) : Finished es refs d.parts s.parts := by
  obtain ⟨t, rfl, grows, _⟩ := finish_ok finished
  have grown := h.grows grows
  exact ⟨grown.bindings.trans (List.append_nil es), grown.parts, grown.asked, grown.sound.distinct⟩

end

theorem sources_ok {s : Scope} {sources : Sources} (h : s.sources = .ok sources) : s.finish = .ok sources.all := by
  obtain ⟨refs, finished, h⟩ := bind_eq_ok.1 h
  split at h
  · cases h
    exact finished
  · cases h

theorem target_ok {s : Scope} {target : EntityRef} (h : s.target = .ok target) :
    ∃ others, s.finish = .ok (target :: others) := by
  obtain ⟨sources, hsources, h⟩ := bind_eq_ok.1 h
  cases h
  exact ⟨sources.others, sources_ok hsources⟩

/-! ### Steps -/

theorem edit_map {α β γ : Type} (d : Draft α) (x : ScopeM β) (g : β → γ) (add : γ → α → α) :
    d.edit (g <$> x) add = d.edit x fun b => add (g b) := by
  simp only [Draft.edit, Draft.evaluate, Scope.run, map_apply]
  cases x d.scope with
  | mk r s => cases r <;> rfl

theorem Query.perform_agrees (es : List (Handle × Entity)) (d s d' : Draft Query) (t : Step) (h : Agree es d s)
    (hd : perform d t = .ok d') :
    ∃ s', note s t = .ok s' ∧ Agree (es ++ t.bindings d.scope) d' s' := by
  cases t with
  | bind e => exact h.bind e hd
  | setAlias handle a =>
    rw [Step.bindings, List.append_nil]
    exact h.setAlias hd
  | values c =>
    rw [perform, values, select, edit_map] at hd
    refine h.edit (c.mirrors_run _) ?_ ?_ hd
    · intro f es q
      rfl
    · intro es q p hp
      simp only [paths, List.mem_append] at hp ⊢
      tauto
  | construct name c =>
    rw [perform, construct, select, edit_map] at hd
    refine h.edit (c.mirrors_run _) ?_ ?_ hd
    · intro f es q
      rfl
    · intro es q p hp
      simp only [paths, List.mem_append] at hp ⊢
      tauto
  | restrict c =>
    rw [perform, restrict] at hd
    refine h.edit (c.mirrors_run _) ?_ ?_ hd
    · intro f e q
      simp only [mapPaths, Filter.and_mapPaths]
    · intro e q p hp
      have split := @Filter.paths_and q.filter e p
      simp only [paths, List.mem_append] at hp split ⊢
      tauto
  | group c =>
    rw [perform, group] at hd
    refine h.edit (c.mirrors_run _) ?_ ?_ hd
    · intro f ps q
      simp only [mapPaths, List.map_append]
    · intro ps q p hp
      simp only [paths, List.mem_append, List.flatMap_append] at hp ⊢
      tauto
  | restrictGroups c =>
    rw [perform, restrictGroups] at hd
    refine h.edit (c.mirrors_run _) ?_ ?_ hd
    · intro f e q
      simp only [mapPaths, Filter.and_mapPaths]
    · intro e q p hp
      have split := @Filter.paths_and q.having e p
      simp only [paths, List.mem_append] at hp split ⊢
      tauto
  | order c =>
    rw [perform, order] at hd
    refine h.edit (c.mirrors_run _) ?_ ?_ hd
    · intro f ts q
      simp only [mapPaths, List.map_append]
    · intro ts q p hp
      simp only [paths, List.mem_append, List.flatMap_append] at hp ⊢
      tauto
  | distinct =>
    rw [Step.bindings, List.append_nil]
    cases hd
    exact ⟨_, rfl, h.adjust (fun q => { q with projection := { q.projection with distinct := true } })
      (fun _ _ => rfl) fun _ => rfl⟩
  | limit n =>
    rw [Step.bindings, List.append_nil]
    cases hd
    exact ⟨_, rfl, h.adjust (fun q => { q with limit := some n }) (fun _ _ => rfl) fun _ => rfl⟩
  | offset n =>
    rw [Step.bindings, List.append_nil]
    cases hd
    exact ⟨_, rfl, h.adjust (fun q => { q with offset := some n }) (fun _ _ => rfl) fun _ => rfl⟩

theorem Insertion.value_agrees {es : List (Handle × Entity)} {d s d' : Draft Insertion} (h : Agree es d s)
    {field : String} {v v' : Expr} (spelled : v = mapPaths (Path.spell d.scope.entities) v')
    (asked : ∀ p ∈ paths v', Asked d.scope.entities p) (hd : Insertion.value d field v = .ok d') :
    ∃ s', noteValue s field v' = .ok s' ∧ Agree es d' s' ∧ Grows d.scope [] d'.scope := by
  have grows : Grows d.scope [] d'.scope := by
    obtain ⟨p, t, hp, rfl⟩ := edit_ok.1 hd
    obtain ⟨a, _, names⟩ := path_ok hp
    exact names.grows
  let add : Assignment → Insertion → Insertion := fun a i => { i with values := i.values ++ [a] }
  have mirrors := (Reference.mirrors ⟨.primary, some field⟩).assign spelled asked
  have hd' : d.edit ((fun p => Assignment.mk p v) <$> Reference.ask ⟨.primary, some field⟩) add =
      .ok d' := by
    rw [edit_map]
    exact hd
  have natural : ∀ f a i, add (mapPaths f a) (mapPaths f i) = mapPaths f (add a i) := by
    intro f a i
    simp [add, mapPaths]
  have covers : ∀ a i p, p ∈ paths (add a i) → p ∈ paths a ∨ p ∈ paths i := by
    intro a i p hp
    simp only [add, paths, List.flatMap_append, List.mem_append, List.flatMap_singleton] at hp ⊢
    tauto
  obtain ⟨s', hs', agree⟩ := h.edit mirrors natural covers hd'
  rw [edit_map] at hs'
  rw [List.append_nil] at agree
  exact ⟨s', hs', agree, grows⟩

theorem Insertion.valuesOf_agrees {es : List (Handle × Entity)} {fields : List String} {vs vs' : List Expr}
    {d s d' : Draft Insertion} (h : Agree es d s)
    (spelled : vs = mapPaths (Path.spell d.scope.entities) vs')
    (asked : ∀ p ∈ paths vs', Asked d.scope.entities p)
    (hd : Insertion.valuesOf d (fields.zip vs) = .ok d') :
    ∃ s', (fields.zip vs').foldlM (fun d v => noteValue d v.1 v.2) s = .ok s' ∧ Agree es d' s' := by
  induction fields generalizing d s vs vs' with
  | nil =>
    cases hd
    exact ⟨s, rfl, h⟩
  | cons field fields ih =>
    cases vs' with
    | nil =>
      subst spelled
      cases hd
      exact ⟨s, rfl, h⟩
    | cons v' vs' =>
      subst spelled
      obtain ⟨d₁, h₁, hd⟩ := bind_eq_ok.1 hd
      have head : ∀ p ∈ paths v', Asked d.scope.entities p := fun p hp =>
        asked p (List.mem_append_left _ hp)
      have tail : ∀ p ∈ paths vs', Asked d.scope.entities p := fun p hp =>
        asked p (List.mem_append_right _ hp)
      obtain ⟨s₁, hs₁, agree, grows⟩ := Insertion.value_agrees h rfl head h₁
      have later : ∀ p ∈ paths vs', _ := fun p hp => (tail p hp).grows grows
      have spelled := mapPaths_congr vs' fun p hp => (later p hp).2.symm
      obtain ⟨s', hs', agree'⟩ := ih agree spelled (fun p hp => (later p hp).1) hd
      exact ⟨s', bind_eq_ok.2 ⟨s₁, hs₁, hs'⟩, agree'⟩

theorem Insertion.perform_agrees (es : List (Handle × Entity)) (d s d' : Draft Insertion) (t : Step)
    (h : Agree es d s) (hd : perform d t = .ok d') :
    ∃ s', note s t = .ok s' ∧ Agree (es ++ t.bindings d.scope) d' s' := by
  cases t with
  | bind e => exact h.bind e hd
  | setAlias handle a =>
    rw [Step.bindings, List.append_nil]
    exact h.setAlias hd
  | value field c =>
    obtain ⟨⟨v, d₁⟩, h₁, hd⟩ := bind_eq_ok.1 hd
    obtain ⟨v', s₁, hs₁, agree, spelled, asked⟩ := h.evaluate (c.mirrors_run _) h₁
    obtain ⟨s', hs', agree', _⟩ := Insertion.value_agrees agree spelled asked hd
    exact ⟨s', bind_eq_ok.2 ⟨(v', s₁), hs₁, hs'⟩, agree'⟩
  | valuesOf fields c =>
    obtain ⟨⟨vs, d₁⟩, h₁, hd⟩ := bind_eq_ok.1 hd
    obtain ⟨vs', s₁, hs₁, agree, spelled, asked⟩ := h.evaluate (c.mirrors_run _) h₁
    obtain ⟨s', hs', agree'⟩ := Insertion.valuesOf_agrees agree spelled asked hd
    exact ⟨s', bind_eq_ok.2 ⟨(vs', s₁), hs₁, hs'⟩, agree'⟩

theorem Change.perform_agrees (es : List (Handle × Entity)) (d s d' : Draft Change) (t : Step) (h : Agree es d s)
    (hd : perform d t = .ok d') :
    ∃ s', note s t = .ok s' ∧ Agree (es ++ t.bindings d.scope) d' s' := by
  cases t with
  | bind e => exact h.bind e hd
  | setAlias handle a =>
    rw [Step.bindings, List.append_nil]
    exact h.setAlias hd
  | set field c =>
    rw [perform, set] at hd
    have mirrors := (Reference.mirrors ⟨.primary, some field⟩).pair c.mirrors_run
    refine h.edit (mirrors _) ?_ ?_ hd
    · intro f a x
      simp [mapPaths]
    · intro a x p hp
      simp only [paths, List.mem_append, List.flatMap_append, List.flatMap_singleton] at hp ⊢
      tauto
  | restrict c =>
    rw [perform, restrict] at hd
    refine h.edit (c.mirrors_run _) ?_ ?_ hd
    · intro f e x
      simp only [mapPaths, Filter.and_mapPaths]
    · intro e x p hp
      have split := @Filter.paths_and x.filter e p
      simp only [paths, List.mem_append] at hp split ⊢
      tauto

theorem Removal.perform_agrees (es : List (Handle × Entity)) (d s d' : Draft Removal) (t : Step)
    (h : Agree es d s) (hd : perform d t = .ok d') :
    ∃ s', note s t = .ok s' ∧ Agree (es ++ t.bindings d.scope) d' s' := by
  cases t with
  | bind e => exact h.bind e hd
  | setAlias handle a =>
    rw [Step.bindings, List.append_nil]
    exact h.setAlias hd
  | restrict c =>
    rw [perform, restrict] at hd
    refine h.edit (c.mirrors_run _) ?_ ?_ hd
    · intro f e r
      simp only [mapPaths, Filter.and_mapPaths]
    · intro e r p hp
      exact (Filter.paths_and hp).symm

namespace Run

/-- A statement with the first entities of a finished draft binds their aliases, and those of the others it does not. -/
theorem get?_alias_eq {st : Statement} {refs : List EntityRef} (held : st.body.entityRefs <+: refs)
    (apart : AliasesApart refs) {i : Nat} {e : EntityRef} {a : String} (found : refs[i]? = some e) (named : e.aliasName = some a) :
    st.aliases.get? a = if i < st.body.entityRefs.length then some e.entity else none := by
  obtain ⟨others, rfl⟩ := held
  split
  · rename_i inside
    rw [List.getElem?_append_left inside] at found
    exact Statement.get?_alias (List.mem_of_getElem? found) named
  · rename_i outside
    cases bound : st.aliases.get? a with
    | none => rfl
    | some e' =>
      -- The alias would be that of one of the first entities, too.
      have contains : st.aliases.contains a = true := by rw [Dictionary.contains_eq_isSome, bound, Option.isSome_some]
      have again := ((Body.contains_bindAll st.bindAll_entityRefs a).1 contains).resolve_left Bool.false_ne_true
      obtain ⟨f, hf, hname⟩ := List.mem_map.1 again
      obtain ⟨j, hj⟩ := List.mem_iff_getElem?.1 hf
      have inside := (List.getElem?_eq_some_iff.1 hj).1
      have same := apart i j e f a found ((List.getElem?_append_left inside).trans hj) named hname
      exact absurd (same ▸ inside) outside

/-- A body of spelled parts is the body of the recorded parts, spelled. -/
theorem recorded {α : Type} [RenamesPaths α] {es : List (Handle × Entity)} {refs held : List EntityRef}
    {spelled symbols : α} (finished : Finished es refs spelled symbols) (first : held <+: refs) (body : α → Body)
    (natural : ∀ f q, body (mapPaths f q) = mapPaths f (body q)) (covers : ∀ q, paths (body q) = paths q)
    (binds : ∀ q, (body q).entityRefs = held) {st : Statement} (built : Statement.ofBody (body spelled) = .ok st) :
    st.body = mapPaths (Path.spell refs) (body symbols) ∧ numbered (refs.map (·.entity)) = es ∧
      st.body.entityRefs = held ∧
      ∀ p ∈ paths (body symbols), ∃ (r : Reference) (e : Entity) (a : String), p = r.symbol ∧ (r.handle, e) ∈ es ∧
        p.spell refs = ⟨some a, r.field.toList⟩ ∧
        st.aliases.get? a = if r.handle.index < st.body.entityRefs.length then some e else none := by
  have hbody := Statement.body_ofBody built
  have hrefs : st.body.entityRefs = held := by rw [hbody, binds]
  refine ⟨by rw [hbody, finished.parts, natural], finished.entities, hrefs, fun p hp => ?_⟩
  rw [covers] at hp
  obtain ⟨r, ref, a, rfl, found, named⟩ := finished.asked p hp
  refine ⟨r, ref.entity, a, rfl, ?_, ?_, get?_alias_eq (hrefs ▸ first) finished.apart found named⟩
  · rw [← finished.entities, mem_numbered, List.getElem?_map, found]
    rfl
  · rw [spell_symbol found, named]

/-- The statement that a run builds is what the run recorded, with every handle replaced by the alias that
its entity has in the end. Every path is qualified by an alias of the entity that it was requested for, and
the statement binds this alias to the entity if it has the entity at all. -/
theorem build_eq_record {run : Run} {st : Statement} (built : run.build = .ok st) :
    ∃ recorded refs, run.record = .ok (recorded, refs) ∧
      st.body = mapPaths (Path.spell refs) recorded ∧ numbered (refs.map (·.entity)) = run.bindings ∧
      st.body.entityRefs = run.held refs ∧
      ∀ p ∈ paths recorded, ∃ (r : Reference) (e : Entity) (a : String), p = r.symbol ∧
        (r.handle, e) ∈ run.bindings ∧ p.spell refs = ⟨some a, r.field.toList⟩ ∧
        st.aliases.get? a = if r.handle.index < st.body.entityRefs.length then some e else none := by
  cases run with
  | query e steps =>
    obtain ⟨d, hd, built⟩ := bind_eq_ok.1 built
    obtain ⟨sources, hsources, built⟩ := bind_eq_ok.1 built
    have start : Agree [(.primary, e)] (Query.draft e) (Query.draft e) := .start (fun _ => rfl) rfl
    obtain ⟨s, hs, agree⟩ := start.run Query.perform_agrees hd
    have hfinish := sources_ok hsources
    have hrecord : (query e steps).record = .ok (s.parts.body sources, sources.all) := by
      rw [record, hs, ok_bind, agree.scope, hsources, hfinish]
      rfl
    exact ⟨_, _, hrecord, recorded (agree.finish hfinish) (List.prefix_refl _) (fun q => q.body sources)
      (fun _ _ => rfl) (fun _ => rfl) (fun _ => rfl) built⟩
  | insertion mode e steps =>
    obtain ⟨d, hd, built⟩ := bind_eq_ok.1 built
    obtain ⟨target, htarget, built⟩ := bind_eq_ok.1 built
    have start : Agree [(.primary, e)] (Insertion.draft mode e) (Insertion.draft mode e) := .start (fun _ => rfl) rfl
    obtain ⟨s, hs, agree⟩ := start.run Insertion.perform_agrees hd
    obtain ⟨others, hfinish⟩ := target_ok htarget
    have hrecord : (insertion mode e steps).record =
        .ok (.insert ⟨s.parts.mode, target, s.parts.values⟩, target :: others) := by
      rw [record, hs, ok_bind, agree.scope, htarget, hfinish]
      rfl
    exact ⟨_, _, hrecord, recorded (agree.finish hfinish) (List.prefix_append [target] others)
      (fun i => .insert ⟨i.mode, target, i.values⟩) (fun _ _ => rfl) (fun _ => rfl) (fun _ => rfl) built⟩
  | change e steps =>
    obtain ⟨d, hd, built⟩ := bind_eq_ok.1 built
    obtain ⟨target, htarget, built⟩ := bind_eq_ok.1 built
    have start : Agree [(.primary, e)] (Change.draft e) (Change.draft e) := .start (fun _ => rfl) rfl
    obtain ⟨s, hs, agree⟩ := start.run Change.perform_agrees hd
    obtain ⟨others, hfinish⟩ := target_ok htarget
    have hrecord : (change e steps).record =
        .ok (.update ⟨target, s.parts.assignments, s.parts.filter⟩, target :: others) := by
      rw [record, hs, ok_bind, agree.scope, htarget, hfinish]
      rfl
    exact ⟨_, _, hrecord, recorded (agree.finish hfinish) (List.prefix_append [target] others)
      (fun c => .update ⟨target, c.assignments, c.filter⟩) (fun _ _ => rfl) (fun _ => rfl) (fun _ => rfl) built⟩
  | removal e steps =>
    obtain ⟨d, hd, built⟩ := bind_eq_ok.1 built
    obtain ⟨sources, hsources, built⟩ := bind_eq_ok.1 built
    have start : Agree [(.primary, e)] (Removal.draft e) (Removal.draft e) := .start (fun _ => rfl) rfl
    obtain ⟨s, hs, agree⟩ := start.run Removal.perform_agrees hd
    have hfinish := sources_ok hsources
    have hrecord : (removal e steps).record = .ok (.delete ⟨sources, s.parts.filter⟩, sources.all) := by
      rw [record, hs, ok_bind, agree.scope, hsources, hfinish]
      rfl
    exact ⟨_, _, hrecord, recorded (agree.finish hfinish) (List.prefix_refl _) (fun r => .delete ⟨sources, r.filter⟩)
      (fun _ _ => rfl) (fun _ => rfl) (fun _ => rfl) built⟩

/-- A closure that asks for one field. -/
private def fieldOf (h : Handle) (name : String) : Closure Expr [] :=
  .ask ⟨h, some name⟩ (.result (.field (Reference.symbol ⟨h, some name⟩))
    (fun _ hp => ⟨_, List.mem_cons_self, List.mem_singleton.1 hp⟩)) .fail

/-- An alias is made up, released, and made up again for another entity. -/
private def reusing : Run :=
  .query (.opaqueNamed "p")
    [.restrict (fieldOf .primary "x"), .setAlias .primary "q", .bind (.opaqueNamed "p"),
      .restrict (fieldOf ⟨1⟩ "y")]

theorem build_eq_record_reusing :
    ∃ st recorded refs, reusing.build = .ok st ∧ paths st.body = [.ofField "q" "x", .ofField "p" "y"] ∧
      st.body = mapPaths (Path.spell refs) recorded ∧ st.body.entityRefs = refs := by
  have succeeds : reusing.build.map (fun st => paths st.body) =
      .ok [.ofField "q" "x", .ofField "p" "y"] := by decide +kernel
  obtain ⟨st, built, read⟩ := map_eq_ok.1 succeeds
  obtain ⟨recorded, refs, _, same, _, held, _⟩ := build_eq_record built
  exact ⟨st, recorded, refs, built, read, same, held⟩

/-- An entity that a change does not have is added to its scope, and a field of it is assigned. -/
private def straying : Run :=
  .change (.opaqueNamed "person") [.bind (.opaqueNamed "address"), .set "age" (fieldOf ⟨1⟩ "zip")]

/-- The field is qualified by an alias that the statement does not bind. -/
theorem build_straying :
    ∃ st, straying.build = .ok st ∧ paths st.body = [.ofField "p" "age", .ofField "a" "zip"] ∧
      st.aliases.get? "a" = none := by
  have succeeds : straying.build.map (fun st => (paths st.body, st.aliases.get? "a")) =
      .ok ([.ofField "p" "age", .ofField "a" "zip"], none) := by decide +kernel
  obtain ⟨st, built, read⟩ := map_eq_ok.1 succeeds
  obtain ⟨hpaths, halias⟩ := Prod.mk.inj read
  exact ⟨st, built, hpaths, halias⟩

end Run

end Clausal
