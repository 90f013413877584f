import Clausal.Proofs.Draft.Recording
import Clausal.Proofs.Draft.Scope
import Std.Data.String.ToNat

/-!
# Closures and their symbols

A closure goes through the same scopes whether it gives paths or their symbols, and the paths are the symbols
with the aliases that the entities have afterwards. Asking for paths only adds aliases, and binding only adds
entities, so what was spelled before is still spelled in that way.
-/

namespace Clausal

open Scope

/-- The symbol of a reference to an entity that has an alias. -/
def Asked (refs : List EntityRef) (p : Path) : Prop :=
  ∃ (r : Reference) (e : EntityRef) (a : String),
    p = r.symbol ∧ refs[r.handle.index]? = some e ∧ e.aliasName = some a

theorem spell_symbol {refs : List EntityRef} {r : Reference} {e : EntityRef}
    (found : refs[r.handle.index]? = some e) :
    r.symbol.spell refs = ⟨e.aliasName, r.field.toList⟩ := by
  have decoded : (toString r.handle.index).toNat? = some r.handle.index := Nat.toNat?_repr _
  simp only [Path.spell, Reference.symbol, Option.bind_some, decoded, found]

theorem Asked.grows {s s' : Scope} {added : List (Handle × Entity)} (grows : Grows s added s') {p : Path}
    (h : Asked s.entities p) :
    Asked s'.entities p ∧ p.spell s'.entities = p.spell s.entities := by
  obtain ⟨r, e, a, rfl, found, named⟩ := h
  have found' := grows.kept _ e a found named
  exact ⟨⟨r, e, a, rfl, found', named⟩, by rw [spell_symbol found, spell_symbol found']⟩

/-- The references that were granted are spelled by `given`. -/
def Granted (refs : List EntityRef) (granted : List Reference) (given : Path → Path) : Prop :=
  ∀ r ∈ granted, Asked refs r.symbol ∧ given r.symbol = r.symbol.spell refs

theorem Granted.grows {s s' : Scope} {added : List (Handle × Entity)} (grows : Grows s added s')
    {granted : List Reference} {given : Path → Path} (known : Granted s.entities granted given) :
    Granted s'.entities granted given := by
  intro r hr
  obtain ⟨before, spelled⟩ := known r hr
  obtain ⟨after, kept⟩ := before.grows grows
  exact ⟨after, spelled.trans kept.symm⟩

/-- A granted reference has the path that its symbol stands for. -/
theorem ask_ok {r : Reference} {s s' : Scope} {p : Path} (h : r.ask s = (.ok p, s')) :
    Grows s [] s' ∧ Asked s'.entities r.symbol ∧ p = r.symbol.spell s'.entities := by
  have names : ∃ a, p = ⟨some a, r.field.toList⟩ ∧ Names r.handle s a s' := by
    obtain ⟨handle, field⟩ := r
    cases field with
    | some f => exact path_ok h
    | none =>
      obtain ⟨a, t, ha, hp⟩ := bind_ok h
      cases hp
      exact ⟨a, rfl, aliasOf_ok ha⟩
  obtain ⟨a, rfl, names⟩ := names
  obtain ⟨e, found, named⟩ := names.named
  refine ⟨names.grows, ⟨r, e, a, rfl, found, named⟩, ?_⟩
  rw [spell_symbol found, named]

theorem ask_error {r : Reference} {s s' : Scope} {x : Error} (h : r.ask s = (.error x, s')) : s' = s := by
  obtain ⟨handle, field⟩ := r
  cases field with
  | some f => exact path_error h
  | none =>
    have hmap : (Path.ofEntity <$> aliasOf handle) s = (.error x, s') := h
    rw [map_apply] at hmap
    split at hmap
    · cases hmap
    · rename_i e t ht
      cases hmap
      exact aliasOf_error ht

section

variable {α β : Type} [HasPaths α] [HasPaths β]

/-- In a scope, two computations go through the same scopes and add the same entities, and the first gives
what the second gives, spelled. -/
def MirrorsAt (s : Scope) (added : List (Handle × Entity)) (x y : ScopeM β) : Prop :=
  ∀ s' b, s.Sound → x s = (.ok b, s') →
    ∃ b', y s = (.ok b', s') ∧ Grows s added s' ∧ b = mapPaths (Path.spell s'.entities) b' ∧
      ∀ p ∈ paths b', Asked s'.entities p

def Mirrors (added : Scope → List (Handle × Entity)) (x y : ScopeM β) : Prop := ∀ s, MirrorsAt s (added s) x y

variable {added : Scope → List (Handle × Entity)}

/-- What is spelled in a scope can be added to a path that is asked for afterwards. -/
theorem Mirrors.assign {x y : ScopeM Path} (h : Mirrors added x y) {s : Scope} {v v' : Expr}
    (spelled : v = mapPaths (Path.spell s.entities) v') (asked : ∀ p ∈ paths v', Asked s.entities p) :
    MirrorsAt s (added s) ((fun p => Assignment.mk p v) <$> x) ((fun p => Assignment.mk p v') <$> y) := by
  intro s' c sound hx
  obtain ⟨p, t, hp, hc⟩ := bind_ok hx
  cases hc
  obtain ⟨p', hp', grows, rfl, askedPath⟩ := h s s' p sound hp
  have later : ∀ q ∈ paths v', _ := fun q hq => (asked q hq).grows grows
  refine ⟨⟨p', v'⟩, by rw [map_apply, hp'], grows, ?_, fun q hq => ?_⟩
  · have same := mapPaths_congr v' fun q hq => (later q hq).2
    rw [spelled, ← same]
    rfl
  · rcases List.mem_cons.1 hq with rfl | hq
    · exact askedPath _ List.mem_cons_self
    · exact (later q hq).1

/-- A path, and then a value that is computed after it. -/
theorem Mirrors.pair {x y : ScopeM Path} {u v : ScopeM Expr} (h : Mirrors (fun _ => []) x y)
    (h' : Mirrors added u v) :
    Mirrors (fun s => match x s with | (.ok _, t) => added t | (.error _, _) => [])
      (do return Assignment.mk (← x) (← u)) (do return Assignment.mk (← y) (← v)) := by
  intro s s' c sound hx
  obtain ⟨p, t, hp, hx⟩ := bind_ok hx
  obtain ⟨w, t', hw, hx⟩ := bind_ok hx
  cases hx
  obtain ⟨p', hp', grows, rfl, askedPath⟩ := h s t p sound hp
  obtain ⟨w', hw', grows', rfl, asked⟩ := h' t s' w (grows.sound sound) hw
  have later : ∀ q ∈ paths p', _ := fun q hq => (askedPath q hq).grows grows'
  refine ⟨⟨p', w'⟩, ?_, ?_, ?_, fun q hq => ?_⟩
  · simp only [bind_apply, hp', hw', pure_apply]
  · simp only [hp]
    exact grows.trans grows'
  · have same := mapPaths_congr p' fun q hq => (later q hq).2
    rw [← same]
    rfl
  · rcases List.mem_cons.1 hq with rfl | hq
    · exact (later _ List.mem_cons_self).1
    · exact asked q hq

/-- A closure gives its symbols, spelled. -/
theorem Closure.mirrors {granted : List Reference} (c : Closure α granted) :
    ∀ (given : Path → Path) (s s' : Scope) (x : α), s.Sound → Granted s.entities granted given →
      c.spelled given s = (.ok x, s') →
      ∃ y, c.symbolic s = (.ok y, s') ∧ Grows s (c.bindings s) s' ∧ x = mapPaths (Path.spell s'.entities) y ∧
        ∀ p ∈ paths y, Asked s'.entities p := by
  induction c with
  | result y asked =>
    intro given s s' x sound known hx
    cases hx
    refine ⟨y, rfl, .refl s, mapPaths_congr y fun p hp => ?_, fun p hp => ?_⟩
    · obtain ⟨r, hr, rfl⟩ := asked p hp
      exact (known r hr).2
    · obtain ⟨r, hr, rfl⟩ := asked p hp
      exact (known r hr).1
  | fail e =>
    intro given s s' x sound known hx
    cases hx
  | @ask granted r next refused ihNext ihRefused =>
    intro given s s' x sound known hx
    rw [spelled] at hx
    rw [symbolic, bindings]
    cases hask : r.ask s with
    | mk answer t =>
      cases answer with
      | error e =>
        simp only [hask] at hx ⊢
        have same := ask_error hask
        subst same
        exact ihRefused e given t s' x sound known hx
      | ok p =>
        simp only [hask] at hx ⊢
        obtain ⟨grows, asked, spelling⟩ := ask_ok hask
        have known' : Granted t.entities (r :: granted) fun q => if q = r.symbol then p else given q := by
          intro r' hr'
          simp only
          by_cases same : r'.symbol = r.symbol
          · rw [if_pos same, same]
            exact ⟨asked, spelling⟩
          · rw [if_neg same]
            have mem : r' ∈ granted := (List.mem_cons.1 hr').resolve_left fun h => same (h ▸ rfl)
            exact known.grows grows r' mem
        obtain ⟨y, hy, grows', hxy, askedAll⟩ := ihNext _ t s' x (grows.sound sound) known' hx
        exact ⟨y, hy, grows.trans grows', hxy, askedAll⟩
  | @bind granted e next ih =>
    intro given s s' x sound known hx
    rw [spelled] at hx
    rw [symbolic, bindings]
    obtain ⟨h, t, hbind, hx⟩ := bind_ok hx
    have grows := grows_bind hbind
    obtain ⟨y, hy, grows', hxy, asked⟩ := ih h given t s' x (grows.sound sound) (known.grows grows) hx
    simp only [bind_apply, hbind]
    exact ⟨y, hy, grows.trans grows', hxy, asked⟩
  | look next ih =>
    intro given s s' x sound known hx
    exact ih s given s s' x sound known hx

theorem Closure.mirrors_run (c : Closure α []) : Mirrors c.bindings c.run c.symbolic :=
  fun s s' x sound hx => c.mirrors id s s' x sound (fun _ hr => absurd hr List.not_mem_nil) hx

theorem Reference.mirrors (r : Reference) : Mirrors (fun _ => []) r.ask r.symbolic := by
  intro s s' p _ hp
  obtain ⟨grows, asked, rfl⟩ := ask_ok hp
  refine ⟨r.symbol, ?_, grows, rfl, fun q hq => ?_⟩
  · have hask : r.ask s = (.ok (r.symbol.spell s'.entities), s') := hp
    rw [symbolic, map_apply, hask]
  · rw [List.mem_singleton.1 hq]
    exact asked

end

end Clausal
