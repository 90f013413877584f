import Clausal.Proofs.Results
import Clausal.Record.Segment

/-!
# Standard mappers

The mappers that come with the library: scalars, identifiers, composites whose components have names of
their own, and conversions. Each of them gets a value back from its stored forms. A chain with one link
does it by the way back of that link; a longer chain puts the stored forms together, part by part, and
builds the value of them.
-/

namespace Clausal

/-- A mapper of one of the four kinds. -/
inductive Mapper.IsStandard : Mapper → Prop
  | scalar (type : LogicalType) (column : ColumnType) : IsStandard (Mapper.scalar type column)
  | key (revisioned : Bool) : IsStandard (Mapper.key revisioned)
  | composite {name : String} {components : List Mapper.Component} {m : Mapper}
      (distinct : (components.map (·.name)).Nodup)
      (made : Mapper.composite name components = .ok m) : IsStandard m
  | convert (source target : LogicalType) (toTarget fromTarget : Value → Except Error Value) :
      IsStandard (Mapper.convert source target toTarget fromTarget)

def Registry.IsStandard (r : Registry) : Prop := ∀ e ∈ r.mappers, e.2.IsStandard

theorem Registry.IsStandard.empty : Registry.empty.IsStandard := by
  intro e he
  exact absurd he List.not_mem_nil

theorem Registry.IsStandard.register {r : Registry} {m : Mapper} (hr : r.IsStandard)
    (hm : m.IsStandard) : (r.register m).IsStandard := by
  intro e he
  rcases List.mem_cons.1 he with rfl | he
  · exact hm
  · exact hr e (List.mem_filter.1 he).1

theorem Registry.mem_of_lookup {r : Registry} {type : LogicalType} {m : Mapper}
    (h : r.lookup type = .ok m) : ∃ e ∈ r.mappers, e.2 = m := by
  unfold Registry.lookup at h
  split at h
  · rename_i found hfound
    cases h
    unfold Registry.find? at hfound
    obtain ⟨e, he, rfl⟩ := Option.map_eq_some_iff.1 hfound
    exact ⟨e, List.mem_of_find?_eq_some he, rfl⟩
  · cases h

theorem Registry.IsStandard.lookup {r : Registry} (hr : r.IsStandard) {type : LogicalType}
    {m : Mapper} (h : r.lookup type = .ok m) : m.IsStandard := by
  obtain ⟨e, he, rfl⟩ := mem_of_lookup h
  exact hr e he

namespace Segment

theorem isNull_iff {v : Value} : v.isNull = true ↔ v = .null := by
  cases v <;> simp [Value.isNull]

theorem stored_null (l : Link) : stored l .null = .ok l.nullTarget := rfl

theorem stored_of_ne (l : Link) {v : Value} (h : v ≠ .null) : stored l v = l.toTarget v := by
  rw [stored, if_neg fun hv => h (isNull_iff.1 hv)]

theorem restored_null (l : Link) : restored l .null = .ok .null := rfl

theorem restored_of_ok {l : Link} {v w : Value} (hw : w ≠ .null) (h : l.fromTarget w = .ok v) :
    restored l w = .ok v := by
  rw [restored, if_neg fun hw' => hw (isNull_iff.1 hw'), h]
  rfl

/-- Puts together what several links store of a value. -/
def collect (v : Value) : List Link → Assembly → Except Error Assembly
  | [], a => .ok a
  | l :: ls, a => do
    let w ← stored l v
    let a ← a.put l.part w
    collect v ls a

theorem collect_cons {v w : Value} {l : Link} {ls : List Link} {a b : Assembly}
    (hw : stored l v = .ok w) (hb : a.put l.part w = .ok b) :
    collect v (l :: ls) a = collect v ls b := by
  rw [collect, hw, ok_bind, hb, ok_bind]

end Segment

namespace Mapper

open Segment

/-- The stored forms of a value give it back. -/
def Restores (m : Mapper) (v : Value) : Prop :=
  ∀ w, stored m.first v = .ok w →
    (m.siblings = [] ∧ restored m.first w = .ok v) ∨
    (m.siblings ≠ [] ∧
      ∃ a b, m.first.assembly = some a ∧ collect v m.links a = .ok b ∧ b.build = .ok v)

theorem accept_eq_ok {type : LogicalType} {v w : Value} (h : accept type v = .ok w) : w = v := by
  unfold accept at h
  split at h
  · split at h
    · split at h
      · cases h
        rfl
      · cases h
    · cases h
      rfl
  · cases h

theorem restores_scalar (type : LogicalType) (column : ColumnType) (v : Value) :
    (scalar type column).Restores v := by
  intro w hw
  refine .inl ⟨rfl, ?_⟩
  by_cases hv : v = .null
  · subst hv
    cases hw
    exact restored_null _
  · rw [stored_of_ne _ hv] at hw
    have same : w = v := accept_eq_ok hw
    subst same
    exact restored_of_ok hv hw

theorem asKey_eq_ok {v : Value} {k : Key} (h : asKey v = .ok k) : v = .key k := by
  unfold asKey at h
  split at h
  · cases h
    rfl
  · cases h

/-- What is stored in the place of an identifier is null or an identifier. -/
theorem key_of_stored {v w : Value} (h : stored idLink v = .ok w) :
    v = .null ∨ ∃ k : Key, v = .key k ∧ w = .int k.id := by
  by_cases hv : v = .null
  · exact .inl hv
  · rw [stored_of_ne _ hv] at h
    obtain ⟨k, hk, rfl⟩ := map_eq_ok.1 h
    exact .inr ⟨k, asKey_eq_ok hk, rfl⟩

theorem restores_key_unrevisioned {v : Value} (h : ∀ k, v = .key k → k.revision = none) :
    (key false).Restores v := by
  intro w hw
  refine .inl ⟨rfl, ?_⟩
  rcases key_of_stored hw with rfl | ⟨⟨id, revision⟩, rfl, rfl⟩
  · cases hw
    exact restored_null _
  · have absent : revision = none := h _ rfl
    subst absent
    rfl

theorem restores_key_revisioned (v : Value) : (key true).Restores v := by
  intro w hw
  refine .inr ⟨List.cons_ne_nil _ _, ?_⟩
  rcases key_of_stored hw with rfl | ⟨⟨id, revision⟩, rfl, rfl⟩
  · exact ⟨_, _, rfl, rfl, rfl⟩
  · cases revision with
    | none => exact ⟨_, _, rfl, rfl, rfl⟩
    | some r => exact ⟨_, _, rfl, rfl, rfl⟩

theorem restores_convert {source target : LogicalType} {f g : Value → Except Error Value} {v : Value}
    (h : ∀ w, v ≠ .null → f v = .ok w → w ≠ .null ∧ g w = .ok v) :
    (convert source target f g).Restores v := by
  intro w hw
  refine .inl ⟨rfl, ?_⟩
  by_cases hv : v = .null
  · subst hv
    cases hw
    exact restored_null _
  · rw [stored_of_ne _ hv] at hw
    obtain ⟨hw', hg⟩ := h w hv hw
    exact restored_of_ok hw' hg

/-- A composite value, or null, and the values of its components. -/
theorem parts_of_stored {type : LogicalType} {cs : List Component} {i : Nat} {c : Component}
    {v w : Value} (h : stored (componentLink type cs i c) v = .ok w) :
    ∃ ws : List Value, ws.length = cs.length ∧
      (∀ j d, stored (componentLink type cs j d) v = .ok (ws.getD j .null)) ∧
      (if ws.all Value.isNull then .null else .record ws) = v := by
  by_cases hv : v = .null
  · subst hv
    refine ⟨List.replicate cs.length .null, List.length_replicate, fun j d => ?_, ?_⟩
    · rw [stored_null, List.getD_eq_getElem?_getD, List.getElem?_replicate]
      split <;> rfl
    · simp [Value.isNull]
  · rw [stored_of_ne _ hv] at h
    simp only [componentLink, component] at h
    split at h
    · rename_i parts
      split at h
      · cases h
      split at h
      · cases h
      · rename_i hcount hnull
        have count : parts.length = cs.length := not_not.1 hcount
        refine ⟨parts, count, fun j d => ?_, if_neg hnull⟩
        rw [stored_of_ne _ hv]
        simp [componentLink, component, count, hnull]
    · cases h

theorem setPart_append {name : String} {value : Value} {old : Option Value}
    {filled rest : List (String × Option Value)} (h : name ∉ filled.map (·.1)) :
    Assembly.setPart name value (filled ++ (name, old) :: rest) =
      some (filled ++ (name, some value) :: rest) := by
  induction filled with
  | nil => simp [Assembly.setPart]
  | cons p filled ih =>
    obtain ⟨other, w⟩ := p
    have hne : other ≠ name := fun he => h (by simp [he])
    have hrest : name ∉ filled.map (·.1) := fun hm => h (List.mem_cons_of_mem _ hm)
    simp [Assembly.setPart, hne, ih hrest]

/-- The components that are still due are filled in one after the other. -/
theorem collect_components {type : LogicalType} {cs : List Component} {v : Value} {ws : List Value}
    (h : ∀ j d, stored (componentLink type cs j d) v = .ok (ws.getD j .null)) :
    ∀ (due : List Component) (filled : List (String × Option Value)),
      (filled.map (·.1) ++ due.map (·.name)).Nodup →
      collect v (due.mapIdx fun i c => componentLink type cs (i + filled.length) c)
          (.composite type (filled ++ due.map fun c => (c.name, none))) =
        .ok (.composite type
          (filled ++ due.mapIdx fun i c => (c.name, some (ws.getD (i + filled.length) .null)))) := by
  intro due
  induction due with
  | nil =>
    intro filled _
    rfl
  | cons c due ih =>
    intro filled distinct
    have fresh : c.name ∉ filled.map (·.1) := by
      intro hm
      have apart := (List.nodup_append.1 distinct).2.2
      exact apart _ hm _ List.mem_cons_self rfl
    let next := filled ++ [(c.name, some (ws.getD filled.length Value.null))]
    have distinct' : (next.map (·.1) ++ due.map (·.name)).Nodup := by
      simpa [next] using distinct
    have shift : ∀ i, i + 1 + filled.length = i + next.length := by
      intro i
      simp [next]
      omega
    have put : (Assembly.composite type
        (filled ++ (c.name, none) :: due.map fun c => (c.name, none))).put c.name
          (ws.getD filled.length .null) =
        .ok (.composite type (next ++ due.map fun c => (c.name, none))) := by
      simp [Assembly.put, setPart_append fresh, next]
    rw [List.mapIdx_cons, List.mapIdx_cons, List.map_cons, Nat.zero_add]
    rw [collect_cons (h filled.length c) put]
    simp only [shift]
    rw [ih next distinct']
    simp [next]

theorem partValues_eq (type : LogicalType) (parts : List (String × Value)) :
    Assembly.partValues type (parts.map fun p => (p.1, some p.2)) = .ok (parts.map (·.2)) := by
  induction parts with
  | nil => rfl
  | cons p parts ih => simp [Assembly.partValues, ih]

theorem links_of_composite {name : String} {cs : List Component} {m : Mapper}
    (made : composite name cs = .ok m) : m.links = cs.mapIdx (componentLink (.named name) cs) := by
  unfold composite at made
  split at made
  · cases made
  · rename_i first siblings heq
    cases made
    exact heq.symm

theorem first_of_composite {name : String} {cs : List Component} {m : Mapper}
    (made : composite name cs = .ok m) :
    ∃ c rest, cs = c :: rest ∧ m.first = componentLink (.named name) cs 0 c := by
  have links := links_of_composite made
  cases cs with
  | nil => cases made
  | cons c rest =>
    rw [List.mapIdx_cons] at links
    exact ⟨c, rest, rfl, (List.cons.inj links).1⟩

/-- The parts of a composite with names of their own make the value again. -/
theorem assembles_composite {name : String} {cs : List Component} {m : Mapper}
    (distinct : (cs.map (·.name)).Nodup) (made : composite name cs = .ok m) {v w : Value}
    (hw : stored m.first v = .ok w) :
    ∃ a b, m.first.assembly = some a ∧ collect v m.links a = .ok b ∧ b.build = .ok v := by
  have links := links_of_composite made
  obtain ⟨c, rest, hcs, hfirst⟩ := first_of_composite made
  rw [hfirst] at hw
  obtain ⟨ws, count, stores, value⟩ := parts_of_stored hw
  have begun : m.first.assembly = some (.emptyComposite (.named name) (cs.map (·.name))) := by
    rw [hfirst]
    rfl
  refine ⟨_, .composite (.named name) (cs.mapIdx fun i c => (c.name, some (ws.getD i .null))), begun, ?_, ?_⟩
  · have filled := collect_components stores cs [] (by simpa using distinct)
    simp only [List.length_nil, Nat.add_zero, List.nil_append] at filled
    rw [links, Assembly.emptyComposite, List.map_map]
    exact filled
  · have zipped : (cs.mapIdx fun i c => (c.name, some (ws.getD i .null))) =
        (cs.mapIdx fun i c => (c.name, ws.getD i Value.null)).map fun p => (p.1, some p.2) :=
      List.ext_getElem (by simp) fun i _ _ => by simp
    have values : (cs.mapIdx fun i c => (c.name, ws.getD i Value.null)).map (·.2) = ws := by
      refine List.ext_getElem (by simp [count]) fun i h _ => ?_
      have hi : i < ws.length := by simpa [count] using h
      simp [hi]
    rw [Assembly.build, zipped, partValues_eq, values]
    exact congrArg Except.ok value

theorem restores_composite {name : String} {cs : List Component} {m : Mapper}
    (distinct : (cs.map (·.name)).Nodup) (made : composite name cs = .ok m) (v : Value) :
    m.Restores v := by
  intro w hw
  by_cases alone : m.siblings = []
  · refine .inl ⟨alone, ?_⟩
    have links := links_of_composite made
    obtain ⟨c, rest, hcs, hfirst⟩ := first_of_composite made
    rw [hfirst] at hw
    obtain ⟨ws, count, stores, value⟩ := parts_of_stored hw
    -- A composite with one component is read by the way back of its only link.
    have single : rest = [] := by
      have hlen := congrArg List.length links
      simp [Mapper.links, alone, hcs] at hlen
      exact hlen
    subst single
    obtain ⟨x, rfl⟩ : ∃ x, ws = [x] := List.length_eq_one_iff.1 (by rw [count, hcs]; rfl)
    have same : w = x := Except.ok.inj (hw.symm.trans (stores 0 c))
    subst same
    rw [hfirst]
    by_cases hnull : w = .null
    · subst hnull
      rw [restored_null]
      simpa [Value.isNull] using value
    · refine restored_of_ok hnull ?_
      have there : ¬ w.isNull = true := fun h => hnull (isNull_iff.1 h)
      rw [← value]
      simp [componentLink, there]
  · exact .inr ⟨alone, assembles_composite distinct made hw⟩

/-- A standard mapper gets a value back, if its conversion can be undone and it drops no revision. -/
theorem IsStandard.restores {m : Mapper} (standard : m.IsStandard) {v : Value}
    (convertible : ∀ source target f g w, m = Mapper.convert source target f g → v ≠ .null → f v = .ok w →
      w ≠ .null ∧ g w = .ok v)
    (unrevised : ∀ k, m = Mapper.key false → v = .key k → k.revision = none) : m.Restores v := by
  cases standard with
  | scalar type column => exact restores_scalar type column v
  | key revisioned =>
    cases revisioned with
    | false => exact restores_key_unrevisioned fun k => unrevised k rfl
    | true => exact restores_key_revisioned v
  | composite distinct made => exact restores_composite distinct made v
  | convert source target f g =>
    exact restores_convert fun w => convertible source target f g w rfl

end Mapper

end Clausal
