import Clausal.Mapping.Columns
import Clausal.Proofs.Results
import Mathlib.Data.List.Nodup
import Mathlib.Data.List.Perm.Subperm

/-!
# How deep types are expanded

Expanding a type goes down through other types, and the number of types that a registry knows bounds how
far. An expansion that would come to an end at all comes to an end within that depth. The reason is the
height of a type, the least depth at which its expansion settles: a type of some height needs one of the
next lower height, so the heights below it are those of different types, all of them registered.
-/

namespace Clausal

/-- A result that gave up because it went too deep. -/
def Endless {α : Type} (x : Except Error α) : Prop := ∃ type, x = .error (.endless type)

theorem not_endless_ok {α : Type} (a : α) : ¬ Endless (.ok a : Except Error α) := by
  rintro ⟨type, h⟩
  cases h

/-- What a failure is does not depend on what the value would have been. -/
theorem endless_error {α : Type} {e : Error} :
    Endless (.error e : Except Error α) ↔ ∃ type, e = .endless type :=
  exists_congr fun _ => by rw [Except.error.injEq]

theorem not_endless_unmapped {α : Type} (type : LogicalType) :
    ¬ Endless (.error (.unmapped type) : Except Error α) := by
  rintro ⟨type, h⟩
  cases h

theorem endless_map {α β : Type} {x : Except Error α} {g : α → β} : Endless (x.map g) ↔ Endless x := by
  cases x with
  | error e => exact endless_error.trans endless_error.symm
  | ok a => exact iff_of_false (not_endless_ok _) (not_endless_ok _)

/-- Where a pass over a list does not give up, it may use any function that agrees where the first one
does not give up. -/
theorem mapM_settled {α β : Type} {f g : α → Except Error β} {xs : List α}
    (agree : ∀ x ∈ xs, ¬ Endless (f x) → g x = f x) (h : ¬ Endless (xs.mapM f)) :
    xs.mapM g = xs.mapM f := by
  induction xs with
  | nil => rfl
  | cons x xs ih =>
    obtain ⟨here, there⟩ := List.forall_mem_cons.1 agree
    rw [List.mapM_cons] at h
    have settled : ¬ Endless (f x) := by
      rintro ⟨type, hx⟩
      exact h ⟨type, by rw [hx]; rfl⟩
    rw [List.mapM_cons, List.mapM_cons, here settled]
    cases hx : f x with
    | error e => rfl
    | ok b =>
      have rest : ¬ Endless (xs.mapM f) := by
        rintro ⟨type, hxs⟩
        exact h ⟨type, by rw [hx, hxs]; rfl⟩
      rw [ih there rest]

/-- What no step in depth changes once it is found is not changed by any greater depth. -/
theorem eq_of_settled {α : Type} {f : Nat → Except Error α}
    (step : ∀ depth, ¬ Endless (f depth) → f (depth + 1) = f depth) {depth deeper : Nat} (h : depth ≤ deeper)
    (settled : ¬ Endless (f depth)) : f deeper = f depth := by
  induction h with
  | refl => rfl
  | step _ ih =>
    rw [step, ih]
    rw [ih]
    exact settled

namespace Registry

variable {r : Registry}

/-- The columns of a type, found by going down through at most `depth` types. -/
def expandType (r : Registry) (depth : Nat) (type : LogicalType) (base : String) :
    Except Error (List Column) := do
  let m ← r.lookup type
  r.expand depth m base

def linkColumns (r : Registry) (depth : Nat) (base : String) (l : Link) : Except Error (List Column) :=
  match l.target with
  | .column type => .ok [⟨l.columnName base, type⟩]
  | .logical type => r.expandType depth type (l.columnName base)

theorem linkColumns_column {l : Link} {type : ColumnType} (h : l.target = .column type) (depth : Nat)
    (base : String) : r.linkColumns depth base l = .ok [⟨l.columnName base, type⟩] := by
  rw [linkColumns, h]

theorem linkColumns_logical {l : Link} {type : LogicalType} (h : l.target = .logical type) (depth : Nat)
    (base : String) : r.linkColumns depth base l = r.expandType depth type (l.columnName base) := by
  rw [linkColumns, h]

theorem expand_succ (r : Registry) (depth : Nat) (m : Mapper) (base : String) :
    r.expand (depth + 1) m base = (m.links.mapM (r.linkColumns depth base)).map List.flatten := by
  rw [expand]
  refine congrArg (· >>= fun groups => pure groups.flatten) (mapM_congr fun l _ => ?_)
  cases target : l.target with
  | column type => exact (linkColumns_column target depth base).symm
  | logical type => exact (linkColumns_logical target depth base).symm

theorem expandType_of_lookup {type : LogicalType} {m : Mapper} (h : r.lookup type = .ok m) (depth : Nat)
    (base : String) : r.expandType depth type base = r.expand depth m base := by
  rw [expandType, h, ok_bind]

theorem expandType_of_error {type : LogicalType} {e : Error} (h : r.lookup type = .error e) (depth : Nat)
    (base : String) : r.expandType depth type base = .error e := by
  rw [expandType, h]
  rfl

theorem lookup_error {type : LogicalType} {e : Error} (h : r.lookup type = .error e) :
    e = .unmapped type := by
  unfold lookup at h
  split at h
  · cases h
  · cases h
    rfl

theorem lookup_eq_ok {type : LogicalType} {m : Mapper} :
    r.lookup type = .ok m ↔ r.find? type = some m := by
  unfold lookup
  cases r.find? type <;> simp

theorem linkColumns_eq_error {depth : Nat} {base : String} {l : Link} {e : Error} :
    r.linkColumns depth base l = .error e ↔
      ∃ type, l.target = .logical type ∧ r.expandType depth type (l.columnName base) = .error e := by
  cases target : l.target with
  | column type => simp [linkColumns_column target]
  | logical type => simp [linkColumns_logical target]

/-- How an expansion fails: the type has no mapper, or a link leads to a type whose expansion fails, and
the links before it do not. -/
inductive Fails (r : Registry) (depth : Nat) (type : LogicalType) (base : String) (e : Error) : Prop
  | lookup (missing : r.lookup type = .error e)
  | link {m : Mapper} {before later : List Link} {l : Link} {target : LogicalType}
      (found : r.lookup type = .ok m) (links : m.links = before ++ l :: later)
      (given : ∀ k ∈ before, ∃ cs, r.linkColumns depth base k = .ok cs)
      (leads : l.target = .logical target)
      (failed : r.expandType depth target (l.columnName base) = .error e)

theorem expandType_succ_eq_error {depth : Nat} {type : LogicalType} {base : String} {e : Error} :
    r.expandType (depth + 1) type base = .error e ↔ r.Fails depth type base e := by
  cases hm : r.lookup type with
  | error e' =>
    rw [expandType_of_error hm]
    constructor
    · rintro ⟨⟩
      exact .lookup hm
    · rintro (missing | found)
      · cases hm.symm.trans missing
        rfl
      · cases hm.symm.trans found
  | ok m =>
    rw [expandType_of_lookup hm, expand_succ, map_eq_error, mapM_eq_error]
    constructor
    · rintro ⟨before, l, later, links, given, failed⟩
      obtain ⟨target, leads, failed⟩ := linkColumns_eq_error.1 failed
      exact .link hm links given leads failed
    · rintro (missing | ⟨found, links, given, leads, failed⟩)
      · cases hm.symm.trans missing
      · cases hm.symm.trans found
        exact ⟨_, _, _, links, given, linkColumns_eq_error.2 ⟨_, leads, failed⟩⟩

theorem expandType_zero {type : LogicalType} {base : String} {m : Mapper} (h : r.lookup type = .ok m) :
    Endless (r.expandType 0 type base) :=
  ⟨m.source, expandType_of_lookup h 0 base⟩

/-! ### Depth and names -/

/-- What was found within a depth is found within the next one. -/
theorem expandType_succ {depth : Nat} {type : LogicalType} {base : String}
    (h : ¬ Endless (r.expandType depth type base)) :
    r.expandType (depth + 1) type base = r.expandType depth type base := by
  induction depth generalizing type base with
  | zero =>
    cases hm : r.lookup type with
    | error e => rw [expandType_of_error hm, expandType_of_error hm]
    | ok m => exact absurd (expandType_zero hm) h
  | succ depth ih =>
    cases hm : r.lookup type with
    | error e => rw [expandType_of_error hm, expandType_of_error hm]
    | ok m =>
      rw [expandType_of_lookup hm, expand_succ, endless_map] at h
      rw [expandType_of_lookup hm, expandType_of_lookup hm, expand_succ, expand_succ]
      refine congrArg _ (mapM_settled (fun l _ hl => ?_) h)
      cases target : l.target with
      | column type => rw [linkColumns_column target, linkColumns_column target]
      | logical type =>
        rw [linkColumns_logical target] at hl
        rw [linkColumns_logical target, linkColumns_logical target, ih hl]

theorem linkColumns_succ {depth : Nat} {l : Link} {base : String} {cs : List Column}
    (h : r.linkColumns depth base l = .ok cs) : r.linkColumns (depth + 1) base l = .ok cs := by
  cases target : l.target with
  | column type =>
    rw [linkColumns_column target] at h ⊢
    exact h
  | logical type =>
    rw [linkColumns_logical target] at h ⊢
    rw [expandType_succ, h]
    rw [h]
    exact not_endless_ok cs

theorem expandType_le {depth deeper : Nat} (h : depth ≤ deeper) {type : LogicalType} {base : String}
    (settled : ¬ Endless (r.expandType depth type base)) :
    r.expandType deeper type base = r.expandType depth type base :=
  eq_of_settled (f := fun depth => r.expandType depth type base) (fun _ => expandType_succ) h settled

/-- How an expansion fails does not depend on how the columns are named. -/
theorem expandType_error_base {depth : Nat} {type : LogicalType} {base : String} {e : Error}
    (h : r.expandType depth type base = .error e) (other : String) :
    r.expandType depth type other = .error e := by
  induction depth generalizing type base other e with
  | zero =>
    cases hm : r.lookup type with
    | error e' =>
      rw [expandType_of_error hm] at h ⊢
      exact h
    | ok m =>
      rw [expandType_of_lookup hm] at h ⊢
      exact h
  | succ depth ih =>
    rw [expandType_succ_eq_error] at h ⊢
    cases h with
    | lookup missing => exact .lookup missing
    | link found links given leads failed =>
      refine .link found links (fun k hk => ?_) leads (ih failed _)
      cases hk' : r.linkColumns depth other k with
      | ok cs => exact ⟨cs, rfl⟩
      | error x =>
        obtain ⟨target, leads, failed⟩ := linkColumns_eq_error.1 hk'
        obtain ⟨cs, hcs⟩ := given k hk
        rw [linkColumns_eq_error.2 ⟨target, leads, ih failed _⟩] at hcs
        cases hcs

/-- An expansion gives up because it goes too deep, or fails at a type that no mapper is registered for. -/
theorem unmapped_of_expandType {depth : Nat} {type : LogicalType} {base : String} {e : Error}
    (h : r.expandType depth type base = .error e) (ends : ¬ Endless (r.expandType depth type base)) :
    ∃ missing, e = .unmapped missing := by
  induction depth generalizing type base with
  | zero =>
    cases hm : r.lookup type with
    | error e' =>
      rw [expandType_of_error hm] at h
      cases h
      exact ⟨type, lookup_error hm⟩
    | ok m => exact absurd (expandType_zero hm) ends
  | succ depth ih =>
    rw [h] at ends
    cases expandType_succ_eq_error.1 h with
    | lookup missing => exact ⟨type, lookup_error missing⟩
    | link found links given leads failed =>
      refine ih failed ?_
      rw [failed]
      exact ends

/-! ### Heights -/

/-- Whether the expansion of a type comes to an end within a depth. -/
def Settles (r : Registry) (depth : Nat) (type : LogicalType) : Prop :=
  ∀ base, ¬ Endless (r.expandType depth type base)

theorem settles_of_base {depth : Nat} {type : LogicalType} {base : String}
    (h : ¬ Endless (r.expandType depth type base)) : r.Settles depth type := by
  rintro other ⟨t, ht⟩
  exact h ⟨t, expandType_error_base ht base⟩

theorem Settles.le {depth deeper : Nat} {type : LogicalType} (h : r.Settles depth type)
    (le : depth ≤ deeper) : r.Settles deeper type := fun base => by
  rw [expandType_le le (h base)]
  exact h base

theorem registered_of_not_settles {depth : Nat} {type : LogicalType} (h : ¬ r.Settles depth type) :
    type ∈ r.mappers.map (·.1) := by
  cases hm : r.lookup type with
  | error e =>
    refine absurd (fun base => ?_) h
    rw [expandType_of_error hm, lookup_error hm]
    exact not_endless_unmapped type
  | ok m =>
    obtain ⟨entry, found, _⟩ := Option.map_eq_some_iff.1 (lookup_eq_ok.1 hm)
    have same : entry.1 = type := by simpa using List.find?_some found
    exact List.mem_map.2 ⟨entry, List.mem_of_find?_eq_some found, same⟩

/-- A type that settles at a depth and not before needs a type that settles one step earlier and not
before. -/
theorem exists_lower {depth : Nat} {type : LogicalType} (h : r.Settles (depth + 2) type)
    (high : ¬ r.Settles (depth + 1) type) : ∃ t, r.Settles (depth + 1) t ∧ ¬ r.Settles depth t := by
  unfold Settles at high
  push Not at high
  obtain ⟨base, t, ht⟩ := high
  cases expandType_succ_eq_error.1 ht with
  | lookup missing => cases lookup_error missing
  | @link m before later l u found links given leads failed =>
    refine ⟨u, settles_of_base (?_ : ¬ Endless (r.expandType (depth + 1) u (l.columnName base))),
      fun settled => settled _ ⟨t, failed⟩⟩
    -- The links before this one are found at the greater depth too, so the expansion would fail here.
    rintro ⟨v, hv⟩
    refine h base ⟨v, expandType_succ_eq_error.2 (.link found links (fun k hk => ?_) leads hv)⟩
    obtain ⟨cs, hcs⟩ := given k hk
    exact ⟨cs, linkColumns_succ hcs⟩

/-- Below a type of some height there are types of all lower heights. -/
theorem exists_heights {depth : Nat} {type : LogicalType} (h : r.Settles (depth + 1) type)
    (high : ¬ r.Settles depth type) :
    ∃ types : List LogicalType, types.length = depth + 1 ∧ types.Nodup ∧
      ∀ t ∈ types, r.Settles (depth + 1) t ∧ t ∈ r.mappers.map (·.1) := by
  induction depth generalizing type with
  | zero =>
    exact ⟨[type], rfl, List.nodup_singleton type,
      List.forall_mem_singleton.2 ⟨h, registered_of_not_settles high⟩⟩
  | succ depth ih =>
    obtain ⟨t, ht, low⟩ := exists_lower h high
    obtain ⟨types, count, distinct, below⟩ := ih ht low
    refine ⟨type :: types, by rw [List.length_cons, count],
      List.nodup_cons.2 ⟨fun hm => high (below type hm).1, distinct⟩, ?_⟩
    refine List.forall_mem_cons.2 ⟨⟨h, registered_of_not_settles high⟩, fun u hu => ?_⟩
    exact ⟨(below u hu).1.le (Nat.le_succ _), (below u hu).2⟩

/-- What comes to an end does so within as many types as are registered. -/
theorem Settles.size {depth : Nat} {type : LogicalType} (h : r.Settles depth type) :
    r.Settles r.size type := by
  induction depth with
  | zero => exact h.le (Nat.zero_le _)
  | succ depth ih =>
    by_cases low : r.Settles depth type
    · exact ih low
    · obtain ⟨types, count, distinct, below⟩ := exists_heights h low
      have fits : types.length ≤ (r.mappers.map (·.1)).length :=
        (List.subperm_of_subset distinct fun t ht => (below t ht).2).length_le
      rw [count, List.length_map] at fits
      exact h.le fits

/-- The depth at which a type is expanded does not matter, if it comes to an end there. -/
theorem expandType_eq_size {depth : Nat} {type : LogicalType} {base : String}
    (h : ¬ Endless (r.expandType depth type base)) :
    r.expandType depth type base = r.expandType r.size type base := by
  rcases Nat.le_total depth r.size with le | le
  · exact (expandType_le le h).symm
  · exact expandType_le le ((settles_of_base h).size base)

/-- Whether the expansion of a type comes to an end at all. -/
def Ends (r : Registry) (type : LogicalType) (base : String) : Prop :=
  ∃ depth, ¬ Endless (r.expandType depth type base)

theorem Ends.of_ok {depth : Nat} {type : LogicalType} {base : String} {cs : List Column}
    (h : r.expandType depth type base = .ok cs) : r.Ends type base :=
  ⟨depth, by rw [h]; exact not_endless_ok cs⟩

theorem Ends.at_size {type : LogicalType} {base : String} (h : r.Ends type base) :
    ¬ Endless (r.expandType r.size type base) := by
  obtain ⟨depth, settled⟩ := h
  exact (settles_of_base settled).size base

end Registry

/-- The columns of a field are those that are found within as many types as are registered, if its type can
be expanded at all. -/
theorem Storage.fieldColumns_of_ends {s : Storage} {f : Field}
    (h : s.registry.Ends f.type (s.naming.columnName f)) :
    s.fieldColumns f = s.registry.expandType s.registry.size f.type (s.naming.columnName f) :=
  Registry.expandType_succ h.at_size

end Clausal
