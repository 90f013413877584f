import Clausal.Proofs.Mapping.Depth
import Clausal.Proofs.Record.Standard

/-!
# What types are expanded into

The columns of a type as its mapper prescribes them, kind by kind: the column of a scalar, the columns of
an identifier, the columns of the components of a composite one after the other, the columns of the type
that a conversion leads to. This says nothing about depth. It agrees with the expansion link by link,
wherever that comes to an end.
-/

namespace Clausal

namespace Mapper

/-- A mapper of one of the four kinds, where components of a composite may share their names. -/
inductive HasKind : Mapper → Prop
  | scalar (type : LogicalType) (column : ColumnType) : HasKind (scalar type column)
  | key (revisioned : Bool) : HasKind (key revisioned)
  | composite {name : String} {components : List Component} {m : Mapper}
      (made : composite name components = .ok m) : HasKind m
  | convert (source target : LogicalType) (toTarget fromTarget : Value → Except Error Value) :
      HasKind (convert source target toTarget fromTarget)

/-- The columns in which an identifier is stored. -/
def keyColumns (base : String) (revisioned : Bool) : List Column :=
  ⟨base, .bigint⟩ :: if revisioned then [⟨base ++ "_rev", .bigint⟩] else []

/-- The name from which the columns of a component are named. -/
def Component.base (c : Component) (base : String) : String := base ++ "_" ++ c.name

end Mapper

namespace Registry

/-- A registry of mappers of the four kinds. -/
def HasKinds (r : Registry) : Prop := ∀ e ∈ r.mappers, e.2.HasKind

variable {r : Registry}

/-- What the expansion of a type under a name comes to. A composite fails as its first component does that
fails. -/
inductive Expands (r : Registry) : LogicalType → String → Except Error (List Column) → Prop
  | unmapped {type : LogicalType} {base : String} (missing : r.find? type = none) :
      Expands r type base (.error (.unmapped type))
  | scalar {type source : LogicalType} {base : String} {column : ColumnType}
      (found : r.find? type = some (Mapper.scalar source column)) :
      Expands r type base (.ok [⟨base, column⟩])
  | key {type : LogicalType} {base : String} {revisioned : Bool}
      (found : r.find? type = some (Mapper.key revisioned)) :
      Expands r type base (.ok (Mapper.keyColumns base revisioned))
  | composite {type : LogicalType} {base name : String} {components : List Mapper.Component} {m : Mapper}
      {columns : Mapper.Component → List Column}
      (found : r.find? type = some m) (made : Mapper.composite name components = .ok m)
      (expanded : ∀ c ∈ components, Expands r c.type (c.base base) (.ok (columns c))) :
      Expands r type base (.ok (components.flatMap columns))
  | component {type : LogicalType} {base name : String} {before after : List Mapper.Component}
      {c : Mapper.Component} {m : Mapper} {columns : Mapper.Component → List Column} {e : Error}
      (found : r.find? type = some m) (made : Mapper.composite name (before ++ c :: after) = .ok m)
      (expanded : ∀ b ∈ before, Expands r b.type (b.base base) (.ok (columns b)))
      (failed : Expands r c.type (c.base base) (.error e)) : Expands r type base (.error e)
  | convert {type source target : LogicalType} {base : String}
      {toTarget fromTarget : Value → Except Error Value} {x : Except Error (List Column)}
      (found : r.find? type = some (Mapper.convert source target toTarget fromTarget))
      (expanded : Expands r target base x) : Expands r type base x

theorem Expands.error {type : LogicalType} {base : String} {x : Except Error (List Column)} {e : Error}
    (h : r.Expands type base x) (failed : x = .error e) : ∃ missing, e = .unmapped missing := by
  induction h with
  | unmapped _ =>
    cases failed
    exact ⟨_, rfl⟩
  | scalar _ => cases failed
  | key _ => cases failed
  | composite _ _ _ _ => cases failed
  | component _ _ _ _ _ ih => exact ih failed
  | convert _ _ ih => exact ih failed

theorem Expands.not_endless {type : LogicalType} {base : String} {x : Except Error (List Column)}
    (h : r.Expands type base x) : ¬ Endless x := by
  rintro ⟨source, failed⟩
  obtain ⟨missing, same⟩ := h.error failed
  cases same

/-! ### One step of an expansion, kind by kind -/

theorem expandType_unmapped {type : LogicalType} (missing : r.find? type = none) (depth : Nat)
    (base : String) : r.expandType depth type base = .error (.unmapped type) :=
  expandType_of_error (by rw [lookup, missing]) depth base

theorem expandType_of_find {type : LogicalType} {m : Mapper} (found : r.find? type = some m) (depth : Nat)
    (base : String) : r.expandType (depth + 1) type base =
      (m.links.mapM (r.linkColumns depth base)).map List.flatten := by
  rw [expandType_of_lookup (lookup_eq_ok.2 found), expand_succ]

theorem expandType_scalar {type source : LogicalType} {column : ColumnType}
    (found : r.find? type = some (Mapper.scalar source column)) (depth : Nat) (base : String) :
    r.expandType (depth + 1) type base = .ok [⟨base, column⟩] := by
  rw [expandType_of_find found]
  rfl

theorem expandType_key {type : LogicalType} {revisioned : Bool}
    (found : r.find? type = some (Mapper.key revisioned)) (depth : Nat) (base : String) :
    r.expandType (depth + 1) type base = .ok (Mapper.keyColumns base revisioned) := by
  rw [expandType_of_find found]
  cases revisioned <;> rfl

theorem expandType_convert {type source target : LogicalType} {f g : Value → Except Error Value}
    (found : r.find? type = some (Mapper.convert source target f g)) (depth : Nat) (base : String) :
    r.expandType (depth + 1) type base = r.expandType depth target base := by
  rw [expandType_of_find found]
  show ([Link.mk _ _ _ _ _ _ _ _].mapM (r.linkColumns depth base)).map List.flatten = _
  rw [List.mapM_cons, linkColumns_logical rfl]
  show ((r.expandType depth target base) >>= fun cs => pure [cs]).map List.flatten = _
  cases r.expandType depth target base with
  | error e => rfl
  | ok cs => exact congrArg Except.ok (List.append_nil cs)

theorem expandType_composite {type : LogicalType} {name : String} {components : List Mapper.Component}
    {m : Mapper} (found : r.find? type = some m) (made : Mapper.composite name components = .ok m)
    (depth : Nat) (base : String) : r.expandType (depth + 1) type base =
      (components.mapM fun c => r.expandType depth c.type (c.base base)).map List.flatten := by
  rw [expandType_of_find found, Mapper.links_of_composite made]
  exact congrArg _ (mapM_mapIdx fun i c => linkColumns_logical rfl depth base)

/-! ### Agreement -/

/-- What is found one type deeper than there are types is found within as many types as there are. -/
theorem Expands.within_size {type : LogicalType} {base : String} {x : Except Error (List Column)}
    (h : r.Expands type base x) (deeper : r.expandType (r.size + 1) type base = x) :
    r.expandType r.size type base = x := by
  have settled : ¬ Endless (r.expandType (r.size + 1) type base) := by
    rw [deeper]
    exact h.not_endless
  rw [← expandType_eq_size settled, deeper]

theorem Expands.expandType_eq {type : LogicalType} {base : String} {x : Except Error (List Column)}
    (h : r.Expands type base x) : r.expandType r.size type base = x := by
  induction h with
  | unmapped missing => exact expandType_unmapped missing _ _
  | scalar found => exact (Expands.scalar found).within_size (expandType_scalar found _ _)
  | key found => exact (Expands.key found).within_size (expandType_key found _ _)
  | composite found made expanded ih =>
    refine (Expands.composite found made expanded).within_size ?_
    rw [expandType_composite found made, mapM_eq_map ih]
    rfl
  | component found made expanded failed ihs ih =>
    refine (Expands.component found made expanded failed).within_size ?_
    rw [expandType_composite found made, map_eq_error]
    exact mapM_eq_error.2 ⟨_, _, _, rfl, fun b hb => ⟨_, ihs b hb⟩, ih⟩
  | convert found expanded ih =>
    exact (Expands.convert found expanded).within_size ((expandType_convert found _ _).trans ih)

/-- A composite is expanded as it prescribes, if its components are. -/
theorem expands_composite {type : LogicalType} {base name : String} {components : List Mapper.Component}
    {m : Mapper} (found : r.find? type = some m) (made : Mapper.composite name components = .ok m)
    {expand : Mapper.Component → Except Error (List Column)}
    (expands : ∀ c, ¬ Endless (expand c) → r.Expands c.type (c.base base) (expand c))
    (ends : ¬ Endless (components.mapM expand)) :
    r.Expands type base ((components.mapM expand).map List.flatten) := by
  let columns (c : Mapper.Component) := (expand c).toOption.getD []
  have value {c : Mapper.Component} (h : ∃ cs, expand c = .ok cs) : expand c = .ok (columns c) := by
    obtain ⟨cs, hcs⟩ := h
    simp [columns, hcs, Except.toOption]
  have expanded {c : Mapper.Component} (h : ∃ cs, expand c = .ok cs) :
      r.Expands c.type (c.base base) (.ok (columns c)) := by
    have settled : ¬ Endless (expand c) := by
      rw [value h]
      exact not_endless_ok _
    exact value h ▸ expands c settled
  cases all : components.mapM expand with
  | ok groups =>
    have given : ∀ c ∈ components, ∃ cs, expand c = .ok cs := fun c hc => mapM_ok_of_mem all hc
    rw [← all, mapM_eq_map fun c hc => value (given c hc)]
    exact .composite found made fun c hc => expanded (given c hc)
  | error e =>
    obtain ⟨before, c, after, rfl, given, failed⟩ := mapM_eq_error.1 all
    have settled : ¬ Endless (expand c) := by
      rw [all, endless_error] at ends
      rw [failed, endless_error]
      exact ends
    exact .component found made (fun b hb => expanded (given b hb)) (failed ▸ expands c settled)

/-- With mappers of the four kinds, an expansion that comes to an end is the one that they prescribe. -/
theorem expands_expandType (kinds : r.HasKinds) {depth : Nat} {type : LogicalType} {base : String}
    (ends : ¬ Endless (r.expandType depth type base)) :
    r.Expands type base (r.expandType depth type base) := by
  induction depth generalizing type base with
  | zero =>
    cases found : r.find? type with
    | none =>
      rw [expandType_unmapped found]
      exact .unmapped found
    | some m => exact absurd ⟨m.source, expandType_of_lookup (lookup_eq_ok.2 found) 0 base⟩ ends
  | succ depth ih =>
    cases found : r.find? type with
    | none =>
      rw [expandType_unmapped found]
      exact .unmapped found
    | some m =>
      obtain ⟨entry, he, same⟩ := mem_of_lookup (lookup_eq_ok.2 found)
      have kind := same ▸ kinds entry he
      cases kind with
      | scalar source column =>
        rw [expandType_scalar found]
        exact .scalar found
      | key revisioned =>
        rw [expandType_key found]
        exact .key found
      | convert source target f g =>
        rw [expandType_convert found] at ends ⊢
        exact .convert found (ih ends)
      | composite made =>
        rw [expandType_composite found made] at ends ⊢
        exact expands_composite found made (fun c => ih) (endless_map.not.1 ends)

/-- The columns of a type are what its mapper prescribes, and nothing else is. -/
theorem expands_iff (kinds : r.HasKinds) {type : LogicalType} {base : String} (ends : r.Ends type base)
    {x : Except Error (List Column)} :
    r.Expands type base x ↔ r.expandType r.size type base = x :=
  ⟨Expands.expandType_eq, fun h => h ▸ expands_expandType kinds ends.at_size⟩

end Registry

end Clausal
