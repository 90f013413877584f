import Clausal.Proofs.Record.Standard

/-!
# Putting composites together

A composite value is taken apart by the places of its components in the chain, and put together by their names. The
two agree where every component has a name of its own. Where two components share a name only the first of them is
ever set: values are taken apart, but whatever the parts are, nothing can be built of them.
-/

namespace Clausal

/-! ### Parts that are filled in -/

namespace Assembly

/-- Parts that have been filled in one after the other. A part is left open where one of its name stands before it. -/
inductive Filled : List (String × Option Value) → Prop where
  | nil : Filled []
  | first {parts : List (String × Option Value)} {name : String} (value : Value) (h : Filled parts)
    (fresh : name ∉ parts.map (·.1)) : Filled (parts ++ [(name, some value)])
  | again {parts : List (String × Option Value)} {name : String} (h : Filled parts)
    (taken : name ∈ parts.map (·.1)) : Filled (parts ++ [(name, none)])

/-- A part whose name is taken is set where the name first stands. -/
theorem Filled.setPart_of_mem {parts : List (String × Option Value)} (h : Filled parts) {name : String}
    (hname : name ∈ parts.map (·.1)) (value : Value) :
    ∃ parts', Filled parts' ∧ parts'.map (·.1) = parts.map (·.1) ∧
      ∀ rest, Assembly.setPart name value (parts ++ rest) = some (parts' ++ rest) := by
  induction h with
  | nil => exact absurd hname List.not_mem_nil
  | @first parts other old h fresh ih =>
    by_cases hearlier : name ∈ parts.map (·.1)
    · obtain ⟨parts', hfilled, hnames, hset⟩ := ih hearlier
      refine ⟨parts' ++ [(other, some old)], .first old hfilled (hnames ▸ fresh), ?_, fun rest => ?_⟩
      · rw [List.map_append, List.map_append, hnames]
      · rw [List.append_assoc, hset, List.append_assoc]
    · rw [List.map_append, List.mem_append] at hname
      obtain rfl : name = other := List.mem_singleton.1 (hname.resolve_left hearlier)
      refine ⟨parts ++ [(name, some value)], .first value h fresh, ?_, fun rest => ?_⟩
      · rw [List.map_append, List.map_append]
        rfl
      · rw [List.append_assoc, List.singleton_append, Mapper.setPart_append fresh, List.append_assoc]
        rfl
  | @again parts other h taken ih =>
    have hearlier : name ∈ parts.map (·.1) := by
      rw [List.map_append, List.mem_append] at hname
      rcases hname with hname | hname
      · exact hname
      · rwa [List.mem_singleton.1 hname]
    obtain ⟨parts', hfilled, hnames, hset⟩ := ih hearlier
    refine ⟨parts' ++ [(other, none)], .again hfilled (hnames ▸ taken), ?_, fun rest => ?_⟩
    · rw [List.map_append, List.map_append, hnames]
    · rw [List.append_assoc, hset, List.append_assoc]

/-- The next part is set in its own place if its name is new, and in an earlier one otherwise. -/
theorem Filled.setPart_next {filled : List (String × Option Value)} (h : Filled filled) (name : String)
    (value : Value) :
    ∃ next, Filled next ∧ next.map (·.1) = filled.map (·.1) ++ [name] ∧
      ∀ rest, Assembly.setPart name value (filled ++ (name, none) :: rest) = some (next ++ rest) := by
  by_cases htaken : name ∈ filled.map (·.1)
  · obtain ⟨parts, hparts, hnames, hset⟩ := h.setPart_of_mem htaken value
    refine ⟨parts ++ [(name, none)], .again hparts (hnames ▸ htaken), ?_, fun rest => ?_⟩
    · rw [List.map_append, hnames]
      rfl
    · rw [hset, List.append_assoc]
      rfl
  · refine ⟨filled ++ [(name, some value)], .first value h htaken, List.map_append, fun rest => ?_⟩
    rw [Mapper.setPart_append htaken, List.append_assoc]
    rfl

theorem partValues_append {type : LogicalType} {parts : List (String × Option Value)}
    (more : List (String × Option Value)) :
    partValues type (parts ++ more) =
      partValues type parts >>= fun vs => (partValues type more).map (vs ++ ·) := by
  induction parts with
  | nil =>
    rw [List.nil_append, partValues, ok_bind]
    cases partValues type more <;> rfl
  | cons p parts ih =>
    obtain ⟨name, value⟩ := p
    cases value with
    | none => rfl
    | some v =>
      rw [List.cons_append, partValues, partValues, ih]
      cases partValues type parts with
      | error e => rfl
      | ok vs => cases partValues type more <;> rfl

/-- Of parts that have been filled in every one is there, unless two have one name: the second of them is missing. -/
theorem Filled.partValues {parts : List (String × Option Value)} (h : Filled parts) (type : LogicalType) :
    (parts.map (·.1)).Nodup ∧ (∃ vs, Assembly.partValues type parts = .ok vs) ∨
      ∃ name, 1 < (parts.map (·.1)).count name ∧
        Assembly.partValues type parts = .error (.assembly type (.missingComponent name)) := by
  have later {parts more : List (String × Option Value)} {name : String} (hcount : 1 < (parts.map (·.1)).count name)
      (herror : Assembly.partValues type parts = .error (.assembly type (.missingComponent name))) :
      ∃ name, 1 < ((parts ++ more).map (·.1)).count name ∧
        Assembly.partValues type (parts ++ more) = .error (.assembly type (.missingComponent name)) := by
    refine ⟨name, ?_, ?_⟩
    · rw [List.map_append, List.count_append]
      omega
    · rw [partValues_append, herror]
      rfl
  induction h with
  | nil => exact .inl ⟨List.nodup_nil, [], rfl⟩
  | @first parts name value h fresh ih =>
    rcases ih with ⟨hnodup, vs, hvalues⟩ | ⟨other, hcount, herror⟩
    · refine .inl ⟨?_, vs ++ [value], ?_⟩
      · rw [List.map_append, List.map_singleton, List.nodup_append]
        refine ⟨hnodup, List.pairwise_singleton _ _, fun n hn m hm heq => fresh ?_⟩
        rwa [heq, List.mem_singleton.1 hm] at hn
      · rw [partValues_append, hvalues]
        rfl
    · exact .inr (later hcount herror)
  | @again parts name h taken ih =>
    rcases ih with ⟨-, vs, hvalues⟩ | ⟨other, hcount, herror⟩
    · refine .inr ⟨name, ?_, ?_⟩
      · have htaken := List.count_pos_iff.2 taken
        rw [List.map_append, List.count_append, List.map_singleton, List.count_singleton_self]
        omega
      · rw [partValues_append, hvalues]
        rfl
    · exact .inr (later hcount herror)

end Assembly

namespace Mapper

open Segment Assembly

/-- Adds what every link gives, one link after the other. -/
def contribute (given : Link → Except Error Value) : List Link → Assembly → Except Error Assembly
  | [], a => .ok a
  | l :: ls, a => do
    let v ← given l
    let a ← a.put l.part v
    contribute given ls a

/-- The value that is built of what every link gives, where the first link puts values together. -/
def rebuilt (m : Mapper) (given : Link → Except Error Value) : Option (Except Error Value) :=
  m.first.assembly.map fun a => contribute given m.links a >>= Assembly.build

theorem contribute_congr {f g : Link → Except Error Value} {ls : List Link} (h : ∀ l ∈ ls, f l = g l) (a : Assembly) :
    contribute f ls a = contribute g ls a := by
  induction ls generalizing a with
  | nil => rfl
  | cons l ls ih =>
    obtain ⟨hl, hls⟩ := List.forall_mem_cons.1 h
    simp only [contribute, hl, ih hls]

theorem rebuilt_congr {m : Mapper} {f g : Link → Except Error Value} (h : ∀ l ∈ m.links, f l = g l) :
    m.rebuilt f = m.rebuilt g := by
  simp only [rebuilt, contribute_congr h]

theorem collect_eq_contribute (v : Value) (ls : List Link) (a : Assembly) :
    collect v ls a = contribute (fun l => stored l v) ls a := by
  induction ls generalizing a with
  | nil => rfl
  | cons l ls ih => simp only [collect, contribute, ih]

theorem contribute_filled (type : LogicalType) {given : Link → Except Error Value} {ls : List Link}
    (hgiven : ∀ l ∈ ls, ∃ v, given l = .ok v) {filled : List (String × Option Value)} (h : Filled filled) :
    ∃ parts, contribute given ls (.composite type (filled ++ ls.map fun l => (l.part, none))) =
        .ok (.composite type parts) ∧ Filled parts ∧ parts.map (·.1) = filled.map (·.1) ++ ls.map (·.part) := by
  -- Every link moves one part over to those that have been filled in, whether or not its name is taken.
  induction ls generalizing filled with
  | nil =>
    refine ⟨filled, ?_, h, (List.append_nil _).symm⟩
    rw [List.map_nil, List.append_nil]
    rfl
  | cons l ls ih =>
    obtain ⟨⟨v, hv⟩, hls⟩ := List.forall_mem_cons.1 hgiven
    obtain ⟨next, hnext, hnames, hset⟩ := h.setPart_next l.part v
    obtain ⟨parts, hparts, hfilled, hall⟩ := ih hls hnext
    refine ⟨parts, ?_, hfilled, ?_⟩
    · rw [contribute, hv, ok_bind, List.map_cons, put, hset]
      exact hparts
    · rw [hall, hnames, List.append_assoc]
      rfl

section Composite

variable {name : String} {cs : List Component} {m : Mapper} (made : composite name cs = .ok m)

include made

/-- The chain visits every component once and in order. -/
theorem links_visit_composite :
    (m.links.map fun l => (l.part, l.target)) = cs.map fun c => (c.name, Target.logical c.type) := by
  rw [links_of_composite made]
  exact List.ext_getElem (by simp) fun i _ _ => by simp [componentLink]

theorem parts_of_composite : m.links.map (·.part) = cs.map (·.name) := by
  have hvisit := congrArg (List.map Prod.fst) (links_visit_composite made)
  rwa [List.map_map, List.map_map] at hvisit

theorem assembly_of_composite :
    m.first.assembly = some (.composite (.named name) (m.links.map fun l => (l.part, none))) := by
  obtain ⟨c, rest, -, hfirst⟩ := first_of_composite made
  have hopen : (m.links.map fun l => (l.part, (none : Option Value))) =
      (cs.map (·.name)).map fun n => (n, none) := by
    rw [← parts_of_composite made, List.map_map]
    rfl
  rw [hopen, hfirst]
  rfl

/-- If the first component of a value is stored, then all of them are, in order. -/
theorem parts_of_toTarget {parts : List Value} {w : Value} (h : m.first.toTarget (.record parts) = .ok w) :
    m.links.mapM (fun l => l.toTarget (.record parts)) = .ok parts := by
  obtain ⟨c, rest, -, hfirst⟩ := first_of_composite made
  rw [hfirst] at h
  obtain ⟨ws, hcount, hstores, hvalue⟩ := parts_of_stored (v := .record parts) h
  obtain rfl : ws = parts := by
    split at hvalue
    · cases hvalue
    · exact Value.record.inj hvalue
  rw [links_of_composite made, mapM_eq_ok, List.forall₂_iff_get]
  refine ⟨by rw [List.length_mapIdx, hcount], fun i hi hi' => ?_⟩
  rw [List.get_eq_getElem, List.get_eq_getElem, List.getElem_mapIdx]
  refine (hstores i _).trans (congrArg Except.ok ?_)
  rw [List.getD_eq_getElem?_getD, List.getElem?_eq_getElem hi', Option.getD_some]

theorem stored_null_of_mem_links {l : Link} (h : l ∈ m.links) : stored l .null = .ok .null := by
  rw [links_of_composite made] at h
  obtain ⟨i, hi, rfl⟩ := List.mem_mapIdx.1 h
  rfl

/-- Where two components share a name, nothing is built of any parts. -/
theorem rebuilt_of_not_nodup (h : ¬ (cs.map (·.name)).Nodup) {given : Link → Except Error Value}
    (hgiven : ∀ l ∈ m.links, ∃ v, given l = .ok v) :
    ∃ n, 1 < (cs.map (·.name)).count n ∧
      m.rebuilt given = some (.error (.assembly (.named name) (.missingComponent n))) := by
  obtain ⟨parts, hparts, hfilled, hnames⟩ := contribute_filled (.named name) hgiven .nil
  rw [List.map_nil, List.nil_append, parts_of_composite made] at hnames
  rw [List.nil_append] at hparts
  rcases hfilled.partValues (.named name) with ⟨hnodup, -⟩ | ⟨n, hcount, herror⟩
  · exact absurd (hnames ▸ hnodup) h
  · refine ⟨n, hnames ▸ hcount, ?_⟩
    rw [rebuilt, assembly_of_composite made, Option.map_some, hparts, ok_bind, build, herror]

/-- Where every component has a name of its own, the stored forms of a value build it again. -/
theorem rebuilt_of_nodup (h : (cs.map (·.name)).Nodup) {v w : Value} (hw : stored m.first v = .ok w) :
    m.rebuilt (fun l => stored l v) = some (.ok v) := by
  obtain ⟨a, b, ha, hcollect, hbuild⟩ := assembles_composite h made hw
  rw [collect_eq_contribute] at hcollect
  rw [rebuilt, ha, Option.map_some, hcollect, ok_bind, hbuild]

theorem rebuilt_eq_iff {v w : Value} (hw : stored m.first v = .ok w)
    (hall : ∀ l ∈ m.links, ∃ u, stored l v = .ok u) :
    m.rebuilt (fun l => stored l v) = some (.ok v) ↔ (cs.map (·.name)).Nodup := by
  refine ⟨fun hbuilt => ?_, fun h => rebuilt_of_nodup made h hw⟩
  by_contra h
  obtain ⟨n, -, herror⟩ := rebuilt_of_not_nodup made h hall
  rw [herror] at hbuilt
  cases hbuilt

end Composite

/-- A chain visits every component once and in order, and the parts of a value build the value again, as nulls build
null, exactly if every component has a name of its own. If two have one name, nothing is built of any parts. -/
theorem composite_rebuilds_iff {name : String} {cs : List Component} {m : Mapper} (made : composite name cs = .ok m) :
    (m.links.map fun l => (l.part, l.target)) = cs.map (fun c => (c.name, Target.logical c.type)) ∧
      (∀ parts w, m.first.toTarget (.record parts) = .ok w →
        m.links.mapM (fun l => l.toTarget (.record parts)) = .ok parts ∧
          (m.rebuilt (fun l => l.toTarget (.record parts)) = some (.ok (.record parts)) ↔ (cs.map (·.name)).Nodup)) ∧
      (m.rebuilt (fun _ => .ok .null) = some (.ok .null) ↔ (cs.map (·.name)).Nodup) ∧
      (¬ (cs.map (·.name)).Nodup → ∀ given, (∀ l ∈ m.links, ∃ v, given l = .ok v) →
        ∃ n, 1 < (cs.map (·.name)).count n ∧
          m.rebuilt given = some (.error (.assembly (.named name) (.missingComponent n)))) := by
  refine ⟨links_visit_composite made, fun parts w hw => ⟨parts_of_toTarget made hw, ?_⟩, ?_, ?_⟩
  · refine rebuilt_eq_iff made (v := .record parts) hw fun l hl => ?_
    have hall := mapM_eq_ok.1 (parts_of_toTarget made hw)
    obtain ⟨u, -, hu⟩ := exists_of_mem_right hall.flip hl
    exact ⟨u, hu⟩
  · have hnull : ∀ l ∈ m.links, stored l .null = .ok .null := fun l hl => stored_null_of_mem_links made hl
    have hiff := rebuilt_eq_iff made (hnull _ List.mem_cons_self) fun l hl => ⟨_, hnull l hl⟩
    rwa [rebuilt_congr hnull] at hiff
  · exact fun h given hgiven => rebuilt_of_not_nodup made h hgiven

private def pointComponents : List Component := [⟨"x", .float⟩, ⟨"y", .float⟩]

private def twinComponents : List Component := [⟨"x", .long⟩, ⟨"y", .long⟩, ⟨"x", .long⟩]

/-- A point of which one coordinate is null, and three components of which two share a name. -/
theorem composite_rebuilds_point :
    (∃ m, composite "Point" pointComponents = .ok m ∧
      m.rebuilt (fun l => l.toTarget (.record [.null, .int 2])) = some (.ok (.record [.null, .int 2])) ∧
      m.rebuilt (fun _ => .ok .null) = some (.ok .null)) ∧
    ∃ m n, composite "Twins" twinComponents = .ok m ∧ 1 < (twinComponents.map (·.name)).count n ∧
      m.rebuilt (fun l => l.toTarget (.record [.int 1, .null, .int 3])) =
        some (.error (.assembly (.named "Twins") (.missingComponent n))) := by
  constructor
  · have hnodup : (pointComponents.map (·.name)).Nodup := by decide
    obtain ⟨-, hrecord, hnull, -⟩ := @composite_rebuilds_iff "Point" pointComponents _ rfl
    exact ⟨_, rfl, (hrecord [.null, .int 2] .null rfl).2.2 hnodup, hnull.2 hnodup⟩
  · have hnodup : ¬ (twinComponents.map (·.name)).Nodup := by decide
    obtain ⟨-, hrecord, -, htwice⟩ := @composite_rebuilds_iff "Twins" twinComponents _ rfl
    have hparts := mapM_eq_ok.1 (hrecord [.int 1, .null, .int 3] (.int 1) rfl).1
    obtain ⟨n, hcount, herror⟩ := htwice hnodup (fun l => l.toTarget (.record [.int 1, .null, .int 3])) fun l hl => by
      obtain ⟨u, -, hu⟩ := exists_of_mem_right hparts.flip hl
      exact ⟨u, hu⟩
    exact ⟨_, n, rfl, hcount, herror⟩

/-- Two components of one name: the value is taken apart, but neither it nor null is built of its parts. -/
theorem not_rebuilt_twoNamedAlike :
    ∃ m, composite "P" [⟨"x", .long⟩, ⟨"x", .long⟩] = .ok m ∧
      m.links.mapM (fun l => l.toTarget (.record [.int 1, .int 2])) = .ok [.int 1, .int 2] ∧
      m.rebuilt (fun l => l.toTarget (.record [.int 1, .int 2])) =
        some (.error (.assembly (.named "P") (.missingComponent "x"))) ∧
      m.rebuilt (fun _ => .ok .null) = some (.error (.assembly (.named "P") (.missingComponent "x"))) :=
  ⟨_, rfl, rfl, rfl, rfl⟩

end Mapper

end Clausal
