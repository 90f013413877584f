/-!
# Dictionaries

A finite map from strings, kept as a list in the order of its keys. Strings are ordered by their code
points, which is also the order of their UTF-8 bytes. A dictionary is known by what `get?` gives:
`insert` and `erase` change one key and leave the others, and two dictionaries that give every key the
same value are the same.
-/

namespace Clausal

/-- A finite map from strings, in the order of the keys. -/
structure Dictionary (α : Type) where
  entries : List (String × α)
  sorted : entries.Pairwise fun a b => a.1 < b.1

namespace Dictionary

variable {α : Type}

def empty : Dictionary α := ⟨[], .nil⟩

instance : Inhabited (Dictionary α) := ⟨empty⟩

instance [DecidableEq α] : DecidableEq (Dictionary α) := fun a b =>
  decidable_of_iff (a.entries = b.entries) ⟨fun h => by cases a; cases b; simp_all, fun h => h ▸ rfl⟩

def get? (d : Dictionary α) (key : String) : Option α :=
  (d.entries.find? fun e => e.1 == key).map (·.2)

def contains (d : Dictionary α) (key : String) : Bool := d.entries.any fun e => e.1 == key

def size (d : Dictionary α) : Nat := d.entries.length

/-- Puts an entry in its place, instead of one with the same key. -/
def insertEntry (key : String) (value : α) : List (String × α) → List (String × α)
  | [] => [(key, value)]
  | e :: rest =>
    if key < e.1 then (key, value) :: e :: rest
    else if key = e.1 then (key, value) :: rest
    else e :: insertEntry key value rest

theorem mem_insertEntry {key : String} {value : α} {e : String × α} {entries : List (String × α)}
    (h : e ∈ insertEntry key value entries) : e = (key, value) ∨ e ∈ entries := by
  induction entries with
  | nil => simpa [insertEntry] using h
  | cons f rest ih =>
    unfold insertEntry at h
    split at h
    · simpa using h
    split at h
    · rcases List.mem_cons.1 h with h | h
      · exact .inl h
      · exact .inr (List.mem_cons_of_mem _ h)
    · rcases List.mem_cons.1 h with h | h
      · exact .inr (by simp [h])
      · exact (ih h).imp_right (List.mem_cons_of_mem _)

theorem pairwise_insertEntry {key : String} {value : α} {entries : List (String × α)}
    (h : entries.Pairwise fun a b => a.1 < b.1) :
    (insertEntry key value entries).Pairwise fun a b => a.1 < b.1 := by
  induction entries with
  | nil => simp [insertEntry]
  | cons f rest ih =>
    obtain ⟨hf, hrest⟩ := List.pairwise_cons.1 h
    unfold insertEntry
    split
    · rename_i hlt
      refine List.pairwise_cons.2 ⟨fun e he => ?_, h⟩
      rcases List.mem_cons.1 he with rfl | he
      · exact hlt
      · exact String.lt_trans hlt (hf e he)
    split
    · rename_i heq
      exact List.pairwise_cons.2 ⟨fun e he => heq ▸ hf e he, hrest⟩
    · rename_i hge hne
      refine List.pairwise_cons.2 ⟨fun e he => ?_, ih hrest⟩
      rcases mem_insertEntry he with rfl | he
      · have hle : f.1 ≤ key := String.not_lt.1 hge
        exact String.not_le.1 fun hle' => hne (String.le_antisymm hle' hle)
      · exact hf e he

/-- Puts a value under a key, instead of the one that was there. -/
def insert (d : Dictionary α) (key : String) (value : α) : Dictionary α :=
  ⟨insertEntry key value d.entries, pairwise_insertEntry d.sorted⟩

def erase (d : Dictionary α) (key : String) : Dictionary α :=
  ⟨d.entries.filter fun e => e.1 != key, d.sorted.filter _⟩

/-- The dictionary of a list of entries; a later entry takes the place of an earlier one. -/
def ofList (entries : List (String × α)) : Dictionary α :=
  entries.foldl (fun d e => d.insert e.1 e.2) empty

theorem find?_insertEntry (key other : String) (value : α) (entries : List (String × α)) :
    (insertEntry key value entries).find? (fun e => e.1 == other) =
      if key = other then some (key, value) else entries.find? fun e => e.1 == other := by
  induction entries with
  | nil => by_cases h : key = other <;> simp [insertEntry, h]
  | cons f rest ih =>
    unfold insertEntry
    split
    · by_cases h : key = other <;> simp [h]
    split
    · rename_i hkey
      by_cases h : key = other
      · simp [h]
      · have hf : ¬ f.1 = other := fun hf => h (hkey.trans hf)
        simp [h, hf]
    · rename_i hkey
      by_cases hf : f.1 = other
      · have h : ¬ key = other := fun h => hkey (h.trans hf.symm)
        simp [h, hf]
      · simp [hf, ih]

@[simp] theorem get?_empty (key : String) : (empty : Dictionary α).get? key = none := rfl

/-- An inserted value is found under its key, and the other keys keep theirs. -/
theorem get?_insert (d : Dictionary α) (key other : String) (value : α) :
    (d.insert key value).get? other = if key = other then some value else d.get? other := by
  simp only [get?, insert, find?_insertEntry]
  split <;> rfl

/-- An erased key has no value, and the other keys keep theirs. -/
theorem get?_erase (d : Dictionary α) (key other : String) :
    (d.erase key).get? other = if key = other then none else d.get? other := by
  simp only [get?, erase, List.find?_filter]
  by_cases h : key = other
  · simp [h]
  · have same : ∀ e : String × α,
        (!decide (e.1 = key) && decide (e.1 = other)) = decide (e.1 = other) := by
      intro e
      by_cases he : e.1 = other
      · simp [he, Ne.symm h]
      · simp [he]
    simp [h, same]
    rfl

theorem contains_eq_isSome (d : Dictionary α) (key : String) :
    d.contains key = (d.get? key).isSome := by
  simp [contains, get?, List.isSome_find?]

/-- The entries are the keys with their values. -/
theorem mem_entries_iff (d : Dictionary α) (key : String) (value : α) :
    (key, value) ∈ d.entries ↔ d.get? key = some value := by
  obtain ⟨entries, sorted⟩ := d
  simp only [get?, Option.map_eq_some_iff]
  induction entries with
  | nil => simp
  | cons f rest ih =>
    obtain ⟨hf, hrest⟩ := List.pairwise_cons.1 sorted
    by_cases h : f.1 = key
    · subst h
      simp only [List.mem_cons, List.find?_cons, beq_self_eq_true, Option.some.injEq, exists_eq_left']
      constructor
      · rintro (h | h)
        · exact h ▸ rfl
        · exact absurd (hf _ h) (String.lt_irrefl _)
      · rintro rfl
        exact .inl rfl
    · have hne : ¬ (key, value) = f := fun he => h (he ▸ rfl)
      simp [h, hne, ih hrest]

theorem nodup_keys (d : Dictionary α) : (d.entries.map (·.1)).Nodup :=
  List.pairwise_map.2 (d.sorted.imp fun h => String.ne_of_lt h)

theorem mem_keys_iff (d : Dictionary α) (key : String) : key ∈ d.entries.map (·.1) ↔ d.contains key = true := by
  simp [contains]

end Dictionary

end Clausal
