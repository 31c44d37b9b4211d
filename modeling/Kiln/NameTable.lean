/-!
# Tables of names

A table gives each of its names one value.  The names are kept in the order of
their code points.
-/

namespace Kiln

/-- Values by name. -/
structure NameTable (α : Type) where
  entries : List (String × α)

namespace NameTable

variable {α : Type}

/-- The table without names. -/
def empty : NameTable α := ⟨[]⟩

/-- The value of a name. -/
def find? (table : NameTable α) (name : String) : Option α :=
  (table.entries.find? fun entry => entry.1 == name).map (·.2)

/-- Whether a name has a value. -/
def contains (table : NameTable α) (name : String) : Bool :=
  (table.find? name).isSome

/-- Puts an entry in its place, instead of one of the same name. -/
def insertEntry (name : String) (value : α) : List (String × α) → List (String × α)
  | [] => [(name, value)]
  | entry :: entries =>
    if name = entry.1 then (name, value) :: entries
    else if name < entry.1 then (name, value) :: entry :: entries
    else entry :: insertEntry name value entries

/-- Gives a name a value, instead of the one it may have. -/
def insert (table : NameTable α) (name : String) (value : α) : NameTable α :=
  ⟨insertEntry name value table.entries⟩

/-- Removes a name. -/
def erase (table : NameTable α) (name : String) : NameTable α :=
  ⟨table.entries.filter fun entry => entry.1 != name⟩

/-- The names in order. -/
def names (table : NameTable α) : List String := table.entries.map (·.1)

/-- The number of names. -/
def size (table : NameTable α) : Nat := table.entries.length

/-- Whether there is no name. -/
def isEmpty (table : NameTable α) : Bool := table.entries.isEmpty

/-! ## Finding and inserting -/

theorem find?_empty (name : String) : (empty : NameTable α).find? name = none := rfl

theorem find?_cons (entry : String × α) (entries : List (String × α)) (name : String) :
    find? ⟨entry :: entries⟩ name =
      if entry.1 = name then some entry.2 else find? ⟨entries⟩ name := by
  rw [find?, find?, List.find?_cons]
  by_cases h : entry.1 = name
  · rw [if_pos h, beq_iff_eq.2 h, Option.map_some]
  · rw [if_neg h, beq_false_of_ne h]

/-- A name that was inserted has its value, and the others have the values they had. -/
theorem find?_insert (table : NameTable α) (name : String) (value : α) (other : String) :
    (table.insert name value).find? other =
      if name = other then some value else table.find? other := by
  obtain ⟨entries⟩ := table
  rw [insert]
  induction entries with
  | nil => exact find?_cons (name, value) [] other
  | cons entry entries ih =>
      rw [insertEntry]
      by_cases hsame : name = entry.1
      · rw [if_pos hsame, find?_cons, find?_cons, ← hsame]
        by_cases hother : name = other
        · rw [if_pos hother, if_pos hother]
        · rw [if_neg hother, if_neg hother, if_neg hother]
      · rw [if_neg hsame]
        by_cases hbefore : name < entry.1
        · rw [if_pos hbefore, find?_cons]
        · rw [if_neg hbefore, find?_cons, find?_cons, ih]
          by_cases hother : entry.1 = other
          · rw [if_pos hother, if_pos hother, if_neg fun h => hsame (h.trans hother.symm)]
          · rw [if_neg hother, if_neg hother]

/-- The names are those that have a value. -/
theorem mem_names_iff (table : NameTable α) (name : String) :
    name ∈ table.names ↔ ∃ value, table.find? name = some value := by
  obtain ⟨entries⟩ := table
  induction entries with
  | nil => simp [names, find?]
  | cons entry entries ih =>
      rw [names, List.map_cons, List.mem_cons, find?_cons]
      by_cases h : entry.1 = name
      · rw [if_pos h]
        exact ⟨fun _ => ⟨entry.2, rfl⟩, fun _ => Or.inl h.symm⟩
      · rw [if_neg h, ← ih]
        exact or_iff_right (Ne.symm h)

/-- The names stand in order, each of them once. -/
def Ordered (table : NameTable α) : Prop := table.names.Pairwise (· < ·)

theorem ordered_empty : (empty : NameTable α).Ordered := List.Pairwise.nil

theorem mem_names_insert (table : NameTable α) (name : String) (value : α) (other : String) :
    other ∈ (table.insert name value).names ↔ other = name ∨ other ∈ table.names := by
  rw [mem_names_iff, mem_names_iff, find?_insert]
  by_cases h : name = other
  · rw [if_pos h]
    exact ⟨fun _ => Or.inl h.symm, fun _ => ⟨value, rfl⟩⟩
  · rw [if_neg h]
    exact (or_iff_right (Ne.symm h)).symm

/-- Inserting a name keeps the order. -/
theorem Ordered.insert {table : NameTable α} (h : table.Ordered) (name : String) (value : α) :
    (table.insert name value).Ordered := by
  obtain ⟨entries⟩ := table
  induction entries with
  | nil => exact List.pairwise_singleton _ _
  | cons entry entries ih =>
      obtain ⟨hfirst, hrest⟩ := List.pairwise_cons.1 h
      rw [NameTable.insert, insertEntry]
      by_cases hsame : name = entry.1
      · rw [if_pos hsame, Ordered, names, List.map_cons, hsame]
        exact List.pairwise_cons.2 ⟨hfirst, hrest⟩
      · rw [if_neg hsame]
        by_cases hbefore : name < entry.1
        · rw [if_pos hbefore]
          refine List.pairwise_cons.2 ⟨fun other hother => ?_, h⟩
          cases List.mem_cons.1 hother with
          | inl hentry => exact hentry ▸ hbefore
          | inr hmem => exact String.lt_trans hbefore (hfirst other hmem)
        · rw [if_neg hbefore]
          have hafter : entry.1 < name := Std.lt_of_le_of_ne hbefore (Ne.symm hsame)
          refine List.pairwise_cons.2 ⟨fun other hother => ?_, ih hrest⟩
          cases (mem_names_insert ⟨entries⟩ name value other).1 hother with
          | inl hname => exact hname ▸ hafter
          | inr hmem => exact hfirst other hmem

/-- No name stands twice. -/
theorem Ordered.nodup {table : NameTable α} (h : table.Ordered) : table.names.Nodup := by
  refine List.Pairwise.imp ?_ h
  rintro name _ hlt rfl
  exact String.lt_irrefl name hlt

end NameTable
end Kiln
