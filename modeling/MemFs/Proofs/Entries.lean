import MemFs.Entries

/-!
# Entries as finite maps

Entries are told apart by what `find?` finds in them. This module reads membership, emptiness and
the search for a value through `find?`, and says what a move does.
-/

namespace MemFs.Entries

variable {α : Type}

/-- An entry is listed exactly if it is found under its name. -/
theorem mem_toList_iff {entries : Entries α} {name : String} {value : α} :
    (name, value) ∈ entries.toList ↔ entries.find? name = some value := by
  obtain ⟨items, sorted⟩ := entries
  simp only [find?]
  induction items with
  | nil => simp
  | cons head rest inductionHypothesis =>
      obtain ⟨first, held⟩ := head
      obtain ⟨least, restSorted⟩ := List.pairwise_cons.mp sorted
      have later := inductionHypothesis restSorted
      rw [List.mem_cons, lookup_cons_eq]
      by_cases atHead : name = first
      · subst atHead
        have absent : (name, value) ∉ rest := by
          intro member
          exact String.lt_irrefl name (least _ member)
        simp [absent, eq_comm]
      · simp [atHead, later]

/-- A value is held exactly if it is found under some name. -/
theorem mem_values_iff {entries : Entries α} {value : α} :
    value ∈ entries.values ↔ ∃ name, entries.find? name = some value := by
  constructor
  · intro member
    obtain ⟨⟨name, held⟩, listed, same⟩ := List.mem_map.mp member
    exact ⟨name, mem_toList_iff.mp (same ▸ listed)⟩
  · rintro ⟨name, found⟩
    exact List.mem_map.mpr ⟨(name, value), mem_toList_iff.mpr found, rfl⟩

theorem contains_eq_false_iff {entries : Entries α} {name : String} :
    entries.contains name = false ↔ entries.find? name = none := by
  simp [contains]

theorem find?_eq_none_of_isEmpty {entries : Entries α} (empty : entries.isEmpty = true)
    (name : String) : entries.find? name = none := by
  have none : entries.toList = [] := List.isEmpty_iff.mp empty
  simp [find?, none]

/-- The name that a search gives is one under which a value that meets the condition is found. -/
theorem find?_of_nameOf?_eq_some {entries : Entries α} {condition : α → Bool} {name : String}
    (first : entries.nameOf? condition = some name) :
    ∃ value, entries.find? name = some value ∧ condition value = true := by
  obtain ⟨⟨key, value⟩, found, same⟩ := Option.map_eq_some_iff.mp first
  have met := List.find?_some found
  have listed := List.mem_of_find?_eq_some found
  exact ⟨value, mem_toList_iff.mp (same ▸ listed), met⟩

/-- A search for a value that is held gives a name. -/
theorem exists_nameOf?_of_find? {entries : Entries α} (condition : α → Bool) {name : String}
    {value : α} (found : entries.find? name = some value) (met : condition value = true) :
    ∃ first, entries.nameOf? condition = some first := by
  have searched : (entries.toList.find? fun entry => condition entry.2).isSome = true :=
    List.find?_isSome.mpr ⟨(name, value), mem_toList_iff.mpr found, met⟩
  obtain ⟨entry, first⟩ := Option.isSome_iff_exists.mp searched
  exact ⟨entry.1, by rw [nameOf?, first, Option.map_some]⟩

/-- A move to a free name takes the value from its old name to the new one. -/
theorem find?_move {entries : Entries α} {old new : String} {value : α}
    (found : entries.find? old = some value) (key : String) :
    (entries.move old new).find? key =
      if key = new then some value
      else if key = old then none
      else entries.find? key := by
  rw [move, found]
  simp only [find?_insert, find?_erase]

/-- A move to a free name keeps all values. -/
theorem exists_find?_move_iff {entries : Entries α} {old new : String} {value held : α}
    (found : entries.find? old = some held) (free : entries.find? new = none) :
    (∃ key, (entries.move old new).find? key = some value) ↔
      ∃ key, entries.find? key = some value := by
  simp only [find?_move found]
  constructor
  · rintro ⟨key, here⟩
    split at here
    · exact ⟨old, found.trans here⟩
    · split at here
      · cases here
      · exact ⟨key, here⟩
  · rintro ⟨key, here⟩
    by_cases atOld : key = old
    · subst atOld
      exact ⟨new, by rw [if_pos rfl, ← found, here]⟩
    · have notNew : key ≠ new := by
        intro same
        rw [same, free] at here
        cases here
      exact ⟨key, by rw [if_neg notNew, if_neg atOld, here]⟩

end MemFs.Entries
