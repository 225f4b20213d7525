import MemFs.Arena

/-!
# Values of an arena
-/

namespace MemFs.Arena

variable {α : Type}

/-- A value is in an arena exactly if it is under some key. -/
theorem mem_values_iff {arena : Arena α} {value : α} :
    value ∈ arena.values ↔ ∃ key, arena.get? key = some value := by
  obtain ⟨slots⟩ := arena
  simp only [values, get?, List.mem_filterMap, id_eq, Option.join_eq_some_iff]
  constructor
  · rintro ⟨slot, listed, rfl⟩
    exact List.mem_iff_getElem?.mp listed
  · rintro ⟨key, found⟩
    exact ⟨some value, List.mem_iff_getElem?.mpr ⟨key, found⟩, rfl⟩

/-! ## Keys -/

theorem mem_keys_iff {arena : Arena α} {key : Nat} :
    key ∈ arena.keys ↔ (arena.get? key).isSome = true := by
  rw [keys, List.mem_filter, List.mem_range, and_iff_right_iff_imp]
  intro present
  obtain ⟨value, found⟩ := Option.isSome_iff_exists.mp present
  exact lt_size_of_get?_eq_some found

theorem length_keys_le_size (arena : Arena α) : arena.keys.length ≤ arena.size := by
  have fewer := List.length_filter_le (fun key => (arena.get? key).isSome) (List.range arena.size)
  rwa [List.length_range] at fewer

theorem keys_keep (arena : Arena α) (kept : Nat → Bool) :
    (arena.keep kept).keys = arena.keys.filter kept := by
  rw [keys, keys, size_keep, List.filter_filter]
  refine List.filter_congr fun key _ => ?_
  rw [get?_keep]
  cases kept key <;> simp

end MemFs.Arena
