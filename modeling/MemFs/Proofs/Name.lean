import MemFs.Name

/-!
# Names that operations accept
-/

namespace MemFs.Name

/-- A metadata write changes a name to a valid one only. -/
theorem isValid_of_replacement? {stored shown requested name : String}
    (wanted : replacement? stored shown requested = .ok (some name)) : isValid name = true := by
  unfold replacement? at wanted
  split at wanted
  · cases wanted
  · split at wanted
    · rename_i valid
      cases wanted
      exact valid
    · cases wanted

/-- A metadata write changes a name to the one that it shows. -/
theorem eq_of_replacement? {stored shown requested name : String}
    (wanted : replacement? stored shown requested = .ok (some name)) : name = requested := by
  unfold replacement? at wanted
  split at wanted
  · cases wanted
  · split at wanted
    · cases wanted
      rfl
    · cases wanted

theorem ne_empty_of_isValid {name : String} (valid : isValid name = true) : name ≠ "" := by
  rintro rfl
  exact absurd valid (by decide)

theorem ne_slash_of_isValid {name : String} (valid : isValid name = true) : name ≠ "/" := by
  rintro rfl
  exact absurd valid (by decide)

theorem ne_dot_of_isValid {name : String} (valid : isValid name = true) : name ≠ "." := by
  rintro rfl
  exact absurd valid (by decide)

theorem ne_dots_of_isValid {name : String} (valid : isValid name = true) : name ≠ ".." := by
  rintro rfl
  exact absurd valid (by decide)

end MemFs.Name
