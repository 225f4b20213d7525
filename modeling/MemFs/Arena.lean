/-!
# Arenas

An arena hands out a new key for every value that is put in and never hands out a key again, not
even after the value was freed. A key of a freed value stays without a value for ever.
-/

namespace MemFs

/-- Values under keys that are never reused. Freed values leave an empty slot. -/
structure Arena (α : Type) where
  slots : List (Option α)
deriving DecidableEq, Repr

namespace Arena

variable {α : Type}

def empty : Arena α := ⟨[]⟩

/-- The number of keys handed out so far, which is also the next key. -/
def size (arena : Arena α) : Nat :=
  arena.slots.length

def get? (arena : Arena α) (key : Nat) : Option α :=
  arena.slots[key]?.join

/-- Puts a value in under the next key. -/
def push (arena : Arena α) (value : α) : Arena α :=
  ⟨arena.slots ++ [some value]⟩

def modify (arena : Arena α) (key : Nat) (change : α → α) : Arena α :=
  ⟨arena.slots.modify key (Option.map change)⟩

def free (arena : Arena α) (key : Nat) : Arena α :=
  ⟨arena.slots.modify key fun _ => none⟩

/-- Frees the values whose keys are not to be kept. -/
def keep (arena : Arena α) (kept : Nat → Bool) : Arena α :=
  ⟨arena.slots.mapIdx fun key slot => if kept key then slot else none⟩

/-- The values, in the order of their keys. -/
def values (arena : Arena α) : List α :=
  arena.slots.filterMap id

/-- The keys that have a value, in ascending order. -/
def keys (arena : Arena α) : List Nat :=
  (List.range arena.size).filter fun key => (arena.get? key).isSome

/-! ## Looking up after a change -/

@[simp]
theorem size_push (arena : Arena α) (value : α) : (arena.push value).size = arena.size + 1 := by
  simp [size, push]

@[simp]
theorem size_modify (arena : Arena α) (key : Nat) (change : α → α) :
    (arena.modify key change).size = arena.size := by
  simp [size, modify]

@[simp]
theorem size_free (arena : Arena α) (key : Nat) : (arena.free key).size = arena.size := by
  simp [size, free]

@[simp]
theorem size_keep (arena : Arena α) (kept : Nat → Bool) : (arena.keep kept).size = arena.size := by
  simp [size, keep]

theorem lt_size_of_get?_eq_some {arena : Arena α} {key : Nat} {value : α}
    (found : arena.get? key = some value) : key < arena.size := by
  unfold get? at found
  cases slot : arena.slots[key]? with
  | none => simp [slot] at found
  | some _ => exact (List.getElem?_eq_some_iff.mp slot).1

theorem get?_eq_none_of_size_le {arena : Arena α} {key : Nat} (large : arena.size ≤ key) :
    arena.get? key = none := by
  simp only [get?, size] at *
  simp [List.getElem?_eq_none large]

theorem get?_push (arena : Arena α) (value : α) (key : Nat) :
    (arena.push value).get? key = if key = arena.size then some value else arena.get? key := by
  simp only [get?, push, size, List.getElem?_append]
  by_cases before : key < arena.slots.length
  · simp [before, Nat.ne_of_lt before]
  · by_cases same : key = arena.slots.length
    · simp [same]
    · have beyond : ¬ key - arena.slots.length = 0 := by omega
      simp [before, same, beyond]

theorem get?_modify (arena : Arena α) (target : Nat) (change : α → α) (key : Nat) :
    (arena.modify target change).get? key =
      if key = target then (arena.get? key).map change else arena.get? key := by
  simp only [get?, modify, List.getElem?_modify]
  by_cases same : key = target
  · subst same
    cases arena.slots[key]? <;> simp
  · have different : ¬ target = key := fun equal => same equal.symm
    simp [same, different]

theorem get?_free (arena : Arena α) (target key : Nat) :
    (arena.free target).get? key = if key = target then none else arena.get? key := by
  simp only [get?, free, List.getElem?_modify]
  by_cases same : key = target
  · subst same
    cases arena.slots[key]? <;> simp
  · have different : ¬ target = key := fun equal => same equal.symm
    simp [same, different]

theorem get?_keep (arena : Arena α) (kept : Nat → Bool) (key : Nat) :
    (arena.keep kept).get? key = if kept key then arena.get? key else none := by
  simp only [get?, keep, List.getElem?_mapIdx]
  cases arena.slots[key]? <;> by_cases keeps : kept key <;> simp [keeps]

end Arena

end MemFs
