/-!
# Directory entries

Entries are values under names, each name once, in ascending order of the names. The order is by
code points, which is also the order of the UTF-8 bytes.
-/

namespace MemFs

/-- Values under names, in ascending order of the names. -/
structure Entries (α : Type) where
  toList : List (String × α)
  sorted : toList.Pairwise fun first second => first.1 < second.1
deriving DecidableEq

namespace Entries

variable {α : Type}

def empty : Entries α := ⟨[], .nil⟩

def names (entries : Entries α) : List String :=
  entries.toList.map Prod.fst

def values (entries : Entries α) : List α :=
  entries.toList.map Prod.snd

def size (entries : Entries α) : Nat :=
  entries.toList.length

def isEmpty (entries : Entries α) : Bool :=
  entries.toList.isEmpty

def find? (entries : Entries α) (name : String) : Option α :=
  entries.toList.lookup name

def contains (entries : Entries α) (name : String) : Bool :=
  (entries.find? name).isSome

/-- The first name whose value satisfies a condition. -/
def nameOf? (entries : Entries α) (condition : α → Bool) : Option String :=
  (entries.toList.find? fun entry => condition entry.2).map Prod.fst

/-- Puts a value into its place in an ascending list, in place of one with the same name. -/
def insertInto (name : String) (value : α) : List (String × α) → List (String × α)
  | [] => [(name, value)]
  | entry :: rest =>
      if name < entry.1 then (name, value) :: entry :: rest
      else if entry.1 < name then entry :: insertInto name value rest
      else (name, value) :: rest

theorem mem_insertInto {name : String} {value : α} {items : List (String × α)}
    {entry : String × α} (member : entry ∈ insertInto name value items) :
    entry = (name, value) ∨ entry ∈ items := by
  induction items with
  | nil => simpa [insertInto] using member
  | cons head rest inductionHypothesis =>
      unfold insertInto at member
      split at member
      · simpa using member
      · split at member
        · rcases List.mem_cons.mp member with here | later
          · exact .inr (here ▸ List.mem_cons_self)
          · exact (inductionHypothesis later).imp_right (List.mem_cons_of_mem head)
        · exact (List.mem_cons.mp member).imp_right (List.mem_cons_of_mem head)

theorem pairwise_insertInto (name : String) (value : α) {items : List (String × α)}
    (sorted : items.Pairwise fun first second => first.1 < second.1) :
    (insertInto name value items).Pairwise fun first second => first.1 < second.1 := by
  induction items with
  | nil => simp [insertInto]
  | cons head rest inductionHypothesis =>
      obtain ⟨headLeast, restSorted⟩ := List.pairwise_cons.mp sorted
      unfold insertInto
      split
      · rename_i before
        refine .cons (fun entry member => ?_) sorted
        rcases List.mem_cons.mp member with here | later
        · exact here ▸ before
        · exact String.lt_trans before (headLeast entry later)
      · split
        · rename_i after
          refine .cons (fun entry member => ?_) (inductionHypothesis restSorted)
          rcases mem_insertInto member with new | old
          · exact new ▸ after
          · exact headLeast entry old
        · rename_i notBefore notAfter
          have same : head.1 = name :=
            String.le_antisymm (String.not_lt.mp notBefore) (String.not_lt.mp notAfter)
          exact .cons (fun entry member => same ▸ headLeast entry member) restSorted

/-- The entries with this value under this name, and no other under it. -/
def insert (entries : Entries α) (name : String) (value : α) : Entries α :=
  ⟨insertInto name value entries.toList, pairwise_insertInto name value entries.sorted⟩

def erase (entries : Entries α) (name : String) : Entries α :=
  ⟨entries.toList.filter fun entry => entry.1 != name, entries.sorted.filter _⟩

/-- The entries with the value under `old` moved to `new`. -/
def move (entries : Entries α) (old new : String) : Entries α :=
  match entries.find? old with
  | some value => (entries.erase old).insert new value
  | none => entries

/-! ## Looking up after a change -/

theorem lookup_cons_eq (first : String) (held : α) (rest : List (String × α)) (key : String) :
    ((first, held) :: rest).lookup key = if key = first then some held else rest.lookup key := by
  by_cases same : key = first
  · simp [same]
  · have different : (key == first) = false := beq_eq_false_iff_ne.mpr same
    simp [List.lookup_cons, same, different]

theorem lookup_insertInto (name : String) (value : α) (items : List (String × α))
    (key : String) :
    (insertInto name value items).lookup key =
      if key = name then some value else items.lookup key := by
  induction items with
  | nil => simp [insertInto, lookup_cons_eq]
  | cons head rest inductionHypothesis =>
      obtain ⟨first, held⟩ := head
      unfold insertInto
      split
      · simp [lookup_cons_eq]
      · split
        · rename_i after
          by_cases atHead : key = first
          · have different : first ≠ name := fun equal => by
              simp [equal] at after
            simp [atHead, different]
          · simp [lookup_cons_eq, atHead, inductionHypothesis]
        · rename_i notBefore notAfter
          have same : first = name :=
            String.le_antisymm (String.not_lt.mp notBefore) (String.not_lt.mp notAfter)
          by_cases atHead : key = name <;> simp [lookup_cons_eq, same, atHead]

theorem lookup_filter_ne (name : String) (items : List (String × α)) (key : String) :
    (items.filter fun entry => entry.1 != name).lookup key =
      if key = name then none else items.lookup key := by
  induction items with
  | nil => simp
  | cons head rest inductionHypothesis =>
      obtain ⟨first, held⟩ := head
      by_cases removed : first = name
      · rw [List.filter_cons_of_neg (by simp [removed]), inductionHypothesis, lookup_cons_eq]
        by_cases same : key = name <;> simp [removed, same]
      · rw [List.filter_cons_of_pos (by simp [removed]), lookup_cons_eq, lookup_cons_eq,
          inductionHypothesis]
        by_cases atHead : key = first <;> simp [atHead, removed]

@[simp]
theorem find?_empty (key : String) : (empty : Entries α).find? key = none := rfl

theorem find?_insert (entries : Entries α) (name : String) (value : α) (key : String) :
    (entries.insert name value).find? key =
      if key = name then some value else entries.find? key :=
  lookup_insertInto name value entries.toList key

theorem find?_erase (entries : Entries α) (name key : String) :
    (entries.erase name).find? key = if key = name then none else entries.find? key :=
  lookup_filter_ne name entries.toList key

end Entries

end MemFs
