import MemFs.Proofs.Name
import Mathlib.Data.List.Induction

/-!
# Paths and their components

A path is taken apart at its slashes, and a path that was put together from components has these
components again. `simplified` removes `.` and `..` as they stand in a path, without a look at any
tree.
-/

namespace MemFs.Name

/-! ## Components -/

/-- The path with these components. -/
def join (names : List String) : String :=
  "/".intercalate names

/-- Whether a text can be a component of a path. -/
def IsComponent (name : String) : Prop :=
  name ≠ "" ∧ '/' ∉ name.toList

theorem isComponent_of_isValid {name : String} (valid : isValid name = true) :
    IsComponent name := by
  refine ⟨ne_empty_of_isValid valid, ?_⟩
  simp only [isValid, Bool.and_eq_true, Bool.not_eq_true'] at valid
  simpa using valid.2

/-- A text has a first piece, which a character other than a slash is put before. -/
theorem exists_pieces (text : List Char) :
    ∃ first others, pieces text = first :: others ∧
      ∀ character, character ≠ '/' →
        pieces (character :: text) = (character :: first) :: others := by
  have extended : ∀ first others, pieces text = first :: others → ∀ character, character ≠ '/' →
      pieces (character :: text) = (character :: first) :: others := by
    intro first others split character other
    simp [pieces, split]
  cases split : pieces text with
  | cons first others => exact ⟨first, others, rfl, extended first others split⟩
  | nil =>
      unfold pieces at split
      split at split
      · cases split
      · cases split
      · split at split <;> cases split

/-- No piece of a text contains a slash. -/
theorem slash_notMem_of_mem_pieces {text piece : List Char} (member : piece ∈ pieces text) :
    '/' ∉ piece := by
  induction text generalizing piece with
  | nil =>
      rw [pieces, List.mem_singleton] at member
      simp [member]
  | cons character rest inductionHypothesis =>
      obtain ⟨first, others, split, extended⟩ := exists_pieces rest
      rw [split] at inductionHypothesis
      by_cases slash : character = '/'
      · subst slash
        rw [pieces, split, List.mem_cons] at member
        rcases member with here | later
        · simp [here]
        · exact inductionHypothesis later
      · rw [extended character slash, List.mem_cons] at member
        rcases member with here | later
        · have clean : '/' ∉ first := inductionHypothesis List.mem_cons_self
          simp [here, clean, Ne.symm slash]
        · exact inductionHypothesis (List.mem_cons_of_mem first later)

/-- A text without slashes is one piece, whatever follows behind a slash. -/
theorem pieces_append_slash {front : List Char} (clean : '/' ∉ front) (behind : List Char) :
    pieces (front ++ '/' :: behind) = front :: pieces behind := by
  induction front with
  | nil => rfl
  | cons character rest inductionHypothesis =>
      rw [List.mem_cons, not_or] at clean
      obtain ⟨first, others, split, extended⟩ := exists_pieces (rest ++ '/' :: behind)
      rw [inductionHypothesis clean.2] at split
      obtain ⟨rfl, rfl⟩ := List.cons.inj split
      rw [List.cons_append, extended character (Ne.symm clean.1)]

theorem pieces_of_clean {text : List Char} (clean : '/' ∉ text) : pieces text = [text] := by
  induction text with
  | nil => rfl
  | cons character rest inductionHypothesis =>
      rw [List.mem_cons, not_or] at clean
      obtain ⟨first, others, split, extended⟩ := exists_pieces rest
      rw [inductionHypothesis clean.2] at split
      obtain ⟨rfl, rfl⟩ := List.cons.inj split
      exact extended character (Ne.symm clean.1)

theorem isComponent_of_mem_components {path name : String} (member : name ∈ components path) :
    IsComponent name := by
  obtain ⟨piece, kept, same⟩ := List.mem_map.mp member
  obtain ⟨inside, nonempty⟩ := List.mem_filter.mp kept
  subst same
  refine ⟨?_, ?_⟩
  · intro empty
    have none : piece = [] := by simpa using congrArg String.toList empty
    simp [none] at nonempty
  · rw [String.toList_ofList]
    exact slash_notMem_of_mem_pieces inside

theorem pieces_join {name : String} {names : List String}
    (proper : ∀ other ∈ name :: names, IsComponent other) :
    pieces (join (name :: names)).toList = (name :: names).map String.toList := by
  induction names generalizing name with
  | nil =>
      have clean := (proper name List.mem_cons_self).2
      simp [join, pieces_of_clean clean]
  | cons next rest inductionHypothesis =>
      obtain ⟨here, later⟩ := List.forall_mem_cons.mp proper
      have split : (join (name :: next :: rest)).toList =
          name.toList ++ '/' :: (join (next :: rest)).toList := by
        simp [join]
      rw [split, pieces_append_slash here.2, inductionHypothesis later]
      rfl

/-- A path has the components from which it was put together. -/
theorem components_join {names : List String} (proper : ∀ name ∈ names, IsComponent name) :
    components (join names) = names := by
  cases names with
  | nil => rfl
  | cons name rest =>
      have nonempty : ∀ piece ∈ (name :: rest).map String.toList, (!piece.isEmpty) = true := by
        intro piece member
        obtain ⟨other, inside, same⟩ := List.mem_map.mp member
        have filled := (proper other inside).1
        subst same
        simpa using filled
      rw [components, pieces_join proper, List.filter_eq_self.mpr nonempty, List.map_map]
      simp

/-! ## Lexical normal form -/

/-- One more component behind names that are left: `.` adds nothing and `..` takes the last name
away, if there is one. -/
def simplify (names : List String) (component : String) : List String :=
  if component = "." then names
  else if component = ".." then names.dropLast
  else names ++ [component]

/-- The names that are left of components when every `.` is dropped and every `..` cancels the name
before it. -/
def simplified (components : List String) : List String :=
  components.foldl simplify []

/-- The path with the names that are left of a path. -/
def normalized (path : String) : String :=
  join (simplified (components path))

theorem simplified_concat (components : List String) (component : String) :
    simplified (components ++ [component]) = simplify (simplified components) component := by
  rw [simplified, List.foldl_append]
  rfl

theorem simplify_of_plain {component : String} (notDot : component ≠ ".")
    (notDots : component ≠ "..") (names : List String) :
    simplify names component = names ++ [component] := by
  rw [simplify, if_neg notDot, if_neg notDots]

/-- No component is `.` or `..`. -/
def ArePlain (components : List String) : Prop :=
  ∀ component ∈ components, component ≠ "." ∧ component ≠ ".."

/-- Plain components are all left. -/
theorem simplified_of_plain {components : List String} (plain : ArePlain components) :
    simplified components = components := by
  induction components using List.reverseRecOn with
  | nil => rfl
  | append_singleton front last inductionHypothesis =>
      obtain ⟨notDot, notDots⟩ := plain last (by simp)
      rw [simplified_concat, simplify_of_plain notDot notDots, inductionHypothesis]
      intro component member
      exact plain component (List.mem_append_left _ member)

theorem mem_of_mem_simplified {components : List String} {name : String}
    (left : name ∈ simplified components) : name ∈ components := by
  induction components using List.reverseRecOn with
  | nil => cases left
  | append_singleton front last inductionHypothesis =>
      rw [simplified_concat, simplify] at left
      split at left
      · exact List.mem_append_left _ (inductionHypothesis left)
      · split at left
        · exact List.mem_append_left _ (inductionHypothesis (List.dropLast_subset _ left))
        · rcases List.mem_append.mp left with earlier | here
          · exact List.mem_append_left _ (inductionHypothesis earlier)
          · exact List.mem_append_right _ here

theorem components_normalized (path : String) :
    components (normalized path) = simplified (components path) :=
  components_join fun _ left => isComponent_of_mem_components (mem_of_mem_simplified left)

end MemFs.Name
