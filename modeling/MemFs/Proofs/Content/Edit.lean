import MemFs.Tree.Operation
import Mathlib.Data.List.Infix

/-!
# Edits of a content

The content of a file changes by edits: bytes are written at a position, or the content is cut. This
module says what is in a content after a sequence of edits, byte by byte: what the last edit put
there that put anything there, if the content has not been shorter since; what was there initially,
if it has never been shorter and nothing was put there; and zero otherwise.
-/

namespace MemFs

namespace Tree

variable (content : List UInt8) {position index : Nat} (data : List UInt8)

/-! ## Bytes after a write -/

theorem getElem?_overwrite_before (before : index < position) :
    (overwrite content position data)[index]? =
      if index < content.length then content[index]? else some 0 := by
  simp only [overwrite, List.append_assoc]
  by_cases inside : index < content.length
  · rw [if_pos inside, List.getElem?_append_left (by simp; omega),
      List.getElem?_take_of_lt before]
  · rw [if_neg inside, List.getElem?_append_right (by simp; omega),
      List.getElem?_append_left (by simp; omega), List.getElem?_replicate_of_lt (by simp; omega)]

theorem getElem?_overwrite_within (started : position ≤ index)
    (within : index < position + data.length) :
    (overwrite content position data)[index]? = data[index - position]? := by
  have start : (content.take position ++
      List.replicate (position - content.length) 0).length = position := by
    simp
    omega
  rw [overwrite, List.getElem?_append_left (by simp; omega),
    List.getElem?_append_right (by omega), start]

theorem getElem?_overwrite_behind (behind : position + data.length ≤ index) :
    (overwrite content position data)[index]? = content[index]? := by
  have start : (content.take position ++ List.replicate (position - content.length) 0
      ++ data).length = position + data.length := by
    simp
    omega
  rw [overwrite, List.getElem?_append_right (by omega), start, List.getElem?_drop]
  congr 1
  omega

end Tree

/-- A change of a content. -/
inductive Edit where
  | write (position : Nat) (data : List UInt8)
  | cut (length : Nat)
deriving DecidableEq, Repr

namespace Edit

def apply (content : List UInt8) : Edit → List UInt8
  | .write position data => Tree.overwrite content position data
  | .cut length => content.take length

/-- The length of a content of this length after an edit. -/
def lengthAfter (length : Nat) : Edit → Nat
  | .write position data => max length (position + data.length)
  | .cut shorter => shorter

/-- The byte that an edit puts in one place. -/
def byteAt? (index : Nat) : Edit → Option UInt8
  | .write position data => if position ≤ index then data[index - position]? else none
  | .cut _ => none

/-- Contents are not cut to more than they are. -/
def Fits (length : Nat) : Edit → Prop
  | .write _ _ => True
  | .cut shorter => shorter ≤ length

/-- The length of a content of this length after edits. -/
def lengthAfterAll (length : Nat) (edits : List Edit) : Nat :=
  edits.foldl lengthAfter length

/-- From a content of this length on, edits never leave a content that ends at or before a place. -/
def StaysAbove (index length : Nat) (edits : List Edit) : Prop :=
  ∀ first, first <+: edits → index < lengthAfterAll length first

/-- One of these edits of a content of this length put a byte in a place, no later one put anything
there, and the content has not been too short for it since. -/
def LastPut (length : Nat) (edits : List Edit) (index : Nat) (byte : UInt8) : Prop :=
  ∃ before edit behind, edits = before ++ edit :: behind ∧ edit.byteAt? index = some byte ∧
    (∀ later ∈ behind, later.byteAt? index = none) ∧
    StaysAbove index (lengthAfterAll length (before ++ [edit])) behind

/-- None of these edits of a content of this length put a byte in a place, and the content has never
been too short for it. -/
def Untouched (length : Nat) (edits : List Edit) (index : Nat) : Prop :=
  (∀ edit ∈ edits, edit.byteAt? index = none) ∧ StaysAbove index length edits

/-- A content holds, byte by byte, what edits of an initial content leave. -/
structure Leave (edits : List Edit) (initial content : List UInt8) : Prop where
  length : content.length = lengthAfterAll initial.length edits
  put : ∀ index byte, LastPut initial.length edits index byte → content[index]? = some byte
  untouched : ∀ index, Untouched initial.length edits index →
    content[index]? = initial[index]?
  blank : ∀ index, index < content.length →
    (∀ byte, ¬ LastPut initial.length edits index byte) →
    ¬ Untouched initial.length edits index → content[index]? = some 0

/-! ## One edit -/

theorem length_apply {content : List UInt8} {edit : Edit} (fits : edit.Fits content.length) :
    (edit.apply content).length = edit.lengthAfter content.length := by
  cases edit with
  | write position data =>
      simp only [apply, Tree.overwrite, lengthAfter, List.length_append, List.length_take,
        List.length_replicate, List.length_drop]
      omega
  | cut shorter =>
      rw [apply, List.length_take, lengthAfter]
      exact Nat.min_eq_left fits

theorem length_overwrite (content : List UInt8) (position : Nat) (data : List UInt8) :
    (Tree.overwrite content position data).length = max content.length (position + data.length) :=
  have fits : (write position data).Fits content.length := trivial
  length_apply fits

theorem lt_lengthAfter_of_byteAt? {edit : Edit} {index : Nat} {byte : UInt8}
    (puts : edit.byteAt? index = some byte) (length : Nat) : index < edit.lengthAfter length := by
  cases edit with
  | write position data =>
      rw [byteAt?] at puts
      split at puts
      · obtain ⟨within, -⟩ := List.getElem?_eq_some_iff.mp puts
        rw [lengthAfter]
        omega
      · cases puts
  | cut shorter => cases puts

/-- What an edit puts in a place is there afterwards. -/
theorem getElem?_apply_of_some (content : List UInt8) {edit : Edit} {index : Nat} {byte : UInt8}
    (puts : edit.byteAt? index = some byte) : (edit.apply content)[index]? = some byte := by
  cases edit with
  | write position data =>
      rw [byteAt?] at puts
      split at puts
      · rename_i started
        obtain ⟨within, -⟩ := List.getElem?_eq_some_iff.mp puts
        rw [apply, Tree.getElem?_overwrite_within content data started (by omega), puts]
      · cases puts
  | cut shorter => cases puts

/-- Where an edit puts nothing, what was there stays as far as there is room for it, and new room
holds zeros. -/
theorem getElem?_apply_of_none {content : List UInt8} {edit : Edit} {index : Nat}
    (puts : edit.byteAt? index = none) (within : index < (edit.apply content).length) :
    (edit.apply content)[index]? = some (content[index]?.getD 0) := by
  cases edit with
  | write position data =>
      have fits : (Edit.write position data).Fits content.length := trivial
      rw [length_apply fits, lengthAfter] at within
      rw [byteAt?] at puts
      rw [apply]
      by_cases before : index < position
      · rw [Tree.getElem?_overwrite_before content data before]
        by_cases inside : index < content.length
        · rw [if_pos inside, List.getElem?_eq_getElem inside, Option.getD_some]
        · rw [if_neg inside, List.getElem?_eq_none (Nat.le_of_not_lt inside), Option.getD_none]
      · rw [if_pos (Nat.le_of_not_lt before), List.getElem?_eq_none_iff] at puts
        have inside : index < content.length := by omega
        rw [Tree.getElem?_overwrite_behind content data (by omega),
          List.getElem?_eq_getElem inside, Option.getD_some]
  | cut shorter =>
      rw [apply, List.length_take] at within
      have inside : index < content.length := by omega
      rw [apply, List.getElem?_take_of_lt (by omega), List.getElem?_eq_getElem inside,
        Option.getD_some]

/-! ## One more edit -/

section Concat

variable {length index : Nat} {edits : List Edit} {edit : Edit}

theorem lengthAfterAll_append (first second : List Edit) :
    lengthAfterAll length (first ++ second) =
      lengthAfterAll (lengthAfterAll length first) second :=
  List.foldl_append

private theorem split_put (before behind : List Edit) (put : Edit) :
    (before ++ put :: behind) ++ [edit] = (before ++ [put]) ++ (behind ++ [edit]) := by
  simp

theorem lengthAfterAll_concat :
    lengthAfterAll length (edits ++ [edit]) = edit.lengthAfter (lengthAfterAll length edits) :=
  lengthAfterAll_append edits [edit]

theorem staysAbove_concat_iff :
    StaysAbove index length (edits ++ [edit]) ↔
      StaysAbove index length edits ∧ index < lengthAfterAll length (edits ++ [edit]) := by
  constructor
  · intro stays
    refine ⟨?_, stays _ (List.prefix_refl _)⟩
    intro first isPrefix
    exact stays first (isPrefix.trans (List.prefix_append edits [edit]))
  · rintro ⟨stays, atEnd⟩ first isPrefix
    rcases List.prefix_concat_iff.mp isPrefix with whole | part
    · exact whole ▸ atEnd
    · exact stays first part

theorem untouched_concat_iff :
    Untouched length (edits ++ [edit]) index ↔
      Untouched length edits index ∧ edit.byteAt? index = none ∧
        index < lengthAfterAll length (edits ++ [edit]) := by
  rw [Untouched, Untouched, staysAbove_concat_iff]
  simp only [List.mem_append, List.mem_singleton, or_imp, forall_and, forall_eq]
  tauto

theorem lastPut_concat_iff {byte : UInt8} :
    LastPut length (edits ++ [edit]) index byte ↔
      edit.byteAt? index = some byte ∨
        edit.byteAt? index = none ∧ LastPut length edits index byte ∧
          index < lengthAfterAll length (edits ++ [edit]) := by
  constructor
  · rintro ⟨before, put, behind, split, puts, quiet, stays⟩
    rcases List.eq_nil_or_concat behind with rfl | ⟨behind, last, rfl⟩
    · obtain ⟨-, same⟩ := List.append_inj' split rfl
      cases same
      exact Or.inl puts
    · rw [List.concat_eq_append] at split quiet stays
      have regrouped : before ++ put :: (behind ++ [last]) =
          (before ++ put :: behind) ++ [last] := by
        simp
      obtain ⟨rfl, same⟩ := List.append_inj' (split.trans regrouped) rfl
      cases same
      obtain ⟨earlier, atEnd⟩ := staysAbove_concat_iff.mp stays
      rw [← lengthAfterAll_append, ← split_put] at atEnd
      refine Or.inr ⟨quiet edit (by simp), ⟨before, put, behind, rfl, puts, ?_, earlier⟩, atEnd⟩
      intro other member
      exact quiet other (List.mem_append_left [edit] member)
  · rintro (puts | ⟨quiet, ⟨before, put, behind, split, puts, later, stays⟩, atEnd⟩)
    · refine ⟨edits, edit, [], rfl, puts, by simp, ?_⟩
      intro first isPrefix
      rw [List.prefix_nil.mp isPrefix, lengthAfterAll_concat]
      exact lt_lengthAfter_of_byteAt? puts _
    · subst split
      refine ⟨before, put, behind ++ [edit], by simp, puts, ?_, ?_⟩
      · intro other member
        rcases List.mem_append.mp member with old | new
        · exact later other old
        · rw [List.mem_singleton.mp new]
          exact quiet
      · rw [split_put, lengthAfterAll_append] at atEnd
        exact staysAbove_concat_iff.mpr ⟨stays, atEnd⟩

end Concat

/-! ## Contents that edits leave -/

theorem leave_nil (initial : List UInt8) : Leave [] initial initial where
  length := rfl
  put index byte last := by
    obtain ⟨before, edit, behind, split, -⟩ := last
    simp at split
  untouched _ _ := rfl
  blank index within _ touched := by
    refine absurd ⟨by simp, ?_⟩ touched
    intro first isPrefix
    rw [List.prefix_nil.mp isPrefix]
    exact within

/-- One more edit of what edits leave. -/
theorem Leave.concat {edits : List Edit} {initial content : List UInt8} {edit : Edit}
    (leave : Leave edits initial content) (fits : edit.Fits content.length) :
    Leave (edits ++ [edit]) initial (edit.apply content) := by
  have length : (edit.apply content).length =
      lengthAfterAll initial.length (edits ++ [edit]) := by
    rw [length_apply fits, lengthAfterAll_concat, leave.length]
  -- Where the edit puts nothing, the byte before the edit decides.
  have stays : ∀ index, edit.byteAt? index = none →
      index < lengthAfterAll initial.length (edits ++ [edit]) →
        (edit.apply content)[index]? = some (content[index]?.getD 0) := by
    intro index quiet within
    exact getElem?_apply_of_none quiet (length ▸ within)
  constructor
  · exact length
  · intro index byte last
    rcases lastPut_concat_iff.mp last with puts | ⟨quiet, earlier, within⟩
    · exact getElem?_apply_of_some content puts
    · rw [stays index quiet within, leave.put index byte earlier, Option.getD_some]
  · intro index untouched
    obtain ⟨earlier, quiet, within⟩ := untouched_concat_iff.mp untouched
    have inside : index < initial.length := earlier.2 [] List.nil_prefix
    rw [stays index quiet within, leave.untouched index earlier,
      List.getElem?_eq_getElem inside, Option.getD_some]
  · intro index within unput touched
    rw [length] at within
    have quiet : edit.byteAt? index = none := by
      cases puts : edit.byteAt? index with
      | none => rfl
      | some byte => exact absurd (lastPut_concat_iff.mpr (Or.inl puts)) (unput byte)
    rw [stays index quiet within]
    by_cases inside : index < content.length
    · have blank := leave.blank index inside
        (fun byte last => unput byte (lastPut_concat_iff.mpr (Or.inr ⟨quiet, last, within⟩)))
        (fun earlier => touched (untouched_concat_iff.mpr ⟨earlier, quiet, within⟩))
      rw [blank, Option.getD_some]
    · rw [List.getElem?_eq_none (Nat.le_of_not_lt inside), Option.getD_none]

end Edit

namespace Operation

/-- What an operation with this ending does to the content of the file in one place: a write through
a session on it, a metadata write that asks for a length, or opening it in order to write to it
from scratch. -/
def edit? (operation : Operation) (tree : Tree) (ref : NodeRef)
    (ending : Ending Answer) : Option Edit :=
  match operation, ending with
  | .write sessionRef data, .ok _ =>
      (tree.session? sessionRef).bind fun session =>
        if session.node = some ref then some (.write session.cursor data) else none
  | .writeMetadata target stat, .ok _ =>
      if target = ref ∧ stat.length ≠ Stat.unchangedLength then some (.cut stat.length.toNat)
      else none
  | .openSession target _ request, .ok _ =>
      if target = ref ∧ request.truncates ∧ request.wantsWrite then some (.cut 0) else none
  | _, _ => none

theorem edit?_of_failed {ending : Ending Answer} (operation : Operation) (tree : Tree)
    (ref : NodeRef) (failed : ∀ answer, ending ≠ .ok answer) :
    operation.edit? tree ref ending = none := by
  cases ending with
  | ok answer => exact absurd rfl (failed answer)
  | error | never => cases operation <;> rfl

end Operation

end MemFs
