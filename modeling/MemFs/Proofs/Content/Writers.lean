import MemFs.Proofs.Content.Edit
import MemFs.Proofs.Interleaving
import MemFs.Proofs.Session.Grant

/-!
# Writers of one file

Several sessions on one file take turns at moving their cursors and writing. A cursor belongs to one
session only, and a write within the content leaves everything beside its range alone. So writers
that keep to ranges of their own do not notice each other, in whatever order they take turns.
-/

namespace MemFs

/-! ## The last byte that edits put in a place -/

namespace Edit

/-- The byte that the last of these edits puts in a place that puts any there. -/
def lastByte? (index : Nat) (edits : List Edit) : Option UInt8 :=
  (edits.filterMap (byteAt? index)).getLast?

variable {index : Nat} {edit : Edit} {edits : List Edit} {content : List UInt8}

theorem lastByte?_cons :
    lastByte? index (edit :: edits) = (lastByte? index edits).or (edit.byteAt? index) := by
  rw [lastByte?, List.filterMap_cons]
  cases edit.byteAt? index with
  | none => exact Option.or_none.symm
  | some byte =>
      rw [List.getLast?_cons, lastByte?]
      cases (edits.filterMap (byteAt? index)).getLast? <;> rfl

theorem lastByte?_eq_none_iff :
    lastByte? index edits = none ↔ ∀ edit ∈ edits, edit.byteAt? index = none := by
  rw [lastByte?, List.getLast?_eq_none_iff, List.filterMap_eq_nil_iff]

/-- An edit that does not change the length leaves everything alone where it puts nothing. -/
theorem getElem?_apply_of_untouched (length : (edit.apply content).length = content.length)
    (untouched : edit.byteAt? index = none) : (edit.apply content)[index]? = content[index]? := by
  by_cases within : index < content.length
  · rw [getElem?_apply_of_none untouched (length ▸ within), List.getElem?_eq_getElem within,
      Option.getD_some]
  · rw [List.getElem?_eq_none (Nat.le_of_not_lt within),
      List.getElem?_eq_none (length ▸ Nat.le_of_not_lt within)]

/-- What a content is after the edits of several parties: every byte that a party puts in a place
last is there, and where no party puts any, the content is as it was. -/
structure Merge {ι : Type} (edits : ι → List Edit) (content merged : List UInt8) : Prop where
  put : ∀ party index byte, lastByte? index (edits party) = some byte → merged[index]? = some byte
  kept : ∀ index, (∀ party, lastByte? index (edits party) = none) →
    merged[index]? = content[index]?

/-- Two edits put no bytes in the same place. -/
def Apart (first second : Edit) : Prop :=
  ∀ index, first.byteAt? index = none ∨ second.byteAt? index = none

/-- One more edit of one party, before all others, where no other party puts anything. -/
theorem Merge.precede {ι : Type} [DecidableEq ι] {edits : ι → List Edit} {merged : List UInt8}
    {party : ι} (merge : Merge edits (edit.apply content) merged)
    (length : (edit.apply content).length = content.length)
    (apart : ∀ other, other ≠ party → ∀ later ∈ edits other, Apart edit later) :
    Merge (Function.update edits party (edit :: edits party)) content merged := by
  have unput : ∀ index, edit.byteAt? index ≠ none → ∀ other, other ≠ party →
      lastByte? index (edits other) = none := by
    intro index puts other different
    rw [lastByte?_eq_none_iff]
    intro later member
    exact (apart other different later member index).resolve_left puts
  constructor
  · intro other index byte last
    by_cases own : other = party
    · subst own
      rw [Function.update_self, lastByte?_cons] at last
      cases rest : lastByte? index (edits other) with
      | some later =>
          rw [rest, Option.some_or] at last
          exact merge.put other index byte (rest.trans last)
      | none =>
          rw [rest, Option.none_or] at last
          have puts : edit.byteAt? index ≠ none := by rw [last]; exact Option.some_ne_none byte
          rw [merge.kept index, getElem?_apply_of_some content last]
          intro another
          by_cases same : another = other
          · rw [same, rest]
          · exact unput index puts another same
    · rw [Function.update_of_ne own] at last
      exact merge.put other index byte last
  · intro index untouched
    have here := untouched party
    rw [Function.update_self, lastByte?_cons, Option.or_eq_none_iff] at here
    rw [merge.kept index, getElem?_apply_of_untouched length here.2]
    intro other
    by_cases own : other = party
    · rw [own, here.1]
    · have there := untouched other
      rwa [Function.update_of_ne own] at there

end Edit

/-! ## Steps of one writer -/

/-- What a writer does: it moves its cursor, counted from the start, or it writes. -/
inductive WriterStep where
  | seek (offset : Nat)
  | write (data : List UInt8)
deriving DecidableEq, Repr

namespace WriterStep

def operation (session : SessionRef) : WriterStep → Operation
  | .seek offset => .seek session offset .start
  | .write data => .write session data

/-- Where the cursor is after a step. -/
def move (position : Nat) : WriterStep → Nat
  | .seek offset => offset
  | .write data => position + data.length

/-- What a step does to the content with the cursor in this position. -/
def edit? (position : Nat) : WriterStep → Option Edit
  | .seek _ => none
  | .write data => some (.write position data)

def isWrite : WriterStep → Bool
  | .seek _ => false
  | .write _ => true

/-- A step that stays within a content of this length. -/
def FitsIn (length position : Nat) : WriterStep → Prop
  | .seek offset => offset ≤ length ∧ (offset : Int) ≤ Session.greatestPosition
  | .write data => position + data.length ≤ length

/-- The cursor after these steps. -/
def moveAll (position : Nat) (steps : List WriterStep) : Nat :=
  steps.foldl move position

/-- The edits that these steps come to, from a position of the cursor on. -/
def edits : Nat → List WriterStep → List Edit
  | _, [] => []
  | position, step :: rest => (step.edit? position).toList ++ edits (step.move position) rest

/-- All of these steps stay within a content of this length. -/
def AllFitIn (length : Nat) : Nat → List WriterStep → Prop
  | _, [] => True
  | position, step :: rest =>
      step.FitsIn length position ∧ AllFitIn length (step.move position) rest

/-- The content after a step. -/
def contentAfter (step : WriterStep) (position : Nat) (content : List UInt8) : List UInt8 :=
  (step.edit? position).elim content fun edit => edit.apply content

variable {step : WriterStep} {position : Nat} {content : List UInt8}

/-- A step within the content does not change its length. -/
theorem length_contentAfter (fits : step.FitsIn content.length position) :
    (step.contentAfter position content).length = content.length := by
  cases step with
  | seek offset => rfl
  | write data =>
      rw [contentAfter, edit?, Option.elim_some, Edit.length_apply (by exact trivial),
        Edit.lengthAfter]
      exact Nat.max_eq_left fits

end WriterStep

namespace Tree

/-- Sessions with these records, each moved to its position, are open on one file. -/
structure Writing {ι : Type} (session : ι → SessionRef) (record : ι → Session) (tree : Tree)
    (position : ι → Nat) (file : NodeRef) (node : Node) (content : List UInt8) : Prop where
  there : tree.node? file = some node
  isFile : node.body = .file content
  kept : ∀ party,
    tree.session? (session party) = some ((record party).movedTo (position party))
  onFile : ∀ party, (record party).node = some file
  ofUser : ∀ party, ∃ user, (record party).stream = .file user

namespace Writing

variable {ι : Type} {session : ι → SessionRef} {record : ι → Session} {tree : Tree}
  {position : ι → Nat} {file : NodeRef} {node : Node} {content : List UInt8}
  (writing : tree.Writing session record position file node content)

include writing

theorem openOn (party : ι) :
    tree.OpenOn (session party) ((record party).movedTo (position party)) file node where
  kept := writing.kept party
  onNode := writing.onFile party
  there := writing.there

/-- One session is moved and the file is changed. -/
theorem moved [DecidableEq ι] (distinct : Function.Injective session) {party : ι}
    {change : Node → Node} {moves : Session → Session} {next : Nat} {changed : List UInt8}
    (becomes : (change node).body = .file changed)
    (leads : moves ((record party).movedTo (position party)) = (record party).movedTo next) :
    ((tree.modifyNode file change).modifySession (session party) moves).Writing session record
      (Function.update position party next) file (change node) changed where
  there := (node?_modifyNode_of_some writing.there file change).trans (by rw [if_pos rfl])
  isFile := becomes
  kept other := by
    rw [session?_moved tree (writing.kept party)]
    by_cases same : other = party
    · subst same
      rw [if_pos rfl, Function.update_self, leads]
    · rw [if_neg (distinct.ne same), Function.update_of_ne same]
      exact writing.kept other
  onFile := writing.onFile
  ofUser := writing.ofUser

/-- A step of one writer within the content succeeds. It moves the cursor of this writer, edits the
content, and gives the file another version if it writes. -/
theorem step [DecidableEq ι] (distinct : Function.Injective session) (setting : Setting)
    (party : ι) {step : WriterStep} (fits : step.FitsIn content.length (position party)) :
    let outcome := tree.perform setting (step.operation (session party))
    (∃ answer, outcome.ending = .ok answer) ∧
    ∃ later, outcome.tree.Writing session record
        (Function.update position party (step.move (position party))) file later
        (step.contentAfter (position party) content) ∧
      later.version = node.version + if step.isWrite then 1 else 0 := by
  have isOpen := writing.openOn party
  cases step with
  | seek offset =>
      obtain ⟨within, inReach⟩ := fits
      have leads : ((record party).movedTo (position party)).target? content.length offset .start =
          some offset := by
        simp [Session.target?, inReach]
      have performed := seek_of_file isOpen writing.isFile leads within setting.clock.now
      simp only [WriterStep.operation, perform, performed]
      refine ⟨⟨_, rfl⟩, node.accessed setting.clock.now, ?_, ?_⟩
      · exact writing.moved distinct writing.isFile rfl
      · exact (UInt32.add_zero node.version).symm
  | write data =>
      obtain ⟨user, ofUser⟩ := writing.ofUser party
      let written : Node → Node := fun node =>
        (node.withContent (overwrite node.content (position party) data)).mutatedBy user
          setting.clock
      have performed := write_of_file isOpen writing.isFile ofUser setting.clock data
      have becomes : (written node).body = .file (overwrite content (position party) data) := by
        have same : node.content = content := by rw [Node.content, writing.isFile]
        exact congrArg (fun bytes => Body.file (overwrite bytes (position party) data)) same
      simp only [WriterStep.operation, perform, performed]
      exact ⟨⟨_, rfl⟩, written node, writing.moved distinct becomes rfl, rfl⟩

end Writing

end Tree

/-! ## Turns of several writers -/

namespace WriterStep

variable {ι : Type} [DecidableEq ι] {turn : Turn ι WriterStep} {turns : List (Turn ι WriterStep)}
  {position : ι → Nat} {length : Nat}

/-- The positions of all cursors after a turn. -/
def advance (position : ι → Nat) (turn : Turn ι WriterStep) : ι → Nat :=
  Function.update position turn.party (turn.action.move (position turn.party))

/-- What a turn is to each party: its own first step, or nothing. -/
theorem turn_cases (position : ι → Nat) (turn : Turn ι WriterStep)
    (turns : List (Turn ι WriterStep)) (party : ι) :
    (party = turn.party ∧
        actionsOf party (turn :: turns) = turn.action :: actionsOf party turns ∧
        advance position turn party = turn.action.move (position party)) ∨
      (party ≠ turn.party ∧ actionsOf party (turn :: turns) = actionsOf party turns ∧
        advance position turn party = position party) := by
  by_cases own : party = turn.party
  · subst own
    exact Or.inl ⟨rfl, actionsOf_cons_self, Function.update_self ..⟩
  · exact Or.inr ⟨own, actionsOf_cons_of_ne (Ne.symm own), Function.update_of_ne own ..⟩

theorem moveAll_turn (party : ι) :
    moveAll (advance position turn party) (actionsOf party turns) =
      moveAll (position party) (actionsOf party (turn :: turns)) := by
  rcases turn_cases position turn turns party with ⟨-, steps, moved⟩ | ⟨-, steps, unmoved⟩
  · rw [steps, moved, moveAll, moveAll, List.foldl_cons]
  · rw [steps, unmoved]

theorem AllFitIn.later {party : ι}
    (fits : AllFitIn length (position party) (actionsOf party (turn :: turns))) :
    AllFitIn length (advance position turn party) (actionsOf party turns) := by
  rcases turn_cases position turn turns party with ⟨-, steps, moved⟩ | ⟨-, steps, unmoved⟩
  · rw [steps] at fits
    rw [moved]
    exact fits.2
  · rwa [steps, ← unmoved] at fits

theorem edits_turn (party : ι) :
    edits (position party) (actionsOf party (turn :: turns)) =
      (if party = turn.party then (turn.action.edit? (position party)).toList else []) ++
        edits (advance position turn party) (actionsOf party turns) := by
  rcases turn_cases position turn turns party with ⟨own, steps, moved⟩ | ⟨other, steps, unmoved⟩
  · rw [steps, moved, if_pos own, edits]
  · rw [steps, unmoved, if_neg other, List.nil_append]

/-- No two parties put bytes in the same place. -/
def AllApart (position : ι → Nat) (turns : List (Turn ι WriterStep)) : Prop :=
  ∀ first second, first ≠ second →
    ∀ edit ∈ edits (position first) (actionsOf first turns),
      ∀ other ∈ edits (position second) (actionsOf second turns), edit.Apart other

theorem AllApart.later (apart : AllApart position (turn :: turns)) :
    AllApart (advance position turn) turns := by
  intro first second different edit member other otherMember
  refine apart first second different edit ?_ other ?_
  · rw [edits_turn]
    exact List.mem_append_right _ member
  · rw [edits_turn]
    exact List.mem_append_right _ otherMember

/-- The turns after a turn merge what they should into what the turn left. -/
theorem merge_turn {content merged : List UInt8} (apart : AllApart position (turn :: turns))
    (fits : turn.action.FitsIn content.length (position turn.party))
    (merge : Edit.Merge
      (fun party => edits (advance position turn party) (actionsOf party turns))
      (turn.action.contentAfter (position turn.party) content) merged) :
    Edit.Merge (fun party => edits (position party) (actionsOf party (turn :: turns))) content
      merged := by
  have length := length_contentAfter fits
  rw [contentAfter] at merge length
  cases made : turn.action.edit? (position turn.party) with
  | none =>
      rw [made, Option.elim_none] at merge
      have same : ∀ party, edits (position party) (actionsOf party (turn :: turns)) =
          edits (advance position turn party) (actionsOf party turns) := by
        intro party
        rw [edits_turn]
        split
        · rename_i own
          rw [own, made, Option.toList_none, List.nil_append]
        · exact List.nil_append _
      rwa [funext same]
  | some edit =>
      rw [made, Option.elim_some] at merge length
      have first : ∀ party, edits (position party) (actionsOf party (turn :: turns)) =
          Function.update
            (fun party => edits (advance position turn party) (actionsOf party turns)) turn.party
            (edit :: edits (advance position turn turn.party) (actionsOf turn.party turns))
            party := by
        intro party
        rw [edits_turn, Function.update_apply]
        split
        · rename_i own
          rw [own, made, Option.toList_some, List.singleton_append]
        · exact List.nil_append _
      rw [funext first]
      refine merge.precede length fun other different later member => ?_
      refine apart turn.party other (Ne.symm different) edit ?_ later ?_
      · rw [first, Function.update_self]
        exact List.mem_cons_self
      · rw [first, Function.update_of_ne different]
        exact member

end WriterStep

namespace World

variable {ι : Type} [DecidableEq ι] {session : ι → SessionRef} {record : ι → Session}

/-- The operations of the turns of several writers. -/
def writing (session : ι → SessionRef) (turns : List (Turn ι WriterStep)) :
    List (Clock × Operation) :=
  schedule (fun party step => step.operation (session party)) turns

/-- Writers that put no bytes in the same place all succeed. Their cursors are where their own steps
lead, and the content is what all of them put there. -/
theorem writing_run {world : World} {position : ι → Nat} {file : NodeRef} {node : Node}
    {content : List UInt8} {turns : List (Turn ι WriterStep)}
    (distinct : Function.Injective session)
    (isWriting : world.tree.Writing session record position file node content)
    (fits : ∀ party,
      WriterStep.AllFitIn content.length (position party) (actionsOf party turns))
    (apart : WriterStep.AllApart position turns) :
    (∀ outcome ∈ world.outcomes (writing session turns), ∃ answer, outcome.ending = .ok answer) ∧
    ∃ later written,
      (world.run (writing session turns)).tree.Writing session record
        (fun party => WriterStep.moveAll (position party) (actionsOf party turns)) file later
        written ∧
      written.length = content.length ∧
      later.version =
        node.version + .ofNat (turns.countP fun turn => turn.action.isWrite) ∧
      Edit.Merge (fun party => WriterStep.edits (position party) (actionsOf party turns)) content
        written := by
  induction turns generalizing world position node content with
  | nil =>
      refine ⟨?_, node, content, isWriting, rfl, (UInt32.add_zero node.version).symm, ?_, ?_⟩
      · exact fun outcome absent => absurd absent List.not_mem_nil
      · exact fun party index byte last => nomatch last
      · exact fun index _ => rfl
  | cons turn rest inductionHypothesis =>
      have fitsHere : turn.action.FitsIn content.length (position turn.party) := by
        have own := fits turn.party
        rw [actionsOf_cons_self] at own
        exact own.1
      obtain ⟨done, next, nextWriting, version⟩ := isWriting.step distinct
        ⟨world.policy, world.asked, turn.clock⟩ turn.party fitsHere
      have isNext : (world.step turn.clock (turn.action.operation (session turn.party))).tree.Writing
          session record (WriterStep.advance position turn) file next
          (turn.action.contentAfter (position turn.party) content) := nextWriting
      have length := WriterStep.length_contentAfter fitsHere
      obtain ⟨doneLater, later, written, laterWriting, sameLength, laterVersion, merge⟩ :=
        inductionHypothesis isNext (by rw [length]; exact fun party => (fits party).later)
          apart.later
      refine ⟨?_, later, written, ?_, sameLength.trans length, ?_,
        WriterStep.merge_turn apart fitsHere merge⟩
      · intro outcome member
        rcases List.mem_cons.mp member with rfl | further
        · exact done
        · exact doneLater outcome further
      · rw [← funext WriterStep.moveAll_turn]
        exact laterWriting
      · rw [laterVersion, version, List.countP_cons, UInt32.ofNat_add, UInt32.add_assoc,
          UInt32.add_comm (.ofNat _)]
        split <;> rfl

end World

/-! ## Patches -/

/-- Bytes to be written in one place: the writer moves its cursor there, and then writes. -/
structure Patch where
  offset : Nat
  data : List UInt8
deriving DecidableEq, Repr

namespace Patch

def steps (patch : Patch) : List WriterStep :=
  [.seek patch.offset, .write patch.data]

def edit (patch : Patch) : Edit :=
  .write patch.offset patch.data

/-- A place that a patch writes to. -/
def Covers (patch : Patch) (index : Nat) : Prop :=
  patch.offset ≤ index ∧ index < patch.offset + patch.data.length

/-- A patch within a content of this length, at a position that a cursor can be asked for. -/
def FitsIn (patch : Patch) (length : Nat) : Prop :=
  (patch.offset : Int) ≤ Session.greatestPosition ∧ patch.offset + patch.data.length ≤ length

theorem byteAt?_edit {patch : Patch} {index : Nat} (uncovered : ¬ patch.Covers index) :
    patch.edit.byteAt? index = none := by
  rw [edit, Edit.byteAt?]
  split
  · rename_i started
    rw [List.getElem?_eq_none_iff]
    by_contra within
    exact uncovered ⟨started, by omega⟩
  · rfl

/-- The steps of patches come to their edits, wherever the cursor was before. -/
theorem edits_steps (position : Nat) (patches : List Patch) :
    WriterStep.edits position (patches.flatMap steps) = patches.map edit := by
  induction patches generalizing position with
  | nil => rfl
  | cons patch rest inductionHypothesis =>
      exact congrArg (patch.edit :: ·) (inductionHypothesis _)

theorem allFitIn_steps {length : Nat} (position : Nat) {patches : List Patch}
    (fit : ∀ patch ∈ patches, patch.FitsIn length) :
    WriterStep.AllFitIn length position (patches.flatMap steps) := by
  induction patches generalizing position with
  | nil => exact trivial
  | cons patch rest inductionHypothesis =>
      obtain ⟨⟨inReach, inside⟩, further⟩ := List.forall_mem_cons.mp fit
      refine ⟨⟨?_, inReach⟩, inside, inductionHypothesis _ further⟩
      omega

theorem countP_steps (patches : List Patch) :
    (patches.flatMap steps).countP WriterStep.isWrite = patches.length := by
  induction patches with
  | nil => rfl
  | cons patch rest inductionHypothesis =>
      rw [List.flatMap_cons, List.countP_append, inductionHypothesis, List.length_cons,
        Nat.add_comm]
      rfl

end Patch

namespace Tree

variable {ι : Type} {session : ι → SessionRef} {record : ι → Session} {tree : Tree}
  {position : ι → Nat} {file : NodeRef} {node : Node} {content : List UInt8}

/-- Open sessions on a file of a sound tree can write. -/
theorem IsSound.writing (sound : tree.IsSound) (there : tree.node? file = some node)
    (isFile : node.body = .file content)
    (kept : ∀ party, tree.session? (session party) = some (record party))
    (onFile : ∀ party, (record party).node = some file) :
    tree.Writing session record (fun party => (record party).cursor) file node content where
  there := there
  isFile := isFile
  kept := kept
  onFile := onFile
  ofUser party := by
    have kind := sound.kind ⟨kept party, onFile party, there⟩
    rw [Node.kind, isFile] at kind
    cases stream : (record party).stream with
    | file user => exact ⟨user, rfl⟩
    | directory snapshot =>
        rw [stream] at kind
        cases kind

/-- One of the sessions by itself. -/
theorem Writing.only (writing : tree.Writing session record position file node content)
    (party : ι) :
    tree.Writing (fun _ : Unit => session party) (fun _ => record party)
      (fun _ => position party) file node content where
  there := writing.there
  isFile := writing.isFile
  kept _ := writing.kept party
  onFile _ := writing.onFile party
  ofUser _ := writing.ofUser party

end Tree

namespace World

/-- Sessions on one file that write within its content and not to the same places do not notice each
other, however their seeks and writes are interleaved. All steps succeed. The content is everywhere
what the session that writes there put there last, and as before where none does; its length stays.
The version goes up by the number of writes, and each cursor is where it would be without the other
sessions. -/
theorem writers_commute {ι : Type} [Fintype ι] [DecidableEq ι] (policy : Policy)
    (blueprint : Blueprint) (ids : IdSource) (start : UInt32)
    (operations : List (Clock × Operation)) {file : NodeRef} {node : Node} {content : List UInt8}
    (there : ((fresh policy blueprint ids start).run operations).tree.node? file = some node)
    (isFile : node.body = .file content) {session : ι → SessionRef}
    (distinct : Function.Injective session)
    (isOpen : ∀ party, ∃ record,
      ((fresh policy blueprint ids start).run operations).tree.session? (session party) =
        some record ∧ record.node = some file)
    {patches : ι → List Patch}
    (fit : ∀ party, ∀ patch ∈ patches party, patch.FitsIn content.length)
    (apart : ∀ first second, first ≠ second → ∀ patch ∈ patches first,
      ∀ other ∈ patches second, ∀ index, ¬ (patch.Covers index ∧ other.Covers index))
    {turns : List (Turn ι WriterStep)}
    (interleaves : Interleaves turns fun party => (patches party).flatMap Patch.steps) :
    let world := (fresh policy blueprint ids start).run operations
    let final := world.run (writing session turns)
    (∀ outcome ∈ world.outcomes (writing session turns), ∃ answer, outcome.ending = .ok answer) ∧
    (∃ later written, final.tree.node? file = some later ∧ later.body = .file written ∧
      written.length = content.length ∧
      later.version = node.version + .ofNat (∑ party, (patches party).length) ∧
      ∀ index,
        (∀ party byte, Edit.lastByte? index ((patches party).map Patch.edit) = some byte →
          written[index]? = some byte) ∧
        ((∀ party, Edit.lastByte? index ((patches party).map Patch.edit) = none) →
          written[index]? = content[index]?)) ∧
    ∀ party (alone : List (Turn Unit WriterStep)),
      Interleaves alone (fun _ => (patches party).flatMap Patch.steps) →
        final.tree.session? (session party) =
          (world.run (writing (fun _ => session party) alone)).tree.session? (session party) := by
  intro world final
  choose record kept onFile using isOpen
  have sound : world.tree.IsSound := isSound_run policy blueprint ids start operations
  have isWriting := sound.writing there isFile kept onFile
  have edits : ∀ party, WriterStep.edits (record party).cursor (actionsOf party turns) =
      (patches party).map Patch.edit := by
    intro party
    rw [interleaves party, Patch.edits_steps]
  have fits : ∀ party, WriterStep.AllFitIn content.length (record party).cursor
      (actionsOf party turns) := by
    intro party
    rw [interleaves party]
    exact Patch.allFitIn_steps _ (fit party)
  have allApart : WriterStep.AllApart (fun party => (record party).cursor) turns := by
    intro first second different edit member other otherMember index
    rw [edits] at member otherMember
    obtain ⟨patch, patchMember, rfl⟩ := List.mem_map.mp member
    obtain ⟨otherPatch, otherPatchMember, rfl⟩ := List.mem_map.mp otherMember
    rcases not_and_or.mp (apart first second different patch patchMember otherPatch
      otherPatchMember index) with uncovered | uncovered
    · exact Or.inl (Patch.byteAt?_edit uncovered)
    · exact Or.inr (Patch.byteAt?_edit uncovered)
  obtain ⟨done, later, written, laterWriting, length, version, merge⟩ :=
    writing_run distinct isWriting fits allApart
  rw [funext edits] at merge
  refine ⟨done, ⟨later, written, laterWriting.there, laterWriting.isFile, length, ?_, ?_⟩, ?_⟩
  · rw [version, countP_eq_sum WriterStep.isWrite turns]
    congr 2
    refine Finset.sum_congr rfl fun party _ => ?_
    rw [interleaves party, Patch.countP_steps]
  · exact fun index => ⟨fun party => merge.put party index, merge.kept index⟩
  · intro party alone isAlone
    have fitsAlone : ∀ only : Unit, WriterStep.AllFitIn content.length (record party).cursor
        (actionsOf only alone) := by
      intro only
      rw [isAlone only]
      exact Patch.allFitIn_steps _ (fit party)
    obtain ⟨-, _, _, aloneWriting, -⟩ := writing_run (fun _ _ _ => rfl) (isWriting.only party)
      fitsAlone fun first second different => absurd rfl different
    rw [laterWriting.kept party, aloneWriting.kept (), interleaves party, isAlone ()]

/-- Two sessions are open on a file of four bytes. -/
def openTwice : List (Clock × Operation) :=
  [(1, .makeFile ⟨"f", ⟨0o644⟩, "o", "g"⟩ [48, 48, 48, 48]), (2, .openSession ⟨1⟩ "o" ⟨1⟩),
    (3, .openSession ⟨1⟩ "u" ⟨1⟩)]

/-- One writes the first byte twice, the other one the last two bytes. -/
def halves : Bool → List Patch
  | false => [⟨0, [97]⟩, ⟨0, [98]⟩]
  | true => [⟨2, [99, 100]⟩]

def takingTurns : List (Turn Bool WriterStep) :=
  [⟨false, 4, .seek 0⟩, ⟨true, 5, .seek 2⟩, ⟨false, 6, .write [97]⟩, ⟨false, 7, .seek 0⟩,
    ⟨true, 8, .write [99, 100]⟩, ⟨false, 9, .write [98]⟩]

theorem writers_commute_takingTurns :
    let world := (fresh .allowAll ⟨"", ⟨0o755⟩, "o", "g"⟩ .sequential 0).run openTwice
    let session : Bool → SessionRef := fun other => ⟨other.toNat⟩
    let final := world.run (writing session takingTurns)
    (∀ outcome ∈ world.outcomes (writing session takingTurns), ∃ answer,
      outcome.ending = .ok answer) ∧
    ∃ later written, final.tree.node? ⟨1⟩ = some later ∧ later.body = .file written ∧
      written[0]? = some 98 ∧ written[1]? = some 48 ∧ written[3]? = some 100 ∧
      later.version = 3 := by
  intro world session final
  have file : ∃ node, world.tree.node? ⟨1⟩ = some node ∧ node.body = .file [48, 48, 48, 48] ∧
      node.version = 0 := ⟨_, rfl, rfl, rfl⟩
  obtain ⟨node, there, isFile, version⟩ := file
  have distinct : Function.Injective session := by
    unfold Function.Injective
    decide
  have isOpen : ∀ party, ∃ record, world.tree.session? (session party) = some record ∧
      record.node = some ⟨1⟩ := by
    intro party
    cases party with
    | false => exact ⟨_, rfl, rfl⟩
    | true => exact ⟨_, rfl, rfl⟩
  have fit : ∀ party, ∀ patch ∈ halves party, patch.FitsIn [48, 48, 48, 48].length := by
    simp [halves, Patch.FitsIn, Session.greatestPosition]
  have apart : ∀ first second, first ≠ second → ∀ patch ∈ halves first,
      ∀ other ∈ halves second, ∀ index, ¬ (patch.Covers index ∧ other.Covers index) := by
    simp [halves, Patch.Covers]
    omega
  have interleaves : Interleaves takingTurns fun party => (halves party).flatMap Patch.steps := by
    intro party
    cases party with
    | false => rfl
    | true => rfl
  obtain ⟨done, ⟨later, written, stays, body, -, laterVersion, bytes⟩, -⟩ :=
    writers_commute .allowAll ⟨"", ⟨0o755⟩, "o", "g"⟩ .sequential 0 openTwice there isFile distinct
      isOpen fit apart interleaves
  refine ⟨done, later, written, stays, body, (bytes 0).1 false 98 rfl, ?_,
    (bytes 3).1 true 100 rfl, ?_⟩
  · refine (bytes 1).2 fun party => ?_
    cases party with
    | false => rfl
    | true => rfl
  · rw [laterVersion, version]
    rfl

end World

end MemFs
