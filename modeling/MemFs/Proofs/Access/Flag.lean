import MemFs.Proofs.Access.Mode
import MemFs.Proofs.Access.Rights

/-!
# The directory flag

Three things tell the kind of a node: what the node is, its qid, and the directory flag of its mode.
The mode is kept as it was last given, by whoever made the node or wrote its metadata. A directory
shows it with the flag in any case, but the policy is asked about it as it is kept. So the flag is
to be relied on exactly if the mode that was last given to the node carried it rightly.
-/

namespace MemFs

namespace Operation

/-- The node about which an operation asks the policy. -/
def asksAbout? (operation : Operation) : Option NodeRef :=
  operation.question?.map Prod.fst

/-- Whether the mode carries the directory flag that an operation with this ending gives a node. -/
def flagGiven? (operation : Operation) (ref : NodeRef) (ending : Ending Answer) :
    Option Bool :=
  match operation, ending with
  | .makeFile blueprint _, .ok (.node made) =>
      if made = some ref then some blueprint.mode.isDirectory else none
  | .makeDirectory _, .ok (.node made) => if made = some ref then some true else none
  | .create _ _ _ requested, .ok (.node made) =>
      if made = some ref then some requested.isDirectory else none
  | .writeMetadata target stat, .ok _ =>
      if target = ref then some stat.mode.isDirectory else none
  | _, _ => none

theorem flagGiven?_of_failed (operation : Operation) (ref : NodeRef) {ending : Ending Answer}
    (failed : ∀ answer, ending ≠ .ok answer) : operation.flagGiven? ref ending = none := by
  cases ending with
  | ok answer => exact absurd rfl (failed answer)
  | error | never => cases operation <;> rfl

/-- Nothing but making a node and writing its metadata gives it a flag. -/
theorem flagGiven?_eq_none {operation : Operation} {ref : NodeRef}
    {ending : Ending Answer}
    (unmade : operation.makes = true → ending ≠ .ok (.node (some ref)))
    (unwritten : ∀ stat, operation ≠ .writeMetadata ref stat) :
    operation.flagGiven? ref ending = none := by
  unfold flagGiven?
  split
  · exact if_neg fun same => unmade rfl (by rw [same])
  · exact if_neg fun same => unmade rfl (by rw [same])
  · exact if_neg fun same => unmade rfl (by rw [same])
  · rename_i target stat _
    exact if_neg fun same => unwritten stat (by rw [same])
  · rfl

end Operation

theorem Node.isDirectory_shownMode (node : Node) :
    node.shownMode.isDirectory = true ↔
      node.kind = .directory ∨ node.mode.isDirectory = true := by
  unfold shownMode kind
  cases node.body with
  | file content => simp
  | directory entries => simp [Mode.isDirectory_asDirectory]

theorem Node.shownMode_eq_iff (node : Node) :
    node.shownMode = node.mode ↔ node.kind = .file ∨ node.mode.isDirectory = true := by
  unfold shownMode kind
  cases node.body with
  | file content => simp
  | directory entries => simp [Mode.asDirectory_eq_iff]

theorem Node.asDirectory_shownMode (node : Node) :
    node.shownMode.asDirectory = node.mode.asDirectory := by
  unfold shownMode
  split
  · rfl
  · exact Mode.asDirectory_asDirectory node.mode

namespace Tree

variable {tree : Tree} {setting : Setting} {operation : Operation} {outcome : Outcome Answer}
  {ref : NodeRef} {node : Node}

/-! ## What the policy is asked -/

/-- An operation asks at most one question, which is about a node as it is before. -/
theorem Effect.checks_eq (effect : Effect tree setting operation outcome)
    (noLookup : ∀ user path, operation ≠ .resolve user path) :
    outcome.checks = [] ∨ ∃ ref node user request, operation.question? = some (ref, user, request) ∧
      tree.node? ref = some node ∧ outcome.checks = [setting.check node user request] := by
  cases effect with
  | refused error checks events inquiry => exact inquiry.checks_eq
  | resolved user path => exact absurd rfl (noLookup user path)
  | created user name requested found | renamed user old new found | removed user name found
  | walked user name found =>
      exact Or.inr ⟨_, _, _, _, rfl, (directory?_eq_some_iff.mp found).1, rfl⟩
  | openedFile user request there | openedDirectory user request there =>
      exact Or.inr ⟨_, _, _, _, rfl, there, rfl⟩
  | _ => exact Or.inl rfl

/-- An operation that asks about a node asks about its mode as it is kept. -/
theorem Effect.asks_mode (effect : Effect tree setting operation outcome)
    (about : operation.asksAbout? = some ref) (there : tree.node? ref = some node) :
    ∀ check ∈ outcome.checks, check.query.mode = node.mode := by
  have noLookup : ∀ user path, operation ≠ .resolve user path := by
    rintro user path rfl
    cases about
  intro check member
  rcases effect.checks_eq noLookup with silent | ⟨target, asked, user, request, asks, known, single⟩
  · rw [silent] at member
    cases member
  · rw [Operation.asksAbout?, asks] at about
    cases about
    cases there.symm.trans known
    rw [single] at member
    rw [List.mem_singleton.mp member]
    rfl

theorem checks_openSession (there : tree.node? ref = some node) (user : String)
    (request : Request) :
    (tree.openSession setting ref user request).checks = [setting.check node user request] := by
  unfold openSession
  simp only [there]
  split
  · rfl
  · split <;> rfl

/-! ## What the flag was last given as -/

theorem isDirectory_ofChild (directory : Node) (name : String) (requested : Mode) :
    (Rights.ofChild directory name requested).mode.isDirectory = requested.isDirectory := by
  unfold Rights.ofChild inherited
  cases isDirectory : requested.isDirectory with
  | true => exact Mode.isDirectory_asDirectory _
  | false => exact (Mode.isDirectory_clip requested directory.mode (by decide)).trans isDirectory

/-- A node that is made has the flag that it is given. -/
theorem Made.flagGiven? {now : UInt32} (made : Made tree now operation node) :
    operation.flagGiven? ref (.ok (.node (some ref))) = some node.mode.isDirectory := by
  cases made with
  | file => exact if_pos rfl
  | directory blueprint =>
      have flagged := Mode.isDirectory_asDirectory blueprint.mode
      exact (if_pos rfl).trans (congrArg some flagged.symm)
  | @child directory holder entries user name requested id found =>
      have mode := congrArg Rights.mode
        (rights_newChild directory holder name requested now id)
      have flag := isDirectory_ofChild holder name requested
      rw [← mode] at flag
      exact (if_pos rfl).trans (congrArg some flag.symm)

/-- After an operation a node has the flag that the operation gave it, or the one that it had. -/
theorem flag_perform {flag : Bool}
    (before : ∀ node, tree.node? ref = some node → node.mode.isDirectory = flag)
    (stays : (tree.perform setting operation).tree.node? ref = some node) :
    node.mode.isDirectory =
      (operation.flagGiven? ref (tree.perform setting operation).ending).getD flag := by
  have effect := effect_perform tree setting operation
  cases there : tree.node? ref with
  | none =>
      obtain ⟨made, answer⟩ := effect.made there stays
      rw [answer, made.flagGiven?, Option.getD_some]
  | some earlier =>
      have old := before earlier there
      by_cases written : ∃ stat, operation = .writeMetadata ref stat
      · obtain ⟨stat, rfl⟩ := written
        rcases effect.rights_written there stays with ⟨failed, rfl⟩ | ⟨done, rights⟩
        · rw [Operation.flagGiven?_of_failed _ ref failed, Option.getD_none, old]
        · have mode : node.mode = stat.mode := congrArg Rights.mode rights
          rw [done, Operation.flagGiven?, if_pos rfl, Option.getD_some, mode]
      · have unwritten : ∀ stat, operation ≠ .writeMetadata ref stat :=
          fun stat same => written ⟨stat, same⟩
        have mode : node.mode = earlier.mode :=
          congrArg Rights.mode (rights_perform unwritten there stays)
        rw [Operation.flagGiven?_eq_none (effect.unmade_of_there there) unwritten,
          Option.getD_none, mode, old]

end Tree

namespace World

/-- The flag that a run gave a node last, if it gave it any. -/
def flagGiven? (ref : NodeRef) : World → List (Clock × Operation) → Option Bool
  | _, [] => none
  | world, (clock, operation) :: rest =>
      (flagGiven? ref (world.step clock operation) rest).or
        (operation.flagGiven? ref (world.outcome clock operation).ending)

/-- After a run a node has the flag that the run gave it last, or the one that it had. -/
theorem flag_run {world : World} {ref : NodeRef} {flag : Bool} {node : Node}
    {operations : List (Clock × Operation)}
    (before : ∀ node, world.tree.node? ref = some node → node.mode.isDirectory = flag)
    (there : (world.run operations).tree.node? ref = some node) :
    node.mode.isDirectory = (world.flagGiven? ref operations).getD flag := by
  induction operations generalizing world flag with
  | nil => exact before node there
  | cons timed rest inductionHypothesis =>
      obtain ⟨clock, operation⟩ := timed
      have next := inductionHypothesis (fun _ stays => Tree.flag_perform before stays) there
      rw [next, flagGiven?]
      cases flagGiven? ref (world.step clock operation) rest <;> rfl

/-- The directory flag of a node tells what kind of node it is, and the policy is asked about the
mode that the node shows. -/
structure TellsKind (world : World) (ref : NodeRef) (node : Node) : Prop where
  shown : node.stat.mode.isDirectory = true ↔ node.stat.qid.kind = .directory
  asked : ∀ clock operation, operation.asksAbout? = some ref →
    ∀ check ∈ (world.outcome clock operation).checks, check.query.mode = node.stat.mode

/-- A node whose mode is asked about as it is kept tells its kind if the mode does. -/
theorem tellsKind_iff {world : World} {ref : NodeRef} {node : Node}
    (there : world.tree.node? ref = some node)
    (asked : ∀ clock operation, operation.asksAbout? = some ref →
      ∀ check ∈ (world.outcome clock operation).checks, check.query.mode = node.mode) :
    world.TellsKind ref node ↔ (node.mode.isDirectory = true ↔ node.kind = .directory) := by
  constructor
  · rintro ⟨shown, same⟩
    -- Opening a session asks in any case.
    have opening : (world.outcome 0 (.openSession ref "" .write)).checks =
        [Setting.check ⟨world.policy, world.asked, 0⟩ node "" .write] :=
      Tree.checks_openSession there "" .write
    have sameMode : node.mode = node.shownMode :=
      same 0 (.openSession ref "" .write) rfl _ (opening ▸ List.mem_singleton_self _)
    constructor
    · intro flagged
      exact shown.mp (node.isDirectory_shownMode.mpr (Or.inr flagged))
    · intro isDirectory
      rw [sameMode]
      exact shown.mpr isDirectory
  · intro tells
    constructor
    · refine node.isDirectory_shownMode.trans ⟨?_, Or.inl⟩
      rintro (isDirectory | flagged)
      · exact isDirectory
      · exact tells.mp flagged
    · intro clock operation about check member
      rw [asked clock operation about check member]
      refine (node.shownMode_eq_iff.mpr ?_).symm
      cases kind : node.kind with
      | file => exact Or.inl rfl
      | directory => exact Or.inr (tells.mpr kind)

/-- In every state of a run, the flag of a node tells its kind and the policy is asked about the
mode shown exactly if the mode that the node was last given carried the flag of its kind. A
directory shows the flag in any case, and the mode asked about differs from the one shown in nothing
but the flag. -/
theorem tellsKind_iff_flagGiven (policy : Policy) (blueprint : Blueprint) (ids : IdSource)
    (start : UInt32) (operations : List (Clock × Operation)) {ref : NodeRef} {node : Node}
    (there : ((fresh policy blueprint ids start).run operations).tree.node? ref = some node) :
    let initial := fresh policy blueprint ids start
    let world := initial.run operations
    (world.TellsKind ref node ↔
      ((initial.flagGiven? ref operations).getD true = true ↔ node.kind = .directory)) ∧
    (node.kind = .directory → node.stat.mode.isDirectory = true) ∧
    ∀ clock operation, operation.asksAbout? = some ref →
      ∀ check ∈ (world.outcome clock operation).checks,
        check.query.mode.asDirectory = node.stat.mode.asDirectory := by
  intro initial world
  have flag : node.mode.isDirectory = (initial.flagGiven? ref operations).getD true := by
    refine flag_run (fun root rootThere => ?_) there
    rw [Tree.eq_of_node?_ofRoot rootThere]
    exact Mode.isDirectory_asDirectory blueprint.mode
  have asked : ∀ clock operation, operation.asksAbout? = some ref →
      ∀ check ∈ (world.outcome clock operation).checks, check.query.mode = node.mode :=
    fun clock operation about => (world.effect_outcome clock operation).asks_mode about there
  refine ⟨?_, ?_, ?_⟩
  · rw [← flag]
    exact tellsKind_iff there asked
  · intro isDirectory
    exact node.isDirectory_shownMode.mpr (Or.inl isDirectory)
  · intro clock operation about check member
    rw [asked clock operation about check member]
    exact node.asDirectory_shownMode.symm

/-- The metadata of a directory is written without the directory flag and that of a file with it. -/
def misflagged : List (Clock × Operation) :=
  [(1, .create ⟨0⟩ "o" "d" (.ofDirectory 0o755)), (2, .create ⟨0⟩ "o" "f" ⟨0o644⟩),
    (3, .writeMetadata ⟨1⟩ ⟨0, 0, ⟨.directory, 0, 0⟩, ⟨0o755⟩, 0, 0, Stat.unchangedLength, "d", "o",
      "g", ""⟩),
    (4, .writeMetadata ⟨2⟩ ⟨0, 0, ⟨.file, 0, 0⟩, .ofDirectory 0o644, 0, 0, Stat.unchangedLength,
      "f", "o", "g", ""⟩)]

/-- The policy is asked about a mode of the directory that it does not show, and the file shows the
flag of a directory. -/
theorem not_tellsKind_of_misflagged :
    let world := (fresh .allowAll ⟨"", ⟨0o755⟩, "o", "g"⟩ .sequential 0).run misflagged
    (∃ directory, world.tree.node? ⟨1⟩ = some directory ∧
      directory.stat.mode = .ofDirectory 0o755 ∧
      (world.outcome 5 (.walk ⟨1⟩ "o" "x")).checks =
        [⟨⟨true, ⟨0o755⟩, .execute⟩, true⟩] ∧ ¬ world.TellsKind ⟨1⟩ directory) ∧
    ∃ file, world.tree.node? ⟨2⟩ = some file ∧ file.stat.qid.kind = .file ∧
      file.stat.mode.isDirectory = true ∧ ¬ world.TellsKind ⟨2⟩ file := by
  intro world
  have directoryThere : ∃ directory, world.tree.node? ⟨1⟩ = some directory ∧
      directory.stat.mode = .ofDirectory 0o755 := ⟨_, rfl, rfl⟩
  have fileThere : ∃ file, world.tree.node? ⟨2⟩ = some file ∧ file.stat.qid.kind = .file ∧
      file.stat.mode.isDirectory = true := ⟨_, rfl, rfl, rfl⟩
  have asked : (world.outcome 5 (.walk ⟨1⟩ "o" "x")).checks =
      [⟨⟨true, ⟨0o755⟩, .execute⟩, true⟩] := rfl
  obtain ⟨directory, there, shown⟩ := directoryThere
  obtain ⟨file, there', isFile, flagged⟩ := fileThere
  refine ⟨⟨directory, there, shown, asked, ?_⟩, file, there', isFile, flagged, ?_⟩
  · intro tells
    have same := tells.asked 5 (.walk ⟨1⟩ "o" "x") rfl _ (asked ▸ List.mem_singleton_self _)
    rw [shown] at same
    exact absurd same (by decide)
  · intro tells
    have isDirectory := tells.shown.mp flagged
    rw [isFile] at isDirectory
    cases isDirectory

/-- The root has kept the flag that it was made with. -/
theorem tellsKind_of_misflagged_root :
    let initial := fresh .allowAll ⟨"", ⟨0o755⟩, "o", "g"⟩ .sequential 0
    ∃ root, (initial.run misflagged).tree.node? ⟨0⟩ = some root ∧
      initial.flagGiven? ⟨0⟩ misflagged = none ∧ initial.flagGiven? ⟨1⟩ misflagged = some false ∧
      (initial.run misflagged).TellsKind ⟨0⟩ root := by
  intro initial
  have rootThere : ∃ root, (initial.run misflagged).tree.node? ⟨0⟩ = some root ∧
      root.kind = .directory := ⟨_, rfl, rfl⟩
  obtain ⟨root, there, isDirectory⟩ := rootThere
  have ungiven : initial.flagGiven? ⟨0⟩ misflagged = none := by decide +kernel
  have lost : initial.flagGiven? ⟨1⟩ misflagged = some false := by decide +kernel
  obtain ⟨tells, -, -⟩ := tellsKind_iff_flagGiven .allowAll ⟨"", ⟨0o755⟩, "o", "g"⟩ .sequential 0
    misflagged there
  have flagged : (initial.flagGiven? ⟨0⟩ misflagged).getD true = true := by
    rw [ungiven, Option.getD_none]
  exact ⟨root, there, ungiven, lost, tells.mpr ⟨fun _ => isDirectory, fun _ => flagged⟩⟩

end World

end MemFs
