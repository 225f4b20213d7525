import MemFs.Proofs.Tree.Lookup
import MemFs.Proofs.Tree.Run
import Mathlib.Data.List.Forall2

/-!
# What a refused user learns

A policy that answers each query by itself closes directories to a user. Two trees are the same
outside what is hidden if they differ in the entries of hidden directories only. A user gets the
same results and leaves the same events in two such trees, as long as the access that is asked for
is the one that is refused to the hidden directories: the policy is asked before any entry is looked
at.
-/

namespace MemFs

namespace Operation

/-- A lookup that this user asks for. -/
def isLookupBy (user : String) : Operation → Bool
  | .walk _ someone _ => someone = user
  | .resolve someone _ => someone = user
  | _ => false

/-- A change of the entries of this directory that this user asks for. -/
def isChangeBy (user : String) (directory : NodeRef) : Operation → Bool
  | .create ref someone _ _ => ref = directory && someone = user
  | .rename ref someone _ _ => ref = directory && someone = user
  | .remove ref someone _ => ref = directory && someone = user
  | _ => false

/-- Whether an entry may have the name that the operation gives. -/
def givesValidName : Operation → Bool
  | .create _ _ name _ => Name.isValid name
  | .rename _ _ _ new => Name.isValid new
  | _ => true

end Operation

namespace Node

/-- The question whether a user may access a node. -/
def query (node : Node) (user : String) (request : Request) : Query :=
  ⟨node.owner = user, node.mode, request⟩

/-- Whether a policy that decides so refuses a user this access to a node. -/
def isClosedTo (decision : Query → Bool) (user : String) (request : Request) (node : Node) : Bool :=
  !decision (node.query user request)

/-- Two nodes are the same, or the same hidden directory with other entries. -/
inductive SameOutside (hidden : Node → Bool) : Node → Node → Prop
  | same (node : Node) : SameOutside hidden node node
  | concealed {node : Node} {entries : Entries NodeRef} (others : Entries NodeRef)
      (isDirectory : node.body = .directory entries) (isHidden : hidden node = true) :
      SameOutside hidden node (node.withEntries others)

namespace SameOutside

variable {hidden : Node → Bool} {first second : Node}

theorem parent_eq (alike : first.SameOutside hidden second) : second.parent = first.parent := by
  cases alike <;> rfl

theorem query_eq (alike : first.SameOutside hidden second) (user : String) (request : Request) :
    second.query user request = first.query user request := by
  cases alike <;> rfl

theorem isClosedTo_eq (alike : first.SameOutside hidden second) (decision : Query → Bool)
    (user : String) (request : Request) :
    second.isClosedTo decision user request = first.isClosedTo decision user request :=
  congrArg (fun query => !decision query) (alike.query_eq user request)

theorem check_eq (alike : first.SameOutside hidden second) (decision : Query → Bool)
    (asked otherAsked : Nat) (clock : Clock) (user : String) (request : Request) :
    (Setting.mk (.stateless decision) otherAsked clock).check second user request =
      (Setting.mk (.stateless decision) asked clock).check first user request :=
  congrArg (fun query => Check.mk query (decision query)) (alike.query_eq user request)

theorem accessed {decision : Query → Bool} {user : String} {request : Request}
    (alike : first.SameOutside (isClosedTo decision user request) second) (now : UInt32) :
    (first.accessed now).SameOutside (isClosedTo decision user request) (second.accessed now) := by
  cases alike with
  | same => exact .same _
  | concealed others isDirectory isHidden => exact .concealed others isDirectory isHidden

end SameOutside

end Node

/-- Two trees differ in the entries of hidden directories only. -/
structure Tree.SameOutside (hidden : Node → Bool) (first second : Tree) : Prop where
  nodes : ∀ ref, Option.Rel (Node.SameOutside hidden) (first.node? ref) (second.node? ref)
  size : second.nodes.size = first.nodes.size
  sessions : second.sessions = first.sessions
  held : second.held = first.held
  root : second.root = first.root
  ids : second.ids = first.ids

/-- Two outcomes look the same, and leave behind trees that differ in the entries of hidden
directories only. -/
structure Outcome.SameOutside {α : Type} (hidden : Node → Bool) (first second : Outcome α) :
    Prop where
  ending : second.ending = first.ending
  checks : second.checks = first.checks
  events : second.events = first.events
  tree : first.tree.SameOutside hidden second.tree

namespace Outcome.SameOutside

variable {α β : Type} {hidden : Node → Bool} {first second : Outcome α}

theorem map (alike : first.SameOutside hidden second) (change : α → β) :
    (first.map change).SameOutside hidden (second.map change) :=
  ⟨congrArg (Ending.map change) alike.ending, alike.checks, alike.events, alike.tree⟩

theorem afterCheck (alike : first.SameOutside hidden second) (check : Check) :
    (first.afterCheck check).SameOutside hidden (second.afterCheck check) :=
  ⟨alike.ending, congrArg (List.cons check) alike.checks, alike.events, alike.tree⟩

/-- A second outcome that is put behind a first one. -/
theorem followedBy {step otherStep : Outcome β} (stepAlike : step.SameOutside hidden otherStep)
    (alike : first.SameOutside hidden second) :
    Outcome.SameOutside hidden
      { first with
        checks := step.checks ++ first.checks
        events := step.events ++ first.events }
      { second with
        checks := otherStep.checks ++ second.checks
        events := otherStep.events ++ second.events } where
  ending := alike.ending
  checks := by simp only [stepAlike.checks, alike.checks]
  events := by simp only [stepAlike.events, alike.events]
  tree := alike.tree

end Outcome.SameOutside

/-- Where writing is refused, a change of entries fails before any entry is looked at. -/
theorem Tree.perform_of_closed {tree : Tree} {decision : Query → Bool} {user : String}
    {ref : NodeRef} {node : Node} {entries : Entries NodeRef}
    (found : tree.directory? ref = some (node, entries))
    (closed : node.isClosedTo decision user .write = true) {operation : Operation}
    (isChange : operation.isChangeBy user ref = true) (asked : Nat) (clock : Clock) :
    tree.perform ⟨.stateless decision, asked, clock⟩ operation =
      if operation.givesValidName then
        (tree.deny node user .write).afterCheck ⟨node.query user .write, false⟩
      else tree.refuse .invalidName [] := by
  have refused : (Setting.mk (.stateless decision) asked clock).check node user .write =
      ⟨node.query user .write, false⟩ := by
    rw [Node.isClosedTo, Bool.not_eq_true'] at closed
    exact congrArg (Check.mk _) closed
  cases operation with
  | create directory someone name requested =>
      obtain ⟨rfl, rfl⟩ : directory = ref ∧ someone = user := by
        simpa [Operation.isChangeBy] using isChange
      rw [perform, create, found]
      dsimp only
      rw [refused]
      cases valid : Name.isValid name <;> simp [Operation.givesValidName, valid] <;> rfl
  | rename directory someone old new =>
      obtain ⟨rfl, rfl⟩ : directory = ref ∧ someone = user := by
        simpa [Operation.isChangeBy] using isChange
      rw [perform, rename, found]
      dsimp only
      rw [refused]
      cases valid : Name.isValid new <;> simp [Operation.givesValidName, valid] <;> rfl
  | remove directory someone name =>
      obtain ⟨rfl, rfl⟩ : directory = ref ∧ someone = user := by
        simpa [Operation.isChangeBy] using isChange
      rw [perform, remove, found]
      dsimp only
      rw [refused]
      rfl
  | _ => cases isChange

namespace Tree.SameOutside

variable {α : Type} {hidden : Node → Bool} {first second : Tree}

/-! ## What two trees have in common -/

/-- A place has a node in both trees or in none. -/
theorem node?_cases (alike : first.SameOutside hidden second) (ref : NodeRef) :
    (first.node? ref = none ∧ second.node? ref = none) ∨
      ∃ node other, first.node? ref = some node ∧ second.node? ref = some other ∧
        node.SameOutside hidden other := by
  have here := alike.nodes ref
  generalize first.node? ref = found, second.node? ref = otherFound at here ⊢
  cases here with
  | none => exact Or.inl ⟨rfl, rfl⟩
  | some nodeAlike => exact Or.inr ⟨_, _, rfl, rfl, nodeAlike⟩

theorem parent?_eq (alike : first.SameOutside hidden second) (ref : NodeRef) :
    second.parent? ref = first.parent? ref := by
  unfold parent?
  rcases alike.node?_cases ref with ⟨none, otherNone⟩ | ⟨node, other, found, otherFound, nodeAlike⟩
  · rw [none, otherNone]
    rfl
  · rw [found, otherFound]
    simp only [Option.bind_eq_bind, Option.bind_some, nodeAlike.parent_eq]
    cases node.parent with
    | none => rfl
    | some parent =>
        rcases alike.node?_cases parent with ⟨none, otherNone⟩ | ⟨_, _, above, otherAbove, -⟩
        · simp only [Option.bind_some, none, otherNone, Option.bind_none]
        · simp only [Option.bind_some, above, otherAbove]

/-- A place has a directory in both trees or in none, with the same entries unless it is hidden. -/
theorem directory?_cases (alike : first.SameOutside hidden second) (ref : NodeRef) :
    (first.directory? ref = none ∧ second.directory? ref = none) ∨
      ∃ node other entries others, first.directory? ref = some (node, entries) ∧
        second.directory? ref = some (other, others) ∧ node.SameOutside hidden other ∧
        (hidden node = false → others = entries) := by
  unfold directory?
  rcases alike.node?_cases ref with ⟨none, otherNone⟩ | ⟨node, other, found, otherFound, nodeAlike⟩
  · rw [none, otherNone]
    exact Or.inl ⟨rfl, rfl⟩
  · rw [found, otherFound]
    cases nodeAlike with
    | same =>
        cases body : node.body with
        | file content => exact Or.inl ⟨by simp only [body], by simp only [body]⟩
        | directory entries =>
            refine Or.inr ⟨node, node, entries, entries, ?_, ?_, .same node, fun _ => rfl⟩
            · simp only [body]
            · simp only [body]
    | @concealed entries others isDirectory isHidden =>
        refine Or.inr ⟨node, node.withEntries others, entries, others, ?_, rfl,
          .concealed others isDirectory isHidden, fun shown => ?_⟩
        · simp only [isDirectory]
        · rw [shown] at isHidden
          cases isHidden

theorem container?_eq (alike : first.SameOutside hidden second) (ref : NodeRef) :
    second.container? ref = first.container? ref := by
  unfold container?
  rw [alike.parent?_eq]
  rcases alike.directory?_cases ref with ⟨none, otherNone⟩ | ⟨_, _, _, _, found, otherFound, -⟩
  · rw [none, otherNone]
  · rw [found, otherFound]
    cases first.parent? ref <;> rfl

theorem lookUp_eq (alike : first.SameOutside hidden second) (ref : NodeRef)
    (entries : Entries NodeRef) (name : String) :
    second.lookUp ref entries name = first.lookUp ref entries name := by
  rw [lookUp, lookUp, alike.container?_eq]

theorem modifyNode (alike : first.SameOutside hidden second) {change : Node → Node}
    (keeps : ∀ node other, node.SameOutside hidden other →
      (change node).SameOutside hidden (change other)) (ref : NodeRef) :
    (first.modifyNode ref change).SameOutside hidden (second.modifyNode ref change) where
  nodes other := by
    rw [node?_modifyNode, node?_modifyNode]
    split
    · rcases alike.node?_cases other with ⟨none, otherNone⟩ | ⟨_, _, found, otherFound, nodeAlike⟩
      · rw [none, otherNone]
        exact .none
      · rw [found, otherFound]
        exact .some (keeps _ _ nodeAlike)
    · exact alike.nodes other
  size := by
    rw [Tree.modifyNode, Tree.modifyNode, Arena.size_modify, Arena.size_modify, alike.size]
  sessions := alike.sessions
  held := alike.held
  root := alike.root
  ids := alike.ids

/-- A hidden directory may be given any entries. -/
theorem of_withEntries {tree : Tree} {ref : NodeRef} {node : Node} {entries : Entries NodeRef}
    (found : tree.directory? ref = some (node, entries)) (isHidden : hidden node = true)
    (others : Entries NodeRef) :
    tree.SameOutside hidden (tree.modifyNode ref fun node => node.withEntries others) where
  nodes other := by
    rw [node?_modifyNode]
    split
    · rename_i here
      obtain ⟨there, isDirectory⟩ := directory?_eq_some_iff.mp found
      rw [here, there]
      exact .some (.concealed others isDirectory isHidden)
    · cases tree.node? other with
      | none => exact .none
      | some node => exact .some (.same node)
  size := Arena.size_modify _ _ _
  sessions := rfl
  held := rfl
  root := rfl
  ids := rfl

theorem accept (alike : first.SameOutside hidden second) (value : α) (events : List Event) :
    (first.accept value events).SameOutside hidden (second.accept value events) :=
  ⟨rfl, rfl, rfl, alike⟩

theorem refuse (alike : first.SameOutside hidden second) (error : TreeError)
    (events : List Event) :
    (first.refuse error events : Outcome α).SameOutside hidden (second.refuse error events) :=
  ⟨rfl, rfl, rfl, alike⟩

theorem deny (alike : first.SameOutside hidden second) {node other : Node}
    (nodeAlike : node.SameOutside hidden other) (user : String) (request : Request) :
    (first.deny node user request : Outcome α).SameOutside hidden
      (second.deny other user request) := by
  cases nodeAlike <;> exact alike.refuse _ _

/-! ## Lookups -/

section Lookups

variable {decision : Query → Bool} {user : String}

theorem walk (alike : first.SameOutside (Node.isClosedTo decision user .execute) second)
    (asked otherAsked : Nat) (clock : Clock) (ref : NodeRef) (name : String) :
    (first.walk ⟨.stateless decision, asked, clock⟩ ref user name).SameOutside
      (Node.isClosedTo decision user .execute)
      (second.walk ⟨.stateless decision, otherAsked, clock⟩ ref user name) := by
  unfold Tree.walk
  rcases alike.directory?_cases ref with
    ⟨none, otherNone⟩ | ⟨node, other, entries, others, found, otherFound, nodeAlike, shown⟩
  · rw [none, otherNone]
    exact alike.refuse .notADirectory []
  · rw [found, otherFound]
    dsimp only
    rw [nodeAlike.check_eq decision asked otherAsked clock]
    split
    · exact (alike.deny nodeAlike user .execute).afterCheck _
    · rename_i granted
      -- Whoever is let in is not refused, so the entries are the same.
      have letIn : Node.isClosedTo decision user .execute node = false := by
        simpa [Node.isClosedTo, Node.query, Setting.check, Policy.stateless] using granted
      rw [shown letIn, alike.lookUp_eq]
      have touched := alike.modifyNode (fun _ _ nodeAlike => nodeAlike.accessed clock.now) ref
      exact (touched.accept _ []).afterCheck _

theorem follow (alike : first.SameOutside (Node.isClosedTo decision user .execute) second)
    (asked otherAsked : Nat) (clock : Clock) (path : String) (names : List String)
    (ref : NodeRef) :
    (follow path user names first ⟨.stateless decision, asked, clock⟩ ref).SameOutside
      (Node.isClosedTo decision user .execute)
      (follow path user names second ⟨.stateless decision, otherAsked, clock⟩ ref) := by
  induction names generalizing first second asked otherAsked clock ref with
  | nil => exact alike.accept (some ref) []
  | cons name rest inductionHypothesis =>
      unfold Tree.follow
      rcases alike.directory?_cases ref with
        ⟨none, otherNone⟩ | ⟨_, _, _, _, found, otherFound, -⟩
      · rw [none, otherNone]
        exact alike.refuse .notADirectory _
      · have step := alike.walk asked otherAsked clock ref name
        rw [found, otherFound]
        dsimp only
        rw [step.ending]
        split
        · rename_i next _
          have further :=
            inductionHypothesis step.tree (asked + 1) (otherAsked + 1) (clock.after 1) next
          exact step.followedBy further
        · exact step

theorem resolve (alike : first.SameOutside (Node.isClosedTo decision user .execute) second)
    (asked otherAsked : Nat) (clock : Clock) (path : String) :
    (first.resolve ⟨.stateless decision, asked, clock⟩ user path).SameOutside
      (Node.isClosedTo decision user .execute)
      (second.resolve ⟨.stateless decision, otherAsked, clock⟩ user path) := by
  rw [Tree.resolve, Tree.resolve, alike.root]
  exact alike.follow asked otherAsked clock path _ _

theorem lookup (alike : first.SameOutside (Node.isClosedTo decision user .execute) second)
    (asked otherAsked : Nat) (clock : Clock) {operation : Operation}
    (isLookup : operation.isLookupBy user = true) :
    (first.perform ⟨.stateless decision, asked, clock⟩ operation).SameOutside
      (Node.isClosedTo decision user .execute)
      (second.perform ⟨.stateless decision, otherAsked, clock⟩ operation) := by
  cases operation with
  | walk ref someone name =>
      obtain rfl : someone = user := of_decide_eq_true isLookup
      exact (alike.walk asked otherAsked clock ref name).map Answer.node
  | resolve someone path =>
      obtain rfl : someone = user := of_decide_eq_true isLookup
      exact (alike.resolve asked otherAsked clock path).map Answer.node
  | _ => cases isLookup

end Lookups

/-! ## Changes -/

section Changes

variable {decision : Query → Bool} {user : String}

theorem change (alike : first.SameOutside (Node.isClosedTo decision user .write) second)
    (asked otherAsked : Nat) (clock : Clock) {ref : NodeRef} {node : Node}
    {entries : Entries NodeRef} (found : first.directory? ref = some (node, entries))
    (closed : node.isClosedTo decision user .write = true) {operation : Operation}
    (isChange : operation.isChangeBy user ref = true) :
    (∃ error, (first.perform ⟨.stateless decision, asked, clock⟩ operation).ending =
      .error error) ∧
    (first.perform ⟨.stateless decision, asked, clock⟩ operation).SameOutside
      (Node.isClosedTo decision user .write)
      (second.perform ⟨.stateless decision, otherAsked, clock⟩ operation) := by
  rcases alike.directory?_cases ref with
    ⟨none, -⟩ | ⟨here, other, _, others, again, otherFound, nodeAlike, -⟩
  · rw [found] at none
    cases none
  · cases found.symm.trans again
    have otherClosed := (nodeAlike.isClosedTo_eq decision user .write).trans closed
    rw [perform_of_closed found closed isChange, perform_of_closed otherFound otherClosed isChange,
      nodeAlike.query_eq]
    split
    · exact ⟨⟨.accessDenied, rfl⟩, (alike.deny nodeAlike user .write).afterCheck _⟩
    · exact ⟨⟨.invalidName, rfl⟩, alike.refuse .invalidName []⟩

end Changes

end Tree.SameOutside

namespace World

/-- Whatever a user looks up, one after the other, and whatever is hidden from the user by a refusal
to look names up: all that comes of it is the same. -/
theorem outcomes_sameOutside (decision : Query → Bool) {user : String} {first second : Tree}
    (alike : first.SameOutside (Node.isClosedTo decision user .execute) second)
    (asked otherAsked : Nat) {operations : List (Clock × Operation)}
    (lookups : ∀ timed ∈ operations, timed.2.isLookupBy user = true) :
    List.Forall₂ (Outcome.SameOutside (Node.isClosedTo decision user .execute))
      (outcomes ⟨.stateless decision, first, asked⟩ operations)
      (outcomes ⟨.stateless decision, second, otherAsked⟩ operations) := by
  induction operations generalizing first second asked otherAsked with
  | nil => exact .nil
  | cons timed rest inductionHypothesis =>
      obtain ⟨isLookup, later⟩ := List.forall_mem_cons.mp lookups
      have here := alike.lookup asked otherAsked timed.1 isLookup
      exact .cons here (inductionHypothesis here.tree _ _ later)

/-- A user to whom directories are closed learns nothing about their entries. If looking names up is
refused there, all lookups have the same results and leave the same events, whatever the entries
are. If writing is refused there, all changes that are asked of these directories fail with the same
error and leave the same events. -/
theorem refused_learns_nothing (decision : Query → Bool) (user : String) (first second : Tree)
    (asked otherAsked : Nat) (clock : Clock) :
    let world : World := ⟨.stateless decision, first, asked⟩
    let other : World := ⟨.stateless decision, second, otherAsked⟩
    (first.SameOutside (Node.isClosedTo decision user .execute) second →
      ∀ operation, operation.isLookupBy user = true →
        (world.outcome clock operation).SameOutside (Node.isClosedTo decision user .execute)
          (other.outcome clock operation)) ∧
    (first.SameOutside (Node.isClosedTo decision user .write) second →
      ∀ ref node entries, first.directory? ref = some (node, entries) →
        node.isClosedTo decision user .write = true →
          ∀ operation, operation.isChangeBy user ref = true →
            (∃ error, (world.outcome clock operation).ending = .error error) ∧
            (world.outcome clock operation).SameOutside (Node.isClosedTo decision user .write)
              (other.outcome clock operation)) := by
  intro world other
  constructor
  · intro alike operation isLookup
    exact alike.lookup asked otherAsked clock isLookup
  · intro alike ref node entries found closed operation isChange
    exact alike.change asked otherAsked clock found closed isChange

/-- A directory that is closed to everyone but its owner, with a file in it. -/
def closedDirectory : List (Clock × Operation) :=
  [(1, .create ⟨0⟩ "o" "d" (.ofDirectory 0o700)), (2, .create ⟨1⟩ "o" "f" ⟨0o600⟩)]

/-- The owner sees whether the file is in the directory, and no other user does. -/
theorem refused_learns_nothing_closedDirectory :
    let first := ((fresh .ownerOther ⟨"", ⟨0o755⟩, "o", "g"⟩ .sequential 0).run
      closedDirectory).tree
    let second := first.modifyNode ⟨1⟩ fun node => node.withEntries .empty
    let world : World := ⟨.ownerOther, first, 2⟩
    let other : World := ⟨.ownerOther, second, 2⟩
    (first.SameOutside (Node.isClosedTo Policy.ownerOtherAllows "u" .execute) second ∧
      first.SameOutside (Node.isClosedTo Policy.ownerOtherAllows "u" .write) second) ∧
    ((world.outcome 3 (.resolve "o" "d/f")).ending = .ok (.node (some ⟨2⟩)) ∧
      (other.outcome 3 (.resolve "o" "d/f")).ending = .ok (.node none)) ∧
    (other.outcome 3 (.resolve "u" "d/f")).ending =
      (world.outcome 3 (.resolve "u" "d/f")).ending ∧
    (other.outcome 3 (.resolve "u" "d/f")).events =
      (world.outcome 3 (.resolve "u" "d/f")).events ∧
    (∃ error, (world.outcome 3 (.remove ⟨1⟩ "u" "f")).ending = .error error ∧
      (other.outcome 3 (.remove ⟨1⟩ "u" "f")).ending = .error error) := by
  intro first second world other
  have present : (first.directory? ⟨1⟩).isSome = true := by decide +kernel
  obtain ⟨⟨node, entries⟩, found⟩ := Option.isSome_iff_exists.mp present
  have closed : ∀ request ∈ [Request.execute, Request.write], ∀ pair ∈ first.directory? ⟨1⟩,
      pair.1.isClosedTo Policy.ownerOtherAllows "u" request = true := by decide +kernel
  have noLookups := Tree.SameOutside.of_withEntries found
    (closed .execute (by simp) (node, entries) found) .empty
  have isClosed := closed .write (by simp) (node, entries) found
  have noWrites := Tree.SameOutside.of_withEntries found isClosed .empty
  have learns := refused_learns_nothing Policy.ownerOtherAllows "u" first second 2 2 3
  have resolved := learns.1 noLookups (.resolve "u" "d/f") rfl
  obtain ⟨⟨error, failed⟩, removed⟩ :=
    learns.2 noWrites ⟨1⟩ node entries found isClosed (.remove ⟨1⟩ "u" "f") rfl
  exact ⟨⟨noLookups, noWrites⟩, ⟨by decide +kernel, by decide +kernel⟩, resolved.ending,
    resolved.events, error, failed, removed.ending.trans failed⟩

end World

end MemFs
