import MemFs.Tree.Operation
import Mathlib.Data.List.Forall2

/-!
# Queries to the policy and what is reported of them

An operation asks the policy about one node at most, unless it looks up a path. A query that the
policy refuses leaves one event, which says what was refused to whom, and nothing else leaves such
an event.
-/

namespace MemFs

/-- The node about which an operation asks the policy, with the user and the access. -/
def Operation.question? : Operation → Option (NodeRef × String × Request)
  | .openSession node user request => some (node, user, request)
  | .create directory user _ _ | .rename directory user _ _ | .remove directory user _ =>
      some (directory, user, .write)
  | .walk directory user _ => some (directory, user, .execute)
  | _ => none

namespace Event

/-- An access was denied. -/
def isDenial (event : Event) : Bool :=
  event.level = .debug && event.message == "access denied"

/-- The event says that this query was refused. -/
inductive Reports : Event → Check → Prop
  | mk (node : UInt64) (user owner : String) (mode : Mode) (request : Request) :
      Reports (.accessDenied node user owner mode request) ⟨⟨owner = user, mode, request⟩, false⟩

/-- A failure other than a denied access. -/
def isFailure (event : Event) : Bool :=
  event.level = .debug && !event.isDenial

theorem level_of_isFailure {event : Event} (failed : event.isFailure = true) :
    event.level = .debug := by
  simp only [isFailure, Bool.and_eq_true, decide_eq_true_eq] at failed
  exact failed.1

theorem filter_isDenial_of_failures {events : List Event}
    (failures : ∀ event ∈ events, event.isFailure = true) : events.filter isDenial = [] := by
  refine List.filter_eq_nil_iff.mpr fun event member denial => ?_
  have failed := failures event member
  simp [isFailure, denial] at failed

end Event

/-! ## Queries and reports in order -/

/-- The checks are the queries that were put to the policy from the query with number `asked` on,
with its answers, and the denials among the events report the refusals, in order. -/
structure Answered (policy : Policy) (asked : Nat) (checks : List Check) (events : List Event) :
    Prop where
  answers : ∀ index check, checks[index]? = some check →
    check.granted = policy.allows (asked + index) check.query
  denials : List.Forall₂ Event.Reports (events.filter Event.isDenial)
    (checks.filter fun check => !check.granted)

namespace Answered

variable {policy : Policy} {asked : Nat} {checks more : List Check} {events later : List Event}

theorem silent (unreported : events.filter Event.isDenial = []) :
    Answered policy asked [] events := by
  constructor
  · intro index check listed
    cases listed
  · rw [unreported]
    exact .nil

theorem append (first : Answered policy asked checks events)
    (second : Answered policy (asked + checks.length) more later) :
    Answered policy asked (checks ++ more) (events ++ later) := by
  constructor
  · intro index check listed
    by_cases early : index < checks.length
    · rw [List.getElem?_append_left early] at listed
      exact first.answers index check listed
    · have late : checks.length ≤ index := Nat.le_of_not_lt early
      rw [List.getElem?_append_right late] at listed
      rw [second.answers _ check listed, Nat.add_assoc, Nat.add_sub_cancel' late]
  · rw [List.filter_append, List.filter_append]
    exact List.rel_append first.denials second.denials

private theorem answers_check (setting : Setting) (node : Node) (user : String)
    (request : Request) : ∀ index check, [setting.check node user request][index]? = some check →
      check.granted = setting.policy.allows (setting.asked + index) check.query := by
  intro index check listed
  cases index with
  | zero =>
      cases listed
      rfl
  | succ index => cases listed

theorem granted {setting : Setting} {node : Node} {user : String} {request : Request}
    (allowed : (setting.check node user request).granted = true)
    (unreported : events.filter Event.isDenial = []) :
    Answered setting.policy setting.asked [setting.check node user request] events := by
  constructor
  · exact answers_check setting node user request
  · rw [unreported, List.filter_cons_of_neg (by simp [allowed])]
    exact .nil

theorem denied {setting : Setting} {node : Node} {user : String} {request : Request}
    (refused : (setting.check node user request).granted = false) :
    Answered setting.policy setting.asked [setting.check node user request]
      [.accessDenied node.id user node.owner node.mode request] := by
  constructor
  · exact answers_check setting node user request
  · have report : Event.Reports (.accessDenied node.id user node.owner node.mode request)
        (setting.check node user request) := by
      have isRefusal : setting.check node user request =
          ⟨⟨node.owner = user, node.mode, request⟩, false⟩ := by
        rw [← refused]
        rfl
      rw [isRefusal]
      exact .mk _ user _ _ request
    have kept : ([setting.check node user request].filter fun check => !check.granted) =
        [setting.check node user request] := by
      simp [refused]
    rw [kept]
    exact .cons report .nil

/-- There are as many denials as refusals. -/
theorem countP_eq (answered : Answered policy asked checks events) :
    events.countP Event.isDenial = checks.countP fun check => !check.granted := by
  rw [List.countP_eq_length_filter, List.countP_eq_length_filter]
  exact answered.denials.length_eq

end Answered

/-! ## Queries of an operation that fails -/

/-- What an operation that fails asked before, and which events it left. -/
inductive Inquiry (tree : Tree) (setting : Setting) (operation : Operation) :
    List Check → List Event → Prop
  | unasked {events : List Event} (failures : ∀ event ∈ events, event.isFailure = true) :
      Inquiry tree setting operation [] events
  | granted {ref : NodeRef} {node : Node} {user : String} {request : Request}
      {events : List Event} (asks : operation.question? = some (ref, user, request))
      (there : tree.node? ref = some node)
      (allowed : (setting.check node user request).granted = true)
      (failures : ∀ event ∈ events, event.isFailure = true) :
      Inquiry tree setting operation [setting.check node user request] events
  | denied {ref : NodeRef} {node : Node} {user : String} {request : Request}
      (asks : operation.question? = some (ref, user, request))
      (there : tree.node? ref = some node)
      (refused : (setting.check node user request).granted = false) :
      Inquiry tree setting operation [setting.check node user request]
        [.accessDenied node.id user node.owner node.mode request]

namespace Inquiry

variable {tree : Tree} {setting : Setting} {operation : Operation} {checks : List Check}
  {events : List Event}

theorem silent : Inquiry tree setting operation [] [] :=
  .unasked nofun

/-- The operation failed without a query, and an event says why. -/
theorem noted {event : Event} (failed : event.isFailure = true) :
    Inquiry tree setting operation [] [event] :=
  .unasked fun _ member => List.mem_singleton.mp member ▸ failed

/-- The operation failed after it was allowed, and an event says why. -/
theorem notedAfter {ref : NodeRef} {node : Node} {user : String} {request : Request}
    {event : Event} (asks : operation.question? = some (ref, user, request))
    (there : tree.node? ref = some node)
    (allowed : (setting.check node user request).granted = true)
    (failed : event.isFailure = true) :
    Inquiry tree setting operation [setting.check node user request] [event] :=
  .granted asks there allowed fun _ member => List.mem_singleton.mp member ▸ failed

theorem quiet (inquiry : Inquiry tree setting operation checks events) :
    ∀ event ∈ events, event.level = .debug := by
  cases inquiry with
  | unasked failures => exact fun event member => Event.level_of_isFailure (failures event member)
  | granted _ _ _ failures =>
      exact fun event member => Event.level_of_isFailure (failures event member)
  | denied =>
      intro event member
      rw [List.mem_singleton.mp member]
      rfl

theorem answered (inquiry : Inquiry tree setting operation checks events) :
    Answered setting.policy setting.asked checks events := by
  cases inquiry with
  | unasked failures => exact .silent (Event.filter_isDenial_of_failures failures)
  | granted _ _ allowed failures =>
      exact .granted allowed (Event.filter_isDenial_of_failures failures)
  | denied _ _ refused => exact .denied refused

/-- Whatever was asked is the question of the operation. -/
theorem checks_eq (inquiry : Inquiry tree setting operation checks events) :
    checks = [] ∨ ∃ ref node user request, operation.question? = some (ref, user, request) ∧
      tree.node? ref = some node ∧ checks = [setting.check node user request] := by
  cases inquiry with
  | unasked => exact Or.inl rfl
  | granted asks there => exact Or.inr ⟨_, _, _, _, asks, there, rfl⟩
  | denied asks there => exact Or.inr ⟨_, _, _, _, asks, there, rfl⟩

end Inquiry

end MemFs
