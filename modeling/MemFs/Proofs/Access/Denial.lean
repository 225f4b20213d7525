import MemFs.Proofs.Tree.Perform

/-!
# Every denial is reported

The policy is asked one query after the other, and each query that it refuses leaves one event,
which says what was refused to whom. Nothing else leaves such an event.
-/

namespace MemFs

namespace Tree

theorem filter_isDenial_closedEvent (node : Node) :
    [closedEvent node].filter Event.isDenial = [] := by
  unfold closedEvent
  split
  · rfl
  · rfl

/-- What an operation asked and what it reported fit together. -/
theorem Effect.answered {tree : Tree} {setting : Setting} {operation : Operation}
    {outcome : Outcome Answer} (effect : Effect tree setting operation outcome) :
    Answered setting.policy setting.asked outcome.checks outcome.events := by
  cases effect with
  | refused error checks events inquiry => exact inquiry.answered
  | resolved user path ending walked checks events returns quiet answered => exact answered
  | created user name requested found valid granted => exact .granted granted rfl
  | renamed user old new found valid granted => exact .granted granted rfl
  | removed user name found granted => exact .granted granted rfl
  | walked user name found granted => exact .granted granted rfl
  | openedFile user request there isFile granted => exact .granted granted rfl
  | openedDirectory user request there isDirectory granted => exact .granted granted rfl
  | closed | droppedOpen => exact .silent (filter_isDenial_closedEvent _)
  | stalled | madeFile | madeDirectory | held | letGo | attached | added | revised | rekeyed
  | soughtFile | rewound | stayed | readContent | readSnapshot | readFresh | written
  | droppedClosed => exact .silent rfl

end Tree

namespace World

/-- The queries put to the policy in the course of a run, with its answers. -/
def checks (world : World) (operations : List (Clock × Operation)) : List Check :=
  (world.outcomes operations).flatMap Outcome.checks

/-- The events that a run leaves. -/
def events (world : World) (operations : List (Clock × Operation)) : List Event :=
  (world.outcomes operations).flatMap Outcome.events

theorem events_cons (world : World) (clock : Clock) (operation : Operation)
    (rest : List (Clock × Operation)) :
    world.events ((clock, operation) :: rest) =
      (world.outcome clock operation).events ++ (world.step clock operation).events rest := rfl

/-- Over a run, the denials among the events report the refusals of the policy. -/
theorem answered_run (world : World) (operations : List (Clock × Operation)) :
    Answered world.policy world.asked (world.checks operations) (world.events operations) := by
  induction operations generalizing world with
  | nil => exact .silent rfl
  | cons timed rest inductionHypothesis =>
      have here := (world.effect_outcome timed.1 timed.2).answered
      exact Answered.append here (inductionHypothesis (world.step timed.1 timed.2))

end World

end MemFs
