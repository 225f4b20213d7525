import MemFs.Proofs.Session.Turnover
import Mathlib.Data.List.Induction

/-!
# Open sessions are counted

A node counts the sessions that were opened on it and neither closed nor given up since. The events
for the node tell the same number, and each session is released once, however it ends.
-/

namespace MemFs

/-- An operation of a run with the tree before it and with what came of it. -/
structure Step where
  before : Tree
  operation : Operation
  outcome : Outcome Answer

namespace Step

/-- The events that the operation left for a node on which it opened or ended a session. -/
def eventsOn (ref : NodeRef) (step : Step) : List Event :=
  if step.operation.nodeUsed? step.before = some ref then step.outcome.events else []

/-- The operation ended an open session. -/
def isRelease (session : SessionRef) (step : Step) : Bool :=
  step.operation.ends session && step.outcome.events.any Event.isClosing

end Step

namespace Tree

variable {tree : Tree} {operation : Operation} {outcome : Outcome Answer}

/-! ## One operation -/

/-- A node counts the sessions that are open on it. -/
def IsCounted (tree : Tree) (ref : NodeRef) : Prop :=
  (tree.valueAt Node.openCount 0 ref).toNat = (tree.sessionsOn ref).card

/-- The count without one session is one less, or stays zero. -/
theorem toNat_released (count : UInt32) : (count - min count 1).toNat = count.toNat - 1 := by
  change (count - if count ≤ 1 then count else 1).toNat = count.toNat - 1
  split
  · rename_i small
    have atMostOne : count.toNat ≤ 1 := UInt32.le_iff_toNat_le.mp small
    rw [UInt32.sub_self, UInt32.toNat_zero]
    omega
  · rename_i large
    have atLeastOne : 1 ≤ count := (UInt32.le_total count 1).resolve_left large
    rw [UInt32.toNat_sub_of_le _ _ atLeastOne, UInt32.toNat_one]

/-- The count of a node stays right as long as it fits its 32 bits. -/
theorem Turnover.isCounted (turnover : Turnover tree operation outcome) {ref : NodeRef}
    (counted : tree.IsCounted ref) (sound : outcome.tree.IsSound)
    (few : (outcome.tree.sessionsOn ref).card < UInt32.size) : outcome.tree.IsCounted ref := by
  unfold IsCounted at counted ⊢
  by_cases there : (outcome.tree.node? ref).isSome = true
  · cases turnover with
    | quiet silent size onNode opens =>
        rw [opens ref fun _ => there, card_sessionsOn_of_same onNode, counted]
    | @opened target _ _ _ _ isOpening node done announced opening number size onNode opens =>
        have grown := card_sessionsOn_opened onNode ref
        rw [opens]
        by_cases here : ref = target
        · rw [if_pos here] at grown ⊢
          rw [grown] at few ⊢
          rw [UInt32.toNat_add, counted, UInt32.toNat_one]
          exact Nat.mod_eq_of_lt few
        · rw [if_neg here] at grown ⊢
          rw [counted, grown, Nat.add_zero]
    | @released ended target _ _ isEnding node before announced closing number size onNode opens =>
        have fewer := card_sessionsOn_released before onNode ref
        rw [opens ref fun _ => there]
        by_cases here : ref = target
        · rw [if_pos here] at fewer ⊢
          rw [toNat_released]
          omega
        · rw [if_neg here] at fewer ⊢
          omega
  · have missing := Option.not_isSome_iff_eq_none.mp there
    rw [valueAt_of_missing missing, sound.sessionsOn_of_missing missing, Finset.card_empty]
    rfl

theorem countP_silent {events : List Event}
    (silent : ∀ event ∈ events, event.isOpening = false ∧ event.isClosing = false) :
    events.countP Event.isOpening = 0 ∧ events.countP Event.isClosing = 0 := by
  constructor
  · refine List.countP_eq_zero.mpr fun event here => ?_
    rw [(silent event here).1]
    exact Bool.false_ne_true
  · refine List.countP_eq_zero.mpr fun event here => ?_
    rw [(silent event here).2]
    exact Bool.false_ne_true

theorem eventsOn_of_single {target : NodeRef} {event : Event}
    (used : operation.nodeUsed? tree = some target) (announced : outcome.events = [event])
    (ref : NodeRef) :
    Step.eventsOn ref ⟨tree, operation, outcome⟩ = if ref = target then [event] else [] := by
  simp only [Step.eventsOn, used, announced, Option.some.injEq, eq_comm]

/-- The events for a node tell how the number of the sessions on it changes. -/
theorem Turnover.events_balance (turnover : Turnover tree operation outcome) (ref : NodeRef) :
    let events := Step.eventsOn ref ⟨tree, operation, outcome⟩
    events.countP Event.isOpening + (tree.sessionsOn ref).card =
      events.countP Event.isClosing + (outcome.tree.sessionsOn ref).card := by
  intro events
  cases turnover with
  | quiet silent size onNode opens =>
      have counts : events.countP Event.isOpening = 0 ∧ events.countP Event.isClosing = 0 := by
        unfold events Step.eventsOn
        split
        · exact countP_silent silent
        · exact ⟨rfl, rfl⟩
      rw [counts.1, counts.2, card_sessionsOn_of_same onNode]
  | @opened target _ _ _ event isOpening there done announced opening number size onNode opens =>
      have notClosing := Event.not_isClosing_of_isOpening opening
      have grown := card_sessionsOn_opened onNode ref
      unfold events
      rw [eventsOn_of_single (nodeUsed?_of_opening isOpening) announced ref, grown]
      by_cases here : ref = target
      · simp only [if_pos here, List.countP_singleton, opening, notClosing]
        simp only [if_true, Bool.false_eq_true, if_false]
        omega
      · rw [if_neg here, if_neg here]
        rfl
  | @released ended target _ event isEnding there before announced closing number size onNode =>
      have notOpening := Event.not_isOpening_of_isClosing closing
      have fewer := card_sessionsOn_released before onNode ref
      unfold events
      rw [eventsOn_of_single (nodeUsed?_of_ending isEnding before) announced ref]
      by_cases here : ref = target
      · rw [if_pos here] at fewer
        simp only [if_pos here, List.countP_singleton, closing, notOpening]
        simp only [if_true, Bool.false_eq_true, if_false]
        omega
      · rw [if_neg here] at fewer
        rw [if_neg here, ← fewer]
        rfl

/-- An event for the opening or the end of a session carries the number of the node that is used. -/
theorem Turnover.number_of_event (turnover : Turnover tree operation outcome) {event : Event}
    (here : event ∈ outcome.events) (counts : event.isOpening = true ∨ event.isClosing = true) :
    ∃ ref node, operation.nodeUsed? tree = some ref ∧ tree.node? ref = some node ∧
      event.number? = some node.id := by
  cases turnover with
  | quiet silent size onNode opens =>
      obtain ⟨notOpening, notClosing⟩ := silent event here
      rw [notOpening, notClosing] at counts
      exact absurd counts (by decide)
  | opened isOpening there done announced opening number size onNode opens =>
      rw [announced, List.mem_singleton] at here
      exact ⟨_, _, nodeUsed?_of_opening isOpening, there, here ▸ number⟩
  | released isEnding there before announced closing number size onNode opens =>
      rw [announced, List.mem_singleton] at here
      exact ⟨_, _, nodeUsed?_of_ending isEnding before, there, here ▸ number⟩

/-- A session is open after an operation if it was so before or is new, and was not released. -/
theorem Turnover.releases_balance (turnover : Turnover tree operation outcome)
    (session : SessionRef) :
    (if Step.isRelease session ⟨tree, operation, outcome⟩ then 1 else 0)
        + (if (outcome.tree.nodeOf? session).isSome then 1 else 0)
        + (if session.place < tree.sessions.size then 1 else 0) =
      (if (tree.nodeOf? session).isSome then 1 else 0)
        + (if session.place < outcome.tree.sessions.size then 1 else 0) := by
  cases turnover with
  | quiet silent size onNode opens =>
      have kept : Step.isRelease session ⟨tree, operation, outcome⟩ = false := by
        refine Bool.and_eq_false_imp.mpr fun _ => List.any_eq_false.mpr fun event here => ?_
        rw [(silent event here).2]
        exact Bool.false_ne_true
      simp only [kept, onNode, size, Bool.false_eq_true, if_false, Nat.zero_add]
  | @opened target _ _ _ event isOpening there done announced opening number size onNode opens =>
      have kept : Step.isRelease session ⟨tree, operation, outcome⟩ = false := by
        rw [isOpening]
        rfl
      rw [kept, onNode, size]
      by_cases next : session = tree.nextSession
      · have new : session.place = tree.sessions.size := congrArg SessionRef.place next
        rw [if_pos next, next, nodeOf?_nextSession]
        simp [nextSession]
      · have old : session.place ≠ tree.sessions.size := fun same =>
          next (congrArg SessionRef.mk same)
        have sameMade : session.place < tree.sessions.size + 1 ↔
            session.place < tree.sessions.size := by omega
        simp only [if_neg next, sameMade, Bool.false_eq_true, if_false, Nat.zero_add]
  | @released ended target _ event isEnding there before announced closing number size onNode =>
      have isRelease : Step.isRelease session ⟨tree, operation, outcome⟩ =
          decide (ended = session) := by
        rw [Step.isRelease, ends_of_ending isEnding, announced, List.any_cons, closing,
          Bool.true_or, Bool.and_true]
      rw [isRelease, onNode, size]
      by_cases here : session = ended
      · subst here
        simp [before]
      · have other : ¬ ended = session := fun same => here same.symm
        simp [here, other]

/-- A session is open on a node after an operation if it was so before and is not ended by it, or if
the operation opened it there. -/
theorem IsSound.nodeOf?_perform_iff (sound : tree.IsSound) (setting : Setting)
    (operation : Operation) (session : SessionRef) (ref : NodeRef) :
    (tree.perform setting operation).tree.nodeOf? session = some ref ↔
      (tree.nodeOf? session = some ref ∧ operation.ends session = false) ∨
        ∃ user request, operation = .openSession ref user request ∧
          (tree.perform setting operation).ending = .ok (.session session) := by
  have effect := effect_perform tree setting operation
  have turnover := effect.turnover sound
  by_cases ends : operation.ends session = true
  · rw [sound.nodeOf?_of_ends ends setting]
    refine iff_of_false nofun ?_
    rintro (⟨-, kept⟩ | ⟨user, request, rfl, -⟩)
    · rw [ends] at kept
      cases kept
    · cases ends
  have survives : operation.ends session = false := Bool.eq_false_of_not_eq_true ends
  cases turnover with
  | quiet silent size onNode opens =>
      rw [onNode, and_iff_left survives]
      refine (or_iff_left ?_).symm
      rintro ⟨user, request, rfl, done⟩
      have grown := effect.size_of_opened done
      omega
  | @opened target _ user request _ isOpening there done announced opening number size onNode =>
      subst isOpening
      rw [onNode, and_iff_left survives, done]
      by_cases next : session = tree.nextSession
      · subst next
        rw [if_pos rfl, nodeOf?_nextSession]
        constructor
        · intro same
          cases same
          exact Or.inr ⟨user, request, rfl, rfl⟩
        · rintro (onNext | ⟨_, _, same, -⟩)
          · cases onNext
          · cases same
            rfl
      · rw [if_neg next]
        refine (or_iff_left ?_).symm
        rintro ⟨_, _, -, same⟩
        cases same
        exact next rfl
  | @released ended target _ _ isEnding there before announced closing number size onNode =>
      have other : session ≠ ended := by
        intro same
        rw [ends_of_ending isEnding, same, decide_eq_false_iff_not] at survives
        exact survives rfl
      rw [onNode, if_neg other, and_iff_left survives]
      refine (or_iff_left ?_).symm
      rintro ⟨user, request, rfl, -⟩
      rcases isEnding with isClose | isDrop
      · cases isClose
      · cases isDrop

/-- A session that was made and is not open now. -/
structure IsOver (tree : Tree) (session : SessionRef) : Prop where
  made : session.place < tree.sessions.size
  closed : tree.nodeOf? session = none

theorem IsOver.perform {session : SessionRef} (isOver : tree.IsOver session) (sound : tree.IsSound)
    (setting : Setting) (operation : Operation) :
    (tree.perform setting operation).tree.IsOver session := by
  have balance := ((effect_perform tree setting operation).turnover sound).releases_balance session
  simp only [isOver.made, isOver.closed, if_true, Option.isSome_none, Bool.false_eq_true,
    if_false] at balance
  have made : session.place < (tree.perform setting operation).tree.sessions.size := by
    by_contra unmade
    rw [if_neg unmade] at balance
    omega
  refine ⟨made, Option.not_isSome_iff_eq_none.mp fun isOpen => ?_⟩
  rw [if_pos made, if_pos isOpen] at balance
  omega

theorem IsOver.of_close {session : SessionRef} (sound : tree.IsSound) {setting : Setting}
    {answer : Answer} (done : (tree.perform setting (.close session)).ending = .ok answer) :
    (tree.perform setting (.close session)).tree.IsOver session := by
  have onNode : tree.nodeOf? session ≠ none := by
    intro closed
    rw [perform_of_nodeOf?_none rfl closed setting] at done
    cases done
  obtain ⟨ref, before⟩ := Option.ne_none_iff_exists'.mp onNode
  have size := (effect_perform tree setting (.close session)).size_sessions_eq nofun
  have ends : (Operation.close session).ends session = true := decide_eq_true rfl
  exact ⟨size ▸ place_lt_of_nodeOf? before, sound.nodeOf?_of_ends ends setting⟩

end Tree

/-! ## Runs -/

namespace World

/-- The operations of a run with what came of each. -/
def steps : World → List (Clock × Operation) → List Step
  | _, [] => []
  | world, (clock, operation) :: rest =>
      ⟨world.tree, operation, world.outcome clock operation⟩ ::
        steps (world.step clock operation) rest

/-- The events that a run leaves for a node, one after the other. -/
def eventsOn (world : World) (ref : NodeRef) (operations : List (Clock × Operation)) :
    List Event :=
  (world.steps operations).flatMap (Step.eventsOn ref)

/-- How often a run ends a session that is open. -/
def releases (world : World) (session : SessionRef) (operations : List (Clock × Operation)) :
    Nat :=
  (world.steps operations).countP (Step.isRelease session)

/-- In a run, a session was opened on a node and neither closed nor given up since. -/
def LeavesOpen (world : World) (operations : List (Clock × Operation)) (session : SessionRef)
    (ref : NodeRef) : Prop :=
  ∃ front clock user request behind,
    operations = front ++ (clock, .openSession ref user request) :: behind ∧
    ((world.run front).outcome clock (.openSession ref user request)).ending =
      .ok (.session session) ∧
    ∀ timed ∈ behind, timed.2.ends session = false

variable {operations : List (Clock × Operation)} {world : World}

theorem leavesOpen_concat_iff {clock : Clock} {operation : Operation} {session : SessionRef}
    {ref : NodeRef} :
    world.LeavesOpen (operations ++ [(clock, operation)]) session ref ↔
      (world.LeavesOpen operations session ref ∧ operation.ends session = false) ∨
        ∃ user request, operation = .openSession ref user request ∧
          ((world.run operations).outcome clock operation).ending = .ok (.session session) := by
  constructor
  · rintro ⟨front, time, user, request, behind, split, done, survives⟩
    rcases List.eq_nil_or_concat behind with rfl | ⟨between, last, rfl⟩
    · obtain ⟨rfl, same⟩ := List.append_inj' split rfl
      cases same
      exact Or.inr ⟨user, request, rfl, done⟩
    · rw [List.concat_eq_append] at split survives
      rw [← List.cons_append, ← List.append_assoc] at split
      obtain ⟨rfl, same⟩ := List.append_inj' split rfl
      cases same
      refine Or.inl ⟨⟨front, time, user, request, between, rfl, done, ?_⟩, ?_⟩
      · intro timed here
        exact survives timed (List.mem_append_left _ here)
      · exact survives (clock, operation) (List.mem_append_right _ (List.mem_singleton_self _))
  · rintro (⟨⟨front, time, user, request, behind, split, done, survives⟩, kept⟩ |
      ⟨user, request, rfl, done⟩)
    · refine ⟨front, time, user, request, behind ++ [(clock, operation)], ?_, done, ?_⟩
      · rw [split, List.append_assoc, List.cons_append]
      · intro timed here
        rcases List.mem_append.mp here with old | last
        · exact survives timed old
        · rw [List.mem_singleton.mp last]
          exact kept
    · exact ⟨operations, clock, user, request, [], rfl, done, nofun⟩

/-- If no session was open before a run, those open after it are those that it leaves open. -/
theorem nodeOf?_run_iff (sound : world.tree.IsSound)
    (unopened : ∀ session, world.tree.nodeOf? session = none) {session : SessionRef}
    {ref : NodeRef} :
    (world.run operations).tree.nodeOf? session = some ref ↔
      world.LeavesOpen operations session ref := by
  induction operations using List.reverseRecOn with
  | nil =>
      rw [show world.run [] = world from rfl, unopened]
      refine iff_of_false nofun ?_
      rintro ⟨front, clock, user, request, behind, split, -⟩
      exact List.cons_ne_nil _ _ (List.append_eq_nil_iff.mp split.symm).2
  | append_singleton operations timed inductionHypothesis =>
      obtain ⟨clock, operation⟩ := timed
      rw [run_concat, leavesOpen_concat_iff, ← inductionHypothesis]
      exact (sound.run operations).nodeOf?_perform_iff _ operation session ref

theorem isSound_step (sound : world.tree.IsSound) (clock : Clock) (operation : Operation) :
    (world.step clock operation).tree.IsSound :=
  sound.perform _ operation

theorem turnover_outcome (sound : world.tree.IsSound) (clock : Clock) (operation : Operation) :
    Tree.Turnover world.tree operation (world.outcome clock operation) :=
  (world.effect_outcome clock operation).turnover sound

/-- At no time in a run are there more sessions on a node than 32 bits can count. -/
def FewOn (world : World) (ref : NodeRef) (operations : List (Clock × Operation)) : Prop :=
  ∀ front, front <+: operations → ((world.run front).tree.sessionsOn ref).card < UInt32.size

theorem isCounted_run {ref : NodeRef} (sound : world.tree.IsSound)
    (counted : world.tree.IsCounted ref) (few : world.FewOn ref operations) :
    (world.run operations).tree.IsCounted ref := by
  induction operations generalizing world with
  | nil => exact counted
  | cons timed rest inductionHypothesis =>
      obtain ⟨clock, operation⟩ := timed
      have later := isSound_step sound clock operation
      have turnover := turnover_outcome sound clock operation
      have fewLater : (world.step clock operation).FewOn ref rest := fun front part =>
        few ((clock, operation) :: front) ((List.prefix_cons_inj _).mpr part)
      exact inductionHypothesis later
        (turnover.isCounted counted later (fewLater [] List.nil_prefix)) fewLater

/-- An operation makes one session at most. -/
theorem size_sessions_run_le (sound : world.tree.IsSound) (operations : List (Clock × Operation)) :
    (world.run operations).tree.sessions.size ≤ world.tree.sessions.size + operations.length := by
  induction operations generalizing world with
  | nil => exact Nat.le_refl _
  | cons timed rest inductionHypothesis =>
      obtain ⟨clock, operation⟩ := timed
      have further := inductionHypothesis (isSound_step sound clock operation)
      have grown : (world.step clock operation).tree.sessions.size ≤
          world.tree.sessions.size + 1 := by
        cases turnover_outcome sound clock operation with
        | quiet silent size => exact Nat.le_succ_of_le (Nat.le_of_eq size)
        | opened isOpening there done announced opening number size => exact Nat.le_of_eq size
        | released isEnding there before announced closing number size =>
            exact Nat.le_succ_of_le (Nat.le_of_eq size)
      rw [run_cons, List.length_cons]
      omega

theorem fewOn_of_length_lt (sound : world.tree.IsSound)
    (short : world.tree.sessions.size + operations.length < UInt32.size) (ref : NodeRef) :
    world.FewOn ref operations := by
  intro front part
  have card : ((world.run front).tree.sessionsOn ref).card ≤
      (world.run front).tree.sessions.size :=
    (Finset.card_filter_le _ _).trans_eq (Finset.card_range _)
  have made := size_sessions_run_le sound front
  have shorter := part.length_le
  omega

/-- The events for a node tell how the number of the sessions on it changes in a run. -/
theorem eventsOn_balance (sound : world.tree.IsSound) (ref : NodeRef)
    (operations : List (Clock × Operation)) :
    (world.eventsOn ref operations).countP Event.isOpening + (world.tree.sessionsOn ref).card =
      (world.eventsOn ref operations).countP Event.isClosing
        + ((world.run operations).tree.sessionsOn ref).card := by
  induction operations generalizing world with
  | nil => rfl
  | cons timed rest inductionHypothesis =>
      obtain ⟨clock, operation⟩ := timed
      have first := (turnover_outcome sound clock operation).events_balance ref
      have further := inductionHypothesis (isSound_step sound clock operation)
      rw [run_cons, eventsOn, steps, List.flatMap_cons, ← eventsOn, List.countP_append,
        List.countP_append]
      change _ = _ + ((world.step clock operation).tree.sessionsOn ref).card at first
      omega

/-- A session is open after a run if it was so before or is new, and was not released. -/
theorem releases_balance (sound : world.tree.IsSound) (session : SessionRef)
    (operations : List (Clock × Operation)) :
    world.releases session operations
        + (if ((world.run operations).tree.nodeOf? session).isSome then 1 else 0)
        + (if session.place < world.tree.sessions.size then 1 else 0) =
      (if (world.tree.nodeOf? session).isSome then 1 else 0)
        + (if session.place < (world.run operations).tree.sessions.size then 1 else 0) := by
  induction operations generalizing world with
  | nil => exact congrArg (· + _) (Nat.zero_add _)
  | cons timed rest inductionHypothesis =>
      obtain ⟨clock, operation⟩ := timed
      have first := (turnover_outcome sound clock operation).releases_balance session
      have further := inductionHypothesis (isSound_step sound clock operation)
      rw [run_cons, releases, steps, List.countP_cons, ← releases]
      change _ + (if ((world.step clock operation).tree.nodeOf? session).isSome then 1 else 0) + _ =
        _ + (if session.place < (world.step clock operation).tree.sessions.size then 1 else 0)
          at first
      omega

theorem number_of_event (sound : world.tree.IsSound) {step : Step}
    (here : step ∈ world.steps operations) {event : Event} (left : event ∈ step.outcome.events)
    (counts : event.isOpening = true ∨ event.isClosing = true) :
    ∃ ref node, step.operation.nodeUsed? step.before = some ref ∧
      step.before.node? ref = some node ∧ event.number? = some node.id := by
  induction operations generalizing world with
  | nil => cases here
  | cons timed rest inductionHypothesis =>
      obtain ⟨clock, operation⟩ := timed
      rcases List.mem_cons.mp here with rfl | further
      · exact (turnover_outcome sound clock operation).number_of_event left counts
      · exact inductionHypothesis (isSound_step sound clock operation) further

theorem isOver_run {session : SessionRef} (sound : world.tree.IsSound)
    (isOver : world.tree.IsOver session) (operations : List (Clock × Operation)) :
    (world.run operations).tree.IsOver session := by
  induction operations generalizing world with
  | nil => exact isOver
  | cons timed rest inductionHypothesis =>
      exact inductionHypothesis (isSound_step sound timed.1 timed.2)
        (isOver.perform sound _ timed.2)

/-- The counts of open sessions are right after a run, for each node that never has more sessions
than 32 bits can count. -/
structure CountsSessions (start : World) (operations : List (Clock × Operation)) : Prop where
  /-- Each node counts the sessions on it. -/
  counted : ∀ ref node, start.FewOn ref operations →
    (start.run operations).tree.node? ref = some node →
      node.opens = ((start.run operations).tree.sessionsOn ref).card
  /-- These are the sessions that were opened on it and neither closed nor given up since. -/
  leftOpen : ∀ ref place, place ∈ (start.run operations).tree.sessionsOn ref ↔
    start.LeavesOpen operations ⟨place⟩ ref
  /-- The events for a node tell the same number. -/
  announced : ∀ ref node, start.FewOn ref operations →
    (start.run operations).tree.node? ref = some node →
      (start.eventsOn ref operations).countP Event.isOpening =
        (start.eventsOn ref operations).countP Event.isClosing + node.opens
  /-- Whatever event tells of a session that began or ended is for a node and carries its number. -/
  numbered : ∀ step ∈ start.steps operations, ∀ event ∈ step.outcome.events,
    event.isOpening = true ∨ event.isClosing = true →
      ∃ ref node, step.operation.nodeUsed? step.before = some ref ∧
        step.before.node? ref = some node ∧ event.number? = some node.id
  /-- A session is released once, which is when it ends. -/
  released : ∀ session : SessionRef,
    session.place < (start.run operations).tree.sessions.size →
      start.releases session operations =
        if ((start.run operations).tree.nodeOf? session).isSome then 0 else 1
  /-- A session that was closed refuses everything from then on. -/
  refused : ∀ front time session behind,
    operations = front ++ (time, .close session) :: behind →
      ((start.run front).outcome time (.close session)).ending = .ok .done →
        ∀ clock operation, operation.session? = some session →
          (start.run operations).outcome clock operation =
            ⟨.error .notOpen, (start.run operations).tree, [], []⟩
  /-- To release an open session takes one from a count that is not zero. -/
  positive : ∀ session kept ref node, start.FewOn ref operations →
    (start.run operations).tree.OpenOn session kept ref node →
      node.released.opens + 1 = node.opens
  /-- A run of fewer operations than that never has too many sessions on a node. -/
  few : operations.length < UInt32.size → ∀ ref, start.FewOn ref operations

/-- In every run from the start, the counts of open sessions balance. -/
theorem countsSessions_fresh (policy : Policy) (blueprint : Blueprint) (ids : IdSource)
    (start : UInt32) (operations : List (Clock × Operation)) :
    (fresh policy blueprint ids start).CountsSessions operations := by
  have sound : (fresh policy blueprint ids start).tree.IsSound :=
    Tree.isSound_ofRoot blueprint ids start
  have unopened : ∀ session, (fresh policy blueprint ids start).tree.nodeOf? session = none :=
    fun _ => rfl
  have initially : ∀ ref, (fresh policy blueprint ids start).tree.IsCounted ref := fun ref =>
    congrArg UInt32.toNat (Tree.valueAt_ofRoot blueprint ids start fun _ => rfl)
  have counted : ∀ ref node, (fresh policy blueprint ids start).FewOn ref operations →
      ((fresh policy blueprint ids start).run operations).tree.node? ref = some node →
        node.opens =
          (((fresh policy blueprint ids start).run operations).tree.sessionsOn ref).card := by
    intro ref node few there
    rw [← isCounted_run sound (initially ref) few, Tree.valueAt_of_node? there, Node.opens]
  constructor
  · exact counted
  · intro ref place
    rw [Tree.mem_sessionsOn]
    exact nodeOf?_run_iff sound unopened
  · intro ref node few there
    rw [counted ref node few there]
    exact eventsOn_balance sound ref operations
  · intro step here event left counts
    exact number_of_event sound here left counts
  · intro session made
    have balance := releases_balance sound session operations
    rw [if_pos made, unopened] at balance
    have unmade : ¬ session.place < (fresh policy blueprint ids start).tree.sessions.size :=
      Nat.not_lt_zero _
    rw [if_neg unmade, Option.isSome_none] at balance
    split
    · rename_i isOpen
      rw [if_pos isOpen] at balance
      exact Nat.add_right_cancel balance
    · rename_i closed
      rw [if_neg closed] at balance
      exact balance.trans (Nat.zero_add 1)
  · intro front time session behind split done clock operation asked
    have before := sound.run front
    have isOver := isOver_run (isSound_step before time (.close session))
      (Tree.IsOver.of_close before done) behind
    rw [split, run, List.foldl_append, ← run]
    exact Tree.perform_of_nodeOf?_none asked isOver.closed _
  · intro session kept ref node few isOpen
    have onNode : session.place ∈
        ((fresh policy blueprint ids start).run operations).tree.sessionsOn ref :=
      Tree.mem_sessionsOn.mpr isOpen.nodeOf?
    have some : 0 < node.opens := by
      rw [counted ref node few isOpen.there]
      exact Finset.card_pos.mpr ⟨session.place, onNode⟩
    have less : node.released.opens = node.opens - 1 := Tree.toNat_released node.openCount
    omega
  · intro short
    refine fewOn_of_length_lt sound ?_
    change 0 + operations.length < UInt32.size
    rwa [Nat.zero_add]

/-- The root is opened twice. One session is closed, closed again and given up, the other stays. -/
example :
    let start := fresh .allowAll ⟨"", ⟨0o755⟩, "o", "g"⟩ .sequential 0
    let operations := [.openSession ⟨0⟩ "o" ⟨0⟩, .openSession ⟨0⟩ "o" ⟨0⟩, .close ⟨0⟩, .close ⟨0⟩,
      .dropSession ⟨0⟩].map fun operation : Operation => ((1 : Clock), operation)
    start.releases ⟨0⟩ operations = 1 ∧ start.releases ⟨1⟩ operations = 0 ∧
      (start.run operations).tree.sessionsOn ⟨0⟩ = {1} := by
  decide +kernel

end World

end MemFs
