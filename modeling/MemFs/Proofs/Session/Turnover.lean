import MemFs.Proofs.Session.Soundness
import MemFs.Proofs.Tree.Value
import Mathlib.Data.Finset.Card
import Mathlib.Data.Finset.Range

/-!
# Sessions begin and end

`Turnover` is the view that open sessions have of an operation: it begins one, ends one, or leaves
each open on what it was open on. The count of a node and the events for it go with that. An
operation on a session that is not open is refused.
-/

namespace MemFs

namespace Event

def isOpening : Event → Bool
  | .fileOpened .. | .directoryOpened .. => true
  | _ => false

def isClosing : Event → Bool
  | .fileClosed .. | .directoryClosed .. => true
  | _ => false

/-- The node that was opened or closed. -/
def number? : Event → Option UInt64
  | .fileOpened node .. | .directoryOpened node .. | .fileClosed node _ | .directoryClosed node _ =>
      some node
  | _ => none

theorem silent_of_debug {event : Event} (quiet : event.level = .debug) :
    event.isOpening = false ∧ event.isClosing = false := by
  cases event <;> first | exact ⟨rfl, rfl⟩ | cases quiet

theorem not_isClosing_of_isOpening {event : Event} (opening : event.isOpening = true) :
    event.isClosing = false := by
  cases event <;> first | rfl | cases opening

theorem not_isOpening_of_isClosing {event : Event} (closing : event.isClosing = true) :
    event.isOpening = false := by
  cases event <;> first | rfl | cases closing

theorem silent_singleton {event : Event} (opening : event.isOpening = false)
    (closing : event.isClosing = false) :
    ∀ other ∈ [event], other.isOpening = false ∧ other.isClosing = false := by
  intro other here
  rw [List.mem_singleton.mp here]
  exact ⟨opening, closing⟩

end Event

namespace Tree

/-- The node that a session is open on. -/
def nodeOf? (tree : Tree) (session : SessionRef) : Option NodeRef :=
  (tree.session? session).bind Session.node

/-- The places of the sessions that are open on a node. -/
def sessionsOn (tree : Tree) (ref : NodeRef) : Finset Nat :=
  (Finset.range tree.sessions.size).filter fun place => tree.nodeOf? ⟨place⟩ = some ref

end Tree

namespace Operation

/-- An operation that ends a session. -/
def ends : Operation → SessionRef → Bool
  | .close other, session | .dropSession other, session => other = session
  | _, _ => false

/-- The node on which an operation opens a session, or ends one that is open. -/
def nodeUsed? (tree : Tree) : Operation → Option NodeRef
  | .openSession node _ _ => some node
  | .close session | .dropSession session => tree.nodeOf? session
  | _ => none

/-- The session on which an operation asks for something other than to be given up. -/
def session? : Operation → Option SessionRef
  | .seek session _ _ | .read session _ | .readAll session _ | .write session _
  | .close session => some session
  | _ => none

end Operation

namespace Tree

variable {tree : Tree}

theorem nodeOf?_congr {after : Tree} {session : SessionRef}
    (same : after.session? session = tree.session? session) :
    after.nodeOf? session = tree.nodeOf? session := by
  rw [nodeOf?, nodeOf?, same]

theorem nodeOf?_modifySession {changed session : SessionRef} {change : Session → Session}
    (same : ∀ session, (change session).node = session.node) :
    (tree.modifySession changed change).nodeOf? session = tree.nodeOf? session := by
  rw [nodeOf?, nodeOf?, session?_modifySession]
  split
  · rw [Option.bind_map]
    exact congrArg ((tree.session? session).bind ·) (funext same)
  · rfl

theorem nodeOf?_addSession (session : Session) (other : SessionRef) :
    (tree.addSession session).nodeOf? other =
      if other = tree.nextSession then session.node else tree.nodeOf? other := by
  rw [nodeOf?, session?_addSession]
  split
  · rfl
  · rfl

theorem nodeOf?_release (session other : SessionRef) (nodeRef : NodeRef) :
    (tree.release session nodeRef).nodeOf? other =
      if other = session then none else tree.nodeOf? other := by
  rw [nodeOf?, session?_release]
  split
  · rw [Option.bind_map]
    cases tree.session? other <;> rfl
  · rfl

theorem nodeOf?_forget (session other : SessionRef) :
    (tree.forget session).nodeOf? other =
      if other = session then none else tree.nodeOf? other := by
  rw [nodeOf?, session?_forget]
  split <;> rfl

theorem place_lt_of_nodeOf? {session : SessionRef} {ref : NodeRef}
    (onNode : tree.nodeOf? session = some ref) : session.place < tree.sessions.size := by
  obtain ⟨kept, found, -⟩ := Option.bind_eq_some_iff.mp onNode
  exact sessionPlace_lt_size found

theorem mem_sessionsOn {ref : NodeRef} {place : Nat} :
    place ∈ tree.sessionsOn ref ↔ tree.nodeOf? ⟨place⟩ = some ref := by
  rw [sessionsOn, Finset.mem_filter, Finset.mem_range, and_iff_right_iff_imp]
  exact place_lt_of_nodeOf?

theorem OpenOn.nodeOf? {session : SessionRef} {kept : Session} {ref : NodeRef} {node : Node}
    (isOpen : tree.OpenOn session kept ref node) : tree.nodeOf? session = some ref := by
  rw [Tree.nodeOf?, isOpen.kept, Option.bind_some, isOpen.onNode]

/-! ## One operation -/

/-- What the counts see of an operation. -/
inductive Turnover (tree : Tree) (operation : Operation) (outcome : Outcome Answer) : Prop
  | quiet
      (silent : ∀ event ∈ outcome.events, event.isOpening = false ∧ event.isClosing = false)
      (size : outcome.tree.sessions.size = tree.sessions.size)
      (onNode : ∀ session, outcome.tree.nodeOf? session = tree.nodeOf? session)
      (opens : ∀ ref, ((tree.node? ref).isSome = true → (outcome.tree.node? ref).isSome = true) →
        outcome.tree.valueAt Node.openCount 0 ref = tree.valueAt Node.openCount 0 ref)
  | opened {target : NodeRef} {node : Node} {user : String} {request : Request} {event : Event}
      (isOpening : operation = .openSession target user request)
      (there : tree.node? target = some node)
      (done : outcome.ending = .ok (.session tree.nextSession))
      (announced : outcome.events = [event]) (opening : event.isOpening = true)
      (number : event.number? = some node.id)
      (size : outcome.tree.sessions.size = tree.sessions.size + 1)
      (onNode : ∀ session, outcome.tree.nodeOf? session =
        if session = tree.nextSession then some target else tree.nodeOf? session)
      (opens : ∀ ref, outcome.tree.valueAt Node.openCount 0 ref =
        if ref = target then tree.valueAt Node.openCount 0 ref + 1
        else tree.valueAt Node.openCount 0 ref)
  | released {ended : SessionRef} {target : NodeRef} {node : Node} {event : Event}
      (isEnding : operation = .close ended ∨ operation = .dropSession ended)
      (there : tree.node? target = some node) (before : tree.nodeOf? ended = some target)
      (announced : outcome.events = [event]) (closing : event.isClosing = true)
      (number : event.number? = some node.id)
      (size : outcome.tree.sessions.size = tree.sessions.size)
      (onNode : ∀ session, outcome.tree.nodeOf? session =
        if session = ended then none else tree.nodeOf? session)
      (opens : ∀ ref, ((tree.node? ref).isSome = true → (outcome.tree.node? ref).isSome = true) →
        outcome.tree.valueAt Node.openCount 0 ref =
          if ref = target then
            tree.valueAt Node.openCount 0 ref - min (tree.valueAt Node.openCount 0 ref) 1
          else tree.valueAt Node.openCount 0 ref)

theorem openCount_newChild (parent : NodeRef) (directory : Node) (name : String)
    (requested : Mode) (now : UInt32) (id : UInt64) :
    (newChild parent directory name requested now id).openCount = 0 := by
  unfold newChild
  split <;> rfl

theorem isClosing_closedEvent (node : Node) : (closedEvent node).isClosing = true := by
  unfold closedEvent
  split <;> rfl

theorem number_closedEvent (node : Node) : (closedEvent node).number? = some node.id := by
  unfold closedEvent
  split <;> rfl

/-- A session that has a node is open on it. -/
theorem IsSound.exists_openOn (sound : tree.IsSound) {session : SessionRef} {ref : NodeRef}
    (onNode : tree.nodeOf? session = some ref) :
    ∃ kept node, tree.OpenOn session kept ref node := by
  obtain ⟨kept, found, has⟩ := Option.bind_eq_some_iff.mp onNode
  obtain ⟨node, isOpen, -⟩ := sound.openOn found has
  exact ⟨kept, node, isOpen⟩

theorem IsSound.nodeOf?_of_notOpen (sound : tree.IsSound) {session : SessionRef}
    (notOpen : ∀ kept ref node, ¬ tree.OpenOn session kept ref node) :
    tree.nodeOf? session = none := by
  cases onNode : tree.nodeOf? session with
  | none => rfl
  | some ref =>
      obtain ⟨kept, node, isOpen⟩ := sound.exists_openOn onNode
      exact absurd isOpen (notOpen kept ref node)

/-- An operation that changes neither the counts of nodes nor what sessions are open on. -/
private theorem turnover_of_kept {operation : Operation} {outcome : Outcome Answer}
    (size : outcome.tree.sessions.size = tree.sessions.size)
    (silent : ∀ event ∈ outcome.events, event.isOpening = false ∧ event.isClosing = false)
    (onNode : ∀ session, outcome.tree.nodeOf? session = tree.nodeOf? session)
    (opens : ∀ ref, outcome.tree.valueAt Node.openCount 0 ref = tree.valueAt Node.openCount 0 ref) :
    Turnover tree operation outcome :=
  Turnover.quiet silent size onNode fun ref _ => opens ref

theorem Effect.turnover {setting : Setting} {operation : Operation} {outcome : Outcome Answer}
    (effect : Effect tree setting operation outcome) (sound : tree.IsSound) :
    Turnover tree operation outcome := by
  have size := effect.size_sessions_eq
  cases effect with
  | refused error checks events inquiry =>
      exact turnover_of_kept rfl
        (fun event here => Event.silent_of_debug (inquiry.quiet event here)) (fun _ => rfl)
        fun _ => rfl
  | stalled => exact turnover_of_kept rfl nofun (fun _ => rfl) fun _ => rfl
  | madeFile | madeDirectory =>
      refine turnover_of_kept (size nofun) nofun (fun session => ?_) fun ref => ?_
      · exact nodeOf?_congr (session?_hold _ _ session)
      · exact (valueAt_congr (node?_hold _ _ ref)).trans (valueAt_addNode fun _ => rfl)
  | held node =>
      refine turnover_of_kept (size nofun) nofun (fun session => ?_) fun ref => ?_
      · exact nodeOf?_congr (session?_hold _ _ session)
      · exact valueAt_congr (node?_hold _ _ ref)
  | letGo node =>
      refine Turnover.quiet nofun (size nofun) (fun session => ?_) fun ref stays => ?_
      · exact nodeOf?_congr (session?_sweep _ session)
      · exact (swept_sweep { tree with held := tree.held.erase node }).toThinned.valueAt_eq stays
  | attached target parent =>
      refine turnover_of_kept (size nofun) nofun (fun session => ?_) fun ref => ?_
      · exact nodeOf?_congr (session?_attach tree target parent session)
      · exact valueAt_attach (fun _ _ => rfl) target parent
  | @created directory node _ user name requested found =>
      refine turnover_of_kept rfl (Event.silent_singleton rfl rfl) (fun _ => rfl) fun ref => ?_
      refine Eq.trans (valueAt_modifyNode_of_same ?_) (valueAt_addNode ?_)
      · exact fun _ => rfl
      · exact openCount_newChild directory node name requested setting.clock.now
  | added | renamed | rekeyed =>
      refine turnover_of_kept rfl (Event.silent_singleton rfl rfl) (fun _ => rfl) fun ref => ?_
      refine Eq.trans (valueAt_modifyNode_of_same ?_) (valueAt_modifyNode_of_same ?_)
      · exact fun _ => rfl
      · exact fun _ => rfl
  | @removed directory =>
      refine Turnover.quiet (Event.silent_singleton rfl rfl) (size nofun) (fun session => ?_)
        fun ref stays => ?_
      · exact nodeOf?_congr (session?_sweep _ session)
      · refine ((swept_sweep _).toThinned.valueAt_eq fun kept => stays ?_).trans ?_
        · exact (isSome_node?_modifyNode directory _ ref).symm.trans kept
        · exact valueAt_modifyNode_of_same fun _ => rfl
  | walked | revised | stayed =>
      refine turnover_of_kept rfl nofun (fun _ => rfl) fun ref => ?_
      exact valueAt_modifyNode_of_same fun _ => rfl
  | resolved user path ending walked checks events returns quiet =>
      refine turnover_of_kept (size nofun)
        (fun event here => Event.silent_of_debug (quiet event here)) (fun session => ?_)
        fun ref => valueAt_touchAll (fun _ _ => rfl) walked
      exact nodeOf?_congr (session?_touchAll tree _ walked session)
  | @openedFile target node _ user request there =>
      refine Turnover.opened rfl there rfl rfl rfl rfl (Arena.size_push tree.sessions _)
        (fun session => nodeOf?_addSession _ session) fun ref => ?_
      refine valueAt_modifyNode (· + 1) (isSome_of_node? there) fun node => ?_
      split <;> rfl
  | @openedDirectory target node _ user request there =>
      refine Turnover.opened rfl there rfl rfl rfl rfl (Arena.size_push tree.sessions _)
        (fun session => nodeOf?_addSession _ session) fun ref => ?_
      exact valueAt_modifyNode (· + 1) (isSome_of_node? there) fun _ => rfl
  | soughtFile | rewound | written =>
      refine turnover_of_kept (size nofun) nofun (fun session => ?_) fun ref => ?_
      · exact nodeOf?_modifySession fun _ => rfl
      · exact valueAt_modifyNode_of_same fun _ => rfl
  | readContent reads | readSnapshot reads =>
      refine turnover_of_kept (size fun _ _ _ opening => ?_) nofun (fun session => ?_) fun ref => ?_
      · rw [opening] at reads
        cases reads
      · exact nodeOf?_modifySession fun _ => rfl
      · exact valueAt_modifyNode_of_same fun _ => rfl
  | readFresh reads =>
      refine turnover_of_kept (size fun _ _ _ opening => ?_) nofun (fun session => ?_) fun ref => ?_
      · rw [opening] at reads
        cases reads
      · refine Eq.trans (nodeOf?_modifySession ?_) (nodeOf?_modifySession ?_)
        · exact fun _ => rfl
        · exact fun _ => rfl
      · exact valueAt_modifyNode_of_same fun _ => rfl
  | @closed ended _ target node isOpen =>
      refine Turnover.released (Or.inl rfl) isOpen.there isOpen.nodeOf? rfl
        (isClosing_closedEvent node) (number_closedEvent node) (size nofun)
        (fun session => nodeOf?_release ended session target) fun ref stays => ?_
      refine (valueAt_release stays).trans ?_
      exact valueAt_modifyNode (fun count => count - min count 1) (isSome_of_node? isOpen.there)
        fun _ => rfl
  | @droppedOpen ended _ target node isOpen =>
      refine Turnover.released (Or.inr rfl) isOpen.there isOpen.nodeOf? rfl
        (isClosing_closedEvent node) (number_closedEvent node) (size nofun)
        (fun session => ?_) fun ref stays => ?_
      · rw [nodeOf?_forget, nodeOf?_release]
        split <;> rfl
      · refine (valueAt_release stays).trans ?_
        exact valueAt_modifyNode (fun count => count - min count 1) (isSome_of_node? isOpen.there)
          fun _ => rfl
  | droppedClosed ended notOpen =>
      refine turnover_of_kept (size nofun) nofun (fun session => ?_) fun _ => rfl
      rw [nodeOf?_forget]
      split
      · rename_i here
        rw [here]
        exact (sound.nodeOf?_of_notOpen notOpen).symm
      · rfl

theorem nodeUsed?_of_opening {operation : Operation} {target : NodeRef} {user : String}
    {request : Request} (isOpening : operation = .openSession target user request) :
    operation.nodeUsed? tree = some target := by
  rw [isOpening]
  rfl

section Endings

variable {operation : Operation} {ended : SessionRef}
  (isEnding : operation = .close ended ∨ operation = .dropSession ended)

include isEnding

theorem nodeUsed?_of_ending {target : NodeRef} (before : tree.nodeOf? ended = some target) :
    operation.nodeUsed? tree = some target := by
  rcases isEnding with isClose | isDrop
  · rw [isClose]
    exact before
  · rw [isDrop]
    exact before

theorem ends_of_ending (session : SessionRef) :
    operation.ends session = decide (ended = session) := by
  rcases isEnding with isClose | isDrop
  · rw [isClose]
    rfl
  · rw [isDrop]
    rfl

end Endings

/-- A session that was opened takes the next place. -/
theorem Effect.size_of_opened {setting : Setting} {target : NodeRef} {user : String}
    {request : Request} {outcome : Outcome Answer} {answer : Answer}
    (effect : Effect tree setting (.openSession target user request) outcome)
    (done : outcome.ending = .ok answer) :
    outcome.tree.sessions.size = tree.sessions.size + 1 := by
  cases effect with
  | refused | stalled => cases done
  | openedFile | openedDirectory => exact Arena.size_push tree.sessions _
  | readContent reads | readSnapshot reads | readFresh reads => cases reads

/-! ## Sessions that are not open -/

theorem openNode?_of_nodeOf? {session : SessionRef} {kept : Session}
    (found : tree.session? session = some kept) (closed : tree.nodeOf? session = none) :
    tree.openNode? kept = none := by
  rw [nodeOf?, found, Option.bind_some] at closed
  rw [openNode?, closed]
  rfl

/-- Whatever is asked of a session that is not open is refused and changes nothing. -/
theorem perform_of_nodeOf?_none {operation : Operation} {session : SessionRef}
    (asked : operation.session? = some session) (closed : tree.nodeOf? session = none)
    (setting : Setting) : tree.perform setting operation = tree.refuse .notOpen [] := by
  have noNode : ∀ kept, tree.session? session = some kept → tree.openNode? kept = none :=
    fun _ found => openNode?_of_nodeOf? found closed
  cases operation with
  | seek | read | readAll | write | close =>
      cases asked
      cases found : tree.session? session with
      | none => simp only [perform, seek, read, readAll, write, close, found]; rfl
      | some kept =>
          simp only [perform, seek, read, readAll, write, close, found, noNode kept found]
          rfl
  | _ => cases asked

/-- An operation that ends a session leaves it not open. -/
theorem IsSound.nodeOf?_of_ends (sound : tree.IsSound) {operation : Operation}
    {session : SessionRef} (ends : operation.ends session = true) (setting : Setting) :
    (tree.perform setting operation).tree.nodeOf? session = none := by
  cases operation with
  | close other =>
      have same : other = session := of_decide_eq_true ends
      subst same
      change (tree.close other).tree.nodeOf? other = none
      rcases close_cases tree other with ⟨refused, notOpen⟩ | ⟨kept, ref, node, isOpen, released⟩
      · rw [refused]
        exact sound.nodeOf?_of_notOpen notOpen
      · rw [released]
        exact (nodeOf?_release other other ref).trans (if_pos rfl)
  | dropSession other =>
      have same : other = session := of_decide_eq_true ends
      subst same
      exact (nodeOf?_forget other other).trans (if_pos rfl)
  | _ => cases ends

/-! ## The sessions on a node -/

section Cards

variable {after : Tree} {target ref : NodeRef} {ended : SessionRef}

theorem card_sessionsOn_of_same
    (onNode : ∀ session, after.nodeOf? session = tree.nodeOf? session) (ref : NodeRef) :
    (after.sessionsOn ref).card = (tree.sessionsOn ref).card := by
  refine congrArg Finset.card (Finset.ext fun place => ?_)
  rw [mem_sessionsOn, mem_sessionsOn, onNode]

theorem nodeOf?_of_size_le {session : SessionRef} (new : tree.sessions.size ≤ session.place) :
    tree.nodeOf? session = none := by
  rw [nodeOf?, Tree.session?, Arena.get?_eq_none_of_size_le new, Option.bind_none]

theorem nodeOf?_nextSession : tree.nodeOf? tree.nextSession = none :=
  nodeOf?_of_size_le (Nat.le_refl _)

theorem card_sessionsOn_opened
    (onNode : ∀ session, after.nodeOf? session =
      if session = tree.nextSession then some target else tree.nodeOf? session) (ref : NodeRef) :
    (after.sessionsOn ref).card =
      (tree.sessionsOn ref).card + if ref = target then 1 else 0 := by
  by_cases here : ref = target
  · have grown : after.sessionsOn ref = insert tree.sessions.size (tree.sessionsOn ref) := by
      ext place
      rw [Finset.mem_insert, mem_sessionsOn, mem_sessionsOn, onNode]
      by_cases next : (⟨place⟩ : SessionRef) = tree.nextSession
      · rw [if_pos next, here]
        exact iff_of_true rfl (Or.inl (congrArg SessionRef.place next))
      · have old : place ≠ tree.sessions.size := fun same => next (congrArg SessionRef.mk same)
        rw [if_neg next, or_iff_right old]
    have unused : tree.sessions.size ∉ tree.sessionsOn ref := by
      rw [mem_sessionsOn]
      intro onNext
      cases nodeOf?_nextSession.symm.trans onNext
    rw [grown, Finset.card_insert_of_notMem unused, if_pos here]
  · rw [if_neg here, Nat.add_zero]
    refine congrArg Finset.card (Finset.ext fun place => ?_)
    rw [mem_sessionsOn, mem_sessionsOn, onNode]
    split
    · rename_i next
      rw [next, nodeOf?_nextSession]
      refine iff_of_false (fun same => here (Option.some.inj same).symm) nofun
    · rfl

theorem card_sessionsOn_released (before : tree.nodeOf? ended = some target)
    (onNode : ∀ session, after.nodeOf? session =
      if session = ended then none else tree.nodeOf? session) (ref : NodeRef) :
    (after.sessionsOn ref).card + (if ref = target then 1 else 0) =
      (tree.sessionsOn ref).card := by
  have fewer : after.sessionsOn ref = (tree.sessionsOn ref).erase ended.place := by
    ext place
    rw [Finset.mem_erase, mem_sessionsOn, mem_sessionsOn, onNode]
    by_cases here : (⟨place⟩ : SessionRef) = ended
    · rw [if_pos here]
      refine iff_of_false nofun fun kept => kept.1 ?_
      rw [← here]
    · rw [if_neg here]
      refine (and_iff_right fun same => here ?_).symm
      rw [same]
  rw [fewer]
  by_cases here : ref = target
  · have present : ended.place ∈ tree.sessionsOn ref := mem_sessionsOn.mpr (here ▸ before)
    rw [if_pos here, Finset.card_erase_add_one present]
  · have missing : ended.place ∉ tree.sessionsOn ref := by
      rw [mem_sessionsOn]
      intro onRef
      exact here (Option.some.inj (onRef.symm.trans before))
    rw [if_neg here, Finset.erase_eq_of_notMem missing, Nat.add_zero]

/-- Nothing is open on a node that is gone. -/
theorem IsSound.sessionsOn_of_missing (sound : tree.IsSound) (missing : tree.node? ref = none) :
    tree.sessionsOn ref = ∅ := by
  refine Finset.eq_empty_of_forall_notMem fun place member => ?_
  obtain ⟨kept, node, isOpen⟩ := sound.exists_openOn (mem_sessionsOn.mp member)
  cases missing.symm.trans isOpen.there

end Cards

end Tree

end MemFs
