import MemFs.Proofs.Tree.Effect

/-!
# Every outcome is an effect

The operations are taken apart here, branch by branch, and nowhere else. A lookup along a path is a
sequence of accesses, so it is an induction over the components of the path.
-/

namespace MemFs.Tree

variable (tree : Tree) (setting : Setting)

/-- The operation fails before it asked the policy, and nothing is noted. -/
private theorem refused_silently {operation : Operation} (error : TreeError) :
    Effect tree setting operation ⟨.error error, tree, [], []⟩ :=
  .refused error [] [] .silent

private theorem refused_noted {operation : Operation} (error : TreeError) {event : Event}
    (failed : event.isFailure = true) :
    Effect tree setting operation ⟨.error error, tree, [], [event]⟩ :=
  .refused error [] [event] (.noted failed)

/-- An operation that asks the policy first is denied, or goes on as it was granted. -/
private theorem effect_of_check {α : Type} {operation : Operation} {ref : NodeRef} {node : Node}
    {user : String} {request : Request} {onward : Outcome α} {answer : α → Answer}
    (asks : operation.question? = some (ref, user, request)) (there : tree.node? ref = some node)
    (effect : (setting.check node user request).granted = true →
      Effect tree setting operation (onward.map answer)) :
    Effect tree setting operation
      ((if !(setting.check node user request).granted then
        (tree.deny node user request).afterCheck (setting.check node user request)
      else onward).map answer) := by
  cases granted : (setting.check node user request).granted with
  | true => exact effect granted
  | false => exact Effect.refused _ _ _ (.denied asks there granted)

private theorem effect_create (ref : NodeRef) (user name : String) (requested : Mode) :
    Effect tree setting (.create ref user name requested)
      ((tree.create setting ref user name requested).map fun child => .node (some child)) := by
  unfold create
  split
  · exact refused_silently tree setting _
  · rename_i directory entries found
    have there := (directory?_eq_some_iff.mp found).1
    split
    · exact refused_silently tree setting _
    · rename_i invalid
      have valid : Name.isValid name = true := by simpa using invalid
      refine effect_of_check tree setting rfl there fun granted => ?_
      split
      · exact Effect.refused _ _ _ (.notedAfter rfl there granted rfl)
      · rename_i taken
        have free := Entries.contains_eq_false_iff.mp (Bool.eq_false_iff.mpr taken)
        exact Effect.created user name requested found valid granted free

/-- Only directories are searched for. -/
private theorem search_of_graft {tree : Tree} {ref graft : NodeRef} {node : Node}
    {search : Search}
    (searched : (if node.kind = .directory then tree.search ref graft else .missed) = search)
    (met : search ≠ .missed) : node.kind = .directory ∧ tree.search ref graft = search := by
  split at searched
  · rename_i isDirectory
    exact ⟨isDirectory, searched⟩
  · exact absurd searched.symm met

private theorem effect_add (ref graft : NodeRef) (name : String) :
    Effect tree setting (.add ref name graft)
      ((tree.add setting ref name graft).map fun _ => .done) := by
  unfold add
  split
  · rename_i directory entries node found there
    split
    · exact refused_silently tree setting _
    · rename_i invalid
      have valid : Name.isValid name = true := by simpa using invalid
      split
      · exact refused_noted tree setting _ rfl
      · rename_i searched
        obtain ⟨isDirectory, endless⟩ := search_of_graft searched nofun
        exact Effect.stalled (.searching name found there valid isDirectory endless)
      · rename_i searched
        have unmet : node.kind = .directory → tree.search ref graft = .missed := by
          intro isDirectory
          rwa [if_pos isDirectory] at searched
        split
        · exact refused_noted tree setting _ rfl
        · rename_i taken
          have free := Entries.contains_eq_false_iff.mp (Bool.eq_false_iff.mpr taken)
          exact Effect.added name found there valid unmet free
  · exact refused_silently tree setting _
  · exact refused_silently tree setting _

private theorem effect_rename (ref : NodeRef) (user old new : String) :
    Effect tree setting (.rename ref user old new)
      ((tree.rename setting ref user old new).map fun _ => .done) := by
  unfold rename
  split
  · exact refused_silently tree setting _
  · rename_i directory entries found
    have there := (directory?_eq_some_iff.mp found).1
    split
    · exact refused_silently tree setting _
    · rename_i invalid
      have valid : Name.isValid new = true := by simpa using invalid
      refine effect_of_check tree setting rfl there fun granted => ?_
      split
      · exact Effect.refused _ _ _ (.notedAfter rfl there granted rfl)
      · rename_i child present
        split
        · exact Effect.refused _ _ _ (.notedAfter rfl there granted rfl)
        · rename_i taken
          have free := Entries.contains_eq_false_iff.mp (Bool.eq_false_iff.mpr taken)
          exact Effect.renamed user old new found valid granted present free

private theorem effect_remove (ref : NodeRef) (user name : String) :
    Effect tree setting (.remove ref user name)
      ((tree.remove setting ref user name).map fun _ => .done) := by
  unfold remove
  split
  · exact refused_silently tree setting _
  · rename_i directory entries found
    have there := (directory?_eq_some_iff.mp found).1
    refine effect_of_check tree setting rfl there fun granted => ?_
    split
    · exact Effect.refused _ _ _ (.notedAfter rfl there granted rfl)
    · rename_i child present
      split
      · rename_i removable
        exact Effect.removed user name found granted present removable
      · exact Effect.refused _ _ _ (.notedAfter rfl there granted rfl)

private theorem effect_walk (ref : NodeRef) (user name : String) :
    Effect tree setting (.walk ref user name)
      ((tree.walk setting ref user name).map .node) := by
  unfold walk
  split
  · exact refused_silently tree setting _
  · rename_i directory entries found
    have there := (directory?_eq_some_iff.mp found).1
    refine effect_of_check tree setting rfl there fun granted => ?_
    exact Effect.walked user name found granted

/-- What a lookup along a path may do: access one directory after the other. -/
private structure Touches (outcome : Outcome (Option NodeRef)) : Prop where
  returns : outcome.ending ≠ .never
  walked : ∃ walked, outcome.tree = tree.touchAll setting.clock walked
  quiet : ∀ event ∈ outcome.events, event.level = .debug
  answered : Answered setting.policy setting.asked outcome.checks outcome.events

/-- A single lookup either fails or accesses the directory, after one query. -/
private theorem walk_cases (ref : NodeRef) (user name : String) :
    (∃ error, (tree.walk setting ref user name).ending = .error error) ∧
        Touches tree setting (tree.walk setting ref user name) ∨
      ∃ directory entries, tree.directory? ref = some (directory, entries) ∧
        (setting.check directory user .execute).granted = true ∧
        tree.walk setting ref user name =
          ⟨.ok (tree.lookUp ref entries name),
            tree.modifyNode ref fun node => node.accessed setting.clock.now,
            [setting.check directory user .execute], []⟩ := by
  unfold walk
  split
  · exact Or.inl ⟨⟨_, rfl⟩, nofun, ⟨[], rfl⟩, nofun, .silent rfl⟩
  · rename_i directory entries found
    dsimp only
    split
    · rename_i refused
      have inquiry : Inquiry tree setting (.walk ref user name) _ _ :=
        .denied rfl (directory?_eq_some_iff.mp found).1 (by simpa using refused)
      exact Or.inl ⟨⟨_, rfl⟩, nofun, ⟨[], rfl⟩, inquiry.quiet, inquiry.answered⟩
    · rename_i refused
      exact Or.inr ⟨directory, entries, found, by simpa using refused, rfl⟩

private theorem touches_follow (path user : String) (components : List String) (ref : NodeRef) :
    Touches tree setting (follow path user components tree setting ref) := by
  induction components generalizing tree setting ref with
  | nil => exact ⟨nofun, ⟨[], rfl⟩, nofun, .silent rfl⟩
  | cons component rest inductionHypothesis =>
      unfold follow
      split
      · have inquiry :
            Inquiry tree setting (.resolve user path) [] [.pathThroughFile path component] :=
          .noted rfl
        exact ⟨nofun, ⟨[], rfl⟩, inquiry.quiet, inquiry.answered⟩
      · dsimp only
        rcases walk_cases tree setting ref user component with
          ⟨⟨error, failed⟩, touches⟩ | ⟨directory, entries, found, granted, walked⟩
        · rw [failed]
          exact touches
        · have here : Touches tree setting (tree.walk setting ref user component) := by
            rw [walked]
            exact ⟨nofun, ⟨[ref], rfl⟩, nofun, .granted granted rfl⟩
          split
          · rename_i next _
            rw [walked]
            have further := inductionHypothesis
              (tree.modifyNode ref fun node => node.accessed setting.clock.now) setting.afterWalk
              next
            obtain ⟨later, treeAfter⟩ := further.walked
            refine ⟨further.returns, ⟨ref :: later, treeAfter⟩, further.quiet, ?_⟩
            exact Answered.append (.granted granted rfl) further.answered
          · exact here

private theorem effect_resolve (user path : String) :
    Effect tree setting (.resolve user path) ((tree.resolve setting user path).map .node) := by
  obtain ⟨returns, ⟨walked, treeAfter⟩, quiet, answered⟩ :=
    touches_follow tree setting path user (Name.components path) tree.root
  have mapped : (tree.resolve setting user path).ending.map Answer.node ≠ .never := by
    cases ended : (tree.resolve setting user path).ending with
    | ok | error => exact nofun
    | never => exact absurd ended returns
  have effect : Effect tree setting (.resolve user path)
      ⟨(tree.resolve setting user path).ending.map .node, tree.touchAll setting.clock walked,
        (tree.resolve setting user path).checks, (tree.resolve setting user path).events⟩ :=
    Effect.resolved user path _ walked _ _ mapped quiet answered
  rw [← treeAfter] at effect
  exact effect

/-! ## Metadata -/

private theorem effect_revise {ref : NodeRef} {node : Node} {newName : Option String}
    (stat : Stat) (there : tree.node? ref = some node)
    (wanted : Name.replacement? node.name node.shownName stat.name = .ok newName)
    (unmoved : ∀ name, newName = some name → tree.entryMoved? ref node name = none)
    (apart : newName ≠ none → ¬ tree.IsOwnParent ref) :
    Effect tree setting (.writeMetadata ref stat)
      ((tree.revise setting.clock ref node stat newName).map fun _ => .done) := by
  unfold revise
  split
  · exact refused_noted tree setting _ rfl
  · rename_i short
    exact Effect.revised stat there wanted (Bool.eq_false_iff.mpr short) unmoved apart

theorem entryMoved?_of_parent {tree : Tree} {ref parentRef : NodeRef} {parent : Node}
    {entries : Entries NodeRef} (above : tree.parent? ref = some parentRef)
    (found : tree.directory? parentRef = some (parent, entries)) (node : Node)
    (newName : String) :
    tree.entryMoved? ref node newName =
      ((tree.nameHeld? entries node.id).filter (· != newName)).map
        fun oldName => (parentRef, parent, entries, oldName) := by
  simp only [entryMoved?, above, found, Option.bind_eq_bind, Option.bind_some]
  cases (tree.nameHeld? entries node.id).filter (· != newName) <;> rfl

private theorem effect_reviseEntry {ref parentRef : NodeRef} {node parent : Node}
    {entries : Entries NodeRef} {newName : String} (stat : Stat)
    (there : tree.node? ref = some node)
    (wanted : Name.replacement? node.name node.shownName stat.name = .ok (some newName))
    (above : tree.parent? ref = some parentRef)
    (found : tree.directory? parentRef = some (parent, entries)) :
    Effect tree setting (.writeMetadata ref stat)
      ((tree.reviseEntry setting.clock ref node stat newName parentRef parent entries).map
        fun _ => .done) := by
  have searched := entryMoved?_of_parent above found node newName
  -- The directory that waits for itself is the one whose parent link leads back to it.
  have ownParent : parentRef = ref → tree.IsOwnParent ref := by
    intro same
    subst same
    exact ⟨above, by rw [found, Option.isSome_some]⟩
  have apart : parentRef ≠ ref → ¬ tree.IsOwnParent ref := by
    intro other own
    exact other (Option.some.inj (above.symm.trans own.1))
  unfold reviseEntry reviseLocked
  dsimp only
  split
  · rename_i unheld
    have unmoved : ∀ name, some newName = some name → tree.entryMoved? ref node name = none := by
      intro name same
      cases same
      rw [searched, unheld]
      rfl
    split
    · rename_i same
      refine Effect.stalled (.waiting stat there wanted (ownParent same) ?_)
      intro _ _ _ _ moved
      cases (unmoved newName rfl).symm.trans moved
    · rename_i other
      exact effect_revise tree setting stat there wanted unmoved fun _ => apart other
  · rename_i oldName held
    have moved : tree.entryMoved? ref node newName =
        some (parentRef, parent, entries, oldName) := by
      rw [searched, held]
      rfl
    split
    · exact refused_noted tree setting _ rfl
    · rename_i taken
      have free := Entries.contains_eq_false_iff.mp (Bool.eq_false_iff.mpr taken)
      by_cases same : parentRef = ref
      · rw [if_pos same]
        refine Effect.stalled (.waiting stat there wanted (ownParent same) ?_)
        intro _ _ _ _ again
        cases moved.symm.trans again
        exact free
      · rw [if_neg same]
        unfold revise
        by_cases long : node.extendedBy stat = true
        · rw [if_pos long]
          exact refused_noted tree setting _ rfl
        · rw [if_neg long]
          exact Effect.rekeyed stat there wanted (Bool.eq_false_iff.mpr long) moved free same

private theorem effect_writeMetadata (ref : NodeRef) (stat : Stat) :
    Effect tree setting (.writeMetadata ref stat)
      ((tree.writeMetadata setting.clock ref stat).map fun _ => .done) := by
  unfold writeMetadata
  split
  · exact refused_silently tree setting _
  · rename_i node there
    split
    · exact refused_silently tree setting _
    · rename_i wanted
      exact effect_revise tree setting stat there wanted nofun fun absent => absurd rfl absent
    · rename_i newName wanted
      split
      · rename_i orphan
        refine effect_revise tree setting stat there wanted ?_ ?_
        · intro name same
          simp [entryMoved?, orphan]
        · intro _ own
          cases orphan.symm.trans own.1
      · rename_i parentRef above
        split
        · rename_i missing
          refine effect_revise tree setting stat there wanted ?_ ?_
          · intro name same
            simp [entryMoved?, above, missing]
          · intro _ own
            cases above.symm.trans own.1
            simp [IsOwnParent, missing] at own
        · rename_i parent entries found
          exact effect_reviseEntry tree setting stat there wanted above found

/-! ## Sessions -/

private theorem effect_openSession (ref : NodeRef) (user : String) (request : Request) :
    Effect tree setting (.openSession ref user request)
      ((tree.openSession setting ref user request).map .session) := by
  unfold openSession
  split
  · exact refused_silently tree setting _
  · rename_i node there
    refine effect_of_check tree setting rfl there fun granted => ?_
    split
    · rename_i content isFile
      exact Effect.openedFile user request there isFile granted
    · rename_i entries isDirectory
      exact Effect.openedDirectory user request there isDirectory granted

private theorem openOn_of_openNode? {tree : Tree} {ref : SessionRef} {session : Session}
    {nodeRef : NodeRef} {node : Node} (kept : tree.session? ref = some session)
    (found : tree.openNode? session = some (nodeRef, node)) :
    tree.OpenOn ref session nodeRef node := by
  simp only [openNode?, Option.bind_eq_bind, Option.bind_eq_some_iff, Option.pure_def,
    Option.some.injEq, Prod.mk.injEq] at found
  obtain ⟨_, onNode, _, there, rfl, rfl⟩ := found
  exact ⟨kept, onNode, there⟩

private theorem effect_seek (ref : SessionRef) (offset : Int) (origin : Origin) :
    Effect tree setting (.seek ref offset origin)
      ((tree.seek setting.clock.now ref offset origin).map .position) := by
  unfold seek
  split
  · exact refused_silently tree setting _
  · rename_i session kept
    split
    · exact refused_silently tree setting _
    · rename_i nodeRef node found
      have isOpen := openOn_of_openNode? kept found
      split
      · rename_i content isFile
        unfold seekFile
        split
        · exact refused_silently tree setting _
        · rename_i position leads
          split
          · exact refused_silently tree setting _
          · rename_i within
            exact Effect.soughtFile offset origin isOpen isFile leads (Nat.le_of_not_lt within)
      · rename_i entries isDirectory
        unfold seekDirectory
        split
        · exact refused_silently tree setting _
        · rename_i position leads
          split
          · rename_i atStart
            subst atStart
            split
            · exact refused_silently tree setting _
            · rename_i bytes listed
              exact Effect.rewound offset origin isOpen isDirectory leads listed
          · rename_i beyond
            split
            · rename_i same
              subst same
              exact Effect.stayed offset origin isOpen isDirectory leads beyond
            · exact refused_noted tree setting _ rfl

private theorem effect_read {operation : Operation} {ref : SessionRef} {count : Nat}
    (reads : operation.portion? tree = some (ref, count)) :
    Effect tree setting operation
      ((tree.read (setting.clock.reading (operation.lastReading tree)) ref count).map .bytes) := by
  unfold read
  split
  · exact refused_silently tree setting _
  · rename_i session kept
    split
    · exact refused_silently tree setting _
    · rename_i nodeRef node found
      have isOpen := openOn_of_openNode? kept found
      split
      · rename_i content isFile
        exact Effect.readContent reads isOpen isFile
      · rename_i bytes entries isDirectory taken
        exact Effect.readSnapshot reads isOpen isDirectory taken
      · rename_i entries isDirectory untaken
        split
        · exact refused_silently tree setting _
        · rename_i bytes listed
          exact Effect.readFresh reads isOpen isDirectory
            (fun bytes taken => untaken bytes taken) listed

private theorem effect_write (ref : SessionRef) (data : List UInt8) :
    Effect tree setting (.write ref data)
      ((tree.write setting.clock ref data).map .count) := by
  unfold write
  split
  · exact refused_silently tree setting _
  · rename_i session kept
    split
    · exact refused_silently tree setting _
    · rename_i nodeRef node found
      have isOpen := openOn_of_openNode? kept found
      split
      · rename_i content user isFile ofUser
        exact Effect.written data isOpen isFile ofUser
      · exact refused_silently tree setting _

theorem close_cases (ref : SessionRef) :
    (tree.close ref = tree.refuse .notOpen [] ∧
        ∀ session nodeRef node, ¬ tree.OpenOn ref session nodeRef node) ∨
      ∃ session nodeRef node, tree.OpenOn ref session nodeRef node ∧
        tree.close ref = (tree.release ref nodeRef).accept () [closedEvent node] := by
  unfold close
  split
  · rename_i missing
    refine Or.inl ⟨rfl, ?_⟩
    intro session nodeRef node isOpen
    rw [isOpen.kept] at missing
    cases missing
  · rename_i session kept
    split
    · rename_i missing
      refine Or.inl ⟨rfl, ?_⟩
      intro other nodeRef node isOpen
      have same : session = other := Option.some.inj (kept.symm.trans isOpen.kept)
      subst same
      simp [openNode?, isOpen.onNode, isOpen.there] at missing
    · rename_i nodeRef node found
      exact Or.inr ⟨session, nodeRef, node, openOn_of_openNode? kept found, rfl⟩

private theorem effect_close (ref : SessionRef) :
    Effect tree setting (.close ref) ((tree.close ref).map fun _ => .done) := by
  rcases close_cases tree ref with ⟨refused, -⟩ | ⟨session, nodeRef, node, isOpen, released⟩
  · rw [refused]
    exact refused_silently tree setting _
  · rw [released]
    exact Effect.closed isOpen

private theorem effect_dropSession (ref : SessionRef) :
    Effect tree setting (.dropSession ref) ((tree.dropSession ref).map fun _ => .done) := by
  unfold dropSession
  rcases close_cases tree ref with ⟨refused, notOpen⟩ | ⟨session, nodeRef, node, isOpen, released⟩
  · rw [refused]
    exact Effect.droppedClosed ref notOpen
  · rw [released]
    exact Effect.droppedOpen isOpen

/-! ## All operations -/

/-- Every outcome of an operation comes about by one of the rules. -/
theorem effect_perform (operation : Operation) :
    Effect tree setting operation (tree.perform setting operation) := by
  cases operation with
  | makeFile blueprint content => exact Effect.madeFile blueprint content
  | makeDirectory blueprint => exact Effect.madeDirectory blueprint
  | hold ref => exact Effect.held ref
  | letGo ref => exact Effect.letGo ref
  | attach ref parent => exact Effect.attached ref parent
  | create ref user name requested => exact effect_create tree setting ref user name requested
  | add ref name graft => exact effect_add tree setting ref graft name
  | rename ref user old new => exact effect_rename tree setting ref user old new
  | remove ref user name => exact effect_remove tree setting ref user name
  | walk ref user name => exact effect_walk tree setting ref user name
  | resolve user path => exact effect_resolve tree setting user path
  | writeMetadata ref stat => exact effect_writeMetadata tree setting ref stat
  | openSession ref user request => exact effect_openSession tree setting ref user request
  | seek ref offset origin => exact effect_seek tree setting ref offset origin
  | read ref count => exact effect_read tree setting rfl
  | readAll ref portion => exact effect_read tree setting rfl
  | write ref data => exact effect_write tree setting ref data
  | close ref => exact effect_close tree setting ref
  | dropSession ref => exact effect_dropSession tree setting ref

end MemFs.Tree

namespace MemFs.World

theorem effect_outcome (world : World) (clock : Clock) (operation : Operation) :
    Tree.Effect world.tree ⟨world.policy, world.asked, clock⟩ operation
      (world.outcome clock operation) :=
  Tree.effect_perform world.tree _ operation

end MemFs.World
