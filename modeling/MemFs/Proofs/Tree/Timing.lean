import MemFs.Proofs.Access.Rights
import MemFs.Proofs.Tree.Retrospect

/-!
# Times of nodes

A node keeps when it was modified last and when it was accessed last. Every mutation is an access,
and it is announced by another version. The clock may go on within an operation, which reads it for
each time that it writes down. As long as the clock does not go backwards or beyond the seconds that
a node can keep, the times of a node are in order and tell when things happened.
-/

namespace MemFs

/-! ## Clocks -/

/-- What an operation sees of a clock on the wall. Readings that it does not make may be taken to
show what the last one showed. -/
structure WallClock where
  reading : Nat → Int

namespace WallClock

/-- The clock with the seconds that the nodes keep of its readings. -/
def seconds (clock : WallClock) : Clock :=
  ⟨fun index => Setting.secondsOf (clock.reading index)⟩

/-- The clock does not go backwards. -/
def IsOnward (clock : WallClock) : Prop :=
  ∀ ⦃earlier later⦄, earlier ≤ later → clock.reading earlier ≤ clock.reading later

/-- A clock that goes on by a second from one reading to the next, this many times. -/
def ticking (first : Int) (ticks : Nat) : WallClock :=
  ⟨fun index => first + min index ticks⟩

theorem isOnward_ticking (first : Int) (ticks : Nat) : (ticking first ticks).IsOnward := by
  intro earlier later before
  change first + (min earlier ticks : Nat) ≤ first + (min later ticks : Nat)
  omega

end WallClock

/-- Operations at the times of a clock, with the seconds that the nodes keep of these. -/
def readings (clocked : List (WallClock × Operation)) : List (Clock × Operation) :=
  clocked.map fun (clock, operation) => (clock.seconds, operation)

theorem readings_append (first second : List (WallClock × Operation)) :
    readings (first ++ second) = readings first ++ readings second :=
  List.map_append

/-- From the start up to the current time, the clock never goes backwards, neither within an
operation nor between two, and it shows no more seconds than fit. -/
structure IsSteady (start : Int) (clocks : List WallClock) (current : Int) : Prop where
  within : ∀ clock ∈ clocks, clock.IsOnward
  between : clocks.Pairwise fun earlier later =>
    ∀ index, earlier.reading index ≤ later.reading 0
  since : 0 ≤ start ∧ ∀ clock ∈ clocks, start ≤ clock.reading 0
  passed : start ≤ current ∧ ∀ clock ∈ clocks, ∀ index, clock.reading index ≤ current
  fits : current < UInt32.size

theorem toNat_secondsOf {time : Int} (since : 0 ≤ time) (fits : time < UInt32.size) :
    ((Setting.secondsOf time).toNat : Int) = time := by
  have small : time.toNat < UInt32.size := by omega
  rw [Setting.secondsOf, UInt32.toNat_ofNat', Nat.mod_eq_of_lt small, Int.toNat_of_nonneg since]

namespace IsSteady

variable {start current : Int} {clocks : List WallClock} {clock : WallClock}

/-- The clock is steady up to the first reading of the last operation. -/
theorem concat (steady : IsSteady start (clocks ++ [clock]) current) :
    IsSteady start clocks (clock.reading 0) := by
  have last : clock ∈ clocks ++ [clock] := List.mem_append_right _ (List.mem_singleton_self clock)
  obtain ⟨between, -, before⟩ := List.pairwise_append.mp steady.between
  constructor
  · exact fun earlier member => steady.within earlier (List.mem_append_left _ member)
  · exact between
  · exact ⟨steady.since.1, fun earlier member =>
      steady.since.2 earlier (List.mem_append_left _ member)⟩
  · exact ⟨steady.since.2 clock last, fun earlier member index =>
      before earlier member clock (List.mem_singleton_self clock) index⟩
  · exact Int.lt_of_le_of_lt (steady.passed.2 clock last 0) steady.fits

/-- What the last operation sees of the clock. -/
theorem last (steady : IsSteady start (clocks ++ [clock]) current) :
    clock.IsOnward ∧ ∀ index, clock.reading index ≤ current ∧
      ((clock.seconds.reading index).toNat : Int) = clock.reading index := by
  have member : clock ∈ clocks ++ [clock] :=
    List.mem_append_right _ (List.mem_singleton_self clock)
  have onward := steady.within clock member
  refine ⟨onward, fun index => ?_⟩
  have passed := steady.passed.2 clock member index
  have since : 0 ≤ clock.reading index :=
    steady.since.1.trans ((steady.since.2 clock member).trans (onward (Nat.zero_le index)))
  exact ⟨passed, toNat_secondsOf since (Int.lt_of_le_of_lt passed steady.fits)⟩

end IsSteady

/-! ## One node -/

namespace Node

/-- A node is made. -/
def isMade : Option Node → Option Node → Bool
  | none, some _ => true
  | _, _ => false

/-- A node gets another version. -/
def isMutated : Option Node → Option Node → Bool
  | some before, some after => after.version != before.version
  | _, _ => false

/-- The version and the times of a node after an operation: there was an access at most, or a
mutation that began with this reading of the clock. -/
inductive Timed (clock : Clock) (first : Nat) (before after : Node) : Prop
  | unmodified (version : after.version = before.version)
      (modifyTime : after.modifyTime = before.modifyTime)
      (accessTime : after.accessTime = before.accessTime ∨
        ∃ index, after.accessTime = clock.reading index)
  | mutated (version : after.version ≠ before.version)
      (modifyTime : after.modifyTime = clock.reading first)
      (accessTime : ∃ later, after.accessTime = clock.reading (first + later))

/-- The times of a node are in order: made at one time, modified last at another, and accessed
after that, but not in the future. -/
structure InTime (made modified current : Int) (node : Node) : Prop where
  sinceMade : made ≤ node.modifyTime.toNat
  modified : (node.modifyTime.toNat : Int) = modified
  accessed : node.modifyTime ≤ node.accessTime
  past : node.accessTime.toNat ≤ current

namespace InTime

variable {made modified current : Int} {clock : WallClock} {clocks : List WallClock}
  {node later : Node}

theorem ofTimes {modifiedAt accessedAt : UInt32} {accessed : Int}
    (modifyTime : node.modifyTime = modifiedAt) (accessTime : node.accessTime = accessedAt)
    (modifySeconds : (modifiedAt.toNat : Int) = modified)
    (accessSeconds : (accessedAt.toNat : Int) = accessed)
    (since : made ≤ modified) (onward : modified ≤ accessed) (past : accessed ≤ current) :
    node.InTime made modified current := by
  constructor
  · rw [modifyTime, modifySeconds]
    exact since
  · rw [modifyTime, modifySeconds]
  · rw [modifyTime, accessTime, UInt32.le_iff_toNat_le]
    omega
  · rw [accessTime, accessSeconds]
    exact past

/-- What an operation does to the times of a node that are in order up to its first reading. -/
theorem unmodified {start : Int} (inTime : node.InTime made modified (clock.reading 0))
    (steady : IsSteady start (clocks ++ [clock]) current)
    (modifyTime : later.modifyTime = node.modifyTime)
    (accessTime : later.accessTime = node.accessTime ∨
      ∃ index, later.accessTime = clock.seconds.reading index) :
    later.InTime made modified current := by
  obtain ⟨onward, last⟩ := steady.last
  have ordered := UInt32.le_iff_toNat_le.mp inTime.accessed
  have past := inTime.past
  rcases accessTime with same | ⟨index, accessed⟩
  · exact ofTimes modifyTime same inTime.modified rfl (inTime.modified ▸ inTime.sinceMade)
      (by have := inTime.modified; omega) (past.trans (last 0).1)
  · have further := onward (Nat.zero_le index)
    exact ofTimes modifyTime accessed inTime.modified (last index).2
      (inTime.modified ▸ inTime.sinceMade) (by have := inTime.modified; omega) (last index).1

/-- A mutation keeps one reading of the clock and, for the access, the same one or a later one. -/
theorem mutated {start : Int} {first : Nat} (inTime : node.InTime made modified (clock.reading 0))
    (steady : IsSteady start (clocks ++ [clock]) current)
    (modifyTime : later.modifyTime = clock.seconds.reading first)
    (accessTime : ∃ more, later.accessTime = clock.seconds.reading (first + more)) :
    later.InTime made (clock.reading first) current := by
  obtain ⟨onward, last⟩ := steady.last
  obtain ⟨more, accessed⟩ := accessTime
  have ordered := UInt32.le_iff_toNat_le.mp inTime.accessed
  have past := inTime.past
  have sinceMade := inTime.sinceMade
  have since := onward (Nat.zero_le first)
  exact ofTimes modifyTime accessed (last first).2 (last (first + more)).2 (by omega)
    (onward (Nat.le_add_right first more)) (last (first + more)).1

end InTime

end Node

namespace Tree

variable {tree : Tree} {operation : Operation} {ref : NodeRef} {node later : Node}

theorem Altered.timed {clock : Clock} {ending : Ending Answer}
    (altered : Altered tree clock operation ending ref node later) :
    node.Timed clock (operation.readingsBefore tree ref) later := by
  have another : node.version + 1 ≠ node.version := by simp
  cases altered with
  | kept | released | takenIn | renamed => exact .unmodified rfl rfl (Or.inl rfl)
  | accessed => exact .unmodified rfl rfl (Or.inr ⟨_, rfl⟩)
  | opened => exact .unmodified rfl rfl (Or.inr ⟨0, rfl⟩)
  | revised isWrite =>
      have first : operation.readingsBefore tree ref = 0 := by
        rw [isWrite, Operation.readingsBefore, if_pos rfl]
      rw [first]
      exact .mutated another rfl ⟨node.accessReading, by rw [Nat.zero_add]; rfl⟩
  | relisted isDirectory begins | relistedBy user isDirectory begins
  | renamedInside user name isDirectory begins =>
      rw [begins]
      exact .mutated another rfl ⟨1, rfl⟩
  | emptied isOpening =>
      rw [isOpening]
      exact .mutated another rfl ⟨0, rfl⟩
  | written isWrite =>
      rw [isWrite]
      exact .mutated another rfl ⟨0, rfl⟩

/-- A node that is made has one reading of the clock for its times. -/
theorem Made.times {now : UInt32} (made : Made tree now operation node) :
    node.modifyTime = now ∧ node.accessTime = now := by
  cases made with
  | file | directory => exact ⟨rfl, rfl⟩
  | child =>
      unfold newChild
      split <;> exact ⟨rfl, rfl⟩

end Tree

namespace World

variable {world : World} {ref : NodeRef} {start current : Int}
  {clocked : List (WallClock × Operation)}

/-- The reading at which an operation makes something happen to a node, after a run. -/
def eventTime? (world : World) (happens : Option Node → Option Node → Bool)
    (reading : Tree → Operation → Nat) (ref : NodeRef) (front : List (WallClock × Operation)) :
    WallClock × Operation → Option Int :=
  fun (clock, operation) =>
    let before := world.run (readings front)
    let after := before.step clock.seconds operation
    if happens (before.tree.node? ref) (after.tree.node? ref) then
      some (clock.reading (reading before.tree operation))
    else none

/-- When a node was made, according to the clock. The root was there from the start. -/
def timeMade (world : World) (start : Int) (ref : NodeRef)
    (clocked : List (WallClock × Operation)) : Int :=
  (latest? (world.eventTime? Node.isMade (fun _ _ => 0) ref) clocked).getD start

/-- When a node got its version, according to the clock. It has its first one from when it was
made. -/
def timeModified (world : World) (start : Int) (ref : NodeRef)
    (clocked : List (WallClock × Operation)) : Int :=
  (latest? (world.eventTime? Node.isMutated (Operation.readingsBefore · ref) ref) clocked).getD
    (world.timeMade start ref clocked)

/-- A node that is made after a run got no version from the run. -/
theorem unmutated_of_unused
    (unused : (world.run (readings clocked)).tree.nodes.size ≤ ref.place) :
    latest? (world.eventTime? Node.isMutated (Operation.readingsBefore · ref) ref) clocked =
      none := by
  refine latest?_eq_none fun front timed behind split => ?_
  subst split
  rw [readings_append] at unused
  have missing : (world.run (readings front)).tree.node? ref = none := missing_before unused
  rw [eventTime?]
  simp only [missing]
  rfl

/-- A steady clock sees the times of a node in order. -/
theorem inTime_run (initially : ∀ node, world.tree.node? ref = some node →
      ∀ current, IsSteady start [] current → node.InTime start start current)
    (steady : IsSteady start (clocked.map Prod.fst) current) {node : Node}
    (there : (world.run (readings clocked)).tree.node? ref = some node) :
    node.InTime (world.timeMade start ref clocked) (world.timeModified start ref clocked)
      current := by
  induction clocked using List.reverseRecOn generalizing current node with
  | nil => exact initially node there current steady
  | append_singleton clocked timed inductionHypothesis =>
      obtain ⟨clock, operation⟩ := timed
      rw [List.map_append, List.map_singleton] at steady
      have final : (world.run (readings (clocked ++ [(clock, operation)]))) =
          (world.run (readings clocked)).step clock.seconds operation := by
        rw [readings_append]
        exact run_concat world (readings clocked) clock.seconds operation
      rw [final] at there
      have effect := (world.run (readings clocked)).effect_outcome clock.seconds operation
      rw [timeModified, timeMade, latest?_concat, latest?_concat]
      dsimp only [eventTime?]
      rw [there]
      cases before : (world.run (readings clocked)).tree.node? ref with
      | none =>
          obtain ⟨modifyTime, accessTime⟩ := (effect.made before there).1.times
          have unmutated := unmutated_of_unused (effect.reshaped.size_le_place before there)
          obtain ⟨passed, seconds⟩ := steady.last.2 0
          rw [unmutated]
          exact Node.InTime.ofTimes modifyTime accessTime seconds seconds (Int.le_refl _)
            (Int.le_refl _) passed
      | some earlier =>
          have inTime := inductionHypothesis steady.concat before
          cases (effect.altered before there).timed with
          | unmodified version modifyTime accessTime =>
              have unmutated : Node.isMutated (some earlier) (some node) = false := by
                rw [Node.isMutated, version, bne_self_eq_false]
              rw [unmutated]
              exact inTime.unmodified steady modifyTime accessTime
          | mutated version modifyTime accessTime =>
              have mutated : Node.isMutated (some earlier) (some node) = true := by
                rw [Node.isMutated, bne_iff_ne]
                exact version
              rw [mutated]
              exact inTime.mutated steady modifyTime accessTime

/-- Under a steady clock, every node of a run was made no later than it was modified last, and
modified last when it got its version; it was accessed last no earlier than that and not in the
future. Under any clock, an operation that changes when a node was modified last gives the node
another version. -/
theorem inTime_of_steady (policy : Policy) (blueprint : Blueprint) (ids : IdSource) (start : Int)
    (clocked : List (WallClock × Operation)) :
    let initial := fresh policy blueprint ids (Setting.secondsOf start)
    let world := initial.run (readings clocked)
    (∀ current, IsSteady start (clocked.map Prod.fst) current →
      ∀ ref node, world.tree.node? ref = some node →
        node.InTime (initial.timeMade start ref clocked) (initial.timeModified start ref clocked)
          current) ∧
    ∀ (clock : Clock) operation ref node later, world.tree.node? ref = some node →
      (world.step clock operation).tree.node? ref = some later →
        later.modifyTime ≠ node.modifyTime → later.version ≠ node.version := by
  intro initial world
  constructor
  · intro current steady ref node there
    refine inTime_run (fun root rootThere time begun => ?_) steady there
    obtain ⟨since, fits⟩ : 0 ≤ start ∧ start < UInt32.size :=
      ⟨begun.since.1, Int.lt_of_le_of_lt begun.passed.1 begun.fits⟩
    rw [Tree.eq_of_node?_ofRoot rootThere]
    exact Node.InTime.ofTimes rfl rfl (toNat_secondsOf since fits) (toNat_secondsOf since fits)
      (Int.le_refl start) (Int.le_refl start) begun.passed.1
  · intro clock operation ref node later there stays changed
    have effect := world.effect_outcome clock operation
    cases (effect.altered there stays).timed with
    | unmodified version modifyTime accessTime => exact absurd modifyTime changed
    | mutated version modifyTime accessTime => exact version

/-- A file is created, gets another name and is opened to be read, while the clock goes on. -/
def renamedAndOpened : List (WallClock × Operation) :=
  [(.ticking 5 2, .create ⟨0⟩ "o" "f" ⟨0o644⟩),
    (.ticking 9 2, .writeMetadata ⟨1⟩ ⟨0, 0, ⟨.file, 0, 0⟩, ⟨0o644⟩, 0, 0, Stat.unchangedLength, "k",
      "o", "g", ""⟩),
    (.ticking 12 0, .openSession ⟨1⟩ "o" ⟨0⟩)]

theorem isSteady_renamedAndOpened : IsSteady 3 (renamedAndOpened.map Prod.fst) 12 := by
  constructor
  · simp [renamedAndOpened, WallClock.isOnward_ticking]
  · simp only [renamedAndOpened, List.map_cons, List.map_nil, List.pairwise_cons,
      List.forall_mem_cons, List.not_mem_nil, WallClock.ticking]
    refine ⟨⟨fun index => ?_, fun index => ?_, nofun⟩, ⟨fun index => ?_, nofun⟩, nofun, .nil⟩
    all_goals omega
  · simp [renamedAndOpened, WallClock.ticking]
  · simp only [renamedAndOpened, List.map_cons, List.map_nil, List.forall_mem_cons,
      List.not_mem_nil, WallClock.ticking]
    refine ⟨by decide, fun index => ?_, fun index => ?_, fun index => ?_, nofun⟩
    all_goals omega
  · decide

/-- The times of the file and of the root, and what a write at a later time changes. -/
theorem inTime_of_renamedAndOpened :
    let initial := fresh .allowAll ⟨"", ⟨0o755⟩, "o", "g"⟩ .sequential (Setting.secondsOf 3)
    let world := initial.run (readings renamedAndOpened)
    IsSteady 3 (renamedAndOpened.map Prod.fst) 12 ∧
      (∃ root file, world.tree.node? ⟨0⟩ = some root ∧ world.tree.node? ⟨1⟩ = some file ∧
        (root.InTime 3 10 12 ∧ root.accessTime = 11) ∧ file.InTime 5 9 12) ∧
      ∃ node later, world.tree.node? ⟨1⟩ = some node ∧
        (world.step 20 (.write ⟨0⟩ [104])).tree.node? ⟨1⟩ = some later ∧
        later.modifyTime ≠ node.modifyTime ∧ later.version ≠ node.version := by
  intro initial world
  obtain ⟨ordered, announced⟩ := inTime_of_steady .allowAll ⟨"", ⟨0o755⟩, "o", "g"⟩ .sequential 3
    renamedAndOpened
  have shown : (world.tree.node? ⟨0⟩).map Node.accessTime = some 11 ∧
      (world.tree.node? ⟨1⟩).map Node.modifyTime = some 9 ∧
      ((world.step 20 (.write ⟨0⟩ [104])).tree.node? ⟨1⟩).map Node.modifyTime = some 20 := by
    decide +kernel
  obtain ⟨root, rootThere, accessed⟩ := Option.map_eq_some_iff.mp shown.1
  obtain ⟨file, fileThere, before⟩ := Option.map_eq_some_iff.mp shown.2.1
  obtain ⟨later, laterThere, after⟩ := Option.map_eq_some_iff.mp shown.2.2
  have ofRoot := ordered 12 isSteady_renamedAndOpened ⟨0⟩ root rootThere
  have ofFile := ordered 12 isSteady_renamedAndOpened ⟨1⟩ file fileThere
  have times : initial.timeMade 3 ⟨0⟩ renamedAndOpened = 3 ∧
      initial.timeModified 3 ⟨0⟩ renamedAndOpened = 10 ∧
      initial.timeMade 3 ⟨1⟩ renamedAndOpened = 5 ∧
      initial.timeModified 3 ⟨1⟩ renamedAndOpened = 9 := by decide +kernel
  obtain ⟨rootMade, rootModified, fileMade, fileModified⟩ := times
  rw [rootMade, rootModified] at ofRoot
  rw [fileMade, fileModified] at ofFile
  have changed : later.modifyTime ≠ file.modifyTime := by
    rw [before, after]
    decide
  exact ⟨isSteady_renamedAndOpened, ⟨root, file, rootThere, fileThere, ⟨ofRoot, accessed⟩, ofFile⟩,
    file, later, fileThere, laterThere, changed,
    announced 20 (.write ⟨0⟩ [104]) ⟨1⟩ file later fileThere laterThere changed⟩

end World

end MemFs
