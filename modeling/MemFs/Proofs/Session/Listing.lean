import MemFs.Proofs.Session.Soundness
import MemFs.Proofs.Stat.RoundTrip
import MemFs.Proofs.Text.ByteOrder

/-!
# Listings

The listing of a directory is what it holds, in the order of the bytes of the names. A session
takes it with its first read or when it is moved to the start, or fails and stays as it is.
-/

namespace MemFs.Tree

/-- These are the names in a directory with the metadata of what they stand for. -/
structure Lists (tree : Tree) (directory : NodeRef) (listed : List (String × Stat)) : Prop where
  ascending : listed.Pairwise fun first second => Utf8.encode first.1 < Utf8.encode second.1
  mem_iff : ∀ name stat, (name, stat) ∈ listed ↔
    ∃ child node, tree.Holds directory name child ∧ tree.node? child = some node ∧
      stat = node.stat
  complete : ∀ name child, tree.Holds directory name child → ∃ stat, (name, stat) ∈ listed

/-- The entries with the metadata of what they refer to. -/
def listed (tree : Tree) (entries : Entries NodeRef) : List (String × Stat) :=
  entries.toList.filterMap fun entry =>
    (tree.node? entry.2).map fun node => (entry.1, node.stat)

theorem listing_eq_encodeAll (tree : Tree) (entries : Entries NodeRef) :
    tree.listing entries = Stat.encodeAll ((tree.listed entries).map Prod.snd) := by
  rw [listing, children, Entries.values, listed, List.map_filterMap, List.filterMap_map,
    List.map_filterMap]
  refine congrArg Stat.encodeAll (List.filterMap_congr fun entry _ => ?_)
  simp only [Function.comp_apply, Option.map_map]
  rfl

theorem IsSound.lists {tree : Tree} (sound : tree.IsSound) {directory : NodeRef} {node : Node}
    {entries : Entries NodeRef} (found : tree.directory? directory = some (node, entries)) :
    tree.Lists directory (tree.listed entries) := by
  have holds : ∀ name child, tree.Holds directory name child ↔ (name, child) ∈ entries.toList := by
    intro name child
    rw [Entries.mem_toList_iff]
    constructor
    · intro here
      obtain ⟨_, _, same, bound⟩ := here
      cases found.symm.trans same
      exact bound
    · intro bound
      exact ⟨node, entries, found, bound⟩
  have mem_iff : ∀ name stat, (name, stat) ∈ tree.listed entries ↔
      ∃ child node, tree.Holds directory name child ∧ tree.node? child = some node ∧
        stat = node.stat := by
    intro name stat
    rw [listed, List.mem_filterMap]
    constructor
    · intro member
      obtain ⟨⟨first, child⟩, inside, shown⟩ := member
      obtain ⟨childNode, there, same⟩ := Option.map_eq_some_iff.mp shown
      cases same
      exact ⟨child, childNode, (holds _ _).mpr inside, there, rfl⟩
    · intro shown
      obtain ⟨child, childNode, here, there, same⟩ := shown
      subst same
      refine ⟨(name, child), (holds _ _).mp here, ?_⟩
      rw [there]
      rfl
  refine ⟨?_, mem_iff, ?_⟩
  · refine List.Pairwise.filterMap _ ?_ entries.sorted
    intro first second before shown isShown other isOther
    obtain ⟨_, -, same⟩ := Option.map_eq_some_iff.mp isShown
    obtain ⟨_, -, otherSame⟩ := Option.map_eq_some_iff.mp isOther
    subst same
    subst otherSame
    exact Utf8.encode_lt_encode before
  · intro name child here
    obtain ⟨outline, there⟩ := sound.child directory name child here
    obtain ⟨childNode, found, -⟩ := Option.map_eq_some_iff.mp there
    exact ⟨childNode.stat, (mem_iff name childNode.stat).mpr ⟨child, childNode, here, found, rfl⟩⟩

/-! ## Taking a snapshot -/

/-- An operation takes a snapshot for a session: it reads from it for the first time, or moves it
to the start. -/
def TakesSnapshot (tree : Tree) (ref : SessionRef) : Operation → Prop
  | .read other _ | .readAll other _ =>
      other = ref ∧ ∃ session, tree.session? ref = some session ∧ session.stream = .directory none
  | .seek other offset origin =>
      other = ref ∧ ∃ session, tree.session? ref = some session ∧
        session.target? session.snapshotBytes.length offset origin = some 0
  | _ => False

section Reading

variable {tree : Tree} {ref : SessionRef} {session : Session} {nodeRef : NodeRef} {node : Node}
  {entries : Entries NodeRef} (isOpen : tree.OpenOn ref session nodeRef node)
  (isDirectory : node.body = .directory entries)

include isOpen

theorem OpenOn.openNode? : tree.openNode? session = some (nodeRef, node) := by
  simp [Tree.openNode?, isOpen.onNode, isOpen.there]

include isDirectory

theorem read_of_snapshot {bytes : List UInt8} (taken : session.stream = .directory (some bytes))
    (now : UInt32) (count : Nat) :
    tree.read now ref count = tree.readFrom now ref session nodeRef bytes count := by
  simp only [read, isOpen.kept, isOpen.openNode?, isDirectory, taken]

theorem streamLength_of_snapshot {bytes : List UInt8}
    (taken : session.stream = .directory (some bytes)) : tree.streamLength ref = bytes.length := by
  simp only [streamLength, isOpen.kept, Option.bind_some, isOpen.openNode?, Option.map_some,
    isDirectory, taken]

theorem seek_of_unlistable {offset : Int} {origin : Origin} {error : RecordError}
    (leads : session.target? session.snapshotBytes.length offset origin = some 0)
    (failure : tree.listing entries = .error error) (now : UInt32) :
    tree.seek now ref offset origin = tree.refuse (.encoding error) [] := by
  simp only [seek, isOpen.kept, isOpen.openNode?, isDirectory, seekDirectory, leads, if_pos,
    failure]

theorem seek_of_listable {offset : Int} {origin : Origin} {bytes : List UInt8}
    (leads : session.target? session.snapshotBytes.length offset origin = some 0)
    (success : tree.listing entries = .ok bytes) (now : UInt32) :
    tree.seek now ref offset origin =
      ((tree.modifyNode nodeRef fun node => node.accessed now).modifySession ref fun session =>
        (session.withSnapshot bytes).movedTo 0).accept 0 [] := by
  simp only [seek, isOpen.kept, isOpen.openNode?, isDirectory, seekDirectory, leads, if_pos,
    success]

variable (untaken : session.stream = .directory none)

include untaken

theorem read_of_unlistable {error : RecordError} (failure : tree.listing entries = .error error)
    (now : UInt32) (count : Nat) :
    tree.read now ref count = tree.refuse (.encoding error) [] := by
  simp only [read, isOpen.kept, isOpen.openNode?, isDirectory, untaken, failure]

theorem read_of_listable {bytes : List UInt8} (success : tree.listing entries = .ok bytes)
    (now : UInt32) (count : Nat) :
    tree.read now ref count =
      (tree.modifySession ref fun session => session.withSnapshot bytes).readFrom now ref session
        nodeRef bytes count := by
  simp only [read, isOpen.kept, isOpen.openNode?, isDirectory, untaken, success]

theorem streamLength_of_listable {bytes : List UInt8} (success : tree.listing entries = .ok bytes) :
    tree.streamLength ref = bytes.length := by
  simp only [streamLength, isOpen.kept, Option.bind_some, isOpen.openNode?, Option.map_some,
    isDirectory, untaken, success]

end Reading

/-- A reading operation is one read, with room for nothing only if there is nothing to read or
nothing was asked for. -/
theorem perform_of_reads (tree : Tree) (setting : Setting) {operation : Operation}
    {ref : SessionRef} {size : Nat} (reads : operation.reads? = some (ref, size)) :
    ∃ now count, tree.perform setting operation = (tree.read now ref count).map .bytes ∧
      (size ≠ 0 → count ≠ 0 ∨ tree.streamLength ref = 0) := by
  cases operation with
  | read other count =>
      cases reads
      exact ⟨_, size, rfl, Or.inl⟩
  | readAll other portion =>
      cases reads
      refine ⟨_, _, rfl, ?_⟩
      intro asked
      rw [if_neg asked]
      exact (Nat.eq_zero_or_pos _).symm.imp_left Nat.ne_of_gt
  | _ => cases reads

end MemFs.Tree
