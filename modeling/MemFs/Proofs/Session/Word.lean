import MemFs.Tree.Sessions
import Mathlib.Data.UInt

/-!
# Cursors in machine words

A session keeps its cursor in a signed word of 64 bits; lengths and indices are unsigned words. Here
reading, writing and moving are done step by step in such words, each step only if a word can hold
its result, and each part of a sequence taken only if it lies within: `none` is a step that would
wrap around or leave a sequence. Sequences in memory have fewer than 2 ^ 63 bytes, and then no step
fails and the outcome is what unbounded numbers give.
-/

namespace MemFs

/-- What the offset of a seek counts from in a stream of this length. -/
def Session.base (session : Session) (length : Nat) : Origin → Int
  | .start => 0
  | .current => session.cursor
  | .ending => length

section Target

variable {session : Session} {length : Nat} {offset : Int} {origin : Origin}

private theorem Session.target?_eq :
    session.target? length offset origin =
      if 0 ≤ session.base length origin + offset ∧
          session.base length origin + offset < 2 ^ 63 then
        some (session.base length origin + offset).toNat
      else none := by
  cases origin <;>
    exact if_congr (and_congr_right' Int.lt_add_one_iff.symm) rfl rfl

theorem Session.target?_eq_some_iff {position : Nat} :
    session.target? length offset origin = some position ↔
      session.base length origin + offset = position ∧ position < 2 ^ 63 := by
  rw [target?_eq]
  split
  · rw [Option.some.injEq]
    omega
  · simp only [reduceCtorEq, false_iff]
    omega

theorem Session.target?_eq_none_iff :
    session.target? length offset origin = none ↔
      session.base length origin + offset < 0 ∨
        2 ^ 63 ≤ session.base length origin + offset := by
  rw [target?_eq]
  split
  · simp only [reduceCtorEq, false_iff]
    omega
  · simp only [true_iff]
    omega

end Target

namespace Word

/-- Sequences in memory are shorter than this. -/
def memoryLimit : Nat := 2 ^ 63

/-! ## Checked steps -/

/-- A position as an index, which a negative one is not. -/
def index? (position : Int64) : Option UInt64 :=
  if 0 ≤ position then some position.toUInt64 else none

/-- An index as a position, for which its top bit has to be free. -/
def position? (index : UInt64) : Option Int64 :=
  if index.toNat < 2 ^ 63 then some index.toInt64 else none

def sum? (first second : UInt64) : Option UInt64 :=
  if first.toNat + second.toNat < 2 ^ 64 then some (first + second) else none

def difference? (first second : UInt64) : Option UInt64 :=
  if second ≤ first then some (first - second) else none

/-- The position at this distance from another one, in either direction. -/
def advance? (position distance : Int64) : Option Int64 :=
  if -2 ^ 63 ≤ position.toInt + distance.toInt ∧ position.toInt + distance.toInt < 2 ^ 63 then
    some (position + distance)
  else none

def length? (bytes : List UInt8) : Option UInt64 :=
  if bytes.length < memoryLimit then some (.ofNat bytes.length) else none

/-- The bytes from one index up to another. -/
def slice? (bytes : List UInt8) (first last : UInt64) : Option (List UInt8) :=
  if first ≤ last ∧ last.toNat ≤ bytes.length then
    some ((bytes.take last.toNat).drop first.toNat)
  else none

/-- The sequence with as many other bytes in the place of those from one index up to another. -/
def copyInto? (target : List UInt8) (first last : UInt64) (source : List UInt8) :
    Option (List UInt8) :=
  if first ≤ last ∧ last.toNat ≤ target.length ∧ first.toNat + source.length = last.toNat then
    some (target.take first.toNat ++ source ++ target.drop last.toNat)
  else none

/-- The sequence cut to a length, or made that long with zeros. -/
def resize? (bytes : List UInt8) (length : UInt64) : Option (List UInt8) :=
  if length.toNat < memoryLimit then
    some (bytes.take length.toNat ++ List.replicate (length.toNat - bytes.length) 0)
  else none

/-- Every place in a sequence can be a position. -/
theorem exists_position {place : Nat} (fits : place < memoryLimit) :
    ∃ position : Int64, position.toInt = place := by
  rw [memoryLimit] at fits
  exact ⟨Int64.ofInt place, Int64.toInt_ofInt_of_le (by omega) (by omega)⟩

/-- A computation does not fail, and its value is as described. -/
def Yields {α : Type} (computation : Option α) (described : α → Prop) : Prop :=
  ∃ value, computation = some value ∧ described value

namespace Yields

theorem pure {α : Type} {value : α} {described : α → Prop} (holds : described value) :
    Yields (some value) described :=
  ⟨value, rfl, holds⟩

theorem bind {α β : Type} {computation : Option α} {next : α → Option β} {between : α → Prop}
    {described : β → Prop} (first : Yields computation between)
    (second : ∀ value, between value → Yields (next value) described) :
    Yields (computation >>= next) described := by
  obtain ⟨value, done, holds⟩ := first
  rw [done]
  exact second value holds

theorem imp {α : Type} {computation : Option α} {described further : α → Prop}
    (yields : Yields computation described) (implies : ∀ value, described value → further value) :
    Yields computation further := by
  obtain ⟨value, done, holds⟩ := yields
  exact ⟨value, done, implies value holds⟩

end Yields

section Steps

variable {bytes source : List UInt8} {first last : UInt64}

theorem yields_index? {position : Int64} (positive : 0 ≤ position.toInt) :
    Yields (index? position) fun index => (index.toNat : Int) = position.toInt := by
  have above : 0 ≤ position := Int64.le_iff_toInt_le.mpr positive
  have same : position.toUInt64.toNat = position.toInt.toNat := Int64.toNat_toUInt64_of_le above
  exact ⟨position.toUInt64, if_pos above, by omega⟩

theorem yields_position? {index : UInt64} (small : index.toNat < 2 ^ 63) :
    Yields (position? index) fun position => position.toInt = index.toNat := by
  have free : 2 * index.toNat < 2 ^ 64 := by omega
  exact ⟨index.toInt64, if_pos small, BitVec.toInt_eq_toNat_of_lt free⟩

theorem yields_sum? (small : first.toNat + last.toNat < 2 ^ 64) :
    Yields (sum? first last) fun sum => sum.toNat = first.toNat + last.toNat := by
  have same : (first + last).toNat = first.toNat + last.toNat := by
    rw [UInt64.toNat_add, Nat.mod_eq_of_lt small]
  exact ⟨first + last, if_pos small, same⟩

theorem yields_difference? (ordered : first.toNat ≤ last.toNat) :
    Yields (difference? last first) fun difference =>
      difference.toNat = last.toNat - first.toNat := by
  have below : first ≤ last := UInt64.le_iff_toNat_le.mpr ordered
  exact ⟨last - first, if_pos below, UInt64.toNat_sub_of_le last first below⟩

theorem yields_advance? {position distance : Int64}
    (lower : -2 ^ 63 ≤ position.toInt + distance.toInt)
    (upper : position.toInt + distance.toInt < 2 ^ 63) :
    Yields (advance? position distance) fun moved =>
      moved.toInt = position.toInt + distance.toInt := by
  have same : (position + distance).toInt = position.toInt + distance.toInt := by
    rw [Int64.toInt_add]
    exact Int.bmod_eq_of_le (by omega) (by omega)
  exact ⟨position + distance, if_pos ⟨lower, upper⟩, same⟩

theorem yields_length? (small : bytes.length < memoryLimit) :
    Yields (length? bytes) fun length => length.toNat = bytes.length := by
  refine ⟨.ofNat bytes.length, if_pos small, UInt64.toNat_ofNat_of_lt' ?_⟩
  exact Nat.lt_trans small (by decide)

theorem yields_slice? (ordered : first.toNat ≤ last.toNat) (within : last.toNat ≤ bytes.length) :
    Yields (slice? bytes first last) fun portion =>
      portion = (bytes.drop first.toNat).take (last.toNat - first.toNat) :=
  ⟨_, if_pos ⟨UInt64.le_iff_toNat_le.mpr ordered, within⟩, List.drop_take⟩

theorem yields_copyInto? (within : last.toNat ≤ bytes.length)
    (fits : first.toNat + source.length = last.toNat) :
    Yields (copyInto? bytes first last source) fun copied =>
      copied = bytes.take first.toNat ++ source ++ bytes.drop last.toNat :=
  ⟨_, if_pos ⟨UInt64.le_iff_toNat_le.mpr (by omega), within, fits⟩, rfl⟩

end Steps

/-! ## Reading -/

/-- What a read comes to: the cursor after it, the number of bytes that it gave, and the buffer that
has them at its front. -/
structure Reading where
  cursor : Int64
  count : UInt64
  buffer : List UInt8
deriving DecidableEq, Repr

/-- A reading at a cursor gave this portion, in the place of the front of a buffer. -/
structure Reading.Gives (reading : Reading) (cursor : Nat) (portion buffer : List UInt8) : Prop where
  cursor : reading.cursor.toInt = cursor + portion.length
  count : reading.count.toNat = portion.length
  buffer : reading.buffer = portion ++ buffer.drop portion.length

/-- Copies bytes from a start on into a buffer, as many as there are and as fit. -/
def readFrom? (start : UInt64) (cursor : Int64) (bytes buffer : List UInt8) : Option Reading := do
  let remaining ← difference? (← length? bytes) start
  let room ← length? buffer
  let last ← sum? start (min room remaining)
  let portion ← slice? bytes start last
  let filled ← copyInto? buffer 0 (min room remaining) portion
  let moved ← advance? cursor (← position? (min room remaining))
  some ⟨moved, min room remaining, filled⟩

/-- A read from the content of a file, which the cursor may be past. -/
def readFile? (cursor : Int64) (content buffer : List UInt8) : Option Reading := do
  let start ← index? cursor
  let length ← length? content
  readFrom? (min start length) cursor content buffer

/-- A read from the snapshot of a listing, which relies on the cursor not being past it. -/
def readSnapshot? (cursor : Int64) (bytes buffer : List UInt8) : Option Reading := do
  let start ← index? cursor
  readFrom? start cursor bytes buffer

section Reading

variable {cursor : Int64} {position : Nat} {bytes buffer : List UInt8}
  (isCursor : cursor.toInt = position) (bytesFit : bytes.length < memoryLimit)
  (bufferFits : buffer.length < memoryLimit)

include isCursor bytesFit bufferFits

theorem yields_readFrom? {start : UInt64} (within : start.toNat ≤ bytes.length)
    (fits : position + (bytes.length - start.toNat) < memoryLimit) :
    Yields (readFrom? start cursor bytes buffer) fun reading =>
      reading.Gives position ((bytes.drop start.toNat).take buffer.length) buffer := by
  rw [memoryLimit] at fits
  refine (yields_length? bytesFit).bind fun length isLength => ?_
  refine (yields_difference? (by omega)).bind fun remaining isRemaining => ?_
  refine (yields_length? bufferFits).bind fun room isRoom => ?_
  have count : (min room remaining).toNat = min buffer.length (bytes.length - start.toNat) := by
    rw [UInt64.toNat_min]
    omega
  rw [memoryLimit] at bytesFit bufferFits
  refine (yields_sum? (by omega)).bind fun last isLast => ?_
  refine (yields_slice? (by omega) (by omega)).bind fun portion isPortion => ?_
  -- The part that is taken ends with the buffer or with the bytes, whichever ends first.
  have sameLength : portion.length = (min room remaining).toNat := by
    rw [isPortion, List.length_take, List.length_drop]
    omega
  have same : portion = (bytes.drop start.toNat).take buffer.length := by
    rw [isPortion, List.take_eq_take_iff, List.length_drop]
    omega
  refine (yields_copyInto? (by omega) ?_).bind fun filled isFilled => ?_
  · exact (Nat.zero_add _).trans sameLength
  refine (yields_position? (by omega)).bind fun counted isCounted => ?_
  refine (yields_advance? (by omega) (by omega)).bind fun moved isMoved => Yields.pure ?_
  rw [← same]
  constructor
  · change moved.toInt = position + portion.length
    omega
  · exact sameLength.symm
  · rw [sameLength]
    exact isFilled

theorem yields_readFile? (fits : position < memoryLimit) :
    Yields (readFile? cursor bytes buffer) fun reading =>
      reading.Gives position ((bytes.drop position).take buffer.length) buffer := by
  refine (yields_index? (by omega)).bind fun start isStart => ?_
  refine (yields_length? bytesFit).bind fun length isLength => ?_
  have atMost : (min start length).toNat = min position bytes.length := by
    rw [UInt64.toNat_min]
    omega
  have same : bytes.drop (min start length).toNat = bytes.drop position := by
    rw [atMost]
    rcases Nat.le_total position bytes.length with inside | beyond
    · rw [Nat.min_eq_left inside]
    · rw [Nat.min_eq_right beyond, List.drop_length, List.drop_of_length_le beyond]
  rw [← same]
  exact yields_readFrom? isCursor bytesFit bufferFits (by omega) (by omega)

theorem yields_readSnapshot? (within : position ≤ bytes.length) :
    Yields (readSnapshot? cursor bytes buffer) fun reading =>
      reading.Gives position ((bytes.drop position).take buffer.length) buffer := by
  refine (yields_index? (by omega)).bind fun start isStart => ?_
  have same : start.toNat = position := by omega
  rw [← same] at within ⊢
  exact yields_readFrom? (by omega) bytesFit bufferFits within (by omega)

end Reading

/-! ## Writing -/

/-- A content made long enough to reach up to an index. -/
def withRoom? (content : List UInt8) (last : UInt64) : Option (List UInt8) := do
  let length ← length? content
  if length < last then resize? content last else some content

/-- A write to the content of a file: the cursor after it and the content. -/
def writeFile? (cursor : Int64) (content data : List UInt8) : Option (Int64 × List UInt8) := do
  let start ← index? cursor
  let last ← sum? start (← length? data)
  let roomy ← withRoom? content last
  let written ← copyInto? roomy start last data
  let moved ← position? last
  some (moved, written)

theorem yields_withRoom? {content : List UInt8} {last : UInt64}
    (contentFits : content.length < memoryLimit) (fits : last.toNat < memoryLimit) :
    Yields (withRoom? content last) fun roomy =>
      roomy = content ++ List.replicate (last.toNat - content.length) 0 := by
  refine (yields_length? contentFits).bind fun length isLength => ?_
  by_cases grows : length < last
  · rw [if_pos grows]
    have longer := UInt64.lt_iff_toNat_lt.mp grows
    refine ⟨_, if_pos fits, ?_⟩
    rw [List.take_of_length_le (by omega)]
  · rw [if_neg grows]
    have enough := UInt64.lt_iff_toNat_lt.not.mp grows
    have nothing : last.toNat - content.length = 0 := by omega
    refine Yields.pure ?_
    rw [nothing, List.replicate_zero, List.append_nil]

/-- A content that is made long enough before it is written is the content after the write. -/
theorem overwrite_of_roomy (content data : List UInt8) (position : Nat) :
    let roomy := content ++ List.replicate (position + data.length - content.length) 0
    roomy.take position ++ data ++ roomy.drop (position + data.length) =
      Tree.overwrite content position data := by
  have short : min (position - content.length) (position + data.length - content.length) =
      position - content.length := by omega
  have none : position + data.length - content.length -
      (position + data.length - content.length) = 0 := by omega
  simp only [Tree.overwrite, List.take_append, List.drop_append, List.take_replicate,
    List.drop_replicate, short, none, List.replicate_zero, List.append_nil]

theorem yields_writeFile? {cursor : Int64} {position : Nat} {content data : List UInt8}
    (isCursor : cursor.toInt = position) (contentFits : content.length < memoryLimit)
    (fits : position + data.length < memoryLimit) :
    Yields (writeFile? cursor content data) fun written =>
      written.1.toInt = position + data.length ∧
        written.2 = Tree.overwrite content position data := by
  have limit : memoryLimit = 2 ^ 63 := rfl
  refine (yields_index? (by omega)).bind fun start isStart => ?_
  refine (yields_length? (by omega)).bind fun size isSize => ?_
  refine (yields_sum? (by omega)).bind fun last isLast => ?_
  refine (yields_withRoom? contentFits (by omega)).bind fun roomy isRoomy => ?_
  have enough : last.toNat ≤ roomy.length := by
    rw [isRoomy, List.length_append, List.length_replicate]
    omega
  refine (yields_copyInto? enough (by omega)).bind fun written isWritten => ?_
  refine (yields_position? (by omega)).bind fun moved isMoved => Yields.pure ⟨?_, ?_⟩
  · change moved.toInt = position + data.length
    omega
  · have start : start.toNat = position := by omega
    have ending : last.toNat = position + data.length := by omega
    rw [isWritten, isRoomy, start, ending]
    exact overwrite_of_roomy content data position

/-! ## Moving -/

/-- The place at an offset from where that counts from. -/
def reach? (cursor length offset : Int64) : Origin → Option Int64
  | .start => some offset
  | .current => advance? cursor offset
  | .ending => advance? length offset

/-- Where a seek leads, if it is a position at all. -/
def target? (cursor length offset : Int64) (origin : Origin) : Option Int64 := do
  let target ← reach? cursor length offset origin
  if 0 ≤ target then some target else none

/-- A seek in a stream of these bytes: what becomes of the place where it leads is up to a rule. -/
def seek? (rule : (length target : Int64) → Except TreeError Int64) (cursor : Int64)
    (bytes : List UInt8) (offset : Int64) (origin : Origin) :
    Option (Except TreeError Int64) := do
  let length ← position? (← length? bytes)
  some ((target? cursor length offset origin).elim (.error .invalidSeek) (rule length))

/-- The cursor of a file session may be moved to the end of the content at most. -/
def seekFile? : Int64 → List UInt8 → Int64 → Origin → Option (Except TreeError Int64) :=
  seek? fun length target => if length < target then .error .seekPastEnd else .ok target

/-- The cursor of a directory session may be moved to the start and to where it is. -/
def seekSnapshot? (cursor : Int64) :
    List UInt8 → Int64 → Origin → Option (Except TreeError Int64) :=
  seek? (fun _ target => if target ≠ 0 ∧ target ≠ cursor then .error .invalidSeek else .ok target)
    cursor

/-- What a seek to this place in a file of this length comes to. -/
def fileTarget (length : Nat) (place : Int) : Except TreeError Int :=
  if place < 0 ∨ 2 ^ 63 ≤ place then .error .invalidSeek
  else if length < place then .error .seekPastEnd
  else .ok place

/-- What a seek to this place comes to in a directory session with its cursor here. -/
def directoryTarget (cursor : Nat) (place : Int) : Except TreeError Int :=
  if place = 0 ∨ place = cursor then .ok place else .error .invalidSeek

theorem advance?_cases (position distance : Int64) :
    Yields (advance? position distance)
        (fun moved => moved.toInt = position.toInt + distance.toInt) ∨
      advance? position distance = none ∧
        (position.toInt + distance.toInt < -2 ^ 63 ∨
          2 ^ 63 ≤ position.toInt + distance.toInt) := by
  by_cases fits : -2 ^ 63 ≤ position.toInt + distance.toInt ∧
      position.toInt + distance.toInt < 2 ^ 63
  · exact Or.inl (yields_advance? fits.1 fits.2)
  · exact Or.inr ⟨if_neg fits, by omega⟩

section Seeking

variable {session : Session} {cursor : Int64} (isCursor : cursor.toInt = session.cursor)

include isCursor

theorem reach?_cases {length : Int64} {size : Nat} (isLength : length.toInt = size)
    (offset : Int64) (origin : Origin) :
    Yields (reach? cursor length offset origin)
        (fun target => target.toInt = session.base size origin + offset.toInt) ∨
      reach? cursor length offset origin = none ∧
        (session.base size origin + offset.toInt < -2 ^ 63 ∨
          2 ^ 63 ≤ session.base size origin + offset.toInt) := by
  cases origin with
  | start => exact Or.inl (Yields.pure (Int.zero_add _).symm)
  | current =>
      rw [Session.base, ← isCursor]
      exact advance?_cases cursor offset
  | ending =>
      rw [Session.base, ← isLength]
      exact advance?_cases length offset

/-- In words, a seek leads where it leads in unbounded numbers, if that is a position. -/
theorem target?_cases {length : Int64} {size : Nat} (isLength : length.toInt = size)
    (offset : Int64) (origin : Origin) :
    Yields (target? cursor length offset origin) (fun target =>
        target.toInt = session.base size origin + offset.toInt ∧ 0 ≤ target.toInt) ∨
      target? cursor length offset origin = none ∧
        (session.base size origin + offset.toInt < 0 ∨
          2 ^ 63 ≤ session.base size origin + offset.toInt) := by
  rcases reach?_cases isCursor isLength offset origin with
    ⟨target, isTarget, same⟩ | ⟨unreached, beyond⟩
  · have decided : target? cursor length offset origin =
        if 0 ≤ target then some target else none := by
      rw [target?, isTarget]
      rfl
    rw [decided]
    by_cases positive : 0 ≤ target
    · rw [if_pos positive]
      exact Or.inl (Yields.pure ⟨same, Int64.le_iff_toInt_le.mp positive⟩)
    · rw [if_neg positive]
      have negative := Int64.le_iff_toInt_le.not.mp positive
      rw [Int64.toInt_zero] at negative
      exact Or.inr ⟨rfl, Or.inl (by omega)⟩
  · refine Or.inr ⟨?_, by omega⟩
    rw [target?, unreached]
    rfl

/-- In words, a seek comes to what the rule says about the exact sum, if that is a position. -/
theorem yields_seek? (rule : (length target : Int64) → Except TreeError Int64)
    {bytes : List UInt8} (fits : bytes.length < memoryLimit) (offset : Int64) (origin : Origin) :
    let place := session.base bytes.length origin + offset.toInt
    Yields (seek? rule cursor bytes offset origin) fun sought =>
      (∃ length target : Int64, length.toInt = bytes.length ∧ target.toInt = place ∧ 0 ≤ place ∧
        sought = rule length target) ∨
      ((place < 0 ∨ 2 ^ 63 ≤ place) ∧ sought = .error .invalidSeek) := by
  intro place
  refine (yields_length? fits).bind fun size isSize => ?_
  rw [memoryLimit] at fits
  refine (yields_position? (by omega)).bind fun length isLength => Yields.pure ?_
  rw [isSize] at isLength
  rcases target?_cases isCursor isLength offset origin with
    ⟨target, isTarget, same, positive⟩ | ⟨untargeted, beyond⟩
  · refine Or.inl ⟨length, target, isLength, same, by omega, ?_⟩
    rw [isTarget, Option.elim_some]
  · refine Or.inr ⟨beyond, ?_⟩
    rw [untargeted, Option.elim_none]

theorem yields_seekFile? {content : List UInt8} (fits : content.length < memoryLimit)
    (offset : Int64) (origin : Origin) :
    Yields (seekFile? cursor content offset origin) fun sought =>
      sought.map (fun target => target.toInt) =
        fileTarget content.length (session.base content.length origin + offset.toInt) := by
  refine (yields_seek? isCursor _ fits offset origin).imp fun sought outcome => ?_
  rcases outcome with ⟨length, target, isLength, isTarget, positive, same⟩ | ⟨beyond, same⟩
  · have below := target.toInt_lt
    have isPosition : ¬ (target.toInt < 0 ∨ 2 ^ 63 ≤ target.toInt) := by omega
    have agrees : length.toInt < target.toInt ↔ length < target := Int64.lt_iff_toInt_lt.symm
    rw [same, fileTarget, ← isTarget, ← isLength, if_neg isPosition]
    by_cases past : length < target
    · rw [if_pos past, if_pos (agrees.mpr past)]
      rfl
    · rw [if_neg past, if_neg (agrees.not.mpr past)]
      rfl
  · rw [same, fileTarget, if_pos beyond]
    rfl

theorem yields_seekSnapshot? {held : List UInt8} (fits : held.length < memoryLimit)
    (offset : Int64) (origin : Origin) :
    Yields (seekSnapshot? cursor held offset origin) fun sought =>
      sought.map (fun target => target.toInt) =
        directoryTarget session.cursor (session.base held.length origin + offset.toInt) := by
  refine (yields_seek? isCursor _ fits offset origin).imp fun sought outcome => ?_
  rcases outcome with ⟨length, target, isLength, isTarget, positive, same⟩ | ⟨beyond, same⟩
  · have atStart : target = 0 ↔ target.toInt = 0 := Int64.toInt_inj.symm
    have agrees : (target.toInt = 0 ∨ target.toInt = cursor.toInt) ↔
        target = 0 ∨ target = cursor := or_congr atStart.symm Int64.toInt_inj
    rw [same, directoryTarget, ← isTarget, ← isCursor]
    by_cases allowed : target = 0 ∨ target = cursor
    · rw [if_pos (agrees.mpr allowed), if_neg (by tauto)]
      rfl
    · rw [if_neg (agrees.not.mpr allowed), if_pos (not_or.mp allowed)]
      rfl
  · -- The cursor is a position itself, so a place that is none is not where the cursor is.
    have small := cursor.toInt_lt
    rw [same, directoryTarget, ← isCursor, if_neg (by omega)]
    rfl

end Seeking

end Word

end MemFs
