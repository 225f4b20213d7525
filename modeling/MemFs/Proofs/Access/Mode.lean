import MemFs.Access.Mode
import Mathlib.Tactic.ByContra

/-!
# Bits of modes

A mode is a set of bits, and a mask picks some of them. Clipping a mode takes bits of the mask away
that the ceiling lacks, and leaves all others alone. Marking a mode as that of a directory adds the
directory flag only.
-/

namespace MemFs

/-- Whether a word has the bit with this index. -/
def hasBit (word : UInt32) (index : Nat) : Bool :=
  word.toBitVec.getLsbD index

section Words

variable {first second : UInt32} {index : Nat}

theorem lt_of_hasBit (set : hasBit first index = true) : index < 32 :=
  BitVec.lt_of_getLsbD set

theorem eq_of_hasBit (same : ∀ index, hasBit first index = hasBit second index) :
    first = second :=
  UInt32.eq_of_toBitVec_eq (BitVec.eq_of_getLsbD_eq fun index _ => same index)

@[simp]
theorem hasBit_zero : hasBit 0 index = false := by
  simp [hasBit]

@[simp]
theorem hasBit_and :
    hasBit (first &&& second) index = (hasBit first index && hasBit second index) := by
  simp [hasBit]

@[simp]
theorem hasBit_or :
    hasBit (first ||| second) index = (hasBit first index || hasBit second index) := by
  simp [hasBit]

theorem hasBit_not (inside : index < 32) : hasBit (~~~first) index = !hasBit first index := by
  simp [hasBit, inside]

/-- Words without a common bit. -/
theorem not_hasBit_of_and_eq_zero (apart : first &&& second = 0)
    (set : hasBit second index = true) : hasBit first index = false := by
  have common := congrArg (hasBit · index) apart
  simpa [set] using common

end Words

namespace Mode

/-- The bits that let the owner, the group or everyone else execute. -/
def executeMask : UInt32 := 0o111

/-- A mode has no bit of the mask that the ceiling lacks. -/
def IsBelow (mask : UInt32) (mode ceiling : Mode) : Prop :=
  mode.bits &&& mask &&& ~~~ceiling.bits = 0

instance (mask : UInt32) (mode ceiling : Mode) : Decidable (IsBelow mask mode ceiling) :=
  inferInstanceAs (Decidable (_ = _))

variable {mask other : UInt32} {mode middle ceiling : Mode}

theorem isBelow_iff :
    IsBelow mask mode ceiling ↔
      ∀ index, hasBit mask index = true → hasBit mode.bits index = true →
        hasBit ceiling.bits index = true := by
  constructor
  · intro below index masked set
    have common := congrArg (hasBit · index) below
    simpa [masked, set, hasBit_not (lt_of_hasBit set)] using common
  · intro inside
    refine eq_of_hasBit fun index => ?_
    rw [hasBit_zero, Bool.eq_false_iff]
    intro set
    simp only [hasBit_and, Bool.and_eq_true] at set
    obtain ⟨⟨set, masked⟩, missing⟩ := set
    rw [hasBit_not (lt_of_hasBit set), inside index masked set] at missing
    cases missing

theorem IsBelow.trans (first : IsBelow mask mode middle) (second : IsBelow mask middle ceiling) :
    IsBelow mask mode ceiling := by
  rw [isBelow_iff] at *
  exact fun index masked set => second index masked (first index masked set)

/-- What holds on a mask holds on a part of it. -/
theorem IsBelow.mono (below : IsBelow mask mode ceiling) (part : other &&& mask = other) :
    IsBelow other mode ceiling := by
  rw [isBelow_iff] at *
  intro index masked set
  rw [← part, hasBit_and, Bool.and_eq_true] at masked
  exact below index masked.2 set

theorem isBelow_of_same (same : mode.bits &&& mask = ceiling.bits &&& mask) :
    IsBelow mask mode ceiling := by
  rw [isBelow_iff]
  intro index masked set
  have bits := congrArg (hasBit · index) same
  simpa [masked, set] using bits

theorem IsBelow.refl (mask : UInt32) (mode : Mode) : IsBelow mask mode mode :=
  isBelow_of_same rfl

/-! ## Clipping -/

variable (mode ceiling)

theorem hasBit_clip (index : Nat) :
    hasBit (mode.clip mask ceiling).bits index =
      (hasBit mode.bits index && (!hasBit mask index || hasBit ceiling.bits index)) := by
  rw [clip, hasBit_and, hasBit_or, hasBit_and]
  by_cases inside : index < 32
  · rw [hasBit_not inside]
    cases hasBit mask index <;> simp
  · have unset : hasBit mode.bits index = false :=
      Bool.eq_false_iff.mpr fun set => inside (lt_of_hasBit set)
    rw [unset, Bool.false_and, Bool.false_and]

/-- A clipped mode is below the ceiling. -/
theorem isBelow_clip (mask : UInt32) : IsBelow mask (mode.clip mask ceiling) ceiling := by
  rw [isBelow_iff]
  intro index masked set
  rw [hasBit_clip, masked, Bool.not_true, Bool.false_or, Bool.and_eq_true] at set
  exact set.2

/-- A clipped mode has no bit that it did not have before. -/
theorem clip_isBelow (mask other : UInt32) : IsBelow other (mode.clip mask ceiling) mode := by
  rw [isBelow_iff]
  intro index _ set
  rw [hasBit_clip, Bool.and_eq_true] at set
  exact set.1

/-- Bits outside the mask are kept. -/
theorem clip_and_of_apart (apart : mask &&& other = 0) :
    (mode.clip mask ceiling).bits &&& other = mode.bits &&& other := by
  refine eq_of_hasBit fun index => ?_
  rw [hasBit_and, hasBit_and, hasBit_clip]
  cases set : hasBit other index with
  | false => simp
  | true => simp [not_hasBit_of_and_eq_zero apart set]

theorem isDirectory_clip (apart : mask &&& directoryFlag = 0) :
    (mode.clip mask ceiling).isDirectory = mode.isDirectory := by
  rw [isDirectory, clip_and_of_apart mode ceiling apart, isDirectory]

/-! ## The directory flag -/

theorem asDirectory_and_of_apart (apart : directoryFlag &&& other = 0) :
    mode.asDirectory.bits &&& other = mode.bits &&& other := by
  refine eq_of_hasBit fun index => ?_
  rw [asDirectory, hasBit_and, hasBit_and, hasBit_or]
  cases set : hasBit other index with
  | false => simp
  | true => simp [not_hasBit_of_and_eq_zero apart set]

/-- The directory flag is no permission. -/
theorem asDirectory_isBelow : IsBelow permissionMask mode.asDirectory mode :=
  isBelow_of_same (asDirectory_and_of_apart mode (by decide))

theorem hasBit_directoryFlag (index : Nat) : hasBit directoryFlag index = decide (index = 31) := by
  have word : directoryFlag.toBitVec = BitVec.twoPow 32 31 := rfl
  rw [hasBit, word, BitVec.getLsbD_twoPow]
  simp [eq_comm]

variable {mode}

theorem isDirectory_iff_hasBit : mode.isDirectory = true ↔ hasBit mode.bits 31 = true := by
  rw [isDirectory, bne_iff_ne]
  constructor
  · intro marked
    by_contra unset
    refine marked (eq_of_hasBit fun index => ?_)
    rw [hasBit_and, hasBit_directoryFlag, hasBit_zero]
    by_cases here : index = 31
    · subst here
      rw [Bool.eq_false_iff.mpr unset, Bool.false_and]
    · rw [decide_eq_false here, Bool.and_false]
  · intro set apart
    have unset := not_hasBit_of_and_eq_zero apart (hasBit_directoryFlag 31)
    rw [set] at unset
    cases unset

theorem isDirectory_asDirectory (mode : Mode) : mode.asDirectory.isDirectory = true := by
  rw [isDirectory_iff_hasBit, asDirectory, hasBit_or, hasBit_directoryFlag]
  exact Bool.or_true _

/-- Marking changes a mode exactly if it was not marked. -/
theorem asDirectory_eq_iff : mode.asDirectory = mode ↔ mode.isDirectory = true := by
  constructor
  · intro same
    rw [← same]
    exact isDirectory_asDirectory mode
  · intro marked
    refine congrArg Mode.mk (eq_of_hasBit fun index => ?_)
    rw [hasBit_or, hasBit_directoryFlag]
    by_cases here : index = 31
    · subst here
      rw [isDirectory_iff_hasBit.mp marked, Bool.true_or]
    · rw [decide_eq_false here, Bool.or_false]

theorem asDirectory_asDirectory (mode : Mode) : mode.asDirectory.asDirectory = mode.asDirectory :=
  asDirectory_eq_iff.mpr (isDirectory_asDirectory mode)

end Mode

end MemFs
