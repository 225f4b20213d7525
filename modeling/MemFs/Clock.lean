/-!
# Clocks

An operation reads the clock once for every time that it writes down, and the clock may go on in
between. A `Clock` is what one operation sees of it: its readings, in the order in which they are
made.
-/

namespace MemFs

/-- The readings that an operation makes of the clock, in seconds. -/
structure Clock where
  reading : Nat → UInt32

namespace Clock

/-- The first reading, which is the only one for most operations. -/
def now (clock : Clock) : UInt32 :=
  clock.reading 0

/-- The clock after this many readings. -/
def after (clock : Clock) (count : Nat) : Clock :=
  ⟨fun index => clock.reading (count + index)⟩

/-- A clock that shows the same time all through an operation. -/
def still (time : UInt32) : Clock :=
  ⟨fun _ => time⟩

instance : Coe UInt32 Clock :=
  ⟨still⟩

instance (seconds : Nat) : OfNat Clock seconds :=
  ⟨still (.ofNat seconds)⟩

@[simp] theorem after_zero (clock : Clock) : clock.after 0 = clock := by
  simp only [after, Nat.zero_add]

end Clock

end MemFs
