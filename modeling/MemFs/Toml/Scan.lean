/-!
# Scanning

A scanner reads something from the front of a character list or fails, and then the next alternative
reads from the same place.
-/

namespace MemFs.Toml

/-- Reads a value from the front of a character list. -/
abbrev Scan (α : Type) : Type :=
  StateT (List Char) Option α

namespace Scan

variable {α β : Type}

def one (accepted : Char → Bool) : Scan Char
  | [] => none
  | character :: rest => if accepted character then some (character, rest) else none

def char (expected : Char) : Scan Char :=
  one (· == expected)

def word : List Char → Scan Unit
  | [] => pure ()
  | character :: rest => do
      let _ ← char character
      word rest

def span (accepted : Char → Bool) : Scan (List Char) := fun input =>
  some (input.takeWhile accepted, input.dropWhile accepted)

/-- All characters of a class up to the first one that is not, but at least one. -/
def spanSome (accepted : Char → Bool) : Scan (List Char) := do
  let characters ← span accepted
  if characters.isEmpty then failure else pure characters

/-- What the scanner reads, or nothing. -/
def option (scan : Scan α) : Scan (Option α) :=
  (some <$> scan) <|> pure none

/-- What the scanner would read, without reading it. -/
def ahead (scan : Scan α) : Scan α := fun input =>
  (scan input).map fun (value, _) => (value, input)

def ending : Scan Unit := fun input =>
  if input.isEmpty then some ((), input) else none

/-- What the scanner reads again and again until it fails, at most this many times. -/
def upTo (scan : Scan α) : (limit : Nat) → Scan (List α)
  | 0 => pure []
  | limit + 1 => do
      match ← option scan with
      | none => pure []
      | some value =>
          let more ← upTo scan limit
          pure (value :: more)

/-- What the scanner reads again and again until it fails. It has to read at least one character
each time, so it reads no more often than there are characters. -/
def many (scan : Scan α) : Scan (List α) := fun input =>
  upTo scan input.length input

/-- What the scanner reads, at least once, between separators. -/
def separatedBy (scan : Scan α) (separator : Scan β) : Scan (List α) := do
  let first ← scan
  let others ← many (separator *> scan)
  pure (first :: others)

end Scan

end MemFs.Toml
