import MemFs.Toml.Scan

/-!
# Blanks, lines and comments
-/

namespace MemFs.Toml

/-- Whether a character lies beyond ASCII. All of those may stand in texts and comments. -/
def isBeyondAscii (character : Char) : Bool :=
  0x80 ≤ character.toNat

def isBlank (character : Char) : Bool :=
  character == ' ' || character == '\t'

/-- What may stand in a comment. -/
def isCommentary (character : Char) : Bool :=
  character == '\t' || (' ' ≤ character && character ≤ '~') || isBeyondAscii character

def blanks : Scan Unit := do
  let _ ← Scan.span isBlank

/-- The end of a line: a line feed, also behind a carriage return. -/
def lineBreak : Scan Unit := do
  let _ ← Scan.option (Scan.char '\r')
  let _ ← Scan.char '\n'

/-- A comment, up to the end of its line. -/
def comment : Scan Unit := do
  let _ ← Scan.char '#'
  let _ ← Scan.span isCommentary

/-- The rest of a line on which nothing more is said, with its end. -/
def restOfLine : Scan Unit := do
  blanks
  let _ ← Scan.option comment
  lineBreak <|> Scan.ending

/-- Blanks, ends of lines, and comments with the ends of their lines. -/
def blankLines : Scan Unit := do
  let blank : Scan Unit := do
    let _ ← Scan.spanSome isBlank
  let _ ← Scan.many (blank <|> lineBreak <|> (comment *> lineBreak))

end MemFs.Toml
