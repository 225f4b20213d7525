import MemFs.Toml.Line

/-!
# Texts in quotes

Texts between double quotes have escapes, those between single quotes have none. Tripled quotes
enclose texts of several lines, in which one or two quotes may stand next to each other, also right
before the closing ones.
-/

namespace MemFs.Toml

/-- What stands for itself between double quotes. -/
def isBasic (character : Char) : Bool :=
  isCommentary character && character != '"' && character != '\\'

/-- What stands for itself between single quotes. -/
def isLiteral (character : Char) : Bool :=
  isCommentary character && character != '\''

def hexValue? (digit : Char) : Option Nat :=
  if '0' ≤ digit && digit ≤ '9' then some (digit.toNat - '0'.toNat)
  else if 'a' ≤ digit && digit ≤ 'f' then some (digit.toNat - 'a'.toNat + 10)
  else if 'A' ≤ digit && digit ≤ 'F' then some (digit.toNat - 'A'.toNat + 10)
  else none

/-- The number that so many hexadecimal digits stand for, after those read before. -/
def hexNumber : (digits : Nat) → (before : Nat) → Scan Nat
  | 0, before => pure before
  | digits + 1, before => do
      let digit ← Scan.one fun character => (hexValue? character).isSome
      hexNumber digits (16 * before + (hexValue? digit).getD 0)

/-- The character whose code point so many hexadecimal digits give. -/
def codePoint (digits : Nat) : Scan Char := do
  let code ← hexNumber digits 0
  if code.isValidChar then pure (Char.ofNat code) else failure

def escape : Scan Char := do
  let _ ← Scan.char '\\'
  match ← Scan.one fun _ => true with
  | 'b' => pure '\x08'
  | 't' => pure '\t'
  | 'n' => pure '\n'
  | 'f' => pure '\x0c'
  | 'r' => pure '\r'
  | '"' => pure '"'
  | '\\' => pure '\\'
  | 'u' => codePoint 4
  | 'U' => codePoint 8
  | _ => failure

/-- A backslash at the end of a line. It and all blanks and ends of lines after it are left out. -/
def continuation : Scan Unit := do
  let _ ← Scan.char '\\'
  blanks
  lineBreak
  let blank : Scan Unit := do
    let _ ← Scan.spanSome isBlank
  let _ ← Scan.many (blank <|> lineBreak)

/-- A text between double quotes on one line. -/
def basicText : Scan String := do
  let _ ← Scan.char '"'
  let portions ← Scan.many (Scan.spanSome isBasic <|> ([·]) <$> escape)
  let _ ← Scan.char '"'
  pure (String.ofList portions.flatten)

/-- A text between single quotes on one line. -/
def literalText : Scan String := do
  let _ ← Scan.char '\''
  let characters ← Scan.span isLiteral
  let _ ← Scan.char '\''
  pure (String.ofList characters)

/-- Two quotes or one, if what has to follow them follows. -/
def quotesBefore {α : Type} (quote : Char) (follower : Scan α) : Scan (List Char) :=
  let pair : Scan (List Char) := do
    Scan.word [quote, quote]
    let _ ← Scan.ahead follower
    pure [quote, quote]
  let single : Scan (List Char) := do
    Scan.word [quote]
    let _ ← Scan.ahead follower
    pure [quote]
  pair <|> single

/-- A text between tripled quotes that is made of such portions. A line break right after the
opening quotes does not count. -/
def linesBetween (quote : Char) (portion : Scan (List Char)) : Scan String := do
  let delimiter := Scan.word [quote, quote, quote]
  delimiter
  let _ ← Scan.option lineBreak
  let portions ← Scan.many (portion <|> quotesBefore quote portion)
  let last ← quotesBefore quote delimiter <|> pure []
  delimiter
  pure (String.ofList (portions.flatten ++ last))

/-- A text of several lines between double quotes. -/
def basicLines : Scan String :=
  linesBetween '"' <|
    Scan.spanSome isBasic <|> (fun _ => []) <$> continuation <|> ([·]) <$> escape
      <|> (fun _ => ['\n']) <$> lineBreak

def literalLines : Scan String :=
  linesBetween '\'' <| Scan.spanSome isLiteral <|> (fun _ => ['\n']) <$> lineBreak

def quotation : Scan String :=
  basicLines <|> basicText <|> literalLines <|> literalText

end MemFs.Toml
