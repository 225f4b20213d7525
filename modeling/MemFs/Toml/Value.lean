import MemFs.Toml.Table
import MemFs.Toml.Timestamp

/-!
# Keys and values
-/

namespace MemFs.Toml

/-- The number of levels at which keys and nested values are refused. -/
def depthLimit : Nat := 80

/-- What may stand in a name without quotes. -/
def isBare (character : Char) : Bool :=
  isDecimal character || ('a' ≤ character && character ≤ 'z')
    || ('A' ≤ character && character ≤ 'Z') || character == '_' || character == '-'

/-- A name: bare, or between quotes on one line. -/
def simpleKey : Scan String :=
  basicText <|> literalText <|> String.ofList <$> Scan.spanSome isBare

/-- Names with dots between them: those on the way, and the last one. -/
def key : Scan (List String × String) := do
  let names ← Scan.separatedBy (blanks *> simpleKey <* blanks) (Scan.char '.')
  match names.getLast? with
  | some last =>
      if names.length < depthLimit then pure (names.dropLast, last) else failure
  | none => failure

def truth : Scan Datum :=
  (do
    Scan.word "true".toList
    pure (.truth true)) <|>
  (do
    Scan.word "false".toList
    pure (.truth false))

/-- A value without values in it. Timestamps and fractions begin like integers and come first. -/
def scalar : Scan Datum :=
  .text <$> quotation <|> truth <|> timestamp <|> decimalFraction <|> specialNumber <|> integer

/-- Values between brackets, with commas between them and perhaps one after the last. -/
def array (value : Scan Datum) : Scan Datum := do
  let _ ← Scan.char '['
  let items ← Scan.option do
    let items ← Scan.separatedBy (blankLines *> value <* blankLines) (Scan.char ',')
    let _ ← Scan.option (Scan.char ',')
    pure items
  blankLines
  let _ ← Scan.char ']'
  pure (.list (items.getD []))

def pair (value : Scan Datum) : Scan ((List String × String) × Datum) := do
  let key ← key
  let _ ← Scan.char '='
  blanks
  let value ← value
  pure (key, value)

/-- Keys and their values between braces, with commas between them. -/
def inlineTable (value : Scan Datum) : Scan Datum := do
  let _ ← Scan.char '\x7b'
  let pairs ← Scan.option (Scan.separatedBy (pair value <* blanks) (Scan.char ','))
  blanks
  let _ ← Scan.char '\x7d'
  match Table.empty.addValues (pairs.getD []) with
  | some table => pure table.toDatum
  | none => failure

/-- A value in which values may be nested so deep. -/
def valueWithin : (depth : Nat) → Scan Datum
  | 0 => scalar
  | depth + 1 => scalar <|> array (valueWithin depth) <|> inlineTable (valueWithin depth)

def value : Scan Datum :=
  valueWithin (depthLimit - 1)

end MemFs.Toml
