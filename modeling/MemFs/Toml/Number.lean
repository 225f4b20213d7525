import MemFs.Data.Datum
import MemFs.Toml.Quotation

/-!
# Numbers

Single underscores may stand between the digits of a number. Integers are those of 64 bits with a
sign; of other numbers it only matters that they are numbers, and that no positive one is too great
for double precision.
-/

namespace MemFs.Toml

def isDecimal (character : Char) : Bool :=
  '0' ≤ character && character ≤ '9'

/-- Digits of a class with underscores between them. -/
def digitsOf (accepted : Char → Bool) : Scan (List Char) := do
  let groups ← Scan.separatedBy (Scan.spanSome accepted) (Scan.char '_')
  pure groups.flatten

/-- The number that digits stand for in this base. -/
def valueOf (base : Nat) (digits : List Char) : Nat :=
  digits.foldl (fun value digit => base * value + (hexValue? digit).getD 0) 0

/-- A sign, which may be missing: whether it is a minus. -/
def sign : Scan Bool := do
  let sign ← Scan.option (Scan.one fun character => character == '+' || character == '-')
  pure (sign == some '-')

/-- The digits of a decimal integer: a zero stands alone. -/
def wholeDigits : Scan (List Char) := do
  ([·]) <$> Scan.char '0' <|> digitsOf isDecimal

/-- An integer of 64 bits with a sign. -/
def inRange (value : Int) : Scan Datum :=
  if -0x8000000000000000 ≤ value ∧ value ≤ 0x7FFFFFFFFFFFFFFF then pure (.integer value) else failure

/-- An integer in another base, behind a zero and a letter. -/
def basedInteger (letter : Char) (base : Nat) (accepted : Char → Bool) : Scan Datum := do
  Scan.word ['0', letter]
  let digits ← digitsOf accepted
  inRange (valueOf base digits)

def decimalInteger : Scan Datum := do
  let negative ← sign
  let magnitude := valueOf 10 (← wholeDigits)
  inRange (if negative then -magnitude else magnitude)

def integer : Scan Datum :=
  basedInteger 'x' 16 (fun character => (hexValue? character).isSome)
    <|> basedInteger 'o' 8 (fun character => '0' ≤ character && character ≤ '7')
    <|> basedInteger 'b' 2 (fun character => character == '0' || character == '1')
    <|> decimalInteger

/-- The least number that double precision rounds to infinity: half a unit in the last place above
the greatest finite number. -/
def overflowBound : Nat := Nat.pow 2 1024 - Nat.pow 2 970

/-- Whether the number with these digits and this power of ten is too great for double precision.
The first two cases only spare the work on great powers. -/
def overflows (digits : List Char) (exponent : Int) : Bool :=
  let significand := valueOf 10 digits
  let size : Int := digits.length
  if significand = 0 ∨ size + exponent ≤ 300 then false
  else if 310 ≤ exponent then true
  else if 0 ≤ exponent then overflowBound ≤ significand * Nat.pow 10 exponent.toNat
  else overflowBound * Nat.pow 10 (-exponent).toNat ≤ significand

def exponent : Scan Int := do
  let _ ← Scan.one fun character => character == 'e' || character == 'E'
  let negative ← sign
  let magnitude := valueOf 10 (← digitsOf isDecimal)
  pure (if negative then -magnitude else magnitude)

def fraction : Scan (List Char) := do
  let _ ← Scan.char '.'
  digitsOf isDecimal

def decimalFraction : Scan Datum := do
  let negative ← sign
  let whole ← wholeDigits
  let (after, power) ←
    (do
      let power ← exponent
      pure ([], power)) <|>
    (do
      let after ← fraction
      let power ← Scan.option exponent
      pure (after, power.getD 0))
  if !negative && overflows (whole ++ after) (power - after.length) then failure
  else pure .real

def specialNumber : Scan Datum := do
  let _ ← sign
  Scan.word "inf".toList <|> Scan.word "nan".toList
  pure .real

end MemFs.Toml
