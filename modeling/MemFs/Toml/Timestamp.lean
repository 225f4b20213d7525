import MemFs.Toml.Number

/-!
# Dates and times

A timestamp is a date, a time, or a date and a time, which may then say how far it is from universal
time. Only its form matters: the month has to have the day, and the day the time.
-/

namespace MemFs.Toml

/-- The number that so many decimal digits stand for. -/
def fixedDigits (count : Nat) : Scan Nat := do
  let digits ← Scan.upTo (Scan.one isDecimal) count
  if digits.length = count then pure (valueOf 10 digits) else failure

def twoDigits (least greatest : Nat) : Scan Nat := do
  let value ← fixedDigits 2
  if least ≤ value ∧ value ≤ greatest then pure value else failure

def daysOf (year month : Nat) : Nat :=
  if month = 2 then
    if year % 4 = 0 ∧ (year % 100 ≠ 0 ∨ year % 400 = 0) then 29 else 28
  else if month = 4 ∨ month = 6 ∨ month = 9 ∨ month = 11 then 30
  else 31

def date : Scan Unit := do
  let year ← fixedDigits 4
  let _ ← Scan.char '-'
  let month ← twoDigits 1 12
  let _ ← Scan.char '-'
  let _ ← twoDigits 1 (daysOf year month)

/-- The time of a day, to the second or finer. A second may be a leap second. -/
def timeOfDay : Scan Unit := do
  let _ ← twoDigits 0 23
  let _ ← Scan.char ':'
  let _ ← twoDigits 0 59
  let _ ← Scan.char ':'
  let _ ← twoDigits 0 60
  let _ ← Scan.option (Scan.char '.' *> Scan.spanSome isDecimal)

/-- How far a time is from universal time. -/
def timeOffset : Scan Unit := do
  let zulu : Scan Unit := do
    let _ ← Scan.one fun character => character == 'Z' || character == 'z'
  let difference : Scan Unit := do
    let _ ← Scan.one fun character => character == '+' || character == '-'
    let _ ← twoDigits 0 23
    let _ ← Scan.char ':'
    let _ ← twoDigits 0 59
  zulu <|> difference

def timeAfterDate : Scan Unit := do
  let _ ← Scan.one fun character => character == 'T' || character == 't' || character == ' '
  timeOfDay
  let _ ← Scan.option timeOffset

def timestamp : Scan Datum := do
  let dated : Scan Unit := do
    date
    let _ ← Scan.option timeAfterDate
  dated <|> timeOfDay
  pure .timestamp

end MemFs.Toml
