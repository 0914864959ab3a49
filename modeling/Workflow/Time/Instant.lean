import Workflow.Decimal.Numeral
import Workflow.Text.Classes

/-!
# Points in time

A point in time counts nanoseconds from the start of the year 1970. It is written as date, time of
day and offset; what is read in any offset is written in that of Greenwich, with as many places of a
second as needed, in threes.
-/
namespace Workflow

/-- A point in time, in nanoseconds. -/
structure Instant where
  nanos : Int
  deriving DecidableEq, Repr, Inhabited

namespace Instant

inductive Flaw where
  | tooShort
  | tooLong
  | invalid
  | outOfRange
  deriving DecidableEq, Repr

def Flaw.message : Flaw → String
  | tooShort => "premature end of input"
  | tooLong => "trailing input"
  | invalid => "input contains invalid characters"
  | outOfRange => "input is out of range"

def isLeap (year : Int) : Bool :=
  year % 4 == 0 && (year % 100 != 0 || year % 400 == 0)

def monthLength (year : Int) (month : Nat) : Nat :=
  match month with
  | 2 => if isLeap year then 29 else 28
  | 4 | 6 | 9 | 11 => 30
  | _ => 31

/-- The days from the start of 1970 to a day. Years begin in March here, so that a leap day is the
last of its year. -/
def daysOfDate (year : Int) (month day : Nat) : Int :=
  let y : Int := if month ≤ 2 then year - 1 else year
  let m : Int := if month ≤ 2 then (month : Int) + 9 else (month : Int) - 3
  let dayOfYear : Int := (153 * m + 2) / 5 + day - 1
  365 * y + y / 4 - y / 100 + y / 400 + dayOfYear - 719468

/-- The year, the month and the day that so many days from the start of 1970 lead to. -/
def dateOfDays (days : Int) : Int × Nat × Nat :=
  let z := days + 719468
  let era := z / 146097
  let dayOfEra := z % 146097
  let yearOfEra := (dayOfEra - dayOfEra / 1460 + dayOfEra / 36524 - dayOfEra / 146096) / 365
  let dayOfYear := dayOfEra - (365 * yearOfEra + yearOfEra / 4 - yearOfEra / 100)
  let m := (5 * dayOfYear + 2) / 153
  let month := if m < 10 then m + 3 else m - 9
  let year := yearOfEra + era * 400 + (if month ≤ 2 then 1 else 0)
  (year, month.toNat, (dayOfYear - (153 * m + 2) / 5 + 1).toNat)

/-- A number of one digit or more, and not more than `most`, at the start of a text. -/
def readNumber (most : Nat) (cs : List Char) : Except Flaw (Nat × List Char) :=
  let ds := (cs.take most).takeWhile Char.isDigit
  if ds.isEmpty then .error (if cs.isEmpty then .tooShort else .invalid)
  else .ok (Decimal.natOfDigits ds, cs.drop ds.length)

/-- A number of one or two digits between two bounds, after blanks. -/
def readField (low high : Nat) (cs : List Char) : Except Flaw (Nat × List Char) := do
  let (n, cs) ← readNumber 2 (Text.trimStart cs)
  if n < low || high < n then .error .outOfRange else return (n, cs)

/-- A year, after blanks: four digits at most, or a sign and any number of them. -/
def readYear (cs : List Char) : Except Flaw (Int × List Char) :=
  match Text.trimStart cs with
  | '-' :: cs => (readNumber cs.length cs).map fun (n, cs) => (-(n : Int), cs)
  | '+' :: cs => (readNumber cs.length cs).map fun (n, cs) => ((n : Int), cs)
  | cs => (readNumber 4 cs).map fun (n, cs) => ((n : Int), cs)

/-- One of some characters at the start of a text. -/
def readSign (allowed : List Char) : List Char → Except Flaw (List Char)
  | [] => .error .tooShort
  | c :: rest => if allowed.contains c then .ok rest else .error .invalid

/-- The nanoseconds of a fraction of a second, which may be missing. -/
def readFraction (cs : List Char) : Except Flaw (Nat × List Char) :=
  match cs with
  | '.' :: rest => do
    let (n, after) ← readNumber 9 rest
    let places := rest.length - after.length
    return (n * Nat.pow 10 (9 - places), after.dropWhile Char.isDigit)
  | _ => .ok (0, cs)

/-- Two digits at the start of a text. -/
def readPair : List Char → Except Flaw (Nat × List Char)
  | c :: d :: rest =>
    if c.isDigit && d.isDigit then .ok (Decimal.natOfDigits [c, d], rest) else .error .invalid
  | _ => .error .tooShort

def readOffset (cs : List Char) : Except Flaw (Int × List Char) :=
  match cs with
  | [] => .error .tooShort
  | c :: rest =>
    if c = 'Z' ∨ c = 'z' then .ok (0, rest)
    else if (String.ofList (cs.take 3)).toUpper = "UTC" then .ok (0, cs.drop 3)
    else if ['+', '-', '−'].contains c then do
      let (hours, rest) ← readPair rest
      let (minutes, rest) ← readPair (rest.dropWhile fun d => d = ':' || Text.isBlank d)
      if 59 < minutes then .error .outOfRange
      else
        let seconds : Int := hours * 3600 + minutes * 60
        return (if c = '+' then seconds else -seconds, rest)
    else .error .invalid

def isYear (year : Int) : Bool := decide (-262143 ≤ year) && decide (year ≤ 262142)

def read (text : String) : Except Flaw Instant := do
  let (year, cs) ← readYear text.toList
  let cs ← readSign ['-'] (Text.trimStart cs)
  let (month, cs) ← readField 1 12 cs
  let cs ← readSign ['-'] (Text.trimStart cs)
  let (day, cs) ← readField 1 31 cs
  let cs ← readSign ['T', 't', ' '] cs
  let (hour, cs) ← readField 0 23 cs
  let cs ← readSign [':'] (Text.trimStart cs)
  let (minute, cs) ← readField 0 59 cs
  let cs ← readSign [':'] (Text.trimStart cs)
  let (second, cs) ← readField 0 60 cs
  let (fraction, cs) ← readFraction cs
  let (offset, cs) ← readOffset (Text.trimStart cs)
  if !(Text.trimStart cs).isEmpty then .error .tooLong
  else if !isYear year || monthLength year month < day || 86400 ≤ offset.natAbs then
    .error .outOfRange
  else
    let time : Int := hour * 3600 + minute * 60 + second
    return ⟨(daysOfDate year month day * 86400 + time - offset) * 1000000000 + fraction⟩

/-- A number with zeros before it, in at least so many digits. -/
def padded (width n : Nat) : String :=
  let ds := Nat.toDigits 10 n
  String.ofList (List.replicate (width - ds.length) '0' ++ ds)

/-- The text of a year. Only one that four digits cannot tell has a sign. -/
def yearText (year : Int) : String :=
  if 0 ≤ year ∧ year ≤ 9999 then padded 4 year.toNat
  else (if year < 0 then "-" else "+") ++ padded 4 year.natAbs

def text (t : Instant) : String :=
  let seconds := t.nanos / 1000000000
  let fraction := (t.nanos % 1000000000).toNat
  let (year, month, day) := dateOfDays (seconds / 86400)
  let time := (seconds % 86400).toNat
  let places :=
    if fraction = 0 then ""
    else if fraction % 1000000 = 0 then "." ++ padded 3 (fraction / 1000000)
    else if fraction % 1000 = 0 then "." ++ padded 6 (fraction / 1000)
    else "." ++ padded 9 fraction
  yearText year ++ "-" ++ padded 2 month ++ "-" ++ padded 2 day ++ "T"
    ++ padded 2 (time / 3600) ++ ":" ++ padded 2 (time / 60 % 60) ++ ":" ++ padded 2 (time % 60)
    ++ places ++ "Z"

end Instant
end Workflow
