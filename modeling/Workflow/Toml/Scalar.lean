import Workflow.Toml.Text
import Workflow.Time.Instant

/-!
# Numbers, dates and words of TOML

Integers have 64 bits with a sign and may be written in four bases. A date or a time is an object
with its text, so that it is nothing where a number or a string is wanted.
-/
namespace Workflow.Toml

/-- More digits, single underscores between them; the digits are given without the underscores. -/
def moreDigits (isDigit : Char → Bool) : Reader (List Char)
  | [] => some ([], [])
  | '_' :: c :: rest => if isDigit c then before c (moreDigits isDigit rest) else none
  | c :: rest =>
    if isDigit c then before c (moreDigits isDigit rest)
    else if c = '_' then none
    else some ([], c :: rest)

/-- Digits, at least one, single underscores between them. -/
def digits? (isDigit : Char → Bool) : Reader (List Char)
  | c :: rest => if isDigit c then before c (moreDigits isDigit rest) else none
  | [] => none

def ofDigits (base : Nat) (ds : List Char) : Nat :=
  ds.foldl (fun n d => n * base + (Json.hexValue? d).getD 0) 0

def isDigitIn (base : Nat) (c : Char) : Bool := (Json.hexValue? c).any (· < base)

def integer? (i : Int) : Option Json := if Number.isSigned i then some (.int i) else none

def basedInteger? (base : Nat) : Reader Json := fun cs => do
  let (ds, rest) ← digits? (isDigitIn base) cs
  return (← integer? (ofDigits base ds), rest)

/-- The whole part of a decimal number: a zero, or digits that do not start with one. -/
def wholeDigits? : Reader (List Char)
  | '0' :: rest => some (['0'], rest)
  | cs => digits? Char.isDigit cs

def exponent? : Reader (List Char)
  | e :: rest =>
    if e = 'e' ∨ e = 'E' then
      match rest with
      | '+' :: rest => (digits? Char.isDigit rest).map fun p => (e :: p.1, p.2)
      | '-' :: rest => (digits? Char.isDigit rest).map fun p => (e :: '-' :: p.1, p.2)
      | rest => (digits? Char.isDigit rest).map fun p => (e :: p.1, p.2)
    else some ([], e :: rest)
  | [] => some ([], [])

def fraction? : Reader (List Char)
  | '.' :: rest => do
    let (ds, rest) ← digits? Char.isDigit rest
    let (exponent, rest) ← exponent? rest
    return ('.' :: ds ++ exponent, rest)
  | rest => exponent? rest

/-- The double of a numeral. One too great to be a number is refused; one too small is not. -/
def double? (negative : Bool) (numeral : List Char) : Option Json := do
  let x ← Decimal.readDigits? numeral
  let x := if negative then -x else x
  if x == Float.ofBits 0x7ff0000000000000 then none else some (.num (.float x))

/-- A decimal number without its sign. Infinity and the value that is no number have names. -/
def unsigned? (negative : Bool) : Reader Json
  | 'i' :: 'n' :: 'f' :: rest => some (named ['i', 'n', 'f'], rest)
  | 'n' :: 'a' :: 'n' :: rest => some (named ['n', 'a', 'n'], rest)
  | cs => do
    let (whole, rest) ← wholeDigits? cs
    let (tail, rest) ← fraction? rest
    if tail.isEmpty then
      let n : Int := Decimal.natOfDigits whole
      return (← integer? (if negative then -n else n), rest)
    else return (← double? negative (whole ++ tail), rest)
where
  /-- A double with a name. -/
  named (name : List Char) : Json :=
    .num (.float ((Decimal.readFloat? (if negative then '-' :: name else name)).getD 0))

def number? : Reader Json
  | '0' :: 'x' :: rest => basedInteger? 16 rest
  | '0' :: 'o' :: rest => basedInteger? 8 rest
  | '0' :: 'b' :: rest => basedInteger? 2 rest
  | '+' :: rest => unsigned? false rest
  | '-' :: rest => unsigned? true rest
  | cs => unsigned? false cs

def twoDigits? (least most : Nat) : Reader Nat
  | a :: b :: rest =>
    let n := Decimal.natOfDigits [a, b]
    if a.isDigit && b.isDigit && decide (least ≤ n ∧ n ≤ most) then some (n, rest) else none
  | _ => none

def expect (c : Char) : List Char → Option (List Char)
  | d :: rest => if d = c then some rest else none
  | [] => none

/-- The text after the month and the day of a date. -/
def monthAndDay? (year : Nat) (cs : List Char) : Option (List Char) := do
  let (month, rest) ← twoDigits? 1 12 cs
  let rest ← expect '-' rest
  let (_, rest) ← twoDigits? 1 (Instant.monthLength year month) rest
  return rest

/-- The text after a time, of which the hour was read. -/
def minutes? (cs : List Char) : Option (List Char) := do
  let (_, rest) ← twoDigits? 0 59 cs
  let rest ← expect ':' rest
  let (_, rest) ← twoDigits? 0 60 rest
  match rest with
  | '.' :: c :: after =>
    if c.isDigit then return after.dropWhile Char.isDigit else return rest
  | _ => return rest

/-- The text after the offset of a time, if there is one. -/
def offset? : List Char → Option (List Char)
  | c :: rest =>
    if c = 'Z' ∨ c = 'z' then some rest
    else if c = '+' ∨ c = '-' then do
      let (_, rest) ← twoDigits? 0 23 rest
      let rest ← expect ':' rest
      let (_, rest) ← twoDigits? 0 59 rest
      return rest
    else some (c :: rest)
  | [] => some []

/-- The text after the colon that makes two digits the hour of a time. -/
def hour? (cs : List Char) : Option (List Char) := do
  let (_, rest) ← twoDigits? 0 23 cs
  expect ':' rest

def timeOfDate? (cs : List Char) : Option (List Char) :=
  match cs with
  | c :: after =>
    if c = 'T' ∨ c = 't' ∨ c = ' ' then
      match hour? after with
      | some rest => (minutes? rest).bind offset?
      | none => some cs
    else some cs
  | [] => some []

/-- A date or a time with its text, where another text follows it. -/
def dated (cs rest : List Char) : Json × List Char :=
  (.obj (.singleton "datetime" (.str (String.ofList (cs.take (cs.length - rest.length))))), rest)

/-- A number, or a date or a time. Four digits and a hyphen begin a date, two digits and a colon a
time. -/
def numberOrDate? : Reader Json := fun cs =>
  match cs with
  | a :: b :: c :: d :: '-' :: rest =>
    if a.isDigit && b.isDigit && c.isDigit && d.isDigit then
      ((monthAndDay? (Decimal.natOfDigits [a, b, c, d]) rest).bind timeOfDate?).map (dated cs)
    else number? cs
  | _ =>
    match hour? cs with
    | some rest => (minutes? rest).map (dated cs)
    | none => number? cs

def word? : Reader Json
  | 't' :: 'r' :: 'u' :: 'e' :: rest => some (.bool true, rest)
  | 'f' :: 'a' :: 'l' :: 's' :: 'e' :: rest => some (.bool false, rest)
  | _ => none

end Workflow.Toml
