import Workflow.Text.Utf8

/-!
# Base64

Three bytes are written as four symbols of six bits each; one or two bytes at the end as two or
three symbols, filled up to four with signs of equality. Only what is written in this way can be
read: the filling must be there, and the bits that nothing is left for must be zero.
-/
namespace Workflow.Base64

/-- The sign that fills up the last four symbols. -/
def filler : UInt8 := 61

def symbol (n : Nat) : UInt8 :=
  let code :=
    if n < 26 then 65 + n
    else if n < 52 then 97 + (n - 26)
    else if n < 62 then 48 + (n - 52)
    else if n = 62 then 43
    else 47
  UInt8.ofNat code

def value? (b : UInt8) : Option Nat :=
  let n := b.toNat
  if 65 ≤ n ∧ n ≤ 90 then some (n - 65)
  else if 97 ≤ n ∧ n ≤ 122 then some (n - 97 + 26)
  else if 48 ≤ n ∧ n ≤ 57 then some (n - 48 + 52)
  else if n = 43 then some 62
  else if n = 47 then some 63
  else none

def encode : Bytes → Bytes
  | a :: b :: c :: rest =>
    symbol (a.toNat / 4) :: symbol (a.toNat % 4 * 16 + b.toNat / 16)
      :: symbol (b.toNat % 16 * 4 + c.toNat / 64) :: symbol (c.toNat % 64) :: encode rest
  | [a, b] =>
    [symbol (a.toNat / 4), symbol (a.toNat % 4 * 16 + b.toNat / 16), symbol (b.toNat % 16 * 4),
      filler]
  | [a] => [symbol (a.toNat / 4), symbol (a.toNat % 4 * 16), filler, filler]
  | [] => []

/-- Why symbols cannot be read, with the place. -/
inductive Flaw where
  | badSymbol (b : UInt8) (offset : Nat)
  | badLength (n : Nat)
  | badLastSymbol (b : UInt8) (offset : Nat)
  | badPadding
  deriving DecidableEq, Repr

def Flaw.message : Flaw → String
  | badSymbol b offset => s!"Invalid symbol {b.toNat}, offset {offset}."
  | badLength n => s!"Invalid input length: {n}"
  | badLastSymbol b offset => s!"Invalid last symbol {b.toNat}, offset {offset}."
  | badPadding => "Invalid padding"

/-- The six bits of the symbol at an offset. -/
def valueAt (offset : Nat) (b : UInt8) : Except Flaw Nat :=
  match value? b with
  | some n => .ok n
  | none => .error (.badSymbol b offset)

def joinFour (a b c d : Nat) : Bytes :=
  [UInt8.ofNat (a * 4 + b / 16), UInt8.ofNat (b % 16 * 16 + c / 4), UInt8.ofNat (c % 4 * 64 + d)]

/-- The symbols of the last group up to the first filler, whose place and number follow. -/
structure LastGroup where
  symbols : List (UInt8 × Nat)
  fillers : Nat
  firstFiller : Nat

/-- Reads the last group, which starts at `start`; `i` counts its symbols. -/
def readLast (start : Nat) : Nat → LastGroup → Bytes → Except Flaw LastGroup
  | _, g, [] => .ok g
  | i, g, b :: rest =>
    if b = filler then
      if i < 2 then .error (.badSymbol b (start + i))
      else
        let first := if g.fillers = 0 then i else g.firstFiller
        readLast start (i + 1) { g with fillers := g.fillers + 1, firstFiller := first } rest
    else if 0 < g.fillers then .error (.badSymbol filler (start + g.firstFiller))
    else
      match value? b with
      | some n => readLast start (i + 1) { g with symbols := g.symbols ++ [(b, n)] } rest
      | none => .error (.badSymbol b (start + i))

/-- The bytes of the last group, whose left over bits must be zero. -/
def finishLast (start : Nat) (g : LastGroup) : Except Flaw Bytes := do
  let n := g.symbols.length
  if n < 2 then throw (.badLength (start + n))
  if (g.fillers + n) % 4 != 0 then throw .badPadding
  match g.symbols with
  | [(_, a), (s, b)] =>
    if b % 16 != 0 then throw (.badLastSymbol s (start + 1))
    return [UInt8.ofNat (a * 4 + b / 16)]
  | [(_, a), (_, b), (s, c)] =>
    if c % 4 != 0 then throw (.badLastSymbol s (start + 2))
    return [UInt8.ofNat (a * 4 + b / 16), UInt8.ofNat (b % 16 * 16 + c / 4)]
  | [(_, a), (_, b), (_, c), (_, d)] => return joinFour a b c d
  | _ => throw (.badLength (start + n))

/-- The bytes of groups of four symbols, the first of which starts at `start`. -/
def decodeFrom (start : Nat) : Bytes → Except Flaw Bytes
  | a :: b :: c :: d :: e :: rest => do
    let w ← valueAt start a
    let x ← valueAt (start + 1) b
    let y ← valueAt (start + 2) c
    let z ← valueAt (start + 3) d
    let later ← decodeFrom (start + 4) (e :: rest)
    return joinFour w x y z ++ later
  | last => do
    let g ← readLast start 0 ⟨[], 0, 0⟩ last
    finishLast start g

/-- The bytes that symbols write. A last symbol that is none, where one symbol is too many, is
reported before anything else. -/
def decode (symbols : Bytes) : Except Flaw Bytes := do
  if symbols.isEmpty then return []
  if symbols.length % 4 = 1 then
    match symbols.getLast? with
    | some b =>
      if b != filler && (value? b).isNone then throw (.badSymbol b (symbols.length - 1))
    | none => pure ()
  decodeFrom 0 symbols

def encodeText (bs : Bytes) : String :=
  String.ofList ((encode bs).map (fun b => Char.ofNat b.toNat))

def decodeText (s : String) : Except Flaw Bytes := decode (Text.utf8 s)

end Workflow.Base64
