import Workflow.Json.Basic
import Workflow.Decimal.Style

/-!
# JSON text

Two ways to write a value: on one line without blanks, and over several lines with two blanks for
each level. Both write the members of an object in the order of its table, doubles in the style
`Decimal.Style.json`, and escape in strings only what must be escaped.
-/
namespace Workflow.Json

/-- A control character by its number, as four hexadecimal digits. -/
def unicodeEscape (c : Char) : List Char :=
  let digits := Nat.toDigits 16 c.toNat
  '\\' :: 'u' :: (List.replicate (4 - digits.length) '0' ++ digits)

/-- A character of a string: quotes, backslashes and controls are escaped. -/
def escapeChar (c : Char) : List Char :=
  if c = '"' then ['\\', '"']
  else if c = '\\' then ['\\', '\\']
  else if c = '\n' then ['\\', 'n']
  else if c = '\r' then ['\\', 'r']
  else if c = '\t' then ['\\', 't']
  else if c = '\x08' then ['\\', 'b']
  else if c = '\x0c' then ['\\', 'f']
  else if c < ' ' then unicodeEscape c
  else [c]

def quote (s : String) : List Char := '"' :: (s.toList.flatMap escapeChar ++ ['"'])

def intText (i : Int) : List Char :=
  if i < 0 then '-' :: Nat.toDigits 10 i.natAbs else Nat.toDigits 10 i.natAbs

def numberText : Number → List Char
  | .int i => intText i
  | .float x => (Decimal.Style.json.write x).toList

def joinWith (sep : List Char) : List (List Char) → List Char
  | [] => []
  | [x] => x
  | x :: y :: rest => x ++ sep ++ joinWith sep (y :: rest)

mutual

def compactChars : Json → List Char
  | .null => "null".toList
  | .bool true => "true".toList
  | .bool false => "false".toList
  | .num n => numberText n
  | .str s => quote s
  | .arr items => '[' :: (joinWith [','] (compactItems items) ++ [']'])
  | .obj ⟨members⟩ => '\x7b' :: (joinWith [','] (compactMembers members) ++ ['\x7d'])

def compactItems : List Json → List (List Char)
  | [] => []
  | v :: rest => compactChars v :: compactItems rest

def compactMembers : List (String × Json) → List (List Char)
  | [] => []
  | (k, v) :: rest => (quote k ++ ':' :: compactChars v) :: compactMembers rest

end

/-- A line break followed by two blanks for each level. -/
def newline (level : Nat) : List Char := '\n' :: List.replicate (2 * level) ' '

/-- Members or items between two brackets, one a line; nothing between them if there are none. -/
def bracketLines (left right : Char) (level : Nat) (lines : List (List Char)) : List Char :=
  if lines.isEmpty then [left, right]
  else left :: (newline (level + 1) ++ joinWith (',' :: newline (level + 1)) lines
    ++ newline level ++ [right])

mutual

/-- A value over several lines, inside `level` brackets. -/
def prettyChars (level : Nat) : Json → List Char
  | .arr items => bracketLines '[' ']' level (prettyItems (level + 1) items)
  | .obj ⟨members⟩ => bracketLines '\x7b' '\x7d' level (prettyMembers (level + 1) members)
  | v => compactChars v

/-- The items of a list over several lines. -/
def prettyItems (level : Nat) : List Json → List (List Char)
  | [] => []
  | v :: rest => prettyChars level v :: prettyItems level rest

/-- The members of an object over several lines. -/
def prettyMembers (level : Nat) : List (String × Json) → List (List Char)
  | [] => []
  | (k, v) :: rest => (quote k ++ ':' :: ' ' :: prettyChars level v) :: prettyMembers level rest

end

def compact (v : Json) : String := String.ofList v.compactChars

/-- The text of a value over several lines. -/
def pretty (v : Json) : String := String.ofList (prettyChars 0 v)

/-- A value as it appears inside a text: a string as it is, any other value as JSON. -/
def display : Json → String
  | .str s => s
  | v => v.compact

end Workflow.Json
