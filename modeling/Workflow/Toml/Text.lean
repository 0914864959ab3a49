import Workflow.Json.Reader

/-!
# The texts of TOML

Blanks, comments, the four kinds of strings, and keys. A reader takes something from the front of a
text and gives what follows it.
-/
namespace Workflow.Toml

/-- What is read from the front of a text, and the text after it. -/
abbrev Reader (α : Type) := List Char → Option (α × List Char)

/-- Whether a character may separate things on one line. -/
def isBlank (c : Char) : Bool := c == ' ' || c == '\t'

/-- Whether a character may stand in comments and strings: no control character but the tab. -/
def isPlain (c : Char) : Bool := c == '\t' || (decide (' ' ≤ c) && c != '\x7f')

def skipBlanks (cs : List Char) : List Char := cs.dropWhile isBlank

def newline? : List Char → Option (List Char)
  | '\n' :: rest => some rest
  | '\r' :: '\n' :: rest => some rest
  | _ => none

def skipComment : List Char → List Char
  | '#' :: rest => rest.dropWhile isPlain
  | cs => cs

/-- The text after the end of a line on which nothing but blanks and a comment follow. -/
def lineEnd? (cs : List Char) : Option (List Char) :=
  match skipComment (skipBlanks cs) with
  | [] => some []
  | rest => newline? rest

/-- A text without the blanks, ends of lines and comments at its start. -/
def skipLines (inComment : Bool) : List Char → List Char
  | [] => []
  | '\n' :: rest => skipLines false rest
  | '\r' :: '\n' :: rest => skipLines false rest
  | c :: rest =>
    if inComment then if isPlain c then skipLines true rest else c :: rest
    else if isBlank c then skipLines false rest
    else if c = '#' then skipLines true rest
    else c :: rest

/-- The character of a number of hexadecimal digits. -/
def scalar? (digits : List Char) : Option Char := do
  let n ← digits.foldlM (fun n d => (Json.hexValue? d).map (fun v => n * 16 + v)) 0
  if n < 0xD800 ∨ (0xDFFF < n ∧ n < 0x110000) then some (Char.ofNat n) else none

def simpleEscape? (c : Char) : Option Char := if c = '/' then none else Json.simpleEscape? c

def escape? : Reader Char
  | 'u' :: a :: b :: c :: d :: rest => (scalar? [a, b, c, d]).map (·, rest)
  | 'U' :: a :: b :: c :: d :: e :: f :: g :: h :: rest =>
    (scalar? [a, b, c, d, e, f, g, h]).map (·, rest)
  | c :: rest => (simpleEscape? c).map (·, rest)
  | [] => none

/-- Puts a character in front of what is read after it. -/
def before (c : Char) (r : Option (List Char × List Char)) : Option (List Char × List Char) :=
  r.map fun p => (c :: p.1, p.2)

/-- The rest of a string on one line, up to its closing quote. Escapes are read from at most so many
characters. -/
def basicRest : Nat → Reader (List Char)
  | _, '"' :: rest => some ([], rest)
  | n + 1, '\\' :: rest => do
    let (c, rest) ← escape? rest
    before c (basicRest n rest)
  | n + 1, c :: rest => if isPlain c then before c (basicRest n rest) else none
  | _, _ => none

/-- The rest of a literal string on one line, up to its closing apostrophe. -/
def literalRest : Reader (List Char)
  | [] => none
  | c :: rest =>
    if c = '\'' then some ([], rest)
    else if isPlain c then before c (literalRest rest)
    else none

/-- What ends a string over several lines: three quotes, before which one or two more belong to the
string. -/
def closing? (quote : Char) : Reader (List Char)
  | a :: b :: c :: rest =>
    if a = quote ∧ b = quote ∧ c = quote then
      match rest with
      | d :: e :: after =>
        if d = quote ∧ e = quote then some ([quote, quote], after)
        else if d = quote then some ([quote], e :: after)
        else some ([], rest)
      | [d] => if d = quote then some ([quote], []) else some ([], rest)
      | [] => some ([], [])
    else none
  | _ => none

/-- Whether a backslash in front of a text joins lines: only blanks follow on its line. -/
def joinsLines (cs : List Char) : Bool := (newline? (skipBlanks cs)).isSome

/-- A text without the blanks and ends of lines at its start. -/
def skipFold : List Char → List Char
  | [] => []
  | '\r' :: '\n' :: rest => skipFold rest
  | c :: rest => if isBlank c || c == '\n' then skipFold rest else c :: rest

/-- The rest of a string over several lines, of at most so many characters. Only between quotes,
and not between apostrophes, a backslash means anything. -/
def linesRest (quote : Char) : Nat → Reader (List Char)
  | 0, _ => none
  | n + 1, cs =>
    match closing? quote cs with
    | some r => some r
    | none =>
      match cs with
      | [] => none
      | '\n' :: rest => before '\n' (linesRest quote n rest)
      | '\r' :: '\n' :: rest => before '\n' (linesRest quote n rest)
      | c :: rest =>
        if c = '\\' ∧ quote = '"' then
          if joinsLines rest then linesRest quote n (skipFold rest)
          else do
            let (c, rest) ← escape? rest
            before c (linesRest quote n rest)
        else if isPlain c then before c (linesRest quote n rest)
        else none

/-- A text without the end of line at its start. -/
def skipNewline (cs : List Char) : List Char := (newline? cs).getD cs

def string? : Reader String
  | '"' :: '"' :: '"' :: rest =>
    (linesRest '"' (rest.length + 1) (skipNewline rest)).map fun p => (String.ofList p.1, p.2)
  | '\'' :: '\'' :: '\'' :: rest =>
    (linesRest '\'' (rest.length + 1) (skipNewline rest)).map fun p => (String.ofList p.1, p.2)
  | '"' :: rest => (basicRest rest.length rest).map fun p => (String.ofList p.1, p.2)
  | '\'' :: rest => (literalRest rest).map fun p => (String.ofList p.1, p.2)
  | _ => none

/-- Whether a character may stand in a key without quotes. -/
def isBare (c : Char) : Bool := c.isAlphanum || c == '_' || c == '-'

def simpleKey? : Reader String
  | '"' :: rest => (basicRest rest.length rest).map fun p => (String.ofList p.1, p.2)
  | '\'' :: rest => (literalRest rest).map fun p => (String.ofList p.1, p.2)
  | cs =>
    if (cs.takeWhile isBare).isEmpty then none
    else some (String.ofList (cs.takeWhile isBare), cs.dropWhile isBare)

/-- The parts of a key, of which there are at most so many, with dots and blanks between them. -/
def keyWithin? : Nat → Reader (List String)
  | 0, _ => none
  | n + 1, cs => do
    let (name, rest) ← simpleKey? (skipBlanks cs)
    match skipBlanks rest with
    | '.' :: rest =>
      let (names, rest) ← keyWithin? n rest
      return (name :: names, rest)
    | rest => return ([name], rest)

/-- What may be inside one another, tables or lists, is less than so many deep. -/
def maxDepth : Nat := 80

def key? : Reader (List String) := keyWithin? (maxDepth - 1)

end Workflow.Toml
