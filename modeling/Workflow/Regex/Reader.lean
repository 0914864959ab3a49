import Workflow.Regex.Basic
import Workflow.Json.Reader

/-!
# The syntax of patterns

Patterns are made of alternatives, branches and groups, in one way everywhere. What stands between
these, and how deep and how large a pattern may be, is left to a dialect: blanks and comments,
single signs with escapes and classes, numbers of repetitions, and what groups open with. Two
dialects are given. They know literals, classes with set operations, anchors and flags, but no
back-references, and assertions about what comes before or after only where they are allowed; the
classes of digits, words and blanks are those of ASCII or those of Unicode.

Every call of the reader is made with less fuel than the one it comes from; the fuel that `parse?`
provides is more than the text can use.
-/
namespace Workflow.Regex

/-- A reader takes something from the start of a text and leaves the rest. -/
abbrev Reading (α : Type) := List Char → Option (α × List Char)

structure Flags where
  insensitive : Bool := false
  multiline : Bool := false
  dotAll : Bool := false
  unicode : Bool := true
  verbose : Bool := false
  carriage : Bool := false

/-- What a single sign of a pattern means. -/
inductive Sign where
  | literal (c : Char)
  | set (s : CharSet)
  | anchor (a : Anchor)

/-- A text without the blanks and comments at its start, if they mean nothing here. -/
def skipVerbose (f : Flags) (cs : List Char) : List Char :=
  if f.verbose then go (cs.length + 1) cs else cs
where
  /-- Skips blanks and comments in turn. -/
  go : Nat → List Char → List Char
    | 0, cs => cs
    | n + 1, cs =>
      match cs.dropWhile Text.isBlank with
      | '#' :: rest => go n ((rest.dropWhile (· != '\n')).drop 1)
      | cs => cs

/-- A set as the flags want it. Without Unicode, letters beyond ASCII are no variants of others. -/
def cased (f : Flags) (s : CharSet) : CharSet :=
  if !f.insensitive then s
  else if f.unicode then .anyCase s
  else if s.isAscii then .inter (.anyCase s) .ascii
  else s

def letterClass (asciiClasses : Bool) (f : Flags) (c : Char) : Option CharSet :=
  let ascii := asciiClasses || !f.unicode
  let digits := if ascii then CharSet.asciiDigit else .decimalDigit
  let words := if ascii then CharSet.asciiWord else .word
  let blanks :=
    if asciiClasses then
      CharSet.ofChars
        [' ', '\t', '\n', '\r', '\x0b', '\x0c', '\u00a0', '\ufeff', '\u2003', '\u2029']
    else if ascii then CharSet.asciiBlank
    else .blank
  match c with
  | 'd' => some digits
  | 'D' => some (.complement digits)
  | 'w' => some words
  | 'W' => some (.complement words)
  | 's' => some blanks
  | 'S' => some (.complement blanks)
  | _ => none

def caret (cs : List Char) : Bool × List Char :=
  match cs with
  | '^' :: rest => (true, rest)
  | _ => (false, cs)

def namedClass? (name : List Char) : Option CharSet :=
  let plain := String.ofList
    ((name.filter (fun c => c != ' ' && c != '-' && c != '_')).map Char.toLower)
  let categories (s : String) : Option CharSet :=
    (Text.Category.ofName? s).map (fun ks =>
      ks.foldr (fun k acc => .union (.category k) acc) .nothing)
  match plain with
  | "any" => some CharSet.everything
  | "ascii" => some .ascii
  | "assigned" => some (.complement (.category .unassigned))
  | "alphabetic" | "alpha" => some .alphabetic
  | "whitespace" | "wspace" | "space" => some .blank
  | _ => categories plain

/-- A class by its Unicode name, in braces or of one letter, after its backslash and letter. -/
def unicodeClass? (negated : Bool) (cs : List Char) : Option (CharSet × List Char) :=
  let signed (negated : Bool) (s : CharSet) := if negated then CharSet.complement s else s
  match cs with
  | '\x7b' :: rest =>
    let body := rest.takeWhile (· != '\x7d')
    match rest.dropWhile (· != '\x7d') with
    | [] => none
    | _ :: after =>
      let (inverse, body) := caret body
      let key := body.takeWhile (fun c => c != '=' && c != ':' && c != '!')
      match body.dropWhile (fun c => c != '=' && c != ':' && c != '!') with
      | [] => (namedClass? body).map (fun s => (signed (negated != inverse) s, after))
      | mark :: value =>
        let value := if mark = '!' then value.drop 1 else value
        let flip := mark = '!'
        if String.ofList (key.map Char.toLower) ∈ ["gc", "general_category"] then
          (namedClass? value).map (fun s => (signed ((negated != inverse) != flip) s, after))
        else none
  | c :: rest => (namedClass? [c]).map (fun s => (signed negated s, rest))
  | [] => none

/-- A character by its number in hexadecimal digits, after its backslash and letter. Without Unicode
two digits stand for a byte, which beyond ASCII is no character. -/
def hexChar? (f : Flags) (letter : Char) (cs : List Char) : Option (Char × List Char) :=
  let ofDigits (ds : List Char) : Option Char := do
    if ds.isEmpty then none
    else
      let n ← ds.foldlM (fun n d => (Json.hexValue? d).map (fun v => n * 16 + v)) 0
      if (0xD800 ≤ n ∧ n ≤ 0xDFFF) ∨ 0x10FFFF < n then none else some (Char.ofNat n)
  match cs with
  | '\x7b' :: rest =>
    match rest.dropWhile (· != '\x7d') with
    | [] => none
    | _ :: after => (ofDigits (rest.takeWhile (· != '\x7d'))).map (·, after)
  | _ =>
    let n := if letter = 'x' then 2 else if letter = 'u' then 4 else 8
    let readable (c : Char) := f.unicode || letter != 'x' || decide (c ≤ '\x7f')
    if cs.length < n then none else ((ofDigits (cs.take n)).filter readable).map (·, cs.drop n)

/-- Whether a character can stand in the name of a word boundary. -/
def isBoundaryLetter (c : Char) : Bool := c.isAlpha || c == '-'

/-- The anchor of a word boundary with a name in braces, after the letter. -/
def namedBoundary (ascii : Bool) (cs : List Char) : Option (Anchor × List Char) :=
  match cs with
  | '\x7b' :: rest =>
    let name := rest.takeWhile isBoundaryLetter
    match rest.dropWhile isBoundaryLetter with
    | '\x7d' :: after =>
      if name.isEmpty then some (.wordBoundary ascii, cs)
      else
        match String.ofList name with
        | "start" => some (.wordStart ascii, after)
        | "end" => some (.wordEnd ascii, after)
        | "start-half" => some (.wordStartHalf ascii, after)
        | "end-half" => some (.wordEndHalf ascii, after)
        | _ => none
    | _ => some (.wordBoundary ascii, cs)
  | _ => some (.wordBoundary ascii, cs)

/-- Whether a character of ASCII is neither a letter nor a digit. -/
def isMark (c : Char) : Bool :=
  decide (c.toNat < 128) && !CharSet.asciiLetter.holds c && !CharSet.asciiDigit.holds c

def escape? (asciiClasses : Bool) (f : Flags) (cs : List Char) : Option (Sign × List Char) :=
  match cs with
  | [] => none
  | c :: rest =>
    match letterClass asciiClasses f c with
    | some s => some (.set s, rest)
    | none =>
      if c = 'x' ∨ c = 'u' ∨ c = 'U' then
        (hexChar? f c rest).map (fun p => (.literal p.1, p.2))
      else if c = 'p' ∨ c = 'P' then
        if f.unicode then (unicodeClass? (c == 'P') rest).map (fun p => (.set p.1, p.2)) else none
      else
        match c with
        | 'a' => some (.literal '\x07', rest)
        | 'f' => some (.literal '\x0c', rest)
        | 't' => some (.literal '\t', rest)
        | 'n' => some (.literal '\n', rest)
        | 'r' => some (.literal '\r', rest)
        | 'v' => some (.literal '\x0b', rest)
        | 'A' => some (.anchor .textStart, rest)
        | 'z' => some (.anchor .textEnd, rest)
        | 'b' => (namedBoundary (!f.unicode) rest).map (fun p => (.anchor p.1, p.2))
        | 'B' => some (.anchor (.noWordBoundary (!f.unicode)), rest)
        | '<' => some (.anchor (.wordStart (!f.unicode)), rest)
        | '>' => some (.anchor (.wordEnd (!f.unicode)), rest)
        | _ => if isMark c then some (.literal c, rest) else none

inductive SetOp where
  | inter
  | diff
  | symmDiff

def SetOp.apply : SetOp → CharSet → CharSet → CharSet
  | inter, a, b => .inter a b
  | diff, a, b => a.diff b
  | symmDiff, a, b => a.symmDiff b

/-- The set of a class so far: what stands left of the last operation, and the items since. -/
def combined (left : Option (SetOp × CharSet)) (items : CharSet) : CharSet :=
  match left with
  | none => items
  | some (op, s) => op.apply s items

def asciiSet? (name : String) : Option CharSet :=
  match name with
  | "alnum" => some (.union CharSet.asciiLetter CharSet.asciiDigit)
  | "alpha" => some CharSet.asciiLetter
  | "ascii" => some .ascii
  | "blank" => some (CharSet.ofChars [' ', '\t'])
  | "cntrl" => some (.union (.range '\x00' '\x1f') (CharSet.single '\x7f'))
  | "digit" => some CharSet.asciiDigit
  | "graph" => some (.range '!' '~')
  | "lower" => some (.range 'a' 'z')
  | "print" => some (.range ' ' '~')
  | "punct" =>
    some ((CharSet.range '!' '~').diff (.union CharSet.asciiLetter CharSet.asciiDigit))
  | "space" => some CharSet.asciiBlank
  | "upper" => some (.range 'A' 'Z')
  | "word" => some CharSet.asciiWord
  | "xdigit" => some (.union CharSet.asciiDigit (.union (.range 'a' 'f') (.range 'A' 'F')))
  | _ => none

/-- Whether a character can stand in the name of an ASCII class. -/
def isNameSign (c : Char) : Bool := c != ':' && c != ']'

def asciiClass? (f : Flags) (cs : List Char) : Option (CharSet × List Char) :=
  match cs with
  | ':' :: rest =>
    let (negated, rest) := caret rest
    match rest.dropWhile isNameSign with
    | ':' :: ']' :: after =>
      (asciiSet? (String.ofList (rest.takeWhile isNameSign))).map (fun s =>
        let s := cased f s
        (if negated then .complement s else s, after))
    | _ => none
  | _ => none

/-- One item of a class: a character or a smaller class. -/
def classItem? (asciiClasses : Bool) (f : Flags) (cs : List Char) :
    Option (Sign × List Char) :=
  match cs with
  | [] => none
  | '\\' :: rest => escape? asciiClasses f rest
  | c :: rest => some (.literal c, rest)

/-- The set of the characters from one to another. Without Unicode they must be of ASCII. -/
def span? (f : Flags) (low high : Char) : Option CharSet :=
  if low ≤ high ∧ (f.unicode ∨ high ≤ '\x7f') then some (cased f (.range low high)) else none

/-- The set of an item of a class that stands alone. -/
def alone? (f : Flags) : Sign → Option CharSet
  | .literal c => span? f c c
  | .set s => some (cased f s)
  | .anchor _ => none

/-- The set of the characters from one item of a class to another. -/
def between? (f : Flags) : Sign → Sign → Option CharSet
  | .literal low, .literal high => span? f low high
  | _, _ => none

/-- An item of a class and what follows it: a dash and another item, or anything else. -/
def rangeEnd? (asciiClasses : Bool) (f : Flags) (first : Sign) (cs : List Char) :
    Option (CharSet × List Char) :=
  match cs with
  | '-' :: after =>
    match skipVerbose f after with
    | [] => none
    | c :: rest =>
      if c = ']' ∨ c = '-' then (alone? f first).map (·, cs)
      else do
        let (second, rest) ← classItem? asciiClasses f (c :: rest)
        (between? f first second).map (·, rest)
  | [] => none
  | _ => (alone? f first).map (·, cs)

/-- One item of a class or a range of characters, as a set. -/
def classRange? (asciiClasses : Bool) (f : Flags) (cs : List Char) :
    Option (CharSet × List Char) := do
  let (first, rest) ← classItem? asciiClasses f cs
  rangeEnd? asciiClasses f first (skipVerbose f rest)

/-- The head of a class, after its bracket: whether it is negated, the items that stand where they
mean themselves, and the rest. -/
def classHead (f : Flags) (cs : List Char) : Bool × CharSet × List Char :=
  let (negated, cs) := caret (skipVerbose f cs)
  let cs := if negated then skipVerbose f cs else cs
  let rec dashes (fuel : Nat) (items : CharSet) (cs : List Char) : CharSet × List Char :=
    match fuel, cs with
    | fuel + 1, '-' :: rest => dashes fuel (.union items (.single '-')) (skipVerbose f rest)
    | _, _ => (items, cs)
  match cs with
  | ']' :: rest => (negated, .single ']', rest)
  | _ =>
    let (items, cs) := dashes cs.length .nothing cs
    (negated, items, cs)

def classItems (fuel : Nat) (asciiClasses : Bool) (f : Flags) (negated : Bool)
    (left : Option (SetOp × CharSet)) (items : CharSet) (cs : List Char) :
    Option (CharSet × List Char) :=
  match fuel with
  | 0 => none
  | fuel + 1 =>
    let operation (op : SetOp) (rest : List Char) :=
      classItems fuel asciiClasses f negated (some (op, combined left items)) .nothing rest
    match skipVerbose f cs with
    | [] => none
    | ']' :: rest =>
      let s := combined left items
      some (if negated then .complement s else s, rest)
    | '&' :: '&' :: rest => operation .inter rest
    | '-' :: '-' :: rest => operation .diff rest
    | '~' :: '~' :: rest => operation .symmDiff rest
    | '[' :: rest =>
      match asciiClass? f rest with
      | some (s, rest) => classItems fuel asciiClasses f negated left (.union items s) rest
      | none =>
        let (inner, start, rest) := classHead f rest
        match classItems fuel asciiClasses f inner none start rest with
        | some (s, rest) => classItems fuel asciiClasses f negated left (.union items s) rest
        | none => none
    | cs =>
      match classRange? asciiClasses f cs with
      | some (s, rest) => classItems fuel asciiClasses f negated left (.union items s) rest
      | none => none

/-- A class after its opening bracket. No item of it is empty, so that its length is fuel enough. -/
def class? (asciiClasses : Bool) (f : Flags) : Reading CharSet := fun cs =>
  let (negated, start, rest) := classHead f cs
  classItems (cs.length + 1) asciiClasses f negated none start rest

def Flags.set? (f : Flags) (c : Char) (on : Bool) : Option Flags :=
  match c with
  | 'i' => some { f with insensitive := on }
  | 'm' => some { f with multiline := on }
  | 's' => some { f with dotAll := on }
  | 'u' => some { f with unicode := on }
  | 'x' => some { f with verbose := on }
  | 'R' => some { f with carriage := on }
  | 'U' => some f
  | _ => none

/-- The flags of a group up to a colon or a closing parenthesis; each may be given once. -/
def readFlags (f : Flags) (on : Bool) (seen : List Char) (cs : List Char) :
    Option ((Flags × Char) × List Char) :=
  match cs with
  | [] => none
  | c :: rest =>
    if c = ')' ∨ c = ':' then
      if seen.head? = some '-' ∨ (c = ')' ∧ seen.isEmpty) then none else some ((f, c), rest)
    else if c = '-' then
      if on then readFlags f false ('-' :: seen) rest else none
    else if seen.contains c then none
    else
      match f.set? c on with
      | some f => readFlags f on (c :: seen) rest
      | none => none

def ofDigits? (ds : List Char) : Option Nat :=
  let n := (String.ofList ds).toNat?.getD 0
  if ds.isEmpty ∨ 4294967295 < n then none else some n

/-- A number in a repetition, with blanks around it. -/
def readCount (cs : List Char) : Option (Nat × List Char) :=
  let cs := cs.dropWhile Text.isBlank
  (ofDigits? (cs.takeWhile Char.isDigit)).map
    (·, (cs.dropWhile Char.isDigit).dropWhile Text.isBlank)

/-- The closing brace behind the least and the greatest number of repetitions. -/
def boundsEnd? (least most : Nat) : Reading (Nat × Option Nat)
  | '\x7d' :: rest => if least ≤ most then some ((least, some most), rest) else none
  | _ => none

/-- The greatest number of repetitions, if there is one, and the closing brace. -/
def mostBound? (least : Nat) : Reading (Nat × Option Nat)
  | '\x7d' :: rest => some ((least, none), rest)
  | cs => (readCount cs).bind fun p => boundsEnd? least p.1 p.2

def leastBound? (f : Flags) (least : Nat) : Reading (Nat × Option Nat)
  | '\x7d' :: rest => some ((least, some least), rest)
  | ',' :: rest => mostBound? least (skipVerbose f rest)
  | _ => none

/-- The bounds of a repetition, after its opening brace. -/
def readBounds (f : Flags) : Reading (Nat × Option Nat) := fun cs =>
  (readCount (skipVerbose f cs)).bind fun p => leastBound? f p.1 p.2

/-- The rest without a mark that only changes which of several matches is preferred. -/
def dropLazy : List Char → List Char
  | '?' :: rest => rest
  | cs => cs

/-- The bounds that a sign of repetition stands for. Only behind braces, blanks may stand in front
of the mark of preference. -/
def bounds? (f : Flags) (c : Char) : Reading (Nat × Option Nat) := fun cs =>
  match c with
  | '*' => some ((0, none), dropLazy cs)
  | '+' => some ((1, none), dropLazy cs)
  | '?' => some ((0, some 1), dropLazy cs)
  | _ => (readBounds f cs).map fun p => (p.1, dropLazy (skipVerbose f p.2))

/-- What a set matches. Without Unicode a set must not reach beyond ASCII. -/
def ofSet? (f : Flags) (s : CharSet) : Option Regex :=
  if f.unicode || s.isAscii then some (.set s) else none

def ofSign? (f : Flags) : Sign → Option Regex
  | .literal c => some (.set (cased f (.single c)))
  | .set s => ofSet? f (cased f s)
  | .anchor a => some (.anchor a)

def dot (f : Flags) : CharSet :=
  if f.dotAll then CharSet.everything
  else if f.carriage then .complement (CharSet.ofChars ['\n', '\r'])
  else .complement (.single '\n')

def startAnchor (f : Flags) : Anchor := if f.multiline then .lineStart f.carriage else .textStart

/-- What a dollar sign asks of its position. -/
def endAnchor (f : Flags) : Anchor := if f.multiline then .lineEnd f.carriage else .textEnd

/-- A single sign of a pattern, by its first character. -/
def sign? (asciiClasses : Bool) (f : Flags) (c : Char) : Reading Regex := fun cs =>
  match c with
  | '.' => (ofSet? f (dot f)).map (·, cs)
  | '^' => some (.anchor (startAnchor f), cs)
  | '$' => some (.anchor (endAnchor f), cs)
  | '[' => (class? asciiClasses f cs).bind fun p => (ofSet? f p.1).map (·, p.2)
  | '\\' => (escape? asciiClasses f cs).bind fun p => (ofSign? f p.1).map (·, p.2)
  | c => some (.set (cased f (.single c)), cs)

def isGroupName (name : List Char) : Bool :=
  match name with
  | [] => false
  | c :: rest =>
    (c == '_' || Text.isAlphabetic c)
      && rest.all (fun c => c == '_' || c == '.' || c == '[' || c == ']' || Text.isAlphanumeric c)

def groupName? : Reading (List Char) := fun cs =>
  let name := cs.takeWhile (· != '>')
  match cs.dropWhile (· != '>') with
  | [] => none
  | _ :: rest => if isGroupName name then some (name, rest) else none

/-- A group around what comes before or after, where these are allowed. -/
def lookOpening (lookaround : Bool) (f : Flags) (make : Regex → Regex) :
    Reading (Flags × Option (Regex → Regex)) := fun cs =>
  if lookaround then some ((f, some make), cs) else none

def nameOpening (f : Flags) : Reading (Flags × Option (Regex → Regex)) := fun cs =>
  (groupName? cs).map fun p => ((f, some (Regex.grouped (some p.1))), p.2)

/-- The flags of a group. Those of a group without a body hold for what follows it. -/
def flagsOpening (f : Flags) : Reading (Flags × Option (Regex → Regex)) := fun cs =>
  (readFlags f true [] cs).map fun p =>
    ((p.1.1, if p.1.2 = ')' then none else some (Regex.grouped none)), p.2)

/-- What a group opens with: the flags of its body and what is made of the body, if it has one. -/
def opening? (lookaround : Bool) (f : Flags) : Reading (Flags × Option (Regex → Regex))
  | '?' :: '=' :: rest => lookOpening lookaround f (.ahead true) rest
  | '?' :: '!' :: rest => lookOpening lookaround f (.ahead false) rest
  | '?' :: '<' :: '=' :: rest => lookOpening lookaround f (.behind true) rest
  | '?' :: '<' :: '!' :: rest => lookOpening lookaround f (.behind false) rest
  | '?' :: 'P' :: '<' :: rest => nameOpening f rest
  | '?' :: '<' :: rest => nameOpening f rest
  | '?' :: rest => flagsOpening f rest
  | cs => some ((f, some (Regex.grouped none)), cs)

/-- How patterns are read and which of them are put to use. Signs of patterns and of repetition are
read after their first character, and groups after their parenthesis. -/
structure Dialect where
  skip : Flags → List Char → List Char
  sign : Flags → Char → Reading Regex
  bounds : Flags → Char → Reading (Nat × Option Nat)
  opening : Flags → Reading (Flags × Option (Regex → Regex))
  nests : String → Regex → Bool
  fits : String → Regex → Bool

def Dialect.resource : Dialect where
  skip := skipVerbose
  sign := sign? false
  bounds := bounds?
  opening := opening? false
  nests := fun _ r => decide (r.height ≤ maxHeight)
  fits := fun _ r => decide (r.weight ≤ maxWeight)

def Dialect.schema : Dialect where
  skip := skipVerbose
  sign := sign? true
  bounds := bounds?
  opening := opening? true
  nests := fun _ _ => true
  fits := fun _ r => decide (r.weight ≤ maxWeight)

def endsBranch (c : Char) : Bool := c == ')' || c == '|'

/-- Whether a sign repeats what stands before it. -/
def isRepetition (c : Char) : Bool := c == '*' || c == '+' || c == '?' || c == '\x7b'

def repeatLast (items : List (Option Regex)) (bounds : Nat × Option Nat) :
    Option (List (Option Regex)) :=
  match items with
  | some r :: before => some (some (.many r bounds.1 bounds.2) :: before)
  | _ => none

/-- The pattern of the items of a branch, the last one first. An item without pattern only set
flags. -/
def ofItems (items : List (Option Regex)) : Regex := ofList (items.reverse.filterMap id)

/-- The closing parenthesis of a group. Flags that were set in the group are given up. -/
def closing (f : Flags) (r : Regex) : Reading (Option Regex × Flags)
  | ')' :: rest => some ((some r, f), rest)
  | _ => none

mutual

/-- Alternatives up to a closing parenthesis or the end of the text. -/
def alternatives (fuel : Nat) (d : Dialect) (f : Flags) (cs : List Char) :
    Option ((Regex × Flags) × List Char) :=
  match fuel with
  | 0 => none
  | fuel + 1 =>
    (branch fuel d [] f cs).bind fun p =>
      match p.2 with
      | '|' :: rest =>
        (alternatives fuel d p.1.2 rest).map fun q => ((.alt p.1.1 q.1.1, q.1.2), q.2)
      | rest => some (p.1, rest)

/-- The items of one alternative; those before are given, the last one first. -/
def branch (fuel : Nat) (d : Dialect) (items : List (Option Regex)) (f : Flags) (cs : List Char) :
    Option ((Regex × Flags) × List Char) :=
  match fuel with
  | 0 => none
  | fuel + 1 =>
    match d.skip f cs with
    | [] => some ((ofItems items, f), [])
    | c :: rest =>
      if endsBranch c then some ((ofItems items, f), c :: rest)
      else if isRepetition c then
        (d.bounds f c rest).bind fun p =>
          (repeatLast items p.1).bind fun items => branch fuel d items f p.2
      else if c = '(' then
        (group fuel d f (d.skip f rest)).bind fun p => branch fuel d (p.1.1 :: items) p.1.2 p.2
      else (d.sign f c rest).bind fun p => branch fuel d (some p.1 :: items) f p.2

/-- A group after its opening parenthesis. Flags that a group sets without a body hold up to the
end of the group around it. -/
def group (fuel : Nat) (d : Dialect) (f : Flags) (cs : List Char) :
    Option ((Option Regex × Flags) × List Char) :=
  match fuel with
  | 0 => none
  | fuel + 1 =>
    (d.opening f cs).bind fun p =>
      match p.1.2 with
      | none => some ((none, p.1.1), p.2)
      | some make => (alternatives fuel d p.1.1 p.2).bind fun q => closing f (make q.1.1) q.2

end

/-- The pattern that a text describes. Each name may be given to one group. -/
def parse? (d : Dialect) (text : String) : Option Regex :=
  (alternatives (4 * text.toList.length + 4) d {} text.toList).bind fun p =>
    if p.2.isEmpty && decide p.1.1.names.Nodup then some p.1.1 else none

/-- The pattern that a text describes, unless it nests too deeply to be read. -/
def read? (d : Dialect) (text : String) : Option Regex := (parse? d text).filter (d.nests text)

/-- The pattern that a text describes, unless it is too large to be put to use. -/
def compile? (d : Dialect) (text : String) : Option Regex := (read? d text).filter (d.fits text)

end Workflow.Regex
