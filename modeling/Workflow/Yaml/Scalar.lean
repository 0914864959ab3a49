import Workflow.Yaml.Token
import Workflow.Json.Reader

/-!
# The text of YAML scalars

Plain, quoted and block scalars. Inside plain and quoted scalars a single line break becomes a
space and further ones are kept; a block scalar keeps its line breaks or, when folded, treats them
in the same way between lines that do not start with a blank.
-/
namespace Workflow.Yaml

/-- The blanks met since the last character of a scalar: blanks within a line, or the first line
break, if it is not escaped, and those after it, the last one first. -/
inductive Gap where
  | none
  | blanks (reversed : List Char)
  | lines (first : Option Char) (reversed : List Char)

namespace Gap

/-- A gap and one more blank or line break. -/
def add (g : Gap) (c : Char) : Gap :=
  if isBreak c then
    match g with
    | lines first more => lines first (c :: more)
    | _ => lines (some c) []
  else
    match g with
    | none => blanks [c]
    | blanks more => blanks (c :: more)
    | lines first more => lines first more

/-- The characters that stand for a gap, the last one first. -/
def folded : Gap → List Char
  | none => []
  | blanks more => more
  | lines (some '\n') [] => [' ']
  | lines (some '\n') more => more
  | lines (some c) more => more ++ [c]
  | lines Option.none more => more

def hasBreak : Gap → Bool
  | lines .. => true
  | _ => false

def isSome : Gap → Bool
  | none => false
  | _ => true

end Gap

/-- A character that a plain scalar inside brackets cannot hold. -/
def isFlowMark (c : Char) : Bool := c == ',' || c == '[' || c == ']' || c == '\x7b' || c == '\x7d'

/-- Whether a plain scalar ends before the next character. -/
def plainEnds (flow : Bool) (c : Char) (rest : List Char) : Bool :=
  (c == ':' && atGap rest) || (flow && isFlowMark c)

def plainColonFault (flow : Bool) (c : Char) (rest : List Char) : Bool :=
  flow && c == ':' && rest.head?.any (fun d => isFlowMark d || d == '?')

/-- A plain scalar: its characters, the cursor after it and whether line breaks end it. The block
around it is indented by less than `indent`; `out` holds the characters so far, the last one
first. -/
def plainScalar (flow : Bool) (indent : Int) (out : List Char) (gap : Gap) (c : Cursor) :
    Option (List Char × Cursor × Bool) :=
  match _h : c.rest with
  | [] => some (out.reverse, c, gap.hasBreak)
  | ch :: rest =>
    if isBlank ch || isBreak ch then
      if gap.hasBreak && ch == '\t' && decide ((c.column : Int) < indent) then none
      else plainScalar flow indent out (gap.add ch) c.next
    else if gap.isSome && ((!flow && decide ((c.column : Int) < indent))
        || (c.column == 0 && atDocumentMarker c.rest) || ch == '#') then
      some (out.reverse, c, gap.hasBreak)
    else if plainColonFault flow ch rest then none
    else if plainEnds flow ch rest then some (out.reverse, c, gap.hasBreak)
    else plainScalar flow indent (ch :: (gap.folded ++ out)) .none c.next
termination_by c.rest.length
decreasing_by all_goals exact Cursor.length_next_lt _h

def singleQuoted (out : List Char) (gap : Gap) (c : Cursor) : Option (List Char × Cursor) :=
  match _h : c.rest with
  | [] => none
  | ch :: rest =>
    if isBlank ch || isBreak ch then singleQuoted out (gap.add ch) c.next
    else if c.column == 0 && atDocumentMarker c.rest then none
    else if ch = '\'' then
      if rest.head? = some '\'' then
        singleQuoted ('\'' :: (gap.folded ++ out)) .none (c.advance 2)
      else some ((gap.folded ++ out).reverse, c.next)
    else singleQuoted (ch :: (gap.folded ++ out)) .none c.next
termination_by c.rest.length
decreasing_by
  · exact Cursor.length_next_lt _h
  · exact Cursor.length_advance_lt _h 1
  · exact Cursor.length_next_lt _h

def simpleEscape? (c : Char) : Option Char :=
  match c with
  | '0' => some '\x00'
  | 'a' => some '\x07'
  | 'b' => some '\x08'
  | 't' => some '\t'
  | '\t' => some '\t'
  | 'n' => some '\n'
  | 'v' => some '\x0b'
  | 'f' => some '\x0c'
  | 'r' => some '\r'
  | 'e' => some '\x1b'
  | ' ' => some ' '
  | '"' => some '"'
  | '/' => some '/'
  | '\\' => some '\\'
  | 'N' => some '\x85'
  | '_' => some '\u00a0'
  | 'L' => some '\u2028'
  | 'P' => some '\u2029'
  | _ => none

def escapeDigits? (c : Char) : Option Nat :=
  match c with
  | 'x' => some 2
  | 'u' => some 4
  | 'U' => some 8
  | _ => none

def charOfHex? (ds : List Char) : Option Char := do
  let n ← ds.foldlM (fun n d => (Json.hexValue? d).map (fun v => n * 16 + v)) 0
  if (0xD800 ≤ n ∧ n ≤ 0xDFFF) ∨ 0x10FFFF < n then none else some (Char.ofNat n)

def doubleQuoted (out : List Char) (gap : Gap) (c : Cursor) : Option (List Char × Cursor) :=
  match _h : c.rest with
  | [] => none
  | ch :: rest =>
    if isBlank ch || isBreak ch then doubleQuoted out (gap.add ch) c.next
    else if c.column == 0 && atDocumentMarker c.rest then none
    else if ch = '"' then some ((gap.folded ++ out).reverse, c.next)
    else if ch = '\\' then
      match rest with
      | [] => none
      | e :: digits =>
        if isBreak e then doubleQuoted (gap.folded ++ out) (.lines none []) (c.advance 2)
        else
          match simpleEscape? e, escapeDigits? e with
          | some x, _ => doubleQuoted (x :: (gap.folded ++ out)) .none (c.advance 2)
          | none, some n =>
            if digits.length < n then none
            else
              match charOfHex? (digits.take n) with
              | some x => doubleQuoted (x :: (gap.folded ++ out)) .none (c.advance (n + 2))
              | none => none
          | none, none => none
    else doubleQuoted (ch :: (gap.folded ++ out)) .none c.next
termination_by c.rest.length
decreasing_by
  · exact Cursor.length_next_lt _h
  · exact Cursor.length_advance_lt _h 1
  · exact Cursor.length_advance_lt _h 1
  · exact Cursor.length_advance_lt _h (n + 1)
  · exact Cursor.length_next_lt _h

/-- What a block scalar keeps of the line breaks at its end. -/
inductive Chomping where
  | strip
  | clip
  | keep
  deriving DecidableEq

/-- The marks after the sign of a block scalar: what it keeps at its end, and its indentation
relative to the block around it, if given. -/
def blockHeader (c : Cursor) : Option (Chomping × Nat × Cursor) :=
  let chomp (c : Cursor) : Option Chomping :=
    if c.isAt '+' then some .keep else if c.isAt '-' then some .strip else none
  let digit (c : Cursor) : Option Nat :=
    match c.rest with
    | d :: _ => if d.isDigit then some (d.toNat - '0'.toNat) else none
    | [] => none
  match chomp c, digit c with
  | some k, _ =>
    match digit c.next with
    | some 0 => none
    | some n => some (k, n, c.next.next)
    | none => some (k, 0, c.next)
  | none, some 0 => none
  | none, some n =>
    match chomp c.next with
    | some k => some (k, n, c.next.next)
    | none => some (.clip, n, c.next)
  | none, none => some (.clip, 0, c)

/-- The empty lines before the next line of a block scalar: their breaks, the cursor at that line
and the greatest column met. An `indent` of zero is not known yet. -/
def blockBreaks (indent : Nat) (widest : Nat) (breaks : List Char) (c : Cursor) :
    Option (List Char × Nat × Cursor) :=
  match _h : c.rest with
  | [] => some (breaks.reverse, max widest c.column, c)
  | ch :: _ =>
    let inside := indent == 0 || decide (c.column < indent)
    if inside && ch == ' ' then blockBreaks indent widest breaks c.next
    else if inside && ch == '\t' then none
    else if isBreak ch then blockBreaks indent (max widest c.column) (ch :: breaks) c.next
    else some (breaks.reverse, max widest c.column, c)
termination_by c.rest.length
decreasing_by all_goals exact Cursor.length_next_lt _h

/-- The lines of a block scalar. `out` holds its characters so far, the last one first; `first` is
the break after the line before, and `more` are those after it; `leadingBlank` says whether the
line before began with a blank. -/
def blockLines (fuel : Nat) (literal : Bool) (indent : Nat) (out : List Char)
    (first : List Char) (more : List Char) (leadingBlank : Bool) (c : Cursor) :
    Option (List Char × List Char × List Char × Cursor) :=
  match fuel with
  | 0 => some (out, first, more, c)
  | fuel + 1 =>
    match c.rest with
    | [] => some (out, first, more, c)
    | ch :: _ =>
      if c.column ≠ indent then some (out, first, more, c)
      else
        let blank := isBlank ch
        let joined :=
          if !literal && first == ['\n'] && !leadingBlank && !blank then
            if more.isEmpty then [' '] else []
          else first
        let (line, c) := c.span (fun ch => !isBreak ch)
        let (first, c) :=
          match c.rest with
          | b :: _ => ([b], c.next)
          | [] => ([], c)
        let out := line.reverseAux (more.reverseAux (joined.reverseAux out))
        match blockBreaks indent 0 [] c with
        | none => none
        | some (more, _, c) => blockLines fuel literal indent out first more blank c

/-- A block scalar whose sign was just read, inside a block with the given indentation. -/
def blockScalar (literal : Bool) (around : Int) (c : Cursor) : Option (List Char × Cursor) := do
  let (chomping, increment, c) ← blockHeader c
  let c ← c.restOfLine?
  let given := if increment = 0 then 0 else (max around 0).toNat + increment
  let (more, widest, c) ← blockBreaks given 0 [] c
  let indent := if given = 0 then max widest (max (around + 1).toNat 1) else given
  let (out, first, more, c) ← blockLines (c.rest.length + 1) literal indent [] [] more false c
  return (match chomping with
    | .strip => out.reverse
    | .clip => out.reverse ++ first
    | .keep => out.reverse ++ first ++ more, c)

end Workflow.Yaml
