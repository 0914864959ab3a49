/-!
# Tokens of YAML text

The punctuation and the scalars of a YAML stream. Block structure, which the text shows by
indentation, appears as explicit tokens at both ends.
-/
namespace Workflow.Yaml

inductive Token where
  | version (major minor : Nat)
  | tagDirective (handle tagStart : String)
  | documentStart
  | documentEnd
  | blockSequenceStart
  | blockMappingStart
  | blockEnd
  | flowSequenceStart
  | flowSequenceEnd
  | flowMappingStart
  | flowMappingEnd
  | blockEntry
  | flowEntry
  | key
  | value
  | alias (name : String)
  | anchor (name : String)
  | tag (handle suffix : String)
  | scalar (plain : Bool) (text : String)
  deriving DecidableEq, Repr, Inhabited

/-- What is left of a text, and where it begins: the number of characters before it, its line and
its column. -/
structure Cursor where
  rest : List Char
  index : Nat
  line : Nat
  column : Nat

/-- Whether a character ends a line. Carriage returns and next-line characters have been replaced
by line feeds before. -/
def isBreak (c : Char) : Bool := c == '\n' || c == '\u2028' || c == '\u2029'

def isBlank (c : Char) : Bool := c == ' ' || c == '\t'

/-- Whether a text is at its end, at a blank or at the end of a line. -/
def atGap : List Char → Bool
  | [] => true
  | c :: _ => isBlank c || isBreak c

def atLineEnd : List Char → Bool
  | [] => true
  | c :: _ => isBreak c

/-- A character of the names of anchors, tag handles and directives. -/
def isNameChar (c : Char) : Bool := c.isAlphanum || c == '_' || c == '-'

def atDocumentMarker (cs : List Char) : Bool :=
  match cs with
  | '-' :: '-' :: '-' :: rest => atGap rest
  | '.' :: '.' :: '.' :: rest => atGap rest
  | _ => false

namespace Cursor

def next (c : Cursor) : Cursor :=
  match c.rest with
  | [] => c
  | ch :: rest =>
    if isBreak ch then ⟨rest, c.index + 1, c.line + 1, 0⟩
    else ⟨rest, c.index + 1, c.line, c.column + 1⟩

def advance (c : Cursor) : Nat → Cursor
  | 0 => c
  | n + 1 => c.next.advance n

/-- The characters that satisfy a test, and the cursor after them. -/
def span (c : Cursor) (p : Char → Bool) : List Char × Cursor :=
  let taken := c.rest.takeWhile p
  (taken, c.advance taken.length)

/-- The cursor after all the characters that satisfy a test. -/
def skipWhile (c : Cursor) (p : Char → Bool) : Cursor := (c.span p).2

def isAt (c : Cursor) (ch : Char) : Bool := c.rest.head? == some ch

def skipComment (c : Cursor) : Cursor :=
  if c.isAt '#' then c.skipWhile (fun ch => !isBreak ch) else c

/-- The cursor after a byte order mark, if one is next in the first column. -/
def skipMark (c : Cursor) : Cursor :=
  if c.column == 0 && c.isAt '\ufeff' then c.next else c

/-- The cursor at the next token of the line or at the end of the line. Tabs count as blanks only
where `tabs` says so. -/
def skipGap (tabs : Bool) (c : Cursor) : Cursor :=
  (c.skipMark.skipWhile (fun ch => ch == ' ' || (tabs && ch == '\t'))).skipComment

@[simp] theorem rest_next (c : Cursor) : c.next.rest = c.rest.tail := by
  unfold next
  split
  · simp_all
  · split <;> simp_all

@[simp] theorem rest_advance (c : Cursor) (n : Nat) : (c.advance n).rest = c.rest.drop n := by
  induction n generalizing c with
  | zero => rfl
  | succ n ih => simp [advance, ih]

theorem length_advance_lt {c : Cursor} {ch : Char} {rest : List Char} (h : c.rest = ch :: rest)
    (n : Nat) : (c.advance (n + 1)).rest.length < c.rest.length := by
  rw [rest_advance, h, List.drop_succ_cons, List.length_drop, List.length_cons]
  omega

theorem length_next_lt {c : Cursor} {ch : Char} {rest : List Char} (h : c.rest = ch :: rest) :
    c.next.rest.length < c.rest.length :=
  length_advance_lt h 0

theorem length_skipWhile_le (c : Cursor) (p : Char → Bool) :
    (c.skipWhile p).rest.length ≤ c.rest.length := by
  simp [skipWhile, span]

theorem length_skipGap_le (tabs : Bool) (c : Cursor) :
    (c.skipGap tabs).rest.length ≤ c.rest.length := by
  have comment (c : Cursor) : c.skipComment.rest.length ≤ c.rest.length := by
    unfold skipComment
    split
    · exact length_skipWhile_le ..
    · exact Nat.le_refl _
  have mark : c.skipMark.rest.length ≤ c.rest.length := by
    unfold skipMark
    split <;> simp
  exact Nat.le_trans (comment _) (Nat.le_trans (length_skipWhile_le ..) mark)

/-- The cursor at the next line, if there is nothing but blanks and a comment before it. -/
def restOfLine? (c : Cursor) : Option Cursor :=
  let c := (c.skipWhile isBlank).skipComment
  if atLineEnd c.rest then some c.next else none

end Cursor

end Workflow.Yaml
