import Workflow.Yaml.Scalar

/-!
# Cutting YAML text into tokens

Outside brackets the indentation of the text opens and closes blocks. Whether a scalar is a key is
known only at the colon after it, so the lexer remembers for every level of brackets where a key
may have begun, and puts the key token there once it meets the colon. A key stands on one line and
within 1024 characters.
-/
namespace Workflow.Yaml

/-- Where a key may have begun: before which token, and where in the text. -/
structure KeySpot where
  token : Nat
  index : Nat
  line : Nat
  column : Nat
  required : Bool

/-- The state of the lexer. There is one key spot for each level of brackets and one for the text
outside them, the innermost first. -/
structure Lexer where
  cursor : Cursor
  tokens : Array Token := #[]
  indent : Int := -1
  indents : List Int := []
  spots : List (Option KeySpot) := [none]
  keyAllowed : Bool := true

namespace Lexer

def flowLevel (l : Lexer) : Nat := l.spots.length - 1

def inFlow (l : Lexer) : Bool := decide (0 < l.flowLevel)

def push (l : Lexer) (t : Token) : Lexer := { l with tokens := l.tokens.push t }

def insertAt (l : Lexer) (n : Nat) (t : Token) : Lexer :=
  { l with tokens := l.tokens.insertIdxIfInBounds n t }

/-- Opens a block at a column that is further in than the block around it. -/
def openBlock (l : Lexer) (column : Nat) (at? : Option Nat) (t : Token) : Lexer :=
  if l.inFlow || decide ((column : Int) ≤ l.indent) then l
  else
    let l := { l with indents := l.indent :: l.indents, indent := column }
    match at? with
    | some n => l.insertAt n t
    | none => l.push t

def closeBlocks (l : Lexer) (column : Int) : Lexer :=
  if l.inFlow then l else go l l.indents
where
  /-- Closes blocks one by one. -/
  go (l : Lexer) : List Int → Lexer
    | [] => l
    | outer :: rest =>
      if column < l.indent then go { l.push .blockEnd with indent := outer, indents := rest } rest
      else l

/-- Forgets the innermost key spot; it must not be one where only a key can stand. -/
def dropSpot (l : Lexer) : Option Lexer :=
  match l.spots with
  | some s :: rest => if s.required then none else some { l with spots := none :: rest }
  | _ => some l

/-- Remembers that a key may begin here. -/
def markSpot (l : Lexer) : Option Lexer :=
  if l.keyAllowed then do
    let l ← l.dropSpot
    let spot : KeySpot :=
      { token := l.tokens.size, index := l.cursor.index, line := l.cursor.line,
        column := l.cursor.column,
        required := !l.inFlow && l.indent == (l.cursor.column : Int) }
    return { l with spots := some spot :: l.spots.drop 1 }
  else some l

/-- Forgets the key spots that are too far back. -/
def dropStale (l : Lexer) : Option Lexer := do
  let stale (s : KeySpot) : Bool :=
    decide (s.line < l.cursor.line) || decide (s.index + 1024 < l.cursor.index)
  let spots ← l.spots.mapM (fun spot =>
    match spot with
    | some s => if stale s then (if s.required then none else some none) else some (some s)
    | none => some none)
  return { l with spots := spots }

/-- The state at the next token: blanks, comments and line breaks are skipped. Tabs do not count as
blanks where they could be taken for indentation. -/
def skipToToken (l : Lexer) : Lexer :=
  let c := l.cursor.skipGap (l.inFlow || !l.keyAllowed)
  match _h : c.rest with
  | ch :: _ =>
    if isBreak ch then
      skipToToken { l with cursor := c.next, keyAllowed := l.keyAllowed || !l.inFlow }
    else { l with cursor := c }
  | [] => { l with cursor := c }
termination_by l.cursor.rest.length
decreasing_by
  exact Nat.lt_of_lt_of_le (Cursor.length_next_lt _h) (l.cursor.length_skipGap_le _)

/-- Closes everything before a directive, a document marker or the end of the text. -/
def endDocument (l : Lexer) : Option Lexer := do
  let l ← (l.closeBlocks (-1)).dropSpot
  return { l with keyAllowed := false }

def versionNumber (c : Cursor) : Option (Nat × Cursor) :=
  let (ds, c) := c.span Char.isDigit
  if ds.isEmpty ∨ 9 < ds.length then none
  else some ((String.ofList ds).toNat?.getD 0, c)

/-- The handle of a tag: a name between exclamation marks, or the first mark and the letters after
it if no second one follows. -/
def tagHandle (c : Cursor) : Option (List Char × Cursor) :=
  if c.isAt '!' then
    let (name, c) := c.next.span isNameChar
    if c.isAt '!' then some ('!' :: (name ++ ['!']), c.next) else some ('!' :: name, c)
  else none

/-- A character of a tag besides letters and digits. -/
def isTagChar (verbatim : Bool) (c : Char) : Bool :=
  isNameChar c || ";/?:@&=+$.!~*'()%".toList.contains c || (verbatim && ",[]".toList.contains c)

/-- The text of a tag with its escaped octets replaced by the characters they encode. -/
def unescapeTag (cs : List Char) : Option (List Char) :=
  let octets (fuel : Nat) (cs : List Char) : Option (List UInt8) :=
    let rec go (fuel : Nat) (cs : List Char) : Option (List UInt8) :=
      match fuel, cs with
      | 0, _ => some []
      | _, [] => some []
      | fuel + 1, '%' :: rest =>
        match rest with
        | a :: b :: rest => do
          let x ← Json.hexValue? a
          let y ← Json.hexValue? b
          return UInt8.ofNat (x * 16 + y) :: (← go fuel rest)
        | _ => none
      | fuel + 1, c :: rest => do
        return (String.singleton c).toUTF8.toList ++ (← go fuel rest)
    go fuel cs
  do
    let bytes ← octets (cs.length + 1) cs
    let text ← String.fromUTF8? ⟨bytes.toArray⟩
    return text.toList

/-- The characters of a tag after its handle, which must not be empty together with `head`. -/
def tagText (verbatim : Bool) (head : List Char) (c : Cursor) : Option (List Char × Cursor) := do
  let (cs, c) := c.span (isTagChar verbatim)
  if head.isEmpty && cs.isEmpty then none
  else return (head.drop 1 ++ (← unescapeTag cs), c)

def directive (l : Lexer) : Option Lexer := do
  let l ← l.endDocument
  let (name, c) := l.cursor.next.span isNameChar
  if name.isEmpty || !atGap c.rest then none
  else
    let c := c.skipWhile isBlank
    if name = "YAML".toList then
      let (major, c) ← versionNumber c
      if c.isAt '.' then
        let (minor, c) ← versionNumber c.next
        return { l.push (.version major minor) with cursor := ← c.restOfLine? }
      else none
    else if name = "TAG".toList then
      let (handle, c) ← tagHandle c
      if handle ≠ ['!'] ∧ (handle.getLast? ≠ some '!' ∨ handle.length < 2) then none
      else if !c.rest.head?.any isBlank then none
      else
        let (start, c) ← tagText true [] (c.skipWhile isBlank)
        if !atGap c.rest then none
        else
          return { l.push (.tagDirective (String.ofList handle) (String.ofList start)) with
            cursor := ← c.restOfLine? }
    else none

def documentMarker (l : Lexer) (t : Token) : Option Lexer := do
  let l ← l.endDocument
  return { l.push t with cursor := l.cursor.advance 3 }

def openFlow (l : Lexer) (t : Token) : Option Lexer := do
  let l ← l.markSpot
  return { l.push t with spots := none :: l.spots, keyAllowed := true, cursor := l.cursor.next }

def closeFlow (l : Lexer) (t : Token) : Option Lexer := do
  let l ← l.dropSpot
  return { l.push t with
    spots := if l.inFlow then l.spots.drop 1 else l.spots, keyAllowed := false
    cursor := l.cursor.next }

def flowEntry (l : Lexer) : Option Lexer := do
  let l ← l.dropSpot
  return { l.push .flowEntry with keyAllowed := true, cursor := l.cursor.next }

def blockEntry (l : Lexer) : Option Lexer := do
  if !l.inFlow && !l.keyAllowed then none
  else
    let l ← (l.openBlock l.cursor.column none .blockSequenceStart).dropSpot
    return { l.push .blockEntry with keyAllowed := true, cursor := l.cursor.next }

def key (l : Lexer) : Option Lexer := do
  if !l.inFlow && !l.keyAllowed then none
  else
    let l ← (l.openBlock l.cursor.column none .blockMappingStart).dropSpot
    return { l.push .key with keyAllowed := !l.inFlow, cursor := l.cursor.next }

/-- A colon: the end of a key that began at the innermost spot, or of one after a question mark. -/
def value (l : Lexer) : Option Lexer :=
  match l.spots with
  | some s :: rest =>
    let l := ((l.insertAt s.token .key).openBlock s.column (some s.token) .blockMappingStart)
    some { l.push .value with
      spots := none :: rest, keyAllowed := false, cursor := l.cursor.next }
  | _ =>
    if !l.inFlow && !l.keyAllowed then none
    else
      let l := l.openBlock l.cursor.column none .blockMappingStart
      some { l.push .value with keyAllowed := !l.inFlow, cursor := l.cursor.next }

def anchor (l : Lexer) (make : String → Token) : Option Lexer := do
  let l ← l.markSpot
  let (name, c) := l.cursor.next.span isNameChar
  let ended := atGap c.rest || c.rest.head?.any (fun ch => "?:,]\x7d%@`".toList.contains ch)
  if name.isEmpty || !ended then none
  else return { l.push (make (String.ofList name)) with keyAllowed := false, cursor := c }

def tag (l : Lexer) : Option Lexer := do
  let l ← l.markSpot
  let (handle, suffix, c) ←
    (if l.cursor.next.isAt '<' then do
      let (suffix, c) ← tagText true [] l.cursor.next.next
      if c.isAt '>' then some (([] : List Char), suffix, c.next) else none
    else do
      let (handle, c) ← tagHandle l.cursor
      if 1 < handle.length ∧ handle.getLast? = some '!' then
        let (suffix, c) ← tagText false [] c
        some (handle, suffix, c)
      else
        let (suffix, c) ← tagText false handle c
        if suffix.isEmpty then some ([], ['!'], c) else some (['!'], suffix, c))
  if atGap c.rest || (l.inFlow && c.isAt ',') then
    return { l.push (.tag (String.ofList handle) (String.ofList suffix)) with
      keyAllowed := false, cursor := c }
  else none

def block (l : Lexer) (literal : Bool) : Option Lexer := do
  let l ← l.dropSpot
  let (text, c) ← blockScalar literal l.indent l.cursor.next
  return { l.push (.scalar false (String.ofList text)) with keyAllowed := true, cursor := c }

def quoted (l : Lexer) (double : Bool) : Option Lexer := do
  let l ← l.markSpot
  let c := l.cursor.next
  let (text, c) ←
    if double then doubleQuoted [] .none c else singleQuoted [] .none c
  return { l.push (.scalar false (String.ofList text)) with keyAllowed := false, cursor := c }

def plain (l : Lexer) : Option Lexer := do
  let l ← l.markSpot
  let (text, c, broken) ← plainScalar l.inFlow (l.indent + 1) [] .none l.cursor
  return { l.push (.scalar true (String.ofList text)) with keyAllowed := broken, cursor := c }

def startsPlain (l : Lexer) (ch : Char) (rest : List Char) : Bool :=
  !(isBlank ch || isBreak ch || "-?:,[]\x7b\x7d#&*!|>'\"%@`".toList.contains ch)
    || (ch == '-' && !rest.head?.any isBlank)
    || (!l.inFlow && (ch == '?' || ch == ':') && !atGap rest)

/-- Reads the next token, or several; the flag tells whether the text is at its end. -/
def step (l : Lexer) : Option (Lexer × Bool) := do
  let l ← (l.skipToToken).dropStale
  let l := l.closeBlocks l.cursor.column
  let more (l? : Option Lexer) : Option (Lexer × Bool) := l?.map (fun l => (l, false))
  match l.cursor.rest with
  | [] => (l.endDocument).map (fun l => (l, true))
  | ch :: rest =>
    let first := l.cursor.column == 0
    if first && ch == '%' then more l.directive
    else if first && ch == '-' && atDocumentMarker l.cursor.rest then
      more (l.documentMarker .documentStart)
    else if first && ch == '.' && atDocumentMarker l.cursor.rest then
      more (l.documentMarker .documentEnd)
    else if ch = '[' then more (l.openFlow .flowSequenceStart)
    else if ch = '\x7b' then more (l.openFlow .flowMappingStart)
    else if ch = ']' then more (l.closeFlow .flowSequenceEnd)
    else if ch = '\x7d' then more (l.closeFlow .flowMappingEnd)
    else if ch = ',' then more l.flowEntry
    else if ch = '-' ∧ atGap rest then more l.blockEntry
    else if ch = '?' ∧ (l.inFlow ∨ atGap rest) then more l.key
    else if ch = ':' ∧ (l.inFlow ∨ atGap rest) then more l.value
    else if ch = '*' then more (l.anchor .alias)
    else if ch = '&' then more (l.anchor .anchor)
    else if ch = '!' then more l.tag
    else if ch = '|' ∧ !l.inFlow then more (l.block true)
    else if ch = '>' ∧ !l.inFlow then more (l.block false)
    else if ch = '\'' then more (l.quoted false)
    else if ch = '"' then more (l.quoted true)
    else if l.startsPlain ch rest then more l.plain
    else none

/-- Reads tokens to the end of the text; every step consumes a character or more. -/
def run (fuel : Nat) (l : Lexer) : Option (List Token) :=
  match fuel with
  | 0 => none
  | fuel + 1 =>
    match l.step with
    | none => none
    | some (l, true) => some l.tokens.toList
    | some (l, false) => run fuel l

end Lexer

/-- Whether a character may stand in a YAML text. -/
def isAllowed (c : Char) : Bool :=
  c == '\t' || c == '\n' || c == '\r' || (decide (' ' ≤ c) && decide (c ≤ '~')) || c == '\x85'
    || (decide ('\u00a0' ≤ c) && c != '\ufffe' && c != '\uffff')

/-- A text with a line feed for every carriage return, next-line character and pair of carriage
return and line feed. -/
def normalizeBreaks : List Char → List Char
  | '\r' :: '\n' :: rest => '\n' :: normalizeBreaks rest
  | c :: rest => (if c = '\r' ∨ c = '\x85' then '\n' else c) :: normalizeBreaks rest
  | [] => []

def tokens? (text : String) : Option (List Token) :=
  let cs := text.toList
  let cs := if cs.head? = some '\ufeff' then cs.drop 1 else cs
  if cs.all isAllowed then
    let cs := normalizeBreaks cs
    Lexer.run (cs.length + 2) { cursor := ⟨cs, 0, 0, 0⟩ }
  else none

end Workflow.Yaml
