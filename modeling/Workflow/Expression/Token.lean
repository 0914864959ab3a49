import Workflow.Expression.Basic
import Workflow.Decimal.Numeral
import Workflow.Text.Classes
import Workflow.Text.Quoted

/-!
# Tokens of expressions

A text is cut into literals, paths, operators and parentheses; blanks between them mean nothing.
Each token takes the longest text it can.
-/
namespace Workflow.Expression

inductive Token where
  | literal (value : Json)
  | path (segments : List String)
  | op (o : BinaryOp)
  | lparen
  | rparen
  deriving Inhabited

/-- A literal where a message shows a token. Only null, booleans, numbers and strings are written
as literals. -/
def literalLabel : Json → String
  | .null => "Null"
  | .bool b => s!"Bool({b})"
  | .num n => s!"Number({String.ofList (Json.numberText n)})"
  | .str s => s!"String({Text.quoted s})"
  | v => v.compact

def Token.label : Token → String
  | literal v => s!"Literal({literalLabel v})"
  | path segments => "Path([" ++ ", ".intercalate (segments.map Text.quoted) ++ "])"
  | op o => s!"Op({o.label})"
  | lparen => "LParen"
  | rparen => "RParen"

inductive SyntaxCause where
  | emptyExpression
  | unterminatedString
  | unterminatedEscape
  | invalidNumber (text : String)
  | unexpectedCharacter (c : Char)
  | unexpectedToken (token : Token)
  | unexpectedEnd
  | expectedClose
  | unexpectedClose
  | unexpectedOperator (op : BinaryOp)
  deriving Inhabited

def SyntaxCause.message : SyntaxCause → String
  | emptyExpression => "empty expression"
  | unterminatedString => "unterminated string literal"
  | unterminatedEscape => "unterminated escape"
  | invalidNumber text => s!"invalid number '{text}'"
  | unexpectedCharacter c => s!"unexpected character '{c}'"
  | unexpectedToken token => s!"unexpected token {token.label}"
  | unexpectedEnd => "unexpected end of expression"
  | expectedClose => "expected ')'"
  | unexpectedClose => "unexpected ')'"
  | unexpectedOperator op => s!"unexpected operator '{op.symbol}'"

def isSegmentChar (c : Char) : Bool := Text.isAlphanumeric c || c == '_'

def isWordStart (c : Char) : Bool := Text.isAlphabetic c || c == '_'

/-- The character that a backslash before `c` stands for. -/
def unescape (c : Char) : Char :=
  if c = 'n' then '\n' else if c = 't' then '\t' else c

/-- The rest of a string literal up to its closing quote: its characters and the text after it. -/
def scanString (quote : Char) : List Char → Except SyntaxCause (List Char × List Char)
  | [] => .error .unterminatedString
  | c :: rest =>
    if c = quote then .ok ([], rest)
    else if c = '\\' then
      match rest with
      | [] => .error .unterminatedEscape
      | e :: rest => (scanString quote rest).map (fun p => (unescape e :: p.1, p.2))
    else (scanString quote rest).map (fun p => (c :: p.1, p.2))

/-- The digits of a fraction, if a point and a digit start the text. -/
def fractionDigits : List Char → List Char
  | '.' :: after => after.takeWhile Char.isDigit
  | _ => []

/-- The number that starts a text: digits, and a fraction if a digit follows the point. -/
def scanNumber (cs : List Char) : Except SyntaxCause (Json × List Char) :=
  let whole := cs.takeWhile Char.isDigit
  let rest := cs.dropWhile Char.isDigit
  match fractionDigits rest with
  | [] =>
    if Number.isSigned (Decimal.natOfDigits whole) then
      .ok (.nat (Decimal.natOfDigits whole), rest)
    else .error (.invalidNumber (String.ofList whole))
  | fraction =>
    let x := Decimal.nearestScientific (Decimal.natOfDigits (whole ++ fraction))
      (-(fraction.length : Int))
    match Json.ofFloat? x with
    | some v => .ok (v, rest.drop (fraction.length + 1))
    | none => .error (.invalidNumber (String.ofList (whole ++ '.' :: fraction)))

/-- The segments after the first one of a path, and the text after them. A point belongs to the
path only if a segment follows it. -/
def scanSegments (cs : List Char) : List String × List Char :=
  match cs with
  | '.' :: rest =>
    if (rest.takeWhile isSegmentChar).isEmpty then ([], cs)
    else
      let more := scanSegments (rest.dropWhile isSegmentChar)
      (String.ofList (rest.takeWhile isSegmentChar) :: more.1, more.2)
  | _ => ([], cs)
termination_by cs.length
decreasing_by
  have := (List.dropWhile_suffix isSegmentChar (l := rest)).length_le
  simp
  omega

/-- The token of a word: one of three literals if it is a single segment, or a path. -/
def wordToken : List String → Token
  | ["true"] => .literal (.bool true)
  | ["false"] => .literal (.bool false)
  | ["null"] => .literal .null
  | segments => .path segments

def scanOperator : List Char → Option (BinaryOp × List Char)
  | '=' :: '=' :: rest => some (.eq, rest)
  | '!' :: '=' :: rest => some (.ne, rest)
  | '<' :: '=' :: rest => some (.le, rest)
  | '>' :: '=' :: rest => some (.ge, rest)
  | '<' :: rest => some (.lt, rest)
  | '>' :: rest => some (.gt, rest)
  | '+' :: rest => some (.add, rest)
  | '-' :: rest => some (.sub, rest)
  | '*' :: rest => some (.mul, rest)
  | '/' :: rest => some (.div, rest)
  | '%' :: rest => some (.mod, rest)
  | _ => none

/-- The token that starts with `c` and goes on in `rest`, for a character that is no blank. -/
def scanToken (c : Char) (rest : List Char) : Except SyntaxCause (Token × List Char) :=
  if c = '(' then .ok (.lparen, rest)
  else if c = ')' then .ok (.rparen, rest)
  else if c = '\'' ∨ c = '"' then
    (scanString c rest).map (fun p => (.literal (.str (String.ofList p.1)), p.2))
  else if c.isDigit then (scanNumber (c :: rest)).map (fun p => (.literal p.1, p.2))
  else if isWordStart c then
    let more := scanSegments (rest.dropWhile isSegmentChar)
    .ok (wordToken (String.ofList (c :: rest.takeWhile isSegmentChar) :: more.1), more.2)
  else
    match scanOperator (c :: rest) with
    | some (o, after) => .ok (.op o, after)
    | none => .error (.unexpectedCharacter c)

/-! A token takes at least its first character. -/

theorem scanString_length {q : Char} {cs s r : List Char} (h : scanString q cs = .ok (s, r)) :
    r.length < cs.length := by
  fun_induction scanString q cs generalizing s r with
  | case1 => cases h
  | case2 => cases h; simp
  | case3 => cases h
  | case4 e rest _ ih =>
    cases hr : scanString q rest with
    | error _ => simp [hr, Except.map] at h
    | ok p =>
      simp [hr, Except.map] at h
      have := ih (s := p.1) (r := p.2) hr
      simp only [List.length_cons]
      rw [← h.2]
      omega
  | case5 c rest _ _ ih =>
    cases hr : scanString q rest with
    | error _ => simp [hr, Except.map] at h
    | ok p =>
      simp [hr, Except.map] at h
      have := ih (s := p.1) (r := p.2) hr
      simp only [List.length_cons]
      rw [← h.2]
      omega

theorem scanSegments_length (cs : List Char) : (scanSegments cs).2.length ≤ cs.length := by
  fun_induction scanSegments cs with
  | case1 => simp
  | case2 rest _ more ih =>
    have := (List.dropWhile_suffix isSegmentChar (l := rest)).length_le
    simp only [List.length_cons, more]
    omega
  | case3 => simp

theorem scanNumber_length {cs r : List Char} {v : Json} (h : scanNumber cs = .ok (v, r)) :
    r.length ≤ (cs.dropWhile Char.isDigit).length := by
  simp only [scanNumber] at h
  split at h
  · split at h
    · simp only [Except.ok.injEq, Prod.mk.injEq] at h
      simp [← h.2]
    · simp at h
  · split at h
    · simp only [Except.ok.injEq, Prod.mk.injEq] at h
      simp [← h.2]
    · simp at h

theorem scanOperator_length {cs r : List Char} {o : BinaryOp}
    (h : scanOperator cs = some (o, r)) : r.length < cs.length := by
  unfold scanOperator at h
  split at h <;> cases h <;> simp only [List.length_cons] <;> omega

theorem scanToken_length {c : Char} {rest r : List Char} {t : Token}
    (h : scanToken c rest = .ok (t, r)) : r.length ≤ rest.length := by
  unfold scanToken at h
  split at h
  · cases h; simp
  split at h
  · cases h; simp
  split at h
  · cases hs : scanString c rest with
    | error _ => simp [hs, Except.map] at h
    | ok p =>
      simp [hs, Except.map] at h
      have := scanString_length (s := p.1) (r := p.2) hs
      rw [← h.2]
      omega
  split at h
  next hd =>
    cases hs : scanNumber (c :: rest) with
    | error _ => simp [hs, Except.map] at h
    | ok p =>
      simp [hs, Except.map] at h
      have h1 := scanNumber_length (v := p.1) (r := p.2) hs
      have h2 := (List.dropWhile_suffix Char.isDigit (l := rest)).length_le
      simp only [List.dropWhile_cons, hd, if_true] at h1
      rw [← h.2]
      omega
  split at h
  · have h1 := scanSegments_length (rest.dropWhile isSegmentChar)
    have h2 := (List.dropWhile_suffix isSegmentChar (l := rest)).length_le
    simp only [Except.ok.injEq, Prod.mk.injEq] at h
    rw [← h.2]
    omega
  · split at h
    next ho =>
      have := scanOperator_length ho
      cases h
      simp only [List.length_cons] at this
      omega
    · cases h

def scan (cs : List Char) : Except SyntaxCause (List Token) :=
  match cs with
  | [] => .ok []
  | c :: rest =>
    if Text.isBlank c then scan rest
    else
      match _h : scanToken c rest with
      | .error e => .error e
      | .ok (t, after) => (scan after).map (t :: ·)
termination_by cs.length
decreasing_by
  · simp
  · have := scanToken_length _h
    simp
    omega

end Workflow.Expression
