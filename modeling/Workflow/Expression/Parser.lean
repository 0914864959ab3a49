import Workflow.Expression.Error

/-!
# From tokens to expressions

A chain of operators of one precedence groups to the left; its operands are chains of the next
precedence, and below the products stand unary minus, literals, paths and parentheses. The cursor
counts the levels that are open, and nothing nests deeper than `maxNesting`.

Every step consumes a token or more, which its answer proves and which makes the recursion end.
-/
namespace Workflow.Expression

inductive ParseError where
  | cause (c : SyntaxCause)
  | unknownIdentifier (name : String)
  | tooDeep

def ParseError.inText (text : String) : ParseError → ExpressionError
  | cause c => .malformed text c
  | unknownIdentifier name => .unknownIdentifier name
  | tooDeep => .tooDeep

/-- The tokens that are left and the number of open levels. -/
structure Cursor where
  rest : List Token
  depth : Nat

/-- An expression and the cursor after it, with fewer than `bound` tokens left. -/
structure Parsed (bound : Nat) where
  expr : Expression
  next : Cursor
  shorter : next.rest.length < bound

/-- The same answer under a weaker bound. -/
def Parsed.widen {m n : Nat} (h : m ≤ n) (p : Parsed m) : Parsed n :=
  ⟨p.expr, p.next, Nat.lt_of_lt_of_le p.shorter h⟩

theorem length_lt_of_eq_cons {ts rest : List Token} {t : Token} (h : ts = t :: rest) :
    rest.length < ts.length := by
  rw [h]
  exact Nat.lt_succ_self _

def descend (depth : Nat) : Except ParseError Nat :=
  if maxNesting ≤ depth then .error .tooDeep else .ok (depth + 1)

def rank : Precedence → Nat
  | .comparison => 3
  | .sum => 2
  | .product => 1

mutual

/-- A chain of operators of one precedence. The levels its operators opened are closed again. -/
def chain (p : Precedence) (c : Cursor) : Except ParseError (Parsed c.rest.length) := do
  let left ← operand p c
  have := left.shorter
  let all ← chainTail p left.expr left.next
  return ⟨all.expr, { all.next with depth := c.depth }, by
    have := all.shorter
    simp only
    omega⟩
termination_by (c.rest.length, 2 * rank p + 1)

def operand (p : Precedence) (c : Cursor) : Except ParseError (Parsed c.rest.length) :=
  match p with
  | .comparison => chain .sum c
  | .sum => chain .product c
  | .product => unary c
termination_by (c.rest.length, 2 * rank p)
decreasing_by all_goals exact Prod.Lex.right _ (by decide)

/-- The operators and operands that follow the first operand of a chain. -/
def chainTail (p : Precedence) (left : Expression) (c : Cursor) :
    Except ParseError (Parsed (c.rest.length + 1)) :=
  match hc : c.rest with
  | .op o :: rest =>
    if o.precedence = p then do
      have hrest : rest.length < c.rest.length := length_lt_of_eq_cons hc
      let depth ← descend c.depth
      let right ← operand p ⟨rest, depth⟩
      have _hnext : right.next.rest.length < c.rest.length := Nat.lt_trans right.shorter hrest
      let all ← chainTail p (.binary o left right.expr) right.next
      return all.widen (Nat.succ_le_succ (Nat.le_succ_of_le (Nat.le_of_lt right.shorter)))
    else .ok ⟨left, c, Nat.lt_succ_of_le (Nat.le_of_eq (congrArg List.length hc))⟩
  | _ => .ok ⟨left, c, Nat.lt_succ_of_le (Nat.le_of_eq (congrArg List.length hc))⟩
termination_by (c.rest.length, 0)

def unary (c : Cursor) : Except ParseError (Parsed c.rest.length) :=
  match hc : c.rest with
  | .op .sub :: rest => do
    have hrest : rest.length < c.rest.length := length_lt_of_eq_cons hc
    let depth ← descend c.depth
    let inner ← unary ⟨rest, depth⟩
    return ⟨.negate inner.expr, { inner.next with depth := inner.next.depth - 1 }, by
      have := inner.shorter
      simp only [List.length_cons] at *
      omega⟩
  | _ => (primary c).map (Parsed.widen (Nat.le_of_eq (congrArg List.length hc)))
termination_by (c.rest.length, 1)

/-- A literal, a path or an expression in parentheses. -/
def primary (c : Cursor) : Except ParseError (Parsed c.rest.length) :=
  match hc : c.rest with
  | [] => .error (.cause .unexpectedEnd)
  | .literal v :: rest => .ok ⟨.literal v, { c with rest := rest }, Nat.lt_succ_self _⟩
  | .path segments :: rest =>
    match segments with
    | root :: keys =>
      if root = contextRoot then .ok ⟨.path keys, { c with rest := rest }, Nat.lt_succ_self _⟩
      else .error (.unknownIdentifier (".".intercalate segments))
    | [] => .error (.unknownIdentifier "")
  | .lparen :: rest => do
    have hrest : rest.length < c.rest.length := length_lt_of_eq_cons hc
    let depth ← descend c.depth
    let inner ← chain .comparison ⟨rest, depth⟩
    match hi : inner.next.rest with
    | .rparen :: after =>
      return ⟨inner.expr, ⟨after, inner.next.depth - 1⟩, by
        have := inner.shorter
        simp only [hi, List.length_cons] at *
        omega⟩
    | _ => .error (.cause .expectedClose)
  | .rparen :: _ => .error (.cause .unexpectedClose)
  | .op o :: _ => .error (.cause (.unexpectedOperator o))
termination_by (c.rest.length, 0)

end

def ofTokens (tokens : List Token) : Except ParseError Expression :=
  if tokens.isEmpty then .error (.cause .emptyExpression)
  else
    match chain .comparison ⟨tokens, 0⟩ with
    | .error e => .error e
    | .ok p =>
      match p.next.rest with
      | [] => .ok p.expr
      | t :: _ => .error (.cause (.unexpectedToken t))

def parse (text : String) : Except ExpressionError Expression :=
  match scan text.toList with
  | .error c => .error (.malformed text c)
  | .ok tokens => (ofTokens tokens).mapError (ParseError.inText text)

end Workflow.Expression
