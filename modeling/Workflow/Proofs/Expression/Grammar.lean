import Workflow.Expression.Parser

/-!
# The grammar of expressions

A comparison is a chain of sums, a sum is a chain of products, and a product is a chain of signed
primaries; a chain is an operand and any number of operators of its precedence, each with one more
operand. Derivations are data, so that the levels that are open at the deepest place of one can be
counted.
-/
namespace Workflow.Expression

/-- What tokens can make up. The links of a chain are its operators, with the operands after
them; the expression that stands before a link is its left operand. -/
inductive Form where
  | chain (p : Precedence)
  | links (p : Precedence) (left : Expression)
  | unary
  | primary

namespace Form

def operand : Precedence → Form
  | .comparison => .chain .sum
  | .sum => .chain .product
  | .product => .unary

/-- Links are a part of a chain; all other forms stand alone. -/
def Whole : Form → Prop
  | links _ _ => False
  | _ => True

/-- An operator that binds less tightly follows a chain, if any operator does. -/
def Ends (p : Precedence) (rest : List Token) : Prop :=
  ∀ o us, rest = .op o :: us → rank p < rank o.precedence

/-- What may follow a form: nothing that would be read as a part of it. -/
def EndsAt : Form → List Token → Prop
  | chain p, rest => Ends p rest
  | links p _, rest => Ends p rest
  | _, _ => True

theorem whole_operand (p : Precedence) : (operand p).Whole := by
  cases p <;> trivial

theorem operand_endsAt {p : Precedence} {rest : List Token}
    (h : ∀ o us, rest = .op o :: us → rank p ≤ rank o.precedence) :
    (operand p).EndsAt rest := by
  cases p with
  | product => trivial
  | comparison => exact fun o us hrest => Nat.lt_of_succ_le (h o us hrest)
  | sum => exact fun o us hrest => Nat.lt_of_succ_le (h o us hrest)

end Form

/-- A derivation of tokens in a form, with the expression that they make up. Operators of one
precedence group to the left. -/
inductive Derivation : Form → List Token → Expression → Type where
  | chain {p left e ts us} : Derivation (Form.operand p) ts left →
      Derivation (.links p left) us e → Derivation (.chain p) (ts ++ us) e
  | done {p left} : Derivation (.links p left) [] left
  | link {p o left right e ts us} : o.precedence = p → Derivation (Form.operand p) ts right →
      Derivation (.links p (.binary o left right)) us e →
      Derivation (.links p left) (.op o :: (ts ++ us)) e
  | negate {e ts} : Derivation .unary ts e → Derivation .unary (.op .sub :: ts) (.negate e)
  | unsigned {e ts} : Derivation .primary ts e → Derivation .unary ts e
  | literal (v : Json) : Derivation .primary [.literal v] (.literal v)
  | path (keys : List String) : Derivation .primary [.path (contextRoot :: keys)] (.path keys)
  | group {e ts} : Derivation (.chain .comparison) ts e →
      Derivation .primary (.lparen :: (ts ++ [.rparen])) e

namespace Derivation
variable {f : Form} {p : Precedence} {ts us rest : List Token} {e left : Expression}

/-- The levels that are open at the deepest place. A pair of parentheses opens one, a minus sign
another, and so does an operator for the rest of its chain. -/
def levels : {f : Form} → {ts : List Token} → {e : Expression} → Derivation f ts e → Nat
  | _, _, _, chain d more => max d.levels more.levels
  | _, _, _, done => 0
  | _, _, _, link _ d more => max d.levels more.levels + 1
  | _, _, _, negate d => d.levels + 1
  | _, _, _, unsigned d => d.levels
  | _, _, _, literal _ => 0
  | _, _, _, path _ => 0
  | _, _, _, group d => d.levels + 1

/-- A form that stands alone is not made up of nothing. -/
theorem ne_nil (d : Derivation f ts e) (hf : f.Whole) : ts ≠ [] := by
  induction d with
  | chain _ _ ih _ => exact List.append_ne_nil_of_left_ne_nil (ih (Form.whole_operand _)) _
  | done => exact absurd hf id
  | link => exact absurd hf id
  | negate => exact List.cons_ne_nil _ _
  | unsigned _ ih => exact ih trivial
  | literal => exact List.cons_ne_nil _ _
  | path => exact List.cons_ne_nil _ _
  | group => exact List.cons_ne_nil _ _

/-- An operator that follows an operand of a chain is one of the chain, or follows the chain. -/
theorem ends_of_links (d : Derivation (.links p left) us e) (h : Form.Ends p rest) :
    ∀ o vs, us ++ rest = .op o :: vs → rank p ≤ rank o.precedence := by
  intro o vs ho
  cases d with
  | done => exact Nat.le_of_lt (h o vs ho)
  | link hp =>
    obtain ⟨htoken, -⟩ := List.cons.inj ho
    exact Nat.le_of_eq (by rw [← Token.op.inj htoken, hp])

/-- A primary does not begin with an operator. -/
theorem primary_ne_op (d : Derivation .primary ts e) (o : BinaryOp) : ts ++ rest ≠ .op o :: us := by
  cases d <;> exact fun h => Token.noConfusion (List.cons.inj h).1

end Derivation
end Workflow.Expression
