import Workflow.Expression.Eval

/-!
# Templates

A string that consists of a single expression between `$`, an opening brace and a closing brace,
blanks around it aside, stands for the value of the expression. Any other string stands for
itself. Templates are resolved at any depth of a value.
-/
namespace Workflow.Expression

/-- Where the scan for the closing brace is: outside a literal, in one, or after a backslash in
one. -/
inductive Scan where
  | outside
  | inside (quote : Char)
  | escaped (quote : Char)

/-- The characters before the first closing brace outside a literal, and those after it. -/
def splitAtBrace : Scan → List Char → Option (List Char × List Char)
  | _, [] => none
  | state, c :: rest =>
    let next : Option Scan :=
      match state with
      | .escaped q => some (.inside q)
      | .inside q =>
        if c = '\\' then some (.escaped q) else if c = q then some .outside else some (.inside q)
      | .outside =>
        if c = '\'' ∨ c = '"' then some (.inside c)
        else if c = '\x7d' then none
        else some .outside
    match next with
    | none => some ([], rest)
    | some s => (splitAtBrace s rest).map (fun p => (c :: p.1, p.2))

def templateBody? (s : String) : Option String :=
  match Text.trim s.toList with
  | '$' :: '\x7b' :: body =>
    match splitAtBrace .outside body with
    | some (inner, []) => some (String.ofList (Text.trim inner))
    | _ => none
  | _ => none

mutual

/-- A value with its templates replaced by the values of their expressions. -/
def resolve (context : Table Json) : Json → Except ExpressionError Json
  | .str s =>
    match templateBody? s with
    | some body => evaluate body context
    | none => .ok (.str s)
  | .arr items => (resolveItems context items).map .arr
  | .obj ⟨members⟩ => (resolveMembers context members).map (fun ms => .obj ⟨ms⟩)
  | v => .ok v

def resolveItems (context : Table Json) : List Json → Except ExpressionError (List Json)
  | [] => .ok []
  | v :: rest => do
    let w ← resolve context v
    return w :: (← resolveItems context rest)

def resolveMembers (context : Table Json) :
    List (String × Json) → Except ExpressionError (List (String × Json))
  | [] => .ok []
  | (k, v) :: rest => do
    let w ← resolve context v
    return (k, w) :: (← resolveMembers context rest)

end

end Workflow.Expression
