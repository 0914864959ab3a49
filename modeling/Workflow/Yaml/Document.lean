import Workflow.Yaml.Node
import Workflow.Decimal.Numeral

/-!
# YAML documents as JSON values

Plain scalars are read by the core rules: null, booleans, integers in four bases, floating-point
numbers, and otherwise text. Keys become their text, of two equal keys the later wins, and doubles
that are infinite or no number become null. There are no merge keys. An integer that needs more
than 64 bits, a tag that is not a core one, a key that is no scalar and a second document are
errors, and so is nesting deeper than 128 levels.
-/
namespace Workflow.Yaml

/-- Whether a scalar consists of digits but starts with a zero too many to be a number. -/
def isPaddedNumber (cs : List Char) : Bool :=
  let digits := match cs with
    | '-' :: rest => rest
    | '+' :: rest => rest
    | _ => cs
  match digits with
  | '0' :: more => !more.isEmpty && more.all Char.isDigit
  | _ => false

def radixValue? (radix : Nat) (cs : List Char) : Option Nat :=
  if cs.isEmpty then none
  else cs.foldlM (fun n c =>
    (Json.hexValue? c).bind (fun d => if d < radix then some (n * radix + d) else none)) 0

def prefixed? (cs : List Char) : Option Nat :=
  match cs with
  | '0' :: 'x' :: ds => radixValue? 16 ds
  | '0' :: 'o' :: ds => radixValue? 8 ds
  | '0' :: 'b' :: ds => radixValue? 2 ds
  | _ => none

def integer? (cs : List Char) : Option Int :=
  let padded := isPaddedNumber cs
  match cs with
  | '-' :: ds =>
    match prefixed? ds with
    | some n => some (-(n : Int))
    | none => if padded then none else (Decimal.readNat? ds).map (fun (n : Nat) => -(n : Int))
  | _ =>
    let ds := match cs with
      | '+' :: rest => rest
      | _ => cs
    match prefixed? ds with
    | some n => some (n : Int)
    | none => if padded then none else (Decimal.readNat? ds).map (fun (n : Nat) => (n : Int))

/-- The range of integers that are recognised as such, although 64 bits may not hold them. -/
def isWide (i : Int) : Bool :=
  decide (-(Nat.pow 2 127 : Int) ≤ i) && decide (i < (Nat.pow 2 128 : Int))

def float? (text : String) : Option Float :=
  let cs := text.toList
  let unsigned := match cs with
    | '+' :: rest => rest
    | _ => cs
  if unsigned ≠ cs ∧ unsigned.head?.any (fun c => c == '+' || c == '-') then none
  else
    let name := String.ofList unsigned
    if name ∈ [".inf", ".Inf", ".INF"] then some (Float.ofBits 0x7ff0000000000000)
    else if text ∈ ["-.inf", "-.Inf", "-.INF"] then some (Float.ofBits 0xfff0000000000000)
    else if text ∈ [".nan", ".NaN", ".NAN"] then some (Float.ofBits 0x7ff8000000000000)
    else (Decimal.readFloat? unsigned).filter Float.isFinite

/-- A double as a value; one that is not finite is null. -/
def floatValue (x : Float) : Json := (Json.ofFloat? x).getD .null

/-- An integer as a value; it must fit in 64 bits. -/
def integerValue? (i : Int) : Option Json := if Number.isWhole i then some (.int i) else none

def isNullText (text : String) : Bool := text ∈ ["null", "Null", "NULL", "~"]

def bool? (text : String) : Option Bool :=
  if text ∈ ["true", "True", "TRUE"] then some true
  else if text ∈ ["false", "False", "FALSE"] then some false
  else none

def plainValue? (text : String) : Option Json :=
  if text.isEmpty || isNullText text then some .null
  else
    match bool? text with
    | some b => some (.bool b)
    | none =>
      match (integer? text.toList).filter isWide with
      | some i => integerValue? i
      | none =>
        if isPaddedNumber text.toList then some (.str text)
        else
          match float? text with
          | some x => some (floatValue x)
          | none => some (.str text)

def scalarValue? (tag : Option String) (plain : Bool) (text : String) : Option Json :=
  match tag with
  | none => if plain then plainValue? text else some (.str text)
  | some tag =>
    if tag = "tag:yaml.org,2002:bool" then (bool? text).map .bool
    else if tag = "tag:yaml.org,2002:int" then
      ((integer? text.toList).filter isWide).bind integerValue?
    else if tag = "tag:yaml.org,2002:float" then (float? text).map floatValue
    else if tag = "tag:yaml.org,2002:null" then if isNullText text then some .null else none
    else if tag.startsWith "!" then none
    else some (.str text)

def isCustomTag (tag : Option String) : Bool := tag.any (fun t => t.startsWith "!")

/-- What a node means, and how many aliases were followed to find it. An alias to an alias cannot
be written. -/
def follow? (root : Node) (targets : List (Nat × Nat)) (n : Node) : Option (Node × Nat) :=
  match n with
  | .alias _ anchor =>
    ((targets.lookup anchor).bind (fun start => root.find? start)).map (fun m => (m, 1))
  | _ => some (n, 0)

/-- The text of a key, and how many aliases were followed to find it. -/
def keyText? (root : Node) (targets : List (Nat × Nat)) (n : Node) : Option (String × Nat) :=
  match follow? root targets n with
  | some (.scalar _ _ _ text, jumps) => some (text, jumps)
  | _ => none

/-- A document and the number of aliases that may be followed in it. -/
structure Source where
  root : Node
  targets : List (Nat × Nat)
  limit : Nat

mutual

/-- The value of a node in which at most `depth` collections nest, and the number of aliases
followed after it if there were `followed` before. -/
def value? (s : Source) (depth followed : Nat) (n : Node) : Option (Json × Nat) :=
  match follow? s.root s.targets n with
  | none => none
  | some (m, jumps) =>
    if s.limit < followed + jumps then none
    else
      match m, depth with
      | .scalar _ tag plain text, _ =>
        (scalarValue? tag plain text).map (·, followed + jumps)
      | .sequence _ tag ns, depth + 1 =>
        if isCustomTag tag then none
        else (items? s depth (followed + jumps) ns).map (fun p => (.arr p.1, p.2))
      | .mapping _ tag ps, depth + 1 =>
        if isCustomTag tag then none
        else (members? s depth (followed + jumps) Table.empty ps).map (fun p => (.obj p.1, p.2))
      | _, _ => none
termination_by (depth, 0)

def items? (s : Source) (depth followed : Nat) (ns : List Node) : Option (List Json × Nat) :=
  match ns with
  | [] => some ([], followed)
  | n :: rest =>
    match value? s depth followed n with
    | none => none
    | some (v, followed) => (items? s depth followed rest).map (fun p => (v :: p.1, p.2))
termination_by (depth, ns.length + 1)

/-- The members of a list of pairs, added to those before. -/
def members? (s : Source) (depth followed : Nat) (acc : Table Json) (ps : List (Node × Node)) :
    Option (Table Json × Nat) :=
  match ps with
  | [] => some (acc, followed)
  | (k, n) :: rest =>
    match keyText? s.root s.targets k with
    | none => none
    | some (name, jumps) =>
      if s.limit < followed + jumps then none
      else
        match value? s depth (followed + jumps) n with
        | none => none
        | some (v, followed) => members? s depth followed (acc.insert name v) rest
termination_by (depth, ps.length + 1)

end

mutual

/-- How often a node begins or ends something: once for a scalar or an alias, twice for a
collection, and as often as its parts. -/
def Node.marks : Node → Nat
  | .scalar .. => 1
  | .alias .. => 1
  | .sequence _ _ ns => 2 + itemMarks ns
  | .mapping _ _ ps => 2 + pairMarks ps

def itemMarks : List Node → Nat
  | [] => 0
  | n :: rest => n.marks + itemMarks rest

def pairMarks : List (Node × Node) → Nat
  | [] => 0
  | (k, v) :: rest => k.marks + v.marks + pairMarks rest

end

/-- The value of a YAML text with one document or none. -/
def read? (text : String) : Option Json := do
  let tokens ← tokens? text
  match ← document? tokens with
  | none => return .null
  | some (root, r) =>
    let (v, _) ← value? ⟨root, r.targets, 100 * root.marks⟩ 128 0 root
    return v

end Workflow.Yaml
