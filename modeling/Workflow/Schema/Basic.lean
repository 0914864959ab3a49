import Workflow.Schema.Violation
import Workflow.Regex.Basic
import Workflow.Json.Parts

/-!
# Schemas

A schema describes JSON values by keywords that each say something about them; a keyword that is
about values of another type says nothing. `violations` lists everything about a value that a
schema objects to: the keywords of a schema one after the other, each with its violations in turn.
A value is accepted when there are none.
-/
namespace Workflow

/-- A schema. References stand for schemas elsewhere in the same document. -/
inductive Schema where
  | always (allowed : Bool)
  | all (parts : List Schema)
  | reference (target : String)
  | types (expected : List TypeName)
  | oneOfValues (options : List Json)
  | exactly (expected : Json)
  | leastLength (n : Nat)
  | mostLength (n : Nat)
  | pattern (source : String) (regex : Regex)
  | atLeast (limit : Number)
  | atMost (limit : Number)
  | greaterThan (limit : Number)
  | lessThan (limit : Number)
  | multipleOf (divisor : Number)
  | items (skipped : Nat) (item : Schema)
  | firstItems (items : List Schema)
  | leastItems (n : Nat)
  | mostItems (n : Nat)
  | uniqueItems
  | containsMatch (item : Schema) (least : Nat) (most : Option Nat)
  | required (names : List String)
  | requiredWith (names : List (String × List String))
  | properties (declared : List (String × Schema))
  | patterned (patterns : List (Regex × Schema))
  | noMembers
  | closed (declared : List (String × Schema)) (patterns : List (Regex × Schema))
  | others (declared : List (String × Schema)) (patterns : List (Regex × Schema)) (rest : Schema)
  | propertyNames (name : Schema)
  | leastMembers (n : Nat)
  | mostMembers (n : Nat)
  | someOf (alternatives : List Schema)
  | singleOf (alternatives : List Schema)
  | negation (schema : Schema) (source : Json)
  | conditional (test yes no : Schema)
  deriving Inhabited

namespace Schema

abbrev Referrer := String → Json → List Violation

/-- The violation of a rule by a value itself, unless the rule is kept. -/
def expect (kept : Bool) (value : Json) (rule : Rule) : List Violation :=
  if kept then [] else [⟨[], value, rule⟩]

/-- Whether a value equals an expected one. Two numbers count as equal if, as doubles, they differ
by less than the gap above one. -/
def isExpected (expected value : Json) : Bool :=
  match expected, value with
  | .num a, .num b => (a.toFloat - b.toFloat).abs < Float.ofBits 0x3cb0000000000000
  | _, _ => expected.equal value

/-- Whether one number is a whole multiple of another, which is positive. -/
def isMultiple (divisor value : Number) : Bool :=
  let d := divisor.fraction
  let v := value.fraction
  (v.1 * d.2) % (d.1 * v.2) == 0

/-- Whether no two items of a list are equal. -/
def areUnique : List Json → Bool
  | [] => true
  | v :: rest => !rest.any v.equal && areUnique rest

def itemViolations (check : Json → List Violation) : Nat → List Json → List Violation
  | _, [] => []
  | i, v :: rest => (check v).map (.under (toString i)) ++ itemViolations check (i + 1) rest

/-- What two sources object to, if at least one of them has a say. -/
def both : Option (List α) → Option (List α) → Option (List α)
  | none, later => later
  | some vs, later => some (vs ++ later.getD [])

mutual

/-- Everything about a value that a schema objects to. -/
def violations (refer : Referrer) : Schema → Json → List Violation
  | always allowed, v => expect allowed v .nothing
  | all parts, v => allViolations refer parts v
  | reference target, v => refer target v
  | types expected, v => expect (expected.any (fun t => t.holds v)) v (.types expected)
  | oneOfValues options, v => expect (options.any v.equal) v (.oneOfValues options)
  | exactly expected, v => expect (isExpected expected v) v (.exactly expected)
  | leastLength n, .str s => expect (n ≤ s.length) (.str s) (.leastLength n)
  | mostLength n, .str s => expect (s.length ≤ n) (.str s) (.mostLength n)
  | pattern source regex, .str s => expect (regex.isMatch s) (.str s) (.pattern source)
  | atLeast limit, .num x => expect (x.order limit != .lt) (.num x) (.atLeast limit)
  | atMost limit, .num x => expect (x.order limit != .gt) (.num x) (.atMost limit)
  | greaterThan limit, .num x => expect (x.order limit == .gt) (.num x) (.greaterThan limit)
  | lessThan limit, .num x => expect (x.order limit == .lt) (.num x) (.lessThan limit)
  | multipleOf divisor, .num x => expect (isMultiple divisor x) (.num x) (.multipleOf divisor)
  | items skipped item, .arr vs =>
    itemViolations (fun v => violations refer item v) skipped (vs.drop skipped)
  | firstItems schemas, .arr vs => itemwiseViolations refer schemas 0 vs
  | leastItems n, .arr vs => expect (n ≤ vs.length) (.arr vs) (.leastItems n)
  | mostItems n, .arr vs => expect (vs.length ≤ n) (.arr vs) (.mostItems n)
  | uniqueItems, .arr vs => expect (areUnique vs) (.arr vs) .uniqueItems
  | containsMatch item least most, .arr vs =>
    let n := (vs.filter (fun v => (violations refer item v).isEmpty)).length
    expect (decide (least ≤ n) && most.all (fun m => n ≤ m)) (.arr vs) .containsMatch
  | required names, .obj fields =>
    names.flatMap (fun k => expect (fields.contains k) (.obj fields) (.required k))
  | requiredWith names, .obj fields =>
    (names.filter (fun e => fields.contains e.1)).flatMap (fun e =>
      e.2.flatMap (fun k => expect (fields.contains k) (.obj fields) (.required k)))
  | properties declared, .obj fields => declaredViolations refer declared fields
  | patterned patterns, .obj fields => patternedViolations refer patterns fields
  | noMembers, .obj fields => (fields.entries.take 1).map (fun e => ⟨[], e.2, .nothing⟩)
  | closed declared patterns, .obj fields =>
    let checks := fields.entries.map (fun e =>
      (e.1, both (memberViolations refer declared e.1 e.2)
        (matchingViolations refer patterns e.1 e.2)))
    let unexpected := (checks.filter (fun c => c.2.isNone)).map (·.1)
    let broken := checks.flatMap (fun c => (c.2.getD []).map (.under c.1))
    broken ++ expect unexpected.isEmpty (.obj fields) (.closed unexpected)
  | others declared patterns rest, .obj fields =>
    fields.entries.flatMap (fun e =>
      let found := both (memberViolations refer declared e.1 e.2)
        (matchingViolations refer patterns e.1 e.2)
      (found.getD (violations refer rest e.2)).map (.under e.1))
  | propertyNames name, .obj fields =>
    fields.entries.flatMap (fun e => violations refer name (.str e.1))
  | leastMembers n, .obj fields => expect (n ≤ fields.size) (.obj fields) (.leastMembers n)
  | mostMembers n, .obj fields => expect (fields.size ≤ n) (.obj fields) (.mostMembers n)
  | someOf alternatives, v =>
    expect (0 < countAccepting refer alternatives v) v (.someAlternative "anyOf")
  | singleOf alternatives, v =>
    match countAccepting refer alternatives v with
    | 0 => [⟨[], v, .someAlternative "oneOf"⟩]
    | 1 => []
    | _ => [⟨[], v, .singleAlternative⟩]
  | negation schema source, v =>
    expect (!(violations refer schema v).isEmpty) v (.excluded source)
  | conditional test yes no, v =>
    if (violations refer test v).isEmpty then violations refer yes v else violations refer no v
  | _, _ => []

/-- What several schemas object to, one after the other. -/
def allViolations (refer : Referrer) : List Schema → Json → List Violation
  | [], _ => []
  | s :: rest, v => violations refer s v ++ allViolations refer rest v

def countAccepting (refer : Referrer) : List Schema → Json → Nat
  | [], _ => 0
  | s :: rest, v =>
    (if (violations refer s v).isEmpty then 1 else 0) + countAccepting refer rest v

/-- What schemas object to in the items of a list, each in its own. -/
def itemwiseViolations (refer : Referrer) : List Schema → Nat → List Json → List Violation
  | s :: schemas, i, v :: vs =>
    (violations refer s v).map (.under (toString i)) ++ itemwiseViolations refer schemas (i + 1) vs
  | _, _, _ => []

/-- What declared members object to, in the order of the declarations. -/
def declaredViolations (refer : Referrer) :
    List (String × Schema) → Table Json → List Violation
  | [], _ => []
  | (k, s) :: rest, fields =>
    (match fields.get? k with
    | some v => (violations refer s v).map (.under k)
    | none => []) ++ declaredViolations refer rest fields

/-- What patterns object to in the members whose names they match. -/
def patternedViolations (refer : Referrer) :
    List (Regex × Schema) → Table Json → List Violation
  | [], _ => []
  | (r, s) :: rest, fields =>
    (fields.entries.filter (fun e => r.isMatch e.1)).flatMap (fun e =>
      (violations refer s e.2).map (.under e.1)) ++ patternedViolations refer rest fields

/-- What the declaration of a name objects to in a member; nothing when there is none. -/
def memberViolations (refer : Referrer) :
    List (String × Schema) → String → Json → Option (List Violation)
  | [], _, _ => none
  | (j, s) :: rest, k, v =>
    if j = k then some (violations refer s v) else memberViolations refer rest k v

/-- What the patterns that match a name object to in a member; nothing when none of them does. -/
def matchingViolations (refer : Referrer) :
    List (Regex × Schema) → String → Json → Option (List Violation)
  | [], _, _ => none
  | (r, s) :: rest, k, v =>
    let later := matchingViolations refer rest k v
    if r.isMatch k then both (some (violations refer s v)) later else later

end

end Schema

/-- A schema with the schemas that its references stand for. -/
structure SchemaDocument where
  source : Json
  root : Schema
  targets : Table Schema
  deriving Inhabited

namespace SchemaDocument

/-- What a reference objects to, where at most `n` references are followed one inside another. -/
def referrer (d : SchemaDocument) : Nat → Schema.Referrer
  | 0, _, _ => []
  | n + 1, target, v =>
    match d.targets.get? target with
    | some s => s.violations (d.referrer n) v
    | none => []

/-- Everything about a value that the schema objects to. A chain of references that does not go
around in a circle meets each target at most once at each depth of the value. -/
def violations (d : SchemaDocument) (v : Json) : List Violation :=
  d.root.violations (d.referrer ((d.targets.size + 1) * (v.depth + 1))) v

def accepts (d : SchemaDocument) (v : Json) : Bool := (d.violations v).isEmpty

end SchemaDocument
end Workflow
