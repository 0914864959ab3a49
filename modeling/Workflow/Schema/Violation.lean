import Workflow.Json.Printer

/-!
# Violations of a schema

A violation names the place of a value inside the document, the value and the rule that it breaks.
Two texts are made of it: the place as a pointer, and the rule with the value as JSON.
-/
namespace Workflow

/-- The names of the types of values. An integer is a number whose value is whole. -/
inductive TypeName where
  | array | boolean | integer | null | number | object | string
  deriving DecidableEq, Repr, Inhabited

namespace TypeName

def all : List TypeName := [array, boolean, integer, null, number, object, string]

def name : TypeName → String
  | array => "array"
  | boolean => "boolean"
  | integer => "integer"
  | null => "null"
  | number => "number"
  | object => "object"
  | string => "string"

def ofName? (s : String) : Option TypeName := all.find? (fun t => t.name == s)

def holds : TypeName → Json → Bool
  | array, .arr _ => true
  | boolean, .bool _ => true
  | integer, .num n => n.isIntegral
  | null, .null => true
  | number, .num _ => true
  | object, .obj _ => true
  | string, .str _ => true
  | _, _ => false

end TypeName

/-- The rule of a schema that a value breaks. -/
inductive Rule where
  | nothing
  | types (expected : List TypeName)
  | required (name : String)
  | oneOfValues (options : List Json)
  | exactly (expected : Json)
  | leastLength (n : Nat)
  | mostLength (n : Nat)
  | pattern (source : String)
  | atLeast (limit : Number)
  | atMost (limit : Number)
  | greaterThan (limit : Number)
  | lessThan (limit : Number)
  | multipleOf (divisor : Number)
  | leastItems (n : Nat)
  | mostItems (n : Nat)
  | uniqueItems
  | containsMatch
  | leastMembers (n : Nat)
  | mostMembers (n : Nat)
  | closed (unexpected : List String)
  | someAlternative (keyword : String)
  | singleAlternative
  | excluded (schema : Json)
  deriving Inhabited

def counted (n : Nat) (one many : String) : String :=
  toString n ++ " " ++ (if n = 1 then one else many)

/-- What is said about a value, written as JSON, that breaks a rule. -/
def Rule.message (value : String) : Rule → String
  | nothing => "False schema does not allow " ++ value
  | types [t] => value ++ " is not of type \"" ++ t.name ++ "\""
  | types ts =>
    value ++ " is not of types " ++ ", ".intercalate (ts.map (fun t => "\"" ++ t.name ++ "\""))
  | required name => (Json.str name).compact ++ " is a required property"
  | oneOfValues options => value ++ " is not one of " ++ (Json.arr options).compact
  | exactly expected => expected.compact ++ " was expected"
  | leastLength n => value ++ " is shorter than " ++ counted n "character" "characters"
  | mostLength n => value ++ " is longer than " ++ counted n "character" "characters"
  | pattern source => value ++ " does not match \"" ++ source ++ "\""
  | atLeast limit => value ++ " is less than the minimum of " ++ (Json.num limit).compact
  | atMost limit => value ++ " is greater than the maximum of " ++ (Json.num limit).compact
  | greaterThan limit =>
    value ++ " is less than or equal to the minimum of " ++ (Json.num limit).compact
  | lessThan limit =>
    value ++ " is greater than or equal to the maximum of " ++ (Json.num limit).compact
  | multipleOf divisor => value ++ " is not a multiple of " ++ (Json.num divisor).compact
  | leastItems n => value ++ " has less than " ++ counted n "item" "items"
  | mostItems n => value ++ " has more than " ++ counted n "item" "items"
  | uniqueItems => value ++ " has non-unique elements"
  | containsMatch => "None of " ++ value ++ " are valid under the given schema"
  | leastMembers n => value ++ " has less than " ++ counted n "property" "properties"
  | mostMembers n => value ++ " has more than " ++ counted n "property" "properties"
  | closed unexpected =>
    "Additional properties are not allowed ("
      ++ ", ".intercalate (unexpected.map (fun k => "'" ++ k ++ "'"))
      ++ (if unexpected.length = 1 then " was unexpected)" else " were unexpected)")
  | someAlternative keyword =>
    value ++ " is not valid under any of the schemas listed in the '" ++ keyword ++ "' keyword"
  | singleAlternative =>
    value ++ " is valid under more than one of the schemas listed in the 'oneOf' keyword"
  | excluded schema => schema.compact ++ " is not allowed for " ++ value

/-- A value at a place of a document and the rule that it breaks. -/
structure Violation where
  place : List String
  value : Json
  rule : Rule
  deriving Inhabited

namespace Violation

/-- The violation as seen from a value that has the violating document as its child `key`. -/
def under (key : String) (v : Violation) : Violation := { v with place := key :: v.place }

def escapeKey (key : String) : String :=
  String.ofList (key.toList.flatMap fun c =>
    if c = '~' then ['~', '0'] else if c = '/' then ['~', '1'] else [c])

def pointer (v : Violation) : String := String.join (v.place.map (fun k => "/" ++ escapeKey k))

def message (v : Violation) : String := v.rule.message v.value.compact

def display (v : Violation) : String :=
  (if v.place.isEmpty then "/" else v.pointer) ++ ": " ++ v.message

end Violation

def displayViolations (vs : List Violation) : String := "; ".intercalate (vs.map Violation.display)

end Workflow
