import Workflow.Schema.Basic
import Workflow.Regex.Reader
import Workflow.Json.Parts

/-!
# Schemas as JSON

A schema is written as a boolean or as an object whose members are its keywords. Members that are no
keywords mean nothing. A keyword with a value that it cannot have, a pattern that is none and a
reference that leads nowhere make the whole schema invalid; `SchemaDocument.ofJson?` then gives
nothing.

Reading goes from the inside to the outside: first the schemas inside the values of the keywords,
then the keywords, which may look at their neighbours.
-/
namespace Workflow.Schema

/-- The value of a keyword, with the schemas inside it read. -/
inductive Operand where
  | plain (v : Json)
  | schema (s : Schema) (source : Json)
  | list (ss : List Schema)
  | named (ss : List (String × Schema))

/-- What kind of schemas the value of a keyword contains. -/
inductive OperandKind where
  | plain | schema | list | named

def operandKind (keyword : String) : OperandKind :=
  if ["additionalProperties", "contains", "else", "if", "items", "not", "propertyNames", "then",
      "unevaluatedItems", "unevaluatedProperties", "contentSchema"].contains keyword then .schema
  else if ["allOf", "anyOf", "oneOf", "prefixItems"].contains keyword then .list
  else if ["$defs", "definitions", "dependentSchemas", "patternProperties",
      "properties"].contains keyword then .named
  else .plain

/-- A limit that counts something: a whole number that is not negative. -/
def count? : Json → Option Nat
  | .num n => if n.isIntegral && n.order (.int 0) != .lt then
      some (n.fraction.1 / n.fraction.2).toNat else none
  | _ => none

def number? : Json → Option Number
  | .num n => some n
  | _ => none

def names? (v : Json) : Option (List String) := do
  let vs ← v.arr?
  let names ← vs.mapM Json.str?
  if names.eraseDups.length = names.length then some names else none

/-- The types of the keyword `type`: one name, or a list of different names. -/
def types? : Json → Option (List TypeName)
  | .str s => (TypeName.ofName? s).map (fun t => [t])
  | v => do
    let names ← names? v
    let types ← names.mapM TypeName.ofName?
    if types.isEmpty then none else some (TypeName.all.filter types.contains)

def regex? (source : String) : Option Regex := Regex.compile? .schema source

def operand? (operands : List (String × Operand)) (keyword : String) : Option Operand :=
  (operands.find? (fun o => o.1 == keyword)).map (·.2)

/-- A neighbouring keyword that holds a schema; without it, everything is accepted. -/
def schemaOperand (operands : List (String × Operand)) (keyword : String) : Schema :=
  match operand? operands keyword with
  | some (.schema s _) => s
  | _ => .always true

def namedOperand? (operands : List (String × Operand)) (keyword : String) :
    Option (List (String × Schema)) :=
  match operand? operands keyword with
  | some (.named ss) => some ss
  | _ => none

/-- Named schemas with their names read as patterns. -/
def patterns? (named : List (String × Schema)) : Option (List (Regex × Schema)) :=
  named.mapM (fun e => (regex? e.1).map (fun r => (r, e.2)))

/-- Whether `additionalProperties` takes over the work of `properties` and `patternProperties`. -/
def hasRest (operands : List (String × Operand)) : Bool :=
  match operand? operands "additionalProperties" with
  | some (.schema _ (.bool allowed)) => !allowed
  | some (.schema _ _) => true
  | _ => false

def rest? (operands : List (String × Operand)) (s : Schema) (source : Json) :
    Option (List Schema) := do
  let declared := namedOperand? operands "properties"
  let named := namedOperand? operands "patternProperties"
  let patterns ← patterns? (named.getD [])
  match source with
  | .bool true => return []
  | .bool false =>
    if declared.isNone && named.isNone then return [.noMembers]
    else return [.closed (declared.getD []) patterns]
  | _ => return [.others (declared.getD []) patterns s]

/-- The schemas that a keyword stands for, or nothing if it cannot have its value. -/
def ofKeyword? (operands : List (String × Operand)) (keyword : String) (operand : Operand) :
    Option (List Schema) :=
  match keyword, operand with
  | "additionalProperties", .schema s source => rest? operands s source
  | "allOf", .list ss => some [.all ss]
  | "anyOf", .list ss => some [.someOf ss]
  | "oneOf", .list ss => some [.singleOf ss]
  | "prefixItems", .list ss => some [.firstItems ss]
  | "not", .schema s source => some [.negation s source]
  | "if", .schema s _ =>
    some [.conditional s (schemaOperand operands "then") (schemaOperand operands "else")]
  | "items", .schema s _ =>
    let skipped := match operand? operands "prefixItems" with
      | some (.list ss) => ss.length
      | _ => 0
    some [.items skipped s]
  | "contains", .schema s _ =>
    let limit? (k : String) := match operand? operands k with
      | some (.plain v) => count? v
      | _ => none
    some [.containsMatch s ((limit? "minContains").getD 1) (limit? "maxContains")]
  | "propertyNames", .schema s _ => some [.propertyNames s]
  | "properties", .named ss => some (if hasRest operands then [] else [.properties ss])
  | "patternProperties", .named ss => do
    let patterns ← patterns? ss
    return if hasRest operands then [] else [.patterned patterns]
  | "dependentSchemas", .named ss =>
    some (ss.map (fun e =>
      .conditional (.all [.types [.object], .required [e.1]]) e.2 (.always true)))
  | "$ref", .plain v => v.str?.map (fun target => [.reference target])
  | "const", .plain v => some [.exactly v]
  | "enum", .plain v => v.arr?.map (fun options => [.oneOfValues options])
  | "type", .plain v => (types? v).map (fun ts => [.types ts])
  | "required", .plain v => (names? v).map (fun names => [.required names])
  | "dependentRequired", .plain v => do
    let fields ← v.obj?
    let names ← fields.entries.mapM (fun e => (names? e.2).map (fun names => (e.1, names)))
    return [.requiredWith names]
  | "pattern", .plain v => do
    let source ← v.str?
    let regex ← regex? source
    return [.pattern source regex]
  | "uniqueItems", .plain (.bool wanted) => some (if wanted then [.uniqueItems] else [])
  | "multipleOf", .plain v => do
    let n ← number? v
    if n.order (.int 0) == .gt then return [.multipleOf n] else none
  | "minimum", .plain v => (number? v).map (fun n => [.atLeast n])
  | "maximum", .plain v => (number? v).map (fun n => [.atMost n])
  | "exclusiveMinimum", .plain v => (number? v).map (fun n => [.greaterThan n])
  | "exclusiveMaximum", .plain v => (number? v).map (fun n => [.lessThan n])
  | "minLength", .plain v => (count? v).map (fun n => [.leastLength n])
  | "maxLength", .plain v => (count? v).map (fun n => [.mostLength n])
  | "minItems", .plain v => (count? v).map (fun n => [.leastItems n])
  | "maxItems", .plain v => (count? v).map (fun n => [.mostItems n])
  | "minProperties", .plain v => (count? v).map (fun n => [.leastMembers n])
  | "maxProperties", .plain v => (count? v).map (fun n => [.mostMembers n])
  | "minContains", .plain v => (count? v).map (fun _ => [])
  | "maxContains", .plain v => (count? v).map (fun _ => [])
  | "$schema", .plain v => v.str?.bind (fun s =>
    if ["https://json-schema.org/draft/2020-12/schema",
        "https://json-schema.org/draft/2019-09/schema", "http://json-schema.org/draft-07/schema",
        "http://json-schema.org/draft-06/schema",
        "http://json-schema.org/draft-04/schema"].any (fun known => s == known || s == known ++ "#")
    then some [] else none)
  | k, .plain v =>
    if ["$id", "$anchor", "$comment", "$dynamicRef", "$dynamicAnchor", "title", "description",
        "format", "contentEncoding", "contentMediaType"].contains k then v.str?.map (fun _ => [])
    else if ["deprecated", "readOnly", "writeOnly", "uniqueItems"].contains k then
      match v with
      | .bool _ => some []
      | _ => none
    else if k == "examples" then v.arr?.map (fun _ => [])
    else some []
  | _, _ => some []

mutual

def ofJson? : Json → Option Schema
  | .bool allowed => some (.always allowed)
  | .obj ⟨members⟩ => do
    let operands ← operands? members
    let parts ← operands.mapM (fun o => ofKeyword? operands o.1 o.2)
    return .all parts.flatten
  | _ => none

def operands? : List (String × Json) → Option (List (String × Operand))
  | [] => some []
  | (k, v) :: rest => do
    let operand ← match operandKind k, v with
      | .plain, v => some (.plain v)
      | .schema, v => (ofJson? v).map (fun s => .schema s v)
      | .list, .arr vs => do
        let ss ← schemas? vs
        if ss.isEmpty then none else some (.list ss)
      | .named, .obj ⟨members⟩ => (named? members).map .named
      | _, _ => none
    let others ← operands? rest
    return (k, operand) :: others

def schemas? : List Json → Option (List Schema)
  | [] => some []
  | v :: rest => do
    let s ← ofJson? v
    let ss ← schemas? rest
    return s :: ss

/-- The schemas that members write, with the names of the members. -/
def named? : List (String × Json) → Option (List (String × Schema))
  | [] => some []
  | (k, v) :: rest => do
    let s ← ofJson? v
    let ss ← named? rest
    return (k, s) :: ss

end

mutual

def references : Schema → List String
  | reference target => [target]
  | all parts | firstItems parts | someOf parts | singleOf parts => listReferences parts
  | items _ s | containsMatch s _ _ | propertyNames s | negation s _ => references s
  | properties declared => namedReferences declared
  | patterned patterns => patternReferences patterns
  | closed declared patterns => namedReferences declared ++ patternReferences patterns
  | others declared patterns rest =>
    namedReferences declared ++ patternReferences patterns ++ references rest
  | conditional test yes no => references test ++ references yes ++ references no
  | _ => []

/-- The targets of all references inside several schemas. -/
def listReferences : List Schema → List String
  | [] => []
  | s :: rest => references s ++ listReferences rest

def namedReferences : List (String × Schema) → List String
  | [] => []
  | (_, s) :: rest => references s ++ namedReferences rest

def patternReferences : List (Regex × Schema) → List String
  | [] => []
  | (_, s) :: rest => references s ++ patternReferences rest

end

/-- A key as a pointer writes it, with its escapes undone. -/
def unescapeKey : List Char → List Char
  | '~' :: '1' :: rest => '/' :: unescapeKey rest
  | '~' :: '0' :: rest => '~' :: unescapeKey rest
  | c :: rest => c :: unescapeKey rest
  | [] => []

def targetKeys? (target : String) : Option (List String) :=
  match (target.splitOn "/").map String.toList with
  | ['#'] :: keys => some (keys.map (fun k => String.ofList (unescapeKey k)))
  | _ => none

/-- The schema that a reference stands for in a document. -/
def target? (document : Json) (target : String) : Option Schema := do
  let keys ← targetKeys? target
  let v ← document.walk? keys
  ofJson? v

/-- Adds the schemas of pending references, and of those inside them, to a table. Of the fuel, each
reference takes one. -/
def resolveTargets? (document : Json) :
    Nat → List String → Table Schema → Option (Table Schema)
  | _, [], targets => some targets
  | 0, _, _ => none
  | n + 1, r :: rest, targets =>
    if targets.contains r then resolveTargets? document n rest targets
    else
      match target? document r with
      | some s => resolveTargets? document n (references s ++ rest) (targets.insert r s)
      | none => none

end Workflow.Schema

namespace Workflow

/-- The schema that a document writes, with all that it refers to. A document of `n` values has at
most `n` references, each to one of at most `n` targets. -/
def SchemaDocument.ofJson? (document : Json) : Option SchemaDocument := do
  let root ← Schema.ofJson? document
  let n := document.count + 1
  let targets ← Schema.resolveTargets? document (n * n) root.references Table.empty
  return ⟨document, root, targets⟩

end Workflow
