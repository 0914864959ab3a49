import Workflow.Json.Basic
import Workflow.Decimal.Style
import Workflow.Text.Quoted

/-!
# Records read from JSON

A record is read from an object by the names of its fields, or from a list by their positions. From
an object the values are looked at in the order of their keys and the first bad one is reported;
only then are missing fields, in the order of the declaration. Members that are no fields mean
nothing.

A `Record` is declared once, field by field, with the applicative operators; both orders follow from
the declaration.
-/
namespace Workflow

inductive DecodeError where
  | wrongType (found : Json) (expected : String)
  | wrongInteger (found : Int) (expected : String)
  | notSingle
  | wrongLength (found : Nat) (expected : String)
  | missing (field : String)
  | unknownVariant (found : String) (known : List String)
  | unknownIndex (found count : Nat)
  | unreadable (cause : String)
  deriving Inhabited

namespace DecodeError

def describe : Json → String
  | .null => "null"
  | .bool b => s!"boolean `{b}`"
  | .num (.int i) => s!"integer `{i}`"
  | .num (.float x) => "floating point `" ++ Decimal.Style.json.write x ++ "`"
  | .str s => "string " ++ Text.quoted s
  | .arr _ => "sequence"
  | .obj _ => "map"

def alternatives (known : List String) : String :=
  match known.map (fun k => "`" ++ k ++ "`") with
  | [] => "there are no variants"
  | [a] => "expected " ++ a
  | [a, b] => "expected " ++ a ++ " or " ++ b
  | names => "expected one of " ++ ", ".intercalate names

def message : DecodeError → String
  | wrongType found expected => s!"invalid type: {describe found}, expected {expected}"
  | wrongInteger found expected => s!"invalid value: integer `{found}`, expected {expected}"
  | notSingle => "invalid value: map, expected map with a single key"
  | wrongLength found expected => s!"invalid length {found}, expected {expected}"
  | missing field => s!"missing field `{field}`"
  | unknownVariant found known =>
    if known.isEmpty then s!"unknown variant `{found}`, there are no variants"
    else s!"unknown variant `{found}`, {alternatives known}"
  | unknownIndex found count =>
    s!"invalid value: integer `{found}`, expected variant index 0 <= i < {count}"
  | unreadable cause => cause

end DecodeError

/-- What the format that values come from allows in them. -/
structure RecordFormat where
  /-- Whether a list may go on after the last field of a record. -/
  surplus : Bool
  /-- Whether a value may stand beside a name that needs none. -/
  isUnit : Json → Bool

namespace RecordFormat

/-- In JSON a list ends with the last field, and null stands for nothing. -/
def json : RecordFormat where
  surplus := false
  isUnit
    | .null => true
    | _ => false

/-- In TOML, which has no null, a list may go on, and whatever is empty stands for nothing. -/
def toml : RecordFormat where
  surplus := true
  isUnit
    | .arr [] => true
    | .obj ⟨[]⟩ => true
    | _ => false

end RecordFormat

abbrev Decoder (α : Type) := Json → Except DecodeError α

namespace Decoder

def any : Decoder Json := .ok

def text : Decoder String
  | .str s => .ok s
  | v => .error (.wrongType v "a string")

def path : Decoder String
  | .str s => .ok s
  | v => .error (.wrongType v "path string")

def truth : Decoder Bool
  | .bool b => .ok b
  | v => .error (.wrongType v "a boolean")

/-- A natural number below a bound, which has a name. -/
def natural (bound : Nat) (name : String) : Decoder Nat
  | .num (.int i) =>
    if 0 ≤ i ∧ i < bound then .ok i.toNat else .error (.wrongInteger i name)
  | v => .error (.wrongType v name)

def word16 : Decoder Nat := natural (Nat.pow 2 16) "u16"

def word32 : Decoder Nat := natural (Nat.pow 2 32) "u32"

/-- A natural number of 64 bits that counts something. -/
def count : Decoder Nat := natural (Nat.pow 2 64) "usize"

/-- A floating-point number; whole numbers are rounded to one. -/
def float : Decoder Float
  | .num n => .ok n.toFloat
  | v => .error (.wrongType v "f64")

def list (item : Decoder α) : Decoder (List α)
  | .arr items => items.mapM item
  | v => .error (.wrongType v "a sequence")

def table : Decoder (Table Json)
  | .obj fields => .ok fields
  | v => .error (.wrongType v "a map")

def nullable (d : Decoder α) : Decoder (Option α)
  | .null => .ok none
  | v => (d v).map some

def named (known : List (String × α)) (name : String) : Except DecodeError α :=
  match known.find? (fun e => e.1 == name) with
  | some e => .ok e.2
  | none => .error (.unknownVariant name (known.map (·.1)))

/-- One of several names: a string, or an object with the name as its only key and a value for
nothing. -/
def choiceIn (f : RecordFormat) (known : List (String × α)) : Decoder α
  | .str s => named known s
  | .obj ⟨[(k, v)]⟩ => do
    let a ← named known k
    if f.isUnit v then return a else throw (.wrongType v "unit")
  | .obj _ => .error .notSingle
  | v => .error (.wrongType v "string or map")

def choice (known : List (String × α)) : Decoder α := choiceIn .json known

/-- One of several names, or the number of one, where a name decides how the rest is read. -/
def tag (known : List (String × α)) : Decoder α
  | .str s => named known s
  | .num (.int i) =>
    if 0 ≤ i then
      match known[i.toNat]? with
      | some e => .ok e.2
      | none => .error (.unknownIndex i.toNat known.length)
    else .error (.wrongType (.int i) "variant identifier")
  | v => .error (.wrongType v "variant identifier")

end Decoder

/-- Where the fields of a record come from. -/
structure FieldSource where
  find : String → Option Json
  absent : String → DecodeError
  /-- Whether a field that may be null must be there all the same. -/
  positional : Bool

/-- A way to read a record: what its fields must be, and how it is built from them. -/
structure Record (α : Type) where
  checks : List (String × (Json → Except DecodeError Unit))
  build : FieldSource → Except DecodeError α

namespace Record

def names (r : Record α) : List String := r.checks.map (·.1)

instance : Functor Record where
  map f r := ⟨r.checks, fun s => (r.build s).map f⟩

instance : Applicative Record where
  pure a := ⟨[], fun _ => .ok a⟩
  seq f x := ⟨f.checks ++ (x ()).checks, fun s => do
    let g ← f.build s
    let a ← (x ()).build s
    return g a⟩

/-- One field, read by `d`; `ifAbsent` says what happens when it is not there. -/
def field (name : String) (d : Decoder α) (ifAbsent : FieldSource → Except DecodeError α) :
    Record α where
  checks := [(name, fun v => (d v).map (fun _ => ()))]
  build s :=
    match s.find name with
    | some v => d v
    | none => ifAbsent s

def required (name : String) (d : Decoder α) : Record α :=
  field name d (fun s => .error (s.absent name))

def withDefault (name : String) (d : Decoder α) (default : α) : Record α :=
  field name d (fun _ => .ok default)

/-- A field that may be null or missing. -/
def optional (name : String) (d : Decoder α) : Record (Option α) :=
  withDefault name (Decoder.nullable d) none

/-- A field that may be null, and missing where the fields have names. -/
def possible (name : String) (d : Decoder α) : Record (Option α) :=
  field name (Decoder.nullable d) (fun s =>
    if s.positional then .error (s.absent name) else .ok none)

def checkMembers (checks : List (String × (Json → Except DecodeError Unit))) :
    List (String × Json) → Except DecodeError Unit
  | [] => .ok ()
  | (k, v) :: rest =>
    match checks.find? (fun c => c.1 == k) with
    | some c => do
      c.2 v
      checkMembers checks rest
    | none => checkMembers checks rest

def ofTable (r : Record α) (t : Table Json) : Except DecodeError α := do
  checkMembers r.checks t.entries
  r.build ⟨t.get?, .missing, false⟩

def positioned (names : List String) (items : List Json) (name : String) : Option Json :=
  (names.idxOf? name).bind (fun i => items[i]?)

/-- Reads a record from values in the order of its fields. -/
def ofItems (f : RecordFormat) (title : String) (r : Record α) (items : List Json) :
    Except DecodeError α := do
  let n := r.names.length
  let expected := title ++ " with " ++ (if n = 1 then "1 element" else s!"{n} elements")
  let a ← r.build ⟨positioned r.names items,
    fun name => .wrongLength (r.names.idxOf name) expected, true⟩
  if !f.surplus && n < items.length then throw (.wrongLength items.length "fewer elements in array")
  return a

/-- Reads a record, which has a title for messages, from an object or a list. -/
def decodeIn (f : RecordFormat) (title : String) (r : Record α) : Decoder α
  | .obj t => r.ofTable t
  | .arr items => r.ofItems f title items
  | v => .error (.wrongType v title)

def decode (title : String) (r : Record α) : Decoder α := r.decodeIn .json title

def decodeObject (title : String) (r : Record α) : Decoder α
  | .obj t => r.ofTable t
  | v => .error (.wrongType v title)

def others (r : Record α) (t : Table Json) : Table Json :=
  t.filter (fun k _ => !r.names.contains k)

end Record

namespace Json

def ofFields (fields : List (String × Option Json)) : Json :=
  .mkObj (fields.filterMap (fun f => f.2.map (fun v => (f.1, v))))

end Json
end Workflow
