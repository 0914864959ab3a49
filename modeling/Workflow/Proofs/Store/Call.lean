import Workflow.Store.Durable
import Workflow.Store.Keys
import Workflow.Store.Payload

/-!
# The operations of the store as data

Everything that an actor can ask of the store is a call, and every answer is a value.
-/
namespace Workflow

inductive StoreCall where
  | set (ns key : String) (v : Json) (opts : SetOptions)
  | read (ns key : String)
  | readSpace (ns : String)
  | delete (ns : String) (key : Option String)
  | contains (ns key : String)
  | keys (ns : String)
  | append (ns key : String) (v : Json)
  | merge (ns : String) (values : Table Json) (strategy : MergeStrategy)
  | snapshot (ns : String)
  | restore (id : Nat)
  | savePayload (ns key : String) (source : Source) (metadata : BinaryMetadata)
  | loadPayload (ns key : String)
  | openPayload (ns key : String)
  | save (ns : Option String)
  | load (ns : Option String)
  | deleteStored (ns : String) (key : Option String)

inductive StoreAnswer where
  | flag (b : Bool)
  | number (n : Nat)
  | value (v : Option Json)
  | values (vs : Option (Table Json))
  | names (ks : List String)
  | conflicts (vs : Table Json)
  | descriptor (d : Descriptor)
  | bytes (b : Bytes)
  | source (s : Source)

namespace StoreCall
variable {σ : Type}

def perform (env : Environment σ) (actor : Actor) : StoreCall → StoreAction σ StoreAnswer
  | .set ns key v opts => return .flag (← Store.set env actor ns key v opts)
  | .read ns key => return .value (← Store.read env actor ns key)
  | .readSpace ns => return .values (← Store.readSpace env actor ns)
  | .delete ns key => return .flag (← Store.delete env actor ns key)
  | .contains ns key => return .flag (← Store.contains env actor ns key)
  | .keys ns => return .names (← Store.keys env actor ns)
  | .append ns key v => return .number (← Store.append env actor ns key v)
  | .merge ns values strategy => return .conflicts (← Store.merge env actor ns values strategy)
  | .snapshot ns => return .number (← Store.snapshot env actor ns)
  | .restore id => return .flag (← Store.restore env actor id)
  | .savePayload ns key source metadata =>
    return .descriptor (← Store.savePayload env actor ns key source metadata)
  | .loadPayload ns key => return .bytes (← Store.loadPayload env actor ns key)
  | .openPayload ns key => return .source (← Store.openPayload env actor ns key)
  | .save ns => return .flag (← Store.save env actor ns)
  | .load ns => return .flag (← Store.load env actor ns)
  | .deleteStored ns key => return .flag (← Store.deleteStored env actor ns key)

/-- The access to a whole namespace that a call asks for, if it changes whole namespaces. -/
def spaceAccess? : StoreCall → Option Access
  | .delete _ none => some .delete
  | .restore _ => some .write
  | .save _ => some .read
  | .load _ => some .write
  | .deleteStored _ none => some .delete
  | _ => none

end StoreCall
end Workflow
