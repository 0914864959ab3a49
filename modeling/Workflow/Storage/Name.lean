import Workflow.Text.Utf8

/-!
# Names of stored things

Namespaces and keys are arbitrary texts, names of files are not. A stored value gets a name that
consists of harmless characters and a digest that keeps different texts apart; a stored object is
named by the last part of its path alone.
-/
namespace Workflow.Storage

/-- Whether a character may stand in a name as it is. -/
def isSafe (c : Char) : Bool := c.isAlphanum || c == '-' || c == '_'

/-- A text with underscores in the place of all but harmless characters. The empty text and the
names of directories relative to others have none. -/
def sanitize? (name : String) : Option String :=
  if name = "" ∨ name = "." ∨ name = ".." then none
  else some (String.ofList (name.toList.map (fun c => if isSafe c then c else '_')))

/-- How many hexadecimal digits of the digest stand in a name. -/
def digestLength : Nat := 16

/-- The digits that keep the names of different texts apart. -/
def fingerprint (name : String) : String :=
  String.ofList ((hexText (Sha256.digest (Text.utf8 name))).take digestLength)

/-- The name under which a namespace or a key is stored. -/
def storageName? (name : String) : Option String :=
  (sanitize? name).map (fun stem => stem ++ "-" ++ fingerprint name)

/-- The last part of a path; blank parts and single dots count for nothing. There is none if the
path is empty or ends by going back. -/
def basename? (name : String) : Option String :=
  match ((name.splitOn "/").filter (fun p => p != "" && p != ".")).getLast? with
  | some ".." => none
  | last => last

end Workflow.Storage
