import Workflow.Json.Record

/-!
# Merging values into a table

Where both sides have a value for a key there is a conflict, which a strategy settles; the value
that gives way is reported.
-/
namespace Workflow

inductive MergeStrategy where
  | overwrite
  | keep
  | merge
  deriving DecidableEq, Repr, Inhabited

namespace MergeStrategy

def known : List (String × MergeStrategy) :=
  [("overwrite", overwrite), ("keep", keep), ("merge", merge)]

def name : MergeStrategy → String
  | overwrite => "overwrite"
  | keep => "keep"
  | merge => "merge"

def toJson (s : MergeStrategy) : Json := .str s.name

/-- The value that stays and the value that is reported, of a prior and an incoming value. -/
def settle (s : MergeStrategy) (prior incoming : Json) : Json × Json :=
  match s with
  | overwrite => (incoming, prior)
  | keep => (prior, incoming)
  | merge =>
    match prior, incoming with
    | .obj old, .obj new => (.obj (old.union new), prior)
    | _, _ => (incoming, prior)

end MergeStrategy
end Workflow
