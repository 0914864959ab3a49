import Workflow.Files.Tree

/-!
# Sources of bytes

A source delivers its bytes in pieces as it likes; it may be interrupted, which means nothing, and
it may fail.
-/
namespace Workflow

/-- What happens when a source is read from. -/
inductive ReadEvent where
  | piece (bytes : Bytes)
  | interrupted
  | failure (cause : FileError)
  deriving DecidableEq, Repr, Inhabited

abbrev Source := List ReadEvent

namespace Source

def ofBytes (bs : Bytes) : Source := [.piece bs]

def drain : Source → Except FileError Bytes
  | [] => .ok []
  | .piece bs :: rest => (drain rest).map (bs ++ ·)
  | .interrupted :: rest => drain rest
  | .failure cause :: _ => .error cause

/-- At most `n` bytes from the start of a source, and what remains of it. When `n` bytes are there,
the source is not read any further. -/
def takeUpTo (n : Nat) : Source → Except FileError (Bytes × Source)
  | [] => .ok ([], [])
  | e :: rest =>
    if n = 0 then .ok ([], e :: rest)
    else
      match e with
      | .piece bs =>
        if n < bs.length then .ok (bs.take n, .piece (bs.drop n) :: rest)
        else (takeUpTo (n - bs.length) rest).map (fun r => (bs ++ r.1, r.2))
      | .interrupted => takeUpTo n rest
      | .failure cause => .error cause

def pieces (n : Nat) (bs : Bytes) : List Bytes :=
  if _h : n = 0 ∨ bs.length ≤ n then [bs] else bs.take n :: pieces n (bs.drop n)
termination_by bs.length
decreasing_by
  rw [List.length_drop]
  omega

/-- The source as it looks to a reader that asks for at most `n` bytes at a time. -/
def chunked (n : Nat) (s : Source) : Source :=
  s.flatMap fun
    | .piece bs => (pieces n bs).map .piece
    | e => [e]

end Source
end Workflow
