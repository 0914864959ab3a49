/-!
# Sets of characters given by ranges of code points

A character class of a standard is a list of inclusive ranges. The tables beside this module hold
the part of each class above the ASCII characters; the ASCII part is written out where the class
is defined, so that questions about ASCII text never meet a table.
-/
namespace Workflow.Text

def inRanges (ranges : List (Nat × Nat)) (c : Char) : Bool :=
  ranges.any (fun r => decide (r.1 ≤ c.toNat) && decide (c.toNat ≤ r.2))

def isAsciiLetter (c : Char) : Bool :=
  (decide ('a' ≤ c) && decide (c ≤ 'z')) || (decide ('A' ≤ c) && decide (c ≤ 'Z'))

def isAsciiDigit (c : Char) : Bool := decide ('0' ≤ c) && decide (c ≤ '9')

def isAsciiWord (c : Char) : Bool := isAsciiLetter c || isAsciiDigit c || c == '_'

end Workflow.Text
