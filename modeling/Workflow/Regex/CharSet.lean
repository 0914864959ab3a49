import Workflow.Text.Classes
import Workflow.Text.CaseFolding

/-!
# Sets of characters in patterns

What one character of a text can be tested against: ranges and Unicode classes, their unions,
intersections and complements, and the letters that differ from those of a set only in case.
-/
namespace Workflow.Regex

inductive CharSet where
  | nothing
  | range (low high : Char)
  | decimalDigit
  | blank
  | word
  | alphabetic
  | category (k : Text.Category)
  | union (a b : CharSet)
  | inter (a b : CharSet)
  | complement (a : CharSet)
  | anyCase (a : CharSet)
  deriving Inhabited, Repr

namespace CharSet

def holds : CharSet → Char → Bool
  | nothing, _ => false
  | range low high, c => decide (low.toNat ≤ c.toNat) && decide (c.toNat ≤ high.toNat)
  | decimalDigit, c => Text.isDecimalDigit c
  | blank, c => Text.isBlank c
  | word, c => Text.isWordCharacter c
  | alphabetic, c => Text.isAlphabetic c
  | category k, c => k.holds c
  | union a b, c => a.holds c || b.holds c
  | inter a b, c => a.holds c && b.holds c
  | complement a, c => !a.holds c
  | anyCase a, c => (Text.caseVariants c.toNat).any (fun n => a.holds (Char.ofNat n))

/-- Whether a set that is built from characters of ASCII holds only such characters. A complement
does if its set holds all others. -/
def isAscii : CharSet → Bool
  | nothing => true
  | range _ high => decide (high ≤ '\x7f')
  | union a b => a.isAscii && b.isAscii
  | inter a b => a.isAscii || b.isAscii
  | anyCase a => a.isAscii
  | complement a => !a.isAscii
  | decimalDigit | blank | word | alphabetic | category _ => false

def ascii : CharSet := range '\x00' '\x7f'

def single (c : Char) : CharSet := range c c

def ofChars (cs : List Char) : CharSet := cs.foldr (fun c s => union (single c) s) nothing

def everything : CharSet := complement nothing

/-- The characters of the first set that are not in the second. -/
def diff (a b : CharSet) : CharSet := inter a (complement b)

/-- The characters in exactly one of two sets. -/
def symmDiff (a b : CharSet) : CharSet := union (diff a b) (diff b a)

def asciiDigit : CharSet := range '0' '9'

def asciiLetter : CharSet := union (range 'a' 'z') (range 'A' 'Z')

def asciiWord : CharSet := union asciiLetter (union asciiDigit (single '_'))

def asciiBlank : CharSet := union (range '\t' '\r') (single ' ')

end CharSet
end Workflow.Regex
