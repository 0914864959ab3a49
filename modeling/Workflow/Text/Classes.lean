import Workflow.Text.Alphabetic
import Workflow.Text.Category

/-!
# Classes of characters

Blanks are the characters with the Unicode property White_Space. Numerals are the characters of the
general categories of numbers, and decimal digits those of one of them. Words are made of letters,
marks, decimal digits, connecting punctuation and the two join controls.
-/
namespace Workflow.Text

/-- Whether a character has the Unicode property White_Space. -/
def isBlank (c : Char) : Bool :=
  c == ' ' || (decide ('\t' ≤ c) && decide (c ≤ '\r')) || c == '\x85' || c == '\u00a0'
    || c == '\u1680' || (decide ('\u2000' ≤ c) && decide (c ≤ '\u200a'))
    || c == '\u2028' || c == '\u2029' || c == '\u202f' || c == '\u205f' || c == '\u3000'

def trimStart (cs : List Char) : List Char := cs.dropWhile isBlank

def trimEnd (cs : List Char) : List Char := (cs.reverse.dropWhile isBlank).reverse

/-- A text without the blanks at its ends. -/
def trim (cs : List Char) : List Char := trimEnd (trimStart cs)

/-- Whether a character is in a general category of numbers. -/
def isNumeric (c : Char) : Bool :=
  isAsciiDigit c || (decide ('\x7f' < c) && (inRanges decimalNumberRanges c
    || inRanges letterNumberRanges c || inRanges otherNumberRanges c))

def isDecimalDigit (c : Char) : Bool :=
  isAsciiDigit c || (decide ('\x7f' < c) && inRanges decimalNumberRanges c)

def isAlphanumeric (c : Char) : Bool := isAlphabetic c || isNumeric c

def isWordCharacter (c : Char) : Bool :=
  isAsciiWord c || (decide ('\x7f' < c) && (inRanges alphabeticRanges c
    || inRanges nonspacingMarkRanges c || inRanges spacingMarkRanges c
    || inRanges enclosingMarkRanges c || inRanges decimalNumberRanges c
    || inRanges connectorPunctuationRanges c || c == '\u200c' || c == '\u200d'))

end Workflow.Text
