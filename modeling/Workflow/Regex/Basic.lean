import Workflow.Regex.CharSet

/-!
# Patterns

A pattern describes texts. The matcher computes, for a set of positions in a text, the set of the
positions at which a match that starts at one of them can end; since such a set never has more
members than the text has positions, repetition reaches its last set after as many rounds. Which of
several matches a search would prefer plays no part in this.
-/
namespace Workflow

inductive Anchor where
  | textStart
  | textEnd
  | lineStart (carriage : Bool)
  | lineEnd (carriage : Bool)
  | wordBoundary (ascii : Bool)
  | noWordBoundary (ascii : Bool)
  | wordStart (ascii : Bool)
  | wordEnd (ascii : Bool)
  | wordStartHalf (ascii : Bool)
  | wordEndHalf (ascii : Bool)
  deriving DecidableEq, Repr

inductive Regex where
  | empty
  | set (s : Regex.CharSet)
  | anchor (a : Anchor)
  | seq (a b : Regex)
  | alt (a b : Regex)
  | many (r : Regex) (least : Nat) (most : Option Nat)
  | grouped (name : Option (List Char)) (r : Regex)
  | ahead (wanted : Bool) (r : Regex)
  | behind (wanted : Bool) (r : Regex)
  deriving Inhabited, Repr

/-- Whether a character is one of a word, in ASCII or in Unicode. -/
def Anchor.isWord (ascii : Bool) (c : Char) : Bool :=
  if ascii then Regex.CharSet.asciiWord.holds c else Text.isWordCharacter c

/-- Whether a condition holds at a position of a text. With `carriage`, lines also end at a
carriage return, and a carriage return with a line feed is one end of line. -/
def Anchor.holds (text : Array Char) (a : Anchor) (i : Nat) : Bool :=
  let before : Option Char := if i = 0 then none else text[i - 1]?
  let after : Option Char := text[i]?
  let wordBefore (ascii : Bool) := before.any (isWord ascii)
  let wordAfter (ascii : Bool) := after.any (isWord ascii)
  match a with
  | .textStart => i == 0
  | .textEnd => i == text.size
  | .lineStart carriage =>
    i == 0 || before == some '\n' || (carriage && before == some '\r' && after != some '\n')
  | .lineEnd carriage =>
    if carriage then
      i == text.size || after == some '\r' || (after == some '\n' && before != some '\r')
    else i == text.size || after == some '\n'
  | .wordBoundary ascii => wordBefore ascii != wordAfter ascii
  | .noWordBoundary ascii => wordBefore ascii == wordAfter ascii
  | .wordStart ascii => !wordBefore ascii && wordAfter ascii
  | .wordEnd ascii => wordBefore ascii && !wordAfter ascii
  | .wordStartHalf ascii => !wordBefore ascii
  | .wordEndHalf ascii => !wordAfter ascii

namespace Regex

/-- Two sets of positions together; both are listed in increasing order, and so is the result. -/
def union : List Nat → List Nat → List Nat
  | [], t => t
  | s, [] => s
  | i :: s, j :: t =>
    if i < j then i :: union s (j :: t)
    else if j < i then j :: union (i :: s) t
    else i :: union s t

theorem mem_union {i : Nat} {s t : List Nat} : i ∈ union s t ↔ i ∈ s ∨ i ∈ t := by
  fun_induction union s t with
  | case1 t => simp
  | case2 s => simp
  | case3 a s b t hlt ih => simp only [List.mem_cons, ih]; grind
  | case4 a s b t hge hlt ih => simp only [List.mem_cons, ih]; grind
  | case5 a s b t hge hle ih =>
    have hab : a = b := by omega
    subst hab
    simp only [List.mem_cons, ih]
    grind

/-- The positions that exactly `n` steps lead to. Once a step changes nothing, further ones do not
either. -/
def exactly (step : List Nat → List Nat) : Nat → List Nat → List Nat
  | 0, s => s
  | n + 1, s =>
    let next := step s
    if next = s then s else exactly step n next

/-- The positions that at most `n` steps lead to: those reached so far, and those that lie up to
`n` steps behind the ones reached last. -/
def atMost (step : List Nat → List Nat) : Nat → List Nat → List Nat → List Nat
  | 0, reached, _ => reached
  | n + 1, reached, last =>
    let fresh := (step last).filter (fun i => !reached.contains i)
    if fresh.isEmpty then reached else atMost step n (union reached fresh) fresh

/-- The positions at which matches of a pattern can end that start at one of the given ones. -/
def ends (text : Array Char) : Regex → List Nat → List Nat
  | empty, s => s
  | set cs, s => (s.filter (fun i => text[i]?.any cs.holds)).map (· + 1)
  | anchor a, s => s.filter (a.holds text)
  | seq a b, s => ends text b (ends text a s)
  | alt a b, s => union (ends text a s) (ends text b s)
  | many r least most, s =>
    let rounds := match most with
      | none => text.size + 1
      | some m => m - least
    let first := exactly (ends text r) least s
    atMost (ends text r) rounds first first
  | grouped _ r, s => ends text r s
  | ahead wanted r, s => s.filter (fun i => (ends text r [i]).isEmpty != wanted)
  | behind wanted r, s =>
    s.filter (fun i => (List.range (i + 1)).any (fun j => (ends text r [j]).contains i) == wanted)

def isMatch (r : Regex) (text : String) : Bool :=
  let cs := text.toList.toArray
  !(ends cs r (List.range (cs.size + 1))).isEmpty

/-- The number of signs in a pattern once its bounded repetitions are written out. -/
def weight : Regex → Nat
  | empty => 0
  | set _ => 1
  | anchor _ => 1
  | seq a b => a.weight + b.weight
  | alt a b => a.weight + b.weight + 1
  | many r least most =>
    let more := match most with
      | none => 1
      | some m => m - least
    least * r.weight + more * (r.weight + 1)
  | grouped _ r => r.weight
  | ahead _ r => r.weight
  | behind _ r => r.weight

/-- The greatest weight of a pattern that is put to use. -/
def maxWeight : Nat := 327680

/-- How deep groups, repetitions, sequences and alternatives of a pattern stand in each other. What
follows the first of a sequence or of alternatives stands no deeper than the first. -/
def height : Regex → Nat
  | empty => 0
  | set _ => 0
  | anchor _ => 0
  | seq a b =>
    max (a.height + 1) (match b with
      | seq _ _ => b.height
      | _ => b.height + 1)
  | alt a b =>
    max (a.height + 1) (match b with
      | alt _ _ => b.height
      | _ => b.height + 1)
  | many r _ _ => r.height + 1
  | grouped _ r => r.height + 1
  | ahead _ r => r.height + 1
  | behind _ r => r.height + 1

def maxHeight : Nat := 250

def names : Regex → List (List Char)
  | empty => []
  | set _ => []
  | anchor _ => []
  | seq a b => a.names ++ b.names
  | alt a b => a.names ++ b.names
  | many r _ _ => r.names
  | grouped name r => name.toList ++ r.names
  | ahead _ r => r.names
  | behind _ r => r.names

def ofList (rs : List Regex) : Regex :=
  match rs with
  | [] => empty
  | [r] => r
  | r :: rest => seq r (ofList rest)

end Regex
end Workflow
