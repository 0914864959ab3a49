import Workflow.Json.Basic
import Workflow.Decimal.Scaled

/-!
# Reading JSON text

The strict grammar of JSON, with one value a text. Of two members with one name the later wins. A
number without fraction and exponent is whole if it fits in 64 bits; any other, and `-0`, is a
double. Nesting is limited, so that hostile text cannot exhaust the reader.

Every step returns the text it left together with the proof that this is shorter than the text it
was given, which is what makes the recursion end.
-/
namespace Workflow.Json

/-- A value read from the front of a text, and the shorter text that is left. -/
abbrev Front (α : Type) (cs : List Char) :=
  Option (α × { rest : List Char // rest.length < cs.length })

def isSpace (c : Char) : Bool := c == ' ' || c == '\n' || c == '\t' || c == '\r'

/-- A text without the blanks at its start. -/
def skipSpace (cs : List Char) : List Char := cs.dropWhile isSpace

theorem skipSpace_length_le (cs : List Char) : (skipSpace cs).length ≤ cs.length :=
  (List.dropWhile_suffix isSpace).length_le

def hexValue? (c : Char) : Option Nat :=
  if '0' ≤ c ∧ c ≤ '9' then some (c.toNat - 48)
  else if 'a' ≤ c ∧ c ≤ 'f' then some (c.toNat - 87)
  else if 'A' ≤ c ∧ c ≤ 'F' then some (c.toNat - 55)
  else none

def hex4? (a b c d : Char) : Option Nat := do
  return (((← hexValue? a) * 16 + (← hexValue? b)) * 16 + (← hexValue? c)) * 16 + (← hexValue? d)

/-- The character that two halves of a surrogate pair stand for. -/
def surrogatePair (high low : Nat) : Char :=
  Char.ofNat (0x10000 + (high - 0xD800) * 0x400 + (low - 0xDC00))

def simpleEscape? (c : Char) : Option Char :=
  if c = '"' ∨ c = '\\' ∨ c = '/' then some c
  else if c = 'b' then some '\x08'
  else if c = 'f' then some '\x0c'
  else if c = 'n' then some '\n'
  else if c = 'r' then some '\r'
  else if c = 't' then some '\t'
  else none

/-- The rest of a string, up to its closing quote; `acc` holds its characters so far, the last one
first. -/
def readString (acc : List Char) (cs : List Char) : Front String cs :=
  match cs with
  | [] => none
  | '"' :: rest => some (String.ofList acc.reverse, ⟨rest, by simp⟩)
  | '\\' :: 'u' :: a :: b :: c :: d :: rest =>
    match hex4? a b c d with
    | none => none
    | some n =>
      if 0xD800 ≤ n ∧ n ≤ 0xDBFF then
        match rest with
        | '\\' :: 'u' :: e :: f :: g :: h :: rest =>
          match hex4? e f g h with
          | none => none
          | some m =>
            if 0xDC00 ≤ m ∧ m ≤ 0xDFFF then
              (readString (surrogatePair n m :: acc) rest).map
                (fun p => (p.1, ⟨p.2.1, by have := p.2.2; simp; omega⟩))
            else none
        | _ => none
      else if 0xDC00 ≤ n ∧ n ≤ 0xDFFF then none
      else
        (readString (Char.ofNat n :: acc) rest).map
          (fun p => (p.1, ⟨p.2.1, by have := p.2.2; simp; omega⟩))
  | '\\' :: e :: rest =>
    match simpleEscape? e with
    | none => none
    | some c =>
      (readString (c :: acc) rest).map (fun p => (p.1, ⟨p.2.1, by have := p.2.2; simp; omega⟩))
  | c :: rest =>
    if c < ' ' ∨ c = '\\' then none
    else (readString (c :: acc) rest).map (fun p => (p.1, ⟨p.2.1, by have := p.2.2; simp; omega⟩))
termination_by cs.length

/-- Whether a minus sign starts a text, and the text after a sign. -/
def takeSign : List Char → Bool × List Char
  | '-' :: rest => (true, rest)
  | '+' :: rest => (false, rest)
  | cs => (false, cs)

/-- The exponent of a number after its mark: its value and the text after it. -/
def readExponent (cs : List Char) : Option (Int × List Char) :=
  let digits := (takeSign cs).2
  let ds := digits.takeWhile Char.isDigit
  if ds.isEmpty then none
  else
    let n : Int := (String.ofList ds).toNat?.getD 0
    some (if (takeSign cs).1 then -n else n, digits.dropWhile Char.isDigit)

/-- The digits of a fraction, which may be missing, and the text after them. -/
def readFraction (cs : List Char) : Option (List Char × List Char) :=
  match cs with
  | '.' :: rest =>
    if (rest.takeWhile Char.isDigit).isEmpty then none
    else some (rest.takeWhile Char.isDigit, rest.dropWhile Char.isDigit)
  | _ => some ([], cs)

/-- The power of ten that scales a number, which may be missing, and the text after it. -/
def readPower (cs : List Char) : Option (Option Int × List Char) :=
  match cs with
  | [] => some (none, [])
  | c :: rest =>
    if c = 'e' ∨ c = 'E' then (readExponent rest).map (fun p => (some p.1, p.2))
    else some (none, c :: rest)

/-- The double of scaled digits under a sign. -/
def signedFloat (negative : Bool) (s : Decimal.Scaled) : Option Number :=
  s.toFloat?.map (fun x => .float (if negative then -x else x))

/-- A number that was written without fraction and exponent. -/
def wholeNumber (negative : Bool) (s : Decimal.Scaled) : Option Number :=
  if s.exponent ≠ 0 then signedFloat negative s
  else if negative then
    if s.digits = 0 ∨ Number.minSigned.natAbs < s.digits then signedFloat true s
    else some (.int (-(s.digits : Int)))
  else some (.int s.digits)

/-- The number of a sign, the digits before and after the point and a power of ten. -/
def numberOfParts (negative : Bool) (whole fraction : List Char) (power : Option Int) :
    Option Number :=
  let s := (Decimal.Scaled.addWhole ⟨0, 0⟩ whole).addFraction fraction
  match fraction, power with
  | [], none => wholeNumber negative s
  | _, _ => signedFloat negative ⟨s.digits, s.exponent + power.getD 0⟩

/-- A number without its sign. No zero stands before another digit. -/
def readUnsigned (negative : Bool) (cs : List Char) : Option (Number × List Char) :=
  let whole := cs.takeWhile Char.isDigit
  if whole.isEmpty ∨ (whole.head? = some '0' ∧ 1 < whole.length) then none
  else
    (readFraction (cs.dropWhile Char.isDigit)).bind (fun p =>
      (readPower p.2).bind (fun q =>
        (numberOfParts negative whole p.1 q.1).map (fun n => (n, q.2))))

def readNumber (cs : List Char) : Option (Number × List Char) :=
  match cs with
  | '-' :: rest => readUnsigned true rest
  | _ => readUnsigned false cs

theorem takeSign_length_le (cs : List Char) : (takeSign cs).2.length ≤ cs.length := by
  unfold takeSign
  split
  · exact Nat.le_succ _
  · exact Nat.le_succ _
  · exact Nat.le_refl _

theorem readExponent_length {cs r : List Char} {e : Int} (h : readExponent cs = some (e, r)) :
    r.length ≤ cs.length := by
  simp only [readExponent] at h
  split at h
  · cases h
  · cases h
    exact Nat.le_trans (List.dropWhile_suffix Char.isDigit).length_le (takeSign_length_le cs)

theorem readFraction_length {cs ds r : List Char} (h : readFraction cs = some (ds, r)) :
    r.length ≤ cs.length := by
  unfold readFraction at h
  split at h
  next rest =>
    split at h
    · cases h
    · cases h
      have := (List.dropWhile_suffix Char.isDigit (l := rest)).length_le
      simp only [List.length_cons]
      omega
  · cases h
    exact Nat.le_refl _

theorem readPower_length {cs r : List Char} {e : Option Int} (h : readPower cs = some (e, r)) :
    r.length ≤ cs.length := by
  unfold readPower at h
  split at h
  · cases h
    exact Nat.le_refl _
  next c rest =>
    split at h
    · obtain ⟨p, hp, he⟩ := Option.map_eq_some_iff.1 h
      cases he
      exact Nat.le_succ_of_le (readExponent_length hp)
    · cases h
      exact Nat.le_refl _

theorem readUnsigned_length {negative : Bool} {cs r : List Char} {n : Number}
    (h : readUnsigned negative cs = some (n, r)) : r.length < cs.length := by
  simp only [readUnsigned] at h
  split at h
  · cases h
  next hw =>
    obtain ⟨p, hp, h⟩ := Option.bind_eq_some_iff.1 h
    obtain ⟨q, hq, h⟩ := Option.bind_eq_some_iff.1 h
    obtain ⟨_, _, h⟩ := Option.map_eq_some_iff.1 h
    cases h
    have hf := readFraction_length hp
    have hr := readPower_length hq
    have hs : (cs.takeWhile Char.isDigit).length + (cs.dropWhile Char.isDigit).length
        = cs.length := by
      rw [← List.length_append, List.takeWhile_append_dropWhile]
    have hpos : 0 < (cs.takeWhile Char.isDigit).length := by
      cases htw : cs.takeWhile Char.isDigit with
      | nil => exact absurd (Or.inl (by rw [htw]; rfl)) hw
      | cons => exact Nat.succ_pos _
    omega

theorem readNumber_length {cs r : List Char} {n : Number} (h : readNumber cs = some (n, r)) :
    r.length < cs.length := by
  unfold readNumber at h
  split at h
  · exact Nat.lt_succ_of_lt (readUnsigned_length h)
  · exact readUnsigned_length h

/-- An answer for a text that was reached by skipping some of another. -/
def Front.widen {α : Type} {cs ds : List Char} (h : cs.length ≤ ds.length) (f : Front α cs) :
    Front α ds :=
  f.map (fun p => (p.1, ⟨p.2.1, by have := p.2.2; omega⟩))

mutual

/-- A value, inside brackets of which at most `depth` more may open. -/
def readValue (depth : Nat) (cs : List Char) : Front Json cs :=
  match cs with
  | [] => none
  | '"' :: rest =>
    (readString [] rest).map (fun p => (.str p.1, ⟨p.2.1, by have := p.2.2; simp; omega⟩))
  | '[' :: rest =>
    if depth = 0 then none
    else
      match hs : skipSpace rest with
      | ']' :: after => some (.arr [], ⟨after, by
          have := skipSpace_length_le rest; simp [hs] at this; simp; omega⟩)
      | _ =>
        have hlen : (skipSpace rest).length < rest.length + 1 := by
          have := skipSpace_length_le rest; omega
        (readItems (depth - 1) [] (skipSpace rest)).map
          (fun p => (.arr p.1, ⟨p.2.1, by have := p.2.2; simp; omega⟩))
  | '\x7b' :: rest =>
    if depth = 0 then none
    else
      match hs : skipSpace rest with
      | '\x7d' :: after => some (.obj Table.empty, ⟨after, by
          have := skipSpace_length_le rest; simp [hs] at this; simp; omega⟩)
      | _ =>
        have hlen : (skipSpace rest).length < rest.length + 1 := by
          have := skipSpace_length_le rest; omega
        (readMembers (depth - 1) Table.empty (skipSpace rest)).map
          (fun p => (.obj p.1, ⟨p.2.1, by have := p.2.2; simp; omega⟩))
  | 't' :: 'r' :: 'u' :: 'e' :: rest => some (.bool true, ⟨rest, by simp; omega⟩)
  | 'f' :: 'a' :: 'l' :: 's' :: 'e' :: rest => some (.bool false, ⟨rest, by simp; omega⟩)
  | 'n' :: 'u' :: 'l' :: 'l' :: rest => some (.null, ⟨rest, by simp; omega⟩)
  | c :: rest =>
    match hn : readNumber (c :: rest) with
    | some (n, after) => some (.num n, ⟨after, readNumber_length hn⟩)
    | none => none
termination_by (cs.length, 0)

/-- The items of a list up to its closing bracket; `acc` holds those before, the last one first. -/
def readItems (depth : Nat) (acc : List Json) (cs : List Char) : Front (List Json) cs :=
  match readValue depth cs with
  | none => none
  | some (v, ⟨rest, hrest⟩) =>
    match hs : skipSpace rest with
    | ']' :: after => some ((v :: acc).reverse, ⟨after, by
        have := skipSpace_length_le rest; simp [hs] at this; omega⟩)
    | ',' :: after =>
      have hlen : (skipSpace after).length < cs.length := by
        have h1 := skipSpace_length_le rest
        have h2 := skipSpace_length_le after
        simp [hs] at h1; omega
      (readItems depth (v :: acc) (skipSpace after)).widen (by omega)
    | _ => none
termination_by (cs.length, 1)

/-- The members of an object up to its closing bracket, added to those before. -/
def readMembers (depth : Nat) (acc : Table Json) (cs : List Char) : Front (Table Json) cs :=
  match cs with
  | '"' :: text =>
    match readString [] text with
    | none => none
    | some (name, ⟨rest, hrest⟩) =>
      match hc : skipSpace rest with
      | ':' :: after =>
        have hafter : (skipSpace after).length < text.length := by
          have h1 := skipSpace_length_le rest
          have h2 := skipSpace_length_le after
          simp [hc] at h1; omega
        match readValue depth (skipSpace after) with
        | none => none
        | some (v, ⟨rest, hrest⟩) =>
          match hs : skipSpace rest with
          | '\x7d' :: after => some (acc.insert name v, ⟨after, by
              have := skipSpace_length_le rest; simp [hs] at this; simp; omega⟩)
          | ',' :: after =>
            have hlen : (skipSpace after).length < text.length := by
              have h1 := skipSpace_length_le rest
              have h2 := skipSpace_length_le after
              simp [hs] at h1; omega
            (readMembers depth (acc.insert name v) (skipSpace after)).widen (by simp; omega)
          | _ => none
      | _ => none
  | _ => none
termination_by (cs.length, 1)

end

/-- The value of a JSON text in which at most `depth` brackets are open at once. -/
def readWithin? (depth : Nat) (text : String) : Option Json :=
  match readValue depth (skipSpace text.toList) with
  | some (v, ⟨rest, _⟩) => if (skipSpace rest).isEmpty then some v else none
  | none => none

/-- The value of a JSON text with at most 127 levels of nesting. -/
def read? (text : String) : Option Json := readWithin? 127 text

end Workflow.Json
