import Workflow.Json.Printer
import Workflow.Json.Reader
import Mathlib.Data.List.Basic

/-!
# Strings that read back

A string is written with escapes, and what is written reads back as the string, up to the quote that
ends it.
-/
namespace Workflow.Json

/-- What is read from the front of a text, and the text that is left. -/
def Front.found? {α : Type} {cs : List Char} (f : Front α cs) : Option (α × List Char) :=
  f.map fun p => (p.1, p.2.1)

/-- The rest of a string, and the text after its closing quote. -/
def stringFront? (acc cs : List Char) : Option (String × List Char) := (readString acc cs).found?

theorem stringFront?_quote (acc rest : List Char) :
    stringFront? acc ('"' :: rest) = some (String.ofList acc.reverse, rest) := by
  rw [stringFront?, readString]
  rfl

theorem stringFront?_plain {c : Char} (hquote : c ≠ '"') (hslash : c ≠ '\\') (hplain : ¬c < ' ')
    (acc rest : List Char) : stringFront? acc (c :: rest) = stringFront? (c :: acc) rest := by
  unfold stringFront?
  rw [readString.eq_5 acc c rest hquote (fun _ _ _ _ _ h _ => hslash h) fun _ _ h _ => hslash h,
    if_neg (not_or.mpr ⟨hplain, hslash⟩)]
  exact Option.map_map _ _ _

theorem stringFront?_simple {c e : Char} (hu : e ≠ 'u') (he : simpleEscape? e = some c)
    (acc rest : List Char) :
    stringFront? acc ('\\' :: e :: rest) = stringFront? (c :: acc) rest := by
  unfold stringFront?
  rw [readString.eq_4 acc e rest fun _ _ _ _ _ h _ => hu h, he]
  exact Option.map_map _ _ _

theorem stringFront?_unicode {x y z w : Char} {n : Nat} (hn : hex4? x y z w = some n)
    (hlow : n < 0xD800) (acc rest : List Char) :
    stringFront? acc ('\\' :: 'u' :: x :: y :: z :: w :: rest) =
      stringFront? (Char.ofNat n :: acc) rest := by
  have hhigh : ¬(0xD800 ≤ n ∧ n ≤ 0xDBFF) := by omega
  have hhalf : ¬(0xDC00 ≤ n ∧ n ≤ 0xDFFF) := by omega
  unfold stringFront?
  rw [readString.eq_3, hn]
  dsimp only
  rw [if_neg hhigh, if_neg hhalf]
  exact Option.map_map _ _ _

/-- How a character is written: as it is, with an escape of its own, or by its number. -/
inductive Escaped (c : Char) : List Char → Prop
  | plain : c ≠ '"' → c ≠ '\\' → ¬c < ' ' → Escaped c [c]
  | simple {e} : e ≠ 'u' → simpleEscape? e = some c → Escaped c ['\\', e]
  | unicode {x y z w n} : hex4? x y z w = some n → n < 0xD800 → Char.ofNat n = c →
      Escaped c ['\\', 'u', x, y, z, w]

theorem unicodeEscape_escaped {c : Char} (h : c < ' ') : Escaped c (unicodeEscape c) := by
  have hread : ∀ n < 32,
      unicodeEscape (Char.ofNat n) =
        ['\\', 'u', '0', '0', Nat.digitChar (n / 16), Nat.digitChar (n % 16)] ∧
      hex4? '0' '0' (Nat.digitChar (n / 16)) (Nat.digitChar (n % 16)) = some n := by
    decide
  have hlow : c.toNat < 32 := h
  obtain ⟨htext, hn⟩ := hread c.toNat hlow
  rw [Char.ofNat_toNat] at htext
  rw [htext]
  exact .unicode hn (by omega) (Char.ofNat_toNat c)

theorem escapeChar_escaped (c : Char) : Escaped c (escapeChar c) := by
  unfold escapeChar
  split
  · rename_i h
    exact .simple (by decide) (by rw [h]; rfl)
  split
  · rename_i h
    exact .simple (by decide) (by rw [h]; rfl)
  split
  · rename_i h
    exact .simple (by decide) (by rw [h]; rfl)
  split
  · rename_i h
    exact .simple (by decide) (by rw [h]; rfl)
  split
  · rename_i h
    exact .simple (by decide) (by rw [h]; rfl)
  split
  · rename_i h
    exact .simple (by decide) (by rw [h]; rfl)
  split
  · rename_i h
    exact .simple (by decide) (by rw [h]; rfl)
  split
  · rename_i h
    exact unicodeEscape_escaped h
  · exact .plain ‹_› ‹_› ‹_›

theorem stringFront?_escaped {c : Char} {text : List Char} (h : Escaped c text)
    (acc rest : List Char) :
    stringFront? acc (text ++ rest) = stringFront? (c :: acc) rest := by
  cases h with
  | plain hquote hslash hplain => exact stringFront?_plain hquote hslash hplain acc rest
  | simple hu he => exact stringFront?_simple hu he acc rest
  | unicode hn hlow hc =>
    rw [← hc]
    exact stringFront?_unicode hn hlow acc rest

/-- A string that is written reads back. -/
theorem stringFront?_flatMap (cs acc rest : List Char) :
    stringFront? acc (cs.flatMap escapeChar ++ '"' :: rest) =
      some (String.ofList (acc.reverse ++ cs), rest) := by
  induction cs generalizing acc with
  | nil =>
    rw [List.flatMap_nil, List.nil_append, stringFront?_quote, List.append_nil]
  | cons c cs ih =>
    rw [List.flatMap_cons, List.append_assoc, stringFront?_escaped (escapeChar_escaped c), ih,
      List.reverse_cons, List.append_assoc]
    rfl

/-- A value at the front of a text, and the text after it. -/
def valueFront? (depth : Nat) (cs : List Char) : Option (Json × List Char) :=
  (readValue depth cs).found?

/-- The members of an object at the front of a text, and the text after its closing bracket. -/
def membersFront? (depth : Nat) (acc : Table Json) (cs : List Char) :
    Option (Table Json × List Char) :=
  (readMembers depth acc cs).found?

theorem Front.found?_eq_some {α : Type} {cs rest : List Char} {f : Front α cs} {v : α}
    (h : f.found? = some (v, rest)) : ∃ hrest, f = some (v, ⟨rest, hrest⟩) := by
  obtain ⟨⟨w, rest', hrest⟩, rfl, heq⟩ := Option.map_eq_some_iff.mp h
  cases heq
  exact ⟨hrest, rfl⟩

theorem Front.found?_widen {α : Type} {cs ds : List Char} (h : cs.length ≤ ds.length)
    (f : Front α cs) : (f.widen h).found? = f.found? := by
  unfold Front.widen Front.found?
  rw [Option.map_map]
  rfl

theorem valueFront?_str {s : String} {text rest : List Char} (depth : Nat)
    (h : stringFront? [] text = some (s, rest)) :
    valueFront? depth ('"' :: text) = some (.str s, rest) := by
  obtain ⟨hrest, hs⟩ := Front.found?_eq_some h
  unfold valueFront?
  rw [readValue, hs]
  rfl

/-- After a member the object ends, or another member follows. -/
theorem membersFront?_member {name : String} {v : Json} {text rest after rest' : List Char}
    {depth : Nat} (acc : Table Json) (hname : stringFront? [] text = some (name, rest))
    (hcolon : skipSpace rest = ':' :: after)
    (hv : valueFront? depth (skipSpace after) = some (v, rest')) :
    membersFront? depth acc ('"' :: text) =
      match skipSpace rest' with
      | '\x7d' :: left => some (acc.insert name v, left)
      | ',' :: next => membersFront? depth (acc.insert name v) (skipSpace next)
      | _ => none := by
  obtain ⟨hrest, hname⟩ := Front.found?_eq_some hname
  obtain ⟨hrest', hv⟩ := Front.found?_eq_some hv
  unfold membersFront?
  rw [readMembers]
  simp only [hname]
  split
  · rename_i after' hc
    obtain rfl : after = after' := by
      rw [hcolon] at hc
      exact (List.cons.inj hc).2
    simp only [hv]
    split
    · rename_i left hs
      simp only [hs]
      rfl
    · rename_i next hs
      simp only [Front.found?_widen, hs]
    · rename_i hclose hcomma
      split
      · rename_i left hs
        exact absurd hs (hclose left)
      · rename_i next hs
        exact absurd hs (hcomma next)
      · rfl
  · rename_i hc
    exact absurd hcolon (hc after)

theorem valueFront?_obj {t : Table Json} {rest left : List Char} {depth : Nat}
    (hopen : ∀ after, skipSpace rest ≠ '\x7d' :: after)
    (hmembers : membersFront? depth .empty (skipSpace rest) = some (t, left)) :
    valueFront? (depth + 1) ('\x7b' :: rest) = some (.obj t, left) := by
  have hfound : (membersFront? depth .empty (skipSpace rest)).map (fun p => (Json.obj p.1, p.2)) =
      some (.obj t, left) := by
    rw [hmembers]
    rfl
  unfold valueFront?
  rw [readValue.eq_4, if_neg (Nat.succ_ne_zero depth)]
  split
  · rename_i after hs
    exact absurd hs (hopen after)
  · rw [← hfound]
    unfold membersFront? Front.found?
    rw [Option.map_map, Option.map_map]
    rfl

theorem read?_of_valueFront? {text : String} {v : Json} {rest : List Char}
    (h : valueFront? 127 (skipSpace text.toList) = some (v, rest)) (hrest : skipSpace rest = []) :
    read? text = some v := by
  obtain ⟨hlength, h⟩ := Front.found?_eq_some h
  rw [read?, readWithin?, h]
  simp only [hrest, List.isEmpty_nil, if_true]

def textLine (e : String × String) : List Char := quote e.1 ++ ':' :: ' ' :: quote e.2

def textMember (e : String × String) : String × Json := (e.1, .str e.2)

theorem prettyMembers_texts (level : Nat) (members : List (String × String)) :
    prettyMembers level (members.map textMember) = members.map textLine := by
  induction members with
  | nil => rfl
  | cons e members ih =>
    rw [List.map_cons, List.map_cons, ← ih]
    rfl

theorem membersFront?_text (depth : Nat) (acc : Table Json) (e : String × String)
    (rest : List Char) :
    membersFront? depth acc (textLine e ++ rest) =
      match skipSpace rest with
      | '\x7d' :: left => some (acc.insert e.1 (.str e.2), left)
      | ',' :: next => membersFront? depth (acc.insert e.1 (.str e.2)) (skipSpace next)
      | _ => none := by
  have htext : textLine e ++ rest = '"' :: (e.1.toList.flatMap escapeChar ++ '"' :: ':' :: ' ' ::
      '"' :: (e.2.toList.flatMap escapeChar ++ '"' :: rest)) := by
    simp [textLine, quote]
  have hname := stringFront?_flatMap e.1.toList [] (':' :: ' ' ::
    '"' :: (e.2.toList.flatMap escapeChar ++ '"' :: rest))
  have hvalue := valueFront?_str depth (stringFront?_flatMap e.2.toList [] rest)
  rw [List.reverse_nil, List.nil_append, String.ofList_toList] at hname hvalue
  rw [htext, membersFront?_member acc hname rfl hvalue]

def textLines (members : List (String × String)) : List Char :=
  joinWith (',' :: newline 1) (members.map textLine)

theorem textLines_cons (e f : String × String) (members : List (String × String)) :
    textLines (e :: f :: members) = textLine e ++ (',' :: newline 1 ++ textLines (f :: members)) :=
  List.append_assoc ..

theorem exists_textLines (e : String × String) (members : List (String × String))
    (rest : List Char) : ∃ text, textLines (e :: members) ++ rest = '"' :: text := by
  cases members with
  | nil => exact ⟨_, rfl⟩
  | cons f members => exact ⟨_, rfl⟩

theorem skipSpace_textLines (e : String × String) (members : List (String × String))
    (rest : List Char) :
    skipSpace (newline 1 ++ (textLines (e :: members) ++ rest)) =
      textLines (e :: members) ++ rest := by
  obtain ⟨text, htext⟩ := exists_textLines e members rest
  rw [htext]
  rfl

theorem membersFront?_texts (depth : Nat) (e : String × String) (members : List (String × String))
    (acc : Table Json) :
    membersFront? depth acc (textLines (e :: members) ++ ['\n', '\x7d']) =
      some (acc.insertAll ((e :: members).map textMember), []) := by
  induction members generalizing e acc with
  | nil =>
    change membersFront? depth acc (textLine e ++ ['\n', '\x7d']) = _
    rw [membersFront?_text]
    rfl
  | cons f members ih =>
    rw [textLines_cons, List.append_assoc, membersFront?_text]
    change membersFront? depth (acc.insert e.1 (.str e.2))
      (skipSpace (newline 1 ++ textLines (f :: members) ++ ['\n', '\x7d'])) = _
    rw [List.append_assoc, skipSpace_textLines, ih]
    rfl

/-- An object of texts reads back from its text over several lines. -/
theorem read?_texts (e : String × String) (members : List (String × String)) :
    read? (Json.obj ⟨(e :: members).map textMember⟩).pretty =
      some (.obj (.ofList ((e :: members).map textMember))) := by
  have htext : (Json.obj ⟨(e :: members).map textMember⟩).pretty.toList =
      '\x7b' :: (newline 1 ++ (textLines (e :: members) ++ ['\n', '\x7d'])) := by
    rw [pretty, String.toList_ofList, prettyChars, prettyMembers_texts]
    simp [bracketLines, textLines, newline]
  have hskip := skipSpace_textLines e members ['\n', '\x7d']
  have hopen (after : List Char) : skipSpace (newline 1 ++ (textLines (e :: members) ++
      ['\n', '\x7d'])) ≠ '\x7d' :: after := by
    obtain ⟨text, hfront⟩ := exists_textLines e members ['\n', '\x7d']
    rw [hskip, hfront]
    rintro ⟨⟩
  have hmembers := membersFront?_texts 126 e members .empty
  rw [← hskip] at hmembers
  have hvalue := valueFront?_obj hopen hmembers
  refine read?_of_valueFront? ?_ (by rfl : skipSpace [] = [])
  rw [htext]
  exact hvalue

end Workflow.Json
