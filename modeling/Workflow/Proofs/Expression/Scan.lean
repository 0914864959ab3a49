import Workflow.Expression.Eval
import Mathlib.Data.List.TakeWhile

/-!
# How a text is cut

A token is cut off a text without regard to what follows, as long as that cannot continue the
token. Only a word and a number take as much as they can; a string literal, a parenthesis and an
operator show where they end.
-/
namespace Workflow.Expression

theorem scan_token {c : Char} {rest after : List Char} {t : Token} (hb : Text.isBlank c = false)
    (ht : scanToken c rest = .ok (t, after)) : scan (c :: rest) = (scan after).map (t :: ·) := by
  rw [scan.eq_def]
  dsimp only
  rw [if_neg (by simp [hb])]
  split
  · rename_i h
    cases ht.symm.trans h
  · rename_i h
    cases ht.symm.trans h
    rfl

theorem scan_blank {c : Char} (rest : List Char) (hb : Text.isBlank c = true) :
    scan (c :: rest) = scan rest := by
  rw [scan.eq_def]
  dsimp only
  rw [if_pos hb]

/-- A text that continues neither a word nor a number. -/
def Delimited (rest : List Char) : Prop :=
  ∀ c ∈ rest.head?, isSegmentChar c = false ∧ c ≠ '.'

/-- A text that starts with no character of a kind, if it starts with any. -/
def Stops (p : Char → Bool) (rest : List Char) : Prop := ∀ c ∈ rest.head?, p c = false

theorem Stops.takeWhile_append {p : Char → Bool} {cs rest : List Char} (hrest : Stops p rest)
    (hcs : ∀ c ∈ cs, p c = true) : (cs ++ rest).takeWhile p = cs := by
  rw [List.takeWhile_append_of_pos hcs]
  cases rest with
  | nil => exact List.append_nil cs
  | cons c rest => rw [List.takeWhile_cons_of_neg (by simp [hrest c rfl]), List.append_nil]

theorem Stops.dropWhile_append {p : Char → Bool} {cs rest : List Char} (hrest : Stops p rest)
    (hcs : ∀ c ∈ cs, p c = true) : (cs ++ rest).dropWhile p = rest := by
  rw [List.dropWhile_append_of_pos hcs]
  cases rest with
  | nil => rfl
  | cons c rest => rw [List.dropWhile_cons_of_neg (by simp [hrest c rfl])]

theorem isDigit_bounds {c : Char} (h : c.isDigit = true) :
    '0'.toNat ≤ c.toNat ∧ c.toNat ≤ '9'.toNat := by
  rw [Char.isDigit, Bool.and_eq_true, decide_eq_true_iff, decide_eq_true_iff] at h
  exact ⟨UInt32.le_iff_toNat_le.mp h.1, UInt32.le_iff_toNat_le.mp h.2⟩

theorem isBlank_of_isDigit {c : Char} (h : c.isDigit = true) : Text.isBlank c = false := by
  have hdigits : ∀ n ≤ '9'.toNat, '0'.toNat ≤ n → Text.isBlank (Char.ofNat n) = false := by decide
  obtain ⟨hzero, hnine⟩ := isDigit_bounds h
  rw [← Char.ofNat_toNat c]
  exact hdigits c.toNat hnine hzero

theorem isSegmentChar_of_isDigit {c : Char} (h : c.isDigit = true) : isSegmentChar c = true := by
  have hdigit : Text.isAsciiDigit c = true := h
  simp [isSegmentChar, Text.isAlphanumeric, Text.isNumeric, hdigit]

/-- No digit starts a word: what does comes after the digits. -/
theorem isDigit_of_isWordStart {c : Char} (h : isWordStart c = true) : c.isDigit = false := by
  have hword : '9'.toNat < c.toNat := by
    simp only [isWordStart, Text.isAlphabetic, Text.isAsciiLetter, Bool.or_eq_true,
      Bool.and_eq_true, decide_eq_true_iff, beq_iff_eq] at h
    obtain ((⟨hlower, -⟩ | ⟨hupper, -⟩) | ⟨hascii, -⟩) | rfl := h
    · exact Nat.lt_of_lt_of_le (m := 'a'.toNat) (by decide) (UInt32.le_iff_toNat_le.mp hlower)
    · exact Nat.lt_of_lt_of_le (m := 'A'.toNat) (by decide) (UInt32.le_iff_toNat_le.mp hupper)
    · exact Nat.lt_trans (m := '\x7f'.toNat) (by decide) (UInt32.lt_iff_toNat_lt.mp hascii)
    · decide
  rw [← Bool.not_eq_true]
  exact fun hdigit => absurd (isDigit_bounds hdigit).2 (Nat.not_le_of_lt hword)

namespace Delimited
variable {rest : List Char} (h : Delimited rest)
include h

theorem segment : Stops isSegmentChar rest := fun c hc => (h c hc).1

theorem digit : Stops Char.isDigit rest := by
  intro c hc
  have hsegment := (h c hc).1
  by_contra hdigit
  rw [isSegmentChar_of_isDigit (by simpa using hdigit)] at hsegment
  cases hsegment

theorem fraction : fractionDigits rest = [] := by
  unfold fractionDigits
  split
  · exact absurd rfl (h '.' rfl).2
  · rfl

theorem scanSegments : scanSegments rest = ([], rest) := by
  unfold Expression.scanSegments
  split
  · exact absurd rfl (h '.' rfl).2
  · rfl

end Delimited

/-- A segment of a path: at least one character that continues a segment, and no other. -/
def IsSegment (s : String) : Prop := s.toList ≠ [] ∧ ∀ c ∈ s.toList, isSegmentChar c = true

/-- The keys of a path as they are written after its root. -/
def keysText (keys : List String) : List Char := keys.flatMap fun key => '.' :: key.toList

theorem pathText_toList (keys : List String) :
    (pathText keys).toList = contextRoot.toList ++ keysText keys := by
  rw [pathText, String.toList_intercalate, List.map_cons]
  generalize contextRoot.toList = root
  induction keys generalizing root with
  | nil => simp [keysText]
  | cons key keys ih =>
    rw [List.map_cons, List.intercalate_cons_cons, ih]
    simp [keysText]

theorem stops_keysText (keys : List String) {rest : List Char} (hrest : Delimited rest) :
    Stops isSegmentChar (keysText keys ++ rest) := by
  cases keys with
  | nil => exact hrest.segment
  | cons => rintro _ ⟨⟩; decide

/-- The keys of a path are read up to the text after them. -/
theorem scanSegments_keysText {keys : List String} {rest : List Char}
    (hkeys : ∀ key ∈ keys, IsSegment key) (hrest : Delimited rest) :
    scanSegments (keysText keys ++ rest) = (keys, rest) := by
  induction keys with
  | nil => exact hrest.scanSegments
  | cons key keys ih =>
    obtain ⟨hne, hkey⟩ := hkeys key List.mem_cons_self
    have hstop := stops_keysText keys hrest
    have htext : keysText (key :: keys) ++ rest =
        '.' :: (key.toList ++ (keysText keys ++ rest)) := by simp [keysText]
    rw [htext, scanSegments, hstop.takeWhile_append hkey, hstop.dropWhile_append hkey,
      ih fun k hk => hkeys k (List.mem_cons_of_mem key hk), if_neg (by simpa using hne)]
    simp

/-- A word and the keys after it are one token. -/
theorem scanToken_word {c : Char} {cs rest : List Char} {keys : List String}
    (hc : isWordStart c = true) (hcs : cs.all isSegmentChar = true)
    (hkeys : ∀ key ∈ keys, IsSegment key) (hrest : Delimited rest) :
    scanToken c (cs ++ (keysText keys ++ rest)) =
      .ok (wordToken (String.ofList (c :: cs) :: keys), rest) := by
  have hne : ∀ x, isWordStart x = false → c ≠ x := fun x hx h => by simp [← h, hc] at hx
  have hstop := stops_keysText keys hrest
  have hword := List.all_eq_true.mp hcs
  rw [scanToken, if_neg (hne _ (by decide)), if_neg (hne _ (by decide)),
    if_neg (not_or.mpr ⟨hne _ (by decide), hne _ (by decide)⟩),
    if_neg (by simp [isDigit_of_isWordStart hc]), if_pos hc, hstop.takeWhile_append hword,
    hstop.dropWhile_append hword, scanSegments_keysText hkeys hrest]

/-- Digits are one token, if 64 bits hold their number. -/
theorem scanToken_digits {c : Char} {cs rest : List Char}
    (hcs : ∀ x ∈ c :: cs, x.isDigit = true)
    (hn : Number.isSigned (Decimal.natOfDigits (c :: cs)) = true) (hrest : Delimited rest) :
    scanToken c (cs ++ rest) = .ok (.literal (.nat (Decimal.natOfDigits (c :: cs))), rest) := by
  have hc : c.isDigit = true := hcs c List.mem_cons_self
  have hne : ∀ x : Char, x.isDigit = false → c ≠ x := fun x hx h => by simp [← h, hc] at hx
  have hnumber : scanNumber (c :: (cs ++ rest)) =
      .ok (.nat (Decimal.natOfDigits (c :: cs)), rest) := by
    rw [scanNumber, ← List.cons_append, hrest.digit.takeWhile_append hcs,
      hrest.digit.dropWhile_append hcs]
    simp only [hrest.fraction, if_pos hn]
  rw [scanToken, if_neg (hne _ (by decide)), if_neg (hne _ (by decide)),
    if_neg (not_or.mpr ⟨hne _ (by decide), hne _ (by decide)⟩), if_pos hc, hnumber]
  rfl

theorem ofTokens_path (keys : List String) :
    ofTokens [.path (contextRoot :: keys)] = .ok (.path keys) := by
  simp [ofTokens, chain, operand, unary, primary, chainTail, Parsed.widen, bind, Except.bind,
    Except.map, pure, Except.pure]

/-- The value of a path is what its keys lead to. -/
theorem evaluate_keys {keys : List String} (hkeys : ∀ key ∈ keys, IsSegment key)
    (context : Table Json) : evaluate (pathText keys) context = lookup keys context := by
  have htext : (pathText keys).toList = 'c' :: ("ontext".toList ++ (keysText keys ++ [])) := by
    rw [pathText_toList, List.append_nil]
    rfl
  have htoken : scanToken 'c' ("ontext".toList ++ (keysText keys ++ [])) =
      .ok (.path (contextRoot :: keys), []) := by
    rw [scanToken_word (by decide) (by decide) hkeys fun _ hc => absurd hc (Option.not_mem_none _)]
    cases keys <;> rfl
  rw [evaluate, parse, htext, scan_token (by decide) htoken, scan.eq_def]
  simp only [Except.map, ofTokens_path]
  rfl

/-- The value of a path with one key is the value of the key. -/
theorem evaluate_path (key : List Char) (hne : key ≠ []) (hk : key.all isSegmentChar = true)
    (context : Table Json) :
    evaluate (contextRoot ++ "." ++ String.ofList key) context =
      lookup [String.ofList key] context := by
  have htext : contextRoot ++ "." ++ String.ofList key = pathText [String.ofList key] := by
    apply String.toList_injective
    simp [pathText_toList, keysText]
  rw [htext, evaluate_keys]
  simpa [IsSegment, hne] using List.all_eq_true.mp hk

end Workflow.Expression
