import Workflow.Proofs.Expression.Parser
import Workflow.Proofs.Expression.Scan
import Workflow.Expression.Eval

/-!
# Expressions that are written and read back

An expression is written with a pair of parentheses around each operation, which the whole can do
without, and a blank on both sides of each operator, so that its text says how it groups. The text
is cut into the tokens that it was written from, and these derive the expression and no other. Each
operation opens two levels at most, one for its parentheses and one for its operator, so half of the
levels bound the height.
-/
namespace Workflow.Expression

/-- The marks that a string may stand between. -/
inductive Quote where
  | single
  | double
  deriving DecidableEq, Repr

def Quote.mark : Quote → Char
  | single => '\''
  | double => '"'

/-- A character in a string literal: quotation marks and backslashes are escaped. -/
def escape (c : Char) : List Char :=
  if c = '\\' ∨ c = '\'' ∨ c = '"' then ['\\', c] else [c]

/-- A literal. Strings are quoted, all other values stand for themselves. -/
def literalText (q : Quote) : Json → List Char
  | .str s => q.mark :: (s.toList.flatMap escape ++ [q.mark])
  | v => v.compactChars

def characters (q : Quote) : Expression → List Char
  | literal v => literalText q v
  | path keys => (pathText keys).toList
  | negate e => '(' :: '-' :: (characters q e ++ [')'])
  | binary o l r =>
    '(' :: (characters q l ++ ' ' :: (o.symbol.toList ++ ' ' :: (characters q r ++ [')'])))

/-- The characters of an expression without parentheses around the whole. -/
def bare (q : Quote) : Expression → List Char
  | negate e => '-' :: characters q e
  | binary o l r => characters q l ++ ' ' :: (o.symbol.toList ++ ' ' :: characters q r)
  | e => characters q e

/-- An expression as text, with its strings between the given marks, and enclosed in parentheses or
not. -/
def text (q : Quote) (enclosed : Bool) (e : Expression) : String :=
  String.ofList (if enclosed then characters q e else bare q e)

def height : Expression → Nat
  | literal _ => 0
  | path _ => 0
  | negate e => height e + 1
  | binary _ l r => max (height l) (height r) + 1

/-- The expressions that have a text: literals are null, booleans, natural numbers of 63 bits and
strings, and the keys of paths are words of ASCII. -/
inductive Written : Expression → Prop where
  | null : Written (.literal .null)
  | bool (b : Bool) : Written (.literal (.bool b))
  | nat {n : Nat} : n ≤ 9223372036854775807 → Written (.literal (.nat n))
  | string (s : String) : Written (.literal (.str s))
  | path {keys : List String} : (∀ key ∈ keys, key ≠ "" ∧ key.toList.all Text.isAsciiWord = true) →
      Written (.path keys)
  | negate {e} : Written e → Written (.negate e)
  | binary {l r} (o : BinaryOp) : Written l → Written r → Written (.binary o l r)

def tokens : Expression → List Token
  | literal v => [.literal v]
  | path keys => [.path (contextRoot :: keys)]
  | negate e => .lparen :: .op .sub :: (tokens e ++ [.rparen])
  | binary o l r => .lparen :: (tokens l ++ .op o :: (tokens r ++ [.rparen]))

/-- The tokens of an expression without parentheses around the whole. -/
def bareTokens : Expression → List Token
  | negate e => .op .sub :: tokens e
  | binary o l r => tokens l ++ .op o :: tokens r
  | e => tokens e

section Scanning
variable {c : Char} {cs rest after : List Char} {ts us : List Token} {t : Token} {s : String}

theorem scan_next (hb : Text.isBlank c = false) (ht : scanToken c rest = .ok (t, after))
    (hafter : scan after = .ok us) : scan (c :: rest) = .ok (t :: us) := by
  rw [scan_token hb ht, hafter]
  rfl

theorem delimited_blank (rest : List Char) : Delimited (' ' :: rest) := by
  rintro _ ⟨⟩
  decide

theorem delimited_close (rest : List Char) : Delimited (')' :: rest) := by
  rintro _ ⟨⟩
  decide

/-- A string is read back from its literal up to the mark that ends it. -/
theorem scanString_escape (q : Quote) (cs rest : List Char) :
    scanString q.mark (cs.flatMap escape ++ q.mark :: rest) = .ok (cs, rest) := by
  have hslash : '\\' ≠ q.mark := by cases q <;> decide
  induction cs with
  | nil => rw [List.flatMap_nil, List.nil_append, scanString.eq_def]; simp
  | cons c cs ih =>
    rw [List.flatMap_cons, List.append_assoc, escape]
    split
    · rename_i hc
      have hsame : unescape c = c := by obtain rfl | rfl | rfl := hc <;> decide
      rw [List.cons_append, List.cons_append, List.nil_append, scanString, if_neg hslash,
        if_pos rfl]
      simp only [ih, hsame]
      rfl
    · rename_i hc
      obtain ⟨hc, hsingle, hdouble⟩ : c ≠ '\\' ∧ c ≠ '\'' ∧ c ≠ '"' := by simpa using hc
      have hmark : c ≠ q.mark := by cases q <;> assumption
      rw [List.cons_append, List.nil_append, scanString.eq_def]
      simp only [if_neg hmark, if_neg hc, ih]
      rfl

theorem scan_string (q : Quote) (s : String) (hrest : scan rest = .ok us) :
    scan (literalText q (.str s) ++ rest) = .ok (.literal (.str s) :: us) := by
  have htoken : scanToken q.mark (s.toList.flatMap escape ++ q.mark :: rest) =
      .ok (.literal (.str s), rest) := by
    have hmark : q.mark = '\'' ∨ q.mark = '"' := by cases q <;> decide
    rw [scanToken, if_neg (by cases q <;> decide), if_neg (by cases q <;> decide), if_pos hmark,
      scanString_escape]
    simp [Except.map]
  have hblank : Text.isBlank q.mark = false := by cases q <;> decide
  simpa [literalText] using scan_next hblank htoken hrest

theorem natOfDigits_toDigits (n : Nat) : Decimal.natOfDigits (Nat.toDigits 10 n) = n := by
  rw [Decimal.natOfDigits]
  simpa [Nat.ofDigitChars_eq_foldl, Nat.mul_comm] using Nat.ofDigitChars_ten_toDigits (n := n)

theorem scan_nat {n : Nat} (hn : n ≤ 9223372036854775807) (hrest : scan rest = .ok us)
    (hdelimited : Delimited rest) :
    scan (Nat.toDigits 10 n ++ rest) = .ok (.literal (.nat n) :: us) := by
  have hdigits : ∀ x ∈ Nat.toDigits 10 n, x.isDigit = true := fun x hx =>
    Nat.isDigit_of_mem_toDigits (by decide) (by decide) hx
  have hvalue := natOfDigits_toDigits n
  obtain ⟨c, cs, hcs⟩ := List.exists_cons_of_ne_nil (Nat.toDigits_ne_nil (n := n) (b := 10))
  rw [hcs] at hdigits hvalue ⊢
  have hsigned : Number.isSigned (Decimal.natOfDigits (c :: cs)) = true := by
    rw [hvalue, Number.isSigned, Number.minSigned, Number.maxSigned]
    simp
    omega
  have htoken := scanToken_digits hdigits hsigned hdelimited
  rw [hvalue] at htoken
  exact scan_next (isBlank_of_isDigit (hdigits c List.mem_cons_self)) htoken hrest

/-- The words that are literals, which no key follows. -/
theorem scan_literal (c : Char) (cs : List Char) (hb : Text.isBlank c = false)
    (hc : isWordStart c = true) (hcs : cs.all isSegmentChar = true)
    (hrest : scan rest = .ok us) (hdelimited : Delimited rest) :
    scan (c :: cs ++ rest) = .ok (wordToken [String.ofList (c :: cs)] :: us) := by
  have htoken : scanToken c (cs ++ (keysText [] ++ rest)) =
      .ok (wordToken [String.ofList (c :: cs)], rest) := scanToken_word hc hcs nofun hdelimited
  exact scan_next hb htoken hrest

theorem isSegment_of_written {key : String}
    (h : key ≠ "" ∧ key.toList.all Text.isAsciiWord = true) : IsSegment key := by
  refine ⟨by simpa using h.1, fun c hc => ?_⟩
  have hword := List.all_eq_true.mp h.2 c hc
  simp only [Text.isAsciiWord, Bool.or_eq_true] at hword
  obtain (hletter | hdigit) | hunder := hword
  · simp [isSegmentChar, Text.isAlphanumeric, Text.isAlphabetic, hletter]
  · exact isSegmentChar_of_isDigit hdigit
  · simp [isSegmentChar, hunder]

theorem scan_path {keys : List String} (hkeys : ∀ key ∈ keys, IsSegment key)
    (hrest : scan rest = .ok us) (hdelimited : Delimited rest) :
    scan ((pathText keys).toList ++ rest) = .ok (.path (contextRoot :: keys) :: us) := by
  have htoken : scanToken 'c' ("ontext".toList ++ (keysText keys ++ rest)) =
      .ok (.path (contextRoot :: keys), rest) :=
    scanToken_word (by decide) (by decide) hkeys hdelimited
  rw [pathText_toList, List.append_assoc]
  exact scan_next (by decide) htoken hrest

theorem scan_operator (o : BinaryOp) (hrest : scan rest = .ok us) :
    scan (o.symbol.toList ++ ' ' :: rest) = .ok (.op o :: us) := by
  have hblank : scan (' ' :: rest) = .ok us := by rw [scan_blank rest (by decide), hrest]
  cases o <;> exact scan_next (by decide) rfl hblank

theorem scan_minus (hrest : scan rest = .ok us) : scan ('-' :: rest) = .ok (.op .sub :: us) :=
  scan_next (by decide) rfl hrest

theorem scan_open (hrest : scan rest = .ok us) : scan ('(' :: rest) = .ok (.lparen :: us) :=
  scan_next (by decide) rfl hrest

theorem scan_close (hrest : scan rest = .ok us) : scan (')' :: rest) = .ok (.rparen :: us) :=
  scan_next (by decide) rfl hrest

/-- The text of an expression is cut into the tokens of the expression, whatever follows that
continues no word and no number. -/
theorem scan_characters (q : Quote) {e : Expression} (he : Written e)
    (hrest : scan rest = .ok us) (hdelimited : Delimited rest) :
    scan (characters q e ++ rest) = .ok (tokens e ++ us) := by
  induction he generalizing rest us with
  | null =>
    exact scan_literal 'n' "ull".toList (by decide) (by decide) (by decide) hrest hdelimited
  | bool b =>
    cases b with
    | false =>
      exact scan_literal 'f' "alse".toList (by decide) (by decide) (by decide) hrest hdelimited
    | true =>
      exact scan_literal 't' "rue".toList (by decide) (by decide) (by decide) hrest hdelimited
  | nat hn => exact scan_nat hn hrest hdelimited
  | string s => exact scan_string q s hrest
  | path hkeys =>
    exact scan_path (fun key hkey => isSegment_of_written (hkeys key hkey)) hrest hdelimited
  | @negate e _ ih =>
    have hclose := ih (scan_close hrest) (delimited_close rest)
    simpa [characters, tokens] using scan_open (scan_minus hclose)
  | @binary l r o _ _ ihl ihr =>
    have hright := ihr (scan_close hrest) (delimited_close rest)
    have hop := scan_operator o hright
    have hleft := ihl ((scan_blank _ (by decide)).trans hop) (delimited_blank _)
    simpa [characters, tokens] using scan_open hleft

theorem scan_alone (q : Quote) {e : Expression} (he : Written e) :
    scan (characters q e) = .ok (tokens e) := by
  have hend : scan [] = .ok [] := by rw [scan.eq_def]
  have hall := scan_characters q he hend nofun
  rwa [List.append_nil, List.append_nil] at hall

theorem scan_bare (q : Quote) {e : Expression} (he : Written e) :
    scan (bare q e) = .ok (bareTokens e) := by
  cases he with
  | negate he => exact scan_minus (scan_alone q he)
  | binary o hl hr =>
    have hop := scan_operator o (scan_alone q hr)
    exact scan_characters q hl ((scan_blank _ (by decide)).trans hop) (delimited_blank _)
  | null => exact scan_alone q .null
  | bool b => exact scan_alone q (.bool b)
  | nat hn => exact scan_alone q (.nat hn)
  | string s => exact scan_alone q (.string s)
  | path hkeys => exact scan_alone q (.path hkeys)

end Scanning

namespace Derivation
variable {p : Precedence} {ts us : List Token} {e l r : Expression}

/-- An operand is a chain without links. -/
theorem exists_chain (d : Derivation (Form.operand p) ts e) :
    ∃ d' : Derivation (.chain p) ts e, d'.levels = d.levels := by
  have halone : ∃ d' : Derivation (.chain p) (ts ++ []) e, d'.levels = d.levels :=
    ⟨.chain d .done, Nat.max_zero _⟩
  rwa [List.append_nil] at halone

/-- A chain is a chain of every looser precedence, and so the operand of one. -/
theorem exists_comparison (d : Derivation (.chain p) ts e) :
    ∃ d' : Derivation (.chain .comparison) ts e, d'.levels = d.levels := by
  cases p with
  | comparison => exact ⟨d, rfl⟩
  | sum => exact exists_chain (p := .comparison) d
  | product =>
    obtain ⟨s, hs⟩ := exists_chain (p := .sum) d
    obtain ⟨c, hc⟩ := exists_chain (p := .comparison) s
    exact ⟨c, hc.trans hs⟩

theorem exists_operand (d : Derivation .unary ts e) (p : Precedence) :
    ∃ d' : Derivation (Form.operand p) ts e, d'.levels = d.levels := by
  have hsum : ∃ d' : Derivation (Form.operand .sum) ts e, d'.levels = d.levels :=
    exists_chain (p := .product) d
  cases p with
  | product => exact ⟨d, rfl⟩
  | sum => exact hsum
  | comparison =>
    obtain ⟨s, hs⟩ := hsum
    obtain ⟨c, hc⟩ := exists_chain (p := .sum) s
    exact ⟨c, hc.trans hs⟩

/-- What is derived as an operand without links is a whole expression. -/
theorem exists_whole (d : Derivation .unary ts e) :
    ∃ whole : Derivation (.chain .comparison) ts e, whole.levels = d.levels := by
  obtain ⟨product, hproduct⟩ := exists_chain (p := .product) d
  obtain ⟨whole, hwhole⟩ := product.exists_comparison
  exact ⟨whole, hwhole.trans hproduct⟩

/-- An operator between two primaries makes up a whole expression with them. -/
theorem exists_binary (o : BinaryOp) (d : Derivation .primary ts l)
    (d' : Derivation .primary us r) :
    ∃ whole : Derivation (.chain .comparison) (ts ++ .op o :: us) (.binary o l r),
      whole.levels = max d.levels (d'.levels + 1) := by
  obtain ⟨left, hleft⟩ := (Derivation.unsigned d).exists_operand o.precedence
  obtain ⟨right, hright⟩ := (Derivation.unsigned d').exists_operand o.precedence
  have hlinked : ∃ whole : Derivation (.chain .comparison) (ts ++ .op o :: (us ++ []))
      (.binary o l r), whole.levels = max d.levels (d'.levels + 1) := by
    obtain ⟨whole, hwhole⟩ := (Derivation.chain left (.link rfl right .done)).exists_comparison
    refine ⟨whole, hwhole.trans ?_⟩
    rw [levels, levels, levels, hleft, hright, Nat.max_zero]
    rfl
  rwa [List.append_nil] at hlinked

end Derivation

/-- The tokens of an expression derive it, with two levels for each operation at most. -/
theorem derived_tokens (e : Expression) :
    ∃ d : Derivation .primary (tokens e) e, d.levels ≤ 2 * height e := by
  induction e with
  | literal v => exact ⟨.literal v, Nat.le_refl _⟩
  | path keys => exact ⟨.path keys, Nat.le_refl _⟩
  | negate e ih =>
    obtain ⟨d, hd⟩ := ih
    obtain ⟨whole, hwhole⟩ := (Derivation.negate (.unsigned d)).exists_whole
    refine ⟨.group whole, ?_⟩
    simp only [Derivation.levels, height] at *
    omega
  | binary o l r ihl ihr =>
    obtain ⟨dl, hl⟩ := ihl
    obtain ⟨dr, hr⟩ := ihr
    obtain ⟨whole, hwhole⟩ := Derivation.exists_binary o dl dr
    have htokens : tokens (.binary o l r) =
        .lparen :: ((tokens l ++ .op o :: tokens r) ++ [.rparen]) := by simp [tokens]
    rw [htokens]
    refine ⟨.group whole, ?_⟩
    simp only [Derivation.levels, height]
    omega

theorem derived_bareTokens (e : Expression) :
    ∃ d : Derivation (.chain .comparison) (bareTokens e) e, d.levels ≤ 2 * height e := by
  cases e with
  | literal v =>
    obtain ⟨whole, hwhole⟩ := (Derivation.unsigned (.literal v)).exists_whole
    exact ⟨whole, Nat.le_of_eq hwhole⟩
  | path keys =>
    obtain ⟨whole, hwhole⟩ := (Derivation.unsigned (.path keys)).exists_whole
    exact ⟨whole, Nat.le_of_eq hwhole⟩
  | negate e =>
    obtain ⟨d, hd⟩ := derived_tokens e
    obtain ⟨whole, hwhole⟩ := (Derivation.negate (.unsigned d)).exists_whole
    have hle : d.levels + 1 ≤ 2 * (height e + 1) := by omega
    exact ⟨whole, hwhole.trans_le hle⟩
  | binary o l r =>
    obtain ⟨dl, hl⟩ := derived_tokens l
    obtain ⟨dr, hr⟩ := derived_tokens r
    obtain ⟨whole, hwhole⟩ := Derivation.exists_binary o dl dr
    have hle : max dl.levels (dr.levels + 1) ≤ 2 * (max (height l) (height r) + 1) := by omega
    exact ⟨whole, hwhole.trans_le hle⟩

/-- The text of an expression is parsed to the expression, if it has no more than half as many
operations inside each other as there are levels. -/
theorem parse_text (q : Quote) (enclosed : Bool) {e : Expression} (he : Written e)
    (hheight : 2 * height e ≤ maxNesting) : parse (text q enclosed e) = .ok e := by
  obtain ⟨ts, hscan, d, hd⟩ : ∃ ts, scan (text q enclosed e).toList = .ok ts ∧
      ∃ d : Derivation (.chain .comparison) ts e, d.levels ≤ 2 * height e := by
    rw [text, String.toList_ofList]
    cases enclosed with
    | false => exact ⟨_, scan_bare q he, derived_bareTokens e⟩
    | true =>
      obtain ⟨d, hd⟩ := derived_tokens e
      obtain ⟨whole, hwhole⟩ := (Derivation.unsigned d).exists_whole
      exact ⟨_, scan_alone q he, whole, hwhole.trans_le hd⟩
  simp only [parse, hscan, ofTokens_derived d, if_pos (Nat.le_trans hd hheight)]
  rfl

/-- **Written and read back.** An expression with at most 32 operations inside each other is parsed
from its text, which so has the value of the expression in every context. The text may have
parentheses around the whole or none. -/
theorem text_parsed (q : Quote) (enclosed : Bool) (e : Expression) (he : Written e)
    (hheight : height e ≤ 32) : parse (text q enclosed e) = .ok e ∧
      ∀ context, evaluate (text q enclosed e) context = eval context e := by
  have hparse := parse_text q enclosed he (Nat.mul_le_mul_left 2 hheight)
  refine ⟨hparse, fun context => ?_⟩
  rw [evaluate, hparse]
  rfl

/-- A path below a minus sign, a string with a quotation mark and the greatest number are read. -/
theorem text_parsed_nested :
    parse "((-context.rows.0) < ('it\\'s' + 9223372036854775807))" =
        .ok (.binary .lt (.negate (.path ["rows", "0"]))
          (.binary .add (.literal (.str "it's")) (.literal (.nat 9223372036854775807)))) ∧
      ∀ context, evaluate "((-context.rows.0) < ('it\\'s' + 9223372036854775807))" context =
        eval context (.binary .lt (.negate (.path ["rows", "0"]))
          (.binary .add (.literal (.str "it's")) (.literal (.nat 9223372036854775807)))) := by
  have hwritten : Written (.binary .lt (.negate (.path ["rows", "0"]))
      (.binary .add (.literal (.str "it's")) (.literal (.nat 9223372036854775807)))) :=
    .binary .lt (.negate (.path (by decide))) (.binary .add (.string _) (.nat (by decide)))
  have htext : text .single true (.binary .lt (.negate (.path ["rows", "0"]))
      (.binary .add (.literal (.str "it's")) (.literal (.nat 9223372036854775807)))) =
        "((-context.rows.0) < ('it\\'s' + 9223372036854775807))" := by rfl
  have hparsed := text_parsed .single true _ hwritten (by decide)
  rwa [htext] at hparsed

end Workflow.Expression
