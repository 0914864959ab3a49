import Mathlib.Data.List.Permutation
import Workflow.Expression.Template
import Workflow.Proofs.Expression.Scan
import Workflow.Proofs.Attempt

/-!
# Where a template ends

A template ends at the first closing brace that stands in no string literal. The search for this
brace passes string literals as the lexer does, so that every text that can be cut into tokens is
passed as a whole, whatever stands in its literals, and the brace after it ends the template.
-/
namespace Workflow.Expression

/-- What stands between the marks of a string literal. A backslash takes the next character with
it, and the mark stands nowhere else. -/
inductive Quoted (mark : Char) : List Char → Prop where
  | nil : Quoted mark []
  | plain {c cs} : c ≠ mark → c ≠ '\\' → Quoted mark cs → Quoted mark (c :: cs)
  | escaped (c : Char) {cs} : Quoted mark cs → Quoted mark ('\\' :: c :: cs)

/-- A character that begins a string literal. -/
def IsMark (c : Char) : Prop := c = '\'' ∨ c = '"'

/-- A text in which every string literal ends and no closing brace stands outside of one. -/
inductive Braceless : List Char → Prop where
  | nil : Braceless []
  | plain {c cs} : ¬IsMark c → c ≠ '\x7d' → Braceless cs → Braceless (c :: cs)
  | literal {mark body cs} : IsMark mark → Quoted mark body → Braceless cs →
      Braceless (mark :: (body ++ mark :: cs))

theorem IsMark.ne_backslash {c : Char} (h : IsMark c) : c ≠ '\\' := by
  rcases h with rfl | rfl <;> decide

theorem Braceless.append_plain {cs : List Char} (h : Braceless cs) {taken : List Char}
    (htaken : ∀ c ∈ taken, ¬IsMark c ∧ c ≠ '\x7d') : Braceless (taken ++ cs) := by
  induction taken with
  | nil => exact h
  | cons c taken ih =>
    obtain ⟨hmark, hbrace⟩ := htaken c List.mem_cons_self
    exact .plain hmark hbrace (ih fun x hx => htaken x (List.mem_cons_of_mem c hx))

section
variable {mark : Char} {body cs inner rest : List Char}

/-- Within a literal the search goes on to its end. -/
theorem splitAtBrace_quoted (hmark : mark ≠ '\\') (h : Quoted mark body) (cs : List Char) :
    splitAtBrace (.inside mark) (body ++ mark :: cs) =
      (splitAtBrace .outside cs).map fun p => (body ++ mark :: p.1, p.2) := by
  induction h with
  | nil => simp [splitAtBrace, hmark]
  | plain hc hslash _ ih => simp [splitAtBrace, hc, hslash, ih, Function.comp_def]
  | escaped c _ ih => simp [splitAtBrace, ih, Function.comp_def]

theorem Braceless.splitAtBrace (h : Braceless inner) (rest : List Char) :
    splitAtBrace .outside (inner ++ '\x7d' :: rest) = some (inner, rest) := by
  induction h with
  | nil => rfl
  | plain hmark hbrace _ ih =>
    rw [List.cons_append, Expression.splitAtBrace]
    simp only [if_neg (show ¬(_ = '\'' ∨ _ = '"') from hmark), if_neg hbrace, ih]
    rfl
  | literal hmark hbody _ ih =>
    rw [List.cons_append, List.append_assoc, List.cons_append, Expression.splitAtBrace]
    simp only [if_pos (show _ = '\'' ∨ _ = '"' from hmark),
      splitAtBrace_quoted hmark.ne_backslash hbody, ih]
    rfl

/-- What the search has passed when it finds the brace, by the state in which it began. -/
def Scan.Passes : Scan → List Char → Prop
  | outside, cs => Braceless cs
  | inside mark, cs => ∃ body rest, cs = body ++ mark :: rest ∧ Quoted mark body ∧ Braceless rest
  | escaped mark, cs =>
    ∃ c body rest, cs = c :: (body ++ mark :: rest) ∧ Quoted mark body ∧ Braceless rest

/-- What is before the brace that the search finds is what it has passed. -/
theorem splitAtBrace_passes {state : Scan} (h : splitAtBrace state cs = some (inner, rest)) :
    state.Passes inner ∧ cs = inner ++ '\x7d' :: rest := by
  induction cs generalizing state inner with
  | nil => cases state <;> cases h
  | cons c cs ih =>
    have later {next : Scan} (h : (splitAtBrace next cs).map (fun p => (c :: p.1, p.2)) =
        some (inner, rest)) : ∃ more, inner = c :: more ∧ next.Passes more ∧
          cs = more ++ '\x7d' :: rest := by
      obtain ⟨⟨more, _⟩, hmore, heq⟩ := Option.map_eq_some_iff.mp h
      obtain ⟨rfl, rfl⟩ := Prod.mk.inj heq
      exact ⟨more, rfl, ih hmore⟩
    rw [splitAtBrace.eq_def] at h
    cases state with
    | outside =>
      dsimp only at h
      by_cases hmark : c = '\'' ∨ c = '"'
      · simp only [if_pos hmark] at h
        obtain ⟨_, rfl, ⟨body, after, rfl, hbody, hafter⟩, rfl⟩ := later h
        exact ⟨.literal hmark hbody hafter, rfl⟩
      · simp only [if_neg hmark] at h
        by_cases hbrace : c = '\x7d'
        · simp only [if_pos hbrace] at h
          cases h
          exact ⟨.nil, by rw [hbrace]; rfl⟩
        · simp only [if_neg hbrace] at h
          obtain ⟨more, rfl, hmore, rfl⟩ := later h
          exact ⟨.plain hmark hbrace hmore, rfl⟩
    | inside mark =>
      dsimp only at h
      by_cases hslash : c = '\\'
      · simp only [if_pos hslash] at h
        obtain ⟨_, rfl, ⟨e, body, after, rfl, hbody, hafter⟩, rfl⟩ := later h
        exact ⟨⟨c :: e :: body, after, rfl, hslash ▸ .escaped e hbody, hafter⟩, rfl⟩
      · simp only [if_neg hslash] at h
        by_cases hmark : c = mark
        · simp only [if_pos hmark] at h
          obtain ⟨more, rfl, hmore, rfl⟩ := later h
          exact ⟨⟨[], more, by rw [hmark]; rfl, .nil, hmore⟩, rfl⟩
        · simp only [if_neg hmark] at h
          obtain ⟨_, rfl, ⟨body, after, rfl, hbody, hafter⟩, rfl⟩ := later h
          exact ⟨⟨c :: body, after, rfl, .plain hmark hslash hbody, hafter⟩, rfl⟩
    | escaped mark =>
      obtain ⟨_, rfl, ⟨body, after, rfl, hbody, hafter⟩, rfl⟩ := later h
      exact ⟨⟨c, body, after, rfl, hbody, hafter⟩, rfl⟩

theorem scanString_quoted {s : List Char} (h : scanString mark cs = .ok (s, rest)) :
    ∃ body, cs = body ++ mark :: rest ∧ Quoted mark body := by
  fun_induction scanString mark cs generalizing s with
  | case1 => cases h
  | case2 =>
    cases h
    exact ⟨[], rfl, .nil⟩
  | case3 => cases h
  | case4 e more _ ih =>
    obtain ⟨⟨s', _⟩, hs, heq⟩ := Attempt.ok_of_map h
    obtain ⟨-, rfl⟩ := Prod.mk.inj heq
    obtain ⟨body, rfl, hbody⟩ := ih hs
    exact ⟨'\\' :: e :: body, rfl, .escaped e hbody⟩
  | case5 c more hmark hslash ih =>
    obtain ⟨⟨s', _⟩, hs, heq⟩ := Attempt.ok_of_map h
    obtain ⟨-, rfl⟩ := Prod.mk.inj heq
    obtain ⟨body, rfl, hbody⟩ := ih hs
    exact ⟨c :: body, rfl, .plain hmark hslash hbody⟩

def IsWordChar (c : Char) : Prop := isSegmentChar c = true ∨ c = '.'

theorem IsWordChar.plain {c : Char} (h : IsWordChar c) : ¬IsMark c ∧ c ≠ '\x7d' := by
  have hne (x : Char) (hx : isSegmentChar x = false ∧ x ≠ '.') : c ≠ x := by
    rintro rfl
    exact h.elim (fun hc => by simp [hc] at hx) hx.2
  exact ⟨not_or.mpr ⟨hne _ (by decide), hne _ (by decide)⟩, hne _ (by decide)⟩

theorem isWordChar_of_isDigit {c : Char} (h : c.isDigit = true) : IsWordChar c :=
  .inl (isSegmentChar_of_isDigit h)

theorem scanSegments_taken (cs : List Char) :
    ∃ taken, cs = taken ++ (scanSegments cs).2 ∧ ∀ c ∈ taken, IsWordChar c := by
  fun_induction scanSegments cs with
  | case1 => exact ⟨[], rfl, List.forall_mem_nil _⟩
  | case2 rest _ more ih =>
    obtain ⟨taken, htaken, hword⟩ := ih
    refine ⟨'.' :: (rest.takeWhile isSegmentChar ++ taken), ?_, ?_⟩
    · rw [List.cons_append, List.append_assoc, ← htaken, List.takeWhile_append_dropWhile]
    · simp only [List.mem_cons, List.mem_append]
      rintro c (rfl | hc | hc)
      · exact .inr rfl
      · exact .inl (List.mem_takeWhile_imp hc)
      · exact hword c hc
  | case3 => exact ⟨[], rfl, List.forall_mem_nil _⟩

theorem fractionDigits_taken (h : fractionDigits cs ≠ []) :
    cs = '.' :: (fractionDigits cs ++ cs.drop ((fractionDigits cs).length + 1)) ∧
      ∀ c ∈ fractionDigits cs, IsWordChar c := by
  unfold fractionDigits at h ⊢
  split at h
  · rename_i after
    have hprefix := List.takeWhile_prefix (l := after) Char.isDigit
    refine ⟨congrArg _ (List.prefix_iff_eq_append.mp hprefix).symm, fun c hc => ?_⟩
    exact isWordChar_of_isDigit (List.mem_takeWhile_imp hc)
  · exact absurd rfl h

theorem scanNumber_taken {v : Json} (h : scanNumber cs = .ok (v, rest)) :
    ∃ taken, cs = taken ++ rest ∧ ∀ c ∈ taken, IsWordChar c := by
  have hwhole := (List.takeWhile_append_dropWhile (p := Char.isDigit) (l := cs)).symm
  have hdigits : ∀ c ∈ cs.takeWhile Char.isDigit, IsWordChar c := fun c hc =>
    isWordChar_of_isDigit (List.mem_takeWhile_imp hc)
  simp only [scanNumber] at h
  generalize cs.dropWhile Char.isDigit = after at h hwhole
  by_cases hnone : fractionDigits after = []
  · simp only [hnone] at h
    split at h
    · cases h
      exact ⟨_, hwhole, hdigits⟩
    · cases h
  · obtain ⟨hafter, hfraction⟩ := fractionDigits_taken hnone
    split at h
    · exact absurd ‹_› hnone
    split at h
    · cases h
      refine ⟨cs.takeWhile Char.isDigit ++ '.' :: fractionDigits after, ?_, ?_⟩
      · rw [List.append_assoc, List.cons_append, ← hafter, ← hwhole]
      · simp only [List.mem_append, List.mem_cons]
        rintro c (hc | rfl | hc)
        · exact hdigits c hc
        · exact .inr rfl
        · exact hfraction c hc
    · cases h

theorem scanOperator_taken {o : BinaryOp} (h : scanOperator cs = some (o, rest)) :
    ∃ taken, cs = taken ++ rest ∧ ∀ c ∈ taken, ¬IsMark c ∧ c ≠ '\x7d' := by
  have hplain (taken : List Char)
      (htaken : taken.all (fun c => c != '\'' && c != '"' && c != '\x7d') = true) :
      ∀ c ∈ taken, ¬IsMark c ∧ c ≠ '\x7d' := by
    intro c hc
    simpa [IsMark, and_assoc] using List.all_eq_true.mp htaken c hc
  unfold scanOperator at h
  split at h <;> cases h
  · exact ⟨['=', '='], rfl, hplain _ (by decide)⟩
  · exact ⟨['!', '='], rfl, hplain _ (by decide)⟩
  · exact ⟨['<', '='], rfl, hplain _ (by decide)⟩
  · exact ⟨['>', '='], rfl, hplain _ (by decide)⟩
  · exact ⟨['<'], rfl, hplain _ (by decide)⟩
  · exact ⟨['>'], rfl, hplain _ (by decide)⟩
  · exact ⟨['+'], rfl, hplain _ (by decide)⟩
  · exact ⟨['-'], rfl, hplain _ (by decide)⟩
  · exact ⟨['*'], rfl, hplain _ (by decide)⟩
  · exact ⟨['/'], rfl, hplain _ (by decide)⟩
  · exact ⟨['%'], rfl, hplain _ (by decide)⟩

theorem isSegmentChar_of_isWordStart {c : Char} (h : isWordStart c = true) :
    isSegmentChar c = true := by
  simp only [isWordStart, isSegmentChar, Text.isAlphanumeric, Bool.or_eq_true] at h ⊢
  exact h.imp_left .inl

/-- A token is a string literal, or has neither a mark nor a closing brace. -/
theorem scanToken_braceless {c : Char} {t : Token} (h : scanToken c cs = .ok (t, rest))
    (hrest : Braceless rest) : Braceless (c :: cs) := by
  have word (taken : List Char) (htaken : c :: cs = taken ++ rest)
      (hword : ∀ c ∈ taken, IsWordChar c) : Braceless (c :: cs) :=
    htaken ▸ hrest.append_plain fun x hx => (hword x hx).plain
  unfold scanToken at h
  split at h
  · rename_i hc
    cases h
    exact .plain (by simp [IsMark, hc]) (by simp [hc]) hrest
  split at h
  · rename_i hc
    cases h
    exact .plain (by simp [IsMark, hc]) (by simp [hc]) hrest
  split at h
  · rename_i hmark
    obtain ⟨⟨s, _⟩, hs, heq⟩ := Attempt.ok_of_map h
    obtain ⟨-, rfl⟩ := Prod.mk.inj heq
    obtain ⟨body, rfl, hbody⟩ := scanString_quoted hs
    exact .literal hmark hbody hrest
  split at h
  · obtain ⟨⟨v, _⟩, hv, heq⟩ := Attempt.ok_of_map h
    obtain ⟨-, rfl⟩ := Prod.mk.inj heq
    obtain ⟨taken, htaken, hword⟩ := scanNumber_taken hv
    exact word taken htaken hword
  split at h
  · rename_i hstart
    cases h
    obtain ⟨taken, htaken, hword⟩ := scanSegments_taken (cs.dropWhile isSegmentChar)
    apply word (c :: (cs.takeWhile isSegmentChar ++ taken))
    · rw [List.cons_append, List.append_assoc, ← htaken, List.takeWhile_append_dropWhile]
    · simp only [List.mem_cons, List.mem_append]
      rintro x (rfl | hx | hx)
      · exact .inl (isSegmentChar_of_isWordStart hstart)
      · exact .inl (List.mem_takeWhile_imp hx)
      · exact hword x hx
  · split at h
    · rename_i ho
      cases h
      obtain ⟨taken, htaken, hplain⟩ := scanOperator_taken ho
      exact htaken ▸ hrest.append_plain hplain
    · cases h

/-- In a text that can be cut into tokens, literals end and closing braces stand in literals. -/
theorem scan_braceless {ts : List Token} (h : scan cs = .ok ts) : Braceless cs := by
  fun_induction scan cs generalizing ts with
  | case1 => exact .nil
  | case2 c rest hblank ih =>
    refine .plain ?_ ?_ (ih h)
    · rintro (rfl | rfl) <;> cases hblank
    · rintro rfl
      cases hblank
  | case3 => cases h
  | case4 c rest _ t after htoken ih =>
    obtain ⟨us, hus, -⟩ := Attempt.ok_of_map h
    exact scanToken_braceless htoken (ih hus)

end

theorem trim_between {ws vs cs : List Char} {first last : Char}
    (hws : ∀ c ∈ ws, Text.isBlank c = true) (hvs : ∀ c ∈ vs, Text.isBlank c = true)
    (hfirst : Text.isBlank first = false) (hlast : Text.isBlank last = false) :
    Text.trim (ws ++ (first :: (cs ++ last :: vs))) = first :: (cs ++ [last]) := by
  have hstart : Stops Text.isBlank (first :: (cs ++ last :: vs)) := by
    rintro _ ⟨⟩
    exact hfirst
  have hend : Stops Text.isBlank (last :: (first :: cs).reverse) := by
    rintro _ ⟨⟩
    exact hlast
  have hreverse : (first :: (cs ++ last :: vs)).reverse =
      vs.reverse ++ last :: (first :: cs).reverse := by simp
  rw [Text.trim, Text.trimStart, hstart.dropWhile_append hws, Text.trimEnd, hreverse,
    hend.dropWhile_append fun c hc => hvs c (List.mem_reverse.mp hc)]
  simp

theorem templateBody?_of_body {s : String} {body : List Char}
    (h : Text.trim s.toList = '$' :: '\x7b' :: body) : templateBody? s =
      match splitAtBrace .outside body with
      | some (inner, []) => some (String.ofList (Text.trim inner))
      | _ => none := by
  unfold templateBody?
  generalize Text.trim s.toList = cs at h
  subst h
  rfl

/-- A string that is no template: it does not begin as one, or no brace ends it, or something
follows the brace that does. -/
inductive Untemplated (cs : List Char) : Prop where
  | other : (∀ body, cs ≠ '$' :: '\x7b' :: body) → Untemplated cs
  | opened {body} : cs = '$' :: '\x7b' :: body →
      (∀ inner rest, Braceless inner → body ≠ inner ++ '\x7d' :: rest) → Untemplated cs
  | followed {inner rest} : cs = '$' :: '\x7b' :: (inner ++ '\x7d' :: rest) → Braceless inner →
      rest ≠ [] → Untemplated cs

theorem Untemplated.templateBody? {s : String} (h : Untemplated (Text.trim s.toList)) :
    templateBody? s = none := by
  cases h with
  | other hother =>
    unfold Expression.templateBody?
    split
    · rename_i body hbody
      exact absurd hbody (hother body)
    · rfl
  | opened hbody hopen =>
    rw [templateBody?_of_body hbody]
    split
    · rename_i inner hinner
      obtain ⟨hpasses, rfl⟩ := splitAtBrace_passes hinner
      exact absurd rfl (hopen inner [] hpasses)
    · rfl
  | followed hbody hinner hrest =>
    rw [templateBody?_of_body hbody, hinner.splitAtBrace]
    split
    · rename_i heq
      cases heq
      exact absurd rfl hrest
    · rfl

/-- **Templates.** A text that can be cut into tokens, whatever stands in its literals, is replaced
by its value when it stands as a template, with blanks around it or not. A string that is no single
template stands for itself. -/
theorem template_resolved (context : Table Json) :
    (∀ (w e v : String) (ts : List Token), scan e.toList = .ok ts →
      w.toList.all Text.isBlank = true → v.toList.all Text.isBlank = true →
      resolve context (.str (w ++ "$\x7b" ++ e ++ "\x7d" ++ v)) =
        evaluate (String.ofList (Text.trim e.toList)) context) ∧
    ∀ s : String, Untemplated (Text.trim s.toList) → resolve context (.str s) = .ok (.str s) := by
  constructor
  · intro w e v ts he hw hv
    have htext : (w ++ "$\x7b" ++ e ++ "\x7d" ++ v).toList =
        w.toList ++ '$' :: (('\x7b' :: e.toList) ++ '\x7d' :: v.toList) := by simp
    have htrim : Text.trim (w ++ "$\x7b" ++ e ++ "\x7d" ++ v).toList =
        '$' :: '\x7b' :: (e.toList ++ ['\x7d']) := by
      rw [htext, trim_between (List.all_eq_true.mp hw) (List.all_eq_true.mp hv) (by decide)
        (by decide)]
      rfl
    rw [resolve, templateBody?_of_body htrim, (scan_braceless he).splitAtBrace]
  · intro s hs
    rw [resolve, hs.templateBody?]

/-- A closing brace in a literal does not end a template, and a mark after a backslash does not end
the literal. Two templates in a row are none. -/
theorem template_resolved_brace :
    resolve .empty (.str " $\x7b'\x7d\\'' + \"\x7d\" \x7d\n") = .ok (.str "\x7d'\x7d") ∧
      resolve .empty (.str "$\x7b1\x7d$\x7b2\x7d") =
        .ok (.str "$\x7b1\x7d$\x7b2\x7d") := by
  obtain ⟨hvalue, hitself⟩ := template_resolved .empty
  have hscan : scan "'\x7d\\'' + \"\x7d\" ".toList =
      .ok [.literal (.str "\x7d'"), .op .add, .literal (.str "\x7d")] := by cbv
  have hsum : evaluate (String.ofList (Text.trim "'\x7d\\'' + \"\x7d\" ".toList)) .empty =
      .ok (.str "\x7d'\x7d") := by cbv
  have htoken : scanToken '1' [] = .ok (.literal (.nat 1), []) := rfl
  have hone : scan ['1'] = .ok [.literal (.nat 1)] := by
    rw [scan_token (by decide) htoken, scan]
    rfl
  constructor
  · exact (hvalue " " _ "\n" _ hscan (by decide) (by decide)).trans hsum
  · exact hitself _ (.followed (by cbv) (scan_braceless hone)
      (show "$\x7b2\x7d".toList ≠ [] by decide))

end Workflow.Expression
