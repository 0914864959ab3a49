import Workflow.Proofs.Regex.Local

/-!
# Signs and classes are read locally

Escapes, names in braces and classes with their set operations, one after the other in the order
in which the reader is built from them.
-/
namespace Workflow.Regex

section
variable {N : Nat} {ascii : Bool} {f : Flags}

theorem unicodeClass?_local (negated : Bool) :
    Local N (unicodeClass? negated) (unicodeClass? negated) := by
  refine .uncons rfl fun c => ?_
  by_cases hc : c = '\x7b'
  · subst hc
    refine .upTo (· != '\x7d') (fun cs h => ?_) (fun ds stop hds hstop => .blind fun cs => ?_)
    · simp only [unicodeClass?, List.dropWhile_eq_nil_iff.2 h]
    · simp only [unicodeClass?, dropWhile_stop hds hstop, takeWhile_stop hds hstop]
      split
      · simp [Function.comp_def]
      · split_ifs <;> simp [Function.comp_def]
  · exact .blind fun cs => by simp [unicodeClass?, Function.comp_def]

theorem hexChar?_local (f : Flags) (letter : Char) :
    Local N (hexChar? f letter) (hexChar? f letter) := by
  refine .uncons ?_ fun c => ?_
  · simp only [hexChar?]
    split_ifs <;> simp_all
  by_cases hc : c = '\x7b'
  · subst hc
    refine .upTo (· != '\x7d') (fun cs h => ?_) (fun ds stop hds hstop => .blind fun cs => ?_)
    · simp only [hexChar?, List.dropWhile_eq_nil_iff.2 h]
    · simp [hexChar?, dropWhile_stop hds hstop, takeWhile_stop hds hstop, Function.comp_def]
  · generalize hn : (if letter = 'x' then 2 else if letter = 'u' then 4 else 8) = n
    refine .counted (n - 1) (fun cs h => ?_) (fun ds h => .blind fun cs => ?_)
    · have hshort : cs.length + 1 < n := Nat.add_lt_of_lt_sub h
      simp [hexChar?, hc, hn, hshort]
    · have hds : (c :: ds).length = n := by
        rw [List.length_cons, h]
        split_ifs at hn <;> omega
      have hlong : ¬(ds.length + cs.length < ds.length) := Nat.not_lt.2 (Nat.le_add_right _ _)
      simp [hexChar?, hc, hn, ← hds, hlong, Function.comp_def]

/-- A boundary leaves all of the text unless a name in braces is taken. -/
theorem namedBoundary_cases {cs rest : List Char} {a : Anchor}
    (h : namedBoundary ascii cs = some (a, rest)) :
    (a = .wordBoundary ascii ∧ rest = cs) ∨
      ∃ r, cs = '\x7b' :: r ∧ r.dropWhile isBoundaryLetter = '\x7d' :: rest := by
  revert h
  fun_cases namedBoundary ascii cs with
  | case1 | case7 | case8 => simp +contextual
  | case6 => simp
  | case2 r _ _ hdrop | case3 r _ _ hdrop | case4 r _ _ hdrop | case5 r _ _ hdrop =>
    intro h
    obtain ⟨-, rfl⟩ := Prod.mk.inj (Option.some.inj h)
    exact .inr ⟨r, rfl, hdrop⟩

theorem namedBoundary_eq_self {cs : List Char}
    (h : ∀ r after, cs = '\x7b' :: r → r.dropWhile isBoundaryLetter ≠ '\x7d' :: after) :
    namedBoundary ascii cs = some (.wordBoundary ascii, cs) := by
  fun_cases namedBoundary ascii cs with
  | case1 | case7 | case8 => rfl
  | case2 r _ _ hdrop | case3 r _ _ hdrop | case4 r _ _ hdrop | case5 r _ _ hdrop
  | case6 r _ _ hdrop => exact absurd hdrop (h r _ rfl)

theorem namedBoundary_local (ascii : Bool) :
    Local N (namedBoundary ascii) (namedBoundary ascii) := by
  refine ⟨fun h => ?_, fun {cs v a w} _ h => ?_⟩
  · obtain ⟨-, rfl⟩ | ⟨r, rfl, hdrop⟩ := namedBoundary_cases h
    · exact List.suffix_rfl
    · exact (List.suffix_cons '\x7d' _).trans
        ((hdrop ▸ List.dropWhile_suffix isBoundaryLetter).trans (List.suffix_cons '\x7b' r))
  by_cases hnamed : ∃ r after, cs = '\x7b' :: r ∧ r.dropWhile isBoundaryLetter = '\x7d' :: after
  · obtain ⟨r, after, rfl, hown⟩ := hnamed
    obtain ⟨hdrop, htake⟩ := dropWhile_extend hown v
    simp only [List.cons_append, namedBoundary, hown, hdrop, htake] at h ⊢
    generalize r.takeWhile isBoundaryLetter = name at h ⊢
    by_cases hname : name.isEmpty
    · rw [if_pos hname] at h ⊢
      obtain ⟨rfl, hrest⟩ := Prod.mk.inj (Option.some.inj h)
      rw [List.append_cancel_right (show '\x7b' :: r ++ v = w ++ v from hrest)]
    · rw [if_neg hname] at h ⊢
      split at h <;> simp_all
  · have hself : namedBoundary ascii cs = some (.wordBoundary ascii, cs) :=
      namedBoundary_eq_self fun r after hcs hdrop => hnamed ⟨r, after, hcs, hdrop⟩
    obtain ⟨rfl, hrest⟩ | ⟨r, htext, hdrop⟩ := namedBoundary_cases h
    · rw [hself, List.append_cancel_right hrest]
    · cases cs with
      | nil =>
        obtain rfl : v = '\x7b' :: r := htext
        have hsuffix : '\x7d' :: (w ++ '\x7b' :: r) <:+ r := hdrop ▸ List.dropWhile_suffix _
        exact absurd ((List.suffix_cons _ _).trans hsuffix) not_append_suffix
      | cons c cs =>
        obtain ⟨rfl, rfl⟩ := List.cons.inj htext
        exact absurd ⟨cs, w, rfl, (dropWhile_cut (w := '\x7d' :: w) hdrop).1⟩ hnamed

theorem escape?_local : Local N (escape? ascii f) (escape? ascii f) := by
  refine .uncons rfl fun c => ?_
  cases hletter : letterClass ascii f c with
  | some s => exact .blind fun cs => by simp [escape?, hletter]
  | none =>
    by_cases hx : c = 'x' ∨ c = 'u' ∨ c = 'U'
    · refine .congr ((hexChar?_local f c).map Sign.literal) (fun cs => ?_) (fun cs => ?_) <;>
        simp [escape?, hletter, hx]
    by_cases hp : c = 'p' ∨ c = 'P'
    · have hclass := (unicodeClass?_local (N := N - 1) (c == 'P')).map Sign.set
      by_cases hunicode : f.unicode
      · refine hclass.congr (fun cs => ?_) (fun cs => ?_) <;>
          simp [escape?, hletter, hx, hp, hunicode]
      · exact Local.fail.congr (fun cs => by simp [escape?, hletter, hx, hp, hunicode]) fun _ => rfl
    by_cases hb : c = 'b'
    · subst hb
      refine .congr ((namedBoundary_local (!f.unicode)).map Sign.anchor) (fun cs => ?_)
        (fun cs => ?_) <;> simp [escape?, hletter]
    · refine .blind fun cs => ?_
      simp only [escape?, hletter, if_neg hx, if_neg hp]
      split <;> first | rfl | exact absurd rfl hb | skip
      split_ifs <;> rfl

end

section
variable {N : Nat} {ascii : Bool} {f : Flags}

theorem classItem?_cons_local (c : Char) :
    Local N (fun cs => classItem? ascii f (c :: cs)) (fun cs => classItem? ascii f (c :: cs)) := by
  by_cases hc : c = '\\'
  · subst hc
    exact escape?_local
  · exact .blind fun cs => by simp [classItem?]

theorem classItem?_local : Local N (classItem? ascii f) (classItem? ascii f) :=
  .uncons rfl classItem?_cons_local

theorem caret_all {p : Char → Bool} {cs : List Char} (h : ∀ c ∈ cs, p c = true) :
    ∀ c ∈ (caret cs).2, p c = true := by
  fun_cases caret cs with
  | case1 rest => exact (List.forall_mem_cons.1 h).2
  | case2 => exact h

theorem caret_append {stop : Char} (hstop : stop ≠ '^') (ds cs : List Char) :
    caret (ds ++ stop :: cs) = ((caret ds).1, (caret ds).2 ++ stop :: cs) := by
  rcases ds with _ | ⟨c, ds⟩
  · simp [caret, hstop]
  · by_cases hc : c = '^'
    · subst hc
      rfl
    · simp [caret, hc]

theorem asciiClass?_all {cs : List Char} (h : ∀ c ∈ cs, isNameSign c = true) :
    asciiClass? f (':' :: cs) = none := by
  simp only [asciiClass?, List.dropWhile_eq_nil_iff.2 (caret_all h)]

theorem asciiClass?_stop {ds : List Char} {stop : Char} (hds : ∀ c ∈ ds, isNameSign c = true)
    (hstop : isNameSign stop = false) (cs : List Char) :
    asciiClass? f (':' :: (ds ++ stop :: cs)) =
      match stop :: cs with
      | ':' :: ']' :: after =>
        ((asciiSet? (String.ofList (caret ds).2)).map (fun s =>
          if (caret ds).1 then (cased f s).complement else cased f s)).map (·, after)
      | _ => none := by
  have hne : stop ≠ '^' := by
    rintro rfl
    cases hstop
  simp only [asciiClass?, caret_append hne, dropWhile_stop (caret_all hds) hstop,
    takeWhile_stop (caret_all hds) hstop, Option.map_map]
  rfl

theorem asciiClass?_local : Local N (asciiClass? f) (asciiClass? f) := by
  refine .uncons rfl fun c => ?_
  by_cases hc : c = ':'
  · subst hc
    refine .upTo isNameSign (fun cs h => asciiClass?_all h) (fun ds stop hds hstop => ?_)
    refine .congr ?_ (asciiClass?_stop hds hstop) (asciiClass?_stop hds hstop)
    by_cases hcolon : stop = ':'
    · subst hcolon
      refine .uncons rfl fun x => ?_
      by_cases hx : x = ']'
      · subst hx
        exact .blind fun cs => by simp [Function.comp_def]
      · exact Local.fail.congr (fun cs => by simp [hx]) (fun _ => rfl)
    · exact Local.fail.congr (fun cs => by simp [hcolon]) (fun _ => rfl)
  · exact Local.fail.congr (fun cs => by simp [asciiClass?, hc]) (fun _ => rfl)

/-- A class by its name in ASCII that ends in a text is the same in a longer one. -/
theorem asciiClass?_append {s : CharSet} {cs rest : List Char}
    (h : asciiClass? f cs = some (s, rest)) (v : List Char) :
    asciiClass? f (cs ++ v) = some (s, rest ++ v) := by
  rcases cs with _ | ⟨c, cs⟩
  · cases h
  by_cases hc : c = ':'
  · subst hc
    rcases stop_or_all isNameSign cs with hall | ⟨ds, stop, after, rfl, hds, hstop⟩
    · rw [asciiClass?_all hall] at h
      cases h
    · rw [asciiClass?_stop hds hstop] at h
      rw [List.cons_append, List.append_assoc, List.cons_append, asciiClass?_stop hds hstop]
      split at h
      case h_1 heq =>
        obtain ⟨rfl, rfl⟩ := List.cons.inj heq
        obtain ⟨s, ho, hs⟩ := Option.map_eq_some_iff.1 h
        cases hs
        simp [ho]
      case h_2 => cases h
  · simp [asciiClass?, hc] at h

theorem dashes_of_ne {n : Nat} {items : CharSet} {cs : List Char} (h : cs.head? ≠ some '-') :
    classHead.dashes f n items cs = (items, cs) := by
  unfold classHead.dashes
  split
  case h_1 => exact absurd rfl h
  case h_2 => rfl

theorem dashes_suffix (n : Nat) (items : CharSet) (cs : List Char) :
    (classHead.dashes f n items cs).2 <:+ cs := by
  induction n generalizing items cs with
  | zero => exact List.suffix_rfl
  | succ n ih =>
    by_cases hdash : cs.head? = some '-'
    · obtain ⟨rest, rfl⟩ := List.head?_eq_some_iff.1 hdash
      exact (ih _ _).trans ((skipVerbose_suffix f rest).trans (List.suffix_cons '-' rest))
    · rw [dashes_of_ne hdash]

theorem dashes_cut_of_ne {m n : Nat} {items y : CharSet} {cs v w : List Char}
    (hcs : cs.head? ≠ some '-') (hn : (cs ++ v).length ≤ n)
    (h : classHead.dashes f n items (cs ++ v) = (y, w ++ v)) :
    classHead.dashes f m items cs = (y, w) := by
  rw [dashes_of_ne hcs]
  by_cases hdash : (cs ++ v).head? = some '-'
  · cases cs with
    | nil =>
      obtain ⟨rest, rfl⟩ := List.head?_eq_some_iff.1 hdash
      obtain ⟨n, rfl⟩ := Nat.exists_eq_succ_of_ne_zero (Nat.ne_zero_of_lt hn)
      have hleft := dashes_suffix (f := f) n (.union items (.single '-')) (skipVerbose f rest)
      rw [show classHead.dashes f n _ _ = _ from h] at hleft
      exact absurd (hleft.trans (skipVerbose_suffix f rest)) not_append_suffix
    | cons c cs => exact absurd hdash hcs
  · rw [dashes_of_ne hdash] at h
    obtain ⟨rfl, hrest⟩ := Prod.mk.inj h
    rw [List.append_cancel_right hrest]

theorem dashes_cut (m n : Nat) {items y : CharSet} {cs v w : List Char} (hm : cs.length ≤ m)
    (hn : (cs ++ v).length ≤ n) (h : classHead.dashes f n items (cs ++ v) = (y, w ++ v)) :
    classHead.dashes f m items cs = (y, w) := by
  induction m generalizing n items cs with
  | zero =>
    obtain rfl := List.length_eq_zero_iff.1 (Nat.le_zero.1 hm)
    exact dashes_cut_of_ne nofun hn h
  | succ m ih =>
    by_cases hdash : cs.head? = some '-'
    · obtain ⟨rest, rfl⟩ := List.head?_eq_some_iff.1 hdash
      obtain ⟨n, rfl⟩ := Nat.exists_eq_succ_of_ne_zero (Nat.ne_zero_of_lt hn)
      have hstep : classHead.dashes f n (.union items (.single '-')) (skipVerbose f (rest ++ v)) =
          (y, w ++ v) := h
      have hleft := dashes_suffix (f := f) n (.union items (.single '-'))
        (skipVerbose f (rest ++ v))
      rw [hstep] at hleft
      obtain ⟨r, hr, -, hrest⟩ := exists_append hleft (skipVerbose_suffix f _)
      rw [hr] at hstep
      have hlen := hrest.length_le
      simp only [List.length_append, List.length_cons] at hm hn
      have hown := ih n (by omega) (by rw [List.length_append]; omega) hstep
      rw [← skipVerbose_cut hr] at hown
      exact hown
    · exact dashes_cut_of_ne hdash hn h

/-- The dashes at the start of a class, which stand for themselves. -/
def classDashes (f : Flags) : Reading CharSet := fun cs =>
  some (classHead.dashes f cs.length .nothing cs)

theorem classDashes_local : Local N (classDashes f) (classDashes f) := by
  refine ⟨fun {cs _ _} h => ?_, fun _ h => ?_⟩
  · have hsuffix := dashes_suffix (f := f) cs.length .nothing cs
    rw [Option.some.inj h] at hsuffix
    exact hsuffix
  · exact congrArg some (dashes_cut _ _ (Nat.le_refl _) (Nat.le_refl _) (Option.some.inj h))

/-- What a class begins with after a caret: a bracket or dashes that stand for themselves. -/
def classStart (f : Flags) (negated : Bool) : Reading (Bool × CharSet) := fun cs =>
  match cs with
  | ']' :: rest => some ((negated, .single ']'), rest)
  | _ => (classDashes f cs).map (fun p => ((negated, p.1), p.2))

theorem classStart_local (negated : Bool) :
    Local N (classStart f negated) (classStart f negated) := by
  have hsplit : Splits ']' (classStart f negated) (fun cs => some ((negated, .single ']'), cs))
      (fun cs => (classDashes f cs).map fun p => ((negated, p.1), p.2)) :=
    ⟨fun _ => rfl, rfl, fun hx cs => by simp [classStart, hx]⟩
  exact .head hsplit hsplit (.done _) (classDashes_local.map (negated, ·))

def classOpening (f : Flags) : Reading (Bool × CharSet) := fun cs =>
  some (((classHead f cs).1, (classHead f cs).2.1), (classHead f cs).2.2)

/-- What a class begins with. Blanks are skipped behind a caret. -/
def classAfter (f : Flags) (negated : Bool) : Reading (Bool × CharSet) := fun cs =>
  classStart f negated (if negated then skipVerbose f cs else cs)

theorem classOpening_eq (cs : List Char) : classOpening f cs =
    classAfter f (caret (skipVerbose f cs)).1 (caret (skipVerbose f cs)).2 := by
  unfold classOpening classHead classAfter
  generalize caret (skipVerbose f cs) = p
  obtain ⟨negated, ds⟩ := p
  dsimp only
  generalize (if negated = true then skipVerbose f ds else ds) = es
  rcases es with _ | ⟨c, es⟩
  · rfl
  · by_cases hc : c = ']'
    · subst hc
      rfl
    · simp [classStart, hc, classDashes]

theorem classOpening_local : Local N (classOpening f) (classOpening f) := by
  have hstart : Local N (fun cs => classAfter f (caret cs).1 (caret cs).2)
      (fun cs => classAfter f (caret cs).1 (caret cs).2) :=
    .caret (.skip f (classStart_local true)) (classStart_local false)
  exact .congr (.skip f hstart) classOpening_eq classOpening_eq

theorem rest_of_map {o : Option CharSet} {s : CharSet} {cs rest : List Char}
    (h : o.map (·, cs) = some (s, rest)) : cs = rest ∧ o = some s := by
  obtain ⟨_, ho, hs⟩ := Option.map_eq_some_iff.1 h
  cases hs
  exact ⟨rfl, ho⟩

/-- After a dash a range either stops before the dash or goes on behind it. -/
theorem rangeEnd?_dash {first : Sign} {cs rest : List Char} {s : CharSet}
    (h : rangeEnd? ascii f first ('-' :: cs) = some (s, rest)) :
    rest = '-' :: cs ∨ rest <:+ skipVerbose f cs := by
  simp only [rangeEnd?] at h
  split at h
  · cases h
  case h_2 c after hskip =>
    split_ifs at h
    · exact .inl (rest_of_map h).1.symm
    · obtain ⟨⟨second, r⟩, hitem, h⟩ := Option.bind_eq_some_iff.1 h
      rw [← (rest_of_map h).1, hskip]
      exact .inr ((classItem?_local (N := 0)).suffix hitem)

theorem rangeEnd?_of_ne {first : Sign} {c : Char} (hc : c ≠ '-') (cs : List Char) :
    rangeEnd? ascii f first (c :: cs) = (alone? f first).map (·, c :: cs) := by
  simp [rangeEnd?, hc]

theorem rangeEnd?_suffix {first : Sign} {cs rest : List Char} {s : CharSet}
    (h : rangeEnd? ascii f first cs = some (s, rest)) : rest <:+ cs := by
  rcases cs with _ | ⟨c, cs⟩
  · cases h
  · by_cases hc : c = '-'
    · subst hc
      rcases rangeEnd?_dash h with rfl | hrest
      · exact List.suffix_rfl
      · exact hrest.trans ((skipVerbose_suffix f cs).trans (List.suffix_cons '-' cs))
    · rw [rangeEnd?_of_ne hc] at h
      rw [(rest_of_map h).1]

/-- Texts with which no class goes on: blanks and comments, or a dash before them. -/
def Dangling (f : Flags) (cs : List Char) : Prop :=
  skipVerbose f cs = [] ∨ ∃ after, cs = '-' :: after ∧ skipVerbose f after = []

theorem skipVerbose_nil (f : Flags) : skipVerbose f [] = [] :=
  List.suffix_nil.1 (skipVerbose_suffix f [])

/-- A range that ends in a text is read from it alone unless nothing of a class follows. -/
theorem rangeEnd?_cut {first : Sign} {cs v w : List Char} {s : CharSet}
    (h : rangeEnd? ascii f first (cs ++ v) = some (s, w ++ v)) :
    rangeEnd? ascii f first cs = some (s, w) ∨ Dangling f w := by
  have hpast (hw : w ++ v <:+ v) : Dangling f w :=
    .inl (eq_nil_of_append_suffix hw ▸ skipVerbose_nil f)
  rcases cs with _ | ⟨c, cs⟩
  · exact .inr (hpast (rangeEnd?_suffix h))
  by_cases hc : c = '-'
  · subst hc
    cases hown : skipVerbose f cs with
    | nil =>
      right
      rcases rangeEnd?_dash h with hrest | hrest
      · exact .inr ⟨cs, List.append_cancel_right hrest, hown⟩
      · rcases skipVerbose_append f cs v with hboth | ⟨-, hskip⟩
        · rw [hown] at hboth
          exact hpast (hrest.trans (hboth ▸ List.suffix_rfl))
        · exact hpast (hrest.trans hskip)
    | cons x after =>
      left
      have hboth : skipVerbose f (cs ++ v) = x :: (after ++ v) := by
        rcases skipVerbose_append f cs v with hboth | ⟨hnil, -⟩
        · rw [hboth, hown]
          rfl
        · rw [hown] at hnil
          cases hnil
      simp only [List.cons_append, rangeEnd?, hboth] at h
      simp only [rangeEnd?, hown]
      split_ifs at h ⊢
      · obtain ⟨hrest, ho⟩ := rest_of_map h
        have hw : '-' :: cs = w := List.append_cancel_right hrest
        rw [ho, ← hw]
        rfl
      · obtain ⟨⟨second, r⟩, hitem, h⟩ := Option.bind_eq_some_iff.1 h
        obtain ⟨rfl, ho⟩ := rest_of_map h
        have hcut : classItem? ascii f (x :: after) = some (second, w) :=
          classItem?_local.cut (Nat.lt_succ_self _) hitem
        rw [hcut]
        exact congrArg (Option.map (·, w)) ho
  · rw [List.cons_append, rangeEnd?_of_ne hc] at h
    obtain ⟨hrest, ho⟩ := rest_of_map h
    have hw : c :: cs = w := List.append_cancel_right hrest
    rw [rangeEnd?_of_ne hc, ho, hw]
    exact .inl rfl

theorem classRange?_suffix {c : Char} {cs rest : List Char} {s : CharSet}
    (h : classRange? ascii f (c :: cs) = some (s, rest)) : rest <:+ cs := by
  obtain ⟨⟨first, r⟩, hitem, h⟩ := Option.bind_eq_some_iff.1 h
  exact (rangeEnd?_suffix h).trans
    ((skipVerbose_suffix f r).trans ((classItem?_cons_local (N := 0) c).suffix hitem))

theorem classRange?_cut {c : Char} {cs v w : List Char} {s : CharSet}
    (h : classRange? ascii f (c :: (cs ++ v)) = some (s, w ++ v)) :
    classRange? ascii f (c :: cs) = some (s, w) ∨ Dangling f w := by
  obtain ⟨⟨first, r⟩, hitem, h⟩ := Option.bind_eq_some_iff.1 h
  have hw : w ++ v <:+ skipVerbose f r := rangeEnd?_suffix h
  obtain ⟨q, rfl, -, -⟩ := exists_append (hw.trans (skipVerbose_suffix f r))
    ((classItem?_cons_local (N := 0) c).suffix hitem)
  obtain ⟨t, ht, -, -⟩ := exists_append hw (skipVerbose_suffix f _)
  have hown : classItem? ascii f (c :: cs) = some (first, q) :=
    (classItem?_cons_local c).cut (Nat.lt_succ_self _) hitem
  have hend : rangeEnd? ascii f first (t ++ v) = some (s, w ++ v) := ht ▸ h
  refine (rangeEnd?_cut hend).imp_left fun hcut => ?_
  rw [classRange?, hown]
  change rangeEnd? ascii f first (skipVerbose f q) = some (s, w)
  rw [skipVerbose_cut ht]
  exact hcut

theorem skipVerbose_of_sign (f : Flags) {c : Char} (hblank : Text.isBlank c = false) (hc : c ≠ '#')
    (cs : List Char) : skipVerbose f (c :: cs) = c :: cs := by
  simp [skipVerbose, skipVerbose.go, hblank, hc]

theorem classItems_dangling {n : Nat} {negated : Bool} {left : Option (SetOp × CharSet)}
    {items : CharSet} {cs : List Char} (h : Dangling f cs) :
    classItems n ascii f negated left items cs = none := by
  cases n with
  | zero => rfl
  | succ n =>
    rcases h with hnil | ⟨after, rfl, hnil⟩
    · rw [classItems, hnil]
    · have hdash : ∀ rest, after ≠ '-' :: rest := by
        rintro rest rfl
        rw [skipVerbose_of_sign f rfl (by decide)] at hnil
        cases hnil
      have hnone : classRange? ascii f ('-' :: after) = none := by
        rw [classRange?]
        change rangeEnd? ascii f (.literal '-') (skipVerbose f after) = none
        rw [hnil]
        rfl
      simp [classItems, skipVerbose_of_sign f (c := '-') rfl (by decide), hnone, hdash]

def classFrom (n : Nat) (ascii : Bool) (f : Flags) (negated : Bool)
    (left : Option (SetOp × CharSet)) (items : CharSet) : Reading CharSet := fun cs =>
  match classRange? ascii f cs with
  | some (s, rest) => classItems n ascii f negated left (.union items s) rest
  | none => none

theorem classFrom_local {m n : Nat} {negated : Bool} {left : Option (SetOp × CharSet)}
    {items : CharSet} (c : Char)
    (ih : ∀ items,
      Local N (classItems n ascii f negated left items) (classItems m ascii f negated left items)) :
    Local N (fun cs => classFrom n ascii f negated left items (c :: cs))
      (fun cs => classFrom m ascii f negated left items (c :: cs)) := by
  refine ⟨fun {cs _ _} h => ?_, fun {cs v x w} hlt h => ?_⟩
  · unfold classFrom at h
    split at h
    case h_1 s rest hrange => exact ((ih _).suffix h).trans (classRange?_suffix hrange)
    case h_2 => cases h
  · unfold classFrom at h
    split at h
    case h_1 s rest hrange =>
      obtain ⟨r, rfl, -, hr⟩ := exists_append ((ih _).suffix h) (classRange?_suffix hrange)
      have hrest := (ih _).cut (hr.length_le.trans_lt hlt) h
      rcases classRange?_cut hrange with hcut | hdangling
      · simp only [classFrom, hcut, hrest]
      · rw [classItems_dangling hdangling] at hrest
        cases hrest
    case h_2 => cases h

/-- A class inside another, after its bracket, and the items behind it. -/
def classInner (n : Nat) (ascii : Bool) (f : Flags) (negated : Bool)
    (left : Option (SetOp × CharSet)) (items : CharSet) : Reading CharSet := fun cs =>
  match asciiClass? f cs with
  | some (s, rest) => classItems n ascii f negated left (.union items s) rest
  | none =>
    (classOpening f cs).bind fun p => (classItems n ascii f p.1.1 none p.1.2 p.2).bind fun q =>
      classItems n ascii f negated left (.union items q.1) q.2

theorem classInner_local {m n : Nat} {negated : Bool} {left : Option (SetOp × CharSet)}
    {items : CharSet} (ih : ∀ negated left items,
      Local N (classItems n ascii f negated left items) (classItems m ascii f negated left items)) :
    Local N (classInner n ascii f negated left items)
      (classInner m ascii f negated left items) := by
  have hinner (p : Bool × CharSet) : Local N
      (fun cs => (classItems n ascii f p.1 none p.2 cs).bind fun q =>
        classItems n ascii f negated left (.union items q.1) q.2)
      (fun cs => (classItems m ascii f p.1 none p.2 cs).bind fun q =>
        classItems m ascii f negated left (.union items q.1) q.2) :=
    .bind (ih p.1 none p.2) fun s => ih negated left (.union items s)
  have houter := (classOpening_local (f := f)).bind hinner
  exact .congr (.orElse (asciiClass?_local (f := f)) asciiClass?_append
    (fun s => ih negated left (.union items s)) houter)
    (fun cs => by cases h : asciiClass? f cs <;> simp only [classInner, h])
    (fun cs => by cases h : asciiClass? f cs <;> simp only [classInner, h])

/-- The items of a class from a sign that is no blank on. -/
def classStep (n : Nat) (ascii : Bool) (f : Flags) (negated : Bool)
    (left : Option (SetOp × CharSet)) (items : CharSet) : Reading CharSet := fun cs =>
  match cs with
  | [] => none
  | ']' :: rest =>
    some (if negated then (combined left items).complement else combined left items, rest)
  | '&' :: '&' :: rest =>
    classItems n ascii f negated (some (.inter, combined left items)) .nothing rest
  | '-' :: '-' :: rest =>
    classItems n ascii f negated (some (.diff, combined left items)) .nothing rest
  | '~' :: '~' :: rest =>
    classItems n ascii f negated (some (.symmDiff, combined left items)) .nothing rest
  | '[' :: rest => classInner n ascii f negated left items rest
  | cs => classFrom n ascii f negated left items cs

theorem classItems_succ (n : Nat) (negated : Bool) (left : Option (SetOp × CharSet))
    (items : CharSet) (cs : List Char) : classItems (n + 1) ascii f negated left items cs =
      classStep n ascii f negated left items (skipVerbose f cs) := by
  rw [classItems]
  generalize skipVerbose f cs = ds
  fun_cases classStep n ascii f negated left items ds with
  | case6 rest =>
    simp only [classInner, classOpening]
    cases asciiClass? f rest with
    | some p => rfl
    | none =>
      cases hinner : (classItems n ascii f (classHead f rest).1 none (classHead f rest).2.1
        (classHead f rest).2.2) <;> simp [hinner]
  | case7 => split <;> first | rfl | simp_all
  | _ => rfl

theorem classItems_local (m n : Nat) (negated : Bool) (left : Option (SetOp × CharSet))
    (items : CharSet) :
    Local m (classItems n ascii f negated left items)
      (classItems m ascii f negated left items) := by
  induction n generalizing m negated left items with
  | zero => exact .fail
  | succ n ih =>
    have step (m : Nat) : Local (m + 1) (classItems (n + 1) ascii f negated left items)
        (classItems (m + 1) ascii f negated left items) := by
      refine .congr (.skip f ?_) (classItems_succ n negated left items)
        (classItems_succ m negated left items)
      refine .uncons rfl fun c => ?_
      have operation (op : SetOp) (hsplit : ∀ k, Splits c
          (fun cs => classStep k ascii f negated left items (c :: cs))
          (classItems k ascii f negated (some (op, combined left items)) .nothing)
          (fun cs => classFrom k ascii f negated left items (c :: cs))) :
          Local m (fun cs => classStep n ascii f negated left items (c :: cs))
            (fun cs => classStep m ascii f negated left items (c :: cs)) :=
        .head (hsplit n) (hsplit m) ((ih m _ _ _).mono (Nat.sub_le m 1))
          (classFrom_local c (ih m negated left))
      by_cases hclose : c = ']'
      · subst hclose
        exact .done _
      by_cases hand : c = '&'
      · subst hand
        exact operation .inter fun k =>
          ⟨fun _ => rfl, rfl, fun hx cs => by simp [classStep, hx]⟩
      by_cases hdash : c = '-'
      · subst hdash
        exact operation .diff fun k =>
          ⟨fun _ => rfl, rfl, fun hx cs => by simp [classStep, hx]⟩
      by_cases htilde : c = '~'
      · subst htilde
        exact operation .symmDiff fun k =>
          ⟨fun _ => rfl, rfl, fun hx cs => by simp [classStep, hx]⟩
      by_cases hopen : c = '['
      · subst hopen
        exact classInner_local fun negated left items => ih m negated left items
      · have hfrom (k : Nat) (cs : List Char) : classStep k ascii f negated left items (c :: cs) =
            classFrom k ascii f negated left items (c :: cs) := by
          simp [classStep, hclose, hand, hdash, htilde, hopen]
        exact .congr (classFrom_local c (ih m negated left)) (hfrom n) (hfrom m)
    cases m with
    | zero => exact (step 0).zero
    | succ m => exact step m

theorem class?_local : Local N (class? ascii f) (class? ascii f) := by
  have hread (m n : Nat) : Local m
      (fun cs => (classOpening f cs).bind fun p => classItems n ascii f p.1.1 none p.1.2 p.2)
      (fun cs => (classOpening f cs).bind fun p => classItems m ascii f p.1.1 none p.1.2 p.2) :=
    classOpening_local.bind fun p => classItems_local m n p.1 none p.2
  exact ⟨fun h => (hread 0 _).suffix h, fun {cs _ _ _} _ h =>
    (hread (cs.length + 1) _).cut (Nat.lt_succ_self _) h⟩

end
end Workflow.Regex
