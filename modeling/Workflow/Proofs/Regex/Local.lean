import Workflow.Regex.Reader
import Mathlib.Data.List.Infix
import Mathlib.Data.List.TakeWhile

/-!
# Readers of patterns look at no more than they take

What the reader of patterns makes of a text does not depend on what stands behind the place where
it stops: of the text cut off at that place or later it makes the same.
-/
namespace Workflow.Regex

/-- A reading leaves an ending of its text, and what it makes of a text another one makes of the
text without an ending that was left. The two differ where they have fuel; the second has enough of
it for texts below a length. -/
structure Local {α : Type} (N : Nat) (F F' : Reading α) : Prop where
  suffix : ∀ {cs x rest}, F cs = some (x, rest) → rest <:+ cs
  cut : ∀ {cs v x w}, cs.length < N → F (cs ++ v) = some (x, w ++ v) → F' cs = some (x, w)

/-- A reading is one reading after a sign, and another one of any other text. -/
structure Splits {α : Type} (c : Char) (F A B : Reading α) : Prop where
  cons : ∀ cs, F (c :: cs) = A cs
  nil : F [] = B []
  other : ∀ {x : Char}, x ≠ c → ∀ cs, F (x :: cs) = B (x :: cs)

theorem Splits.cases {α : Type} {c : Char} {F A B : Reading α} (h : Splits c F A B)
    (cs : List Char) : (∃ r, cs = c :: r ∧ F cs = A r) ∨ cs.head? ≠ some c ∧ F cs = B cs := by
  cases cs with
  | nil => exact .inr ⟨nofun, h.nil⟩
  | cons x r =>
    by_cases hx : x = c
    · exact .inl ⟨r, hx ▸ rfl, hx ▸ h.cons r⟩
    · exact .inr ⟨fun heq => hx (Option.some.inj heq), h.other hx r⟩

section
variable {α β : Type} {M N : Nat} {F F' F'' : Reading α} {cs rest v w : List Char}

theorem exists_append (h : w ++ v <:+ rest) (h' : rest <:+ cs ++ v) :
    ∃ r, rest = r ++ v ∧ w <:+ r ∧ r <:+ cs := by
  obtain ⟨r, rfl⟩ := (List.suffix_append w v).trans h
  exact ⟨r, rfl, List.suffix_append_self_iff.1 h, List.suffix_append_self_iff.1 h'⟩

theorem not_append_suffix {c : Char} : ¬w ++ c :: v <:+ v := by
  intro h
  have hlen := h.length_le
  rw [List.length_append, List.length_cons] at hlen
  omega

theorem eq_nil_of_append_suffix (h : w ++ v <:+ v) : w = [] :=
  List.append_left_eq_self.1 (h.eq_of_length_le (List.suffix_append w v).length_le)

namespace Local

theorem mono (h : Local N F F') (hM : M ≤ N) : Local M F F' :=
  ⟨h.suffix, fun hlt => h.cut (hlt.trans_le hM)⟩

theorem zero (h : Local N F F') : Local 0 F F'' :=
  ⟨h.suffix, fun hlt => absurd hlt (Nat.not_lt_zero _)⟩

theorem congr {G G' : Reading α} (h : Local N G G') (hF : ∀ cs, F cs = G cs)
    (hF' : ∀ cs, F' cs = G' cs) : Local N F F' := by
  obtain rfl : F = G := funext hF
  obtain rfl : F' = G' := funext hF'
  exact h

theorem fail : Local N (fun _ => none) F' := ⟨nofun, nofun⟩

theorem done (x : α) : Local N (fun cs => some (x, cs)) (fun cs => some (x, cs)) := by
  refine ⟨fun h => ?_, fun _ h => ?_⟩
  · cases h
    exact List.suffix_rfl
  · obtain ⟨rfl, hrest⟩ := Prod.mk.inj (Option.some.inj h)
    rw [List.append_cancel_right hrest]

/-- A reading that does not look at the text. -/
theorem blind (h : ∀ cs, F cs = ((F []).map Prod.fst).map (·, cs)) : Local N F F := by
  cases hnil : F [] with
  | none =>
    exact fail.congr (fun cs => by rw [h, hnil]; rfl) fun _ => rfl
  | some p =>
    have hF (cs : List Char) : F cs = some (p.1, cs) := by
      rw [h, hnil]
      rfl
    exact (done p.1).congr hF hF

/-- One reading after the other. -/
theorem bind {G G' : α → Reading β} (hF : Local N F F') (hG : ∀ x, Local N (G x) (G' x)) :
    Local N (fun cs => (F cs).bind fun p => G p.1 p.2)
      (fun cs => (F' cs).bind fun p => G' p.1 p.2) := by
  refine ⟨fun h => ?_, fun hlt h => ?_⟩
  · obtain ⟨⟨y, r⟩, hy, hx⟩ := Option.bind_eq_some_iff.1 h
    exact ((hG y).suffix hx).trans (hF.suffix hy)
  · obtain ⟨⟨y, r⟩, hy, hx⟩ := Option.bind_eq_some_iff.1 h
    obtain ⟨r, rfl, -, hr⟩ := exists_append ((hG y).suffix hx) (hF.suffix hy)
    exact Option.bind_eq_some_iff.2
      ⟨(y, r), hF.cut hlt hy, (hG y).cut (hr.length_le.trans_lt hlt) hx⟩

theorem map (g : α → β) (hF : Local N F F') :
    Local N (fun cs => (F cs).map (fun p => (g p.1, p.2)))
      (fun cs => (F' cs).map (fun p => (g p.1, p.2))) :=
  (hF.bind (fun x => done (g x))).congr (fun _ => Option.map_eq_bind) (fun _ => Option.map_eq_bind)

/-- A reading that takes at least one sign. -/
theorem uncons (hnil : F [] = none)
    (h : ∀ c, Local (N - 1) (fun cs => F (c :: cs)) (fun cs => F' (c :: cs))) : Local N F F' := by
  refine ⟨fun {cs _ _} hcs => ?_, fun {cs v _ _} hlt hcs => ?_⟩
  · cases cs with
    | nil => rw [hnil] at hcs; cases hcs
    | cons c cs => exact ((h c).suffix hcs).trans (List.suffix_cons c cs)
  · cases cs with
    | nil =>
      cases v with
      | nil => rw [List.append_nil, hnil] at hcs; cases hcs
      | cons c v => exact absurd ((h c).suffix hcs) not_append_suffix
    | cons c cs => exact (h c).cut (Nat.lt_sub_of_add_lt hlt) hcs

/-- A reading that goes on in one way after a sign, and otherwise in another. -/
theorem head {A A' B B' : Reading α} {c : Char} (hF : Splits c F A B) (hF' : Splits c F' A' B')
    (hA : Local (N - 1) A A') (hB : Local N B B') : Local N F F' := by
  refine ⟨fun {cs _ _} hcs => ?_, fun {cs v _ _} hlt hcs => ?_⟩
  · rcases hF.cases cs with ⟨r, rfl, hr⟩ | ⟨-, hother⟩
    · exact (hA.suffix (hr.symm.trans hcs)).trans (List.suffix_cons c r)
    · exact hB.suffix (hother.symm.trans hcs)
  · cases cs with
    | nil =>
      rw [hF'.nil]
      rcases hF.cases v with ⟨r, rfl, hr⟩ | ⟨-, hother⟩
      · exact absurd (hA.suffix (hr.symm.trans hcs)) not_append_suffix
      · exact hB.cut hlt (hother.symm.trans hcs)
    | cons x cs =>
      by_cases hx : x = c
      · subst hx
        exact (hF'.cons cs).trans (hA.cut (Nat.lt_sub_of_add_lt hlt) ((hF.cons _).symm.trans hcs))
      · exact (hF'.other hx cs).trans (hB.cut hlt ((hF.other hx _).symm.trans hcs))

/-- A reading that stops at the end and in front of some signs, and otherwise takes a sign. -/
theorem stopAt {G G' : Char → Reading α} (stop : Char → Bool) (x : α)
    (hnil : F [] = some (x, [])) (hnil' : F' [] = some (x, []))
    (hcons : ∀ c cs, F (c :: cs) = if stop c then some (x, c :: cs) else G c cs)
    (hcons' : ∀ c cs, F' (c :: cs) = if stop c then some (x, c :: cs) else G' c cs)
    (hG : ∀ c, Local (N - 1) (G c) (G' c)) : Local N F F' := by
  -- In front of the end or of a sign that stops it, the reading is one that takes nothing.
  have hstay {cs : List Char} {y : α} {w v : List Char}
      (h : some (x, cs ++ v) = some (y, w ++ v)) : some (x, cs) = some (y, w) := by
    obtain ⟨rfl, hrest⟩ := Prod.mk.inj (Option.some.inj h)
    rw [List.append_cancel_right hrest]
  refine ⟨fun {cs _ _} hcs => ?_, fun {cs v y w} hlt hcs => ?_⟩
  · cases cs with
    | nil =>
      cases hnil ▸ hcs
      exact List.suffix_rfl
    | cons c cs =>
      rw [hcons] at hcs
      split_ifs at hcs
      · cases hcs
        exact List.suffix_rfl
      · exact ((hG c).suffix hcs).trans (List.suffix_cons c cs)
  · cases cs with
    | nil =>
      rw [hnil']
      rw [List.nil_append] at hcs
      cases v with
      | nil => exact hstay (hnil ▸ hcs)
      | cons c v =>
        rw [hcons] at hcs
        split_ifs at hcs
        · exact hstay hcs
        · exact absurd ((hG c).suffix hcs) not_append_suffix
    | cons c cs =>
      rw [List.cons_append, hcons] at hcs
      rw [hcons']
      split_ifs at hcs ⊢
      · exact hstay hcs
      · exact (hG c).cut (Nat.lt_sub_of_add_lt hlt) hcs

/-- A reading, and another one where it fails. Whether it fails must not depend on the end. -/
theorem orElse {A : Reading α} {B B' : Reading β} {K K' : α → Reading β} (hA : Local N A A)
    (happend : ∀ {cs x rest}, A cs = some (x, rest) → ∀ v, A (cs ++ v) = some (x, rest ++ v))
    (hK : ∀ x, Local N (K x) (K' x)) (hB : Local N B B') :
    Local N (fun cs => match A cs with | some (x, rest) => K x rest | none => B cs)
      (fun cs => match A cs with | some (x, rest) => K' x rest | none => B' cs) := by
  refine ⟨fun {cs _ _} hcs => ?_, fun {cs v x w} hlt hcs => ?_⟩
  · cases hown : A cs with
    | some p =>
      simp only [hown] at hcs
      exact ((hK _).suffix hcs).trans (hA.suffix hown)
    | none =>
      simp only [hown] at hcs
      exact hB.suffix hcs
  · cases hown : A (cs ++ v) with
    | some p =>
      simp only [hown] at hcs
      obtain ⟨r, hr, -, hrcs⟩ := exists_append ((hK _).suffix hcs) (hA.suffix hown)
      have hcut : A cs = some (p.1, r) := hA.cut hlt (hown.trans (by rw [← hr]))
      rw [hr] at hcs
      simpa only [hcut] using (hK _).cut (hrcs.length_le.trans_lt hlt) hcs
    | none =>
      have hcut : A cs = none := by
        cases hc : A cs with
        | none => rfl
        | some p => exact absurd ((happend hc v).symm.trans hown) nofun
      simp only [hown] at hcs
      simpa only [hcut] using hB.cut hlt hcs

end Local

theorem dropWhile_cut {p : Char → Bool} (h : (cs ++ v).dropWhile p = w ++ v) :
    cs.dropWhile p = w ∧ (cs ++ v).takeWhile p = cs.takeWhile p := by
  induction cs with
  | nil =>
    obtain rfl : w = [] := eq_nil_of_append_suffix (h ▸ List.dropWhile_suffix p)
    refine ⟨rfl, ?_⟩
    have hall := List.takeWhile_append_dropWhile (p := p) (l := v)
    rw [show v.dropWhile p = v from h] at hall
    exact List.append_left_eq_self.1 hall
  | cons c cs ih =>
    by_cases hc : p c
    · simpa [hc] using ih (by simpa [hc] using h)
    · have hw : c :: cs ++ v = w ++ v := by simpa [hc] using h
      simp [hc, ← List.append_cancel_right hw]

theorem dropWhile_extend {p : Char → Bool} {c : Char} (h : cs.dropWhile p = c :: rest)
    (v : List Char) :
    (cs ++ v).dropWhile p = c :: (rest ++ v) ∧ (cs ++ v).takeWhile p = cs.takeWhile p := by
  have hdrop : (cs ++ v).dropWhile p = c :: rest ++ v := by
    rw [List.dropWhile_append, h]
    rfl
  exact ⟨hdrop, (dropWhile_cut hdrop).2⟩

theorem dropWhile_stop {p : Char → Bool} {ds : List Char} {stop : Char}
    (hds : ∀ c ∈ ds, p c = true) (hstop : p stop = false) (cs : List Char) :
    (ds ++ stop :: cs).dropWhile p = stop :: cs := by
  rw [List.dropWhile_append_of_pos hds]
  simp [hstop]

theorem takeWhile_stop {p : Char → Bool} {ds : List Char} {stop : Char}
    (hds : ∀ c ∈ ds, p c = true) (hstop : p stop = false) (cs : List Char) :
    (ds ++ stop :: cs).takeWhile p = ds := by
  rw [List.takeWhile_append_of_pos hds]
  simp [hstop]

theorem stop_or_all (p : Char → Bool) (cs : List Char) :
    (∀ c ∈ cs, p c = true) ∨
      ∃ ds stop after, cs = ds ++ stop :: after ∧ (∀ c ∈ ds, p c = true) ∧ p stop = false := by
  induction cs with
  | nil => exact .inl nofun
  | cons c cs ih =>
    cases hc : p c with
    | false => exact .inr ⟨[], c, cs, rfl, nofun, hc⟩
    | true =>
      rcases ih with hall | ⟨ds, stop, after, rfl, hds, hstop⟩
      · exact .inl (List.forall_mem_cons.2 ⟨hc, hall⟩)
      · exact .inr ⟨c :: ds, stop, after, rfl, List.forall_mem_cons.2 ⟨hc, hds⟩, hstop⟩

namespace Local

/-- The signs up to a stop, and then the rest. -/
theorem span {G G' : List Char → Reading α} (p : Char → Bool) (h : ∀ ds, Local N (G ds) (G' ds)) :
    Local N (fun cs => G (cs.takeWhile p) (cs.dropWhile p))
      (fun cs => G' (cs.takeWhile p) (cs.dropWhile p)) := by
  refine ⟨fun hcs => ?_, fun {cs v _ _} hlt hcs => ?_⟩
  · exact ((h _).suffix hcs).trans (List.dropWhile_suffix p)
  · obtain ⟨r, hr, -, hrcs⟩ := exists_append ((h _).suffix hcs) (List.dropWhile_suffix p)
    obtain ⟨hown, htake⟩ := dropWhile_cut hr
    rw [htake, hr] at hcs
    exact hown ▸ (h _).cut (hrcs.length_le.trans_lt hlt) hcs

/-- The signs up to a stop, the stop, and then the rest. -/
theorem upTo (p : Char → Bool) (hnone : ∀ cs, (∀ c ∈ cs, p c = true) → F cs = none)
    (h : ∀ ds stop, (∀ c ∈ ds, p c = true) → p stop = false →
      Local N (fun cs => F (ds ++ stop :: cs)) (fun cs => F' (ds ++ stop :: cs))) :
    Local N F F' := by
  refine ⟨fun {cs _ _} hcs => ?_, fun {cs v _ _} hlt hcs => ?_⟩
  · rcases stop_or_all p cs with hall | ⟨ds, stop, after, rfl, hds, hstop⟩
    · rw [hnone cs hall] at hcs
      cases hcs
    · exact ((h ds stop hds hstop).suffix hcs).trans
        ((List.suffix_cons stop after).trans (List.suffix_append ds _))
  · rcases stop_or_all p cs with hall | ⟨ds, stop, after, rfl, hds, hstop⟩
    · rcases stop_or_all p v with hv | ⟨ds, stop, after, rfl, hds, hstop⟩
      · rw [hnone _ fun c hc => (List.mem_append.1 hc).elim (hall c) (hv c)] at hcs
        cases hcs
      · rw [← List.append_assoc] at hcs
        have hlen := ((h _ stop (fun c hc => (List.mem_append.1 hc).elim (hall c) (hds c))
          hstop).suffix hcs).length_le
        simp only [List.length_append, List.length_cons] at hlen
        omega
    · rw [List.append_assoc, List.cons_append] at hcs
      rw [List.length_append, List.length_cons] at hlt
      exact (h ds stop hds hstop).cut (by omega) hcs

/-- A fixed number of signs, and then the rest. -/
theorem counted (n : Nat) (hnone : ∀ cs, cs.length < n → F cs = none)
    (h : ∀ ds, ds.length = n → Local N (fun cs => F (ds ++ cs)) (fun cs => F' (ds ++ cs))) :
    Local N F F' := by
  refine ⟨fun {cs _ _} hcs => ?_, fun {cs v _ _} hlt hcs => ?_⟩
  · by_cases hn : cs.length < n
    · rw [hnone cs hn] at hcs
      cases hcs
    · rw [← List.take_append_drop n cs] at hcs ⊢
      exact ((h _ (List.length_take_of_le (Nat.le_of_not_lt hn))).suffix hcs).trans
        (List.suffix_append _ _)
  · by_cases hn : (cs ++ v).length < n
    · rw [hnone _ hn] at hcs
      cases hcs
    · have hds := List.length_take_of_le (Nat.le_of_not_lt hn)
      rw [← List.take_append_drop n (cs ++ v)] at hcs
      have hlen := ((h _ hds).suffix hcs).length_le
      simp only [List.length_drop, List.length_append] at hlen hn
      have hle : n ≤ cs.length := by omega
      rw [List.take_append_of_le_length hle, List.drop_append_of_le_length hle] at hcs
      rw [← List.take_append_drop n cs]
      refine (h _ (List.length_take_of_le hle)).cut ?_ hcs
      rw [List.length_drop]
      omega

end Local
end

section
variable {α : Type} {N : Nat} {F F' : Reading α} {cs v : List Char}

theorem go_suffix (n : Nat) (cs : List Char) : skipVerbose.go n cs <:+ cs := by
  induction n generalizing cs with
  | zero => exact List.suffix_rfl
  | succ n ih =>
    rw [skipVerbose.go]
    split
    case h_1 rest h =>
      have hmark : '#' :: rest <:+ cs := h ▸ List.dropWhile_suffix _
      exact (ih _).trans ((List.drop_suffix _ _).trans ((List.dropWhile_suffix _).trans
        ((List.suffix_cons _ _).trans hmark)))
    case h_2 => exact List.dropWhile_suffix _

theorem skipVerbose_suffix (f : Flags) (cs : List Char) : skipVerbose f cs <:+ cs := by
  rw [skipVerbose]
  split
  · exact go_suffix _ _
  · exact List.suffix_rfl

/-- With enough fuel, skipping from the start of a text either stops in it or skips it all. -/
theorem go_append (m n : Nat) (cs : List Char) (hm : cs.length < m) (hn : (cs ++ v).length < n) :
    skipVerbose.go n (cs ++ v) = skipVerbose.go m cs ++ v ∨
      skipVerbose.go m cs = [] ∧ skipVerbose.go n (cs ++ v) <:+ v := by
  induction m generalizing n cs with
  | zero => exact absurd hm (Nat.not_lt_zero _)
  | succ m ih =>
    obtain ⟨n, rfl⟩ := Nat.exists_eq_succ_of_ne_zero (Nat.ne_zero_of_lt hn)
    cases hown : cs.dropWhile Text.isBlank with
    | nil =>
      have hall : (cs ++ v).dropWhile Text.isBlank = v.dropWhile Text.isBlank := by
        rw [List.dropWhile_append, hown]
        rfl
      have hgo : skipVerbose.go (n + 1) (cs ++ v) = skipVerbose.go (n + 1) v := by
        rw [skipVerbose.go, skipVerbose.go, hall]
      refine .inr ⟨?_, hgo ▸ go_suffix _ _⟩
      rw [skipVerbose.go, hown]
    | cons c rest =>
      have hboth : (cs ++ v).dropWhile Text.isBlank = c :: (rest ++ v) := by
        rw [List.dropWhile_append, hown]
        rfl
      have hlen : rest.length < cs.length := (hown ▸ List.dropWhile_suffix Text.isBlank).length_le
      by_cases hc : c = '#'
      · subst hc
        simp only [skipVerbose.go, hown, hboth]
        cases hline : rest.dropWhile (· != '\n') with
        | nil =>
          have hall : (rest ++ v).dropWhile (· != '\n') = v.dropWhile (· != '\n') := by
            rw [List.dropWhile_append, hline]
            rfl
          rw [hall]
          refine .inr ⟨?_, ?_⟩
          · exact List.suffix_nil.1 (go_suffix m _)
          · exact (go_suffix n _).trans ((List.drop_suffix _ _).trans (List.dropWhile_suffix _))
        | cons x after =>
          have hline' : (rest ++ v).dropWhile (· != '\n') = x :: (after ++ v) := by
            rw [List.dropWhile_append, hline]
            rfl
          have hafter : after.length < rest.length :=
            (hline ▸ List.dropWhile_suffix (· != '\n')).length_le
          rw [hline']
          rw [List.length_append] at hn
          exact ih n after (by omega) (by rw [List.length_append]; omega)
      · simp [skipVerbose.go, hown, hboth, hc]

theorem skipVerbose_append (f : Flags) (cs v : List Char) :
    skipVerbose f (cs ++ v) = skipVerbose f cs ++ v ∨
      skipVerbose f cs = [] ∧ skipVerbose f (cs ++ v) <:+ v := by
  rw [skipVerbose, skipVerbose]
  split
  · exact go_append _ _ cs (Nat.lt_succ_self _) (Nat.lt_succ_self _)
  · exact .inl rfl

theorem skipVerbose_cut {f : Flags} {r : List Char} (h : skipVerbose f (cs ++ v) = r ++ v) :
    skipVerbose f cs = r := by
  rcases skipVerbose_append f cs v with hown | ⟨hown, hpast⟩
  · exact List.append_cancel_right (hown.symm.trans h)
  · rw [h] at hpast
    rw [hown, eq_nil_of_append_suffix hpast]

namespace Local

theorem skip (f : Flags) (h : Local N F F') :
    Local N (fun cs => F (skipVerbose f cs)) (fun cs => F' (skipVerbose f cs)) := by
  refine ⟨fun hcs => (h.suffix hcs).trans (skipVerbose_suffix f _), fun hlt hcs => ?_⟩
  obtain ⟨r, hr, -, hrcs⟩ := exists_append (h.suffix hcs) (skipVerbose_suffix f _)
  exact skipVerbose_cut hr ▸ h.cut (hrcs.length_le.trans_lt hlt) (hr ▸ hcs)

end Local

theorem Local.lazy (h : Local N F F') :
    Local N (fun cs => F (dropLazy cs)) (fun cs => F' (dropLazy cs)) := by
  have hsplit (F : Reading α) : Splits '?' (fun cs => F (dropLazy cs)) F F :=
    ⟨fun _ => rfl, rfl, fun hx cs => by simp [dropLazy, hx]⟩
  exact .head (hsplit F) (hsplit F') (h.mono (Nat.sub_le N 1)) h

theorem Local.caret {G G' : Bool → Reading α} (htrue : Local N (G true) (G' true))
    (hfalse : Local N (G false) (G' false)) :
    Local N (fun cs => G (Regex.caret cs).1 (Regex.caret cs).2)
      (fun cs => G' (Regex.caret cs).1 (Regex.caret cs).2) := by
  have hsplit (G : Bool → Reading α) :
      Splits '^' (fun cs => G (Regex.caret cs).1 (Regex.caret cs).2) (G true) (G false) :=
    ⟨fun _ => rfl, rfl, fun hx cs => by simp [Regex.caret, hx]⟩
  exact .head (hsplit G) (hsplit G') (htrue.mono (Nat.sub_le N 1)) hfalse

end
end Workflow.Regex
