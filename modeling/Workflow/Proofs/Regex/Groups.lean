import Workflow.Proofs.Regex.Signs

/-!
# What stands between branches and groups

Flags, bounds of repetitions and names of groups are read locally, and so is what a group opens
with. Together with signs and blanks this is all that a dialect has to say about how patterns are
read.
-/
namespace Workflow.Regex

section
variable {N : Nat} {f : Flags}

theorem readFlags_cons (f : Flags) (on : Bool) (seen : List Char) (c : Char) :
    (∀ cs, readFlags f on seen (c :: cs) = none) ∨
      (∃ x, ∀ cs, readFlags f on seen (c :: cs) = some (x, cs)) ∨
      ∃ f' on' seen', ∀ cs, readFlags f on seen (c :: cs) = readFlags f' on' seen' cs := by
  by_cases hend : c = ')' ∨ c = ':'
  · by_cases hbad : seen.head? = some '-' ∨ (c = ')' ∧ seen.isEmpty)
    · exact .inl fun cs => by simp only [readFlags, if_pos hend, if_pos hbad]
    · exact .inr (.inl ⟨(f, c), fun cs => by
        simp only [readFlags, if_pos hend, if_neg hbad]⟩)
  by_cases hdash : c = '-'
  · cases on with
    | false => exact .inl fun cs => by simp [readFlags, hdash]
    | true =>
      exact .inr (.inr ⟨f, false, '-' :: seen, fun cs => by simp [readFlags, hdash]⟩)
  by_cases hseen : seen.contains c
  · exact .inl fun cs => by
      simp only [readFlags, if_neg hend, if_neg hdash, if_pos hseen]
  cases hset : f.set? c on with
  | none =>
    exact .inl fun cs => by
      simp [readFlags, if_neg hend, if_neg hdash, hset]
  | some f' =>
    exact .inr (.inr ⟨f', on, c :: seen, fun cs => by
      simp only [readFlags, if_neg hend, if_neg hdash, if_neg hseen, hset]⟩)

theorem readFlags_suffix {on : Bool} {seen cs rest : List Char} {x : Flags × Char}
    (h : readFlags f on seen cs = some (x, rest)) : rest <:+ cs := by
  induction cs generalizing f on seen with
  | nil => cases h
  | cons c cs ih =>
    refine List.IsSuffix.trans ?_ (List.suffix_cons c cs)
    rcases readFlags_cons f on seen c with hc | ⟨y, hc⟩ | ⟨f', on', seen', hc⟩
    · rw [hc] at h
      cases h
    · rw [hc] at h
      cases h
      exact List.suffix_rfl
    · exact ih (hc cs ▸ h)

theorem readFlags_local (on : Bool) (seen : List Char) :
    Local N (readFlags f on seen) (readFlags f on seen) := by
  induction N generalizing f on seen with
  | zero => exact ⟨readFlags_suffix, fun hlt => absurd hlt (Nat.not_lt_zero _)⟩
  | succ N ih =>
    refine .uncons rfl fun c => ?_
    rcases readFlags_cons f on seen c with hc | ⟨y, hc⟩ | ⟨f', on', seen', hc⟩
    · exact Local.fail.congr hc hc
    · exact (Local.done y).congr hc hc
    · exact (ih on' seen').congr hc hc

theorem readFlags_cons_local (on : Bool) (seen : List Char) (c : Char) :
    Local N (fun cs => readFlags f on seen (c :: cs))
      (fun cs => readFlags f on seen (c :: cs)) := by
  rcases readFlags_cons f on seen c with hc | ⟨y, hc⟩ | ⟨f', on', seen', hc⟩
  · exact Local.fail.congr hc hc
  · exact (Local.done y).congr hc hc
  · exact (readFlags_local on' seen').congr hc hc

theorem readCount_local : Local N readCount readCount := by
  have hnumber (ds : List Char) : Local N (fun cs => (ofDigits? ds).map (·, cs))
      (fun cs => (ofDigits? ds).map (·, cs)) :=
    .blind fun cs => by cases ofDigits? ds <;> rfl
  have hdigits : Local N
      (fun cs => (ofDigits? (cs.takeWhile Char.isDigit)).map
        (·, (cs.dropWhile Char.isDigit).dropWhile Text.isBlank))
      (fun cs => (ofDigits? (cs.takeWhile Char.isDigit)).map
        (·, (cs.dropWhile Char.isDigit).dropWhile Text.isBlank)) :=
    .span (G := fun ds cs => (ofDigits? ds).map (·, cs.dropWhile Text.isBlank)) Char.isDigit
      fun ds => .span (G := fun _ cs => (ofDigits? ds).map (·, cs)) Text.isBlank
        fun _ => hnumber ds
  exact .span (G := fun _ cs => (ofDigits? (cs.takeWhile Char.isDigit)).map
    (·, (cs.dropWhile Char.isDigit).dropWhile Text.isBlank)) Text.isBlank fun _ => hdigits

theorem boundsEnd?_local (least most : Nat) :
    Local N (boundsEnd? least most) (boundsEnd? least most) := by
  refine .uncons rfl fun c => ?_
  by_cases hc : c = '\x7d'
  · subst hc
    refine .blind fun cs => ?_
    simp only [boundsEnd?]
    split_ifs <;> rfl
  · exact Local.fail.congr (fun cs => by simp [boundsEnd?, hc]) fun _ => rfl

theorem mostBound?_local (least : Nat) : Local N (mostBound? least) (mostBound? least) := by
  have hsplit : Splits '\x7d' (mostBound? least) (fun cs => some ((least, none), cs))
      (fun cs => (readCount cs).bind fun p => boundsEnd? least p.1 p.2) :=
    ⟨fun _ => rfl, rfl, fun hx cs => by simp [mostBound?, hx]⟩
  exact .head hsplit hsplit (.done _) (.bind readCount_local (boundsEnd?_local least))

theorem leastBound?_local (least : Nat) :
    Local N (leastBound? f least) (leastBound? f least) := by
  refine .uncons rfl fun c => ?_
  by_cases hclose : c = '\x7d'
  · subst hclose
    exact .done _
  by_cases hcomma : c = ','
  · subst hcomma
    exact .skip f (mostBound?_local least)
  · exact Local.fail.congr (fun cs => by simp [leastBound?, hclose, hcomma]) fun _ => rfl

theorem readBounds_local : Local N (readBounds f) (readBounds f) :=
  .skip f (.bind readCount_local leastBound?_local)

theorem bounds?_local (c : Char) : Local N (bounds? f c) (bounds? f c) := by
  have hlazy (bounds : Nat × Option Nat) : Local N (fun cs => some (bounds, dropLazy cs))
      (fun cs => some (bounds, dropLazy cs)) := .lazy (.done bounds)
  unfold bounds?
  split
  case h_4 =>
    have hbraces : Local N
        (fun cs => (readBounds f cs).bind fun p => some (p.1, dropLazy (skipVerbose f p.2)))
        (fun cs => (readBounds f cs).bind fun p => some (p.1, dropLazy (skipVerbose f p.2))) :=
      readBounds_local.bind fun bounds => .skip f (hlazy bounds)
    exact hbraces.congr (fun _ => Option.map_eq_bind) fun _ => Option.map_eq_bind
  all_goals exact hlazy _

theorem groupName?_local : Local N groupName? groupName? := by
  refine .upTo (· != '>') (fun cs h => ?_) (fun ds stop hds hstop => .blind fun cs => ?_)
  · simp [groupName?, List.dropWhile_eq_nil_iff.2 h]
  · simp only [groupName?, dropWhile_stop hds hstop, takeWhile_stop hds hstop]
    split_ifs <;> rfl

end

section
variable {N : Nat} {ascii lookaround : Bool} {f : Flags}

theorem sign?_local (c : Char) : Local N (sign? ascii f c) (sign? ascii f c) := by
  have hset (o : Option Regex) : Local N (fun cs => o.map (·, cs)) (fun cs => o.map (·, cs)) :=
    .blind fun cs => by cases o <;> rfl
  unfold sign?
  split
  case h_1 => exact hset _
  case h_4 => exact class?_local.bind fun s => hset (ofSet? f s)
  case h_5 => exact escape?_local.bind fun sign => hset (ofSign? f sign)
  all_goals exact .done _

/-- What stands between `?<` and the body of a group, unless it begins with an equals sign. -/
def nameOrNotBehind (lookaround : Bool) (f : Flags) : Reading (Flags × Option (Regex → Regex))
  | '!' :: rest => lookOpening lookaround f (.behind false) rest
  | cs => nameOpening f cs

theorem lookOpening_local (make : Regex → Regex) :
    Local N (lookOpening lookaround f make) (lookOpening lookaround f make) :=
  .blind fun cs => by dsimp only [lookOpening]; split_ifs <;> rfl

theorem nameOpening_local : Local N (nameOpening f) (nameOpening f) :=
  groupName?_local.map fun name => (f, some (Regex.grouped (some name)))

theorem flagsOpening_cons_local (c : Char) :
    Local N (fun cs => flagsOpening f (c :: cs)) (fun cs => flagsOpening f (c :: cs)) :=
  (readFlags_cons_local true [] c).map fun p =>
    (p.1, if p.2 = ')' then none else some (Regex.grouped none))

theorem nameOrNotBehind_local :
    Local N (nameOrNotBehind lookaround f) (nameOrNotBehind lookaround f) := by
  have hsplit : Splits '!' (nameOrNotBehind lookaround f) (lookOpening lookaround f (.behind false))
      (nameOpening f) := ⟨fun _ => rfl, rfl, fun hx cs => by simp [nameOrNotBehind, hx]⟩
  exact .head hsplit hsplit (lookOpening_local (.behind false)) nameOpening_local

theorem opening?_behind_local :
    Local N (fun cs => opening? lookaround f ('?' :: '<' :: cs))
      (fun cs => opening? lookaround f ('?' :: '<' :: cs)) := by
  have hsplit : Splits '=' (fun cs => opening? lookaround f ('?' :: '<' :: cs))
      (lookOpening lookaround f (.behind true)) (nameOrNotBehind lookaround f) := by
    refine ⟨fun _ => rfl, rfl, fun {x} hx cs => ?_⟩
    by_cases hmark : x = '!'
    · subst hmark
      rfl
    · simp [opening?, nameOrNotBehind, hx, hmark]
  exact .head hsplit hsplit (lookOpening_local (.behind true)) nameOrNotBehind_local

theorem opening?_mark_local (c : Char) :
    Local N (fun cs => opening? lookaround f ('?' :: c :: cs))
      (fun cs => opening? lookaround f ('?' :: c :: cs)) := by
  by_cases hahead : c = '='
  · subst hahead
    exact lookOpening_local (.ahead true)
  by_cases hnot : c = '!'
  · subst hnot
    exact lookOpening_local (.ahead false)
  by_cases hless : c = '<'
  · subst hless
    exact opening?_behind_local
  by_cases hname : c = 'P'
  · subst hname
    have hsplit : Splits '<' (fun cs => opening? lookaround f ('?' :: 'P' :: cs)) (nameOpening f)
        (fun cs => flagsOpening f ('P' :: cs)) :=
      ⟨fun _ => rfl, rfl, fun hx cs => by simp [opening?, hx]⟩
    exact .head hsplit hsplit nameOpening_local (flagsOpening_cons_local 'P')
  · have hflags (cs : List Char) :
        opening? lookaround f ('?' :: c :: cs) = flagsOpening f (c :: cs) := by
      simp [opening?, hahead, hnot, hless, hname]
    exact .congr (flagsOpening_cons_local c) hflags hflags

theorem opening?_local : Local N (opening? lookaround f) (opening? lookaround f) := by
  have hsplit : Splits '?' (opening? lookaround f) (fun cs => opening? lookaround f ('?' :: cs))
      (fun cs => some ((f, some (.grouped none)), cs)) :=
    ⟨fun _ => rfl, rfl, fun hx cs => by simp [opening?, hx]⟩
  exact .head hsplit hsplit (.uncons rfl opening?_mark_local) (.done _)

end

end Workflow.Regex
