import Workflow.Proofs.Regex.Groups

/-!
# Patterns are read locally

A branch is read item by item; an item is a group, and a group has alternatives, which are branches
again. The three readers need fuel, and the reader of a text and that of the text without its ending
are given different amounts of it. Three units for each sign are enough: a group asks for one unit
more than its alternatives, and these for one more than a branch. All this holds in every dialect
whose own readers are local.
-/
namespace Workflow.Regex

/-- What a dialect reads, it reads without a look at what stands behind it. -/
structure Dialect.Forward (d : Dialect) : Prop where
  skip : ∀ {N} f, Local N (fun cs => some ((), d.skip f cs)) (fun cs => some ((), d.skip f cs))
  sign : ∀ {N} f c, Local N (d.sign f c) (d.sign f c)
  bounds : ∀ {N} f c, Local N (d.bounds f c) (d.bounds f c)
  opening : ∀ {N} f, Local N (d.opening f) (d.opening f)

theorem Dialect.resource_forward : resource.Forward where
  skip f := .skip f (.done ())
  sign _ c := sign?_local c
  bounds _ c := bounds?_local c
  opening _ := opening?_local

section
variable {N m n : Nat} {d : Dialect} {items : List (Option Regex)} {f : Flags}

/-- Reads on after a branch: another one behind a bar, or nothing. -/
def alternativesEnd (n : Nat) (d : Dialect) (p : Regex × Flags) : Reading (Regex × Flags)
  | '|' :: rest => (alternatives n d p.2 rest).map fun q => ((.alt p.1 q.1.1, q.1.2), q.2)
  | cs => some (p, cs)

/-- The items of a branch after the first sign of the next one. -/
def branchStep (n : Nat) (d : Dialect) (items : List (Option Regex)) (f : Flags) (c : Char) :
    Reading (Regex × Flags) := fun cs =>
  if isRepetition c then
    (d.bounds f c cs).bind fun p =>
      (repeatLast items p.1).bind fun items => branch n d items f p.2
  else if c = '(' then
    (group n d f (d.skip f cs)).bind fun p => branch n d (p.1.1 :: items) p.1.2 p.2
  else (d.sign f c cs).bind fun p => branch n d (some p.1 :: items) f p.2

/-- The items of a branch from a sign that is no blank on. -/
def branchFrom (n : Nat) (d : Dialect) (items : List (Option Regex)) (f : Flags) :
    Reading (Regex × Flags)
  | [] => some ((ofItems items, f), [])
  | c :: cs =>
    if endsBranch c then some ((ofItems items, f), c :: cs) else branchStep n d items f c cs

def groupBody (n : Nat) (d : Dialect) (f : Flags) (p : Flags × Option (Regex → Regex)) :
    Reading (Option Regex × Flags) := fun cs =>
  match p.2 with
  | none => some ((none, p.1), cs)
  | some make => (alternatives n d p.1 cs).bind fun q => closing f (make q.1.1) q.2

theorem alternatives_succ (cs : List Char) : alternatives (n + 1) d f cs =
    (branch n d [] f cs).bind fun p => alternativesEnd n d p.1 p.2 := by
  rw [alternatives]
  rfl

theorem branch_succ (cs : List Char) :
    branch (n + 1) d items f cs = branchFrom n d items f (d.skip f cs) := by
  rw [branch]
  unfold branchFrom branchStep
  rfl

theorem group_succ (cs : List Char) : group (n + 1) d f cs =
    (d.opening f cs).bind fun p => groupBody n d f p.1 p.2 := by
  rw [group]
  rfl

theorem closing_local (r : Regex) : Local N (closing f r) (closing f r) := by
  have hsplit : Splits ')' (closing f r) (fun cs => some ((some r, f), cs)) (fun _ => none) :=
    ⟨fun _ => rfl, rfl, fun hx cs => by simp [closing, hx]⟩
  exact .head hsplit hsplit (.done _) .fail

/-- What the readers with two amounts of fuel make of the same texts, for texts that the second
has enough fuel for. -/
structure Agree (d : Dialect) (n m : Nat) : Prop where
  alternatives : ∀ {N} f, 3 * N ≤ m + 1 → Local N (alternatives n d f) (alternatives m d f)
  branch : ∀ {N} items f, 3 * N ≤ m + 2 → Local N (branch n d items f) (branch m d items f)
  group : ∀ {N} f, 3 * N ≤ m → Local N (group n d f) (group m d f)

namespace Agree

theorem branchStep (hd : d.Forward) (h : Agree d n m) (c : Char) (hN : 3 * N ≤ m) :
    Local N (branchStep n d items f c) (branchStep m d items f c) := by
  have hrest (items : List (Option Regex)) (f : Flags) :
      Local N (Regex.branch n d items f) (Regex.branch m d items f) :=
    h.branch items f (hN.trans (Nat.le_add_right m 2))
  have hrepeat (bounds : Nat × Option Nat) :
      Local N (fun cs => (repeatLast items bounds).bind fun items => Regex.branch n d items f cs)
        (fun cs => (repeatLast items bounds).bind fun items => Regex.branch m d items f cs) := by
    cases repeatLast items bounds with
    | none => exact .fail
    | some items => exact hrest items f
  unfold Regex.branchStep
  split_ifs
  · exact (hd.bounds f c).bind hrepeat
  · have hgroup : Local N (fun cs => Regex.group n d f (d.skip f cs))
        (fun cs => Regex.group m d f (d.skip f cs)) := (hd.skip f).bind fun _ => h.group f hN
    exact hgroup.bind fun p => hrest (p.1 :: items) p.2
  · exact (hd.sign f c).bind fun r => hrest (some r :: items) f

theorem branch_succ (hd : d.Forward) (h : Agree d n m) (items : List (Option Regex)) (f : Flags)
    (hN : 3 * N ≤ m + 3) :
    Local N (Regex.branch (n + 1) d items f) (Regex.branch (m + 1) d items f) := by
  have hfrom : Local N (branchFrom n d items f) (branchFrom m d items f) :=
    .stopAt endsBranch (ofItems items, f) rfl rfl (fun _ _ => rfl) (fun _ _ => rfl)
      fun c => h.branchStep hd c (by omega)
  exact .congr ((hd.skip f).bind fun _ => hfrom) Regex.branch_succ Regex.branch_succ

theorem alternatives_succ (h : Agree d n m) (f : Flags) (hN : 3 * N ≤ m + 2) :
    Local N (Regex.alternatives (n + 1) d f) (Regex.alternatives (m + 1) d f) := by
  have hend (p : Regex × Flags) : Local N (alternativesEnd n d p) (alternativesEnd m d p) := by
    have hsplit (k : Nat) : Splits '|' (alternativesEnd k d p)
        (fun cs => (Regex.alternatives k d p.2 cs).map fun q => ((.alt p.1 q.1.1, q.1.2), q.2))
        (fun cs => some (p, cs)) :=
      ⟨fun _ => rfl, rfl, fun hx cs => by simp [alternativesEnd, hx]⟩
    have hnext : Local (N - 1) (Regex.alternatives n d p.2) (Regex.alternatives m d p.2) :=
      h.alternatives p.2 (by omega)
    exact .head (hsplit n) (hsplit m) (hnext.map fun q => (Regex.alt p.1 q.1, q.2)) (.done p)
  exact .congr (.bind (h.branch [] f hN) hend) Regex.alternatives_succ Regex.alternatives_succ

theorem group_succ (hd : d.Forward) (h : Agree d n m) (f : Flags) (hN : 3 * N ≤ m + 1) :
    Local N (Regex.group (n + 1) d f) (Regex.group (m + 1) d f) := by
  have hbody (p : Flags × Option (Regex → Regex)) :
      Local N (groupBody n d f p) (groupBody m d f p) := by
    obtain ⟨inner, make⟩ := p
    cases make with
    | none => exact .done _
    | some make => exact (h.alternatives inner hN).bind fun q => closing_local (make q.1)
  exact .congr ((hd.opening f).bind hbody) Regex.group_succ Regex.group_succ

end Agree

/-- However much fuel the first reader has, the second agrees with it on the texts it has enough
for. The induction is on the fuel of the first one, which all of its calls have less of. -/
theorem Dialect.Forward.agree (hd : d.Forward) (n m : Nat) : Agree d n m := by
  induction n generalizing m with
  | zero => exact ⟨fun _ _ => .fail, fun _ _ _ => .fail, fun _ _ => .fail⟩
  | succ n ih =>
    cases m with
    | succ m =>
      exact ⟨fun f hN => (ih m).alternatives_succ f hN,
        fun items f hN => (ih m).branch_succ hd items f hN,
        fun f hN => (ih m).group_succ hd f hN⟩
    | zero =>
      -- Without fuel only readings of no text at all are asked for.
      have hnone {N : Nat} (hN : 3 * N ≤ 2) : N = 0 := by omega
      refine ⟨fun f hN => ?_, fun items f hN => ?_, fun f hN => ?_⟩
      · obtain rfl := hnone (hN.trans (by decide))
        exact ((ih 0).alternatives_succ (N := 0) f (Nat.zero_le 2)).zero
      · obtain rfl := hnone hN
        exact ((ih 0).branch_succ hd (N := 0) items f (Nat.zero_le 3)).zero
      · obtain rfl := hnone (hN.trans (by decide))
        exact ((ih 0).group_succ hd (N := 0) f (Nat.zero_le 1)).zero

theorem names_ofList (rs : List Regex) : (ofList rs).names = rs.flatMap names := by
  induction rs with
  | nil => rfl
  | cons r rs ih =>
    cases rs with
    | nil => exact (List.append_nil r.names).symm
    | cons q rs => exact congrArg (r.names ++ ·) ih

theorem names_ofItems_cons (item : Option Regex) (items : List (Option Regex)) :
    (ofItems (item :: items)).names = (ofItems items).names ++ item.elim [] names := by
  cases item <;> simp [ofItems, names_ofList]

theorem repeatLast_eq_some {bounds : Nat × Option Nat} {items us : List (Option Regex)}
    (h : repeatLast items bounds = some us) : ∃ x before,
      items = some x :: before ∧ us = some (.many x bounds.1 bounds.2) :: before := by
  unfold repeatLast at h
  split at h
  case h_1 x before =>
    cases h
    exact ⟨x, before, rfl, rfl⟩
  case h_2 => cases h

/-- What goes well from one pattern on goes as well from another one: the flags and the rest are the
same ones, and so are the names that are added. -/
def GoesOn (before before' : List (List Char)) (x y : Option ((Regex × Flags) × List Char)) :
    Prop :=
  ∀ r f rest, x = some ((r, f), rest) → ∃ more r', y = some ((r', f), rest) ∧
    r.names = before ++ more ∧ r'.names = before' ++ more

namespace GoesOn
variable {α : Type} {b b' : List (List Char)} {x y : Option ((Regex × Flags) × List Char)}

theorem done (r r' : Regex) (f : Flags) (rest : List Char) :
    GoesOn r.names r'.names (some ((r, f), rest)) (some ((r', f), rest)) := by
  intro _ _ _ h
  cases h
  exact ⟨[], r', rfl, (List.append_nil _).symm, (List.append_nil _).symm⟩

theorem add (added : List (List Char)) (h : GoesOn (b ++ added) (b' ++ added) x y) :
    GoesOn b b' x y := by
  intro r f rest hx
  obtain ⟨more, r', hy, hr, hr'⟩ := h r f rest hx
  refine ⟨added ++ more, r', hy, ?_, ?_⟩
  · rw [hr, List.append_assoc]
  · rw [hr', List.append_assoc]

/-- The same reading comes before. -/
theorem after {o : Option α} {g g' : α → Option ((Regex × Flags) × List Char)}
    (h : ∀ p, o = some p → GoesOn b b' (g p) (g' p)) : GoesOn b b' (o.bind g) (o.bind g') := by
  cases o with
  | none => exact fun _ _ _ hx => nomatch hx
  | some p => exact h p rfl

theorem bind {g g' : (Regex × Flags) × List Char → Option ((Regex × Flags) × List Char)}
    (h : GoesOn b b' x y)
    (hg : ∀ r r' f rest, GoesOn r.names r'.names (g ((r, f), rest)) (g' ((r', f), rest))) :
    GoesOn b b' (x.bind g) (y.bind g') := by
  intro r f rest hx
  obtain ⟨⟨⟨q, e⟩, after⟩, hq, hx⟩ := Option.bind_eq_some_iff.1 hx
  obtain ⟨added, q', hy, hadded, hadded'⟩ := h q e after hq
  obtain ⟨more, r', hr', hmore, hmore'⟩ := hg q q' e after r f rest hx
  refine ⟨added ++ more, r', ?_, ?_, ?_⟩
  · rw [hy]
    exact hr'
  · rw [hmore, hadded, List.append_assoc]
  · rw [hmore', hadded', List.append_assoc]

end GoesOn

/-- Whether a branch can be read on does not depend on the items before, but for the last of them: a
sign of repetition needs a pattern in front of it. -/
theorem branch_goesOn (n : Nat) (d : Dialect) (f : Flags) (cs : List Char)
    {items items' : List (Option Regex)}
    (hlast : ∀ x before, items = some x :: before → ∃ x' before', items' = some x' :: before') :
    GoesOn (ofItems items).names (ofItems items').names (branch n d items f cs)
      (branch n d items' f cs) := by
  induction n generalizing items items' f cs with
  | zero => exact fun _ _ _ hx => nomatch hx
  | succ n ih =>
    have hnext (item : Option Regex) (g : Flags) (rest : List Char) :
        GoesOn (ofItems items).names (ofItems items').names (branch n d (item :: items) g rest)
          (branch n d (item :: items') g rest) := by
      apply GoesOn.add (item.elim [] names)
      rw [← names_ofItems_cons, ← names_ofItems_cons]
      apply ih
      exact fun x _ heq => ⟨x, items', congrArg (· :: items') (List.cons.inj heq).1⟩
    rw [branch_succ, branch_succ]
    cases d.skip f cs with
    | nil => exact .done _ _ f []
    | cons c ds =>
      simp only [branchFrom, branchStep]
      split_ifs
      · exact .done _ _ f (c :: ds)
      · refine .after fun bounds _ => ?_
        cases hitems : repeatLast items bounds.1 with
        | none => exact fun _ _ _ hx => nomatch hx
        | some us =>
          obtain ⟨x, before, rfl, rfl⟩ := repeatLast_eq_some hitems
          obtain ⟨x', before', rfl⟩ := hlast x before rfl
          have hlast' : ∀ y later, some (Regex.many x bounds.1.1 bounds.1.2) :: before =
              some y :: later → ∃ y' later',
                some (Regex.many x' bounds.1.1 bounds.1.2) :: before' = some y' :: later' :=
            fun _ _ _ => ⟨_, _, rfl⟩
          simpa [repeatLast, names_ofItems_cons, names] using ih f bounds.2 hlast'
      · exact .after fun p _ => hnext p.1.1 p.1.2 p.2
      · exact .after fun p _ => hnext (some p.1) f p.2

theorem alternativesEnd_goesOn (n : Nat) (d : Dialect) (r r' : Regex) (f : Flags)
    (cs : List Char) :
    GoesOn r.names r'.names (alternativesEnd n d (r, f) cs) (alternativesEnd n d (r', f) cs) := by
  unfold alternativesEnd
  split
  case h_1 rest =>
    intro q g after h
    obtain ⟨⟨⟨x, e⟩, ds⟩, hx, h⟩ := Option.map_eq_some_iff.1 h
    cases h
    exact ⟨x.names, .alt r' x, by rw [hx]; rfl, rfl, rfl⟩
  case h_2 => exact .done r r' f _

/-- A branch and what comes behind it. -/
theorem branchEnd_goesOn (m n : Nat) (d : Dialect) (f : Flags) (cs : List Char)
    {items items' : List (Option Regex)}
    (hlast : ∀ x before, items = some x :: before → ∃ x' before', items' = some x' :: before') :
    GoesOn (ofItems items).names (ofItems items').names
      ((branch n d items f cs).bind fun p => alternativesEnd m d p.1 p.2)
      ((branch n d items' f cs).bind fun p => alternativesEnd m d p.1 p.2) :=
  (branch_goesOn n d f cs hlast).bind fun r r' g rest => alternativesEnd_goesOn m d r r' g rest

end
end Workflow.Regex
