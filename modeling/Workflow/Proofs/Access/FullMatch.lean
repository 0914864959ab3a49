import Workflow.Access.Permissions
import Workflow.Proofs.Regex.Branches
import Workflow.Proofs.Regex.Matching
import Mathlib.Data.List.Permutation

/-!
# Policies match whole resources

The pattern of a policy is put into a group between two anchors. As patterns are read locally, the
alternatives of that group are the pattern itself if the group ends where its own parenthesis
stands. It can end before it, at a parenthesis of the pattern that nothing opens.
-/
namespace Workflow.Regex

/-- What every dialect agrees on: it reads forward, and where no flags are set, the signs that a
pattern is anchored with mean what they say. A pattern nests no deeper than its anchored text. -/
structure Dialect.Lawful (d : Dialect) : Prop extends d.Forward where
  blanks : ∀ cs, d.skip {} cs = cs
  caret : ∀ cs, d.sign {} '^' cs = some (.anchor .textStart, cs)
  dollar : ∀ cs, d.sign {} '$' cs = some (.anchor .textEnd, cs)
  plain : ∀ cs, d.opening {} ('?' :: ':' :: cs) = some (({}, some (.grouped none)), cs)
  nests : ∀ text r, d.nests (CompiledPolicy.anchored text)
    (ofList [.anchor .textStart, .grouped none r, .anchor .textEnd]) = true → d.nests text r = true

theorem Dialect.resource_lawful : resource.Lawful where
  toForward := resource_forward
  blanks _ := rfl
  caret _ := rfl
  dollar _ := rfl
  plain _ := rfl
  nests text r h := by
    refine decide_eq_true (Nat.le_trans ?_ (of_decide_eq_true h))
    simp only [ofList, height]
    omega

/-- A text that is no pattern by itself, but begins with one that a closing parenthesis follows. In
the group it is put into, it can end the group there, if what is left of it is a pattern with the
parenthesis of the group behind it. -/
def ClosesEarly (d : Dialect) (pattern : String) : Prop :=
  parse? d pattern = none ∧ ∃ q w, pattern = q ++ ")" ++ w ∧ (parse? d q).isSome ∧
    (parse? d ("^(?:)" ++ w ++ ")$")).isSome

section
variable {d : Dialect} {n : Nat} {cs v w : List Char} {text pattern : String}

/-- What is read of a text with an ending is read of the text alone. -/
theorem Dialect.Forward.cut (hd : d.Forward) {x : Regex × Flags} {f : Flags}
    (h : alternatives n d f (cs ++ v) = some (x, w ++ v)) :
    alternatives (4 * cs.length + 4) d f cs = some (x, w) :=
  ((hd.agree n (4 * cs.length + 4)).alternatives f (by omega)).cut (Nat.lt_succ_self _) h

theorem Dialect.Forward.parse?_of_cut (hd : d.Forward) {x : Regex × Flags}
    (h : alternatives n d {} (text.toList ++ v) = some (x, w ++ v)) :
    parse? d text = if w.isEmpty && decide x.1.names.Nodup then some x.1 else none := by
  rw [parse?, hd.cut h]
  rfl

theorem parse?_eq_some {r : Regex} (h : parse? d text = some r) : ∃ f,
    alternatives (4 * text.toList.length + 4) d {} text.toList = some ((r, f), []) ∧
      r.names.Nodup := by
  obtain ⟨⟨⟨r, f⟩, rest⟩, hread, h⟩ := Option.bind_eq_some_iff.1 h
  split_ifs at h with hwhole
  cases h
  obtain ⟨hrest, hnames⟩ := Bool.and_eq_true_iff.1 hwhole
  obtain rfl := List.isEmpty_iff.1 hrest
  exact ⟨f, hread, of_decide_eq_true hnames⟩

namespace Dialect.Lawful

/-- The text of a pattern in a group behind an anchor. -/
theorem alternatives_anchored (hd : d.Lawful) (n : Nat) (cs : List Char) :
    alternatives (n + 4) d {} ('^' :: '(' :: '?' :: ':' :: cs) =
      ((alternatives n d {} cs).bind fun p => closing {} (.grouped none p.1.1) p.2).bind fun p =>
        (branch (n + 1) d [p.1.1, some (.anchor .textStart)] p.1.2 p.2).bind fun p =>
          alternativesEnd (n + 3) d p.1 p.2 := by
  have hgroup : group (n + 1) d {} ('?' :: ':' :: cs) =
      (alternatives n d {} cs).bind fun p => closing {} (.grouped none p.1.1) p.2 := by
    rw [group_succ, hd.plain]
    rfl
  have hopen : branch (n + 2) d [some (.anchor .textStart)] {} ('(' :: '?' :: ':' :: cs) =
      (group (n + 1) d {} ('?' :: ':' :: cs)).bind fun p =>
        branch (n + 1) d [p.1.1, some (.anchor .textStart)] p.1.2 p.2 := by
    rw [branch_succ, hd.blanks]
    change (group (n + 1) d {} (d.skip {} _)).bind _ = _
    rw [hd.blanks]
  have hcaret : branch (n + 3) d [] {} ('^' :: '(' :: '?' :: ':' :: cs) =
      branch (n + 2) d [some (.anchor .textStart)] {} ('(' :: '?' :: ':' :: cs) := by
    rw [branch_succ, hd.blanks]
    change (d.sign {} '^' _).bind _ = _
    rw [hd.caret]
    rfl
  rw [alternatives_succ, hcaret, hopen, hgroup, Option.bind_assoc]

theorem branch_dollar (hd : d.Lawful) (n : Nat) (items : List (Option Regex)) :
    branch (n + 2) d items {} ['$'] =
      some ((ofItems (some (.anchor .textEnd) :: items), {}), []) := by
  rw [branch_succ, hd.blanks]
  change (d.sign {} '$' []).bind _ = _
  rw [hd.dollar]
  change branch (n + 1) d _ {} [] = _
  rw [branch_succ, hd.blanks]
  rfl

/-- A group that is closed at once. -/
theorem alternatives_closed (hd : d.Lawful) (n : Nat) (cs : List Char) :
    alternatives (n + 2) d {} (')' :: cs) = some ((empty, {}), ')' :: cs) := by
  rw [alternatives_succ, branch_succ, hd.blanks]
  rfl

end Dialect.Lawful

theorem closing_eq_some {f : Flags} {r : Regex} {x : Option Regex × Flags} {rest : List Char}
    (h : closing f r cs = some (x, rest)) : cs = ')' :: rest ∧ x = (some r, f) := by
  unfold closing at h
  split at h
  · cases h
    exact ⟨rfl, rfl⟩
  · cases h

/-- What stands behind a group is read on whatever the group holds. -/
theorem behind_goesOn (m n : Nat) (d : Dialect) (q q' : Regex) (cs : List Char) :
    GoesOn q.names q'.names
      ((branch n d [some (.grouped none q), some (.anchor .textStart)] {} cs).bind fun p =>
        alternativesEnd m d p.1 p.2)
      ((branch n d [some (.grouped none q'), some (.anchor .textStart)] {} cs).bind fun p =>
        alternativesEnd m d p.1 p.2) := by
  have hnames (q : Regex) :
      (ofItems [some (.grouped none q), some (.anchor .textStart)]).names = q.names := rfl
  rw [← hnames q, ← hnames q']
  exact branchEnd_goesOn m n d {} cs fun _ _ _ => ⟨_, _, rfl⟩

/-- A group between two anchors ends at its own parenthesis or at one of its pattern. -/
theorem Dialect.Forward.closes_at (hd : d.Forward) {x : Regex × Flags} {rest : List Char}
    (h : alternatives n d {} (pattern.toList ++ [')', '$']) = some (x, ')' :: rest)) :
    rest = ['$'] ∨ ∃ q w, pattern = q ++ ")" ++ w ∧ rest = w.toList ++ [')', '$'] := by
  have hsuffix : ')' :: rest <:+ pattern.toList ++ [')', '$'] :=
    ((hd.agree n 0).alternatives (N := 0) {} (Nat.zero_le 1)).suffix h
  rcases List.suffix_or_suffix_of_suffix hsuffix (List.suffix_append _ _) with hin | ⟨w, hw⟩
  · exact .inl (by simpa [List.suffix_cons_iff] using hin)
  · cases w with
    | nil => exact .inl (List.cons.inj hw).2.symm
    | cons c w =>
      obtain ⟨rfl, hrest⟩ := List.cons.inj hw
      rw [← hw] at hsuffix
      obtain ⟨q, hq⟩ := List.suffix_append_self_iff.1 hsuffix
      refine .inr ⟨String.ofList q, String.ofList w, ?_, ?_⟩
      · rw [← String.toList_inj]
        simp [← hq]
      · rw [String.toList_ofList]
        exact hrest.symm

/-- An anchored text that is a pattern holds a pattern in its group, or the group is closed
early. -/
theorem Dialect.Lawful.parse?_anchored (hd : d.Lawful) {r : Regex}
    (h : parse? d (CompiledPolicy.anchored pattern) = some r) :
    (∃ q, parse? d pattern = some q ∧
      r = ofList [.anchor .textStart, .grouped none q, .anchor .textEnd]) ∨
      ClosesEarly d pattern := by
  have hlist : (CompiledPolicy.anchored pattern).toList =
      '^' :: '(' :: '?' :: ':' :: (pattern.toList ++ [')', '$']) := by
    simp [CompiledPolicy.anchored]
  have hfuel : 4 * ('^' :: '(' :: '?' :: ':' :: (pattern.toList ++ [')', '$'])).length + 4 =
      4 * pattern.toList.length + 24 + 4 := by
    simp only [List.length_cons, List.length_append, List.length_nil]
    omega
  obtain ⟨f, hread, hnames⟩ := parse?_eq_some h
  rw [hlist, hfuel, hd.alternatives_anchored] at hread
  obtain ⟨⟨⟨item, _⟩, rest⟩, hgroup, hread⟩ := Option.bind_eq_some_iff.1 hread
  obtain ⟨⟨⟨q, _⟩, behind⟩, hq, hclose⟩ := Option.bind_eq_some_iff.1 hgroup
  obtain ⟨rfl, hitem⟩ := closing_eq_some hclose
  cases hitem
  obtain ⟨more, whole, hwhole, hmore, hmore'⟩ := behind_goesOn _ _ d q empty rest r f [] hread
  rw [hmore] at hnames
  have hown : q.names.Nodup := hnames.of_append_left
  rcases hd.closes_at hq with rfl | ⟨p, w, rfl, rfl⟩
  · refine .inl ⟨q, ?_, ?_⟩
    · rw [hd.parse?_of_cut (w := []) hq]
      simp [hown]
    · rw [hd.branch_dollar] at hread
      cases hread
      rfl
  · refine .inr ⟨?_, p, w, rfl, ?_, ?_⟩
    · rw [hd.parse?_of_cut (w := ')' :: w.toList) hq]
      rfl
    · have hcut : (p ++ ")" ++ w).toList ++ [')', '$'] =
          p.toList ++ ')' :: (w.toList ++ [')', '$']) := by simp
      rw [hd.parse?_of_cut (w := []) (hcut ▸ hq)]
      simp [hown]
    · have hlist' : ("^(?:)" ++ w ++ ")$").toList ++ [] =
          '^' :: '(' :: '?' :: ':' :: ')' :: (w.toList ++ [')', '$']) := by simp
      have hread' : alternatives (4 * (p ++ ")" ++ w).toList.length + 24 + 4) d {}
          (("^(?:)" ++ w ++ ")$").toList ++ []) = some ((whole, f), [] ++ []) := by
        rw [hlist', hd.alternatives_anchored, hd.alternatives_closed]
        exact hwhole
      have hdistinct : whole.names.Nodup := by
        rw [hmore']
        exact hnames.of_append_right
      rw [hd.parse?_of_cut hread']
      simp [hdistinct]

theorem Dialect.Lawful.compile?_anchored (hd : d.Lawful) {r : Regex}
    (h : compile? d (CompiledPolicy.anchored pattern) = some r) :
    (∃ q, read? d pattern = some q ∧
      r = ofList [.anchor .textStart, .grouped none q, .anchor .textEnd]) ∨
      ClosesEarly d pattern := by
  obtain ⟨hread, -⟩ := Option.filter_eq_some_iff.1 h
  obtain ⟨hparse, hnests⟩ := Option.filter_eq_some_iff.1 hread
  refine (hd.parse?_anchored hparse).imp_left fun ⟨q, hq, hr⟩ => ⟨q, ?_, hr⟩
  subst hr
  exact Option.filter_eq_some_iff.2 ⟨hq, hd.nests pattern q hnests⟩

end
end Regex

/-- **Policies match whole resources.** Whatever dialect patterns are read in, a policy whose
pattern cannot end the group it is put into is about the resources that its pattern matches from end
to end; if the pattern is none by itself, the policy is refused. -/
theorem Permissions.add_fullMatch (d : Regex.Dialect) (hd : d.Lawful) (ps : Permissions)
    (p : Policy) (hclosed : ¬Regex.ClosesEarly d p.pattern) :
    (∀ ps', ps.add d p = .ok ps' → ∃ c, ps' = { ps with compiled := ps.compiled ++ [c] } ∧
      c.policy = p ∧ ∀ resource, c.regex.isMatch resource = true ↔
        ∃ r, Regex.read? d p.pattern = some r ∧ r.FullMatch resource) ∧
    (Regex.read? d p.pattern = none → ps.add d p = .error (.badPattern p.pattern)) := by
  unfold Permissions.add CompiledPolicy.ofPolicy
  cases hcompile : Regex.compile? d (CompiledPolicy.anchored p.pattern) with
  | none => exact ⟨nofun, fun _ => rfl⟩
  | some r =>
    obtain ⟨q, hq, rfl⟩ := (hd.compile?_anchored hcompile).resolve_right hclosed
    refine ⟨fun ps' h => ?_, fun hnone => absurd (hq.symm.trans hnone) nofun⟩
    cases h
    refine ⟨_, rfl, rfl, fun resource => Regex.isMatch_anchored.trans ?_⟩
    exact ⟨fun h => ⟨q, hq, h⟩, fun ⟨r, hr, h⟩ => Option.some.inj (hr.symm.trans hq) ▸ h⟩

theorem Permissions.add_fullMatch_bar :
    ¬Regex.ClosesEarly .resource "a|bc" ∧ ∃ c,
      Permissions.add .resource ⟨true, []⟩ ⟨"reader", "a|bc", [.read], .allow⟩ = .ok ⟨true, [c]⟩ ∧
        ∀ resource, c.regex.isMatch resource = true ↔
          ∃ r, Regex.read? .resource "a|bc" = some r ∧ r.FullMatch resource := by
  have hread : (Regex.parse? .resource "a|bc").isSome = true := by cbv
  have hclosed : ¬Regex.ClosesEarly .resource "a|bc" := by
    rintro ⟨hnone, -⟩
    rw [hnone] at hread
    cases hread
  have hok : (Permissions.add .resource ⟨true, []⟩ ⟨"reader", "a|bc", [.read], .allow⟩).isOk =
      true := by cbv
  cases hadd : Permissions.add .resource ⟨true, []⟩ ⟨"reader", "a|bc", [.read], .allow⟩ with
  | error e =>
    rw [hadd] at hok
    cases hok
  | ok ps' =>
    obtain ⟨c, rfl, -, hmatch⟩ :=
      (Permissions.add_fullMatch .resource Regex.Dialect.resource_lawful _ _ hclosed).1 ps' hadd
    exact ⟨hclosed, c, rfl, hmatch⟩

-- The hypothesis is needed: in a group of its own this pattern is read as two groups, of which
-- only one is held by each anchor.
example : Regex.ClosesEarly .resource "a)|(?:b" ∧
    (Permissions.add .resource ⟨true, []⟩ ⟨"*", "a)|(?:b", [.any], .allow⟩).map
      (·.allows "reader" "a.secret" .read) = .ok true :=
  ⟨⟨by cbv, "a", "|(?:b", by decide, by cbv, by cbv⟩, by cbv⟩

-- Nor can this one end the group: nothing is left of it that would open another one.
example : ¬Regex.ClosesEarly .resource "jobs)" := by
  rintro ⟨-, q, w, heq, -, hrest⟩
  have hsplit : ['j', 'o', 'b', 's'] ++ ')' :: [] = q.toList ++ ')' :: w.toList := by
    simpa using congrArg String.toList heq
  obtain ⟨-, -, hw⟩ := (List.append_cons_inj_of_notMem (by decide) (by decide)).1 hsplit
  obtain rfl : w = "" := String.toList_eq_nil_iff.1 hw.symm
  have hnone : (Regex.parse? .resource ("^(?:)" ++ "" ++ ")$")).isSome = false := by cbv
  exact Bool.false_ne_true (hnone.symm.trans hrest)
end Workflow
