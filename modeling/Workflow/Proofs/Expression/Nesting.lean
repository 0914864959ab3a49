import Workflow.Proofs.Expression.RoundTrip

/-!
# How deep an expression may be

The parser counts levels while it reads. For an operand of a chain these are the operators before
it, whereas in the tree, where chains group to the left, it lies below the operators after it. The
two counts agree as long as the operands of each chain are equally deep; in general the depth of an
expression that is accepted is bounded by its levels, but not by the same number.
-/
namespace Workflow.Expression

namespace Derivation
variable {f : Form} {p : Precedence} {ts us : List Token} {e left : Expression}

/-- The depth of the tree that a derivation describes, in which links are laid over a tree whose
depth is given. On the way from the root to a leaf, each pair of parentheses, each minus sign and
each operator is one level. -/
def depthOver : {f : Form} → {ts : List Token} → {e : Expression} → Nat → Derivation f ts e → Nat
  | _, _, _, _, chain d more => more.depthOver (d.depthOver 0)
  | _, _, _, k, done => k
  | _, _, _, k, link _ d more => more.depthOver (max k (d.depthOver 0) + 1)
  | _, _, _, _, negate d => d.depthOver 0 + 1
  | _, _, _, _, unsigned d => d.depthOver 0
  | _, _, _, _, literal _ => 0
  | _, _, _, _, path _ => 0
  | _, _, _, _, group d => d.depthOver 0 + 1

def depth (d : Derivation f ts e) : Nat := d.depthOver 0

/-- The height of the expression that links are laid over. -/
def leftHeight : Form → Nat
  | .links _ left => height left
  | _ => 0

theorem leftHeight_operand (p : Precedence) : leftHeight (Form.operand p) = 0 := by
  cases p <;> rfl

/-- An expression is no higher than the tree in which parentheses count as well. -/
theorem height_le_depthOver (d : Derivation f ts e) {k : Nat} (hk : leftHeight f ≤ k) :
    height e ≤ d.depthOver k := by
  induction d generalizing k with
  | @chain p _ _ _ _ _ _ ih ihmore => exact ihmore (ih (Nat.le_of_eq (leftHeight_operand p)))
  | done => exact hk
  | @link p o left right _ _ _ _ d _ ih ihmore =>
    have hright : height right ≤ d.depthOver 0 := ih (Nat.le_of_eq (leftHeight_operand p))
    have hleft : height left ≤ k := hk
    have hboth : height (.binary o left right) ≤ max k (d.depthOver 0) + 1 := by
      rw [height]
      omega
    exact ihmore hboth
  | negate _ ih => exact Nat.succ_le_succ (ih (Nat.zero_le _))
  | unsigned _ ih => exact ih (Nat.zero_le _)
  | literal => exact Nat.zero_le _
  | path => exact Nat.zero_le _
  | group _ ih => exact Nat.le_succ_of_le (ih (Nat.zero_le _))

/-- The greatest depth of a primary that opens so many levels. Inside one pair of parentheses, each
of the three precedences can have a chain with an operator for every level that is left. -/
def deepest : Nat → Nat
  | 0 => 0
  | n + 1 => deepest n + 3 * n + 1

theorem deepest_mono {m n : Nat} (h : m ≤ n) : deepest m ≤ deepest n := by
  induction h with
  | refl => exact Nat.le_refl _
  | step _ ih =>
    rw [deepest]
    omega

/-- The greatest depth of a form that opens so many levels, from the precedences of its chains. -/
def reach (r n : Nat) : Nat := deepest n + r * n

theorem reach_mono (r : Nat) {m n : Nat} (h : m ≤ n) : reach r m ≤ reach r n :=
  Nat.add_le_add (deepest_mono h) (Nat.mul_le_mul_left r h)

theorem reach_succ (r n : Nat) : reach r n + n = reach (r + 1) n := by
  rw [reach, reach, Nat.succ_mul, Nat.add_assoc]

/-- The number of precedences whose chains a form may begin with. -/
def chains : Form → Nat
  | .chain p => rank p
  | .links p _ => rank p
  | _ => 0

theorem chains_operand (p : Precedence) : chains (Form.operand p) = rank p - 1 := by
  cases p <;> rfl

theorem rank_pos (p : Precedence) : rank p - 1 + 1 = rank p := by
  cases p <;> rfl

/-- The depth of what is derived, from the levels that it opens. Links may also be as deep as what
they are laid over, with a level for each operator. -/
theorem depthOver_le (d : Derivation f ts e) (k : Nat) :
    (f.Whole → d.depthOver k ≤ reach (chains f) d.levels) ∧
      (¬f.Whole → d.depthOver k ≤ max k (reach (chains f - 1) d.levels) + d.levels) := by
  induction d generalizing k with
  | @chain p _ _ _ _ d more ih ihmore =>
    refine ⟨fun _ => ?_, fun h => absurd trivial h⟩
    have hfirst := (ih 0).1 (Form.whole_operand p)
    have hmore : more.depthOver (d.depthOver 0) ≤
        max (d.depthOver 0) (reach (rank p - 1) more.levels) + more.levels :=
      (ihmore (d.depthOver 0)).2 id
    change more.depthOver (d.depthOver 0) ≤ reach (rank p) (max d.levels more.levels)
    have hleft := reach_mono (rank p - 1) (Nat.le_max_left d.levels more.levels)
    have hright := reach_mono (rank p - 1) (Nat.le_max_right d.levels more.levels)
    rw [← rank_pos p, ← reach_succ]
    rw [chains_operand] at hfirst
    omega
  | done => exact ⟨False.elim, fun _ => Nat.le_add_right_of_le (Nat.le_max_left _ _)⟩
  | @link p _ _ _ _ _ _ _ d more ih ihmore =>
    refine ⟨False.elim, fun _ => ?_⟩
    have hfirst := (ih 0).1 (Form.whole_operand p)
    have hmore : more.depthOver (max k (d.depthOver 0) + 1) ≤
        max (max k (d.depthOver 0) + 1) (reach (rank p - 1) more.levels) + more.levels :=
      (ihmore _).2 id
    change more.depthOver (max k (d.depthOver 0) + 1) ≤
      max k (reach (rank p - 1) (max d.levels more.levels + 1)) + (max d.levels more.levels + 1)
    have hleft := reach_mono (rank p - 1)
      (Nat.le_succ_of_le (Nat.le_max_left d.levels more.levels))
    have hright := reach_mono (rank p - 1)
      (Nat.le_succ_of_le (Nat.le_max_right d.levels more.levels))
    rw [chains_operand] at hfirst
    simp only [Nat.succ_eq_add_one] at hleft hright
    omega
  | negate d ih =>
    refine ⟨fun _ => ?_, fun h => absurd trivial h⟩
    have hinner := (ih 0).1 trivial
    simp only [depthOver, levels, chains, reach, deepest] at hinner ⊢
    omega
  | unsigned d ih => exact ⟨fun _ => (ih 0).1 trivial, fun h => absurd trivial h⟩
  | literal => exact ⟨fun _ => Nat.zero_le _, fun h => absurd trivial h⟩
  | path => exact ⟨fun _ => Nat.zero_le _, fun h => absurd trivial h⟩
  | group d ih =>
    refine ⟨fun _ => ?_, fun h => absurd trivial h⟩
    have hinner := (ih 0).1 trivial
    simp only [depthOver, levels, chains, rank, reach, deepest] at hinner ⊢
    omega

/-- The operands after the operators of each chain are equally deep, and the one in front of them is
no deeper. For links, the depth of their operands is given. -/
def EvenOver : {f : Form} → {ts : List Token} → {e : Expression} → Nat → Derivation f ts e → Prop
  | _, _, _, _, chain d more => d.EvenOver 0 ∧ ∃ n, d.depthOver 0 ≤ n ∧ more.EvenOver n
  | _, _, _, _, done => True
  | _, _, _, n, link _ d more => d.EvenOver 0 ∧ d.depthOver 0 = n ∧ more.EvenOver n
  | _, _, _, _, negate d => d.EvenOver 0
  | _, _, _, _, unsigned d => d.EvenOver 0
  | _, _, _, _, literal _ => True
  | _, _, _, _, path _ => True
  | _, _, _, _, group d => d.EvenOver 0

/-- The operands after the operators of each chain are equally deep, and the one in front of them is
no deeper. -/
def Even (d : Derivation f ts e) : Prop := d.EvenOver 0

/-- Links count from both ends alike: by the number of their operators and the depth of the
operands. -/
theorem depthOver_of_even (d : Derivation f ts e) {n : Nat} (h : d.EvenOver n) :
    (f.Whole → d.depthOver 0 = d.levels) ∧
      (¬f.Whole → ∃ c, d.levels = (if c = 0 then 0 else n + c) ∧
        ∀ k, d.depthOver k = if c = 0 then k else max k n + c) := by
  induction d generalizing n with
  | @chain p _ _ _ _ d more ih ihmore =>
    refine ⟨fun _ => ?_, fun h => absurd trivial h⟩
    obtain ⟨hd, m, hm, hmore⟩ := h
    have hfirst := (ih hd).1 (Form.whole_operand p)
    obtain ⟨c, hlevels, hdepth⟩ := (ihmore hmore).2 id
    rw [depthOver, levels, hdepth, hlevels, ← hfirst]
    split <;> omega
  | done => exact ⟨False.elim, fun _ => ⟨0, rfl, fun _ => rfl⟩⟩
  | @link p _ _ _ _ _ _ _ d more ih ihmore =>
    refine ⟨False.elim, fun _ => ?_⟩
    obtain ⟨hd, rfl, hmore⟩ := h
    have hfirst := (ih hd).1 (Form.whole_operand p)
    obtain ⟨c, hlevels, hdepth⟩ := (ihmore hmore).2 id
    refine ⟨c + 1, ?_, fun k => ?_⟩
    · rw [levels, hlevels, ← hfirst]
      split <;> simp <;> omega
    · rw [depthOver, hdepth]
      split <;> simp <;> omega
  | negate d ih =>
    refine ⟨fun _ => congrArg (· + 1) ((ih h).1 trivial), fun h => absurd trivial h⟩
  | unsigned d ih => exact ⟨fun _ => (ih h).1 trivial, fun h => absurd trivial h⟩
  | literal => exact ⟨fun _ => rfl, fun h => absurd trivial h⟩
  | path => exact ⟨fun _ => rfl, fun h => absurd trivial h⟩
  | group d ih =>
    refine ⟨fun _ => congrArg (· + 1) ((ih h).1 trivial), fun h => absurd trivial h⟩

end Derivation

/-- An answer that is not a refusal for depth. -/
def Undeep {α : Type} (x : Except ExpressionError α) : Prop := x ≠ .error .tooDeep

namespace Undeep
variable {α β : Type}

theorem ok (v : α) : Undeep (.ok v) := nofun

theorem bind {x : Except ExpressionError α} {f : α → Except ExpressionError β} (hx : Undeep x)
    (hf : ∀ v, Undeep (f v)) : Undeep (x >>= f) := by
  cases x with
  | error e => exact fun h => hx (congrArg Except.error (Except.error.inj h))
  | ok v => exact hf v

theorem map {x : Except ExpressionError α} (hx : Undeep x) (f : α → β) : Undeep (x.map f) :=
  bind (f := fun v => .ok (f v)) hx fun v => ok (f v)

end Undeep

theorem ofJson_undeep (op : BinaryOp) (v : Json) : Undeep (Operand.ofJson op v) := by
  unfold Operand.ofJson
  split
  · exact .ok _
  · exact .ok _
  · split
    · exact .ok _
    · exact nofun
  · exact nofun

theorem toJson_undeep (n : Number) : Undeep (Operand.toJson n) := by
  unfold Operand.toJson
  split
  · exact .ok _
  · split
    · exact .ok _
    · exact nofun

theorem checked_undeep (op : BinaryOp) (i : Int) : Undeep (checked op i) := by
  unfold checked
  split
  · exact .ok _
  · exact nofun

theorem combine_undeep (op : BinaryOp) (f : Int → Int → Int) (g : Float → Float → Float)
    (a b : Number) : Undeep (combine op f g a b) := by
  unfold combine
  split
  · exact checked_undeep _ _
  · exact .ok _

theorem arithmetic_undeep (op : BinaryOp) (a b : Number) : Undeep (arithmetic op a b) := by
  unfold arithmetic
  split
  · exact combine_undeep _ _ _ a b
  · exact combine_undeep _ _ _ a b
  · exact combine_undeep _ _ _ a b
  · unfold divide
    split
    · exact nofun
    · exact .ok _
  · unfold remainder
    split
    · exact nofun
    · split
      · exact .ok _
      · exact nofun
    · dsimp only
      split
      · exact nofun
      · exact .ok _
  · exact .ok _

theorem orderValues_undeep (op : BinaryOp) (a b : Json) : Undeep (orderValues op a b) := by
  unfold orderValues
  split
  · exact .ok _
  · refine (ofJson_undeep op a).bind fun x => (ofJson_undeep op b).bind fun y => ?_
    split
    · exact .ok _
    · split
      · exact .ok _
      · exact nofun

theorem compareValues_undeep (op : BinaryOp) (a b : Json) : Undeep (compareValues op a b) := by
  unfold compareValues
  split
  · exact .ok _
  · exact .ok _
  · exact (orderValues_undeep _ a b).map _
  · exact (orderValues_undeep _ a b).map _
  · exact (orderValues_undeep _ a b).map _
  · exact (orderValues_undeep _ a b).map _
  · exact .ok _

theorem apply_undeep (op : BinaryOp) (a b : Json) : Undeep (apply op a b) := by
  unfold apply
  split
  · exact (compareValues_undeep op a b).map _
  · split
    · exact .ok _
    · exact .ok _
    · exact .ok _
    · refine (ofJson_undeep op a).bind fun x => (ofJson_undeep op b).bind fun y => ?_
      exact (arithmetic_undeep op x y).bind toJson_undeep

theorem negateValue_undeep (v : Json) : Undeep (negateValue v) := by
  have hoperand := ofJson_undeep .sub v
  unfold negateValue
  split
  · rename_i e he
    exact fun h => hoperand (he.trans (congrArg Except.error (Except.error.inj h)))
  · exact (checked_undeep _ _).bind toJson_undeep
  · exact toJson_undeep _

theorem eval_undeep (context : Table Json) (e : Expression) : Undeep (eval context e) := by
  induction e with
  | literal v => exact .ok v
  | path keys =>
    rw [eval, lookup]
    split
    · exact .ok _
    · exact nofun
  | negate e ih => exact ih.bind negateValue_undeep
  | binary op l r ihl ihr => exact ihl.bind fun a => ihr.bind fun b => apply_undeep op a b

section
variable {text : String} {ts : List Token} {e : Expression}

theorem parse_derived_text (hscan : scan text.toList = .ok ts)
    (d : Derivation (.chain .comparison) ts e) :
    parse text = if d.levels ≤ maxNesting then .ok e else .error .tooDeep := by
  simp only [parse, hscan, ofTokens_derived d]
  split <;> rfl

theorem evaluate_tooDeep_iff (hscan : scan text.toList = .ok ts)
    (d : Derivation (.chain .comparison) ts e) (context : Table Json) :
    evaluate text context = .error .tooDeep ↔ maxNesting < d.levels := by
  rw [evaluate, parse_derived_text hscan d]
  split
  · rename_i hlevels
    exact ⟨fun h => absurd h (eval_undeep context e), fun h => absurd hlevels (Nat.not_le_of_lt h)⟩
  · rename_i hlevels
    exact ⟨fun _ => Nat.lt_of_not_le hlevels, fun _ => rfl⟩

end

/-- **The limit on nesting.** A text that derives an expression is refused as too deep exactly if
more than 64 levels are open at some place of it, where an operand has the operators before it in
its chain open. If the operands of each chain are equally deep, the one in front of them aside,
which may be less deep, these levels are the depth of the tree. In any case the tree of an
expression that is accepted has a depth of at most 6304, which bounds the height of the expression
and so the recursion that evaluates it. -/
theorem nesting_limited (text : String) (ts : List Token) (e : Expression)
    (hscan : scan text.toList = .ok ts) (d : Derivation (.chain .comparison) ts e)
    (context : Table Json) :
    (evaluate text context = .error .tooDeep ↔ maxNesting < d.levels) ∧
      (d.Even → (evaluate text context = .error .tooDeep ↔ maxNesting < d.depth)) ∧
      (evaluate text context ≠ .error .tooDeep → d.depth ≤ 6304 ∧ height e ≤ d.depth) := by
  have hiff := evaluate_tooDeep_iff hscan d context
  refine ⟨hiff, fun heven => ?_, fun haccepted => ⟨?_, d.height_le_depthOver (Nat.le_refl 0)⟩⟩
  · rw [hiff, Derivation.depth, (d.depthOver_of_even heven).1 trivial]
  · have hlevels : d.levels ≤ maxNesting := Nat.le_of_not_lt fun h => haccepted (hiff.mpr h)
    calc d.depth ≤ Derivation.reach 3 d.levels := (d.depthOver_le 0).1 trivial
      _ ≤ Derivation.reach 3 maxNesting := Derivation.reach_mono 3 hlevels
      _ = 6304 := by rfl

theorem scan_opens (n : Nat) {rest : List Char} {us : List Token} (h : scan rest = .ok us) :
    scan (List.replicate n '(' ++ rest) = .ok (List.replicate n Token.lparen ++ us) := by
  induction n with
  | zero => exact h
  | succ n ih => exact scan_open ih

theorem scan_closes (n : Nat) {rest : List Char} {us : List Token} (h : scan rest = .ok us) :
    scan (List.replicate n ')' ++ rest) = .ok (List.replicate n Token.rparen ++ us) := by
  induction n with
  | zero => exact h
  | succ n ih => exact scan_close ih

/-- A literal in parentheses has as many levels as there are pairs. -/
theorem exists_enclosed (v : Json) (n : Nat) :
    ∃ d : Derivation .primary
        (List.replicate n Token.lparen ++ Token.literal v :: List.replicate n Token.rparen)
        (.literal v), d.levels = n ∧ d.depth = n := by
  induction n with
  | zero => exact ⟨.literal v, rfl, rfl⟩
  | succ n ih =>
    obtain ⟨d, hlevels, hdepth⟩ := ih
    obtain ⟨d', hlevels', hdepth'⟩ : ∃ d' : Derivation .primary
        (Token.lparen :: ((((List.replicate n Token.lparen ++
          Token.literal v :: List.replicate n Token.rparen) ++ []) ++ [] ++ []) ++ [Token.rparen]))
        (.literal v), d'.levels = n + 1 ∧ d'.depth = n + 1 := by
      refine ⟨.group (.chain (.chain (.chain (.unsigned d) .done) .done) .done), ?_, ?_⟩
      · simp [Derivation.levels, hlevels]
      · rw [Derivation.depth] at hdepth
        simp [Derivation.depth, Derivation.depthOver, hdepth]
    have htokens : List.replicate (n + 1) Token.lparen ++
        Token.literal v :: List.replicate (n + 1) Token.rparen =
        Token.lparen :: ((((List.replicate n Token.lparen ++
          Token.literal v :: List.replicate n Token.rparen) ++ []) ++ [] ++ []) ++
          [Token.rparen]) := by
      rw [List.replicate_succ, List.replicate_succ' (a := Token.rparen)]
      simp
    rw [htokens]
    exact ⟨d', hlevels', hdepth'⟩

/-- Sixty-four pairs of parentheses in front of an operator: no more than sixty-four levels are open
at a time, so that the expression is accepted, but its tree is deeper than that. -/
theorem nesting_limited_left :
    ∃ (ts : List Token) (e : Expression) (d : Derivation (.chain .comparison) ts e),
      scan (List.replicate 64 '(' ++ '1' :: (List.replicate 64 ')' ++ " + 1".toList)) = .ok ts ∧
      maxNesting < d.depth ∧ d.depth ≤ 6304 ∧
      evaluate (String.ofList
        (List.replicate 64 '(' ++ '1' :: (List.replicate 64 ')' ++ " + 1".toList))) .empty ≠
        .error .tooDeep := by
  have hend : scan [] = .ok [] := by rw [scan.eq_def]
  have hlast : scan ['1'] = .ok [.literal (.nat 1)] := scan_nat (n := 1) (by decide) hend nofun
  have hsum : scan " + 1".toList = .ok [.op .add, .literal (.nat 1)] :=
    (scan_blank _ (by decide)).trans (scan_operator .add hlast)
  have hone : scan ('1' :: (List.replicate 64 ')' ++ " + 1".toList)) = .ok
      (.literal (.nat 1) :: (List.replicate 64 Token.rparen ++ [.op .add, .literal (.nat 1)])) :=
    scan_nat (n := 1) (by decide) (scan_closes 64 hsum) (delimited_close _)
  have hscan := scan_opens 64 hone
  obtain ⟨first, hlevels, hdepth⟩ := exists_enclosed (.nat 1) 64
  let d : Derivation (.chain .comparison) _
      (.binary .add (.literal (.nat 1)) (.literal (.nat 1))) :=
    .chain (.chain (.chain (.unsigned first) .done)
      (.link rfl (.chain (.unsigned (.literal (.nat 1))) .done) .done)) .done
  have hd : d.levels = 64 ∧ d.depth = 65 := by
    rw [Derivation.depth] at hdepth
    simp [d, Derivation.levels, Derivation.depth, Derivation.depthOver, hlevels, hdepth]
  refine ⟨_, _, d, hscan.trans (by simp), by rw [hd.2]; decide, ?_⟩
  have hlimited := nesting_limited (String.ofList
    (List.replicate 64 '(' ++ '1' :: (List.replicate 64 ')' ++ " + 1".toList))) _ _
    (by rw [String.toList_ofList, hscan]; simp) d .empty
  have haccepted := mt hlimited.1.mp (by rw [hd.1]; decide)
  exact ⟨(hlimited.2.2 haccepted).1, haccepted⟩

end Workflow.Expression
