import Workflow.Proofs.Expression.Grammar
import Workflow.Proofs.Attempt

/-!
# What the parser reads

The parser gives an expression exactly for the tokens that have a derivation, up to the depth that
is allowed. What it gives for a form, and where its cursor stands then, is described by one equation
for each way that a form can begin; both directions go by these equations.
-/
namespace Workflow.Expression
open Attempt

def Parsed.answer {n : Nat} (p : Parsed n) : Expression × Cursor := (p.expr, p.next)

def Form.parse : Form → Cursor → Except ParseError (Expression × Cursor)
  | chain p, c => (Expression.chain p c).map Parsed.answer
  | links p left, c => (chainTail p left c).map Parsed.answer
  | unary, c => (Expression.unary c).map Parsed.answer
  | primary, c => (Expression.primary c).map Parsed.answer

section
variable {p : Precedence} {f : Form} {left e : Expression} {c c' : Cursor} {rest : List Token}
  {depth : Nat}

theorem parse_operand (p : Precedence) (c : Cursor) :
    (operand p c).map Parsed.answer = (Form.operand p).parse c := by
  cases p <;> rw [operand] <;> rfl

theorem parse_chain (p : Precedence) (c : Cursor) :
    (Form.chain p).parse c = do
      let (left, next) ← (Form.operand p).parse c
      let (e, last) ← (Form.links p left).parse next
      return (e, { last with depth := c.depth }) := by
  rw [Form.parse, chain, ← parse_operand]
  cases operand p c with
  | error err => rfl
  | ok first =>
    simp only [Form.parse, bind, Except.bind, Except.map, Parsed.answer]
    cases chainTail p first.expr first.next <;> rfl

theorem parse_link {o : BinaryOp} (h : o.precedence = p) :
    (Form.links p left).parse ⟨.op o :: rest, depth⟩ = (do
      let deeper ← descend depth
      let (right, next) ← (Form.operand p).parse ⟨rest, deeper⟩
      (Form.links p (.binary o left right)).parse next) := by
  rw [Form.parse, chainTail]
  simp only [h, if_true]
  cases descend depth with
  | error err => rfl
  | ok deeper =>
    simp only [← parse_operand]
    simp only [bind, Except.bind]
    cases operand p ⟨rest, deeper⟩ with
    | error err => rfl
    | ok second =>
      simp only [Form.parse, Except.map, Parsed.answer]
      cases chainTail p (.binary o left second.expr) second.next <;> rfl

theorem parse_links_end (h : ∀ o us, c.rest = .op o :: us → o.precedence ≠ p) :
    (Form.links p left).parse c = .ok (left, c) := by
  obtain ⟨rest, depth⟩ := c
  rw [Form.parse, chainTail]
  rcases rest with _ | ⟨t, rest⟩
  · rfl
  · cases t with
    | op o => exact congrArg (Except.map Parsed.answer) (if_neg (h o rest rfl))
    | _ => rfl

theorem parse_minus :
    Form.unary.parse ⟨.op .sub :: rest, depth⟩ = (do
      let deeper ← descend depth
      let (e, next) ← Form.unary.parse ⟨rest, deeper⟩
      return (.negate e, { next with depth := next.depth - 1 })) := by
  rw [Form.parse, unary]
  cases descend depth with
  | error err => rfl
  | ok deeper =>
    simp only [Form.parse, bind, Except.bind]
    cases unary ⟨rest, deeper⟩ <;> rfl

theorem parse_unsigned (h : ∀ us, c.rest ≠ .op .sub :: us) :
    Form.unary.parse c = Form.primary.parse c := by
  have same : Form.unary.parse c = ((primary c).map (Parsed.widen (Nat.le_refl _))).map
      Parsed.answer := by
    obtain ⟨rest, depth⟩ := c
    rw [Form.parse, unary]
    rcases rest with _ | ⟨t, rest⟩
    · rfl
    · cases t with
      | op o =>
        cases o with
        | sub => exact absurd rfl (h rest)
        | _ => rfl
      | _ => rfl
  rw [same, Form.parse]
  cases primary c <;> rfl

/-- How tokens begin that a primary can be read from. -/
theorem primary_starts (h : Form.primary.parse ⟨rest, depth⟩ = .ok (e, c')) :
    (∃ v us, rest = .literal v :: us) ∨ (∃ keys us, rest = .path (contextRoot :: keys) :: us) ∨
      ∃ us, rest = .lparen :: us := by
  rw [Form.parse, primary] at h
  rcases rest with _ | ⟨t, us⟩
  · cases h
  cases t with
  | literal v => exact .inl ⟨v, us, rfl⟩
  | lparen => exact .inr (.inr ⟨us, rfl⟩)
  | rparen => cases h
  | op o => cases h
  | path segments =>
    rcases segments with _ | ⟨root, keys⟩
    · cases h
    · by_cases hroot : root = contextRoot
      · exact .inr (.inl ⟨keys, us, hroot ▸ rfl⟩)
      · simp only [if_neg hroot] at h
        cases h

theorem parse_literal (v : Json) :
    Form.primary.parse ⟨.literal v :: rest, depth⟩ = .ok (.literal v, ⟨rest, depth⟩) := by
  rw [Form.parse, primary]
  rfl

theorem parse_path (keys : List String) :
    Form.primary.parse ⟨.path (contextRoot :: keys) :: rest, depth⟩ =
      .ok (.path keys, ⟨rest, depth⟩) := by
  rw [Form.parse, primary]
  rfl

theorem parse_group :
    Form.primary.parse ⟨.lparen :: rest, depth⟩ = (do
      let deeper ← descend depth
      let (e, next) ← (Form.chain .comparison).parse ⟨rest, deeper⟩
      match next.rest with
      | .rparen :: after => return (e, ⟨after, next.depth - 1⟩)
      | _ => throw (.cause .expectedClose)) := by
  rw [Form.parse, primary]
  cases descend depth with
  | error err => rfl
  | ok deeper =>
    simp only [Form.parse, bind, Except.bind]
    cases Expression.chain .comparison ⟨rest, deeper⟩ with
    | error err => rfl
    | ok inner =>
      obtain ⟨e, ⟨after, last⟩, shorter⟩ := inner
      rcases after with _ | ⟨t, after⟩
      · rfl
      · cases t <;> rfl

end

theorem descend_ok {depth deeper : Nat} (h : descend depth = .ok deeper) :
    depth < maxNesting ∧ deeper = depth + 1 := by
  unfold descend at h
  split at h
  · cases h
  · rename_i hd
    exact ⟨Nat.lt_of_not_le hd, (Except.ok.inj h).symm⟩

/-- The tokens between two cursors have a derivation that does not open more levels than are left,
and these are closed again at the end, unless a chain goes on. -/
structure Reads (f : Form) (c : Cursor) (e : Expression) (next : Cursor) : Prop where
  derived : ∃ ts, c.rest = ts ++ next.rest ∧
    ∃ d : Derivation f ts e, d.levels ≤ maxNesting - c.depth
  depth : f.Whole → next.depth = c.depth

namespace Reads
variable {p : Precedence} {o : BinaryOp} {left right e : Expression} {c next last : Cursor}
  {rest after : List Token} {depth : Nat}

theorem chain (h : Reads (Form.operand p) c left next) (k : Reads (.links p left) next e last) :
    Reads (.chain p) c e { last with depth := c.depth } where
  derived := by
    obtain ⟨ts, hts, d, hd⟩ := h.derived
    obtain ⟨us, hus, more, hmore⟩ := k.derived
    rw [h.depth (Form.whole_operand p)] at hmore
    have hall : c.rest = (ts ++ us) ++ last.rest := by rw [hts, hus, List.append_assoc]
    exact ⟨ts ++ us, hall, .chain d more, Nat.max_le.mpr ⟨hd, hmore⟩⟩
  depth _ := rfl

theorem done (p : Precedence) (left : Expression) (c : Cursor) :
    Reads (.links p left) c left c where
  derived := ⟨[], rfl, .done, Nat.zero_le _⟩
  depth h := h.elim

theorem link (h : Reads (Form.operand p) ⟨rest, depth + 1⟩ right next) (hp : o.precedence = p)
    (hd : depth < maxNesting)
    (k : Reads (.links p (.binary o left right)) next e last) :
    Reads (.links p left) ⟨.op o :: rest, depth⟩ e last where
  derived := by
    obtain ⟨ts, hts, d, hlevels⟩ := h.derived
    obtain ⟨us, hus, more, hmore⟩ := k.derived
    rw [h.depth (Form.whole_operand p)] at hmore
    refine ⟨.op o :: (ts ++ us), ?_, .link hp d more, ?_⟩
    · simp only at hts
      rw [hts, hus, List.cons_append, List.append_assoc]
    · simp only [Derivation.levels] at *
      omega
  depth h := h.elim

theorem negate (hd : depth < maxNesting) (h : Reads .unary ⟨rest, depth + 1⟩ e next) :
    Reads .unary ⟨.op .sub :: rest, depth⟩ (.negate e)
      { next with depth := next.depth - 1 } where
  derived := by
    obtain ⟨ts, hts, d, hlevels⟩ := h.derived
    refine ⟨.op .sub :: ts, congrArg _ hts, .negate d, ?_⟩
    simp only [Derivation.levels] at *
    omega
  depth _ := by rw [h.depth trivial]; rfl

theorem unsigned (h : Reads .primary c e next) : Reads .unary c e next where
  derived := by
    obtain ⟨ts, hts, d, hlevels⟩ := h.derived
    exact ⟨ts, hts, .unsigned d, hlevels⟩
  depth _ := h.depth trivial

theorem literal (v : Json) :
    Reads .primary ⟨.literal v :: rest, depth⟩ (.literal v) ⟨rest, depth⟩ where
  derived := ⟨[.literal v], rfl, .literal v, Nat.zero_le _⟩
  depth _ := rfl

theorem path (keys : List String) :
    Reads .primary ⟨.path (contextRoot :: keys) :: rest, depth⟩ (.path keys) ⟨rest, depth⟩ where
  derived := ⟨[.path (contextRoot :: keys)], rfl, .path keys, Nat.zero_le _⟩
  depth _ := rfl

theorem group (hd : depth < maxNesting)
    (h : Reads (.chain .comparison) ⟨rest, depth + 1⟩ e next)
    (hnext : next.rest = .rparen :: after) :
    Reads .primary ⟨.lparen :: rest, depth⟩ e ⟨after, next.depth - 1⟩ where
  derived := by
    obtain ⟨ts, hts, d, hlevels⟩ := h.derived
    refine ⟨.lparen :: (ts ++ [.rparen]), ?_, .group d, ?_⟩
    · simp only at hts
      rw [hts, hnext, List.cons_append, List.append_assoc, List.singleton_append]
    · simp only [Derivation.levels] at *
      omega
  depth _ := by rw [h.depth trivial]; rfl

end Reads

section
variable {f : Form} {e : Expression} {c next : Cursor}

theorem parse_length (h : f.parse c = .ok (e, next)) :
    next.rest.length ≤ c.rest.length ∧ (f.Whole → next.rest.length < c.rest.length) := by
  have shorter {n : Nat} {x : Except ParseError (Parsed n)}
      (h : x.map Parsed.answer = .ok (e, next)) : next.rest.length < n := by
    obtain ⟨r, -, hr⟩ := ok_of_map h
    obtain ⟨-, rfl⟩ := Prod.mk.inj hr
    exact r.shorter
  cases f with
  | links => exact ⟨Nat.le_of_lt_succ (shorter h), fun hf => hf.elim⟩
  | _ => exact ⟨Nat.le_of_lt (shorter h), fun _ => shorter h⟩

/-- What goes down when a form is entered: tokens are read, or a form stands further inside. -/
def Form.measure (c : Cursor) (f : Form) : Nat :=
  8 * c.rest.length + match f with
    | chain p => 2 * rank p + 1
    | unary => 1
    | _ => 0

theorem measure_operand (c : Cursor) (p : Precedence) :
    (Form.operand p).measure c < (Form.chain p).measure c := by
  cases p <;> simp [Form.operand, Form.measure, rank]

theorem measure_lt {g : Form} (h : next.rest.length < c.rest.length) :
    g.measure next < f.measure c := by
  have hrank : g.measure next ≤ 8 * next.rest.length + 7 := by
    cases g with
    | chain p => cases p <;> simp [Form.measure, rank]
    | _ => simp [Form.measure]
  have hle : 8 * c.rest.length ≤ f.measure c := Nat.le_add_right _ _
  omega

end

/-- What the parser gives was read. -/
theorem parse_reads {f : Form} {e : Expression} {c next : Cursor}
    (h : f.parse c = .ok (e, next)) : Reads f c e next := by
  induction hm : f.measure c using Nat.strongRecOn generalizing f e c next with
  | ind m ih =>
  subst hm
  obtain ⟨rest, depth⟩ := c
  cases f with
  | chain p =>
    rw [parse_chain] at h
    obtain ⟨⟨left, middle⟩, hfirst, h⟩ := ok_of_bind h
    obtain ⟨⟨_, last⟩, hmore, h⟩ := ok_of_bind h
    cases h
    have hshort := (parse_length hfirst).2 (Form.whole_operand p)
    have first := ih _ (measure_operand _ p) hfirst rfl
    exact first.chain (ih _ (measure_lt hshort) hmore rfl)
  | links p left =>
    by_cases hlink : ∃ o us, rest = .op o :: us ∧ o.precedence = p
    · obtain ⟨o, us, rfl, hp⟩ := hlink
      rw [parse_link hp] at h
      obtain ⟨deeper, hdeeper, h⟩ := ok_of_bind h
      obtain ⟨hd, rfl⟩ := descend_ok hdeeper
      obtain ⟨⟨right, middle⟩, hright, h⟩ := ok_of_bind h
      have hshort := (parse_length hright).2 (Form.whole_operand p)
      have second := ih _ (measure_lt (Nat.lt_succ_self _)) hright rfl
      exact second.link hp hd (ih _ (measure_lt (Nat.lt_succ_of_lt hshort)) h rfl)
    · rw [parse_links_end fun o us ho hp => hlink ⟨o, us, ho, hp⟩] at h
      cases h
      exact .done p _ _
  | unary =>
    by_cases hminus : ∃ us, rest = .op .sub :: us
    · obtain ⟨us, rfl⟩ := hminus
      rw [parse_minus] at h
      obtain ⟨deeper, hdeeper, h⟩ := ok_of_bind h
      obtain ⟨hd, rfl⟩ := descend_ok hdeeper
      obtain ⟨⟨inner, middle⟩, hinner, h⟩ := ok_of_bind h
      cases h
      exact .negate hd (ih _ (measure_lt (Nat.lt_succ_self _)) hinner rfl)
    · rw [parse_unsigned fun us hus => hminus ⟨us, hus⟩] at h
      exact (ih _ (Nat.lt_succ_self _) h rfl).unsigned
  | primary =>
    obtain ⟨v, us, rfl⟩ | ⟨keys, us, rfl⟩ | ⟨us, rfl⟩ := primary_starts h
    · rw [parse_literal] at h
      cases h
      exact .literal v
    · rw [parse_path] at h
      cases h
      exact .path keys
    · rw [parse_group] at h
      obtain ⟨deeper, hdeeper, h⟩ := ok_of_bind h
      obtain ⟨hd, rfl⟩ := descend_ok hdeeper
      obtain ⟨⟨inner, middle⟩, hinner, h⟩ := ok_of_bind h
      dsimp only at h
      split at h
      · rename_i after hafter
        cases h
        exact .group hd (ih _ (measure_lt (Nat.lt_succ_self _)) hinner rfl) hafter
      · cases h

/-- Something is given if there are levels enough for it, and else it is refused. -/
inductive Limited {α : Type} (deep : Prop) (Q : α → Prop) : Except ParseError α → Prop
  | given {v} : ¬deep → Q v → Limited deep Q (.ok v)
  | refused : deep → Limited deep Q (.error .tooDeep)

namespace Limited
variable {α β : Type} {deep deeper : Prop} {Q Q' : α → Prop} {R : β → Prop}

theorem imp {x : Except ParseError α} (h : Limited deep Q x) (hd : deep ↔ deeper)
    (hv : ∀ v, Q v → Q' v) : Limited deeper Q' x := by
  cases h with
  | given hn h => exact .given (mt hd.mpr hn) (hv _ h)
  | refused h => exact .refused (hd.mp h)

theorem bind {x : Except ParseError α} {f : α → Except ParseError β} (h : Limited deep Q x)
    (hd : deep → deeper) (hf : ¬deep → ∀ v, Q v → Limited deeper R (f v)) :
    Limited deeper R (x >>= f) := by
  cases h with
  | given hn h => exact hf hn _ h
  | refused h => exact .refused (hd h)

theorem descend (depth : Nat) :
    Limited (maxNesting ≤ depth) (· = depth + 1) (Expression.descend depth) := by
  unfold Expression.descend
  split
  · rename_i hd
    exact .refused hd
  · rename_i hd
    exact .given hd rfl

end Limited

/-- What has a derivation is parsed, whatever follows, if it is not too deep. -/
theorem parse_derived {f : Form} {ts rest : List Token} {e : Expression} (d : Derivation f ts e)
    {depth : Nat} (hdepth : depth ≤ maxNesting) (hrest : f.EndsAt rest) :
    Limited (maxNesting < depth + d.levels)
      (fun r => r.1 = e ∧ r.2.rest = rest ∧ (f.Whole → r.2.depth = depth))
      (f.parse ⟨ts ++ rest, depth⟩) := by
  induction d generalizing rest depth with
  | @chain p left e ts us d more ih ihmore =>
    rw [parse_chain, List.append_assoc, Derivation.levels]
    have hfirst := ih hdepth (Form.operand_endsAt (more.ends_of_links hrest))
    refine hfirst.bind (by omega) ?_
    rintro hshallow ⟨_, ⟨_, next⟩⟩ ⟨rfl, rfl, hnext⟩
    obtain rfl : next = _ := hnext (Form.whole_operand p)
    refine (ihmore hdepth hrest).bind (by omega) ?_
    rintro hmore ⟨_, ⟨_, _⟩⟩ ⟨rfl, rfl, -⟩
    exact .given (by omega) ⟨rfl, rfl, fun _ => rfl⟩
  | @done p left =>
    have hend : ∀ o us, rest = .op o :: us → o.precedence ≠ p := by
      intro o us ho hp
      have hloose := hrest o us ho
      rw [hp] at hloose
      exact Nat.lt_irrefl _ hloose
    rw [List.nil_append, parse_links_end hend]
    exact .given (Nat.not_lt_of_le hdepth) ⟨rfl, rfl, False.elim⟩
  | @link p o left right e ts us hp d more ih ihmore =>
    rw [List.cons_append, parse_link hp, List.append_assoc, Derivation.levels]
    refine (Limited.descend depth).bind (by omega) ?_
    rintro hopen _ rfl
    have hdeeper : depth + 1 ≤ maxNesting := by omega
    have hright := ih hdeeper (Form.operand_endsAt (more.ends_of_links hrest))
    refine hright.bind (by omega) ?_
    rintro hshallow ⟨_, ⟨_, next⟩⟩ ⟨rfl, rfl, hnext⟩
    obtain rfl : next = _ := hnext (Form.whole_operand p)
    exact (ihmore hdeeper hrest).imp (by omega) fun _ h => ⟨h.1, h.2.1, False.elim⟩
  | negate d ih =>
    rw [List.cons_append, parse_minus, Derivation.levels]
    refine (Limited.descend depth).bind (by omega) ?_
    rintro hopen _ rfl
    refine (ih (by omega) hrest).bind (by omega) ?_
    rintro hshallow ⟨_, ⟨_, next⟩⟩ ⟨rfl, rfl, hnext⟩
    obtain rfl : next = _ := hnext trivial
    exact .given (by omega) ⟨rfl, rfl, fun _ => rfl⟩
  | unsigned d ih =>
    rw [parse_unsigned fun us => d.primary_ne_op .sub]
    exact ih hdepth hrest
  | literal v =>
    rw [List.singleton_append, parse_literal]
    exact .given (Nat.not_lt_of_le hdepth) ⟨rfl, rfl, fun _ => rfl⟩
  | path keys =>
    rw [List.singleton_append, parse_path]
    exact .given (Nat.not_lt_of_le hdepth) ⟨rfl, rfl, fun _ => rfl⟩
  | group d ih =>
    rw [List.cons_append, parse_group, List.append_assoc, Derivation.levels]
    refine (Limited.descend depth).bind (by omega) ?_
    rintro hopen _ rfl
    have hclosed : (Form.chain .comparison).EndsAt ([Token.rparen] ++ rest) := nofun
    refine (ih (by omega) hclosed).bind (by omega) ?_
    rintro hshallow ⟨_, ⟨_, next⟩⟩ ⟨rfl, rfl, hnext⟩
    obtain rfl : next = _ := hnext trivial
    exact .given (by omega) ⟨rfl, rfl, fun _ => rfl⟩

/-- All tokens are parsed as one chain with nothing after it. -/
theorem ofTokens_eq {tokens : List Token} (h : tokens ≠ []) :
    ofTokens tokens = (do
      let (e, last) ← (Form.chain .comparison).parse ⟨tokens, 0⟩
      match last.rest with
      | [] => return e
      | t :: _ => throw (.cause (.unexpectedToken t))) := by
  rw [ofTokens, if_neg (by simpa using h), Form.parse]
  cases chain .comparison ⟨tokens, 0⟩ with
  | error err => rfl
  | ok p =>
    obtain ⟨e, ⟨rest, depth⟩, shorter⟩ := p
    cases rest <;> rfl

/-- The expression of tokens that have a derivation, unless this is too deep. -/
theorem ofTokens_derived {tokens : List Token} {e : Expression}
    (d : Derivation (.chain .comparison) tokens e) :
    ofTokens tokens = if d.levels ≤ maxNesting then .ok e else .error .tooDeep := by
  have hparse := @parse_derived _ _ [] _ d 0 (Nat.zero_le _) nofun
  rw [List.append_nil, Nat.zero_add] at hparse
  rw [ofTokens_eq (d.ne_nil trivial)]
  generalize (Form.chain .comparison).parse ⟨tokens, 0⟩ = found at hparse ⊢
  cases hparse with
  | @given r hlevels h =>
    obtain ⟨e, ⟨rest, depth⟩⟩ := r
    obtain ⟨rfl, rfl, -⟩ := h
    rw [if_pos (Nat.le_of_not_lt hlevels)]
    rfl
  | refused hdeep =>
    rw [if_neg (Nat.not_le_of_lt hdeep)]
    rfl

theorem derived_of_ofTokens {tokens : List Token} {e : Expression} (h : ofTokens tokens = .ok e) :
    ∃ d : Derivation (.chain .comparison) tokens e, d.levels ≤ maxNesting := by
  by_cases hne : tokens = []
  · subst hne
    cases h
  rw [ofTokens_eq hne] at h
  obtain ⟨⟨_, last⟩, hparse, h⟩ := ok_of_bind h
  dsimp only at h
  split at h
  · rename_i hend
    cases h
    obtain ⟨ts, hts, d, hd⟩ := (parse_reads hparse).derived
    rw [hend, List.append_nil] at hts
    subst hts
    exact ⟨d, hd⟩
  · cases h

/-- The parser accepts exactly what the grammar derives: an expression that it gives has a
derivation that opens no more levels than are allowed, and whatever has a derivation is either given
or, if the derivation opens more levels, refused as too deep. -/
theorem grammar_parsed (tokens : List Token) (e : Expression) :
    (ofTokens tokens = .ok e →
      ∃ d : Derivation (.chain .comparison) tokens e, d.levels ≤ maxNesting) ∧
    ∀ d : Derivation (.chain .comparison) tokens e,
      ofTokens tokens = if d.levels ≤ maxNesting then .ok e else .error .tooDeep :=
  ⟨derived_of_ofTokens, ofTokens_derived⟩

end Workflow.Expression
