import Mathlib.Logic.Relation
import Workflow.Proofs.Expression.Parser

/-!
# The levels that the parser has open

A parse is told moment by moment: where the innermost call stands, which calls wait for it, and what
the cursor shows. A call that returns an expression has closed the levels that it had opened, and
between two calls of one routine, one inside the other, a level is opened. So the limit on levels
is a limit on the calls that are active at a time.
-/
namespace Workflow.Expression

inductive Routine where
  | chain (p : Precedence)
  | unary
  | primary
  deriving DecidableEq

namespace Routine

def operand : Precedence → Routine
  | .comparison => chain .sum
  | .sum => chain .product
  | .product => unary

def form : Routine → Form
  | chain p => .chain p
  | unary => .unary
  | primary => .primary

theorem form_operand (p : Precedence) : (operand p).form = Form.operand p := by
  cases p <;> rfl

/-- How many routines stand between a comparison and a routine, if no level is opened. -/
def index : Routine → Nat
  | chain p => 3 - rank p
  | unary => 3
  | primary => 4

theorem index_operand (p : Precedence) : (operand p).index = (chain p).index + 1 := by
  cases p <;> rfl

theorem index_le (r : Routine) : r.index ≤ 4 := by
  cases r with
  | chain p => exact Nat.le_trans (Nat.sub_le _ _) (by decide)
  | unary => decide
  | primary => decide

end Routine

/-- Where the innermost call stands: at its beginning, in front of the next operator of its chain,
at the end of what it has opened a level for, or at its end. -/
inductive Control where
  | entering (r : Routine)
  | linking (p : Precedence) (left : Expression)
  | closingMinus (e : Expression)
  | closingGroup (e : Expression)
  | leaving (r : Routine) (answer : Except ParseError Expression)

namespace Control

def routine : Control → Routine
  | entering r => r
  | linking p _ => .chain p
  | closingMinus _ => .unary
  | closingGroup _ => .primary
  | leaving r _ => r

/-- The innermost call is about to lower the depth by one. -/
def Lowers : Control → Prop
  | closingMinus _ => True
  | closingGroup _ => True
  | _ => False

/-- How the depth compares with what it was when the innermost call began. -/
def Balanced (entry depth : Nat) : Control → Prop
  | entering _ => depth = entry
  | linking _ _ => entry ≤ depth
  | closingMinus _ => depth = entry + 1
  | closingGroup _ => depth = entry + 1
  | leaving _ (.ok _) => depth = entry
  | leaving _ (.error _) => True

end Control

/-- What a call waits for: the first operand of its chain, the operand after an operator, the
operand of a minus sign, the primary without one, or what stands in its parentheses. -/
inductive Wait where
  | first (p : Precedence)
  | right (p : Precedence) (left : Expression) (o : BinaryOp)
  | negated
  | unsigned
  | enclosed

namespace Wait

def routine : Wait → Routine
  | first p => .chain p
  | right p _ _ => .chain p
  | negated => .unary
  | unsigned => .unary
  | enclosed => .primary

/-- Where a call goes on with the expression that it has waited for. -/
def resume (e : Expression) : Wait → Control
  | first p => .linking p e
  | right p left o => .linking p (.binary o left e)
  | negated => .closingMinus e
  | unsigned => .leaving .unary (.ok e)
  | enclosed => .closingGroup e

theorem routine_resume (w : Wait) (e : Expression) : (w.resume e).routine = w.routine := by
  cases w <;> rfl

end Wait

/-- A call that waits for the call that it has made. It was made itself at the depth `entry`. -/
structure Caller where
  wait : Wait
  entry : Nat

/-- A moment of a parse. The innermost call was made at the depth `entry`; its caller is the first
of the callers. -/
structure Moment where
  cursor : Cursor
  control : Control
  entry : Nat
  callers : List Caller

namespace Moment

def enter (r : Routine) (c : Cursor) (callers : List Caller) : Moment :=
  ⟨c, .entering r, c.depth, callers⟩

/-- A call on a new level, if there is one left. -/
def enterDeeper (r : Routine) (c : Cursor) (k : Caller) (callers : List Caller) : Moment :=
  match descend c.depth with
  | .ok depth => enter r ⟨c.rest, depth⟩ (k :: callers)
  | .error e => ⟨c, .leaving k.wait.routine (.error e), k.entry, callers⟩

/-- The moment after a moment; there is none after the outermost call. -/
def next (m : Moment) : Option Moment :=
  let ⟨c, control, entry, callers⟩ := m
  match control with
  | .entering (.chain p) => some (enter (.operand p) c (⟨.first p, entry⟩ :: callers))
  | .linking p left =>
    match c.rest with
    | .op o :: rest =>
      if o.precedence = p then
        some (enterDeeper (.operand p) ⟨rest, c.depth⟩ ⟨.right p left o, entry⟩ callers)
      else some ⟨⟨c.rest, entry⟩, .leaving (.chain p) (.ok left), entry, callers⟩
    | _ => some ⟨⟨c.rest, entry⟩, .leaving (.chain p) (.ok left), entry, callers⟩
  | .entering .unary =>
    match c.rest with
    | .op .sub :: rest => some (enterDeeper .unary ⟨rest, c.depth⟩ ⟨.negated, entry⟩ callers)
    | _ => some (enter .primary c (⟨.unsigned, entry⟩ :: callers))
  | .closingMinus e =>
    some ⟨⟨c.rest, c.depth - 1⟩, .leaving .unary (.ok (.negate e)), entry, callers⟩
  | .entering .primary =>
    match c.rest with
    | [] => some ⟨c, .leaving .primary (.error (.cause .unexpectedEnd)), entry, callers⟩
    | .literal v :: rest =>
      some ⟨⟨rest, c.depth⟩, .leaving .primary (.ok (.literal v)), entry, callers⟩
    | .path segments :: rest =>
      if segments.head? = some contextRoot then
        some ⟨⟨rest, c.depth⟩, .leaving .primary (.ok (.path segments.tail)), entry, callers⟩
      else
        some ⟨⟨rest, c.depth⟩,
          .leaving .primary (.error (.unknownIdentifier (".".intercalate segments))), entry,
          callers⟩
    | .lparen :: rest =>
      some (enterDeeper (.chain .comparison) ⟨rest, c.depth⟩ ⟨.enclosed, entry⟩ callers)
    | .rparen :: rest =>
      some ⟨⟨rest, c.depth⟩, .leaving .primary (.error (.cause .unexpectedClose)), entry, callers⟩
    | .op o :: rest =>
      some ⟨⟨rest, c.depth⟩, .leaving .primary (.error (.cause (.unexpectedOperator o))), entry,
        callers⟩
  | .closingGroup e =>
    match c.rest with
    | .rparen :: rest => some ⟨⟨rest, c.depth - 1⟩, .leaving .primary (.ok e), entry, callers⟩
    | tokens =>
      some ⟨⟨tokens, c.depth - 1⟩, .leaving .primary (.error (.cause .expectedClose)), entry,
        callers⟩
  | .leaving _ answer =>
    match answer, callers with
    | .ok e, k :: outer => some ⟨c, k.wait.resume e, k.entry, outer⟩
    | .error e, k :: outer => some ⟨c, .leaving k.wait.routine (.error e), k.entry, outer⟩
    | _, [] => none

def Leads : Moment → Moment → Prop := Relation.ReflTransGen fun m n => m.next = some n

/-- The routines of the calls that are active, the innermost first. -/
def active (m : Moment) : List Routine := m.control.routine :: m.callers.map (·.wait.routine)

def start (tokens : List Token) : Moment := enter (.chain .comparison) ⟨tokens, 0⟩ []

end Moment

/-- A call of a routine is made at a depth, with these callers around it. -/
inductive Made : Routine → Nat → List Caller → Prop
  | outermost : Made (.chain .comparison) 0 []
  | first {p d ks} : Made (.chain p) d ks → Made (.operand p) d (⟨.first p, d⟩ :: ks)
  | right {p d depth left o ks} : Made (.chain p) d ks → d < depth →
      Made (.operand p) depth (⟨.right p left o, d⟩ :: ks)
  | negated {d ks} : Made .unary d ks → Made .unary (d + 1) (⟨.negated, d⟩ :: ks)
  | unsigned {d ks} : Made .unary d ks → Made .primary d (⟨.unsigned, d⟩ :: ks)
  | enclosed {d ks} : Made .primary d ks →
      Made (.chain .comparison) (d + 1) (⟨.enclosed, d⟩ :: ks)

namespace Made
variable {r : Routine} {d : Nat} {k : Caller} {ks : List Caller}

theorem caller (h : Made r d (k :: ks)) : Made k.wait.routine k.entry ks := by
  cases h <;> assumption

/-- A call stands on a higher level than its caller, or further inside on the same level. -/
theorem inside (h : Made r d (k :: ks)) :
    k.entry < d ∨ k.entry = d ∧ k.wait.routine.index < r.index := by
  cases h with
  | @first p => exact .inr ⟨rfl, by rw [Routine.index_operand]; exact Nat.lt_succ_self _⟩
  | right _ hlt => exact .inl hlt
  | negated => exact .inl (Nat.lt_succ_self _)
  | unsigned => exact .inr ⟨rfl, Nat.lt_succ_self _⟩
  | enclosed => exact .inl (Nat.lt_succ_self _)

/-- A call that returns at the depth at which it was made leaves its caller balanced. -/
theorem resume (h : Made r d (k :: ks)) (e : Expression) :
    (k.wait.resume e).Balanced k.entry d := by
  cases h with
  | first => exact Nat.le_refl d
  | right _ hlt => exact Nat.le_of_lt hlt
  | negated => rfl
  | unsigned => rfl
  | enclosed => rfl

/-- On each level, a routine is called at most once. -/
theorem count_le (h : Made r d ks) (q : Routine) :
    (r :: ks.map (·.wait.routine)).count q ≤ d + if q.index ≤ r.index then 1 else 0 := by
  induction ks generalizing r d with
  | nil =>
    rw [List.map_nil, List.count_singleton]
    by_cases hq : r = q
    · simp [hq]
    · simp [hq]
  | cons k ks ih =>
    -- Either the caller is on a lower level, or it is a routine further outside on the same one.
    have houter := ih h.caller
    have hinside := h.inside
    rw [List.count_cons, List.map_cons]
    by_cases hq : r = q
    · subst hq
      split at houter <;> simp <;> omega
    · have hne : ¬(r == q) = true := by simpa using hq
      rw [if_neg hne]
      split at houter <;> split <;> omega

theorem length_le (h : Made r d ks) : ks.length ≤ 5 * d + r.index := by
  induction ks generalizing r d with
  | nil => exact Nat.zero_le _
  | cons k ks ih =>
    have houter := ih h.caller
    have hinside := h.inside
    have hindex := k.wait.routine.index_le
    rw [List.length_cons]
    omega

end Made

/-- What holds at every moment: the innermost call is where it can have been made, its depth is what
it opened, and no more levels are open than are allowed. -/
structure Moment.Sound (m : Moment) : Prop where
  made : Made m.control.routine m.entry m.callers
  balanced : m.control.Balanced m.entry m.cursor.depth
  entry_le : m.entry ≤ maxNesting
  depth_le : m.cursor.depth ≤ maxNesting

namespace Moment.Sound
variable {m n : Moment} {r : Routine} {p : Precedence} {left : Expression} {c : Cursor}
  {entry : Nat} {k : Caller} {ks : List Caller}

theorem enter (hmade : Made r c.depth ks) (hdepth : c.depth ≤ maxNesting) :
    (Moment.enter r c ks).Sound :=
  ⟨hmade, rfl, hdepth, hdepth⟩

theorem enterDeeper (hcaller : Made k.wait.routine k.entry ks) (hentry : k.entry ≤ c.depth)
    (hdepth : c.depth ≤ maxNesting) (hmade : Made r (c.depth + 1) (k :: ks)) :
    (Moment.enterDeeper r c k ks).Sound := by
  unfold Moment.enterDeeper
  split
  · rename_i depth hdescend
    obtain ⟨hlt, rfl⟩ := descend_ok hdescend
    exact enter hmade hlt
  · exact ⟨hcaller, trivial, Nat.le_trans hentry hdepth, hdepth⟩

theorem next_entering (h : Sound ⟨c, .entering r, entry, ks⟩)
    (hn : Moment.next ⟨c, .entering r, entry, ks⟩ = some n) : n.Sound := by
  obtain ⟨rest, depth⟩ := c
  obtain ⟨hmade, hbalanced, -, hdepth⟩ := h
  obtain rfl : depth = entry := hbalanced
  cases r with
  | chain p =>
    cases hn
    exact enter (.first hmade) hdepth
  | unary =>
    simp only [Moment.next] at hn
    split at hn
    · cases hn
      exact enterDeeper hmade (Nat.le_refl _) hdepth (.negated hmade)
    · cases hn
      exact enter (.unsigned hmade) hdepth
  | primary =>
    simp only [Moment.next] at hn
    split at hn
    · cases hn
      exact ⟨hmade, trivial, hdepth, hdepth⟩
    · cases hn
      exact ⟨hmade, rfl, hdepth, hdepth⟩
    · split at hn
      · cases hn
        exact ⟨hmade, rfl, hdepth, hdepth⟩
      · cases hn
        exact ⟨hmade, trivial, hdepth, hdepth⟩
    · cases hn
      exact enterDeeper hmade (Nat.le_refl _) hdepth (.enclosed hmade)
    · cases hn
      exact ⟨hmade, trivial, hdepth, hdepth⟩
    · cases hn
      exact ⟨hmade, trivial, hdepth, hdepth⟩

theorem next_linking (h : Sound ⟨c, .linking p left, entry, ks⟩)
    (hn : Moment.next ⟨c, .linking p left, entry, ks⟩ = some n) : n.Sound := by
  obtain ⟨hmade, hbalanced, hentry, hdepth⟩ := h
  have hle : entry ≤ c.depth := hbalanced
  simp only [Moment.next] at hn
  split at hn
  · split at hn
    · cases hn
      exact enterDeeper hmade hle hdepth (.right hmade (Nat.lt_succ_of_le hle))
    · cases hn
      exact ⟨hmade, rfl, hentry, hentry⟩
  · cases hn
    exact ⟨hmade, rfl, hentry, hentry⟩

theorem next_leaving {answer : Except ParseError Expression}
    (h : Sound ⟨c, .leaving r answer, entry, ks⟩)
    (hn : Moment.next ⟨c, .leaving r answer, entry, ks⟩ = some n) : n.Sound := by
  obtain ⟨rest, depth⟩ := c
  obtain ⟨hmade, hbalanced, hentry, hdepth⟩ := h
  rcases ks with _ | ⟨k, ks⟩
  · rcases answer with _ | _ <;> cases hn
  have houter : k.entry ≤ entry := by
    rcases hmade.inside with hlt | ⟨heq, -⟩
    · exact Nat.le_of_lt hlt
    · exact Nat.le_of_eq heq
  cases answer with
  | ok e =>
    obtain rfl : depth = entry := hbalanced
    cases hn
    refine ⟨?_, hmade.resume e, Nat.le_trans houter hentry, hdepth⟩
    rw [Wait.routine_resume]
    exact hmade.caller
  | error e =>
    cases hn
    exact ⟨hmade.caller, trivial, Nat.le_trans houter hentry, hdepth⟩

/-- What one moment passes on to the next. -/
theorem next (h : m.Sound) (hn : m.next = some n) : n.Sound := by
  obtain ⟨⟨rest, depth⟩, control, entry, callers⟩ := m
  cases control with
  | entering r => exact h.next_entering hn
  | linking p left => exact h.next_linking hn
  | leaving r answer => exact h.next_leaving hn
  | closingMinus e =>
    obtain rfl : depth = entry + 1 := h.balanced
    cases hn
    exact ⟨h.made, rfl, h.entry_le, h.entry_le⟩
  | closingGroup e =>
    obtain rfl : depth = entry + 1 := h.balanced
    simp only [Moment.next] at hn
    split at hn
    · cases hn
      exact ⟨h.made, rfl, h.entry_le, h.entry_le⟩
    · cases hn
      exact ⟨h.made, trivial, h.entry_le, h.entry_le⟩

theorem leads (h : m.Sound) (hn : m.Leads n) : n.Sound := by
  induction hn with
  | refl => exact h
  | tail _ hnext ih => exact ih.next hnext

theorem start (tokens : List Token) : (Moment.start tokens).Sound :=
  enter .outermost (Nat.zero_le _)

theorem lowers (h : m.Sound) (hlowers : m.control.Lowers) : 0 < m.cursor.depth := by
  obtain ⟨c, control, entry, callers⟩ := m
  have hdepth := h.balanced
  cases control with
  | closingMinus e => exact Nat.lt_of_lt_of_eq (Nat.succ_pos entry) hdepth.symm
  | closingGroup e => exact Nat.lt_of_lt_of_eq (Nat.succ_pos entry) hdepth.symm
  | _ => exact hlowers.elim

theorem count_le (h : m.Sound) (q : Routine) : m.active.count q ≤ maxNesting + 1 := by
  have hcount := h.made.count_le q
  have hentry := h.entry_le
  rw [active]
  split at hcount <;> omega

theorem length_le (h : m.Sound) : m.active.length ≤ 5 * (maxNesting + 1) := by
  have hlength := h.made.length_le
  have hentry := h.entry_le
  have hindex := m.control.routine.index_le
  rw [active, List.length_cons, List.length_map]
  omega

end Moment.Sound

/-- Where a call begins with a form, or goes on with it. -/
def Form.control : Form → Control
  | chain p => .entering (.chain p)
  | links p left => .linking p left
  | unary => .entering .unary
  | primary => .entering .primary

namespace Routine

theorem whole (r : Routine) : r.form.Whole := by
  cases r <;> trivial

theorem control_form (r : Routine) : r.form.control = .entering r := by
  cases r <;> rfl

theorem measure_operand (c : Cursor) (p : Precedence) :
    (operand p).form.measure c < (Form.chain p).measure c := by
  rw [form_operand]
  exact Expression.measure_operand c p

end Routine

namespace Moment
variable {m : Moment} {control : Control} {r : Routine} {w : Wait} {p : Precedence}
  {left e : Expression} {c : Cursor} {rest : List Token} {depth entry : Nat} {ks : List Caller}

/-- The innermost call ends with an answer. If it has read an expression, the cursor is behind it
and the depth is the one at which the call was made. -/
def Answers (m : Moment) (answer : Except ParseError (Expression × Cursor)) : Prop :=
  ∃ c, m.Leads ⟨c, .leaving m.control.routine (answer.map Prod.fst), m.entry, m.callers⟩ ∧
    ∀ e last, answer = .ok (e, last) → c = ⟨last.rest, m.entry⟩

namespace Answers
variable {f : Expression × Cursor → Except ParseError (Expression × Cursor)}

theorem given (h : m.next =
    some ⟨⟨rest, m.entry⟩, .leaving m.control.routine (.ok e), m.entry, m.callers⟩) :
    m.Answers (.ok (e, ⟨rest, depth⟩)) :=
  ⟨_, .single h, fun _ _ heq => by cases heq; rfl⟩

theorem refused {e : ParseError} (h : m.next =
    some ⟨c, .leaving m.control.routine (.error e), m.entry, m.callers⟩) :
    m.Answers (.error e) :=
  ⟨c, .single h, nofun⟩

/-- What a call that waits for another one makes of the answer of that one. -/
theorem call
    (hnext : next ⟨c, control, entry, ks⟩ = some (enter r ⟨rest, depth⟩ (⟨w, entry⟩ :: ks)))
    (hw : w.routine = control.routine)
    (inner : (enter r ⟨rest, depth⟩ (⟨w, entry⟩ :: ks)).Answers (r.form.parse ⟨rest, depth⟩))
    (outer : ∀ e after, r.form.parse ⟨rest, depth⟩ = .ok (e, ⟨after, depth⟩) →
      Answers ⟨⟨after, depth⟩, w.resume e, entry, ks⟩ (f (e, ⟨after, depth⟩))) :
    Answers ⟨c, control, entry, ks⟩ (r.form.parse ⟨rest, depth⟩ >>= f) := by
  obtain ⟨reached, hinner, hcursor⟩ := inner
  have hleads : Leads ⟨c, control, entry, ks⟩ ⟨reached,
      .leaving r ((r.form.parse ⟨rest, depth⟩).map Prod.fst), depth, ⟨w, entry⟩ :: ks⟩ :=
    .head hnext hinner
  cases hparse : r.form.parse ⟨rest, depth⟩ with
  | error err =>
    rw [hparse] at hleads
    refine ⟨reached, ?_, nofun⟩
    rw [← hw]
    exact hleads.tail rfl
  | ok read =>
    obtain ⟨e, after, level⟩ := read
    obtain rfl : level = depth := (parse_reads hparse).depth r.whole
    obtain rfl : reached = ⟨after, level⟩ := hcursor e _ hparse
    rw [hparse] at hleads
    obtain ⟨last, houter, hlast⟩ := outer e after hparse
    rw [Wait.routine_resume, hw] at houter
    exact ⟨last, (hleads.tail rfl).trans houter, hlast⟩

/-- The same on a new level, which is refused if there is none left. -/
theorem deeper
    (hnext : next ⟨c, control, entry, ks⟩ = some (enterDeeper r ⟨rest, depth⟩ ⟨w, entry⟩ ks))
    (hw : w.routine = control.routine)
    (inner : (enter r ⟨rest, depth + 1⟩ (⟨w, entry⟩ :: ks)).Answers
      (r.form.parse ⟨rest, depth + 1⟩))
    (outer : ∀ e after, r.form.parse ⟨rest, depth + 1⟩ = .ok (e, ⟨after, depth + 1⟩) →
      Answers ⟨⟨after, depth + 1⟩, w.resume e, entry, ks⟩ (f (e, ⟨after, depth + 1⟩))) :
    Answers ⟨c, control, entry, ks⟩
      (descend depth >>= fun level => r.form.parse ⟨rest, level⟩ >>= f) := by
  unfold enterDeeper at hnext
  cases hdescend : descend depth with
  | error err =>
    simp only [hdescend, hw] at hnext
    exact .refused hnext
  | ok level =>
    obtain ⟨-, rfl⟩ := descend_ok hdescend
    simp only [hdescend] at hnext
    exact .call hnext hw inner outer

/-- The depth that is given with an expression is not what the levels are counted by. -/
theorem reset {answer : Except ParseError (Expression × Cursor)} (h : m.Answers answer)
    (depth : Nat) :
    m.Answers (do let (e, last) ← answer; return (e, { last with depth })) := by
  obtain ⟨reached, hleads, hreached⟩ := h
  cases answer with
  | error err => exact ⟨reached, hleads, nofun⟩
  | ok read =>
    refine ⟨reached, hleads, fun _ _ heq => ?_⟩
    cases heq
    exact hreached read.1 read.2 rfl

theorem chain
    (first : (enter (.operand p) ⟨rest, depth⟩ (⟨.first p, depth⟩ :: ks)).Answers
      ((Routine.operand p).form.parse ⟨rest, depth⟩))
    (more : ∀ left after,
      (Routine.operand p).form.parse ⟨rest, depth⟩ = .ok (left, ⟨after, depth⟩) →
        Answers ⟨⟨after, depth⟩, .linking p left, depth, ks⟩
          ((Form.links p left).parse ⟨after, depth⟩)) :
    Answers ⟨⟨rest, depth⟩, .entering (.chain p), depth, ks⟩
      ((Form.chain p).parse ⟨rest, depth⟩) := by
  rw [parse_chain, ← Routine.form_operand]
  exact call rfl rfl first fun left after hfirst => (more left after hfirst).reset depth

theorem link {o : BinaryOp} (hp : o.precedence = p)
    (second : (enter (.operand p) ⟨rest, depth + 1⟩ (⟨.right p left o, entry⟩ :: ks)).Answers
      ((Routine.operand p).form.parse ⟨rest, depth + 1⟩))
    (more : ∀ right after,
      (Routine.operand p).form.parse ⟨rest, depth + 1⟩ = .ok (right, ⟨after, depth + 1⟩) →
        Answers ⟨⟨after, depth + 1⟩, .linking p (.binary o left right), entry, ks⟩
          ((Form.links p (.binary o left right)).parse ⟨after, depth + 1⟩)) :
    Answers ⟨⟨.op o :: rest, depth⟩, .linking p left, entry, ks⟩
      ((Form.links p left).parse ⟨.op o :: rest, depth⟩) := by
  rw [parse_link hp, ← Routine.form_operand]
  exact deeper (if_pos hp) rfl second more

theorem done (h : ∀ o us, c.rest = .op o :: us → o.precedence ≠ p) :
    Answers ⟨c, .linking p left, entry, ks⟩ ((Form.links p left).parse c) := by
  rw [parse_links_end h]
  refine given ?_
  simp only [next]
  split
  · rename_i o us hrest
    exact if_neg (h o us hrest)
  · rfl

theorem negate
    (inner : (enter .unary ⟨rest, depth + 1⟩ (⟨.negated, depth⟩ :: ks)).Answers
      (Form.unary.parse ⟨rest, depth + 1⟩)) :
    Answers ⟨⟨.op .sub :: rest, depth⟩, .entering .unary, depth, ks⟩
      (Form.unary.parse ⟨.op .sub :: rest, depth⟩) := by
  rw [parse_minus]
  exact deeper (w := .negated) rfl rfl inner fun e after _ => given rfl

theorem unsigned (h : ∀ us, rest ≠ .op .sub :: us)
    (inner : (enter .primary ⟨rest, depth⟩ (⟨.unsigned, depth⟩ :: ks)).Answers
      (Form.primary.parse ⟨rest, depth⟩)) :
    Answers ⟨⟨rest, depth⟩, .entering .unary, depth, ks⟩
      (Form.unary.parse ⟨rest, depth⟩) := by
  have hnext : next ⟨⟨rest, depth⟩, .entering .unary, depth, ks⟩ =
      some (enter .primary ⟨rest, depth⟩ (⟨.unsigned, depth⟩ :: ks)) := by
    -- The last equation of `next` asks for `h`.
    simp only [next]
  rw [parse_unsigned h, ← bind_pure (Form.primary.parse _)]
  refine call hnext rfl inner fun e after _ => ⟨_, .refl, fun _ _ heq => ?_⟩
  cases heq
  rfl

theorem group
    (inner : (enter (.chain .comparison) ⟨rest, depth + 1⟩ (⟨.enclosed, depth⟩ :: ks)).Answers
      ((Form.chain .comparison).parse ⟨rest, depth + 1⟩)) :
    Answers ⟨⟨.lparen :: rest, depth⟩, .entering .primary, depth, ks⟩
      (Form.primary.parse ⟨.lparen :: rest, depth⟩) := by
  rw [parse_group]
  refine deeper (w := .enclosed) rfl rfl inner fun e after _ => ?_
  dsimp only
  split
  · exact given rfl
  · refine refused (c := ⟨after, depth⟩) ?_
    simp only [Wait.resume, next]
    rfl

theorem path (segments : List String) :
    Answers ⟨⟨.path segments :: rest, depth⟩, .entering .primary, depth, ks⟩
      (Form.primary.parse ⟨.path segments :: rest, depth⟩) := by
  by_cases hroot : segments.head? = some contextRoot
  · obtain ⟨keys, rfl⟩ := List.head?_eq_some_iff.mp hroot
    rw [parse_path]
    exact given rfl
  · have hunknown : Form.primary.parse ⟨.path segments :: rest, depth⟩ =
        .error (.unknownIdentifier (".".intercalate segments)) := by
      rw [Form.parse, primary]
      rcases segments with _ | ⟨root, keys⟩
      · rfl
      · have hne : root ≠ contextRoot := fun heq => hroot (congrArg some heq)
        simp only [if_neg hne]
        rfl
    rw [hunknown]
    exact refused (if_neg hroot)

/-- Where no path and no parenthesis stands, a primary is a literal or nothing. -/
theorem leaf (hpath : ∀ segments us, rest ≠ .path segments :: us)
    (hgroup : ∀ us, rest ≠ .lparen :: us) :
    Answers ⟨⟨rest, depth⟩, .entering .primary, depth, ks⟩
      (Form.primary.parse ⟨rest, depth⟩) := by
  rw [Form.parse, primary]
  rcases rest with _ | ⟨t, rest⟩
  · exact refused rfl
  · cases t with
    | literal v => exact given rfl
    | path segments => exact absurd rfl (hpath segments rest)
    | lparen => exact absurd rfl (hgroup rest)
    | rparen => exact refused rfl
    | op o => exact refused rfl

end Answers

/-- A call, or what is left of it, gives what its form is parsed to. -/
theorem answers (f : Form) (c : Cursor) (entry : Nat) (ks : List Caller)
    (hentry : f.Whole → entry = c.depth) : Answers ⟨c, f.control, entry, ks⟩ (f.parse c) := by
  induction hm : f.measure c using Nat.strongRecOn generalizing f c entry ks with
  | ind measure ih =>
  subst hm
  -- What a call makes has fewer tokens before it or stands further inside.
  have inner (r : Routine) {start : Cursor} {callers : List Caller}
      (h : r.form.measure start < f.measure c) :
      (enter r start callers).Answers (r.form.parse start) := by
    have hanswers := ih _ h r.form start start.depth callers (fun _ => rfl) rfl
    rw [Routine.control_form] at hanswers
    exact hanswers
  obtain ⟨rest, depth⟩ := c
  cases f with
  | chain p =>
    obtain rfl := hentry trivial
    refine .chain (inner _ (Routine.measure_operand _ p)) fun left after hfirst => ?_
    have hshort := (parse_length hfirst).2 (Routine.whole _)
    exact ih _ (measure_lt hshort) (.links p left) _ entry ks nofun rfl
  | links p left =>
    by_cases hlink : ∃ o us, rest = .op o :: us ∧ o.precedence = p
    · obtain ⟨o, us, rfl, hp⟩ := hlink
      refine .link hp (inner _ (measure_lt (Nat.lt_succ_self _))) fun right after hright => ?_
      have hshort := (parse_length hright).2 (Routine.whole _)
      exact ih _ (measure_lt (Nat.lt_succ_of_lt hshort)) (.links p _) _ entry ks nofun rfl
    · exact .done fun o us ho hp => hlink ⟨o, us, ho, hp⟩
  | unary =>
    obtain rfl := hentry trivial
    by_cases hminus : ∃ us, rest = .op .sub :: us
    · obtain ⟨us, rfl⟩ := hminus
      exact .negate (inner .unary (measure_lt (Nat.lt_succ_self _)))
    · exact .unsigned (fun us hus => hminus ⟨us, hus⟩) (inner .primary (Nat.lt_succ_self _))
  | primary =>
    obtain rfl := hentry trivial
    by_cases hpath : ∃ segments us, rest = .path segments :: us
    · obtain ⟨segments, us, rfl⟩ := hpath
      exact .path segments
    by_cases hgroup : ∃ us, rest = .lparen :: us
    · obtain ⟨us, rfl⟩ := hgroup
      exact .group (inner (.chain .comparison) (measure_lt (Nat.lt_succ_self _)))
    exact .leaf (fun segments us hus => hpath ⟨segments, us, hus⟩) fun us hus => hgroup ⟨us, hus⟩

theorem entering_leads (hr : m.control = .entering r) (hentry : m.cursor.depth = m.entry) :
    ∃ last, m.Leads ⟨last, .leaving r ((r.form.parse m.cursor).map Prod.fst), m.entry, m.callers⟩ ∧
      ∀ e next, r.form.parse m.cursor = .ok (e, next) → last = next := by
  obtain ⟨c, control, entry, callers⟩ := m
  obtain rfl := hr
  obtain ⟨last, hleads, hlast⟩ := answers r.form c entry callers fun _ => hentry.symm
  rw [Routine.control_form] at hleads
  refine ⟨last, hleads, fun e next hparse => ?_⟩
  have hdepth : next.depth = entry := ((parse_reads hparse).depth r.whole).trans hentry
  rw [hlast e next hparse, ← hdepth]

end Moment

/-- **Levels are balanced.** At every moment of the parse of any tokens, no more levels are open
than are allowed, a level is closed only while one is open, and a call that gives an expression
leaves the depth as it was when it was made. Every call ends, and it gives what its form is parsed
to. No more than one comparison and one unary are active for each level that is allowed and for the
tokens outside of all levels, and no more than five calls. -/
theorem levels_balanced (tokens : List Token) (m : Moment) (h : (Moment.start tokens).Leads m) :
    m.entry ≤ maxNesting ∧ m.cursor.depth ≤ maxNesting ∧
    (m.control.Lowers → 0 < m.cursor.depth) ∧
    (∀ r, m.control = .entering r → m.cursor.depth = m.entry ∧
      ∃ last,
        m.Leads ⟨last, .leaving r ((r.form.parse m.cursor).map Prod.fst), m.entry, m.callers⟩ ∧
        ∀ e next, r.form.parse m.cursor = .ok (e, next) → last = next) ∧
    (∀ r e, m.control = .leaving r (.ok e) → m.cursor.depth = m.entry) ∧
    m.active.count (.chain .comparison) + m.active.count .unary ≤ 2 * (maxNesting + 1) ∧
    m.active.length ≤ 5 * (maxNesting + 1) := by
  have hsound := (Moment.Sound.start tokens).leads h
  have hcomparison := hsound.count_le (.chain .comparison)
  have hunary := hsound.count_le .unary
  refine ⟨hsound.entry_le, hsound.depth_le, hsound.lowers, fun r hr => ?_, fun r e hr => ?_,
    by omega, hsound.length_le⟩
  · have hentry := hsound.balanced
    rw [hr] at hentry
    exact ⟨hentry, Moment.entering_leads hr hentry⟩
  · have hentry := hsound.balanced
    rw [hr] at hentry
    exact hentry

/-- What follows the minus sign of `-context.a` has been read, one level deep. -/
theorem levels_balanced_minus :
    let tokens : List Token := [.op .sub, .path [contextRoot, "a"]]
    let m : Moment := ⟨⟨[], 1⟩, .closingMinus (.path ["a"]), 0,
      [⟨.first .product, 0⟩, ⟨.first .sum, 0⟩, ⟨.first .comparison, 0⟩]⟩
    (Moment.start tokens).Leads m ∧ m.control.Lowers ∧ 0 < m.cursor.depth ∧
    m.active.count (.chain .comparison) + m.active.count .unary ≤ 2 * (maxNesting + 1) ∧
    ∃ last, (Moment.start tokens).Leads
      ⟨last, .leaving (.chain .comparison) (.ok (.negate (.path ["a"]))), 0, []⟩ := by
  intro tokens m
  have hleads : (Moment.start tokens).Leads m := by
    iterate 8 refine .head rfl ?_
    exact .refl
  have hm := levels_balanced tokens m hleads
  have hstart := levels_balanced tokens (Moment.start tokens) .refl
  obtain ⟨last, hlast, -⟩ := (hstart.2.2.2.1 _ rfl).2
  have hparse : (Form.chain .comparison).parse ⟨tokens, 0⟩ =
      .ok (.negate (.path ["a"]), ⟨[], 0⟩) := by cbv
  rw [Moment.start, Moment.enter, Routine.form, hparse] at hlast
  exact ⟨hleads, trivial, hm.2.2.1 trivial, hm.2.2.2.2.2.1, last, hlast⟩

end Workflow.Expression
