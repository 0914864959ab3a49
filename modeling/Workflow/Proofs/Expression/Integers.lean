import Workflow.Expression.Eval
import Workflow.Proofs.Decimal.Nearest

/-!
# Integers in expressions

Integers of 64 bits with a sign are computed with exactly, and where the exact result needs more
bits it is refused. The remainder goes with the sign of the divisor and always fits; all the same
one remainder is refused, that of the least integer by minus one, since the quotient does not fit.

Two integers with a sign are compared as they are. As soon as one of them needs the range without a
sign, both are rounded to doubles first, and integers that are rounded to the same double count as
equal although they are not.
-/
namespace Workflow
namespace Expression
variable {context : Table Json} {l r : Expression} {a b : Int}

/-- The value of an exact result, or its refusal. -/
def exactly (op : BinaryOp) (i : Int) : Except ExpressionError Json :=
  if Number.isSigned i then .ok (.int i) else .error (.overflow op)

theorem isSigned_iff {i : Int} :
    Number.isSigned i = true ↔ Number.minSigned ≤ i ∧ i ≤ Number.maxSigned := by
  rw [Number.isSigned, Bool.and_eq_true, decide_eq_true_iff, decide_eq_true_iff]

theorem Operand.ofJson_int (op : BinaryOp) (ha : Number.isSigned a) :
    Operand.ofJson op (.int a) = .ok (.int a) := by
  change Except.ok (Operand.ofNumber (.int a)) = _
  rw [Operand.ofNumber, Number.signed?, if_pos ha]

theorem checked_toJson (op : BinaryOp) (i : Int) :
    (checked op i).bind Operand.toJson = exactly op i := by
  unfold checked exactly
  split <;> rfl

/-- An arithmetic operator on two integers computes with them as numbers. -/
theorem eval_arithmetic {op : BinaryOp} (hop : op.precedence ≠ .comparison)
    (hl : eval context l = .ok (.int a)) (hr : eval context r = .ok (.int b))
    (ha : Number.isSigned a) (hb : Number.isSigned b) :
    eval context (.binary op l r) = (arithmetic op (.int a) (.int b)).bind Operand.toJson := by
  have happly : apply op (.int a) (.int b) =
      (arithmetic op (.int a) (.int b)).bind Operand.toJson := by
    have hx := Operand.ofJson_int op ha
    have hy := Operand.ofJson_int op hb
    cases op
    case eq | ne | lt | le | gt | ge => exact absurd rfl hop
    all_goals
      change (Operand.ofJson _ (.int a) >>= fun x => Operand.ofJson _ (.int b) >>= fun y =>
        (arithmetic _ x y).bind Operand.toJson) = _
      rw [hx, hy]
      rfl
  rw [eval, hl, hr]
  exact happly

/-- Unary minus on an integer. -/
theorem eval_negate (hl : eval context l = .ok (.int a)) (ha : Number.isSigned a) :
    eval context (.negate l) = exactly .sub (-a) := by
  rw [eval, hl]
  change negateValue (.int a) = _
  rw [negateValue, Operand.ofJson_int .sub ha]
  exact checked_toJson .sub (-a)

/-- Adding the divisor to a remainder of the other sign gives the floored remainder. -/
theorem tmod_adjusted (a b : Int) :
    (if a.tmod b ≠ 0 ∧ (decide (a.tmod b < 0) != decide (b < 0)) then a.tmod b + b
      else a.tmod b) = a.fmod b := by
  have hdvd : b ∣ a ↔ a.tmod b = 0 := Int.dvd_iff_tmod_eq_zero
  have hnonneg : 0 ≤ a → 0 ≤ a.tmod b := Int.tmod_nonneg b
  have hnonpos : a ≤ 0 → a.tmod b ≤ 0 := by
    intro h
    have hneg := Int.tmod_nonneg b (Int.neg_nonneg_of_nonpos h)
    rw [Int.neg_tmod] at hneg
    omega
  rw [Int.fmod_eq_tmod]
  grind

/-- The floored remainder lies between zero and the divisor, so it fits where the divisor does. -/
theorem isSigned_fmod (hb : b ≠ 0) (hs : Number.isSigned b) : Number.isSigned (a.fmod b) := by
  rw [isSigned_iff] at hs ⊢
  have hlow := Int.emod_nonneg a hb
  have hhigh := Int.emod_lt a hb
  have hdvd : b ∣ a ↔ a % b = 0 := Int.dvd_iff_emod_eq_zero
  simp only [Number.minSigned, Number.maxSigned] at hs ⊢
  rw [Int.fmod_eq_emod]
  split <;> omega

/-- The quotient of two integers fits unless it is that of the least integer by minus one. -/
theorem isSigned_tdiv (ha : Number.isSigned a) (hb : b ≠ 0) :
    Number.isSigned (a.tdiv b) = true ↔ ¬(a = Number.minSigned ∧ b = -1) := by
  rw [isSigned_iff] at ha ⊢
  simp only [Number.minSigned, Number.maxSigned] at ha ⊢
  have hle := Int.natAbs_tdiv_le_natAbs a b
  obtain rfl | hneg | hpos : b = -1 ∨ b ≤ -2 ∨ 0 < b := by omega
  · rw [Int.tdiv_neg, Int.tdiv_one]
    omega
  · have hhalf : (a.tdiv b).natAbs ≤ a.natAbs / 2 := by
      rw [Int.natAbs_tdiv]
      exact Nat.div_le_div_left (by omega) (by decide)
    omega
  · have hsign : a ≤ 0 → a.tdiv b ≤ 0 := by
      intro h
      have hnonneg := Int.tdiv_nonneg (Int.neg_nonneg_of_nonpos h) hpos.le
      rw [Int.neg_tdiv] at hnonneg
      omega
    omega

theorem remainder_int (ha : Number.isSigned a) (hb : b ≠ 0) :
    remainder (.int a) (.int b) =
      if a = Number.minSigned ∧ b = -1 then .error (.overflow .mod) else .ok (.int (a.fmod b)) := by
  rw [remainder]
  · dsimp only
    rw [tmod_adjusted]
    simp only [isSigned_tdiv ha hb, ite_not]
  · rintro rfl
    exact hb rfl

/-- The remainder of the least integer by minus one is zero, but it is refused. -/
theorem remainder_refused (hl : eval context l = .ok (.int Number.minSigned))
    (hr : eval context r = .ok (.int (-1))) :
    eval context (.binary .mod l r) = .error (.overflow .mod) ∧
      Number.minSigned.fmod (-1) = 0 := by
  refine ⟨?_, by decide⟩
  rw [eval_arithmetic (by decide) hl hr (by decide) (by decide)]
  change (remainder (.int Number.minSigned) (.int (-1))).bind Operand.toJson = _
  rw [remainder_int (by decide) (by decide), if_pos ⟨rfl, rfl⟩]
  rfl

end Expression

open Expression in
/-- Sums, differences, products and negatives of integers are exact, or are refused just when they
do not fit in 64 bits with a sign. So are remainders, which are floored and always fit, but for one
that is refused: the least integer by minus one. -/
theorem integers_exact {context : Table Json} {l r : Expression} {a b : Int}
    (hl : eval context l = .ok (.int a)) (hr : eval context r = .ok (.int b))
    (ha : Number.isSigned a) (hb : Number.isSigned b) :
    eval context (.binary .add l r) = exactly .add (a + b) ∧
      eval context (.binary .sub l r) = exactly .sub (a - b) ∧
      eval context (.binary .mul l r) = exactly .mul (a * b) ∧
      eval context (.negate l) = exactly .sub (-a) ∧
      (b ≠ 0 → ¬(a = Number.minSigned ∧ b = -1) →
        eval context (.binary .mod l r) = exactly .mod (a.fmod b)) := by
  have computed {op : BinaryOp} (hop : op.precedence ≠ .comparison) {i : Int}
      (h : arithmetic op (.int a) (.int b) = checked op i) :
      eval context (.binary op l r) = exactly op i := by
    rw [eval_arithmetic hop hl hr ha hb, h, checked_toJson]
  refine ⟨computed (by decide) rfl, computed (by decide) rfl, computed (by decide) rfl,
    eval_negate hl ha, fun hzero hmin => computed (by decide) ?_⟩
  change remainder (.int a) (.int b) = _
  rw [remainder_int ha hzero, if_neg hmin, checked, if_pos (isSigned_fmod hzero hb)]

open Expression in
/-- The least integer and the greatest: their sum and their floored remainder fit, the difference,
the product and the negative of the least one do not. -/
theorem integers_exact_corners :
    (let l := literal (.int Number.minSigned)
      let r := literal (.int Number.maxSigned)
      eval .empty l = .ok (.int Number.minSigned) ∧ eval .empty r = .ok (.int Number.maxSigned) ∧
        Number.isSigned Number.minSigned ∧ Number.isSigned Number.maxSigned ∧
        Number.maxSigned ≠ 0 ∧ ¬(Number.minSigned = Number.minSigned ∧ Number.maxSigned = -1)) ∧
    let l := literal (.int Number.minSigned)
    let r := literal (.int Number.maxSigned)
    eval .empty (.binary .add l r) = .ok (.int (-1)) ∧
      eval .empty (.binary .sub l r) = .error (.overflow .sub) ∧
      eval .empty (.binary .mul l r) = .error (.overflow .mul) ∧
      eval .empty (.negate l) = .error (.overflow .sub) ∧
      eval .empty (.binary .mod l r) = .ok (.int 9223372036854775806) := by
  have hl : eval .empty (literal (.int Number.minSigned)) = .ok (.int Number.minSigned) := rfl
  have hr : eval .empty (literal (.int Number.maxSigned)) = .ok (.int Number.maxSigned) := rfl
  have hzero : Number.maxSigned ≠ 0 := by decide
  have hmin : ¬(Number.minSigned = Number.minSigned ∧ Number.maxSigned = -1) := by decide
  obtain ⟨hadd, hsub, hmul, hneg, hmod⟩ := integers_exact hl hr (by decide) (by decide)
  exact ⟨⟨hl, hr, by decide, by decide, hzero, hmin⟩, hadd, hsub, hmul, hneg, hmod hzero hmin⟩

/-- What a comparison of two integers means; arithmetic operators never hold. -/
def BinaryOp.relates : BinaryOp → Int → Int → Bool
  | .eq, a, b => a = b
  | .ne, a, b => a ≠ b
  | .lt, a, b => a < b
  | .le, a, b => a ≤ b
  | .gt, a, b => b < a
  | .ge, a, b => b ≤ a
  | _, _, _ => false

namespace Expression
variable {context : Table Json} {l r : Expression} {a b c d : Int} {op : BinaryOp}

/-- Integers that are compared exactly: both have a sign, or they are rounded to different doubles
unless they are the same. -/
def ToldApart (a b : Int) : Prop :=
  (Number.isSigned a ∧ Number.isSigned b) ∨
    (Decimal.nearestInt a = Decimal.nearestInt b → a = b)

theorem isWhole_iff {i : Int} :
    Number.isWhole i = true ↔ Number.minSigned ≤ i ∧ i ≤ Number.maxUnsigned := by
  rw [Number.isWhole, Bool.and_eq_true, decide_eq_true_iff, decide_eq_true_iff]

theorem natAbs_lt (h : Number.isWhole a) : a.natAbs < 2 ^ 64 := by
  rw [isWhole_iff, Number.minSigned, Number.maxUnsigned] at h
  omega

theorem relates_congr (hlt : a < b ↔ c < d) (heq : a = b ↔ c = d) :
    op.relates a b = op.relates c d := by
  have hle : a ≤ b ↔ c ≤ d := by omega
  have hgt : b < a ↔ d < c := by omega
  have hge : b ≤ a ↔ d ≤ c := by omega
  cases op <;> simp only [BinaryOp.relates, hlt, heq, ne_eq, hle, hgt, hge]

/-- A comparison is decided by the equality and by the order of what the two values stand for. -/
theorem compareValues_eq (hop : op.precedence = .comparison) {v w : Json}
    (hequal : equalValues v w = decide (a = b))
    (horder : orderValues op v w = .ok (compare a b)) :
    compareValues op v w = .ok (op.relates a b) := by
  have hlt : (compare a b == .lt) = decide (a < b) := by
    rw [beq_eq_decide, decide_eq_decide, compare_lt_iff_lt]
  have hgt : (compare a b == .gt) = decide (b < a) := by
    rw [beq_eq_decide, decide_eq_decide, compare_gt_iff_gt]
  have hle : (compare a b != .gt) = decide (a ≤ b) := by
    rw [bne, hgt, ← decide_not, decide_eq_decide, not_lt]
  have hge : (compare a b != .lt) = decide (b ≤ a) := by
    rw [bne, hlt, ← decide_not, decide_eq_decide, not_lt]
  cases op
  case add | sub | mul | div | mod => cases hop
  case eq => rw [compareValues, hequal, BinaryOp.relates]
  case ne => rw [compareValues, hequal, BinaryOp.relates, decide_not]
  case lt => rw [compareValues, horder, Except.map, hlt, BinaryOp.relates]
  case le => rw [compareValues, horder, Except.map, hle, BinaryOp.relates]
  case gt => rw [compareValues, horder, Except.map, hgt, BinaryOp.relates]
  case ge => rw [compareValues, horder, Except.map, hge, BinaryOp.relates]

theorem eval_comparison (hop : op.precedence = .comparison)
    (hl : eval context l = .ok (.int a)) (hr : eval context r = .ok (.int b)) :
    eval context (.binary op l r) = (compareValues op (.int a) (.int b)).map .bool := by
  rw [eval, hl, hr]
  change apply op (.int a) (.int b) = _
  rw [apply.eq_def, hop]

theorem equalValues_signed (ha : Number.isSigned a) (hb : Number.isSigned b) :
    equalValues (.int a) (.int b) = decide (a = b) := by
  rw [Json.int, Json.int, equalValues, Number.signed?, if_pos ha, Number.signed?, if_pos hb]
  exact beq_eq_decide a b

theorem orderValues_signed (op : BinaryOp) (ha : Number.isSigned a) (hb : Number.isSigned b) :
    orderValues op (.int a) (.int b) = .ok (compare a b) := by
  have hx := Operand.ofJson_int op ha
  have hy := Operand.ofJson_int op hb
  rw [orderValues, hx, hy]
  · rfl
  · rintro s t ⟨⟩

theorem Operand.toFloat_ofNumber (a : Int) :
    (Operand.ofNumber (.int a)).toFloat = Decimal.nearestInt a := by
  rw [Operand.ofNumber, Number.signed?]
  by_cases ha : Number.isSigned a
  · rw [if_pos ha]
    rfl
  · rw [if_neg ha]
    rfl

theorem Operand.isSigned_of_ofNumber {i : Int} (h : Operand.ofNumber (.int a) = .int i) :
    Number.isSigned a := by
  by_contra ha
  rw [Operand.ofNumber, Number.signed?, if_neg ha] at h
  cases h

theorem nearestInt_lt_iff (ha : a.natAbs < 2 ^ 64) (hb : b.natAbs < 2 ^ 64) :
    Decimal.nearestInt a < Decimal.nearestInt b ↔ Decimal.rank a < Decimal.rank b := by
  change decide (((Decimal.nearestInt a).toModel.unpack.compare
    (Decimal.nearestInt b).toModel.unpack == some .lt) = true) = true ↔ _
  rw [decide_eq_true_iff, Decimal.compare_nearestInt ha hb, beq_iff_eq, Option.some_inj,
    compare_lt_iff_lt]

theorem beq_nearestInt (ha : a.natAbs < 2 ^ 64) (hb : b.natAbs < 2 ^ 64) :
    (Decimal.nearestInt a == Decimal.nearestInt b) = decide (Decimal.rank a = Decimal.rank b) := by
  change ((Decimal.nearestInt a).toModel.unpack.compare (Decimal.nearestInt b).toModel.unpack ==
    some .eq) = _
  rw [Decimal.compare_nearestInt ha hb, beq_eq_decide, decide_eq_decide, Option.some_inj,
    compare_eq_iff_eq]

theorem orderFloats_nearestInt (ha : a.natAbs < 2 ^ 64) (hb : b.natAbs < 2 ^ 64) :
    orderFloats (Decimal.nearestInt a) (Decimal.nearestInt b) =
      some (compare (Decimal.rank a) (Decimal.rank b)) := by
  simp only [orderFloats, nearestInt_lt_iff ha hb, nearestInt_lt_iff hb ha, beq_nearestInt ha hb,
    decide_eq_true_iff]
  rcases lt_trichotomy (Decimal.rank a) (Decimal.rank b) with hlt | heq | hgt
  · rw [if_pos hlt, compare_lt_iff_lt.mpr hlt]
  · rw [if_neg heq.not_lt, if_pos heq, compare_eq_iff_eq.mpr heq]
  · rw [if_neg hgt.not_gt, if_neg hgt.ne', if_pos hgt, compare_gt_iff_gt.mpr hgt]

theorem equalValues_rounded (hsign : ¬(Number.isSigned a ∧ Number.isSigned b))
    (ha : Number.isWhole a) (hb : Number.isWhole b) :
    equalValues (.int a) (.int b) = decide (Decimal.rank a = Decimal.rank b) := by
  rw [← beq_nearestInt (natAbs_lt ha) (natAbs_lt hb), Json.int, Json.int, equalValues]
  split
  next i j hi hj =>
    rw [Number.signed?, Option.ite_none_right_eq_some] at hi hj
    exact absurd ⟨hi.1, hj.1⟩ hsign
  next => rfl

theorem orderValues_rounded (op : BinaryOp) (hsign : ¬(Number.isSigned a ∧ Number.isSigned b))
    (ha : Number.isWhole a) (hb : Number.isWhole b) :
    orderValues op (.int a) (.int b) = .ok (compare (Decimal.rank a) (Decimal.rank b)) := by
  have horder := orderFloats_nearestInt (natAbs_lt ha) (natAbs_lt hb)
  rw [orderValues]
  · simp only [Json.int, Operand.ofJson, bind, Except.bind]
    split
    next i j hi hj =>
      exact absurd ⟨Operand.isSigned_of_ofNumber hi, Operand.isSigned_of_ofNumber hj⟩ hsign
    next =>
      rw [Operand.toFloat_ofNumber, Operand.toFloat_ofNumber, horder]
      rfl
  · rintro s t ⟨⟩

/-- Integers of which one at least has no sign are compared by their ranks among the doubles. -/
theorem compareValues_rounded (hop : op.precedence = .comparison)
    (hsign : ¬(Number.isSigned a ∧ Number.isSigned b))
    (ha : Number.isWhole a) (hb : Number.isWhole b) :
    compareValues op (.int a) (.int b) = .ok (op.relates (Decimal.rank a) (Decimal.rank b)) :=
  compareValues_eq hop (equalValues_rounded hsign ha hb) (orderValues_rounded op hsign ha hb)

/-- Different doubles are in the order of the integers. -/
theorem relates_rank (ha : Number.isWhole a) (hb : Number.isWhole b)
    (h : Decimal.nearestInt a = Decimal.nearestInt b → a = b) :
    op.relates (Decimal.rank a) (Decimal.rank b) = op.relates a b := by
  have hrank : Decimal.rank a = Decimal.rank b → a = b :=
    fun hr => h ((Decimal.nearestInt_eq_iff (natAbs_lt ha) (natAbs_lt hb)).mpr hr)
  have hmono : a ≤ b → Decimal.rank a ≤ Decimal.rank b :=
    fun hle => Decimal.rank_mono hle (natAbs_lt ha) (natAbs_lt hb)
  have hmono' : b ≤ a → Decimal.rank b ≤ Decimal.rank a :=
    fun hle => Decimal.rank_mono hle (natAbs_lt hb) (natAbs_lt ha)
  have heq : a = b → Decimal.rank a = Decimal.rank b := congrArg Decimal.rank
  exact relates_congr (by omega) ⟨hrank, heq⟩

/-- Integers further than `2^11` apart are told apart. -/
theorem toldApart_of_far (ha : Number.isWhole a) (hb : Number.isWhole b) (h : a + 2 ^ 11 < b) :
    ToldApart a b := by
  refine .inr fun hsame => absurd ?_ (Decimal.rank_lt_of_far h (natAbs_lt ha) (natAbs_lt hb)).ne
  exact (Decimal.nearestInt_eq_iff (natAbs_lt ha) (natAbs_lt hb)).mp hsame

example : ¬ToldApart Number.maxSigned (Number.maxSigned + 1) := by
  rw [ToldApart, Decimal.nearestInt_eq_iff (by decide) (by decide)]
  decide

/-- Integers that are not told apart are compared as if they were the same. -/
theorem rounded_alike (hop : op.precedence = .comparison)
    (hl : eval context l = .ok (.int a)) (hr : eval context r = .ok (.int b))
    (ha : Number.isWhole a) (hb : Number.isWhole b) (h : ¬ToldApart a b) :
    a ≠ b ∧ eval context (.binary op l r) = .ok (.bool (op.relates a a)) := by
  obtain ⟨hsign, hsame⟩ := not_or.mp h
  obtain ⟨hsame, hne⟩ := Classical.not_imp.mp hsame
  refine ⟨hne, ?_⟩
  have hrank := (Decimal.nearestInt_eq_iff (natAbs_lt ha) (natAbs_lt hb)).mp hsame
  rw [eval_comparison hop hl hr, compareValues_rounded hop hsign ha hb, ← hrank,
    relates_congr (c := a) (d := a) (by omega) (by omega)]
  rfl

end Expression

open Expression in
/-- Integers of 64 bits, with a sign or without, are compared by value by each of the six
comparisons, unless two different ones are rounded to the same double. -/
theorem integers_compared {context : Table Json} {l r : Expression} {a b : Int} {op : BinaryOp}
    (hop : op.precedence = .comparison)
    (hl : eval context l = .ok (.int a)) (hr : eval context r = .ok (.int b))
    (ha : Number.isWhole a) (hb : Number.isWhole b) (h : ToldApart a b) :
    eval context (.binary op l r) = .ok (.bool (op.relates a b)) := by
  rw [eval_comparison hop hl hr]
  by_cases hsign : Number.isSigned a ∧ Number.isSigned b
  · rw [compareValues_eq hop (equalValues_signed hsign.1 hsign.2)
      (orderValues_signed op hsign.1 hsign.2)]
    rfl
  · have hround := h.resolve_left hsign
    rw [compareValues_rounded hop hsign ha hb, relates_rank ha hb hround]
    rfl

open Expression in
/-- The greatest integer with a sign is less than the greatest one without. -/
theorem integers_compared_greatest :
    (BinaryOp.lt.precedence = .comparison ∧
      eval .empty (literal (.int Number.maxSigned)) = .ok (.int Number.maxSigned) ∧
      eval .empty (literal (.int Number.maxUnsigned)) = .ok (.int Number.maxUnsigned) ∧
      Number.isWhole Number.maxSigned ∧ Number.isWhole Number.maxUnsigned ∧
      ToldApart Number.maxSigned Number.maxUnsigned) ∧
    eval .empty
      (.binary .lt (literal (.int Number.maxSigned)) (literal (.int Number.maxUnsigned))) =
        .ok (.bool true) := by
  have hop : BinaryOp.lt.precedence = .comparison := rfl
  have hl : eval .empty (literal (.int Number.maxSigned)) = .ok (.int Number.maxSigned) := rfl
  have hr : eval .empty (literal (.int Number.maxUnsigned)) = .ok (.int Number.maxUnsigned) := rfl
  have happart : ToldApart Number.maxSigned Number.maxUnsigned :=
    toldApart_of_far (by decide) (by decide) (by decide)
  exact ⟨⟨hop, hl, hr, by decide, by decide, happart⟩,
    integers_compared hop hl hr (by decide) (by decide) happart⟩

end Workflow
