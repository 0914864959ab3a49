import Mathlib.Algebra.Order.Ring.Nat
import Mathlib.Tactic.SplitIfs
import Workflow.Decimal.Dyadic

/-!
# The order of nearest doubles

Rounding integers of 64 bits to doubles keeps their order, but may make two of them the same. The
bits of positive doubles, read as a number, are in the order of the doubles; so it is enough to
follow the bits, first within one power of two and then from one to the next.
-/
namespace Workflow.Decimal
open Float.Model (UnpackedFloat Format)
open Float.Model.UnpackedFloat

section Rounding
variable {num num' den : Nat}

theorem le_roundDiv (num den : Nat) : num / den ≤ roundDiv num den := by
  unfold roundDiv
  dsimp only
  split_ifs <;> omega

theorem roundDiv_le (num den : Nat) : roundDiv num den ≤ num / den + 1 := by
  unfold roundDiv
  dsimp only
  split_ifs <;> omega

/-- A rounded quotient is off by a half at most. -/
theorem roundDiv_close (num : Nat) (h : 0 < den) :
    2 * num ≤ 2 * (den * roundDiv num den) + den ∧
      2 * (den * roundDiv num den) ≤ 2 * num + den := by
  have hsplit := Nat.div_add_mod num den
  have hrem := Nat.mod_lt num h
  unfold roundDiv
  dsimp only
  split_ifs <;> (try rw [Nat.mul_add, Nat.mul_one]) <;> omega

theorem roundDiv_mono (h : num ≤ num') : roundDiv num den ≤ roundDiv num' den := by
  rcases (Nat.div_le_div_right (c := den) h).lt_or_eq with hlt | heq
  · exact (roundDiv_le num den).trans (Nat.succ_le_of_lt hlt |>.trans (le_roundDiv num' den))
  · have hrem : num % den ≤ num' % den := by
      have hsplit := Nat.div_add_mod num den
      have hsplit' := Nat.div_add_mod num' den
      rw [← heq] at hsplit'
      omega
    unfold roundDiv
    dsimp only
    rw [heq]
    split_ifs <;> omega

end Rounding

/-- The significand of the double nearest to an integer, of 53 bits or one more. -/
def significand (n : Nat) : Nat := roundDiv (n * 2 ^ (52 - n.log2)) (2 ^ (n.log2 - 52))

section Bits
variable {n n' : Nat}

theorem binaryExponent_one (hn : n ≠ 0) : binaryExponent n 1 = n.log2 := by
  have hlog : ((1 : Nat).log2 : Int) = 0 := by decide
  have hexact : ¬n * Nat.pow 2 (-(n.log2 : Int)).toNat < 1 * Nat.pow 2 (n.log2 : Int).toNat := by
    rw [show (-(n.log2 : Int)).toNat = 0 by omega, Int.toNat_natCast]
    have := Nat.log2_self_le hn
    simpa using this
  rw [binaryExponent, hlog]
  simp only [Int.sub_zero]
  rw [if_neg hexact]

theorem log2_lt (hn : n ≠ 0) (h : n < 2 ^ 64) : n.log2 < 64 := (Nat.log2_lt hn).mpr h

/-- The scaled integer is a number of 53 bits before it is rounded. -/
theorem scaled_bounds (hn : n ≠ 0) :
    2 ^ 52 * 2 ^ (n.log2 - 52) ≤ n * 2 ^ (52 - n.log2) ∧
      n * 2 ^ (52 - n.log2) < 2 ^ 53 * 2 ^ (n.log2 - 52) := by
  have hlow := Nat.log2_self_le hn
  have hhigh := Nat.lt_log2_self (n := n)
  have hexp : 52 + (n.log2 - 52) = n.log2 + (52 - n.log2) := by omega
  constructor
  · rw [← Nat.pow_add, hexp, Nat.pow_add]
    exact Nat.mul_le_mul_right _ hlow
  · rw [← Nat.pow_add, show 53 + (n.log2 - 52) = n.log2 + 1 + (52 - n.log2) by omega,
      Nat.pow_add]
    exact Nat.mul_lt_mul_of_pos_right hhigh (Nat.two_pow_pos _)

theorem significand_bounds (hn : n ≠ 0) : 2 ^ 52 ≤ significand n ∧ significand n ≤ 2 ^ 53 := by
  obtain ⟨hlow, hhigh⟩ := scaled_bounds hn
  have hpos := Nat.two_pow_pos (n.log2 - 52)
  constructor
  · exact ((Nat.le_div_iff_mul_le hpos).mpr hlow).trans (le_roundDiv _ _)
  · exact (roundDiv_le _ _).trans ((Nat.div_lt_iff_lt_mul hpos).mpr hhigh)

theorem nearestBits_toNat (hn : n ≠ 0) (h : n < 2 ^ 64) :
    (nearestBits n 1).toNat = (n.log2 + 1022) * 2 ^ 52 + significand n := by
  have hlog := log2_lt hn h
  have hsig := (significand_bounds hn).2
  have hq : max (binaryExponent n 1 - 52) (-1074) = (n.log2 : Int) - 52 := by
    rw [binaryExponent_one hn]
    omega
  rw [nearestBits, if_neg hn, hq]
  dsimp only
  have hneg : (-((n.log2 : Int) - 52)).toNat = 52 - n.log2 := by omega
  have hpos : ((n.log2 : Int) - 52).toNat = n.log2 - 52 := by omega
  have hbias : ((n.log2 : Int) - 52 + 1074).toNat = n.log2 + 1022 := by omega
  simp only [hneg, hpos, hbias, Nat.one_mul, Nat.pow_eq]
  rw [← significand, UInt64.toNat_ofNat', Nat.min_eq_left (by omega), Nat.mod_eq_of_lt (by omega)]

theorem nearestBits_bounds (hn : n ≠ 0) (h : n < 2 ^ 64) :
    2 ^ 52 ≤ (nearestBits n 1).toNat ∧ (nearestBits n 1).toNat < 0x7ff0000000000000 := by
  have hlog := log2_lt hn h
  have hsig := significand_bounds hn
  rw [nearestBits_toNat hn h]
  omega

theorem nearestBits_mono (hn : n ≠ 0) (h : n ≤ n') (h' : n' < 2 ^ 64) :
    (nearestBits n 1).toNat ≤ (nearestBits n' 1).toNat := by
  have hn' : n' ≠ 0 := by omega
  rw [nearestBits_toNat hn (h.trans_lt h'), nearestBits_toNat hn' h']
  have hlog : n.log2 ≤ n'.log2 := by
    rw [Nat.le_log2 hn']
    exact (Nat.log2_self_le hn).trans h
  rcases hlog.lt_or_eq with hlt | heq
  · have hsig := (significand_bounds hn).2
    have hsig' := (significand_bounds hn').1
    omega
  · rw [heq]
    refine Nat.add_le_add_left ?_ _
    unfold significand
    rw [heq]
    exact roundDiv_mono (Nat.mul_le_mul_right _ h)

theorem significand_of_le (h : n.log2 ≤ 52) : significand n = n * 2 ^ (52 - n.log2) := by
  have hclose := roundDiv_close (n * 2 ^ (52 - n.log2)) Nat.one_pos
  rw [significand, Nat.sub_eq_zero_of_le h, Nat.pow_zero]
  omega

theorem significand_close (h : 52 ≤ n.log2) :
    2 * n ≤ 2 * (2 ^ (n.log2 - 52) * significand n) + 2 ^ (n.log2 - 52) ∧
      2 * (2 ^ (n.log2 - 52) * significand n) ≤ 2 * n + 2 ^ (n.log2 - 52) := by
  have hclose := roundDiv_close (n * 2 ^ (52 - n.log2)) (Nat.two_pow_pos (n.log2 - 52))
  rwa [← significand, Nat.sub_eq_zero_of_le h, Nat.pow_zero, Nat.mul_one] at hclose

/-- Doubles below `2^64` are `2^11` apart at most, so integers further apart are rounded to
different ones. -/
theorem nearestBits_lt_of_far (hn : n ≠ 0) (h : n + 2 ^ 11 < n') (h' : n' < 2 ^ 64) :
    (nearestBits n 1).toNat < (nearestBits n' 1).toNat := by
  have hn' : n' ≠ 0 := by omega
  have hlog : n.log2 ≤ n'.log2 := by
    rw [Nat.le_log2 hn']
    exact (Nat.log2_self_le hn).trans (by omega)
  have hlog' := log2_lt hn' h'
  have hsig := significand_bounds hn
  have hsig' := significand_bounds hn'
  rw [nearestBits_toNat hn (by omega), nearestBits_toNat hn' h']
  by_contra hle
  obtain heq | hnext : n'.log2 = n.log2 ∨ n'.log2 = n.log2 + 1 := by omega
  · rw [heq] at hle
    rcases Nat.lt_or_ge n.log2 52 with hsmall | hlarge
    · -- Small integers are doubles themselves.
      have hless : n * 2 ^ (52 - n.log2) < n' * 2 ^ (52 - n.log2) :=
        Nat.mul_lt_mul_of_pos_right (by omega) (Nat.two_pow_pos _)
      rw [significand_of_le hsmall.le, significand_of_le (heq ▸ hsmall.le), heq] at hle
      omega
    · have hclose := (significand_close hlarge).2
      have hclose' := (significand_close (heq ▸ hlarge)).1
      have hunit : 2 ^ (n.log2 - 52) ≤ 2 ^ 11 := Nat.pow_le_pow_right (by decide) (by omega)
      have hscaled : 2 ^ (n.log2 - 52) * significand n' ≤ 2 ^ (n.log2 - 52) * significand n :=
        Nat.mul_le_mul_left _ (by omega)
      rw [heq] at hclose'
      omega
  · rcases Nat.lt_or_ge n.log2 52 with hsmall | hlarge
    · have hless := (scaled_bounds hn).2
      rw [← significand_of_le hsmall.le, Nat.sub_eq_zero_of_le hsmall.le] at hless
      omega
    · -- Both doubles are the power of two that lies between the integers.
      have hclose := (significand_close hlarge).2
      have hclose' := (significand_close (hlarge.trans hlog)).1
      have hunit : 2 ^ (n.log2 - 52) ≤ 2 ^ 10 := Nat.pow_le_pow_right (by decide) (by omega)
      rw [show significand n = 2 ^ 53 by omega] at hclose
      rw [show significand n' = 2 ^ 52 by omega, hnext, Nat.sub_add_comm hlarge, Nat.pow_succ]
        at hclose'
      omega

end Bits

theorem finite_congr {s s' : Sign} {m m' : Nat} {e e' : Int} {hm : 0 < m} {hm' : 0 < m'}
    (hs : s = s') (hmantissa : m = m') (he : e = e') :
    finite s m e hm = finite s' m' e' hm' := by
  subst hs hmantissa he
  rfl

theorem ofBitVec_unpackSign (s : Sign) (e : BitVec 11) (f : BitVec 52) :
    Sign.ofBitVec (unpackSign (packComponents .binary64 s e f)) = s := by
  delta unpackSign packComponents BitVec.extractLsb
  rw [BitVec.extractLsb'_append_eq_of_le (by decide),
    BitVec.extractLsb'_append_eq_of_le (by decide)]
  cases s <;> rfl

/-- A double is known by its sign, its exponent and its fraction, if the exponent is not one of the
extreme ones. -/
theorem unpack_packComponents (s : Sign) {e : BitVec 11} (f : BitVec 52) (hlow : 0 < e.toNat)
    (hhigh : e.toNat < 2047) :
    UnpackedFloat.unpack .binary64 (packComponents .binary64 s e f) =
      .finite s (2 ^ 52 + f.toNat) (e.toNat - 1075) (by omega) := by
  have hall : e ≠ -1#11 := fun h => by
    rw [h] at hhigh
    exact absurd hhigh (by decide)
  have hzero : e ≠ 0#11 := fun h => by
    rw [h] at hlow
    exact absurd hlow (by decide)
  have happend : (1#1 ++ f).toNat = 2 ^ 52 + f.toNat := by
    rw [BitVec.toNat_append, ← Nat.shiftLeft_add_eq_or_of_lt f.isLt]
    rfl
  have hexp : unpackExponent (packComponents .binary64 s e f) = e :=
    unpackExponent_packComponents
  have hfraction : unpackMantissa (packComponents .binary64 s e f) = f :=
    unpackMantissa_packComponents
  change (if unpackExponent (packComponents .binary64 s e f) = -1#11 then _ else
    if unpackExponent (packComponents .binary64 s e f) = 0#11 then _ else
      finite (Sign.ofBitVec (unpackSign (packComponents .binary64 s e f)))
        (1#1 ++ unpackMantissa (packComponents .binary64 s e f)).toNat
        ((unpackExponent (packComponents .binary64 s e f)).toNat - 1075) _) = _
  rw [if_neg (hexp.symm ▸ hall), if_neg (hexp.symm ▸ hzero)]
  exact finite_congr (ofBitVec_unpackSign s e f) (by rw [hfraction, happend]) (by rw [hexp])

theorem unpack_pack (s : Sign) {m : Nat} {e : Int} (hm : 0 < m) (hlow : 2 ^ 52 ≤ m)
    (hhigh : m < 2 ^ 53) (he : -1074 ≤ e) (he' : e ≤ 971) :
    (Float.Model.pack (.finite s m e hm)).unpack = .finite s m e hm := by
  have hlog : m.log2 = 52 := (Nat.log2_eq_iff (by omega)).mpr ⟨hlow, hhigh⟩
  have hbias : (e + (Format.exponentBias .binary64 : Int) +
      (Format.mantissaBitsWithoutImplicit .binary64 : Int)).toNat = (e + 1075).toNat := by
    change (e + 1023 + 52).toNat = _
    omega
  have hpack : UnpackedFloat.pack .binary64 (.finite s m e hm) =
      packComponents .binary64 s (BitVec.ofNat 11 (e + 1075).toNat) (BitVec.ofNat 52 m) := by
    have hfinite : ¬2 ^ Format.exponentBits .binary64 ≤ (e + 1075).toNat + 1 := by
      change ¬2048 ≤ _
      omega
    change (if _ ≤ (e + _ + _).toNat + 1 then _ else if m.log2 + 1 = _ then _ else _) = _
    rw [hbias, hlog, if_neg hfinite]
    rfl
  have hexp : (BitVec.ofNat 11 (e + 1075).toNat).toNat = (e + 1075).toNat := by
    rw [BitVec.toNat_ofNat]
    omega
  have hfraction : (BitVec.ofNat 52 m).toNat = m - 2 ^ 52 := by
    rw [BitVec.toNat_ofNat]
    omega
  change UnpackedFloat.unpack .binary64 (UnpackedFloat.pack .binary64 (.finite s m e hm)) = _
  rw [hpack, unpack_packComponents s _ (by omega) (by omega)]
  exact finite_congr rfl (by omega) (by omega)

section OfBits
variable {u : UInt64}

theorem unpack_ofBits (hlow : 2 ^ 52 ≤ u.toNat) (hhigh : u.toNat < 0x7ff0000000000000) :
    (Float.ofBits u).toModel.unpack =
      .finite .positive (2 ^ 52 + u.toNat % 2 ^ 52) ((u.toNat / 2 ^ 52 : Nat) - 1075)
        (by omega) := by
  have hexp : (BitVec.ofNat 11 (u.toNat / 2 ^ 52)).toNat = u.toNat / 2 ^ 52 := by
    rw [BitVec.toNat_ofNat]
    omega
  have hfraction : (BitVec.ofNat 52 u.toNat).toNat = u.toNat % 2 ^ 52 := BitVec.toNat_ofNat _ _
  have hbits : u.toBitVec = packComponents .binary64 .positive
      (BitVec.ofNat 11 (u.toNat / 2 ^ 52)) (BitVec.ofNat 52 u.toNat) := by
    apply BitVec.eq_of_toNat_eq
    rw [packComponents, BitVec.toNat_append, ← Nat.shiftLeft_add_eq_or_of_lt (BitVec.isLt _),
      BitVec.toNat_append, hfraction, hexp, Nat.shiftLeft_eq]
    change u.toNat = (0 <<< 11 ||| u.toNat / 2 ^ 52) * 2 ^ 52 + u.toNat % 2 ^ 52
    rw [Nat.zero_shiftLeft, Nat.zero_or]
    omega
  change (Float.Model.pack (UnpackedFloat.unpack .binary64 u.toBitVec)).unpack = _
  rw [hbits, unpack_packComponents .positive _ (by omega) (by omega),
    unpack_pack _ _ (by omega) (by omega) (by omega) (by omega)]
  exact finite_congr rfl (by rw [hfraction]) (by rw [hexp])

theorem unpack_neg_ofBits (hlow : 2 ^ 52 ≤ u.toNat) (hhigh : u.toNat < 0x7ff0000000000000) :
    (-Float.ofBits u).toModel.unpack =
      .finite .negative (2 ^ 52 + u.toNat % 2 ^ 52) ((u.toNat / 2 ^ 52 : Nat) - 1075)
        (by omega) := by
  change (Float.Model.pack (Float.ofBits u).toModel.unpack.neg).unpack = _
  rw [unpack_ofBits hlow hhigh]
  exact unpack_pack _ _ (by omega) (by omega) (by omega) (by omega)

end OfBits

theorem compare_congr {α β : Type} [LinearOrder α] [LinearOrder β] {a b : α} {c d : β}
    (hlt : a < b ↔ c < d) (heq : a = b ↔ c = d) : compare a b = compare c d := by
  simp only [LinearOrder.compare_eq_compareOfLessAndEq, compareOfLessAndEq, hlt, heq]

/-- Exponents and then significands are compared, which is comparing bits. -/
theorem compare_fields (u v : Nat) :
    (compare ((u / 2 ^ 52 : Nat) - 1075 : Int) ((v / 2 ^ 52 : Nat) - 1075)).then
      (compare (2 ^ 52 + u % 2 ^ 52) (2 ^ 52 + v % 2 ^ 52)) = compare u v := by
  rcases Nat.lt_trichotomy (u / 2 ^ 52) (v / 2 ^ 52) with hlt | heq | hgt
  · have hexp : ((u / 2 ^ 52 : Nat) - 1075 : Int) < (v / 2 ^ 52 : Nat) - 1075 := by omega
    have hbits : u < v := by omega
    rw [compare_lt_iff_lt.mpr hexp, compare_lt_iff_lt.mpr hbits]
    rfl
  · rw [heq, compare_eq_iff_eq.mpr rfl, Ordering.eq_then]
    exact compare_congr (by omega) (by omega)
  · have hexp : ((v / 2 ^ 52 : Nat) - 1075 : Int) < (u / 2 ^ 52 : Nat) - 1075 := by omega
    have hbits : v < u := by omega
    rw [compare_gt_iff_gt.mpr hexp, compare_gt_iff_gt.mpr hbits]
    rfl

/-- The bits of the double nearest to an integer, read as a number with its sign. -/
def rank (i : Int) : Int :=
  if i < 0 then -(nearestBits i.natAbs 1).toNat else (nearestBits i.natAbs 1).toNat

section Integers
variable {a b : Int}

theorem rank_zero : rank 0 = 0 := rfl

theorem rank_of_pos (h : 0 < a) : rank a = (nearestBits a.natAbs 1).toNat := if_neg h.not_gt

theorem rank_of_neg (h : a < 0) : rank a = -(nearestBits a.natAbs 1).toNat := if_pos h

theorem unpack_of_pos (h : 0 < a) (ha : a.natAbs < 2 ^ 64) :
    (nearestInt a).toModel.unpack = .finite .positive
      (2 ^ 52 + (nearestBits a.natAbs 1).toNat % 2 ^ 52)
      (((nearestBits a.natAbs 1).toNat / 2 ^ 52 : Nat) - 1075) (by omega) := by
  obtain ⟨hlow, hhigh⟩ := nearestBits_bounds (by omega) ha
  rw [nearestInt, if_neg h.not_gt]
  exact unpack_ofBits hlow hhigh

theorem unpack_of_neg (h : a < 0) (ha : a.natAbs < 2 ^ 64) :
    (nearestInt a).toModel.unpack = .finite .negative
      (2 ^ 52 + (nearestBits a.natAbs 1).toNat % 2 ^ 52)
      (((nearestBits a.natAbs 1).toNat / 2 ^ 52 : Nat) - 1075) (by omega) := by
  obtain ⟨hlow, hhigh⟩ := nearestBits_bounds (by omega) ha
  rw [nearestInt, if_pos h]
  exact unpack_neg_ofBits hlow hhigh

theorem unpack_zero : (nearestInt 0).toModel.unpack = .zero .positive := rfl

theorem rank_pos (h : 0 < a) (ha : a.natAbs < 2 ^ 64) : 0 < rank a := by
  have := (nearestBits_bounds (by omega) ha).1
  rw [rank_of_pos h]
  omega

theorem rank_neg (h : a < 0) (ha : a.natAbs < 2 ^ 64) : rank a < 0 := by
  have := (nearestBits_bounds (by omega) ha).1
  rw [rank_of_neg h]
  omega

/-- Nearest doubles are compared by their ranks. -/
theorem compare_nearestInt (ha : a.natAbs < 2 ^ 64) (hb : b.natAbs < 2 ^ 64) :
    (nearestInt a).toModel.unpack.compare (nearestInt b).toModel.unpack =
      some (compare (rank a) (rank b)) := by
  -- Only two integers of one sign come down to their fields, in reverse if they are negative.
  rcases Int.lt_trichotomy a 0 with hneg | rfl | hpos <;>
    rcases Int.lt_trichotomy b 0 with hneg' | rfl | hpos'
  · rw [unpack_of_neg hneg ha, unpack_of_neg hneg' hb, rank_of_neg hneg, rank_of_neg hneg']
    change some ((compare _ _).then (compare _ _)).swap = _
    rw [compare_fields, ← Std.OrientedOrd.eq_swap]
    exact congrArg some (compare_congr (by omega) (by omega))
  · rw [unpack_of_neg hneg ha, unpack_zero, rank_zero, compare_lt_iff_lt.mpr (rank_neg hneg ha)]
    rfl
  · rw [unpack_of_neg hneg ha, unpack_of_pos hpos' hb,
      compare_lt_iff_lt.mpr ((rank_neg hneg ha).trans (rank_pos hpos' hb))]
    rfl
  · rw [unpack_of_neg hneg' hb, unpack_zero, rank_zero, compare_gt_iff_gt.mpr (rank_neg hneg' hb)]
    rfl
  · rfl
  · rw [unpack_of_pos hpos' hb, unpack_zero, rank_zero, compare_lt_iff_lt.mpr (rank_pos hpos' hb)]
    rfl
  · rw [unpack_of_pos hpos ha, unpack_of_neg hneg' hb,
      compare_gt_iff_gt.mpr ((rank_neg hneg' hb).trans (rank_pos hpos ha))]
    rfl
  · rw [unpack_of_pos hpos ha, unpack_zero, rank_zero, compare_gt_iff_gt.mpr (rank_pos hpos ha)]
    rfl
  · rw [unpack_of_pos hpos ha, unpack_of_pos hpos' hb, rank_of_pos hpos, rank_of_pos hpos']
    change some ((compare _ _).then (compare _ _)) = _
    rw [compare_fields]
    exact congrArg some (compare_congr (by omega) (by omega))

/-- Rounding keeps the order of integers. -/
theorem rank_mono (h : a ≤ b) (ha : a.natAbs < 2 ^ 64) (hb : b.natAbs < 2 ^ 64) :
    rank a ≤ rank b := by
  rcases Int.lt_trichotomy a 0 with hneg | rfl | hpos
  · rcases Int.lt_trichotomy b 0 with hneg' | rfl | hpos'
    · have := nearestBits_mono (n := b.natAbs) (by omega) (show _ ≤ a.natAbs by omega) ha
      rw [rank_of_neg hneg, rank_of_neg hneg']
      omega
    · exact (rank_neg hneg ha).le
    · exact ((rank_neg hneg ha).trans (rank_pos hpos' hb)).le
  · rcases h.lt_or_eq with hpos' | rfl
    · exact (rank_pos hpos' hb).le
    · exact le_rfl
  · have := nearestBits_mono (n := a.natAbs) (by omega) (show _ ≤ b.natAbs by omega) hb
    rw [rank_of_pos hpos, rank_of_pos (hpos.trans_le h)]
    omega

/-- Integers further than `2^11` apart are told apart by their nearest doubles. -/
theorem rank_lt_of_far (h : a + 2 ^ 11 < b) (ha : a.natAbs < 2 ^ 64) (hb : b.natAbs < 2 ^ 64) :
    rank a < rank b := by
  rcases Int.lt_trichotomy a 0 with hneg | rfl | hpos
  · rcases Int.lt_trichotomy b 0 with hneg' | rfl | hpos'
    · have := nearestBits_lt_of_far (n := b.natAbs) (by omega) (show _ < a.natAbs by omega) ha
      rw [rank_of_neg hneg, rank_of_neg hneg']
      omega
    · exact rank_neg hneg ha
    · exact (rank_neg hneg ha).trans (rank_pos hpos' hb)
  · exact rank_pos (by omega) hb
  · have := nearestBits_lt_of_far (n := a.natAbs) (by omega) (show _ < b.natAbs by omega) hb
    rw [rank_of_pos hpos, rank_of_pos (by omega)]
    omega

/-- Integers of one rank have one nearest double, and the other way round. -/
theorem nearestInt_eq_iff (ha : a.natAbs < 2 ^ 64) (hb : b.natAbs < 2 ^ 64) :
    nearestInt a = nearestInt b ↔ rank a = rank b := by
  constructor
  · intro h
    have hsame := compare_nearestInt ha ha
    have hcross := compare_nearestInt ha hb
    rw [← h, hsame, compare_eq_iff_eq.mpr rfl] at hcross
    exact compare_eq_iff_eq.mp (Option.some.inj hcross).symm
  · intro h
    have hbits (hn : (nearestBits a.natAbs 1).toNat = (nearestBits b.natAbs 1).toNat) :
        nearest a.natAbs 1 = nearest b.natAbs 1 := congrArg Float.ofBits (UInt64.toNat_inj.mp hn)
    rcases Int.lt_trichotomy b 0 with hneg' | rfl | hpos'
    · have hneg : a < 0 := by
        by_contra hge
        have := rank_mono (not_lt.mp hge) (by decide) ha
        have := rank_neg hneg' hb
        rw [rank_zero] at *
        omega
      rw [rank_of_neg hneg, rank_of_neg hneg'] at h
      rw [nearestInt, nearestInt, if_pos hneg, if_pos hneg', hbits (by omega)]
    · rcases Int.lt_trichotomy a 0 with hneg | rfl | hpos
      · exact absurd h (rank_neg hneg ha).ne
      · rfl
      · exact absurd h (rank_pos hpos ha).ne'
    · have hpos : 0 < a := by
        by_contra hle
        have := rank_mono (not_lt.mp hle) ha (by decide)
        have := rank_pos hpos' hb
        rw [rank_zero] at *
        omega
      rw [rank_of_pos hpos, rank_of_pos hpos'] at h
      rw [nearestInt, nearestInt, if_neg hpos.not_gt, if_neg hpos'.not_gt, hbits (by omega)]

end Integers
end Workflow.Decimal
