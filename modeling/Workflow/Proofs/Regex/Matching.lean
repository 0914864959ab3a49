import Workflow.Regex.Basic
import Mathlib.Data.Char
import Mathlib.Data.Finset.Card
import Mathlib.Data.Finset.Range

/-!
# What a pattern matches

The matcher carries sets of positions through a pattern. Beside it stands a relation that says
from which position of a text to which other a pattern matches, one rule for each sign, and the
matcher is shown to compute just the positions that it relates. Repetition is where this needs an
argument: the search for further positions stops early, when a round finds nothing new.
-/
namespace Workflow.Regex

/-- So many steps of a relation between positions. -/
def Times (R : Nat → Nat → Prop) : Nat → Nat → Nat → Prop
  | 0, i, j => i = j
  | n + 1, i, j => ∃ k, R i k ∧ Times R n k j

/-- A pattern matches the piece of a text between two positions. Where the greatest number of
repetitions is below the least one, the least one counts. -/
def Matches (text : Array Char) : Regex → Nat → Nat → Prop
  | empty, i, j => i = j
  | set cs, i, j => (∃ c, text[i]? = some c ∧ cs.holds c = true) ∧ j = i + 1
  | anchor a, i, j => a.holds text i = true ∧ i = j
  | seq a b, i, j => ∃ k, Matches text a i k ∧ Matches text b k j
  | alt a b, i, j => Matches text a i j ∨ Matches text b i j
  | many r least most, i, j =>
    ∃ n, least ≤ n ∧ (∀ m ∈ most, n ≤ max least m) ∧ Times (Matches text r) n i j
  | grouped _ r, i, j => Matches text r i j
  | ahead wanted r, i, j => ((∃ k, Matches text r i k) ↔ wanted = true) ∧ i = j
  | behind wanted r, i, j => ((∃ k ≤ i, Matches text r k i) ↔ wanted = true) ∧ i = j

/-- A pattern matches a text as a whole. -/
def FullMatch (r : Regex) (text : String) : Prop :=
  Matches text.toList.toArray r 0 text.toList.toArray.size

section Steps
variable {R : Nat → Nat → Prop} {size m n i j k : Nat}

theorem times_add : Times R (m + n) i j ↔ ∃ k, Times R m i k ∧ Times R n k j := by
  induction m generalizing i with
  | zero => simp [Times]
  | succ m ih =>
    rw [Nat.add_right_comm, Times]
    simp only [ih, Times]
    constructor
    · rintro ⟨k, hik, l, hkl, hlj⟩
      exact ⟨l, ⟨k, hik, hkl⟩, hlj⟩
    · rintro ⟨l, ⟨k, hik, hkl⟩, hlj⟩
      exact ⟨k, hik, l, hkl, hlj⟩

theorem times_le (hR : ∀ {i j}, R i j → i ≤ size → j ≤ size) (h : Times R n i j)
    (hi : i ≤ size) : j ≤ size := by
  induction n generalizing i with
  | zero => exact h ▸ hi
  | succ n ih =>
    obtain ⟨k, hik, hkj⟩ := h
    exact ih hkj (hR hik hi)

/-- A way that starts in one set, and can leave it only into another, ends in the first or goes on
from a member of the second. -/
theorem Times.leaves {s t : List Nat} (hst : ∀ i ∈ s, ∀ k, R i k → k ∈ s ∨ k ∈ t)
    (h : Times R n i j) (hi : i ∈ s) : j ∈ s ∨ ∃ k ∈ t, ∃ m < n, Times R m k j := by
  induction n generalizing i with
  | zero => exact .inl (h ▸ hi)
  | succ n ih =>
    obtain ⟨k, hik, hkj⟩ := h
    rcases hst i hi k hik with hk | hk
    · obtain hj | ⟨l, hl, m, hm, hlj⟩ := ih hkj hk
      · exact .inl hj
      · exact .inr ⟨l, hl, m, Nat.lt_succ_of_lt hm, hlj⟩
    · exact .inr ⟨k, hk, n, Nat.lt_succ_self n, hkj⟩

/-- Positions in a text of a size. -/
def Within (size : Nat) (s : List Nat) : Prop := ∀ i ∈ s, i ≤ size

/-- A step on sets of positions that follows a relation which stays within a text. -/
structure Follows (size : Nat) (R : Nat → Nat → Prop) (step : List Nat → List Nat) : Prop where
  stays : ∀ {i j}, R i j → i ≤ size → j ≤ size
  mem_step : ∀ {s : List Nat} {j}, Within size s → (j ∈ step s ↔ ∃ i ∈ s, R i j)

variable {step : List Nat → List Nat} {s reached last : List Nat}

namespace Follows

theorem within_step (hf : Follows size R step) (hs : Within size s) : Within size (step s) := by
  intro j hj
  obtain ⟨i, hi, hij⟩ := (hf.mem_step hs).1 hj
  exact hf.stays hij (hs i hi)

theorem mem_of_fixed (hf : Follows size R step) (hs : Within size s) (hfix : step s = s) :
    (∃ i ∈ s, Times R n i j) ↔ j ∈ s := by
  induction n with
  | zero => simp [Times]
  | succ n ih =>
    rw [← ih]
    constructor
    · rintro ⟨i, hi, k, hik, hkj⟩
      exact ⟨k, hfix ▸ (hf.mem_step hs).2 ⟨i, hi, hik⟩, hkj⟩
    · rintro ⟨k, hk, hkj⟩
      obtain ⟨i, hi, hik⟩ := (hf.mem_step hs).1 (hfix.symm ▸ hk)
      exact ⟨i, hi, k, hik, hkj⟩

theorem mem_exactly (hf : Follows size R step) (hs : Within size s) :
    j ∈ exactly step n s ↔ ∃ i ∈ s, Times R n i j := by
  induction n generalizing s with
  | zero => simp [exactly, Times]
  | succ n ih =>
    rw [exactly]
    split
    case isTrue hfix => exact (hf.mem_of_fixed hs hfix).symm
    case isFalse =>
      rw [ih (hf.within_step hs)]
      constructor
      · rintro ⟨k, hk, hkj⟩
        obtain ⟨i, hi, hik⟩ := (hf.mem_step hs).1 hk
        exact ⟨i, hi, k, hik, hkj⟩
      · rintro ⟨i, hi, k, hik, hkj⟩
        exact ⟨k, (hf.mem_step hs).2 ⟨i, hi, hik⟩, hkj⟩

end Follows

/-- The search stands between rounds: what was reached last was reached, and from everything else
that was reached each step leads to what was reached. -/
structure Frontier (size : Nat) (R : Nat → Nat → Prop) (reached last : List Nat) : Prop where
  within : Within size reached
  subset : ∀ i ∈ last, i ∈ reached
  closed : ∀ i ∈ reached, i ∉ last → ∀ k, R i k → k ∈ reached

/-- What a round finds that was not reached before. -/
def fresh (step : List Nat → List Nat) (reached last : List Nat) : List Nat :=
  (step last).filter (fun i => !reached.contains i)

theorem mem_fresh : i ∈ fresh step reached last ↔ i ∈ step last ∧ i ∉ reached := by
  simp [fresh]

namespace Frontier

theorem within_last (h : Frontier size R reached last) : Within size last :=
  fun i hi => h.within i (h.subset i hi)

theorem leads (h : Frontier size R reached last) (hf : Follows size R step) :
    ∀ i ∈ reached, ∀ k, R i k → k ∈ reached ∨ k ∈ fresh step reached last := by
  intro i hi k hik
  by_cases hk : k ∈ reached
  · exact .inl hk
  · have hlast : i ∈ last := by
      by_contra hout
      exact hk (h.closed i hi hout k hik)
    exact .inr (mem_fresh.2 ⟨(hf.mem_step h.within_last).2 ⟨i, hlast, hik⟩, hk⟩)

/-- A round leads from one such point to the next. -/
theorem next (h : Frontier size R reached last) (hf : Follows size R step) :
    Frontier size R (union reached (fresh step reached last)) (fresh step reached last) where
  within := by
    intro i hi
    rcases mem_union.1 hi with hi | hi
    · exact h.within i hi
    · exact hf.within_step h.within_last i (mem_fresh.1 hi).1
  subset := fun _ hi => mem_union.2 (.inr hi)
  closed := by
    intro i hi hnew k hik
    have hold : i ∈ reached := (mem_union.1 hi).resolve_right hnew
    exact mem_union.2 (h.leads hf i hold k hik)

/-- A way from the positions reached last stays in what was reached, or goes on from something fresh
with a step less. -/
theorem stays_or_fresh (h : Frontier size R reached last) (hf : Follows size R step)
    (hi : i ∈ last) (hij : Times R n i j) :
    j ∈ reached ∨ ∃ k ∈ fresh step reached last, ∃ m < n, Times R m k j :=
  hij.leaves (h.leads hf) (h.subset i hi)

/-- What a way from something fresh leads to, a way from the positions reached last leads to. -/
theorem times_of_fresh (h : Frontier size R reached last) (hf : Follows size R step)
    (hk : k ∈ fresh step reached last) (hkj : Times R n k j) : ∃ i ∈ last, Times R (n + 1) i j := by
  obtain ⟨i, hi, hik⟩ := (hf.mem_step h.within_last).1 (mem_fresh.1 hk).1
  exact ⟨i, hi, k, hik, hkj⟩

/-- What a number of rounds finds is what as many steps from the positions reached last lead to. -/
theorem mem_atMost (h : Frontier size R reached last) (hf : Follows size R step) :
    j ∈ atMost step n reached last ↔ j ∈ reached ∨ ∃ i ∈ last, ∃ m ≤ n, Times R m i j := by
  induction n generalizing reached last with
  | zero =>
    rw [atMost]
    constructor
    · exact .inl
    · rintro (hj | ⟨i, hi, m, hm, hij⟩)
      · exact hj
      · obtain rfl := Nat.le_zero.1 hm
        exact h.subset j (hij ▸ hi)
  | succ n ih =>
    rw [atMost]
    split
    case isTrue hnone =>
      have hempty : fresh step reached last = [] := List.isEmpty_iff.1 hnone
      refine ⟨.inl, ?_⟩
      rintro (hj | ⟨i, hi, m, -, hij⟩)
      · exact hj
      · obtain hj | ⟨k, hk, -⟩ := h.stays_or_fresh hf hi hij
        · exact hj
        · exact absurd (hempty ▸ hk) List.not_mem_nil
    case isFalse =>
      refine (ih (h.next hf)).trans ⟨?_, ?_⟩
      · rintro (hj | ⟨k, hk, m, hm, hkj⟩)
        · obtain hj | hj := mem_union.1 hj
          · exact .inl hj
          · obtain ⟨i, hi, hij⟩ := h.times_of_fresh (n := 0) hf hj rfl
            exact .inr ⟨i, hi, 1, Nat.le_add_left 1 n, hij⟩
        · obtain ⟨i, hi, hij⟩ := h.times_of_fresh hf hk hkj
          exact .inr ⟨i, hi, m + 1, Nat.succ_le_succ hm, hij⟩
      · rintro (hj | ⟨i, hi, m, hm, hij⟩)
        · exact .inl (mem_union.2 (.inl hj))
        · obtain hj | ⟨k, hk, l, hl, hkj⟩ := h.stays_or_fresh hf hi hij
          · exact .inl (mem_union.2 (.inl hj))
          · exact .inr ⟨k, hk, l, by omega, hkj⟩

def missing (size : Nat) (reached : List Nat) : Finset Nat :=
  (Finset.range (size + 1)).filter (· ∉ reached)

/-- A round that finds something leaves less missing. -/
theorem card_missing_lt (h : Frontier size R reached last) (hf : Follows size R step)
    (hk : k ∈ fresh step reached last) :
    (missing size (union reached (fresh step reached last))).card <
      (missing size reached).card := by
  refine Finset.card_lt_card ((Finset.ssubset_iff_of_subset fun i hi => ?_).2 ⟨k, ?_, ?_⟩)
  · obtain ⟨hsize, hi⟩ := Finset.mem_filter.1 hi
    exact Finset.mem_filter.2 ⟨hsize, fun hin => hi (mem_union.2 (.inl hin))⟩
  · have hsize : k ≤ size := (h.next hf).within_last k hk
    exact Finset.mem_filter.2 ⟨Finset.mem_range.2 (Nat.lt_succ_of_le hsize), (mem_fresh.1 hk).2⟩
  · exact fun hmiss => (Finset.mem_filter.1 hmiss).2 (mem_union.2 (.inr hk))

/-- With a round for every position that is missing, the search finds all that any number of steps
leads to. -/
theorem mem_atMost_of_times (h : Frontier size R reached last) (hf : Follows size R step)
    (hn : (missing size reached).card ≤ n) (hi : i ∈ last) (hij : Times R m i j) :
    j ∈ atMost step n reached last := by
  induction n generalizing reached last i m with
  | zero =>
    have hsize : j ≤ size := times_le hf.stays hij (h.within_last i hi)
    have hnone : missing size reached = ∅ := Finset.card_eq_zero.1 (Nat.le_zero.1 hn)
    by_contra hout
    have hmiss : j ∈ missing size reached :=
      Finset.mem_filter.2 ⟨Finset.mem_range.2 (Nat.lt_succ_of_le hsize), hout⟩
    exact Finset.notMem_empty j (hnone ▸ hmiss)
  | succ n ih =>
    change j ∈ if (fresh step reached last).isEmpty then reached
      else atMost step n (union reached (fresh step reached last)) (fresh step reached last)
    have hnext := h.next hf
    obtain hj | ⟨k, hk, l, -, hkj⟩ := h.stays_or_fresh hf hi hij
    · split
      case isTrue => exact hj
      case isFalse => exact (hnext.mem_atMost hf).2 (.inl (mem_union.2 (.inl hj)))
    · have hsome : ¬(fresh step reached last).isEmpty := fun hnone =>
        List.not_mem_nil (List.isEmpty_iff.1 hnone ▸ hk)
      rw [if_neg hsome]
      have hless := h.card_missing_lt hf hk
      exact ih hnext (by omega) hk hkj

end Frontier
end Steps

section Matcher
variable {text : Array Char} {i j : Nat} {s : List Nat}

/-- A match ends within the text. -/
theorem Matches.le (r : Regex) (h : Matches text r i j) (hi : i ≤ text.size) : j ≤ text.size := by
  induction r generalizing i j with
  | empty => exact h ▸ hi
  | set cs =>
    obtain ⟨⟨c, hc, -⟩, rfl⟩ := h
    exact (Array.getElem?_eq_some_iff.1 hc).1
  | anchor a => exact h.2 ▸ hi
  | seq a b iha ihb =>
    obtain ⟨k, hik, hkj⟩ := h
    exact ihb hkj (iha hik hi)
  | alt a b iha ihb => exact h.elim (fun h => iha h hi) (fun h => ihb h hi)
  | many r least most ih =>
    obtain ⟨n, -, -, htimes⟩ := h
    exact times_le ih htimes hi
  | grouped name r ih => exact ih h hi
  | ahead wanted r => exact h.2 ▸ hi
  | behind wanted r => exact h.2 ▸ hi

/-- How many repetitions are tried beyond the least number. -/
def rounds (size least : Nat) : Option Nat → Nat
  | none => size + 1
  | some most => most - least

/-- Repetition finds what the relation of the repeated pattern leads to, as often as allowed. -/
theorem mem_many {R : Nat → Nat → Prop} {size least : Nat} {most : Option Nat}
    {step : List Nat → List Nat} (hf : Follows size R step) (hs : Within size s) :
    j ∈ atMost step (rounds size least most) (exactly step least s) (exactly step least s) ↔
      ∃ i ∈ s, ∃ n, least ≤ n ∧ (∀ m ∈ most, n ≤ max least m) ∧ Times R n i j := by
  have hwithin : Within size (exactly step least s) := by
    intro k hk
    obtain ⟨i, hi, hik⟩ := (hf.mem_exactly hs).1 hk
    exact times_le hf.stays hik (hs i hi)
  have hstart : Frontier size R (exactly step least s) (exactly step least s) :=
    ⟨hwithin, fun _ h => h, fun _ h hout => absurd h hout⟩
  constructor
  · intro hj
    have hway : ∃ k ∈ exactly step least s, ∃ m ≤ rounds size least most, Times R m k j := by
      obtain hj | hj := (hstart.mem_atMost hf).1 hj
      · exact ⟨j, hj, 0, Nat.zero_le _, rfl⟩
      · exact hj
    obtain ⟨k, hk, m, hm, hkj⟩ := hway
    obtain ⟨i, hi, hik⟩ := (hf.mem_exactly hs).1 hk
    refine ⟨i, hi, least + m, Nat.le_add_right _ _, ?_, times_add.2 ⟨k, hik, hkj⟩⟩
    rintro top rfl
    have htop : m ≤ top - least := hm
    omega
  · rintro ⟨i, hi, n, hleast, hmost, hij⟩
    obtain ⟨m, rfl⟩ := Nat.exists_eq_add_of_le hleast
    obtain ⟨k, hik, hkj⟩ := times_add.1 hij
    have hk : k ∈ exactly step least s := (hf.mem_exactly hs).2 ⟨i, hi, hik⟩
    cases most with
    | none =>
      refine hstart.mem_atMost_of_times hf ?_ hk hkj
      exact (Finset.card_filter_le _ _).trans (Nat.le_of_eq (Finset.card_range _))
    | some top =>
      have htop := hmost top rfl
      have hm : m ≤ top - least := by omega
      exact (hstart.mem_atMost hf).2 (.inr ⟨k, hk, m, hm, hkj⟩)

/-- The matcher computes the relation. -/
theorem mem_ends (r : Regex) (hs : Within text.size s) :
    j ∈ ends text r s ↔ ∃ i ∈ s, Matches text r i j := by
  induction r generalizing s j with
  | empty => simp [ends, Matches]
  | set cs =>
    simp only [ends, Matches, List.mem_map, List.mem_filter, Option.any_eq_true]
    grind
  | anchor a =>
    simp only [ends, Matches, List.mem_filter]
    grind
  | seq a b iha ihb =>
    have hmid : Within text.size (ends text a s) := by
      intro k hk
      obtain ⟨i, hi, hik⟩ := (iha hs).1 hk
      exact Matches.le a hik (hs i hi)
    rw [ends, ihb hmid]
    simp only [iha hs, Matches]
    grind
  | alt a b iha ihb =>
    rw [ends, mem_union, iha hs, ihb hs]
    simp only [Matches]
    grind
  | many r least most ih =>
    exact mem_many ⟨Matches.le r, ih⟩ hs
  | grouped name r ih => exact ih hs
  | ahead wanted r ih =>
    have hone {i} (hi : i ∈ s) : (ends text r [i]).isEmpty = false ↔ ∃ k, Matches text r i k := by
      have hin : Within text.size [i] := by simpa [Within] using hs i hi
      simp only [List.isEmpty_eq_false_iff_exists_mem, ih hin, List.mem_singleton,
        exists_eq_left]
    simp only [ends, Matches, List.mem_filter]
    grind
  | behind wanted r ih =>
    have hone {i} (hi : i ∈ s) :
        (List.range (i + 1)).any (fun k => (ends text r [k]).contains i) = true ↔
          ∃ k ≤ i, Matches text r k i := by
      simp only [List.any_eq_true, List.mem_range, Nat.lt_succ_iff, List.contains_iff_mem]
      refine exists_congr fun k => and_congr_right fun hk => ?_
      have hin : Within text.size [k] := by simpa [Within] using hk.trans (hs i hi)
      simp [ih hin]
    simp only [ends, Matches, List.mem_filter]
    grind

/-- A pattern matches somewhere in a text just if it matches from one of its positions to one. -/
theorem isMatch_iff {r : Regex} {text : String} : r.isMatch text = true ↔
    ∃ i ≤ text.toList.toArray.size, ∃ j, Matches text.toList.toArray r i j := by
  have hall : Within text.toList.toArray.size (List.range (text.toList.toArray.size + 1)) :=
    fun i hi => Nat.le_of_lt_succ (List.mem_range.1 hi)
  simp only [isMatch, Bool.not_eq_true', List.isEmpty_eq_false_iff_exists_mem, mem_ends _ hall,
    List.mem_range, Nat.lt_succ_iff]
  grind

/-- A pattern between the two ends of a text matches somewhere just if it matches the whole. -/
theorem isMatch_anchored {r : Regex} {text : String} :
    (ofList [anchor .textStart, r, anchor .textEnd]).isMatch text = true ↔ r.FullMatch text := by
  simp only [isMatch_iff, ofList, Matches, Anchor.holds, FullMatch, beq_iff_eq]
  grind

end Matcher

section Sets
variable {cs : CharSet} {j n : Nat}

theorem CharSet.holds_range_self {c d : Char} : (range d d).holds c = true ↔ c = d := by
  rw [holds, Bool.and_eq_true, decide_eq_true_iff, decide_eq_true_iff, ← Char.toNat_inj]
  omega

/-- The characters outside a set of one character are all others. -/
theorem CharSet.holds_complement {d : Char} (h : ∀ c, cs.holds c = true ↔ c = d)
    {piece : List Char} : (∀ c ∈ piece, (complement cs).holds c = true) ↔ d ∉ piece := by
  simp only [holds, Bool.not_eq_true', ← Bool.not_eq_true, h]
  exact ⟨fun hall hd => hall d hd rfl, fun hd c hc heq => hd (heq ▸ hc)⟩

/-- A set matches the first character of what is left of a text. -/
theorem matches_set (before after : List Char) :
    Matches (before ++ after).toArray (set cs) before.length j ↔
      ∃ c rest, after = c :: rest ∧ cs.holds c = true ∧ j = (before ++ [c]).length := by
  constructor
  · rintro ⟨⟨c, hc, hholds⟩, rfl⟩
    cases after with
    | nil => simp at hc
    | cons d rest =>
      obtain rfl : d = c := by simpa using hc
      exact ⟨d, rest, rfl, hholds, by simp⟩
  · rintro ⟨c, rest, rfl, hholds, rfl⟩
    exact ⟨⟨c, by simp, hholds⟩, by simp⟩

theorem times_set (before after : List Char) :
    Times (Matches (before ++ after).toArray (set cs)) n before.length j ↔
      ∃ piece rest, after = piece ++ rest ∧ piece.length = n ∧ (∀ c ∈ piece, cs.holds c = true) ∧
        j = (before ++ piece).length := by
  induction n generalizing before after with
  | zero =>
    constructor
    · rintro rfl
      exact ⟨[], after, rfl, rfl, nofun, by simp⟩
    · rintro ⟨piece, rest, -, hpiece, -, rfl⟩
      rw [List.length_eq_zero_iff.1 hpiece, List.append_nil]
      rfl
  | succ n ih =>
    constructor
    · rintro ⟨_, hfirst, hrest⟩
      obtain ⟨c, rest, rfl, hc, rfl⟩ := (matches_set before after).1 hfirst
      rw [List.append_cons] at hrest
      obtain ⟨piece, rest, rfl, rfl, hall, rfl⟩ := (ih _ _).1 hrest
      exact ⟨c :: piece, rest, rfl, rfl, List.forall_mem_cons.2 ⟨hc, hall⟩, by simp⟩
    · rintro ⟨_ | ⟨c, piece⟩, rest, rfl, hpiece, hall, rfl⟩
      · cases hpiece
      · obtain ⟨hc, hall⟩ := List.forall_mem_cons.1 hall
        refine ⟨_, (matches_set _ _).2 ⟨c, piece ++ rest, rfl, hc, rfl⟩, ?_⟩
        rw [List.cons_append, List.append_cons]
        exact (ih (before ++ [c]) _).2 ⟨piece, rest, rfl, Nat.succ.inj hpiece, hall, by simp⟩

/-- A set that is repeated matches the pieces that are made of its characters and not empty. -/
theorem matches_some_set (before after : List Char) :
    Matches (before ++ after).toArray (many (set cs) 1 none) before.length j ↔
      ∃ piece rest, after = piece ++ rest ∧ piece ≠ [] ∧ (∀ c ∈ piece, cs.holds c = true) ∧
        j = (before ++ piece).length := by
  constructor
  · rintro ⟨n, hn, -, h⟩
    obtain ⟨piece, rest, hafter, rfl, hpiece⟩ := (times_set before after).1 h
    exact ⟨piece, rest, hafter, List.ne_nil_of_length_pos hn, hpiece⟩
  · rintro ⟨piece, rest, hafter, hne, h⟩
    exact ⟨piece.length, List.length_pos_of_ne_nil hne, nofun,
      (times_set before after).2 ⟨piece, rest, hafter, rfl, h⟩⟩

end Sets
end Workflow.Regex
