import Mathlib.Data.List.DropRight

/-!
# Lists

What lists are that have been cut in pieces, shortened or rid of their repetitions.
-/
namespace List
variable {α : Type}

theorem rtake_rtake_append (xs ys : List α) (n : Nat) :
    (xs.rtake n ++ ys).rtake n = (xs ++ ys).rtake n := by
  simp only [rtake, length_append, length_drop, drop_append, drop_drop]
  congr 2 <;> omega

/-- No piece has in it what a list is cut at. -/
theorem notMem_of_mem_splitOn [BEq α] [LawfulBEq α] {mark : α} {xs piece : List α}
    (h : piece ∈ xs.splitOn mark) : mark ∉ piece := by
  induction xs generalizing piece with
  | nil =>
    obtain rfl := mem_singleton.mp h
    exact not_mem_nil
  | cons x xs ih =>
    rw [splitOn_cons_eq_if_modifyHead] at h
    split at h
    · rcases mem_cons.mp h with rfl | h
      · exact not_mem_nil
      · exact ih h
    · rename_i hx
      obtain ⟨first, rest, hpieces⟩ := exists_cons_of_ne_nil (splitOn_ne_nil mark xs)
      rw [hpieces] at h ih
      rcases mem_cons.mp h with rfl | h
      · have hfirst := ih mem_cons_self
        have hne : mark ≠ x := fun heq => hx (beq_iff_eq.mpr heq.symm)
        exact not_mem_cons_of_ne_of_not_mem hne hfirst
      · exact ih (mem_cons_of_mem first h)

theorem pair_sublist {l : List α} {i j : Nat} {a b : α} (hij : i < j)
    (ha : l[i]? = some a) (hb : l[j]? = some b) : [a, b].Sublist l := by
  have hfirst : a ∈ l.take j := mem_iff_getElem?.mpr ⟨i, by rwa [getElem?_take_of_lt hij]⟩
  have hsecond : b ∈ l.drop j := mem_iff_getElem?.mpr ⟨0, by simpa using hb⟩
  rw [← take_append_drop j l]
  exact (singleton_sublist.mpr hfirst).append (singleton_sublist.mpr hsecond)

theorem nodup_eraseDups [BEq α] [LawfulBEq α] (l : List α) : l.eraseDups.Nodup := by
  induction hn : l.length using Nat.strong_induction_on generalizing l with
  | h n ih =>
    cases l with
    | nil => exact nodup_nil
    | cons a l =>
      rw [eraseDups_cons, nodup_cons]
      refine ⟨fun h => ?_, ih _ ?_ _ rfl⟩
      · simpa using mem_eraseDups.mp h
      · rw [← hn]
        exact Nat.lt_succ_of_le (length_filter_le _ _)

end List
