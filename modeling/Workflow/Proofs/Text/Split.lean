import Mathlib.Data.String.Basic

/-!
# Texts cut at a character

A text is cut at a character by a search along its positions. The pieces are those of the list of
its characters.
-/
namespace Workflow.Text
open String

/-- The search stands behind `before` and the piece `piece`, which is not finished yet. -/
theorem splitOnAux_eq (mark : Char) (before piece rest : List Char) (pieces : List String) :
    splitOnAux (ofList (before ++ piece ++ rest)) (singleton mark) ⟨utf8Len before⟩
        ⟨utf8Len (before ++ piece)⟩ 0 pieces =
      pieces.reverse ++ (List.splitOnPPrepend (· == mark) rest piece.reverse).map ofList := by
  induction rest generalizing before piece pieces with
  | nil =>
    have hend : Pos.Raw.atEnd (ofList (before ++ piece ++ [])) ⟨utf8Len (before ++ piece)⟩ = true :=
      (atEnd_of_valid (before ++ piece) []).mpr rfl
    rw [splitOnAux, if_pos hend, utf8Len_append, extract_of_valid before piece []]
    simp
  | cons c rest ih =>
    have hend : ¬Pos.Raw.atEnd (ofList (before ++ piece ++ c :: rest))
        ⟨utf8Len (before ++ piece)⟩ = true := by
      rw [atEnd_of_valid]
      exact List.cons_ne_nil c rest
    have hget :
        Pos.Raw.get (ofList (before ++ piece ++ c :: rest)) ⟨utf8Len (before ++ piece)⟩ = c :=
      get_of_valid (before ++ piece) (c :: rest)
    have hmark : Pos.Raw.get (singleton mark) 0 = mark := get_of_valid [] [mark]
    have hnext : Pos.Raw.next (ofList (before ++ piece ++ c :: rest)) ⟨utf8Len (before ++ piece)⟩ =
        ⟨utf8Len (before ++ piece ++ [c])⟩ := by
      rw [next_of_valid, utf8Len_append (before ++ piece)]
      simp
    have hlater : before ++ piece ++ c :: rest = before ++ piece ++ [c] ++ rest := by simp
    rw [splitOnAux, if_neg hend, hget, hmark, List.splitOnPPrepend_cons_eq_if]
    split
    · rename_i hc
      obtain rfl : c = mark := eq_of_beq hc
      have hpiece := extract_of_valid before piece (c :: rest)
      rw [← utf8Len_append, hlater] at hpiece
      have hover : Pos.Raw.next (singleton c) 0 = ⟨utf8Len [c]⟩ := by
        simpa using next_of_valid [] c []
      have hdone : Pos.Raw.atEnd (singleton c) ⟨utf8Len [c]⟩ = true :=
        (atEnd_of_valid [c] []).mpr rfl
      have hback : (⟨utf8Len (before ++ piece ++ [c])⟩ : Pos.Raw).unoffsetBy ⟨utf8Len [c]⟩ =
          ⟨utf8Len (before ++ piece)⟩ := by
        rw [utf8Len_append (before ++ piece)]
        simp [Pos.Raw.unoffsetBy]
      have hrest := ih (before ++ piece ++ [c]) [] (ofList piece :: pieces)
      rw [List.append_nil] at hrest
      simp only [hnext, hover, if_pos hdone, hback]
      rw [hlater, hpiece, hrest]
      simp
    · have hback : (⟨utf8Len (before ++ piece)⟩ : Pos.Raw).unoffsetBy 0 =
          ⟨utf8Len (before ++ piece)⟩ := by
        simp [Pos.Raw.unoffsetBy]
      have hrest := ih before (piece ++ [c]) pieces
      rw [← List.append_assoc] at hrest
      rw [hback, hnext, hlater, hrest]
      simp

theorem splitOn_eq (text : String) (mark : Char) :
    text.splitOn (singleton mark) = (text.toList.splitOn mark).map ofList := by
  have hne : ¬(singleton mark == "") = true := by simp
  have h := splitOnAux_eq mark [] [] text.toList []
  rw [splitOn, if_neg hne]
  simpa [List.splitOn] using h

end Workflow.Text
