import Mathlib.Data.List.TakeWhile
import Mathlib.Data.String.Basic
import Workflow.Store.Path

/-!
# Texts that are paths

The first dot of a text divides it, and a path is what the two sides of it make, if there is
something on both.
-/
namespace Workflow.StorePath
variable {text before after : String} {path : StorePath}

theorem splitDot?_eq_some : splitDot? text = some (before, after) ↔
    text.toList = before.toList ++ '.' :: after.toList ∧ '.' ∉ before.toList := by
  rw [splitDot?]
  constructor
  · intro h
    split at h
    · cases h
    · rename_i c rest hrest
      cases h
      obtain rfl : c = '.' := by
        have hc := List.head?_dropWhile_not (· != '.') text.toList
        simpa [hrest] using hc
      rw [String.toList_ofList, String.toList_ofList, ← hrest, List.takeWhile_append_dropWhile]
      refine ⟨rfl, fun hmem => ?_⟩
      simpa using List.mem_takeWhile_imp hmem
  · rintro ⟨htext, hdot⟩
    have hkept : ∀ c ∈ before.toList, (c != '.') = true := by
      intro c hc
      exact bne_iff_ne.mpr fun heq => hdot (heq ▸ hc)
    rw [htext, List.dropWhile_append_of_pos hkept, List.takeWhile_append_of_pos hkept]
    simp

/-- A text is a path just if it is made of two parts that are not empty, and the first one ends at
the first dot. -/
theorem parse?_eq_some : parse? text = some path ↔
    text = path.resource ∧ path.ns ≠ "" ∧ path.key ≠ "" ∧ '.' ∉ path.ns.toList := by
  obtain ⟨ns, key⟩ := path
  have hresource : text = resource ⟨ns, key⟩ ↔ text.toList = ns.toList ++ '.' :: key.toList := by
    rw [← String.toList_inj]
    simp [resource]
  rw [hresource, parse?]
  constructor
  · intro h
    split at h
    · rename_i before after hsplit
      split at h
      · cases h
      · cases h
        obtain ⟨htext, hdot⟩ := splitDot?_eq_some.mp hsplit
        simp_all
    · cases h
  · rintro ⟨htext, hns, hkey, hdot⟩
    rw [splitDot?_eq_some.mpr ⟨htext, hdot⟩]
    simp [hns, hkey]

end Workflow.StorePath
