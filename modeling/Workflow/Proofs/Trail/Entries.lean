import Workflow.Proofs.Lists
import Workflow.Trail.Basic

/-!
# Entries at the end of a trail

Entries are recorded at the end of a trail, which then has the last ones, as many as it can hold.
-/
namespace Workflow.Trail
variable {t u v : Trail} {es fs : List TrailEntry} {e : TrailEntry}

theorem entries_record (t : Trail) (e : TrailEntry) :
    (t.record e).entries = (t.entries ++ [e]).rtake t.capacity := by
  obtain ⟨n, hn⟩ := Nat.exists_eq_add_one_of_ne_zero t.positive.ne'
  have hwithin := t.within
  change (if t.entries.length = t.capacity then t.entries.drop 1 else t.entries) ++ [e] = _
  rw [hn, List.rtake_concat_succ, List.rtake]
  congr 1
  split
  · congr 1
    omega
  · rw [show t.entries.length - n = 0 by omega, List.drop_zero]

/-- The second trail is the first one with more entries, the last of them as many as it can
hold. -/
structure Adds (t : Trail) (es : List TrailEntry) (u : Trail) : Prop where
  capacity : u.capacity = t.capacity
  entries : u.entries = (t.entries ++ es).rtake t.capacity

namespace Adds

theorem refl (t : Trail) : t.Adds [] t where
  capacity := rfl
  entries := by
    rw [List.append_nil, List.rtake, Nat.sub_eq_zero_of_le t.within, List.drop_zero]

theorem record (t : Trail) (e : TrailEntry) : t.Adds [e] (t.record e) :=
  ⟨t.capacity_record e, t.entries_record e⟩

theorem trans (h : t.Adds es u) (k : u.Adds fs v) : t.Adds (es ++ fs) v where
  capacity := k.capacity.trans h.capacity
  entries := by
    rw [k.entries, h.entries, h.capacity, List.rtake_rtake_append, List.append_assoc]

/-- The last entry is there, since a trail can hold one. -/
theorem getLast? (h : t.Adds es u) (he : es.getLast? = some e) :
    u.entries.getLast? = some e := by
  obtain ⟨n, hn⟩ := Nat.exists_eq_add_one_of_ne_zero t.positive.ne'
  obtain ⟨before, rfl⟩ := List.getLast?_eq_some_iff.mp he
  rw [h.entries, hn, ← List.append_assoc, List.rtake_concat_succ, List.getLast?_concat]

end Adds
end Workflow.Trail
