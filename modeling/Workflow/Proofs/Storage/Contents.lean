import Workflow.Proofs.Store.Ordered
import Mathlib.Logic.Function.Basic

/-!
# What is stored

What a backend stores are namespaces, each with the values of its keys. The calls of a backend are
described by what they find of that and what they do to it.
-/
namespace Workflow
variable {α : Type}

/-- What is stored: the namespaces that are there, each with the values of its keys. -/
abbrev Contents := String → Option (String → Option Json)

namespace Contents

def value? (c : Contents) (ns key : String) : Option Json := (c ns).bind fun values => values key

/-- The contents with a value under a key. -/
def put (c : Contents) (ns key : String) (v : Json) : Contents :=
  Function.update c ns (some fun key' => if key' = key then some v else c.value? ns key')

/-- The contents with values put under their keys one after the other. -/
def putAll (c : Contents) (ns : String) (members : List (String × Json)) : Contents :=
  members.foldl (fun c e => c.put ns e.1 e.2) c

/-- The contents over other ones: their values win, and what else is there stays. -/
def above (c d : Contents) : Contents := fun ns =>
  match c ns, d ns with
  | none, values => values
  | some f, none => some f
  | some f, some g => some fun key => (f key).or (g key)

/-- What is found of a key is its value. What is found of a namespace are all its values; a
namespace that holds none may count as one that is not there. -/
def Finds (c : Contents) (ns : String) : Option String → Option Json → Prop
  | some key, found => found = c.value? ns key
  | none, some found => ∃ t : Table Json, found = .obj t ∧ t.Sorted ∧ c ns = some t.get?
  | none, none => ∀ key, c.value? ns key = none

/-- A key is gone, and perhaps its namespace if it was the last one; or a whole namespace is. -/
structure Lost (ns : String) (key : Option String) (c c' : Contents) : Prop where
  elsewhere : ∀ ns', ns' ≠ ns → c' ns' = c ns'
  present : (c' ns).isSome → key.isSome ∧ (c ns).isSome
  gone : ∀ key', (∀ k ∈ key, key' = k) → c'.value? ns key' = none
  kept : ∀ key', ¬(∀ k ∈ key, key' = k) → c'.value? ns key' = c.value? ns key'

theorem value?_put (c : Contents) (ns key : String) (v : Json) (ns' key' : String) :
    (c.put ns key v).value? ns' key' =
      if ns' = ns ∧ key' = key then some v else c.value? ns' key' := by
  rw [put, value?, Function.update_apply]
  by_cases hn : ns' = ns
  · subst hn
    by_cases hk : key' = key <;> simp [hk]
  · rw [if_neg hn, if_neg fun h => hn h.1, value?]

theorem put_of_ne (c : Contents) {ns ns' : String} (h : ns' ≠ ns) (key : String) (v : Json) :
    c.put ns key v ns' = c ns' :=
  Function.update_of_ne h _ c

theorem value?_putAll (c : Contents) (ns : String) (members : List (String × Json))
    (key : String) :
    (c.putAll ns members).value? ns key =
      (Table.lookup key members.reverse).or (c.value? ns key) := by
  unfold putAll
  induction members generalizing c with
  | nil => rfl
  | cons e members ih =>
    rw [List.foldl_cons, ih, value?_put, List.reverse_cons, Table.lookup_append, Option.or_assoc]
    by_cases hk : key = e.1 <;> simp [Table.lookup, hk]

theorem value?_above (c d : Contents) (ns key : String) :
    (c.above d).value? ns key = (c.value? ns key).or (d.value? ns key) := by
  unfold value? above
  cases c ns <;> cases d ns <;> simp

theorem above_congr (c : Contents) {d d' : Contents} {ns : String} (h : d ns = d' ns) :
    c.above d ns = c.above d' ns := by
  rw [above, above, h]

theorem above_none (c : Contents) : (c.above fun _ => none) = c := by
  funext ns
  unfold above
  cases c ns <;> rfl

/-- What was laid over something is laid over it again without effect. -/
theorem above_above (c d : Contents) : c.above (c.above d) = c.above d := by
  funext ns
  unfold above
  cases c ns with
  | none => rfl
  | some f =>
    cases d ns with
    | none => simp
    | some g => simp [← Option.or_assoc]

theorem above_update (c d : Contents) (ns : String) :
    c.above (Function.update d ns (c.above d ns)) ns = c.above d ns :=
  (c.above_congr (Function.update_self ns _ d)).trans (congrFun (c.above_above d) ns)

end Contents

/-- A namespace with values is given by what its keys have. -/
theorem Contents.eq_get? {c : Contents} {ns : String} {values : Table Json}
    (hne : values.isEmpty = false) (h : ∀ key, c.value? ns key = values.get? key) :
    c ns = some values.get? := by
  obtain ⟨key, v, hv⟩ := Table.exists_get? hne
  cases hc : c ns with
  | none =>
    have hnone := h key
    rw [Contents.value?, hc, hv] at hnone
    cases hnone
  | some f =>
    congr 1
    funext k
    rw [← h k, Contents.value?, hc, Option.bind_some]

/-- What a table shows as a namespace; without pairs it is none. -/
def Table.shown? (t : Table Json) : Option (String → Option Json) :=
  if t.isEmpty then none else some t.get?

namespace Values

def contents (vs : Values) : Contents := fun ns => (vs.get? ns).map Table.get?

/-- What values are as contents when namespaces that hold nothing do not count. -/
def filled (vs : Values) : Contents := fun ns => (vs.get? ns).bind Table.shown?

theorem contents_value? (vs : Values) (ns key : String) :
    vs.contents.value? ns key = vs.value? ns key := by
  rw [Contents.value?, contents, value?]
  cases vs.get? ns <;> rfl

theorem contents_insert (vs : Values) (ns : String) (t : Table Json) :
    Values.contents (vs.insert ns t) = Function.update vs.contents ns (some t.get?) := by
  funext ns'
  rw [contents, Table.get?_insert, Function.update_apply]
  split <;> rfl

theorem contents_put (vs : Values) (ns key : String) (v : Json) :
    (vs.put ns key v).contents = vs.contents.put ns key v := by
  rw [put, contents_insert, Contents.put]
  congr 2
  funext key'
  rw [Table.get?_insert, get?_space, contents_value?]

theorem contents_find {vs : Values} (h : vs.Ordered) (ns : String) (key : Option String) :
    vs.contents.Finds ns key (vs.find ns key) := by
  cases key with
  | some key => exact (contents_value? vs ns key).symm
  | none =>
    unfold find
    cases hns : vs.get? ns with
    | none =>
      intro key
      rw [contents_value?, value?, hns, Option.bind_none]
    | some t => exact ⟨t, rfl, h ns t hns, by rw [contents, hns, Option.map_some]⟩

theorem contents_remove (vs : Values) (ns : String) (key : Option String) :
    Contents.Lost ns key vs.contents (vs.remove ns key).contents where
  elsewhere ns' hne := by
    unfold remove contents
    split
    · rfl
    · rw [Table.get?_insert_of_ne _ hne]
    · rw [Table.get?_erase, if_neg hne]
  present hsome := by
    unfold remove contents at hsome
    cases hns : vs.get? ns <;> cases key <;> simp_all [contents]
  gone key' hk := by
    rw [contents_value?, value?_remove_self hk]
  kept key' hk := by
    rw [contents_value?, contents_value?]
    exact value?_remove fun hw => hk hw.2

end Values

end Workflow
