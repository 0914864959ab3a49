import Workflow.Schema.Basic
import Workflow.Proofs.Table

/-!
# What a schema admits

A schema admits a value that it does not object to. Then each part of the schema admits the value,
and what the schema declares of a member admits that member. A reference uses up one of those that
may still be followed. But from one reference to the next the value gets smaller, so that the depth
of a value is enough for all that is inside it.
-/
namespace Workflow

namespace Json
variable {v w : Json} {name : String}

/-- The items of the list that is a member of a value. -/
def listAt (v : Json) (name : String) : List Json := ((v.get? name).bind arr?).getD []

theorem listAt_of_get? {items : List Json} (h : v.get? name = some (.arr items)) :
    v.listAt name = items := by
  rw [listAt, h]
  rfl

theorem listAt_of_none (h : v.get? name = none) : v.listAt name = [] := by
  rw [listAt, h]
  rfl

theorem get?_of_mem_listAt (h : w ∈ v.listAt name) :
    ∃ items, v.get? name = some (.arr items) ∧ w ∈ items := by
  rw [listAt] at h
  cases hv : v.get? name with
  | none =>
    rw [hv] at h
    cases h
  | some u =>
    rw [hv] at h
    cases u with
    | arr items => exact ⟨items, rfl, h⟩
    | _ => cases h

theorem depth_of_mem {items : List Json} (h : w ∈ items) : w.depth ≤ itemsDepth items := by
  induction items with
  | nil => cases h
  | cons v rest ih =>
    rw [itemsDepth]
    rcases List.mem_cons.mp h with rfl | h
    · exact Nat.le_max_left _ _
    · exact (ih h).trans (Nat.le_max_right _ _)

theorem depth_of_lookup {members : List (String × Json)}
    (h : Table.lookup name members = some w) : w.depth ≤ membersDepth members := by
  induction members with
  | nil => cases h
  | cons e rest ih =>
    obtain ⟨k, v⟩ := e
    rw [Table.lookup] at h
    rw [membersDepth]
    split at h
    · cases h
      exact Nat.le_max_left _ _
    · exact (ih h).trans (Nat.le_max_right _ _)

theorem depth_of_get? (h : v.get? name = some w) : w.depth < v.depth := by
  cases v with
  | obj fields =>
    rw [depth]
    exact Nat.lt_succ_of_le (depth_of_lookup h)
  | _ => cases h

theorem depth_of_mem_listAt (h : w ∈ v.listAt name) : w.depth + 2 ≤ v.depth := by
  obtain ⟨items, hitems, hw⟩ := get?_of_mem_listAt h
  have hinner := depth_of_get? hitems
  rw [depth] at hinner
  have hitem := depth_of_mem hw
  omega

end Json

namespace Schema
variable {refer : Referrer} {s m : Schema} {v w : Json} {name : String}

/-- A schema does not object to anything about a value. -/
def Admits (refer : Referrer) (s : Schema) (v : Json) : Prop := s.violations refer v = []

/-- One of the parts of a schema declares what a member of a name must be. -/
def Declares (s : Schema) (name : String) (member : Schema) : Prop :=
  ∃ parts declared, s = .all parts ∧ .properties declared ∈ parts ∧
    Table.lookup name declared = some member

/-- The schema of lists whose items a reference describes. -/
def eachOf (target : String) : Schema := .all [.items 0 (.all [.reference target]), .types [.array]]

theorem of_expect {kept : Bool} {rule : Rule} (h : expect kept v rule = []) : kept = true := by
  cases kept with
  | true => rfl
  | false => cases h

theorem of_allViolations {parts : List Schema} (h : allViolations refer parts v = []) :
    ∀ part ∈ parts, part.Admits refer v := by
  induction parts with
  | nil => nofun
  | cons part rest ih =>
    obtain ⟨hpart, hrest⟩ := List.append_eq_nil_iff.mp h
    exact List.forall_mem_cons.mpr ⟨hpart, ih hrest⟩

theorem of_declaredViolations {declared : List (String × Schema)} {fields : Table Json}
    (h : declaredViolations refer declared fields = []) (hm : (name, m) ∈ declared)
    (hw : fields.get? name = some w) : m.Admits refer w := by
  induction declared with
  | nil => cases hm
  | cons e rest ih =>
    obtain ⟨hfirst, hrest⟩ := List.append_eq_nil_iff.mp h
    rcases List.mem_cons.mp hm with rfl | hm
    · rw [hw] at hfirst
      exact List.map_eq_nil_iff.mp hfirst
    · exact ih hrest hm

theorem of_itemViolations {check : Json → List Violation} {i : Nat} {items : List Json}
    (h : itemViolations check i items = []) : ∀ w ∈ items, check w = [] := by
  induction items generalizing i with
  | nil => nofun
  | cons v rest ih =>
    obtain ⟨hfirst, hrest⟩ := List.append_eq_nil_iff.mp h
    exact List.forall_mem_cons.mpr ⟨List.map_eq_nil_iff.mp hfirst, ih hrest⟩

namespace Admits

theorem part {parts : List Schema} (h : (all parts).Admits refer v) {part : Schema}
    (hp : part ∈ parts) : part.Admits refer v :=
  of_allViolations h part hp

theorem object (h : (types [.object]).Admits refer v) : ∃ fields, v = .obj fields := by
  have hholds := of_expect h
  cases v with
  | obj fields => exact ⟨fields, rfl⟩
  | _ => cases hholds

theorem isMatch {source : String} {regex : Regex} {text : String}
    (h : (pattern source regex).Admits refer (.str text)) : regex.isMatch text = true :=
  of_expect h

theorem member (h : s.Admits refer v) (hs : s.Declares name m) (hw : v.get? name = some w) :
    m.Admits refer w := by
  obtain ⟨parts, declared, rfl, hparts, hmember⟩ := hs
  cases v with
  | obj fields =>
    exact of_declaredViolations (h.part hparts) (Table.mem_of_lookup hmember) hw
  | _ => cases hw

/-- What is described by a reference has the reference follow each of its items. -/
theorem item {target : String} (h : s.Admits refer v) (hs : s.Declares name (eachOf target))
    (hw : w ∈ v.listAt name) : refer target w = [] := by
  obtain ⟨items, hitems, hmem⟩ := Json.get?_of_mem_listAt hw
  have hlist : (Schema.items 0 (.all [.reference target])).Admits refer (.arr items) :=
    (h.member hs hitems).part List.mem_cons_self
  have hitem : (all [.reference target]).Admits refer w := of_itemViolations hlist w hmem
  exact hitem.part List.mem_cons_self

theorem contains {t : Table Json} {names : List String}
    (h : (required names).Admits refer (.obj t)) {name : String} (hn : name ∈ names) :
    t.contains name = true := by
  have hall : names.flatMap (fun k => expect (t.contains k) (.obj t) (.required k)) = [] := h
  exact of_expect (List.flatMap_eq_nil_iff.mp hall name hn)

theorem text (h : (types [.string]).Admits refer v) : ∃ s, v = .str s := by
  have hholds := of_expect h
  cases v with
  | str s => exact ⟨s, rfl⟩
  | _ => cases hholds

theorem number {type : TypeName} (htype : type = .number ∨ type = .integer)
    (h : (types [type]).Admits refer v) : ∃ n, v = .num n := by
  have hholds := of_expect h
  cases v with
  | num n => exact ⟨n, rfl⟩
  | _ => obtain rfl | rfl := htype <;> cases hholds

theorem eq_text {text : String} (h : (exactly (.str text)).Admits refer v) : v = .str text := by
  have hkept := of_expect h
  cases v with
  | str s =>
    have hsame : (text == s) = true := hkept
    rw [eq_of_beq hsame]
  | _ => cases hkept

theorem le {a i : Int} (h : (atLeast (.int a)).Admits refer (.int i)) : a ≤ i := by
  have hkept := of_expect h
  have horder : Number.order (.int i) (.int a) = compare i a := by
    simp [Number.order, Number.fraction]
  rw [horder, bne_iff_ne] at hkept
  exact Int.not_lt.mp fun hlt => hkept (compare_lt_iff_lt.mpr hlt)

theorem not_admits {source : Json} (h : (negation s source).Admits refer v) :
    ¬s.Admits refer v := by
  have hkept := of_expect h
  intro hs
  rw [Admits] at hs
  simp [hs] at hkept

theorem alternative {a b : Schema} (h : (singleOf [a, b]).Admits refer v) :
    a.Admits refer v ∨ b.Admits refer v := by
  by_contra hnone
  obtain ⟨ha, hb⟩ := not_or.mp hnone
  have hcount : countAccepting refer [a, b] v = 0 := by
    simp [countAccepting, List.isEmpty_iff, show ¬violations refer a v = [] from ha,
      show ¬violations refer b v = [] from hb]
  have hviolations : violations refer (singleOf [a, b]) v = [] := h
  rw [violations, hcount] at hviolations
  cases hviolations

/-- What is declared of a member that is there admits it. -/
theorem declared {t : Table Json} {declared : List (String × Schema)}
    (h : (properties declared).Admits refer (.obj t)) {name : String} {m : Schema}
    (hm : (name, m) ∈ declared) {w : Json} (hw : t.get? name = some w) : m.Admits refer w :=
  of_declaredViolations h hm hw

end Admits
end Schema

namespace SchemaDocument
open Schema
variable {d : SchemaDocument} {s : Schema} {outer inner name : String} {v w : Json} {n : Nat}

/-- What a reference stands for admits a value, with as many references to follow as the value is
deep. -/
def Admits (d : SchemaDocument) (target : String) (v : Json) : Prop :=
  ∃ n, v.depth ≤ n ∧ d.referrer n target v = []

namespace Admits

theorem target (h : d.Admits outer v) (hs : d.targets.get? outer = some s) :
    ∃ n, v.depth ≤ n + 1 ∧ s.Admits (d.referrer n) v := by
  obtain ⟨n, hn, h⟩ := h
  cases n with
  | zero => cases v <;> cases hn
  | succ n =>
    refine ⟨n, hn, ?_⟩
    rw [referrer, hs] at h
    exact h

/-- The items of a list are admitted as deep inside as the value itself. -/
theorem of_item (hn : v.depth ≤ n + 1) (h : s.Admits (d.referrer n) v)
    (hs : s.Declares name (eachOf inner)) (hw : w ∈ v.listAt name) : d.Admits inner w := by
  have hdepth := Json.depth_of_mem_listAt hw
  exact ⟨n, by omega, h.item hs hw⟩

theorem item (h : d.Admits outer v) (ht : d.targets.get? outer = some s)
    (hs : s.Declares name (eachOf inner)) (hw : w ∈ v.listAt name) : d.Admits inner w := by
  obtain ⟨n, hn, h⟩ := h.target ht
  exact of_item hn h hs hw

end Admits

/-- A document that is accepted has items that its references admit. -/
theorem item_of_violations (h : d.violations v = []) (hs : d.root.Declares name (eachOf inner))
    (hw : w ∈ v.listAt name) : d.Admits inner w := by
  refine Admits.of_item ?_ h hs hw
  have hall : v.depth + 1 ≤ (d.targets.size + 1) * (v.depth + 1) :=
    Nat.le_mul_of_pos_left _ (Nat.succ_pos _)
  omega

end SchemaDocument
end Workflow
