import Workflow.Proofs.Storage.Backend
import Workflow.Proofs.Storage.Contents

/-!
# Backends that do what they report

A call of a backend either has the effect that it is there for, or it fails and changes nothing.
What is made of such calls then tells the truth: when a namespace is reported to be in step with
some values, exactly these are stored in it. The backend in memory is one of this kind, and never
fails.
-/
namespace Workflow
open Attempt
variable {σ τ α β ε : Type}

/-- Of states of some kind, which it keeps, what is attempted has an effect on what is looked at, or
it fails and changes nothing. -/
def Attempt.Either (a : Attempt σ ε α) (sound : σ → Prop) (view : σ → β) (Q : β → α → β → Prop) :
    Prop :=
  ∀ x, sound x → sound (a x).2 ∧
    ((∃ e, (a x).1 = .error e ∧ view (a x).2 = view x) ∨
      ∃ v, (a x).1 = .ok v ∧ Q (view x) v (view (a x).2))

namespace Attempt.Either
variable {a : Attempt σ ε α} {sound : σ → Prop} {view : σ → β} {Q : β → α → β → Prop}

theorem tolerate (h : a.Either sound view Q) {x : σ} (hx : sound x) :
    ((a.tolerate x).1 = none ∧ view (a.tolerate x).2 = view x) ∨
      ∃ v, (a.tolerate x).1 = some v ∧ Q (view x) v (view (a.tolerate x).2) := by
  rw [tolerate_eq]
  obtain ⟨-, ⟨e, he, hview⟩ | ⟨v, hv, hq⟩⟩ := h x hx
  · rw [he]
    exact .inl ⟨rfl, hview⟩
  · rw [hv]
    exact .inr ⟨v, rfl, hq⟩

end Attempt.Either

def Part.Lawful (p : Part τ σ) : Prop := ∀ s t, p.get (p.set s t) = s

theorem Attempt.Either.lift {a : Attempt σ ε α} {sound : σ → Prop} {view : σ → β}
    {Q : β → α → β → Prop} (h : a.Either sound view Q) {p : Part τ σ} (hp : p.Lawful) :
    (p.lift a).Either (fun x => sound (p.get x)) (fun x => view (p.get x)) Q := by
  intro x hx
  have hget : p.get (p.lift a x).2 = (a (p.get x)).2 := hp _ _
  simp only [hget]
  exact h (p.get x) hx

/-- Of a backend in states of some kind, each call has the effect that it is there for, or fails and
changes nothing. -/
structure Backend.Honest (b : Backend σ) (sound : σ → Prop) (contents : σ → Contents) : Prop where
  save : ∀ ns key v, (b.save ns key v).Either sound contents fun c _ c' => c' = c.put ns key v
  load : ∀ ns key, (b.load ns key).Either sound contents fun c found c' =>
    c.Finds ns key found ∧ c' = c
  delete : ∀ ns key, (b.delete ns key).Either sound contents fun c _ c' => c.Lost ns key c'
  namespaces : b.namespaces.Either sound contents fun c names c' =>
    (∀ ns, ns ∈ names ↔ (c ns).isSome) ∧ c' = c

def Attempt.Succeeds (a : Attempt σ ε α) : Prop := ∀ x, ∃ v, (a x).1 = .ok v

theorem Attempt.Succeeds.tolerate {a : Attempt σ ε α} (h : a.Succeeds) (x : σ) :
    (a.tolerate x).1.isSome = true := by
  obtain ⟨v, hv⟩ := h x
  rw [tolerate_eq, hv]
  rfl

structure Backend.Unfailing (b : Backend σ) : Prop where
  save : ∀ ns key v, (b.save ns key v).Succeeds
  load : ∀ ns key, (b.load ns key).Succeeds
  delete : ∀ ns key, (b.delete ns key).Succeeds
  namespaces : b.namespaces.Succeeds

namespace Backend

theorem memory_honest : Backend.memory.Honest Values.Ordered Values.contents where
  save ns key v vs hvs := ⟨hvs.put ns key v, .inr ⟨_, rfl, vs.contents_put ns key v⟩⟩
  load ns key vs hvs := ⟨hvs, .inr ⟨_, rfl, Values.contents_find hvs ns key, rfl⟩⟩
  delete ns key vs hvs := ⟨hvs.remove ns key, .inr ⟨_, rfl, vs.contents_remove ns key⟩⟩
  namespaces vs hvs := by
    refine ⟨hvs, .inr ⟨_, rfl, fun ns => ?_, rfl⟩⟩
    rw [Table.mem_keys, Values.contents, Option.isSome_map]

theorem memory_unfailing : Backend.memory.Unfailing where
  save _ _ _ _ := ⟨_, rfl⟩
  load _ _ _ := ⟨_, rfl⟩
  delete _ _ _ := ⟨_, rfl⟩
  namespaces _ := ⟨_, rfl⟩

variable {b : Backend σ} {sound : σ → Prop} {contents : σ → Contents}

theorem Honest.through (h : b.Honest sound contents) {p : Part τ σ} (hp : p.Lawful) :
    (b.through p).Honest (fun x => sound (p.get x)) fun x => contents (p.get x) where
  save ns key v := (h.save ns key v).lift hp
  load ns key := (h.load ns key).lift hp
  delete ns key := (h.delete ns key).lift hp
  namespaces := h.namespaces.lift hp

theorem Unfailing.through (h : b.Unfailing) (p : Part τ σ) : (b.through p).Unfailing where
  save ns key v x := h.save ns key v (p.get x)
  load ns key x := h.load ns key (p.get x)
  delete ns key x := h.delete ns key (p.get x)
  namespaces x := h.namespaces (p.get x)

end Backend

theorem state_bind_apply (a : StateM σ α) (f : α → StateM σ β) (x : σ) :
    (a >>= f) x = f (a x).1 (a x).2 := rfl

namespace Backend

theorem saveMembers_cons (b : Backend σ) (ns : String) (e : String × Json)
    (members : List (String × Json)) (x : σ) :
    b.saveMembers ns (e :: members) x =
      let saved := (b.save ns e.1 e.2).tolerate x
      let rest := b.saveMembers ns members saved.2
      (saved.1.isSome && rest.1, rest.2) := rfl

theorem deleteKeys_cons (b : Backend σ) (ns key : String) (keys : List String) (x : σ) :
    b.deleteKeys ns (key :: keys) x =
      let deleted := (b.delete ns (some key)).tolerate x
      let rest := b.deleteKeys ns keys deleted.2
      (deleted.1.isSome && rest.1, rest.2) := rfl

theorem syncAll_cons (b : Backend σ) (e : String × Table Json)
    (spaces : List (String × Table Json)) (x : σ) :
    b.syncAll (e :: spaces) x =
      let synced := b.sync e.1 e.2 x
      let rest := b.syncAll spaces synced.2
      (synced.1 && rest.1, rest.2) := rfl

theorem sync_of_empty (b : Backend σ) (ns : String) {values : Table Json}
    (h : values.isEmpty = true) (x : σ) :
    b.sync ns values x =
      (((b.delete ns none).tolerate x).1.isSome, ((b.delete ns none).tolerate x).2) := by
  unfold sync
  rw [if_pos h]
  rfl

theorem sync_of_values (b : Backend σ) (ns : String) {values : Table Json}
    (h : values.isEmpty = false) (x : σ) :
    b.sync ns values x =
      let saved := b.saveMembers ns values.entries x
      let loaded := (b.load ns none).tolerate saved.2
      match loaded.1 with
      | none => (false, loaded.2)
      | some (some (.obj stored)) =>
        let stale := stored.keys.filter fun k => !values.contains k
        let deleted := b.deleteKeys ns stale loaded.2
        (saved.1 && deleted.1, deleted.2)
      | some _ => (saved.1, loaded.2) := by
  have hne : ¬values.isEmpty = true := by simp [h]
  unfold sync
  rw [if_neg hne, state_bind_apply, state_bind_apply]
  dsimp only
  rcases ((b.load ns none).tolerate (b.saveMembers ns values.entries x).2).1 with _ | _ | found
  · rfl
  · rfl
  · cases found <;> rfl

end Backend

/-- States of some kind stay of this kind, and what is stored stays but in some namespaces. -/
def SoundBut (sound : σ → Prop) (contents : σ → Contents) (P : String → Prop) (x y : σ) : Prop :=
  sound x → sound y ∧ ∀ ns, ¬P ns → contents y ns = contents x ns

instance (sound : σ → Prop) (contents : σ → Contents) (P : String → Prop) :
    Std.Refl (SoundBut sound contents P) where
  refl _ hx := ⟨hx, fun _ _ => rfl⟩

instance (sound : σ → Prop) (contents : σ → Contents) (P : String → Prop) :
    IsTrans σ (SoundBut sound contents P) where
  trans _ _ _ h k hx :=
    ⟨(k (h hx).1).1, fun ns hns => ((k (h hx).1).2 ns hns).trans ((h hx).2 ns hns)⟩

theorem Attempt.Either.soundBut {a : Attempt σ ε α} {sound : σ → Prop} {contents : σ → Contents}
    {P : String → Prop} {Q : Contents → α → Contents → Prop} (h : a.Either sound contents Q)
    (hq : ∀ c v c', Q c v c' → ∀ ns, ¬P ns → c' ns = c ns) (x : σ) :
    SoundBut sound contents P x (a x).2 := by
  intro hx
  obtain ⟨hsound, ⟨_, -, hview⟩ | ⟨v, -, hv⟩⟩ := h x hx
  · exact ⟨hsound, fun ns _ => congrFun hview ns⟩
  · exact ⟨hsound, hq _ _ _ hv⟩

namespace Backend.Honest
variable {b : Backend σ} {sound : σ → Prop} {contents : σ → Contents} {ns : String} {x : σ}

theorem doesIn (h : b.Honest sound contents) {P : String → Prop} (hns : P ns) :
    b.DoesIn (SoundBut sound contents P) ns where
  save key v := by
    refine (h.save ns key v).soundBut ?_
    rintro c _ _ rfl ns' hn
    have hne : ns' ≠ ns := fun heq => hn (heq ▸ hns)
    exact c.put_of_ne hne key v
  delete key := by
    refine (h.delete ns key).soundBut fun _ _ _ hlost ns' hn => ?_
    have hne : ns' ≠ ns := fun heq => hn (heq ▸ hns)
    exact hlost.elsewhere ns' hne
  load key := (h.load ns key).soundBut fun _ _ _ hfound ns' _ => congrFun hfound.2 ns'

/-- Values that were all saved are stored. -/
theorem saveMembers (h : b.Honest sound contents) {members : List (String × Json)} (hx : sound x)
    (hdone : (b.saveMembers ns members x).1 = true) :
    contents (b.saveMembers ns members x).2 = (contents x).putAll ns members := by
  induction members generalizing x with
  | nil => rfl
  | cons e members ih =>
    rw [saveMembers_cons] at hdone ⊢
    obtain ⟨hsaved, hrest⟩ := Bool.and_eq_true_iff.mp hdone
    obtain ⟨hnone, -⟩ | ⟨_, -, hput⟩ := (h.save ns e.1 e.2).tolerate hx
    · simp [hnone] at hsaved
    · have hsound := Does.tolerate ((h.doesIn (P := (· = ns)) rfl).save e.1 e.2) x hx
      rw [ih hsound.1 hrest, hput]
      rfl

/-- Keys that were all deleted are gone; the others stay as they were. -/
theorem deleteKeys (h : b.Honest sound contents) {keys : List String} (hx : sound x)
    (hdone : (b.deleteKeys ns keys x).1 = true) (key : String) :
    (contents (b.deleteKeys ns keys x).2).value? ns key =
      if key ∈ keys then none else (contents x).value? ns key := by
  induction keys generalizing x with
  | nil => rfl
  | cons k keys ih =>
    rw [deleteKeys_cons] at hdone ⊢
    obtain ⟨hdeleted, hrest⟩ := Bool.and_eq_true_iff.mp hdone
    obtain ⟨hnone, -⟩ | ⟨_, -, hlost⟩ := (h.delete ns (some k)).tolerate hx
    · simp [hnone] at hdeleted
    · have hsound := Does.tolerate ((h.doesIn (P := (· = ns)) rfl).delete (some k)) x hx
      rw [ih hsound.1 hrest]
      by_cases hk : key = k
      · have hgone := hlost.gone key fun j hj => hk.trans (Option.some.inj hj)
        simp [hk, ← hgone]
      · have hkept := hlost.kept key fun hall => hk (hall k rfl)
        simp [hk, hkept]

/-- What lies in a namespace once values are saved there and what is stale is deleted. -/
theorem pruned {values stored : Table Json} {c c' : Contents} (hvalues : values.Sorted)
    (hstored : c.putAll ns values.entries ns = some stored.get?)
    (hc' : ∀ key, c'.value? ns key =
      if key ∈ stored.keys.filter (fun k => !values.contains k) then none
      else (c.putAll ns values.entries).value? ns key)
    (key : String) : c'.value? ns key = values.get? key := by
  have hput := c.value?_putAll ns values.entries key
  rw [Table.lookup_reverse hvalues.distinct] at hput
  rw [hc' key]
  cases hv : values.get? key with
  | some v =>
    have hkeep : key ∉ stored.keys.filter fun k => !values.contains k := by
      simp [Table.contains, hv]
    rw [if_neg hkeep, hput]
    exact congrArg (·.or (c.value? ns key)) hv
  | none =>
    split
    · rfl
    · rename_i hstale
      rw [Contents.value?, hstored, Option.bind_some]
      cases hw : stored.get? key with
      | none => rfl
      | some w =>
        have hmem : key ∈ stored.keys := Table.mem_keys.mpr (by rw [hw, Option.isSome_some])
        exact absurd (List.mem_filter.mpr ⟨hmem, by simp [Table.contains, hv]⟩) hstale

/-- A namespace that is reported to be in step with values holds exactly these. -/
theorem sync (h : b.Honest sound contents) {values : Table Json} (hvalues : values.Sorted)
    (hx : sound x) (hdone : (b.sync ns values x).1 = true) :
    contents (b.sync ns values x).2 ns = values.shown? := by
  unfold Table.shown?
  cases hempty : values.isEmpty with
  | true =>
    rw [sync_of_empty b ns hempty] at hdone ⊢
    obtain ⟨hnone, -⟩ | ⟨_, -, hlost⟩ := (h.delete ns none).tolerate hx
    · simp [hnone] at hdone
    · rw [if_pos rfl]
      by_contra hsome
      have hkey := (hlost.present (Option.isSome_iff_ne_none.mpr hsome)).1
      cases hkey
  | false =>
    rw [sync_of_values b ns hempty] at hdone ⊢
    have hsaved : (b.saveMembers ns values.entries x).1 = true := by
      dsimp only at hdone
      split at hdone
      · cases hdone
      · exact (Bool.and_eq_true_iff.mp hdone).1
      · exact hdone
    have hput := h.saveMembers hx hsaved
    have hdoes : b.DoesIn (SoundBut sound contents (· = ns)) ns := h.doesIn rfl
    have hsound := (hdoes.saveMembers values.entries x hx).1
    obtain ⟨hnone, -⟩ | ⟨found, hfound, hfinds, hsame⟩ := (h.load ns none).tolerate hsound
    · simp [hnone] at hdone
    rw [hput] at hfinds
    cases found with
    | none =>
      -- what was saved would have to be found
      obtain ⟨key, v, hv⟩ := Table.exists_get? hempty
      have hnone := hfinds key
      rw [Contents.value?_putAll, Table.lookup_reverse hvalues.distinct] at hnone
      rw [← Table.get?, hv] at hnone
      cases hnone
    | some found =>
      obtain ⟨stored, rfl, -, hstored⟩ := hfinds
      simp only [hfound] at hdone ⊢
      have hloaded := Does.tolerate (hdoes.load none) _ hsound
      have hdeleted := h.deleteKeys hloaded.1 (Bool.and_eq_true_iff.mp hdone).2
      rw [hsame, hput] at hdeleted
      exact Contents.eq_get? hempty (pruned hvalues hstored hdeleted)

/-- Namespaces that are reported to be in step hold exactly their values; the others stay as they
were. -/
theorem syncAll (h : b.Honest sound contents) {spaces : List (String × Table Json)}
    (hspaces : spaces.Pairwise fun e f => e.1 ≠ f.1) (hvalues : ∀ e ∈ spaces, e.2.Sorted)
    (hx : sound x) (hdone : (b.syncAll spaces x).1 = true) (ns : String) :
    contents (b.syncAll spaces x).2 ns =
      (Table.lookup ns spaces).elim (contents x ns) Table.shown? := by
  induction hspaces generalizing x with
  | nil => rfl
  | @cons e spaces he _ ih =>
    rw [syncAll_cons] at hdone ⊢
    obtain ⟨hsynced, hrest⟩ := Bool.and_eq_true_iff.mp hdone
    have hdoes : b.DoesIn (SoundBut sound contents (· = e.1)) e.1 := h.doesIn rfl
    have hsound := hdoes.sync e.2 x hx
    rw [ih (fun f hf => hvalues f (List.mem_cons_of_mem e hf)) hsound.1 hrest, Table.lookup]
    split
    · rename_i hns
      have hnone : Table.lookup e.1 spaces = none :=
        Table.lookup_eq_none fun f hf => (he f hf).symm
      rw [hns, hnone]
      exact h.sync (hvalues e List.mem_cons_self) hx hsynced
    · rename_i hns
      rw [hsound.2 ns hns]

/-- Loading a namespace finds its values, if it finds any, and changes nothing. -/
theorem loadSpace (h : b.Honest sound contents) (ns : String) (hx : sound x) :
    sound (b.loadSpace ns x).2 ∧ contents (b.loadSpace ns x).2 = contents x ∧
      ∀ values ∈ (b.loadSpace ns x).1, values.Sorted ∧ contents x ns = some values.get? := by
  have hload : b.loadSpace ns x =
      ((((b.load ns none).tolerate x).1.join).bind Json.obj?, ((b.load ns none).tolerate x).2) :=
    rfl
  have hsound : sound ((b.load ns none).tolerate x).2 := by
    rw [tolerate_apply]
    exact (h.load ns none x hx).1
  rw [hload]
  obtain ⟨hnone, hsame⟩ | ⟨found, hfound, hfinds, hsame⟩ := (h.load ns none).tolerate hx
  · refine ⟨hsound, hsame, fun values hv => ?_⟩
    simp [hnone] at hv
  · refine ⟨hsound, hsame, fun values hv => ?_⟩
    rw [hfound] at hv
    cases found with
    | none => cases hv
    | some found =>
      obtain ⟨t, rfl, hsorted, ht⟩ := hfinds
      cases hv
      exact ⟨hsorted, ht⟩

/-- Listing the namespaces changes nothing. If it does not fail, it gives all that are there. -/
theorem tryNamespaces (h : b.Honest sound contents) (hx : sound x) :
    sound (b.tryNamespaces x).2 ∧ contents (b.tryNamespaces x).2 = contents x ∧
      ((b.namespaces x).1.isOk → ∀ ns, ns ∈ (b.tryNamespaces x).1 ↔ (contents x ns).isSome) := by
  have hlist : b.tryNamespaces x =
      ((b.namespaces.tolerate x).1.getD [], (b.namespaces.tolerate x).2) := rfl
  rw [hlist, tolerate_eq]
  obtain ⟨hsound, ⟨e, he, hsame⟩ | ⟨names, hnames, hall, hsame⟩⟩ := h.namespaces x hx
  · refine ⟨hsound, hsame, fun hok => ?_⟩
    rw [he] at hok
    cases hok
  · rw [hnames]
    exact ⟨hsound, hsame, fun _ => hall⟩

end Backend.Honest

/-- If the namespaces cannot be listed, none are told. -/
theorem Backend.tryNamespaces_of_not_isOk {b : Backend σ} {x : σ}
    (h : (b.namespaces x).1.isOk = false) : (b.tryNamespaces x).1 = [] := by
  change (b.namespaces.tolerate x).1.getD [] = []
  rw [tolerate_eq]
  cases hlist : (b.namespaces x).1 with
  | ok names =>
    rw [hlist] at h
    cases h
  | error e => rfl

namespace Backend.Unfailing
variable {b : Backend σ}

theorem saveMembers (h : b.Unfailing) (ns : String) (members : List (String × Json)) (x : σ) :
    (b.saveMembers ns members x).1 = true := by
  induction members generalizing x with
  | nil => rfl
  | cons e members ih =>
    rw [saveMembers_cons]
    exact Bool.and_eq_true_iff.mpr ⟨(h.save ns e.1 e.2).tolerate x, ih _⟩

theorem deleteKeys (h : b.Unfailing) (ns : String) (keys : List String) (x : σ) :
    (b.deleteKeys ns keys x).1 = true := by
  induction keys generalizing x with
  | nil => rfl
  | cons key keys ih =>
    rw [deleteKeys_cons]
    exact Bool.and_eq_true_iff.mpr ⟨(h.delete ns (some key)).tolerate x, ih _⟩

theorem sync (h : b.Unfailing) (ns : String) (values : Table Json) (x : σ) :
    (b.sync ns values x).1 = true := by
  cases hempty : values.isEmpty with
  | true =>
    rw [sync_of_empty b ns hempty]
    exact (h.delete ns none).tolerate x
  | false =>
    rw [sync_of_values b ns hempty]
    have hloaded := (h.load ns none).tolerate (b.saveMembers ns values.entries x).2
    dsimp only
    split
    · rename_i hnone
      rw [hnone] at hloaded
      cases hloaded
    · exact Bool.and_eq_true_iff.mpr ⟨h.saveMembers ns _ x, h.deleteKeys ns _ _⟩
    · exact h.saveMembers ns _ x

theorem syncAll (h : b.Unfailing) (spaces : List (String × Table Json)) (x : σ) :
    (b.syncAll spaces x).1 = true := by
  induction spaces generalizing x with
  | nil => rfl
  | cons e spaces ih =>
    rw [syncAll_cons]
    exact Bool.and_eq_true_iff.mpr ⟨h.sync e.1 e.2 x, ih _⟩

end Backend.Unfailing
end Workflow
