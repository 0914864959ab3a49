import Workflow.Proofs.Storage.Honest
import Workflow.Proofs.Storage.Refinement

/-!
# Bringing a namespace in step with values

The calls of a backend can be watched without changing what they do. So it can be said of each key
whether its save succeeded when a namespace is brought in step with some values, while any of the
calls may fail: what was saved is stored, what could not be saved is still what it was, and nothing
appears that was neither there nor among the values.
-/
namespace Workflow
open Attempt
variable {σ α β : Type}

/-- Calls in the order in which they were made, with whether they succeeded. -/
abbrev StorageLog := List (StorageCall × Bool)

def Attempt.noting (c : StorageCall) (a : Attempt σ PersistenceError α) :
    Attempt (σ × StorageLog) PersistenceError α := fun x =>
  let done := a x.1
  (done.1, done.2, x.2 ++ [(c, done.1.isOk)])

theorem Attempt.tolerate_noting (c : StorageCall) (a : Attempt σ PersistenceError α) (x : σ)
    (log : StorageLog) :
    (a.noting c).tolerate (x, log) =
      ((a.tolerate x).1, (a.tolerate x).2, log ++ [(c, (a.tolerate x).1.isSome)]) := by
  rw [tolerate_eq, tolerate_eq, noting]
  cases (a x).1 <;> rfl

namespace Backend

def watched (b : Backend σ) : Backend (σ × StorageLog) where
  save ns key v := (b.save ns key v).noting (.save ns key v)
  load ns key := (b.load ns key).noting (.load ns key)
  delete ns key := (b.delete ns key).noting (.delete ns key)
  namespaces := b.namespaces.noting .namespaces

def saveLog (b : Backend σ) (ns : String) : List (String × Json) → σ → StorageLog
  | [], _ => []
  | e :: members, x =>
    let saved := (b.save ns e.1 e.2).tolerate x
    (.save ns e.1 e.2, saved.1.isSome) :: b.saveLog ns members saved.2

def deleteLog (b : Backend σ) (ns : String) : List String → σ → StorageLog
  | [], _ => []
  | key :: keys, x =>
    let deleted := (b.delete ns (some key)).tolerate x
    (.delete ns (some key), deleted.1.isSome) :: b.deleteLog ns keys deleted.2

variable (b : Backend σ) (ns : String) (x : σ) (log : StorageLog)

theorem watched_saveMembers (members : List (String × Json)) :
    b.watched.saveMembers ns members (x, log) =
      ((b.saveMembers ns members x).1, (b.saveMembers ns members x).2,
        log ++ b.saveLog ns members x) := by
  induction members generalizing x log with
  | nil => exact congrArg (fun l => (true, x, l)) (List.append_nil log).symm
  | cons e members ih =>
    have hsave : (b.watched.save ns e.1 e.2).tolerate (x, log) = _ :=
      tolerate_noting (.save ns e.1 e.2) (b.save ns e.1 e.2) x log
    rw [saveMembers_cons, hsave]
    dsimp only
    rw [ih, List.append_assoc]
    rfl

theorem watched_deleteKeys (keys : List String) :
    b.watched.deleteKeys ns keys (x, log) =
      ((b.deleteKeys ns keys x).1, (b.deleteKeys ns keys x).2,
        log ++ b.deleteLog ns keys x) := by
  induction keys generalizing x log with
  | nil => exact congrArg (fun l => (true, x, l)) (List.append_nil log).symm
  | cons key keys ih =>
    have hdelete : (b.watched.delete ns (some key)).tolerate (x, log) = _ :=
      tolerate_noting (.delete ns (some key)) (b.delete ns (some key)) x log
    rw [deleteKeys_cons, hdelete]
    dsimp only
    rw [ih, List.append_assoc]
    rfl

end Backend

def StorageLog.SavesNothing (log : StorageLog) : Prop :=
  ∀ ns key v done, (StorageCall.save ns key v, done) ∉ log

namespace StorageLog.SavesNothing
variable {log : StorageLog}

theorem nil : SavesNothing [] := fun _ _ _ _ => List.not_mem_nil

theorem cons {e : StorageCall × Bool} (he : ∀ ns key v, e.1 ≠ .save ns key v)
    (h : log.SavesNothing) : SavesNothing (e :: log) := by
  intro ns key v done hmem
  rcases List.mem_cons.mp hmem with rfl | hmem
  · exact he ns key v rfl
  · exact h ns key v done hmem

end StorageLog.SavesNothing

namespace Backend
variable {b : Backend σ} {ns : String} {x : σ}

theorem saveLog_of_mem {members : List (String × Json)} {c : StorageCall} {done : Bool}
    (h : (c, done) ∈ b.saveLog ns members x) : ∃ e ∈ members, c = .save ns e.1 e.2 := by
  induction members generalizing x with
  | nil => cases h
  | cons e members ih =>
    rcases List.mem_cons.mp h with he | h
    · exact ⟨e, List.mem_cons_self, congrArg Prod.fst he⟩
    · obtain ⟨f, hf, hc⟩ := ih h
      exact ⟨f, List.mem_cons_of_mem e hf, hc⟩

theorem deleteLog_savesNothing (keys : List String) :
    StorageLog.SavesNothing (b.deleteLog ns keys x) := by
  induction keys generalizing x with
  | nil => exact .nil
  | cons key keys ih => exact ih.cons (by nofun)

/-- Watching a namespace being brought in step changes nothing. First each of the values is saved,
and then nothing is saved any more. -/
theorem watched_sync (b : Backend σ) (ns : String) (values : Table Json) (x : σ)
    (log : StorageLog) :
    ∃ others, StorageLog.SavesNothing others ∧ b.watched.sync ns values (x, log) =
      ((b.sync ns values x).1, (b.sync ns values x).2,
        log ++ b.saveLog ns values.entries x ++ others) := by
  cases hempty : values.isEmpty with
  | true =>
    have hdelete : (b.watched.delete ns none).tolerate (x, log) = _ :=
      tolerate_noting (.delete ns none) (b.delete ns none) x log
    have hnone : values.entries = [] := List.isEmpty_iff.mp hempty
    rw [sync_of_empty _ _ hempty, sync_of_empty _ _ hempty, hdelete, hnone, saveLog,
      List.append_nil]
    exact ⟨_, .cons (by nofun) .nil, rfl⟩
  | false =>
    have hload (y : σ) (log : StorageLog) : (b.watched.load ns none).tolerate (y, log) = _ :=
      tolerate_noting (.load ns none) (b.load ns none) y log
    rw [sync_of_values _ _ hempty, sync_of_values _ _ hempty, watched_saveMembers]
    dsimp only
    rw [hload]
    dsimp only
    split
    · exact ⟨_, .cons (by nofun) .nil, rfl⟩
    · rw [watched_deleteKeys, List.append_assoc _ [_]]
      exact ⟨_, .cons (by nofun) (deleteLog_savesNothing _), rfl⟩
    · exact ⟨_, .cons (by nofun) .nil, rfl⟩

end Backend

theorem Attempt.Either.tolerate_sound {a : Attempt σ PersistenceError α} {sound : σ → Prop}
    {view : σ → β} {Q : β → α → β → Prop} (h : a.Either sound view Q) {x : σ} (hx : sound x) :
    sound (a.tolerate x).2 := by
  rw [tolerate_apply]
  exact (h x hx).1

namespace Backend.Honest
variable {b : Backend σ} {sound : σ → Prop} {contents : σ → Contents} {ns key : String} {x : σ}

theorem contents_trySave (h : b.Honest sound contents) (ns key : String) (v : Json)
    (hx : sound x) :
    contents ((b.save ns key v).tolerate x).2 =
      if ((b.save ns key v).tolerate x).1.isSome then (contents x).put ns key v
      else contents x := by
  obtain ⟨hnone, hsame⟩ | ⟨_, hsome, hput⟩ := (h.save ns key v).tolerate hx
  · rw [hsame, hnone]
    rfl
  · rw [hput, hsome]
    rfl

/-- What is saved under other keys leaves the value of a key alone. -/
theorem saveMembers_other (h : b.Honest sound contents) {members : List (String × Json)}
    (hx : sound x) (hkey : ∀ e ∈ members, e.1 ≠ key) :
    (contents (b.saveMembers ns members x).2).value? ns key = (contents x).value? ns key := by
  induction members generalizing x with
  | nil => rfl
  | cons e members ih =>
    obtain ⟨hne, hrest⟩ := List.forall_mem_cons.mp hkey
    rw [saveMembers_cons]
    dsimp only
    rw [ih ((h.save ns e.1 e.2).tolerate_sound hx) hrest, h.contents_trySave ns e.1 e.2 hx]
    split
    · rw [Contents.value?_put, if_neg fun hk => hne hk.2.symm]
    · rfl

/-- Each value is saved once. If that succeeds it is the value of its key, and if not, the key keeps
the value that it has. -/
theorem saveMembers_each (h : b.Honest sound contents) (ns : String)
    {members : List (String × Json)}
    (hx : sound x) (hdistinct : members.Pairwise fun e f => e.1 ≠ f.1) {e : String × Json}
    (he : e ∈ members) :
    ∃ saved, (∀ v d, (.save ns e.1 v, d) ∈ b.saveLog ns members x ↔ v = e.2 ∧ d = saved) ∧
      (contents (b.saveMembers ns members x).2).value? ns e.1 =
        if saved then some e.2 else (contents x).value? ns e.1 := by
  induction hdistinct generalizing x with
  | nil => cases he
  | @cons f members hf _ ih =>
    have hsound := (h.save ns f.1 f.2).tolerate_sound hx
    have hvalue := h.contents_trySave ns f.1 f.2 hx
    rw [saveMembers_cons, saveLog]
    dsimp only
    rcases List.mem_cons.mp he with rfl | he
    · refine ⟨((b.save ns e.1 e.2).tolerate x).1.isSome, fun v d => ?_, ?_⟩
      · have hlater : (StorageCall.save ns e.1 v, d) ∉
            b.saveLog ns members ((b.save ns e.1 e.2).tolerate x).2 := by
          intro hmem
          obtain ⟨g, hg, hc⟩ := saveLog_of_mem hmem
          injection hc with _ hkey
          exact hf g hg hkey
        simp [hlater]
      · rw [h.saveMembers_other hsound fun g hg => (hf g hg).symm, hvalue]
        split
        · rw [Contents.value?_put, if_pos ⟨rfl, rfl⟩]
        · rfl
    · have hne : e.1 ≠ f.1 := (hf e he).symm
      obtain ⟨saved, hlog, heach⟩ := ih hsound he
      refine ⟨saved, fun v d => ?_, ?_⟩
      · simp [hne, hlog]
      · have hsame : (contents ((b.save ns f.1 f.2).tolerate x).2).value? ns e.1 =
            (contents x).value? ns e.1 := by
          rw [hvalue]
          split
          · rw [Contents.value?_put, if_neg fun hk => hne hk.2]
          · rfl
        rw [heach, hsame]

theorem value?_tryDelete (h : b.Honest sound contents) (ns : String) (deleted : Option String)
    (hx : sound x) (key : String) :
    let after := ((b.delete ns deleted).tolerate x).2
    (contents after).value? ns key = (contents x).value? ns key ∨
      (∀ k ∈ deleted, key = k) ∧ (contents after).value? ns key = none := by
  obtain ⟨-, hsame⟩ | ⟨_, -, hlost⟩ := (h.delete ns deleted).tolerate hx
  · exact .inl (congrArg (Contents.value? · ns key) hsame)
  · by_cases hkey : ∀ k ∈ deleted, key = k
    · exact .inr ⟨hkey, hlost.gone key hkey⟩
    · exact .inl (hlost.kept key hkey)

/-- A key that is deleted keeps its value or loses it; the others keep theirs. -/
theorem deleteKeys_each (h : b.Honest sound contents) (ns : String) (keys : List String)
    (hx : sound x) (key : String) :
    let after := (b.deleteKeys ns keys x).2
    (contents after).value? ns key = (contents x).value? ns key ∨
      key ∈ keys ∧ (contents after).value? ns key = none := by
  induction keys generalizing x with
  | nil => exact .inl rfl
  | cons k keys ih =>
    have hsound := (h.delete ns (some k)).tolerate_sound hx
    rw [deleteKeys_cons]
    dsimp only
    obtain hsame | ⟨hkey, hgone⟩ := ih hsound
    · rw [hsame]
      obtain hkept | ⟨hk, hnone⟩ := h.value?_tryDelete ns (some k) hx key
      · exact .inl hkept
      · exact .inr ⟨hk k rfl ▸ List.mem_cons_self, hnone⟩
    · exact .inr ⟨List.mem_cons_of_mem k hkey, hgone⟩

/-- A key has the value that it has when the values are saved, or it is not among these and has
none. -/
theorem sync_each (h : b.Honest sound contents) (ns : String) (values : Table Json) (hx : sound x)
    (key : String) :
    let saved := (b.saveMembers ns values.entries x).2
    let after := (b.sync ns values x).2
    (contents after).value? ns key = (contents saved).value? ns key ∨
      values.get? key = none ∧ (contents after).value? ns key = none := by
  cases hempty : values.isEmpty with
  | true =>
    have hnone : values.entries = [] := List.isEmpty_iff.mp hempty
    rw [sync_of_empty b ns hempty, hnone]
    refine (h.value?_tryDelete ns none hx key).imp id fun hgone => ⟨?_, hgone.2⟩
    rw [Table.get?, hnone]
    rfl
  | false =>
    have hsaved : sound (b.saveMembers ns values.entries x).2 :=
      ((h.doesIn (P := (· = ns)) rfl).saveMembers values.entries x hx).1
    have hloaded := (h.load ns none).tolerate_sound hsaved
    have hsame : contents ((b.load ns none).tolerate (b.saveMembers ns values.entries x).2).2 =
        contents (b.saveMembers ns values.entries x).2 := by
      obtain ⟨-, hsame⟩ | ⟨_, -, -, hsame⟩ := (h.load ns none).tolerate hsaved <;> exact hsame
    rw [sync_of_values b ns hempty]
    dsimp only
    split
    · exact .inl (congrArg (Contents.value? · ns key) hsame)
    · rename_i stored _
      have heach :=
        h.deleteKeys_each ns (stored.keys.filter fun k => !values.contains k) hloaded key
      rw [hsame] at heach
      obtain hsaved | ⟨hstale, hgone⟩ := heach
      · exact .inl hsaved
      · refine .inr ⟨?_, hgone⟩
        simpa [Table.contains] using (List.mem_filter.mp hstale).2
    · exact .inl (congrArg (Contents.value? · ns key) hsame)

end Backend.Honest

/-- A namespace that is reported to be in step with values holds exactly these, and is gone if there
are none. Whatever is reported, and whichever calls fail, other namespaces stay as they were. Each
of the values is saved once: if that succeeds it is stored, and if not, its key keeps what was
stored for it. What else is stored in the namespace was stored there before. -/
theorem namespace_synced {b : Backend σ} {sound : σ → Prop} {contents : σ → Contents}
    (hb : b.Honest sound contents) {values : Table Json} (hvalues : values.Sorted) {x : σ}
    (hx : sound x) (ns : String) :
    let synced := b.sync ns values x
    let before := contents x
    let after := contents synced.2
    ∃ log, b.watched.sync ns values (x, []) = (synced.1, synced.2, log) ∧
      (synced.1 = true → after ns = values.shown?) ∧
      (∀ ns', ns' ≠ ns → after ns' = before ns') ∧
      (∀ key v, values.get? key = some v → ∃ saved,
        (∀ w d, (.save ns key w, d) ∈ log ↔ w = v ∧ d = saved) ∧
        after.value? ns key = if saved then some v else before.value? ns key) ∧
      ∀ key w, values.get? key = none → after.value? ns key = some w →
        before.value? ns key = some w := by
  intro synced before after
  have hdoes : b.DoesIn (SoundBut sound contents (· = ns)) ns := hb.doesIn rfl
  obtain ⟨others, hnosave, hwatched⟩ := b.watched_sync ns values x []
  refine ⟨_, hwatched, hb.sync hvalues hx, (hdoes.sync values x hx).2, fun key v hv => ?_,
    fun key w hnone hw => ?_⟩
  · have hmem : (key, v) ∈ values.entries := Table.mem_of_lookup hv
    obtain ⟨saved, hlog, hvalue⟩ := hb.saveMembers_each ns hx hvalues.distinct hmem
    refine ⟨saved, fun w d => ?_, ?_⟩
    · rw [List.nil_append, List.mem_append, hlog w d]
      exact or_iff_left (hnosave ns key w d)
    · obtain hsame | ⟨hnone, -⟩ := hb.sync_each ns values hx key
      · exact hsame.trans hvalue
      · cases hv.symm.trans hnone
  · obtain hsame | ⟨-, hgone⟩ := hb.sync_each ns values hx key
    · have hother : ∀ e ∈ values.entries, e.1 ≠ key := by
        rintro e he rfl
        cases (hvalues.get?_of_mem he).symm.trans hnone
      exact (hb.saveMembers_other hx hother).symm.trans (hsame.symm.trans hw)
    · cases hw.symm.trans hgone

/-- Fails if the first of some choices says so, and does what is to be attempted otherwise. -/
def Attempt.unless (a : Attempt σ PersistenceError α) :
    Attempt (σ × List Bool) PersistenceError α := fun x =>
  match x.2 with
  | true :: fails => (.error .serialization, x.1, fails)
  | fails => ((a x.1).1, (a x.1).2, fails.tail)

/-- A backend whose calls fail by choice. When the choices are used up, nothing fails any more. -/
def Backend.failing (b : Backend σ) : Backend (σ × List Bool) where
  save ns key v := (b.save ns key v).unless
  load ns key := (b.load ns key).unless
  delete ns key := (b.delete ns key).unless
  namespaces := b.namespaces.unless

theorem Attempt.Either.unless {a : Attempt σ PersistenceError α} {sound : σ → Prop}
    {view : σ → β} {Q : β → α → β → Prop} (h : a.Either sound view Q) :
    a.unless.Either (fun x => sound x.1) (fun x => view x.1) Q := by
  rintro ⟨x, _ | ⟨_ | _, fails⟩⟩ hx
  · exact h x hx
  · exact h x hx
  · exact ⟨hx, .inl ⟨_, rfl, rfl⟩⟩

theorem Backend.Honest.failing {b : Backend σ} {sound : σ → Prop} {contents : σ → Contents}
    (h : b.Honest sound contents) :
    b.failing.Honest (fun x => sound x.1) fun x => contents x.1 where
  save ns key v := (h.save ns key v).unless
  load ns key := (h.load ns key).unless
  delete ns key := (h.delete ns key).unless
  namespaces := h.namespaces.unless

/-- Of two values the second one cannot be saved, and a key that is not among them cannot be
deleted: then the first one is stored, and the others are what they were. -/
theorem namespace_synced_in_part :
    let values : Table Json := ⟨[("j", .bool true), ("k", .bool false)]⟩
    let stored := (Values.put .empty "a" "k" .null).put "a" "l" .null
    let synced := Backend.memory.failing.sync "a" values (stored, [false, true, false, true])
    synced.1 = false ∧ synced.2.1.value? "a" "j" = some (.bool true) ∧
      synced.2.1.value? "a" "k" = some .null ∧ synced.2.1.value? "a" "l" = some .null := by
  intro values stored synced
  have hkeys : ["j", "k"].Pairwise (· < ·) := by decide
  have hvalues : values.Sorted := List.pairwise_map.mp hkeys
  have hstored : stored.Ordered := (Values.Ordered.empty.put "a" "k" .null).put "a" "l" .null
  obtain ⟨log, hwatched, -, -, heach, -⟩ := namespace_synced Backend.memory_honest.failing hvalues
    (x := (stored, [false, true, false, true])) hstored "a"
  obtain rfl : log = [(.save "a" "j" (.bool true), true), (.save "a" "k" (.bool false), false),
      (.load "a" none, true), (.delete "a" (some "l"), false)] :=
    (congrArg (fun r => r.2.2) hwatched).symm.trans (by rfl)
  obtain ⟨saved, hj, hvalue⟩ := heach "j" (.bool true) rfl
  obtain ⟨-, rfl⟩ := (hj (.bool true) true).mp (by simp)
  obtain ⟨unsaved, hk, hkept⟩ := heach "k" (.bool false) rfl
  obtain ⟨-, rfl⟩ := (hk (.bool false) false).mp (by simp)
  rw [Values.contents_value?] at hvalue hkept
  exact ⟨rfl, hvalue, hkept, rfl⟩

end Workflow
