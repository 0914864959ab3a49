import Workflow.Proofs.Storage.Mirrored

/-!
# A directory answers as memory does

Whatever calls are made, a directory that was empty or not there answers each of them as the storage
in memory does, as long as no operation on files fails. The names have to be such that their
fingerprints tell them apart, and what is stored must read back from its text.
-/
namespace Workflow
open Storage

inductive StorageCall where
  | save (ns key : String) (v : Json)
  | load (ns : String) (key : Option String)
  | delete (ns : String) (key : Option String)
  | namespaces

inductive StorageAnswer where
  | saved
  | loaded (v : Option Json)
  | deleted (there : Bool)
  | namespaces (nss : List String)

namespace StorageCall

def names : StorageCall → List String
  | save ns key _ => [ns, key]
  | load ns key => ns :: key.toList
  | delete ns key => ns :: key.toList
  | namespaces => []

/-- What a call saves reads back from its text. -/
def Readable : StorageCall → Prop
  | save _ key v => Storage.Readable key v
  | _ => True

end StorageCall

namespace Backend
variable {σ : Type}

def call (b : Backend σ) : StorageCall → Attempt σ PersistenceError StorageAnswer
  | .save ns key v => (fun _ => .saved) <$> b.save ns key v
  | .load ns key => .loaded <$> b.load ns key
  | .delete ns key => .deleted <$> b.delete ns key
  | .namespaces => .namespaces <$> b.namespaces

/-- What calls give that are made one after the other, even if some fail. -/
def answers (b : Backend σ) : List StorageCall → σ → List (Except PersistenceError StorageAnswer)
  | [], _ => []
  | c :: calls, s => (b.call c s).1 :: b.answers calls (b.call c s).2

end Backend

namespace Storage
open Tree Attempt
variable {N : String → Prop} {vs : Values} {root : Path} {t : Tree}

/-- The directory at a path holds values, or is not there as long as there are none. -/
inductive Holds (N : String → Prop) (root : Path) : Values → Tree → Prop
  | there {vs : Values} {t : Tree} {dirs : Table Tree} :
      t.At root (.directory dirs) → Mirrors N vs dirs → Holds N root vs t
  | missing {t : Tree} : Blocked root t .notFound → Holds N root .empty t

namespace Holds

theorem start (h : t.find root = .ok .empty ∨ t.find root = .error .notFound) :
    Holds N root .empty t := by
  unfold Tree.find at h
  rcases checkPath_cases root with hpath | hpath <;> rw [hpath] at h <;> obtain h | h := h
  · exact .there ⟨hpath, h⟩ (.empty N)
  · exact .missing ⟨hpath, h⟩
  · cases h
  · cases h

theorem path (h : Holds N root vs t) : checkPath root = .ok ⟨⟩ := by
  cases h with
  | there hat => exact hat.path
  | missing hblocked => exact hblocked.path

/-- Once the directory is created it is there. -/
theorem reach (h : Holds N root vs t) :
    ∃ dirs, t.reach root = .ok (.directory dirs) ∧ Mirrors N vs dirs := by
  unfold Tree.reach
  cases h with
  | @there _ _ dirs hat hdirs =>
    rw [hat.leads]
    exact ⟨dirs, rfl, hdirs⟩
  | missing hblocked =>
    rw [hblocked.stops]
    exact ⟨.empty, rfl, .empty N⟩

variable {ns : String}

theorem save (hN : Apart N) (h : Holds N root vs t) (hns : N ns) {key : String} (hkey : N key)
    {v : Json} (hv : Readable key v) (hok : Undisturbed (saveValue root ns key v t).1) :
    (saveValue root ns key v t).1 = .ok () ∧
      Holds N root (vs.put ns key v) (saveValue root ns key v t).2 := by
  obtain ⟨dirs, hreach, hdirs⟩ := h.reach
  obtain ⟨hanswer, hat⟩ := saveValue_reach (hN.nameable ns hns) (hN.nameable key hkey) h.path
    hreach hok
  rw [hanswer] at hok ⊢
  obtain ⟨dirs', hsave, hdirs'⟩ := hdirs.saveValue hN hns hkey hv hok
  rw [hsave] at hat ⊢
  exact ⟨rfl, .there hat hdirs'⟩

theorem load (hN : Apart N) (h : Holds N root vs t) (hns : N ns) {key : Option String}
    (hkey : ∀ k ∈ key, N k) (hok : Undisturbed (loadValue root ns key t)) :
    loadValue root ns key t = .ok (vs.find ns key) := by
  have hname (k : String) (hk : k ∈ key) : Nameable k := hN.nameable k (hkey k hk)
  cases h with
  | there hat hdirs =>
    rw [loadValue_at (hN.nameable ns hns) hname hat] at hok ⊢
    exact hdirs.loadValue hN hns hkey hok
  | missing hblocked =>
    rw [loadValue_blocked (hN.nameable ns hns) hname
      (hblocked.append (checkPath_storageName ns)) hok, Values.find_of_none rfl]

theorem delete (hN : Apart N) (h : Holds N root vs t) (hns : N ns) {key : Option String}
    (hkey : ∀ k ∈ key, N k) (hok : Undisturbed (deleteValue root ns key t).1) :
    (deleteValue root ns key t).1 = .ok (vs.find ns key).isSome ∧
      Holds N root (vs.remove ns key) (deleteValue root ns key t).2 := by
  have hname (k : String) (hk : k ∈ key) : Nameable k := hN.nameable k (hkey k hk)
  cases h with
  | there hat hdirs =>
    obtain ⟨hanswer, hat⟩ := deleteValue_relocates (hN.nameable ns hns) hname _ _ hat
    rw [hanswer] at hok ⊢
    obtain ⟨dirs', hdelete, hdirs'⟩ := hdirs.deleteValue hN hns hkey hok
    rw [hdelete] at hat ⊢
    exact ⟨rfl, .there hat hdirs'⟩
  | missing hblocked =>
    rw [deleteValue_blocked (hN.nameable ns hns) hname
      (hblocked.append (checkPath_storageName ns)) hok, Values.find_of_none rfl,
      Values.remove_of_none rfl]
    exact ⟨rfl, .missing hblocked⟩

theorem list (hN : Apart N) (h : Holds N root vs t) : listSpaces root t = .ok vs.keys := by
  cases h with
  | there hat hdirs =>
    rw [listSpaces_at hat]
    exact hdirs.listSpaces hN
  | missing hblocked =>
    rw [listSpaces, hblocked.list]
    rfl

theorem map {α : Type} {a : Attempt Tree PersistenceError α}
    {m : Attempt Values PersistenceError α} {f : α → StorageAnswer}
    (ha : Undisturbed (a t).1 → (a t).1 = (m vs).1 ∧ Holds N root (m vs).2 (a t).2)
    (hok : Undisturbed ((f <$> a) t).1) :
    ((f <$> a) t).1 = ((f <$> m) vs).1 ∧ Holds N root ((f <$> m) vs).2 ((f <$> a) t).2 := by
  rw [map_apply] at hok ⊢
  rw [map_apply]
  obtain ⟨hanswer, hholds⟩ := ha hok.of_map
  exact ⟨congrArg (Except.map f) hanswer, hholds⟩

/-- A call of the directory is answered as in memory, and the directory holds afterwards what memory
does. -/
theorem call (hN : Apart N) (h : Holds N root vs t) {c : StorageCall} (hc : ∀ n ∈ c.names, N n)
    (hv : c.Readable) (hok : Undisturbed ((directory root).call c t).1) :
    ((directory root).call c t).1 = (Backend.memory.call c vs).1 ∧
      Holds N root (Backend.memory.call c vs).2 ((directory root).call c t).2 := by
  have hkeys {ns : String} {key : Option String} (hc : ∀ n ∈ ns :: key.toList, N n) :
      ∀ k ∈ key, N k :=
    fun k hk => hc k (List.mem_cons_of_mem ns (Option.mem_toList.mpr hk))
  cases c with
  | save ns key v =>
    have hkey : N key := hc key (List.mem_cons_of_mem ns List.mem_cons_self)
    exact map (fun hok => h.save hN (hc ns List.mem_cons_self) hkey hv hok) hok
  | load ns key =>
    have hns : N ns := hc ns List.mem_cons_self
    exact map (fun hok => ⟨h.load hN hns (hkeys hc) hok, h⟩) hok
  | delete ns key =>
    exact map (fun hok => h.delete hN (hc ns List.mem_cons_self) (hkeys hc) hok) hok
  | namespaces => exact map (fun _ => ⟨h.list hN, h⟩) hok

theorem answers (hN : Apart N) (h : Holds N root vs t) {calls : List StorageCall}
    (hcalls : ∀ c ∈ calls, ∀ n ∈ c.names, N n) (hvalues : ∀ c ∈ calls, c.Readable)
    (hok : ∀ r ∈ (directory root).answers calls t, Undisturbed r) :
    (directory root).answers calls t = Backend.memory.answers calls vs := by
  induction calls generalizing vs t with
  | nil => rfl
  | cons c calls ih =>
    rw [Backend.answers] at hok ⊢
    obtain ⟨hanswer, hholds⟩ := h.call hN (hcalls c List.mem_cons_self)
      (hvalues c List.mem_cons_self) (hok _ List.mem_cons_self)
    rw [Backend.answers, hanswer,
      ih hholds (fun c hc => hcalls c (List.mem_cons_of_mem _ hc))
        (fun c hc => hvalues c (List.mem_cons_of_mem _ hc))
        (fun r hr => hok r (List.mem_cons_of_mem _ hr))]

end Holds
end Storage

/-- A directory that is empty or not there answers calls as memory does. -/
theorem storage_answers_alike {root : Tree.Path} {t : Tree} {calls : List StorageCall}
    (hroot : t.find root = .ok .empty ∨ t.find root = .error .notFound)
    (hnames : ∀ c ∈ calls, ∀ n ∈ c.names, n ≠ "" ∧ n ≠ "." ∧ n ≠ "..")
    (hapart : ∀ c ∈ calls, ∀ d ∈ calls, ∀ a ∈ c.names, ∀ b ∈ d.names,
      a ≠ b → fingerprint a ≠ fingerprint b)
    (hvalues : ∀ ns key v, .save ns key v ∈ calls → Readable key v)
    (hfiles : ∀ r ∈ (directory root).answers calls t, Undisturbed r) :
    (directory root).answers calls t = Backend.memory.answers calls .empty := by
  let N (n : String) : Prop := ∃ c ∈ calls, n ∈ c.names
  have hN : Apart N := by
    constructor
    · rintro n ⟨c, hc, hn⟩
      obtain ⟨hempty, hhere, hup⟩ := hnames c hc n hn
      exact ⟨hempty, hhere, hup⟩
    · rintro a b ⟨c, hc, ha⟩ ⟨d, hd, hb⟩ hsame
      by_contra hne
      exact hapart c hc d hd a ha b hb hne hsame
  have hholds : Holds N root .empty t := .start hroot
  refine hholds.answers hN (fun c hc n hn => ⟨c, hc, hn⟩) (fun c hc => ?_) hfiles
  cases c with
  | save ns key v => exact hvalues ns key v hc
  | load ns key => trivial
  | delete ns key => trivial
  | namespaces => trivial

/-- Namespaces that differ only in characters that cannot stand in names of files are kept apart,
and a namespace stays when its last key is deleted. -/
theorem storage_answers_alike_slash :
    let calls : List StorageCall :=
      [.save "a/b" "k" (.str "1"), .save "a_b" "k" (.str "2"), .delete "a/b" (some "k"),
        .load "a/b" none, .delete "a/b" none, .delete "a/b" none, .load "a/b" none,
        .delete "a_b" (some "k"), .delete "a_b" none, .namespaces]
    (directory ["data"]).answers calls .empty =
      [.ok .saved, .ok .saved, .ok (.deleted true), .ok (.loaded (some (.obj .empty))),
        .ok (.deleted true), .ok (.deleted false), .ok (.loaded none), .ok (.deleted true),
        .ok (.deleted true), .ok (.namespaces [])] := by
  intro calls
  have hnames : ∀ c ∈ calls, ∀ n ∈ c.names, n ∈ ["a/b", "a_b", "k"] := by decide
  have hprints : ∀ a ∈ ["a/b", "a_b", "k"], ∀ b ∈ ["a/b", "a_b", "k"],
      a ≠ b → fingerprint a ≠ fingerprint b := by
    decide +kernel
  have hallowed : ∀ n ∈ ["a/b", "a_b", "k"], n ≠ "" ∧ n ≠ "." ∧ n ≠ ".." := by decide
  have hvalues : ∀ ns key v, StorageCall.save ns key v ∈ calls → Readable key v := by
    intro ns key v hcall
    simp only [calls, List.mem_cons, StorageCall.save.injEq, reduceCtorEq, List.not_mem_nil,
      or_false] at hcall
    obtain ⟨-, rfl, rfl⟩ | ⟨-, rfl, rfl⟩ := hcall <;> exact readable_text _ _
  have hfiles : ∀ r ∈ (directory ["data"]).answers calls .empty, Undisturbed r := by
    decide +kernel
  have halike := storage_answers_alike (.inr rfl) (fun c hc n hn => hallowed n (hnames c hc n hn))
    (fun c hc d hd a ha b hb => hprints a (hnames c hc a ha) b (hnames d hd b hb)) hvalues hfiles
  exact halike

end Workflow
