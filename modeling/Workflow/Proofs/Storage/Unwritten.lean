import Workflow.Proofs.Storage.Apart

/-!
# Objects that could not be written

An object is written as a whole or not at all: in memory it takes its place when the source has been
read to the end, and in files too, but then its directory is there already. Such a directory holds
no object. It can only let one see that the name of a file in it is too long, where before one found
nothing.
-/
namespace Workflow
open Attempt
variable {σ τ : Type}

namespace ObjectStore

/-- What a place shows of an object: the source of its bytes, and whether it is there. -/
def shown (o : ObjectStore σ) (place : StorePath) (x : σ) : Except ObjectError Source × Bool :=
  ((o.openSource place.ns place.key x).1, o.contains place.ns place.key x)

theorem bytes_eq_shown (o : ObjectStore σ) (place : StorePath) (x : σ) : o.bytes place x =
    (o.shown place x).1.bind fun source => source.drain.mapError .file := o.load_result _ _ x

/-- A place shows the same of an object before and after, or that a name of its file is too long
where no object was found before. -/
def Unaltered (o : ObjectStore σ) (place : StorePath) (x y : σ) : Prop :=
  o.shown place y = o.shown place x ∨
    o.shown place x = (.error (.notFound place.ns place.key), false) ∧
      o.shown place y = (.error (.file .nameTooLong), false)

/-- If an object cannot be written, all objects are as they were. -/
def Atomic (o : ObjectStore σ) : Prop :=
  ∀ ns key source x cause y, o.save ns key source x = (.error cause, y) →
    ∀ place, o.Unaltered place x y

theorem Atomic.through {o : ObjectStore σ} (h : o.Atomic) {p : Part τ σ} (hp : p.Lawful) :
    (o.through p).Atomic := by
  intro ns key source x cause y hsave place
  rcases hinner : o.save ns key source (p.get x) with ⟨r, z⟩
  have hlift : (o.through p).save ns key source x = (r, p.set z x) := by
    change ((o.save ns key source (p.get x)).1, p.set (o.save ns key source (p.get x)).2 x) = _
    rw [hinner]
  rw [hlift] at hsave
  cases hsave
  have hshown : (o.through p).shown place (p.set z x) = o.shown place z :=
    congrArg (o.shown place) (hp z x)
  rw [Unaltered, hshown]
  exact h ns key source (p.get x) cause z hinner place

theorem memory_atomic : memory.Atomic := by
  intro ns key source os cause os' hsave place
  have halter : Attempt.alter (fun os => (source.drain.mapError ObjectError.file).map
      fun bytes => (bytes.length, os.put ns key bytes)) os = (.error cause, os') := hsave
  obtain ⟨e, -, -, rfl⟩ | ⟨v, -, hok⟩ := alter_cases halter
  · exact .inl rfl
  · cases hok

/-- What a directory shows of an object is told by what the path of its file leads to. -/
theorem directory_shown {root : Tree.Path} {chunk : Nat} {place : StorePath} {t u : Tree}
    (h : ∀ dir file, objectPath root place.ns place.key = .ok (dir, file) →
      u.find file = t.find file) :
    (directory root chunk).shown place u = (directory root chunk).shown place t := by
  cases hpath : objectPath root place.ns place.key with
  | error e => simp [shown, directory, openFile, hpath, Attempt.look, bind, Except.bind]
  | ok found =>
    simp [shown, directory, openFile, hpath, Attempt.look, bind, Except.bind, Tree.isFile,
      h found.1 found.2 hpath]

theorem directory_shown_of_error {root dir file : Tree.Path} {chunk : Nat} {place : StorePath}
    {t : Tree} {cause : FileError} (hpath : objectPath root place.ns place.key = .ok (dir, file))
    (h : t.find file = .error cause) :
    (directory root chunk).shown place t = (.error (if cause = .notFound then
      .notFound place.ns place.key else .file cause), false) := by
  cases cause <;> simp [shown, directory, openFile, hpath, Attempt.look, bind, Except.bind,
    Tree.isFile, h, throw, throwThe, MonadExceptOf.throw]

theorem directory_unaltered {root : Tree.Path} {chunk : Nat} {place : StorePath} {t u : Tree}
    (h : ∀ dir file, objectPath root place.ns place.key = .ok (dir, file) →
      u.find file = t.find file ∨
        t.find file = .error .notFound ∧ u.find file = .error .nameTooLong) :
    (directory root chunk).Unaltered place t u := by
  by_cases hsame : ∀ dir file, objectPath root place.ns place.key = .ok (dir, file) →
    u.find file = t.find file
  · exact .inl (directory_shown hsame)
  push Not at hsame
  obtain ⟨dir, file, hpath, hne⟩ := hsame
  obtain ⟨hbefore, hafter⟩ := (h dir file hpath).resolve_left hne
  exact .inr ⟨directory_shown_of_error hpath hbefore, directory_shown_of_error hpath hafter⟩

theorem directory_atomic (root : Tree.Path) (chunk : Nat) : (directory root chunk).Atomic := by
  intro ns key source t cause u hsave place
  obtain rfl | ⟨dir', file', hpath', hafter⟩ := saveFile_outcome hsave
  · exact .inl rfl
  obtain rfl | ⟨_, _, hr, -⟩ := hafter
  · exact directory_unaltered fun dir file hpath =>
      Tree.find_createDirectories_cases (objectPath_beside hpath hpath') t
  · cases hr

namespace Unaltered
variable {o : ObjectStore σ} {place : StorePath} {x y : σ}

theorem contains (h : o.Unaltered place x y) :
    o.contains place.ns place.key y = o.contains place.ns place.key x := by
  obtain hsame | ⟨hbefore, hafter⟩ := h
  · exact congrArg Prod.snd hsame
  · exact (congrArg Prod.snd hafter).trans (congrArg Prod.snd hbefore).symm

/-- The bytes of an object are the same, or there are none. -/
theorem bytes (h : o.Unaltered place x y) : o.bytes place y = o.bytes place x ∨
    o.bytes place x = .error (.notFound place.ns place.key) ∧
      o.bytes place y = .error (.file .nameTooLong) := by
  rw [bytes_eq_shown, bytes_eq_shown]
  obtain hsame | ⟨hbefore, hafter⟩ := h
  · exact .inl (by rw [hsame])
  · exact .inr ⟨by rw [hbefore]; rfl, by rw [hafter]; rfl⟩

theorem ok_iff (h : o.Unaltered place x y) (bytes : Bytes) :
    o.bytes place y = .ok bytes ↔ o.bytes place x = .ok bytes := by
  obtain hsame | ⟨hbefore, hafter⟩ := h.bytes
  · rw [hsame]
  · rw [hbefore, hafter]
    exact iff_of_false nofun nofun

end Unaltered
end ObjectStore
end Workflow
