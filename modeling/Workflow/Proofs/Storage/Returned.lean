import Workflow.Proofs.Binary.Source
import Workflow.Proofs.Files.Tree
import Workflow.Proofs.Storage.Honest
import Workflow.Proofs.Storage.Objects

/-!
# Objects that are read back

An object that was written is read back as what its source delivers, from memory and from files,
however many bytes are written and read at a time.
-/
namespace Workflow
open Attempt
variable {σ τ : Type}

/-- What was written at a place with success is what the source delivers, and it is read there. -/
def ObjectStore.Returns (o : ObjectStore σ) : Prop :=
  ∀ ns key source x n y, o.save ns key source x = (.ok n, y) →
    ∃ bytes opened, Source.drain source = .ok bytes ∧
      (o.openSource ns key y).1 = .ok opened ∧ opened.drain = .ok bytes

namespace ObjectStore

/-- All bytes of an object are what the source of the object delivers. -/
theorem load_result (o : ObjectStore σ) (ns key : String) (x : σ) :
    (o.load ns key x).1 =
      (o.openSource ns key x).1.bind fun source => source.drain.mapError .file := by
  rw [ObjectStore.load, bind_apply]
  rcases o.openSource ns key x with ⟨_ | _, _⟩ <;> rfl

theorem Returns.through {o : ObjectStore σ} (h : o.Returns) {p : Part τ σ} (hp : p.Lawful) :
    (o.through p).Returns := by
  intro ns key source x n y hsave
  rcases hinner : o.save ns key source (p.get x) with ⟨r, z⟩
  have hlift : (o.through p).save ns key source x = (r, p.set z x) := by
    change ((o.save ns key source (p.get x)).1, p.set (o.save ns key source (p.get x)).2 x) = _
    rw [hinner]
  rw [hlift] at hsave
  cases hsave
  obtain ⟨bytes, opened, hsource, hopen, hdrain⟩ := h ns key source _ n z hinner
  refine ⟨bytes, opened, hsource, ?_, hdrain⟩
  change (o.openSource ns key (p.get (p.set z x))).1 = _
  rw [hp, hopen]

theorem memory_returns : memory.Returns := by
  intro ns key source os n os' hsave
  have halter : Attempt.alter (fun os => (source.drain.mapError ObjectError.file).map
      fun bytes => (bytes.length, os.put ns key bytes)) os = (.ok n, os') := hsave
  have hwrite := ok_alter_cases halter
  obtain ⟨bytes, hdrain, hput⟩ := ok_of_map hwrite
  cases hput
  refine ⟨bytes, .ofBytes bytes, ok_of_mapError hdrain, ?_, Source.drain_ofBytes bytes⟩
  have hfind := Objects.find_put os ns key bytes ns key
  rw [if_pos ⟨rfl, rfl⟩] at hfind
  simp only [memory, Attempt.look, hfind]

theorem saveFile_cases {root : Tree.Path} {chunk n : Nat} {ns key : String} {source : Source}
    {t u : Tree} (h : saveFile root chunk ns key source t = (.ok n, u)) :
    ∃ dir path bytes v, objectPath root ns key = .ok (dir, path) ∧
      (source.chunked chunk).drain = .ok bytes ∧ Tree.write path bytes v = .ok u := by
  obtain ⟨⟨dir, path⟩, _, hpath, h⟩ := ok_bind_cases h
  obtain ⟨_, v, -, h⟩ := ok_bind_cases h
  obtain ⟨bytes, w, hread, h⟩ := ok_bind_cases h
  have hput := ok_alter_cases h
  obtain ⟨x, hwrite, hx⟩ := ok_of_map hput
  cases hx
  exact ⟨dir, path, bytes, w, congrArg Prod.fst hpath,
    ok_of_mapError (congrArg Prod.fst hread), ok_of_mapError hwrite⟩

theorem openFile_of_find {root path dir : Tree.Path} {chunk : Nat} {ns key : String}
    {bytes : Bytes} {t : Tree} (hpath : objectPath root ns key = .ok (dir, path))
    (hfind : t.find path = .ok (.file bytes)) :
    openFile root chunk ns key t = .ok ((Source.ofBytes bytes).chunked chunk) := by
  rw [openFile, hpath]
  simp only [bind, Except.bind, hfind]
  rfl

theorem directory_returns (root : Tree.Path) (chunk : Nat) : (directory root chunk).Returns := by
  intro ns key source t n u hsave
  obtain ⟨dir, path, bytes, v, hpath, hread, hwrite⟩ := saveFile_cases hsave
  rw [Source.drain_chunked] at hread
  refine ⟨bytes, _, hread, openFile_of_find hpath (Tree.find_write hwrite), ?_⟩
  rw [Source.drain_chunked, Source.drain_ofBytes]

end ObjectStore
end Workflow
