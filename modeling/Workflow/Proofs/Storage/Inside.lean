import Workflow.Proofs.Lists
import Workflow.Proofs.Storage.Directory
import Workflow.Proofs.Storage.Footprint

/-!
# Storage stays in its directory

Whatever texts a namespace and a key are, the file of a value or of an object is in a directory of
the directory that the storage has been given, and it is found under one name there. Calls that are
not refused read and change nothing else, but for the marker of the namespace and for directories
that are created on the way.
-/
namespace Workflow
open Attempt

namespace Storage
open Tree

/-- A text that names one thing in a directory, and leads nowhere else. -/
structure Component (name : String) : Prop where
  nonempty : name ≠ ""
  not_here : name ≠ "."
  not_up : name ≠ ".."
  no_slash : '/' ∉ name.toList

/-- A text of letters, digits, hyphens and underscores. -/
def Plain (text : String) : Prop := ∀ c ∈ text.toList, c.isAlphanum ∨ c = '-' ∨ c = '_'

theorem Plain.notMem {text : String} (h : Plain text) {c : Char}
    (hc : ¬(c.isAlphanum ∨ c = '-' ∨ c = '_')) : c ∉ text.toList :=
  fun hmem => hc (h c hmem)

theorem Plain.append {a b : String} (ha : Plain a) (hb : Plain b) : Plain (a ++ b) := by
  intro c hc
  rw [String.toList_append] at hc
  exact (List.mem_append.mp hc).elim (ha c) (hb c)

theorem hexText_plain (bs : Bytes) : ∀ c ∈ hexText bs, c.isAlphanum := by
  have hdigit : ∀ d < 16, (Nat.digitChar d).isAlphanum := by decide
  intro c hc
  obtain ⟨b, -, hc⟩ := List.mem_flatMap.mp hc
  have hb := b.toNat_lt
  rcases List.mem_pair.mp hc with rfl | rfl
  · exact hdigit _ (by omega)
  · exact hdigit _ (by omega)

theorem storageName_plain (name : String) : Plain (storageName name) := by
  refine .append (.append ?_ ?_) ?_
  · intro c hc
    rw [String.toList_ofList] at hc
    obtain ⟨d, -, rfl⟩ := List.mem_map.mp hc
    split
    · rename_i hsafe
      simpa [isSafe, or_assoc] using hsafe
    · exact .inr (.inr rfl)
  · intro c hc
    obtain rfl : c = '-' := by simpa using hc
    exact .inr (.inl rfl)
  · intro c hc
    rw [fingerprint, String.toList_ofList] at hc
    exact .inl (hexText_plain _ c (List.mem_of_mem_take hc))

/-- A longer text than two dots is a component if it has no slash. -/
theorem Component.of_length {name : String} (h : 2 < name.toList.length)
    (hslash : '/' ∉ name.toList) : Component name where
  nonempty := by
    rintro rfl
    exact absurd h (by decide)
  not_here := by
    rintro rfl
    exact absurd h (by decide)
  not_up := by
    rintro rfl
    exact absurd h (by decide)
  no_slash := hslash

theorem storageName_length (name : String) : 2 < (storageName name).toList.length := by
  simp only [storageName, String.toList_append, List.length_append, fingerprint_length,
    digestLength]
  omega

theorem storageName_component (name : String) : Component (storageName name) :=
  .of_length (storageName_length name) ((storageName_plain name).notMem (by decide))

theorem keyName_component (key : String) : Component (keyName key) := by
  have hlist : (keyName key).toList = (storageName key).toList ++ extension.toList :=
    String.toList_append
  refine .of_length ?_ fun hslash => ?_
  · have := storageName_length key
    rw [hlist, List.length_append]
    omega
  · rw [hlist] at hslash
    rcases List.mem_append.mp hslash with hslash | hslash
    · exact (storageName_component key).no_slash hslash
    · revert hslash
      decide

theorem basename?_component {text name : String} (h : basename? text = some name) :
    Component name := by
  have hlast : ((text.splitOn "/").filter fun p => p != "" && p != ".").getLast? = some name := by
    unfold basename? at h
    split at h
    · cases h
    · exact h
  have hmem := List.mem_of_getLast? hlast
  obtain ⟨hcut, hkept⟩ := List.mem_filter.mp hmem
  rw [show "/" = String.singleton '/' from rfl, Text.splitOn_eq] at hcut
  obtain ⟨piece, hpiece, rfl⟩ := List.mem_map.mp hcut
  simp only [bne_iff_ne, Bool.and_eq_true] at hkept
  refine ⟨hkept.1, hkept.2, ?_, ?_⟩
  · intro hup
    rw [basename?, hlast, hup] at h
    cases h
  · rw [String.toList_ofList]
    exact List.notMem_of_mem_splitOn hpiece

theorem nameable_or (name : String) : Nameable name ∨ storageName? name = none := by
  by_cases h : Nameable name
  · exact .inl h
  · right
    rw [storageName?, sanitize?, if_pos (not_not.mp (mt nameable_iff.mpr h))]
    rfl

end Storage

/-- What a backend does for a key stays with one file of a directory and the marker beside it. -/
structure Backend.StaysAt (b : Backend Tree) (ns key : String) (dir : Tree.Path)
    (name : String) : Prop where
  save : ∀ v t, Tree.Saves dir (fun other => other = name ∨ other = Storage.markerName) t
    (b.save ns key v t).2
  saved : ∀ v t u, b.save ns key v t = (.ok ⟨⟩, u) →
    ∃ content, u.find (dir ++ [name]) = .ok (.file content)
  load : ∀ t, (b.load ns (some key) t).2 = t
  loaded : ∀ t u, u.find (dir ++ [name]) = t.find (dir ++ [name]) →
    (b.load ns (some key) u).1 = (b.load ns (some key) t).1
  delete : ∀ t, Tree.SameBut (· = dir ++ [name]) t (b.delete ns (some key) t).2

/-- What a backend does for a namespace as a whole stays with a directory, with the files of values
in it and with its marker. -/
structure Backend.StaysIn (b : Backend Tree) (ns : String) (dir : Tree.Path) : Prop where
  load : ∀ t, (b.load ns none t).2 = t
  loaded : ∀ t u, u.find dir = t.find dir → (b.load ns none u).1 = (b.load ns none t).1
  delete : ∀ t, Tree.SameBut (fun p => p = dir ∨ ∃ name,
    (Storage.isValueName name = true ∨ name = Storage.markerName) ∧ p = dir ++ [name]) t
    (b.delete ns none t).2

/-- A backend refuses a key because of a name, and does nothing. -/
structure Backend.Refuses {σ : Type} (b : Backend σ) (ns key name : String) : Prop where
  save : ∀ v x, b.save ns key v x = (.error (.invalidName name), x)
  load : ∀ x, b.load ns (some key) x = (.error (.invalidName name), x)
  delete : ∀ x, b.delete ns (some key) x = (.error (.invalidName name), x)

namespace Storage
open Tree
variable {root dir : Path} {ns key : String} {t u : Tree}

theorem writeFile_eq_ok {path : Path} {members : List (String × Json)}
    (h : writeFile path members t = .ok u) : ∃ content, t.write path content = .ok u :=
  ⟨_, ok_of_mapError h⟩

theorem markSpace_saves {names : String → Prop} (hmarker : names markerName)
    (h : markSpace dir ns t = .ok (⟨⟩, u)) : Saves dir names t u := by
  unfold markSpace at h
  split at h
  · cases h
    exact .refl dir names t
  · obtain ⟨v, hwrite, hv⟩ := ok_of_map h
    cases hv
    obtain ⟨content, hwrite⟩ := writeFile_eq_ok hwrite
    exact .write hmarker hwrite

theorem saveValue_meets (hns : Nameable ns) (hkey : Nameable key) (v : Json) :
    Meets (Saves (root ++ [storageName ns]) fun other => other = keyName key ∨ other = markerName)
      (fun _ => True) (fun _ => True) (saveValue root ns key v) := by
  rw [saveValue_eq hns hkey]
  refine .bind (Q := fun _ => True) ⟨fun s => ?_, fun _ _ _ => trivial, fun _ _ _ => trivial⟩
    fun _ _ => .bind (Q := fun _ => True) (.alter ?_ fun _ _ _ => trivial) fun _ _ =>
      .alter ?_ fun _ _ _ => trivial
  · exact .createDirectories _ _ s
  · exact fun s _ u h => ⟨markSpace_saves (.inr rfl) h, trivial⟩
  · intro s _ u h
    obtain ⟨w, hwrite, hw⟩ := ok_of_map h
    cases hw
    obtain ⟨content, hwrite⟩ := writeFile_eq_ok hwrite
    exact ⟨.write (.inl rfl) hwrite, trivial⟩

theorem saveValue_stores (hns : Nameable ns) (hkey : Nameable key) {v : Json}
    (h : saveValue root ns key v t = (.ok ⟨⟩, u)) :
    ∃ content, u.find (root ++ [storageName ns] ++ [keyName key]) = .ok (.file content) := by
  rw [saveValue_eq hns hkey] at h
  obtain ⟨_, _, -, h⟩ := ok_bind_cases h
  obtain ⟨_, _, -, h⟩ := ok_bind_cases h
  have hput := ok_alter_cases h
  obtain ⟨w, hwrite, hw⟩ := ok_of_map hput
  cases hw
  obtain ⟨content, hwrite⟩ := writeFile_eq_ok hwrite
  exact ⟨content, find_write hwrite⟩

theorem readFile_congr {α : Type} {path : Path} (h : u.find path = t.find path) (r : Decoder α) :
    readFile r path u = readFile r path t := by
  rw [readFile, Tree.read, h, ← Tree.read, ← readFile]

theorem loadValue_space_congr (hns : Nameable ns)
    (h : u.find (root ++ [storageName ns]) = t.find (root ++ [storageName ns])) :
    loadValue root ns none u = loadValue root ns none t := by
  rw [loadValue_space_eq hns, loadValue_space_eq hns]
  have hdirectory : u.isDirectory (root ++ [storageName ns]) =
      t.isDirectory (root ++ [storageName ns]) := by
    rw [Tree.isDirectory, h, ← Tree.isDirectory]
  have hfiles :
      valueFiles (root ++ [storageName ns]) u = valueFiles (root ++ [storageName ns]) t := by
    rw [valueFiles, Tree.list, h, ← Tree.list, ← valueFiles]
  rw [hdirectory, hfiles]
  cases hfind : t.find (root ++ [storageName ns]) with
  | error e =>
    rw [Tree.isDirectory, hfind]
    rfl
  | ok s =>
    have inside {w : Tree} (hw : w.find (root ++ [storageName ns]) = .ok s) :
        w.At (root ++ [storageName ns]) s := by
      obtain ⟨_, hpath, hleads⟩ := ok_of_bind hw
      exact ⟨hpath, hleads⟩
    have hvalues (names : List String) :
        readValues (root ++ [storageName ns]) u names .empty =
          readValues (root ++ [storageName ns]) t names .empty := by
      have hu := readValues_at (inside (h.trans hfind)) [] names .empty
      have ht := readValues_at (inside hfind) [] names .empty
      rw [List.append_nil] at hu ht
      rw [hu, ht]
    simp only [hvalues]

theorem valueFiles_isValueName {names : List String} (h : valueFiles dir t = .ok names) :
    ∀ name ∈ names, isValueName name = true := by
  unfold valueFiles at h
  split at h
  · cases h
    nofun
  · cases h
  · cases h
    intro name hname
    obtain ⟨⟨_, entry⟩, hentry, rfl⟩ := List.mem_map.mp hname
    obtain ⟨-, hvalue⟩ := List.mem_filter.mp hentry
    cases entry with
    | file => exact hvalue
    | directory => cases hvalue

theorem removeFiles_meets {P : Path → Prop} {names : List String}
    (h : ∀ name ∈ names, P (dir ++ [name])) :
    Meets (Tree.SameBut P) (fun _ => True) (fun _ => True) (removeFiles dir names) := by
  induction names with
  | nil => exact .pure trivial
  | cons name names ih =>
    obtain ⟨hname, hrest⟩ := List.forall_mem_cons.mp h
    rw [removeFiles]
    refine .bind (Q := fun _ => True) (.alter ?_ fun _ _ _ => trivial) fun _ _ =>
      .bind (ih hrest) fun _ _ => .pure trivial
    intro s found v hremove
    refine ⟨(sameBut_of_removeIfExists (ok_of_mapError hremove)).mono ?_, trivial⟩
    rintro p rfl
    exact hname

theorem removeSpace_meets {P : Path → Prop} (h : P dir) :
    Meets (Tree.SameBut P) (fun _ => True) (fun _ => True) (removeSpace dir) := by
  refine .alter ?_ fun _ _ _ => trivial
  intro s found v hremove
  split at hremove
  · rename_i w hw
    cases hremove
    refine ⟨(sameBut_of_removeDirectory hw).mono ?_, trivial⟩
    rintro p rfl
    exact h
  · cases hremove
    exact ⟨.refl P _, trivial⟩

theorem deleteValue_space_meets (hns : Nameable ns) (root : Path) :
    Meets (Tree.SameBut fun p => p = root ++ [storageName ns] ∨ ∃ name,
        (isValueName name = true ∨ name = markerName) ∧ p = root ++ [storageName ns] ++ [name])
      (fun _ => True) (fun _ => True) (deleteValue root ns none) := by
  rw [deleteValue_space_eq hns]
  refine .bind (.look (fun _ _ h => valueFiles_isValueName h) fun _ _ _ => trivial)
    fun names hnames => .bind (removeFiles_meets ?_) fun _ _ => .bind (removeFiles_meets ?_)
      fun _ _ => .bind (removeSpace_meets (.inl rfl)) fun _ _ => .pure trivial
  · exact fun name hname => .inr ⟨name, .inl (hnames name hname), rfl⟩
  · exact List.forall_mem_singleton.mpr (.inr ⟨markerName, .inr rfl, rfl⟩)

theorem directory_staysAt (hns : Nameable ns) (hkey : Nameable key) (root : Path) :
    (directory root).StaysAt ns key (root ++ [storageName ns]) (keyName key) where
  save v t := (saveValue_meets hns hkey v).changes t
  saved _ _ _ h := saveValue_stores hns hkey h
  load _ := rfl
  loaded t u h := by
    change loadValue root ns (some key) u = loadValue root ns (some key) t
    rw [loadValue_key_eq hns hkey, loadValue_key_eq hns hkey, readFile_congr h]
  delete t := by
    have hdelete : Meets (Tree.SameBut (· = root ++ [storageName ns] ++ [keyName key]))
        (fun _ => True) (fun _ => True) (deleteValue root ns (some key)) := by
      rw [deleteValue_key_eq hns hkey]
      refine .alter (fun s found v h => ⟨?_, trivial⟩) fun _ _ _ => trivial
      exact sameBut_of_removeIfExists (ok_of_mapError h)
    exact hdelete.changes t

theorem directory_staysIn (hns : Nameable ns) (root : Path) :
    (directory root).StaysIn ns (root ++ [storageName ns]) where
  load _ := rfl
  loaded _ _ h := loadValue_space_congr hns h
  delete t := (deleteValue_space_meets hns root).changes t

/-- A key or a namespace without a name is refused. -/
theorem directory_refuses (root : Path) (h : storageName? ns = none ∨ storageName? key = none) :
    ∃ name ∈ [ns, key], (directory root).Refuses ns key name := by
  obtain ⟨name, hname, hpath⟩ : ∃ name ∈ [ns, key],
      keyPath root ns key = .error (.invalidName name) := by
    cases hkey : storageName? key with
    | none =>
      refine ⟨key, by simp, ?_⟩
      rw [keyPath, hkey]
    | some stem =>
      refine ⟨ns, by simp, ?_⟩
      rw [keyPath, hkey, spacePath, h.resolve_right (by simp [hkey])]
      rfl
  refine ⟨name, hname, fun v t => ?_, fun t => ?_, fun t => ?_⟩
  · change saveValue root ns key v t = _
    rw [saveValue, hpath]
    rfl
  · change (loadValue root ns (some key) t, t) = _
    rw [loadValue, hpath]
    rfl
  · change deleteValue root ns (some key) t = _
    rw [deleteValue, hpath]
    rfl

theorem directory_refuses_space (root : Path) (h : storageName? ns = none) (t : Tree) :
    (directory root).load ns none t = (.error (.invalidName ns), t) ∧
      (directory root).delete ns none t = (.error (.invalidName ns), t) := by
  have hpath : spacePath root ns = .error (.invalidName ns) := by rw [spacePath, h]
  constructor
  · change (loadValue root ns none t, t) = _
    rw [loadValue, hpath]
    rfl
  · change deleteValue root ns none t = _
    rw [deleteValue, hpath]
    rfl

end Storage

/-- What a place for objects does for a key stays with one file of a directory. -/
structure ObjectStore.StaysAt (o : ObjectStore Tree) (ns key : String) (dir : Tree.Path)
    (name : String) : Prop where
  save : ∀ source t, Tree.Saves dir (· = name) t (o.save ns key source t).2
  saved : ∀ source n t u, o.save ns key source t = (.ok n, u) →
    ∃ content, u.find (dir ++ [name]) = .ok (.file content)
  openSource : ∀ t, (o.openSource ns key t).2 = t
  seen : ∀ t u, u.find (dir ++ [name]) = t.find (dir ++ [name]) →
    (o.openSource ns key u).1 = (o.openSource ns key t).1 ∧
      o.contains ns key u = o.contains ns key t
  delete : ∀ t, Tree.SameBut (· = dir ++ [name]) t (o.delete ns key t).2

/-- A place for objects refuses a key because of a name, and does nothing. -/
structure ObjectStore.Refuses {σ : Type} (o : ObjectStore σ) (ns key name : String) : Prop where
  save : ∀ source x, o.save ns key source x = (.error (.invalidName name), x)
  openSource : ∀ x, o.openSource ns key x = (.error (.invalidName name), x)
  delete : ∀ x, o.delete ns key x = (.error (.invalidName name), x)
  contains : ∀ x, o.contains ns key x = false

namespace ObjectStore
open Storage
variable {ns key : String}

theorem directory_staysAt (root : Tree.Path) (chunk : Nat) {first last : String}
    (hns : basename? ns = some first) (hkey : basename? key = some last) :
    (directory root chunk).StaysAt ns key (root ++ [first]) last := by
  have hpath : objectPath root ns key = .ok (root ++ [first], root ++ [first] ++ [last]) := by
    rw [objectPath, hns, hkey, List.append_assoc]
    rfl
  refine ⟨fun source t => ?_, fun source n t u h => ?_, fun t => rfl, fun t u h => ?_, fun t => ?_⟩
  · rcases hsave : saveFile root (if chunk = 0 then defaultChunk else chunk) ns key source t with
      ⟨r, u⟩
    change Tree.Saves _ _ t (saveFile root _ ns key source t).2
    rw [hsave]
    obtain rfl | ⟨dir, file, hfile, hafter⟩ := saveFile_outcome hsave
    · exact .refl _ _ _
    cases hpath.symm.trans hfile
    have hmade := Tree.Saves.createDirectories (root ++ [first]) (· = last) t
    obtain rfl | ⟨n, bytes, -, hwrite⟩ := hafter
    · exact hmade
    · exact hmade.trans (.write rfl hwrite)
  · obtain ⟨dir, file, bytes, v, hfile, -, hwrite⟩ := saveFile_cases h
    cases hpath.symm.trans hfile
    exact ⟨bytes, Tree.find_write hwrite⟩
  · constructor
    · refine openFile_congr fun dir file hfile => ?_
      cases hpath.symm.trans hfile
      exact h
    · simp only [directory, hpath]
      rw [Tree.isFile, h, ← Tree.isFile]
  · have hdelete : Meets (Tree.SameBut (· = root ++ [first] ++ [last])) (fun _ => True)
        (fun _ => True) (Attempt.alter (deleteFile root ns key)) := by
      refine .alter (fun s found v h => ⟨?_, trivial⟩) fun _ _ _ => trivial
      rw [deleteFile, hpath] at h
      exact Tree.sameBut_of_removeIfExists (ok_of_mapError h)
    exact hdelete.changes t

/-- A key or a namespace without a last part is refused. -/
theorem directory_refuses (root : Tree.Path) (chunk : Nat)
    (h : basename? ns = none ∨ basename? key = none) :
    ∃ name ∈ [ns, key], (directory root chunk).Refuses ns key name := by
  obtain ⟨name, hname, hpath⟩ : ∃ name ∈ [ns, key],
      objectPath root ns key = .error (.invalidName name) := by
    cases hns : basename? ns with
    | none =>
      refine ⟨ns, by simp, ?_⟩
      rw [objectPath, hns]
    | some first =>
      refine ⟨key, by simp, ?_⟩
      rw [objectPath, hns, h.resolve_left (by simp [hns])]
  refine ⟨name, hname, fun source t => ?_, fun t => ?_, fun t => ?_, fun t => ?_⟩
  · change saveFile root _ ns key source t = _
    rw [saveFile, hpath]
    rfl
  · change (openFile root _ ns key t, t) = _
    rw [openFile, hpath]
    rfl
  · change Attempt.alter (deleteFile root ns key) t = _
    rw [Attempt.alter, deleteFile, hpath]
    rfl
  · simp only [directory, hpath]

end ObjectStore

open Storage in
/-- Storage of values and of objects stays in its directory, whatever texts the namespace and the
key are. Either both have names that lead nowhere else, and a call for them reads, writes or deletes
the file that these names lead to and nothing else, the marker and new directories aside; or the
call is refused because of a name before anything is done. Names of stored values are made of
letters, digits, hyphens and underscores. -/
theorem storage_inside (base root : Tree.Path) (chunk : Nat) (ns key : String) :
    ((∃ dir name stem, Component dir ∧ Plain dir ∧
        Component name ∧ name = stem ++ ".json" ∧ Plain stem ∧
        (Storage.directory base).StaysAt ns key (base ++ [dir]) name) ∨
      ∃ bad ∈ [ns, key], (Storage.directory base).Refuses ns key bad) ∧
    ((∃ dir, Component dir ∧ Plain dir ∧ (Storage.directory base).StaysIn ns (base ++ [dir])) ∨
      ∀ t, (Storage.directory base).load ns none t = (.error (.invalidName ns), t) ∧
        (Storage.directory base).delete ns none t = (.error (.invalidName ns), t)) ∧
    ((∃ dir name, Component dir ∧ Component name ∧
        (ObjectStore.directory root chunk).StaysAt ns key (root ++ [dir]) name) ∨
      ∃ bad ∈ [ns, key], (ObjectStore.directory root chunk).Refuses ns key bad) := by
  refine ⟨?_, ?_, ?_⟩
  · obtain hns | hns := nameable_or ns
    · obtain hkey | hkey := nameable_or key
      · exact .inl ⟨storageName ns, keyName key, storageName key, storageName_component ns,
          storageName_plain ns, keyName_component key, rfl, storageName_plain key,
          directory_staysAt hns hkey base⟩
      · exact .inr (directory_refuses base (.inr hkey))
    · exact .inr (directory_refuses base (.inl hns))
  · obtain hns | hns := nameable_or ns
    · exact .inl ⟨storageName ns, storageName_component ns, storageName_plain ns,
        directory_staysIn hns base⟩
    · exact .inr (directory_refuses_space base hns)
  · cases hns : basename? ns with
    | none => exact .inr (ObjectStore.directory_refuses root chunk (.inl hns))
    | some dir =>
      cases hkey : basename? key with
      | none => exact .inr (ObjectStore.directory_refuses root chunk (.inr hkey))
      | some name =>
        exact .inl ⟨dir, name, basename?_component hns, basename?_component hkey,
          ObjectStore.directory_staysAt root chunk hns hkey⟩

end Workflow
