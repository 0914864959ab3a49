import Workflow.Proofs.Files.Tree
import Workflow.Proofs.Json.Record
import Workflow.Proofs.Json.Text
import Workflow.Proofs.Storage.Name

/-!
# Files that hold values

What a directory stores does not depend on where the directory is. What is written for a key or for
a namespace is read back from its file.
-/
namespace Workflow.Storage
open Tree Attempt
variable {p q : Path} {t u : Tree} {α : Type}

theorem spacePath_eq {ns : String} (hns : Nameable ns) (root : Path) :
    spacePath root ns = .ok (root ++ [storageName ns]) := by
  rw [spacePath, hns.storageName?]

theorem keyPath_eq {ns key : String} (hns : Nameable ns) (hkey : Nameable key) (root : Path) :
    keyPath root ns key = .ok (root ++ [storageName ns] ++ [keyName key]) := by
  rw [keyPath, hkey.storageName?, spacePath_eq hns]
  rfl

theorem readFile_at (h : t.At p u) (r : Decoder α) (q : Path) :
    readFile r (p ++ q) t = readFile r q u := by
  rw [readFile, h.read, ← readFile]

theorem valueFiles_at (h : t.At p u) (q : Path) : valueFiles (p ++ q) t = valueFiles q u := by
  rw [valueFiles, h.list, ← valueFiles]

theorem readValues_at (h : t.At p u) (q : Path) (names : List String) (values : Table Json) :
    readValues (p ++ q) t names values = readValues q u names values := by
  induction names generalizing values with
  | nil => rfl
  | cons name names ih =>
    rw [readValues, readValues, List.append_assoc, readFile_at h]
    congr 1
    funext found
    cases found <;> exact ih _

theorem readMarkers_at (h : t.At p u) (entries : List (String × Tree)) :
    readMarkers p t entries = readMarkers [] u entries := by
  induction entries with
  | nil => rfl
  | cons e entries ih =>
    obtain ⟨name, _ | _⟩ := e
    · exact ih
    · rw [readMarkers, readMarkers, readFile_at h, ih]
      rfl

theorem listSpaces_at (h : t.At p u) : listSpaces p t = listSpaces [] u := by
  have hlist := h.list []
  rw [List.append_nil] at hlist
  unfold listSpaces
  rw [hlist]
  cases u.list [] with
  | error e => cases e <;> rfl
  | ok entries =>
    dsimp only
    rw [readMarkers_at h]

theorem writeFile_moves (h : t.At p u) (hq : q ≠ []) (members : List (String × Json)) :
    Moves p ((writeFile (p ++ q) members t).map (((), ·)))
      ((writeFile q members u).map (((), ·))) := by
  unfold writeFile Tree.write
  obtain ⟨e, hu, ht⟩ | ⟨v, s, hu, ht, hs⟩ := h.alter_cases hq _ <;> rw [hu, ht]
  · exact .error _
  · exact .ok () hs

theorem removeIfExists_moves (h : t.At p u) (hq : q ≠ []) :
    Moves p (onFiles (t.removeIfExists (p ++ q))) (onFiles (u.removeIfExists q)) := by
  unfold Tree.removeIfExists Tree.remove
  obtain ⟨e, hu, ht⟩ | ⟨v, s, hu, ht, hs⟩ := h.alter_cases hq _ <;> rw [hu, ht]
  · cases e with
    | notFound => exact .ok false h
    | _ => exact .error _
  · exact .ok true hs

theorem removeFiles_relocates (names : List String) :
    Relocates p (removeFiles (p ++ q) names) (removeFiles q names) := by
  induction names with
  | nil => exact .pure false
  | cons name names ih =>
    rw [removeFiles, removeFiles]
    refine .bind (.alter fun t u h => ?_) fun removed => ih.bind fun others => .pure _
    rw [List.append_assoc]
    exact removeIfExists_moves h (by simp)

theorem removeSpace_relocates (hq : q ≠ []) :
    Relocates p (removeSpace (p ++ q)) (removeSpace q) := by
  refine .alter fun t u h => ?_
  unfold Tree.removeDirectory
  obtain ⟨e, hu, ht⟩ | ⟨v, s, hu, ht, hs⟩ := h.alter_cases hq _ <;> rw [hu, ht]
  · exact .ok false h
  · exact .ok true hs

/-- Marks a directory as that of a namespace, unless it is marked. -/
def markSpace (dir : Path) (ns : String) (t : Tree) : Except PersistenceError (Unit × Tree) :=
  if t.isFile (dir ++ [markerName]) then .ok ((), t)
  else (writeFile (dir ++ [markerName]) [("namespace", .str ns)] t).map (((), ·))

theorem saveValue_eq {ns key : String} (hns : Nameable ns) (hkey : Nameable key) (root : Path)
    (v : Json) :
    saveValue root ns key v =
      ((Tree.createDirectories (root ++ [storageName ns])).mapError .file >>= fun _ =>
        Attempt.alter (markSpace (root ++ [storageName ns]) ns) >>= fun _ =>
          Attempt.alter fun t => (writeFile (root ++ [storageName ns] ++ [keyName key])
            [("key", .str key), ("value", v)] t).map (((), ·))) := by
  unfold saveValue
  rw [keyPath_eq hns hkey, spacePath_eq hns]
  rfl

theorem loadValue_key_eq {ns key : String} (hns : Nameable ns) (hkey : Nameable key) (root : Path)
    (t : Tree) :
    loadValue root ns (some key) t =
      (readFile (storedRecord.decode "struct StoredValue")
        (root ++ [storageName ns] ++ [keyName key]) t).map (·.map Prod.snd) := by
  unfold loadValue
  dsimp only
  rw [keyPath_eq hns hkey]
  change (readFile _ _ t >>= _) = _
  cases readFile _ _ t <;> rfl

theorem loadValue_space_eq {ns : String} (hns : Nameable ns) (root : Path) (t : Tree) :
    loadValue root ns none t =
      if t.isDirectory (root ++ [storageName ns]) then
        valueFiles (root ++ [storageName ns]) t >>= fun names =>
          (readValues (root ++ [storageName ns]) t names .empty).map fun values =>
            some (.obj values)
      else .ok none := by
  unfold loadValue
  dsimp only
  rw [spacePath_eq hns]
  change (if !t.isDirectory (root ++ [storageName ns]) then _ else _) = _
  cases t.isDirectory (root ++ [storageName ns]) with
  | false => rfl
  | true =>
    simp only [Bool.not_true, Bool.false_eq_true, if_false, if_true]
    rfl

theorem deleteValue_space_eq {ns : String} (hns : Nameable ns) (root : Path) :
    deleteValue root ns none = do
      let names ← Attempt.look fun t => valueFiles (root ++ [storageName ns]) t
      let removed ← removeFiles (root ++ [storageName ns]) names
      let _ ← removeFiles (root ++ [storageName ns]) [markerName]
      let gone ← removeSpace (root ++ [storageName ns])
      return removed || gone := by
  unfold deleteValue
  rw [spacePath_eq hns]
  rfl

theorem deleteValue_key_eq {ns key : String} (hns : Nameable ns) (hkey : Nameable key)
    (root : Path) :
    deleteValue root ns (some key) = Attempt.alter fun t =>
      onFiles (t.removeIfExists (root ++ [storageName ns] ++ [keyName key])) := by
  unfold deleteValue
  dsimp only
  rw [keyPath_eq hns hkey]
  rfl

theorem markSpace_moves (h : t.At p u) (q : Path) (ns : String) :
    Moves p (markSpace (p ++ q) ns t) (markSpace q ns u) := by
  unfold markSpace
  rw [List.append_assoc, h.isFile]
  split
  · exact .ok () h
  · exact writeFile_moves h (by simp) _

def Undisturbed (r : Except PersistenceError α) : Prop := ∀ cause, r ≠ .error (.file cause)

instance (r : Except PersistenceError α) : Decidable (Undisturbed r) :=
  match r with
  | .ok _ => .isTrue fun _ h => nomatch h
  | .error (.file cause) => .isFalse fun h => h cause rfl
  | .error .serialization => .isTrue fun _ h => nomatch h
  | .error (.invalidName _) => .isTrue fun _ h => nomatch h

/-- Values are saved in a directory that is there as in one that has to be created. -/
theorem saveValue_reach {ns key : String} (hns : Nameable ns) (hkey : Nameable key) {v : Json}
    (hpath : checkPath p = .ok ⟨⟩) (hreach : t.reach p = .ok u)
    (hok : Undisturbed (saveValue p ns key v t).1) :
    (saveValue p ns key v t).1 = (saveValue [] ns key v u).1 ∧
      (saveValue p ns key v t).2.At p (saveValue [] ns key v u).2 := by
  have hname := checkPath_storageName ns
  have hwrites : Relocates p
      (Attempt.alter (markSpace (p ++ [storageName ns]) ns) >>= fun _ =>
        Attempt.alter fun t => (writeFile (p ++ [storageName ns] ++ [keyName key])
          [("key", .str key), ("value", v)] t).map (((), ·)))
      (Attempt.alter (markSpace [storageName ns] ns) >>= fun _ =>
        Attempt.alter fun t => (writeFile ([storageName ns] ++ [keyName key])
          [("key", .str key), ("value", v)] t).map (((), ·))) := by
    refine .bind (.alter fun t u h => markSpace_moves h _ ns) fun _ => .alter fun t u h => ?_
    rw [List.append_assoc]
    exact writeFile_moves h (by simp) _
  have hmake : (Tree.createDirectories (p ++ [storageName ns])).mapError PersistenceError.file t =
      ((t.createAt (p ++ [storageName ns])).1.mapError .file,
        (t.createAt (p ++ [storageName ns])).2) := by
    rw [Attempt.mapError, Tree.createDirectories, checkPath_append hpath, hname]
  rw [saveValue_eq hns hkey] at hok ⊢
  rw [saveValue_eq hns hkey]
  cases hcreate : (t.createAt (p ++ [storageName ns])).1 with
  | error e =>
    rw [hcreate] at hmake
    rw [bind_of_error hmake] at hok
    exact absurd rfl (hok e)
  | ok _ =>
    obtain ⟨u', hreach', hmade, hfollow⟩ := createAt_reach (List.cons_ne_nil _ []) hcreate
    obtain rfl := Except.ok.inj (hreach.symm.trans hreach')
    have hinner : (Tree.createDirectories [storageName ns]).mapError PersistenceError.file u =
        (.ok ⟨⟩, (u.createAt [storageName ns]).2) := by
      rw [Attempt.mapError, Tree.createDirectories, hname]
      exact Prod.ext (congrArg (Except.mapError _) hmade) rfl
    rw [hcreate] at hmake
    rw [bind_of_ok hmake, List.nil_append, bind_of_ok hinner]
    exact hwrites _ _ ⟨hpath, hfollow⟩

theorem deleteValue_relocates {ns : String} (hns : Nameable ns) {key : Option String}
    (hkey : ∀ k ∈ key, Nameable k) :
    Relocates p (deleteValue p ns key) (deleteValue [] ns key) := by
  cases key with
  | some key =>
    rw [deleteValue_key_eq hns (hkey key rfl), deleteValue_key_eq hns (hkey key rfl)]
    refine .alter fun t u h => ?_
    rw [List.append_assoc]
    exact removeIfExists_moves h (by simp)
  | none =>
    rw [deleteValue_space_eq hns, deleteValue_space_eq hns, List.nil_append]
    refine .bind (.look fun t u h => valueFiles_at h _) fun names => ?_
    refine .bind (removeFiles_relocates names) fun removed => ?_
    refine .bind (removeFiles_relocates _) fun _ => ?_
    exact .bind (removeSpace_relocates (by simp)) fun gone => .pure _

theorem loadValue_at {ns : String} (hns : Nameable ns) {key : Option String}
    (hkey : ∀ k ∈ key, Nameable k) (h : t.At p u) :
    loadValue p ns key t = loadValue [] ns key u := by
  cases key with
  | some key =>
    rw [loadValue_key_eq hns (hkey key rfl), loadValue_key_eq hns (hkey key rfl), List.append_assoc,
      readFile_at h]
    rfl
  | none =>
    rw [loadValue_space_eq hns, loadValue_space_eq hns, h.isDirectory, valueFiles_at h]
    simp only [readValues_at h, List.nil_append]

end Workflow.Storage
