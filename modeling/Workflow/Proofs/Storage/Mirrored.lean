import Workflow.Proofs.Storage.Mirror
import Mathlib.Data.Set.List

/-!
# What is done in a directory that holds values

Where a directory mirrors values, each operation answers as the values do and leaves a directory
that mirrors them still, unless an operation on files fails.
-/
namespace Workflow.Storage
open Tree Attempt
variable {N : String → Prop} {ns key : String} {v : Json} {vs : Values} {values : Table Json}
  {dirs files : Table Tree} {p : Path} {t : Tree} {e : FileError} {α : Type}

theorem Undisturbed.notFound {r : Except PersistenceError α}
    (h : Undisturbed (if e = .notFound then r else .error (.file e))) : e = .notFound := by
  by_contra he
  rw [if_neg he] at h
  exact h e rfl

theorem Undisturbed.of_map {β : Type} {f : α → β} {r : Except PersistenceError α}
    (h : Undisturbed (r.map f)) : Undisturbed r := by
  intro cause hr
  rw [hr] at h
  exact h cause rfl

section Blocked

theorem readFile_blocked (h : Blocked p t e) (r : Decoder α) :
    readFile r p t = if e = .notFound then .ok none else .error (.file e) :=
  readFile_of_error h.read

theorem valueFiles_blocked (h : Blocked p t e) :
    valueFiles p t = if e = .notFound then .ok [] else .error (.file e) := by
  rw [valueFiles, h.list]
  cases e <;> rfl

theorem loadValue_blocked (hns : Nameable ns) {key : Option String} (hkey : ∀ k ∈ key, Nameable k)
    (h : Blocked (p ++ [storageName ns]) t e) (hok : Undisturbed (loadValue p ns key t)) :
    loadValue p ns key t = .ok none := by
  cases key with
  | some key =>
    rw [loadValue_key_eq hns (hkey key rfl),
      readFile_blocked (h.append (checkPath_keyName key))] at hok ⊢
    split at hok
    · rename_i he
      rw [if_pos he]
      rfl
    · exact absurd rfl (hok e)
  | none => rw [loadValue_space_eq hns, h.isDirectory, if_neg Bool.false_ne_true]

theorem removeFiles_blocked (h : Blocked p t .notFound) {names : List String}
    (hnames : ∀ name ∈ names, checkPath [name] = .ok ⟨⟩) :
    removeFiles p names t = (.ok false, t) := by
  induction names with
  | nil => rfl
  | cons name names ih =>
    have hfirst : Attempt.alter (fun t => onFiles (t.removeIfExists (p ++ [name]))) t =
        (.ok false, t) := by
      apply alter_of_ok
      rw [h.removeIfExists (hnames name List.mem_cons_self) (List.cons_ne_nil name [])]
      rfl
    rw [removeFiles, bind_of_ok hfirst,
      bind_of_ok (ih fun name hname => hnames name (List.mem_cons_of_mem _ hname))]
    rfl

theorem deleteValue_blocked (hns : Nameable ns) {key : Option String} (hkey : ∀ k ∈ key, Nameable k)
    (h : Blocked (p ++ [storageName ns]) t e) (hok : Undisturbed (deleteValue p ns key t).1) :
    deleteValue p ns key t = (.ok false, t) := by
  cases key with
  | some key =>
    rw [deleteValue_key_eq hns (hkey key rfl)] at hok ⊢
    have hremove := h.removeIfExists (checkPath_keyName key) (List.cons_ne_nil _ [])
    by_cases he : e = .notFound
    · rw [if_pos he] at hremove
      exact alter_of_ok (congrArg onFiles hremove)
    · rw [if_neg he] at hremove
      rw [alter_of_error (congrArg onFiles hremove)] at hok
      exact absurd rfl (hok e)
  | none =>
    rw [deleteValue_space_eq hns] at hok ⊢
    have hfiles : Attempt.look (valueFiles (p ++ [storageName ns])) t =
        (if e = .notFound then .ok [] else .error (.file e), t) :=
      congrArg (·, t) (valueFiles_blocked h)
    by_cases he : e = .notFound
    · subst he
      have hmarker : ∀ name ∈ [markerName], checkPath [name] = .ok ⟨⟩ := by
        intro name hname
        rw [List.mem_singleton.mp hname]
        exact checkPath_markerName
      have hspace : removeSpace (p ++ [storageName ns]) t = (.ok false, t) := by
        obtain ⟨cause, hcause⟩ := h.removeDirectory
        apply alter_of_ok
        rw [hcause]
      rw [bind_of_ok hfiles, bind_of_ok (removeFiles_blocked h (List.forall_mem_nil _)),
        bind_of_ok (removeFiles_blocked h hmarker), bind_of_ok hspace]
      rfl
    · rw [if_neg he] at hfiles
      rw [bind_of_error hfiles] at hok
      exact absurd rfl (hok e)

end Blocked

def isValueFile : String × Tree → Bool
  | (name, .file _) => isValueName name
  | (_, .directory _) => false

def valueNames (files : Table Tree) : List String :=
  (files.entries.filter isValueFile).map Prod.fst

theorem valueFiles_directory (files : Table Tree) :
    valueFiles [] (Tree.directory files) = .ok (valueNames files) := by
  change Except.ok ((files.entries.filter _).map Prod.fst) = _
  refine congrArg (fun es : List (String × Tree) => Except.ok (es.map Prod.fst)) ?_
  refine List.filter_congr ?_
  rintro ⟨name, found⟩ -
  cases found <;> rfl

namespace SpaceMirrors

theorem not_directory (h : SpaceMirrors N ns values files) (name : String) (fs : Table Tree) :
    files.get? name ≠ some (.directory fs) := by
  intro hget
  obtain rfl | ⟨key, hkey, rfl⟩ := h.only name (by rw [hget]; rfl)
  · rw [h.marker] at hget
    cases hget
  · rw [h.value key hkey] at hget
    cases hv : values.get? key <;> rw [hv] at hget <;> cases hget

theorem read_marker (h : SpaceMirrors N ns values files) :
    (Tree.directory files).read [markerName] = .ok (markerContent ns) := by
  rw [Tree.read, find_of_get? checkPath_markerName checkName_markerName h.marker]
  rfl

theorem get?_keyName (h : SpaceMirrors N ns values files) (hv : values.get? key = some v) :
    files.get? (keyName key) = some (.file (keyContent key v)) := by
  rw [h.value key (h.keys key v hv).1, hv]
  rfl

theorem read_key (h : SpaceMirrors N ns values files) (hv : values.get? key = some v) :
    (Tree.directory files).read [keyName key] = .ok (keyContent key v) := by
  have hget := h.get?_keyName hv
  rw [Tree.read, find_of_get? (checkPath_keyName key) (h.short _ (by rw [hget]; rfl)) hget]
  rfl

theorem readFile_key (h : SpaceMirrors N ns values files) (hv : values.get? key = some v) :
    readFile (storedRecord.decode "struct StoredValue") [keyName key] (Tree.directory files) =
      .ok (some (key, v)) :=
  readFile_keyContent (h.read_key hv) (h.keys key v hv).2

theorem load_key (h : SpaceMirrors N ns values files) (hkey : N key)
    (hok : Undisturbed
      (readFile (storedRecord.decode "struct StoredValue") [keyName key] (Tree.directory files))) :
    readFile (storedRecord.decode "struct StoredValue") [keyName key] (Tree.directory files) =
      .ok ((values.get? key).map (key, ·)) := by
  cases hv : values.get? key with
  | some v => exact h.readFile_key hv
  | none =>
    have hget : files.get? (keyName key) = none := by
      rw [h.value key hkey, hv]
      rfl
    obtain ⟨e, hblocked⟩ := blocked_of_none (checkPath_keyName key) hget
    rw [readFile_blocked hblocked] at hok ⊢
    rw [if_pos hok.notFound]
    rfl

/-- A file holds a value if it is that of a key. -/
theorem mem_valueNames (h : SpaceMirrors N ns values files) {name : String} :
    name ∈ valueNames files ↔ ∃ key v, values.get? key = some v ∧ keyName key = name := by
  constructor
  · intro hname
    obtain ⟨⟨name, found⟩, hfound, rfl⟩ := List.mem_map.mp hname
    obtain ⟨hentry, hvalue⟩ := List.mem_filter.mp hfound
    have hget : files.get? name = some found := h.sorted.get?_of_mem hentry
    obtain rfl | ⟨key, hkey, rfl⟩ := h.only name (by rw [hget]; rfl)
    · rw [h.marker] at hget
      cases hget
      rw [isValueFile, isValueName_markerName] at hvalue
      cases hvalue
    · rw [h.value key hkey] at hget
      obtain ⟨v, hv, -⟩ := Option.map_eq_some_iff.mp hget
      exact ⟨key, v, hv, rfl⟩
  · rintro ⟨key, v, hv, rfl⟩
    have hentry : (keyName key, Tree.file (keyContent key v)) ∈ files.entries :=
      h.sorted.mem_iff.mpr (h.get?_keyName hv)
    have hvalue : isValueFile (keyName key, Tree.file (keyContent key v)) = true := by
      rw [isValueFile, isValueName_keyName]
    exact List.mem_map.mpr ⟨_, List.mem_filter.mpr ⟨hentry, hvalue⟩, rfl⟩

/-- The files that hold values are those of the keys, in some order. -/
theorem valueFiles (hN : Apart N) (h : SpaceMirrors N ns values files) :
    ∃ pairs : List (String × Json),
      Storage.valueFiles [] (Tree.directory files) = .ok (pairs.map fun e => keyName e.1) ∧
        ∀ e, e ∈ pairs ↔ values.get? e.1 = some e.2 := by
  let stands (e : {e : String × Json // values.get? e.1 = some e.2}) : String := keyName e.1.1
  have hnames : valueNames files ∈ Set.range (List.map stands) := by
    rw [Set.range_list_map]
    intro name hname
    obtain ⟨key, v, hv, rfl⟩ := h.mem_valueNames.mp hname
    exact ⟨⟨(key, v), hv⟩, rfl⟩
  obtain ⟨pairs, hpairs⟩ := hnames
  refine ⟨pairs.map Subtype.val, ?_, fun e => ⟨fun he => ?_, fun he => ?_⟩⟩
  · rw [valueFiles_directory, ← hpairs, List.map_map]
    rfl
  · obtain ⟨f, -, rfl⟩ := List.mem_map.mp he
    exact f.2
  · have hname : keyName e.1 ∈ valueNames files := h.mem_valueNames.mpr ⟨e.1, e.2, he, rfl⟩
    rw [← hpairs] at hname
    obtain ⟨f, hf, hsame⟩ := List.mem_map.mp hname
    have hkeys : f.1.1 = e.1 := by
      by_contra hne
      exact hN.keyName_ne (h.keys _ _ f.2).1 (h.keys _ _ he).1 hne hsame
    have hvalues : f.1.2 = e.2 := Option.some.inj (f.2.symm.trans (hkeys ▸ he))
    exact List.mem_map.mpr ⟨f, hf, Prod.ext hkeys hvalues⟩

theorem readValues (h : SpaceMirrors N ns values files) {pairs : List (String × Json)}
    (hpairs : ∀ e ∈ pairs, values.get? e.1 = some e.2) (acc : Table Json) :
    Storage.readValues [] (Tree.directory files) (pairs.map fun e => keyName e.1) acc =
      .ok (acc.insertAll pairs) := by
  induction pairs generalizing acc with
  | nil => rfl
  | cons e pairs ih =>
    rw [List.map_cons, Storage.readValues, List.nil_append,
      h.readFile_key (hpairs e List.mem_cons_self)]
    exact ih (fun e he => hpairs e (List.mem_cons_of_mem _ he)) _

end SpaceMirrors

/-- Different texts in order are what sorting gives. -/
theorem sortTexts_eq {ts us : List String} (hts : ts.Nodup) (hus : us.Pairwise (· < ·))
    (h : ∀ s, s ∈ ts ↔ s ∈ us) : sortTexts ts = us := by
  have hus' : us.Pairwise (· ≤ ·) :=
    hus.imp fun hlt => String.not_lt.mp fun hgt => String.lt_irrefl _ (String.lt_trans hlt hgt)
  have hperm : (sortTexts ts).Perm us :=
    (List.mergeSort_perm ts _).trans
      ((List.perm_ext_iff_of_nodup hts (hus.imp fun hlt => String.ne_of_lt hlt)).mpr h)
  let le (a b : String) : Bool := a ≤ b
  have htrans (a b c : String) (hab : le a b) (hbc : le b c) : le a c :=
    decide_eq_true (String.le_trans (of_decide_eq_true hab) (of_decide_eq_true hbc))
  have htotal (a b : String) : le a b || le b a := by
    rw [Bool.or_eq_true]
    exact (String.le_total a b).imp decide_eq_true decide_eq_true
  have hle : (ts.mergeSort le).Pairwise (fun a b => le a b) :=
    List.pairwise_mergeSort htrans htotal ts
  have hsorted : (sortTexts ts).Pairwise (· ≤ ·) := hle.imp of_decide_eq_true
  exact hperm.eq_of_pairwise (fun s t _ _ => String.le_antisymm) hsorted hus'

namespace Mirrors

theorem at_space (h : Mirrors N vs dirs)
    (hget : dirs.get? (storageName ns) = some (.directory files)) :
    (Tree.directory dirs).At [storageName ns] (Tree.directory files) := by
  have hname := h.short _ (by rw [hget]; rfl)
  have hat := inside_at (checkPath_storageName ns) hname dirs files
  rw [inside_of_get? h.sorted hget] at hat
  exact hat

theorem loadValue (hN : Apart N) (h : Mirrors N vs dirs) (hns : N ns) {key : Option String}
    (hkey : ∀ k ∈ key, N k) (hok : Undisturbed (loadValue [] ns key (Tree.directory dirs))) :
    Storage.loadValue [] ns key (Tree.directory dirs) = .ok (vs.find ns key) := by
  have hspace := hN.nameable ns hns
  have hname (k : String) (hk : k ∈ key) : Nameable k := hN.nameable k (hkey k hk)
  obtain ⟨hvalues, hget⟩ | ⟨values, files, hvalues, hget, hfiles⟩ := h.space ns hns
  · obtain ⟨e, hblocked⟩ := blocked_of_none (checkPath_storageName ns) hget
    rw [loadValue_blocked hspace hname hblocked hok, Values.find_of_none hvalues]
  · have hat := h.at_space hget
    cases key with
    | some key =>
      rw [loadValue_key_eq hspace (hname key rfl), List.nil_append, readFile_at hat] at hok ⊢
      rw [hfiles.load_key (hkey key rfl) hok.of_map]
      rw [Values.find_key hvalues]
      cases values.get? key <;> rfl
    | none =>
      obtain ⟨pairs, hnames, hpairs⟩ := hfiles.valueFiles hN
      have hdirectory : (Tree.directory dirs).isDirectory [storageName ns] = true :=
        hat.isDirectory []
      have hnames' := (valueFiles_at hat []).trans hnames
      have hread := (readValues_at hat [] _ .empty).trans
        (hfiles.readValues (fun e he => (hpairs e).mp he) .empty)
      rw [← Table.ofList, hfiles.ordered.ofList_eq hpairs] at hread
      rw [loadValue_space_eq hspace, List.nil_append, if_pos hdirectory]
      rw [List.append_nil] at hnames' hread
      rw [hnames']
      change Except.map _ (readValues [storageName ns] _ _ _) = _
      rw [hread, Values.find, hvalues]
      rfl

/-- The markers tell the namespaces of the directories. -/
theorem readMarkers (h : Mirrors N vs dirs) {entries : List (String × Tree)}
    (hentries : ∀ e ∈ entries, e ∈ dirs.entries) :
    ∃ nss, Storage.readMarkers [] (Tree.directory dirs) entries = .ok nss ∧
      nss.map storageName = entries.map Prod.fst ∧ ∀ ns ∈ nss, (vs.get? ns).isSome := by
  induction entries with
  | nil => exact ⟨[], rfl, rfl, List.forall_mem_nil _⟩
  | cons e entries ih =>
    obtain ⟨name, found⟩ := e
    have hget : dirs.get? name = some found := h.sorted.get?_of_mem (hentries _ List.mem_cons_self)
    obtain ⟨ns, hns, rfl⟩ := h.only name (by rw [hget]; rfl)
    obtain ⟨-, hnone⟩ | ⟨values, files, hvalues, hspace, hfiles⟩ := h.space ns hns
    · rw [hnone] at hget
      cases hget
    · obtain rfl := Option.some.inj (hget.symm.trans hspace)
      obtain ⟨nss, hread, hnames, hthere⟩ := ih fun e he => hentries e (List.mem_cons_of_mem _ he)
      refine ⟨ns :: nss, ?_, congrArg (storageName ns :: ·) hnames, ?_⟩
      · have hmarker := (readFile_at (h.at_space hspace) _ [markerName]).trans
          (readFile_markerContent hfiles.read_marker)
        rw [Storage.readMarkers, List.nil_append]
        change (readFile _ ([storageName ns] ++ [markerName]) _ >>= _) = _
        rw [hmarker, hread]
        rfl
      · intro ns' hns'
        obtain rfl | hns' := List.mem_cons.mp hns'
        · rw [hvalues]
          rfl
        · exact hthere ns' hns'

theorem listSpaces (hN : Apart N) (h : Mirrors N vs dirs) :
    Storage.listSpaces [] (Tree.directory dirs) = .ok vs.keys := by
  obtain ⟨nss, hread, hnames, hthere⟩ := h.readMarkers fun e he => he
  have hnodup : nss.Nodup := by
    apply List.Nodup.of_map storageName
    rw [hnames]
    exact h.sorted.keys.imp fun hlt => String.ne_of_lt hlt
  have hmem (ns : String) : ns ∈ nss ↔ ns ∈ vs.keys := by
    refine ⟨fun hns => Table.mem_keys.mpr (hthere ns hns), fun hns => ?_⟩
    have hns := Table.mem_keys.mp hns
    have hN' := h.names ns hns
    obtain ⟨hnone, -⟩ | ⟨values, files, -, hspace, -⟩ := h.space ns hN'
    · rw [hnone] at hns
      cases hns
    · have hname : storageName ns ∈ nss.map storageName := by
        rw [hnames]
        exact Table.mem_keys.mpr (by rw [hspace]; rfl)
      obtain ⟨ns', hns', hsame⟩ := List.mem_map.mp hname
      by_contra hne
      refine hN.storageName_ne (h.names ns' (hthere ns' hns')) hN' ?_ hsame
      rintro rfl
      exact hne hns'
  change (Storage.readMarkers [] (Tree.directory dirs) dirs.entries).map sortTexts = _
  rw [hread]
  exact congrArg Except.ok (sortTexts_eq hnodup h.ordered.keys hmem)

end Mirrors

theorem writeFile_inside {name last : String} (hpath : checkPath [name] = .ok ⟨⟩)
    (hname : checkName name = .ok ⟨⟩) (hlast : checkPath [last] = .ok ⟨⟩)
    (hfile : ∀ fs, files.get? last ≠ some (.directory fs)) (members : List (String × Json))
    (dirs : Table Tree) :
    writeFile ([name] ++ [last]) members (inside dirs name files) =
      onFiles ((checkName last).map fun _ => inside dirs name
        (files.insert last (.file (Text.utf8 (Json.obj ⟨members⟩).pretty)))) := by
  rw [writeFile, write_inside hpath hname hlast hfile]

/-- A directory that is marked already stays as it is. -/
theorem SpaceMirrors.markSpace (h : SpaceMirrors N ns values files)
    (hname : checkName (storageName ns) = .ok ⟨⟩) (dirs : Table Tree) :
    Storage.markSpace [storageName ns] ns (inside dirs (storageName ns) files) =
      .ok ((), inside dirs (storageName ns) files) := by
  have hfile : (Tree.directory files).isFile [markerName] = true := by
    rw [Tree.isFile, find_of_get? checkPath_markerName checkName_markerName h.marker]
  have hat := inside_at (checkPath_storageName ns) hname dirs files
  rw [Storage.markSpace, hat.isFile, hfile]
  rfl

theorem markSpace_empty (hname : checkName (storageName ns) = .ok ⟨⟩) (dirs : Table Tree) :
    markSpace [storageName ns] ns (inside dirs (storageName ns) .empty) =
      .ok ((),
        inside dirs (storageName ns) (.singleton markerName (.file (markerContent ns)))) := by
  have hat := inside_at (checkPath_storageName ns) hname dirs .empty
  rw [markSpace, hat.isFile, writeFile_inside (checkPath_storageName ns) hname checkPath_markerName]
  · rfl
  · rintro fs ⟨⟩

namespace Mirrors

/-- The directory of a namespace is there once it is created and marked. -/
theorem prepare (h : Mirrors N vs dirs) (hns : N ns)
    (hname : checkName (storageName ns) = .ok ⟨⟩) :
    ∃ made marked, createDirectories [storageName ns] (Tree.directory dirs) =
        (.ok ⟨⟩, inside dirs (storageName ns) made) ∧
      markSpace [storageName ns] ns (inside dirs (storageName ns) made) =
        .ok ((), inside dirs (storageName ns) marked) ∧
      SpaceMirrors N ns (vs.space ns) marked := by
  have hcreate := createDirectories_entry (checkPath_storageName ns) dirs
  obtain ⟨hvalues, hget⟩ | ⟨values, files, hvalues, hget, hfiles⟩ := h.space ns hns
  · rw [hname, hget] at hcreate
    refine ⟨.empty, _, hcreate, markSpace_empty hname dirs, ?_⟩
    rw [Values.space, hvalues]
    exact .new N ns
  · rw [hname, hget] at hcreate
    refine ⟨files, files, hcreate, hfiles.markSpace hname dirs, ?_⟩
    rw [Values.space, hvalues]
    exact hfiles

theorem saveValue (hN : Apart N) (h : Mirrors N vs dirs) (hns : N ns) (hkey : N key)
    (hv : Readable key v) (hok : Undisturbed (saveValue [] ns key v (Tree.directory dirs)).1) :
    ∃ dirs', Storage.saveValue [] ns key v (Tree.directory dirs) = (.ok (), .directory dirs') ∧
      Mirrors N (vs.put ns key v) dirs' := by
  have hpath := checkPath_storageName ns
  rw [saveValue_eq (hN.nameable ns hns) (hN.nameable key hkey), List.nil_append] at hok ⊢
  obtain hname | hname := checkName_cases (storageName ns)
  · obtain ⟨made, marked, hmake, hmark, hspace⟩ := h.prepare hns hname
    have hmake : (createDirectories [storageName ns]).mapError PersistenceError.file
        (Tree.directory dirs) = (.ok ⟨⟩, inside dirs (storageName ns) made) := by
      rw [Attempt.mapError, hmake]
      rfl
    rw [bind_of_ok hmake, bind_of_ok (alter_of_ok hmark)] at hok ⊢
    have hwrite := writeFile_inside hpath hname (checkPath_keyName key)
      (hspace.not_directory _) [("key", .str key), ("value", v)] dirs
    obtain hshort | hlong := checkName_cases (keyName key)
    · rw [hshort] at hwrite
      refine ⟨_, alter_of_ok (congrArg (Except.map (((), ·))) hwrite), ?_⟩
      exact h.insert hN hns (hspace.put hN hkey hv hshort) hname
    · have hfail : Attempt.alter (fun t => (writeFile ([storageName ns] ++ [keyName key])
          [("key", .str key), ("value", v)] t).map (((), ·)))
            (inside dirs (storageName ns) marked) =
            (.error (.file .nameTooLong), inside dirs (storageName ns) marked) := by
        apply alter_of_error
        rw [hwrite, hlong]
        rfl
      rw [hfail] at hok
      exact absurd rfl (hok _)
  · have hmake : (createDirectories [storageName ns]).mapError PersistenceError.file
        (Tree.directory dirs) = (.error (.file .nameTooLong), Tree.directory dirs) := by
      rw [Attempt.mapError, createDirectories_entry hpath, hname]
      rfl
    rw [bind_of_error hmake] at hok
    exact absurd rfl (hok _)

theorem deleteValue_key (hN : Apart N) (h : Mirrors N vs dirs) (hns : N ns) (hkey : N key)
    (hok : Undisturbed (deleteValue [] ns (some key) (Tree.directory dirs)).1) :
    ∃ dirs', deleteValue [] ns (some key) (Tree.directory dirs) =
        (.ok (vs.find ns (some key)).isSome, .directory dirs') ∧
      Mirrors N (vs.remove ns (some key)) dirs' := by
  have hpath := checkPath_storageName ns
  obtain ⟨hvalues, hget⟩ | ⟨values, files, hvalues, hget, hfiles⟩ := h.space ns hns
  · obtain ⟨e, hblocked⟩ := blocked_of_none hpath hget
    refine ⟨dirs, ?_, ?_⟩
    · rw [deleteValue_blocked (hN.nameable ns hns) _ hblocked hok, Values.find_of_none hvalues]
      · rfl
      · rintro key ⟨⟩
        exact hN.nameable key hkey
    · rw [Values.remove_of_none hvalues]
      exact h
  · have hname := h.short _ (by rw [hget]; rfl)
    rw [deleteValue_key_eq (hN.nameable ns hns) (hN.nameable key hkey), List.nil_append,
      ← inside_of_get? h.sorted hget] at hok ⊢
    obtain hshort | hlong := checkName_cases (keyName key)
    · have hremove := removeIfExists_inside hpath hname (checkPath_keyName key) hshort
        hfiles.sorted (hfiles.not_directory _) dirs
      have hthere : (files.get? (keyName key)).isSome = (vs.find ns (some key)).isSome := by
        rw [hfiles.value key hkey, Values.find_key hvalues, Option.isSome_map]
      rw [hthere] at hremove
      refine ⟨_, alter_of_ok (congrArg onFiles hremove), ?_⟩
      rw [Values.remove_key hvalues]
      exact h.insert hN hns (hfiles.erase hN hkey) hname
    · have hfail : Attempt.alter (fun t =>
          onFiles (t.removeIfExists ([storageName ns] ++ [keyName key])))
          (inside dirs (storageName ns) files) =
            (.error (.file .nameTooLong), inside dirs (storageName ns) files) := by
        apply alter_of_error
        rw [removeIfExists_inside_long hpath hname (checkPath_keyName key) hlong]
        rfl
      rw [hfail] at hok
      exact absurd rfl (hok _)

end Mirrors

theorem removeFiles_inside {name : String} (hpath : checkPath [name] = .ok ⟨⟩)
    (hname : checkName name = .ok ⟨⟩) {names : List String}
    (hnames : ∀ last ∈ names, checkPath [last] = .ok ⟨⟩ ∧ checkName last = .ok ⟨⟩)
    (hfiles : files.Sorted) (hfile : ∀ last fs, files.get? last ≠ some (.directory fs))
    (dirs : Table Tree) :
    ∃ removed rest, removeFiles [name] names (inside dirs name files) =
        (.ok removed, inside dirs name rest) ∧
      rest.Sorted ∧ ∀ last, rest.get? last = if last ∈ names then none else files.get? last := by
  induction names generalizing files with
  | nil => exact ⟨false, files, rfl, hfiles, fun _ => rfl⟩
  | cons first names ih =>
    obtain ⟨hfirst, hshort⟩ := hnames first List.mem_cons_self
    have herase (last : String) (fs : Table Tree) :
        (files.erase first).get? last ≠ some (.directory fs) := by
      rw [Table.get?_erase]
      split
      · rintro ⟨⟩
      · exact hfile last fs
    obtain ⟨removed, rest, hremove, hrest, hget⟩ :=
      ih (fun last hlast => hnames last (List.mem_cons_of_mem _ hlast)) (hfiles.erase first) herase
    have hone : Attempt.alter (fun t => onFiles (t.removeIfExists ([name] ++ [first])))
        (inside dirs name files) =
          (.ok (files.get? first).isSome, inside dirs name (files.erase first)) :=
      alter_of_ok (congrArg onFiles
        (removeIfExists_inside hpath hname hfirst hshort hfiles (hfile first) dirs))
    refine ⟨(files.get? first).isSome || removed, rest, ?_, hrest, fun last => ?_⟩
    · rw [removeFiles, bind_of_ok hone, bind_of_ok hremove]
      rfl
    · rw [hget, Table.get?_erase]
      by_cases hlast : last = first <;> simp [hlast]

theorem removeSpace_inside {name : String} (hpath : checkPath [name] = .ok ⟨⟩)
    (hname : checkName name = .ok ⟨⟩) (hdirs : dirs.Sorted) (hfiles : files.isEmpty) :
    removeSpace [name] (inside dirs name files) = (.ok true, .directory (dirs.erase name)) := by
  apply alter_of_ok
  rw [removeDirectory, inside, alter_entry hpath, hname, Table.get?_insert_self]
  simp only [hfiles, if_true]
  rw [← hdirs.erase_insert name (.directory files)]
  rfl

namespace SpaceMirrors

/-- The files of a namespace are those that hold values, and the marker. -/
theorem mem_valueFiles (h : SpaceMirrors N ns values files) {pairs : List (String × Json)}
    (hpairs : ∀ e, e ∈ pairs ↔ values.get? e.1 = some e.2) {name : String}
    (hname : (files.get? name).isSome) :
    name = markerName ∨ name ∈ pairs.map fun e => keyName e.1 := by
  refine (h.only name hname).imp_right ?_
  rintro ⟨key, hkey, rfl⟩
  rw [h.value key hkey, Option.isSome_map] at hname
  obtain ⟨v, hv⟩ := Option.isSome_iff_exists.mp hname
  exact List.mem_map.mpr ⟨(key, v), (hpairs (key, v)).mpr hv, rfl⟩

theorem emptied (h : SpaceMirrors N ns values files) {pairs : List (String × Json)}
    (hpairs : ∀ e, e ∈ pairs ↔ values.get? e.1 = some e.2) {left : Table Tree}
    (hleft : ∀ last, left.get? last = if last ∈ [markerName] then none
      else if last ∈ pairs.map (fun e => keyName e.1) then none else files.get? last) :
    left.isEmpty := by
  apply Table.isEmpty_of_get?
  intro last
  rw [hleft]
  split
  · rfl
  · split
    · rfl
    · rename_i hmarker hvalue
      by_contra hsome
      rcases h.mem_valueFiles hpairs (Option.isSome_iff_ne_none.mpr hsome) with hlast | hlast
      · exact hmarker (List.mem_singleton.mpr hlast)
      · exact hvalue hlast

/-- The files that hold values are removed, then the marker, and then the directory. -/
theorem deleteSpace (hN : Apart N) (h : SpaceMirrors N ns values files) (hns : N ns)
    (hname : checkName (storageName ns) = .ok ⟨⟩) (hdirs : dirs.Sorted) :
    deleteValue [] ns none (inside dirs (storageName ns) files) =
      (.ok true, .directory (dirs.erase (storageName ns))) := by
  have hpath := checkPath_storageName ns
  obtain ⟨pairs, hnames, hpairs⟩ := h.valueFiles hN
  have hlist := (valueFiles_at (inside_at hpath hname dirs files) []).trans hnames
  have hfiles : Attempt.look (Storage.valueFiles [storageName ns])
      (inside dirs (storageName ns) files) =
        (.ok (pairs.map fun e => keyName e.1), inside dirs (storageName ns) files) := by
    rw [Attempt.look, ← hlist, List.append_nil]
  have hvalues : ∀ last ∈ pairs.map (fun e => keyName e.1),
      checkPath [last] = .ok ⟨⟩ ∧ checkName last = .ok ⟨⟩ := by
    intro last hlast
    obtain ⟨e, he, rfl⟩ := List.mem_map.mp hlast
    refine ⟨checkPath_keyName e.1, h.short _ ?_⟩
    rw [h.get?_keyName ((hpairs e).mp he)]
    rfl
  obtain ⟨removed, rest, hremove, hsorted, hget⟩ :=
    removeFiles_inside hpath hname hvalues h.sorted h.not_directory dirs
  have hmarker : ∀ last ∈ [markerName], checkPath [last] = .ok ⟨⟩ ∧ checkName last = .ok ⟨⟩ := by
    intro last hlast
    rw [List.mem_singleton.mp hlast]
    exact ⟨checkPath_markerName, checkName_markerName⟩
  have hrest (last : String) (fs : Table Tree) : rest.get? last ≠ some (.directory fs) := by
    rw [hget]
    split
    · rintro ⟨⟩
    · exact h.not_directory last fs
  obtain ⟨_, left, hmark, -, hleft⟩ := removeFiles_inside hpath hname hmarker hsorted hrest dirs
  have hempty : left.isEmpty := by
    refine h.emptied hpairs fun last => ?_
    rw [hleft, hget]
  have hgone := removeSpace_inside hpath hname hdirs hempty
  rw [deleteValue_space_eq (hN.nameable ns hns), List.nil_append, bind_of_ok hfiles,
    bind_of_ok hremove, bind_of_ok hmark, bind_of_ok hgone, Bool.or_true]
  rfl

end SpaceMirrors

namespace Mirrors

theorem deleteValue_space (hN : Apart N) (h : Mirrors N vs dirs) (hns : N ns)
    (hok : Undisturbed (deleteValue [] ns none (Tree.directory dirs)).1) :
    ∃ dirs', deleteValue [] ns none (Tree.directory dirs) =
        (.ok (vs.find ns none).isSome, .directory dirs') ∧
      Mirrors N (vs.remove ns none) dirs' := by
  have hpath := checkPath_storageName ns
  obtain ⟨hvalues, hget⟩ | ⟨values, files, hvalues, hget, hfiles⟩ := h.space ns hns
  · obtain ⟨e, hblocked⟩ := blocked_of_none hpath hget
    refine ⟨dirs, ?_, ?_⟩
    · rw [deleteValue_blocked (hN.nameable ns hns) _ hblocked hok, Values.find_of_none hvalues]
      · rfl
      · rintro key ⟨⟩
    · rw [Values.remove_of_none hvalues]
      exact h
  · have hname := h.short _ (by rw [hget]; rfl)
    have hdelete := hfiles.deleteSpace hN hns hname h.sorted
    rw [inside_of_get? h.sorted hget] at hdelete
    refine ⟨dirs.erase (storageName ns), ?_, ?_⟩
    · rw [hdelete, Values.find, hvalues]
      rfl
    · rw [Values.remove_space hvalues]
      exact h.erase hN hns

theorem deleteValue (hN : Apart N) (h : Mirrors N vs dirs) (hns : N ns) {key : Option String}
    (hkey : ∀ k ∈ key, N k) (hok : Undisturbed (deleteValue [] ns key (Tree.directory dirs)).1) :
    ∃ dirs', Storage.deleteValue [] ns key (Tree.directory dirs) =
        (.ok (vs.find ns key).isSome, .directory dirs') ∧
      Mirrors N (vs.remove ns key) dirs' := by
  cases key with
  | some key => exact h.deleteValue_key hN hns (hkey key rfl) hok
  | none => exact h.deleteValue_space hN hns hok

end Mirrors
end Workflow.Storage
