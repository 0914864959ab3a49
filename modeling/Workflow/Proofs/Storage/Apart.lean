import Workflow.Proofs.Storage.Returned

/-!
# Objects in different files

What is done at the end of a path leaves alone what another path leads to, unless one of them leads
through the other. So objects in files are apart if the last parts of their namespaces or of their
keys differ; the rest of these names does not count.
-/
namespace Workflow
open Attempt
variable {σ τ β : Type}

namespace Tree
variable {f : Option Tree → Except FileError (Option Tree)} {p q : Path} {t u : Tree}

/-- All names of a path are short enough to stand in directories. -/
def Fits (p : Path) : Prop := ∀ name ∈ p, checkName name = .ok ⟨⟩

/-- Neither of two paths leads through the other one. -/
structure Apart (p q : Path) : Prop where
  left : ¬p <+: q
  right : ¬q <+: p

theorem follow_cons_congr {entries files : Table Tree} {name : String}
    (h : files.get? name = entries.get? name) (p : Path) :
    (directory files).follow (name :: p) = (directory entries).follow (name :: p) := by
  rw [follow, follow, h]

theorem follow_insert_self {name : String} (hname : checkName name = .ok ⟨⟩)
    (entries : Table Tree) (t : Tree) (p : Path) :
    (directory (entries.insert name t)).follow (name :: p) = t.follow p := by
  rw [follow, hname]
  simp only [Table.get?_insert_self]
  rfl

theorem follow_of_some {name : String} {entries : Table Tree} (hname : checkName name = .ok ⟨⟩)
    (h : entries.get? name = some t) (p : Path) :
    (directory entries).follow (name :: p) = t.follow p := by
  rw [follow, hname, h]
  rfl

theorem follow_of_none {name : String} {entries : Table Tree} (hname : checkName name = .ok ⟨⟩)
    (h : entries.get? name = none) (p : Path) :
    (directory entries).follow (name :: p) = .error .notFound := by
  rw [follow, hname, h]
  rfl

/-- No name of a path is too long if all are short enough. -/
theorem follow_ne_nameTooLong (h : Fits p) (t : Tree) : t.follow p ≠ .error .nameTooLong := by
  induction p generalizing t with
  | nil => nofun
  | cons name p ih =>
    obtain ⟨hname, hrest⟩ := List.forall_mem_cons.mp h
    cases t with
    | file => nofun
    | directory entries =>
      cases hget : entries.get? name with
      | some v =>
        rw [follow_of_some hname hget]
        exact ih hrest v
      | none =>
        rw [follow_of_none hname hget]
        nofun

/-- What was replaced has names that fit. -/
theorem fits_of_alterAt (h : t.alterAt f p = .ok u) : Fits p := by
  induction p generalizing t u with
  | nil => exact List.forall_mem_nil _
  | cons name p ih =>
    cases t with
    | file => cases h
    | directory entries =>
      cases p with
      | nil =>
        rw [alterAt] at h
        obtain ⟨_, hname, -⟩ := ok_of_bind h
        exact List.forall_mem_singleton.mpr hname
      | cons next rest =>
        rw [alterAt] at h
        · obtain ⟨_, hname, h⟩ := ok_of_bind h
          cases hget : entries.get? name with
          | none =>
            rw [hget] at h
            cases h
          | some v =>
            rw [hget] at h
            obtain ⟨w, hw, -⟩ := ok_of_bind h
            exact List.forall_mem_cons.mpr ⟨hname, ih hw⟩
        · exact fun hnil => List.cons_ne_nil next rest hnil

/-- Replacing what is at the end of a path leaves alone what is at the end of one apart. -/
theorem follow_alterAt_of_apart (hpq : Apart p q) (h : t.alterAt f q = .ok u) :
    u.follow p = t.follow p := by
  induction q generalizing p t u with
  | nil => exact absurd List.nil_prefix hpq.right
  | cons name q ih =>
    cases p with
    | nil => exact absurd List.nil_prefix hpq.left
    | cons first p =>
      cases t with
      | file => cases h
      | directory entries =>
        cases q with
        | nil =>
          have hne : first ≠ name := by
            rintro rfl
            exact hpq.right (List.prefix_append [first] p)
          rw [alterAt] at h
          obtain ⟨_, -, h⟩ := ok_of_bind h
          obtain ⟨new, -, h⟩ := ok_of_bind h
          cases new with
          | some v =>
            cases h
            exact follow_cons_congr (Table.get?_insert_of_ne _ hne _) p
          | none =>
            cases h
            apply follow_cons_congr
            rw [Table.get?_erase, if_neg hne]
        | cons next rest =>
          rw [alterAt] at h
          · obtain ⟨_, hname, h⟩ := ok_of_bind h
            cases hget : entries.get? name with
            | none =>
              rw [hget] at h
              cases h
            | some v =>
              rw [hget] at h
              obtain ⟨w, hw, h⟩ := ok_of_bind h
              cases h
              by_cases hsame : first = name
              · subst hsame
                rw [follow_insert_self hname, follow_of_some hname hget]
                refine ih ⟨fun hp => hpq.left ?_, fun hp => hpq.right ?_⟩ hw
                · exact List.cons_prefix_cons.mpr ⟨rfl, hp⟩
                · exact List.cons_prefix_cons.mpr ⟨rfl, hp⟩
              · exact follow_cons_congr (Table.get?_insert_of_ne _ hsame _) p
          · exact fun hnil => List.cons_ne_nil next rest hnil

/-- The first of the directories that are created is already there, or cannot be, or is put where it
belongs. -/
theorem createAt_cases (name : String) (q : Path) (entries : Table Tree) :
    ((directory entries).createAt (name :: q)).2 = .directory entries ∨
      ((directory entries).createAt (name :: q)).2 = .directory
        (entries.insert name (((entries.get? name).getD empty).createAt q).2) := by
  cases hname : checkName name with
  | error e =>
    left
    unfold createAt
    rw [hname]
  | ok _ =>
    cases q with
    | cons next rest =>
      right
      rw [createAt_cons hname (List.cons_ne_nil next rest)]
    | nil =>
      cases hget : entries.get? name with
      | none =>
        right
        unfold createAt
        simp only [hname, hget]
        rfl
      | some v =>
        cases v with
        | file content =>
          left
          unfold createAt
          rw [hname, hget]
        | directory files =>
          right
          unfold createAt
          simp only [hname, hget]
          rfl

/-- Creating directories leaves alone what a path leads to, unless they lead through it. Only where
nothing was found before, one may now get as far as a name that is too long. -/
theorem follow_createAt_cases (hpq : ¬p <+: q) (t : Tree) :
    (t.createAt q).2.follow p = t.follow p ∨
      t.follow p = .error .notFound ∧ (t.createAt q).2.follow p = .error .nameTooLong := by
  induction q generalizing p t with
  | nil => exact .inl rfl
  | cons name q ih =>
    cases p with
    | nil => exact absurd List.nil_prefix hpq
    | cons first p =>
      cases t with
      | file => exact .inl rfl
      | directory entries =>
        obtain hsame | hput := createAt_cases name q entries
        · rw [hsame]
          exact .inl rfl
        rw [hput]
        by_cases hne : first = name
        · subst hne
          have hbelow : ¬p <+: q := fun hp => hpq (List.cons_prefix_cons.mpr ⟨rfl, hp⟩)
          cases hname : checkName first with
          | error e =>
            rw [follow, follow, hname]
            exact .inl rfl
          | ok _ =>
            rw [follow_insert_self hname]
            cases hget : entries.get? first with
            | some v =>
              rw [follow_of_some hname hget]
              exact ih hbelow v
            | none =>
              rw [follow_of_none hname hget]
              cases p with
              | nil => exact absurd List.nil_prefix hbelow
              | cons next p =>
                obtain hempty | ⟨-, hlong⟩ := ih hbelow empty
                · rw [Option.getD_none, hempty]
                  obtain hnext | hnext := checkName_cases next
                  · exact .inl (follow_of_none hnext rfl p)
                  · exact .inr ⟨rfl, by rw [empty, follow, hnext]; rfl⟩
                · exact .inr ⟨rfl, hlong⟩
        · exact .inl (follow_cons_congr (Table.get?_insert_of_ne _ hne _) p)

/-- Where all names are short enough, what was not found before is not found either when there are
more directories on the way. -/
theorem follow_createAt (hfits : Fits p) (hpq : ¬p <+: q) (t : Tree) :
    (t.createAt q).2.follow p = t.follow p :=
  (follow_createAt_cases hpq t).resolve_right fun h => follow_ne_nameTooLong hfits _ h.2

theorem find_alter_of_apart (hpq : Apart p q) (h : t.alter f q = .ok u) : u.find p = t.find p := by
  obtain ⟨_, -, h⟩ := ok_of_bind h
  rw [find, find, follow_alterAt_of_apart hpq h]

theorem find_createDirectories_cases (hpq : ¬p <+: q) (t : Tree) :
    (createDirectories q t).2.find p = t.find p ∨
      t.find p = .error .notFound ∧ (createDirectories q t).2.find p = .error .nameTooLong := by
  unfold createDirectories
  cases checkPath q with
  | error e => exact .inl rfl
  | ok _ =>
    rw [find, find]
    cases checkPath p with
    | error e => exact .inl rfl
    | ok _ => exact follow_createAt_cases hpq t

theorem find_createDirectories (hfits : Fits p) (hpq : ¬p <+: q) (t : Tree) :
    (createDirectories q t).2.find p = t.find p := by
  unfold createDirectories
  cases checkPath q with
  | error e => rfl
  | ok _ => rw [find, find, follow_createAt hfits hpq]

end Tree

/-- Two paths have the same last parts, so that they mean the same file. -/
inductive StorePath.SameFile (p q : StorePath) : Prop
  | intro {dir name : String} :
    Storage.basename? p.ns = some dir → Storage.basename? p.key = some name →
    Storage.basename? q.ns = some dir → Storage.basename? q.key = some name → SameFile p q

namespace ObjectStore
variable {root dir file : Tree.Path} {chunk : Nat} {ns key : String} {path : StorePath}
  {t u : Tree}

theorem objectPath_cases (h : objectPath root ns key = .ok (dir, file)) :
    ∃ first last, Storage.basename? ns = some first ∧ Storage.basename? key = some last ∧
      dir = root ++ [first] ∧ file = root ++ [first, last] := by
  unfold objectPath at h
  cases hns : Storage.basename? ns with
  | none =>
    rw [hns] at h
    cases h
  | some first =>
    cases hkey : Storage.basename? key with
    | none =>
      rw [hns, hkey] at h
      cases h
    | some last =>
      rw [hns, hkey] at h
      cases h
      exact ⟨first, last, rfl, rfl, rfl, rfl⟩

/-- Objects with different last parts are in files apart. -/
theorem objectPath_apart {dir' file' : Tree.Path}
    (h : objectPath root path.ns path.key = .ok (dir, file))
    (h' : objectPath root ns key = .ok (dir', file')) (hne : ¬path.SameFile ⟨ns, key⟩) :
    Tree.Apart file file' := by
  obtain ⟨first, last, hns, hkey, -, rfl⟩ := objectPath_cases h
  obtain ⟨first', last', hns', hkey', -, rfl⟩ := objectPath_cases h'
  have hnames : [first, last] ≠ [first', last'] := by
    intro hsame
    cases hsame
    exact hne ⟨hns, hkey, hns', hkey'⟩
  constructor
  · intro hp
    exact hnames (((List.prefix_append_right_inj root).mp hp).eq_of_length rfl)
  · intro hp
    exact hnames (((List.prefix_append_right_inj root).mp hp).eq_of_length rfl).symm

/-- The directory of an object does not lead through the file of one. -/
theorem objectPath_beside {dir' file' : Tree.Path}
    (h : objectPath root path.ns path.key = .ok (dir, file))
    (h' : objectPath root ns key = .ok (dir', file')) : ¬file <+: dir' := by
  obtain ⟨first, last, -, -, -, rfl⟩ := objectPath_cases h
  obtain ⟨first', last', -, -, rfl, -⟩ := objectPath_cases h'
  intro hp
  have hlength := hp.length_le
  simp at hlength

theorem openFile_congr (h : ∀ dir file, objectPath root ns key = .ok (dir, file) →
    u.find file = t.find file) : openFile root chunk ns key u = openFile root chunk ns key t := by
  unfold openFile
  cases hpath : objectPath root ns key with
  | error e => rfl
  | ok place =>
    obtain ⟨dir, file⟩ := place
    simp only [bind, Except.bind, h dir file hpath]

/-- The names of the file of an object fit, if it can be in a file at all. -/
def Fits (root : Tree.Path) (path : StorePath) : Prop :=
  ∀ dir file, objectPath root path.ns path.key = .ok (dir, file) → Tree.Fits file

/-- What was written has names that fit. -/
theorem fits_of_saveFile {source : Source} {n : Nat}
    (h : saveFile root chunk ns key source t = (.ok n, u)) : Fits root ⟨ns, key⟩ := by
  obtain ⟨dir, file, bytes, v, hpath, -, hwrite⟩ := saveFile_cases h
  obtain ⟨_, -, halter⟩ := ok_of_bind hwrite
  intro dir' file' hpath'
  cases hpath.symm.trans hpath'
  exact Tree.fits_of_alterAt halter

/-- A write that is not refused at once creates directories, and goes on to write the file unless
it fails. -/
theorem saveFile_outcome {source : Source} {r : Except ObjectError Nat}
    (h : saveFile root chunk ns key source t = (r, u)) :
    u = t ∨ ∃ dir file, objectPath root ns key = .ok (dir, file) ∧
      (u = (Tree.createDirectories dir t).2 ∨ ∃ n bytes, r = .ok n ∧
        Tree.write file bytes (Tree.createDirectories dir t).2 = .ok u) := by
  obtain ⟨e, hlook, -⟩ | ⟨⟨dir, file⟩, v, hlook, h⟩ := bind_cases h
  · exact .inl (congrArg Prod.snd hlook).symm
  obtain ⟨hpath, rfl⟩ := Prod.mk.inj hlook
  refine .inr ⟨dir, file, hpath, ?_⟩
  obtain ⟨e, hcreate, -⟩ | ⟨_, v, hcreate, h⟩ := bind_cases h
  · exact .inl (congrArg Prod.snd hcreate).symm
  obtain rfl : (Tree.createDirectories dir t).2 = v := congrArg Prod.snd hcreate
  obtain ⟨e, hread, -⟩ | ⟨bytes, v, hread, h⟩ := bind_cases h
  · exact .inl (congrArg Prod.snd hread).symm
  obtain ⟨-, rfl⟩ := Prod.mk.inj hread
  obtain ⟨e, -, -, rfl⟩ | ⟨n, hwrite, rfl⟩ := alter_cases h
  · exact .inl rfl
  · obtain ⟨x, hok, hx⟩ := ok_of_map hwrite
    cases hx
    exact .inr ⟨_, bytes, rfl, ok_of_mapError hok⟩

/-- An object in a file concerns the paths with the same last parts, and no others. -/
theorem openFile_onlyAt (hfits : Fits root path) (chunk n : Nat) :
    (directory root chunk).OnlyAt path.SameFile (openFile root n path.ns path.key) where
  openSource _ _ _ := rfl
  delete ns key t hne := by
    rcases hdelete : Attempt.alter (deleteFile root ns key) t with ⟨r, u⟩
    change openFile root n path.ns path.key (Attempt.alter (deleteFile root ns key) t).2 = _
    rw [hdelete]
    obtain ⟨e, -, -, rfl⟩ | ⟨found, hfile, -⟩ := alter_cases hdelete
    · rfl
    obtain ⟨⟨dir', file'⟩, hpath', hfile⟩ := ok_of_bind hfile
    have hremove := ok_of_mapError hfile
    unfold Tree.removeIfExists at hremove
    split at hremove
    · rename_i v hv
      cases hremove
      exact openFile_congr fun dir file hpath =>
        Tree.find_alter_of_apart (objectPath_apart hpath hpath' hne) hv
    · cases hremove
      rfl
    · cases hremove
  save ns key source t hsame := by
    generalize hm : (if chunk = 0 then defaultChunk else chunk) = m
    rcases hsave : saveFile root m ns key source t with ⟨r, u⟩
    have hdirectory : (directory root chunk).save ns key source t = (r, u) := by
      subst hm
      exact hsave
    rw [hdirectory] at hsame ⊢
    obtain rfl | ⟨dir', file', hpath', hafter⟩ := saveFile_outcome hsave
    · rfl
    apply openFile_congr
    intro dir file hpath
    have hcreate := Tree.find_createDirectories (hfits dir file hpath)
      (objectPath_beside hpath hpath') t
    obtain rfl | ⟨size, bytes, rfl, hwrite⟩ := hafter
    · exact hcreate
    · refine (Tree.find_alter_of_apart (objectPath_apart hpath hpath' fun hp => ?_) hwrite).trans
        hcreate
      obtain ⟨e, he⟩ := hsame hp
      cases he

theorem OnlyAt.through {o : ObjectStore σ} {P : StorePath → Prop} {view : σ → β}
    (h : o.OnlyAt P view) {p : Part τ σ} (hp : p.Lawful) :
    (o.through p).OnlyAt P fun x => view (p.get x) where
  openSource ns key x := (congrArg view (hp _ x)).trans (h.openSource ns key (p.get x))
  delete ns key x hne := (congrArg view (hp _ x)).trans (h.delete ns key (p.get x) hne)
  save ns key source x hsame :=
    (congrArg view (hp _ x)).trans (h.save ns key source (p.get x) hsame)

theorem bytes_through (o : ObjectStore σ) (p : Part τ σ) (path : StorePath) (x : τ) :
    (o.through p).bytes path x = o.bytes path (p.get x) := by
  rw [bytes, bytes, load_result, load_result]
  rfl

/-- The bytes of an object in a file concern the paths with the same last parts, and no others. -/
theorem directory_onlyAt {p : Part τ Tree} (hp : p.Lawful) (hfits : Fits root path)
    (chunk : Nat) :
    ((directory root chunk).through p).OnlyAt path.SameFile
      (((directory root chunk).through p).bytes path) := by
  have hbytes : ((directory root chunk).through p).bytes path = fun x =>
      (openFile root (if chunk = 0 then defaultChunk else chunk) path.ns path.key
        (p.get x)).bind fun source => source.drain.mapError .file := by
    funext x
    rw [bytes_through, bytes, load_result]
    rfl
  rw [hbytes]
  exact ((openFile_onlyAt hfits chunk (if chunk = 0 then defaultChunk else chunk)).through
    hp).map fun found => found.bind fun source => source.drain.mapError .file

end ObjectStore
end Workflow
