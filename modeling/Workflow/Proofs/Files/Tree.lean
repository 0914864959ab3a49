import Workflow.Proofs.Attempt
import Workflow.Proofs.Table
import Workflow.Files.Tree

/-!
# Trees inside trees

What is done below a directory is done in the tree that this directory is, which then takes its
place. A path that leads through a directory is looked at, written and created in two parts, first
the way to the directory and then the rest.
-/
namespace Workflow.Tree
variable {f : Option Tree → Except FileError (Option Tree)} {p q : Path} {t u v : Tree}

theorem checkPath_cases (p : Path) : checkPath p = .ok ⟨⟩ ∨ checkPath p = .error .badName := by
  unfold checkPath
  split
  · exact .inr rfl
  · exact .inl rfl

theorem checkPath_append (h : checkPath p = .ok ⟨⟩) (q : Path) :
    checkPath (p ++ q) = checkPath q := by
  unfold checkPath at h ⊢
  rw [List.any_append]
  split at h
  · cases h
  · rename_i hp
    rw [Bool.not_eq_true] at hp
    rw [hp, Bool.false_or]

theorem follow_append (p q : Path) (t : Tree) :
    t.follow (p ++ q) = t.follow p >>= follow q := by
  induction p generalizing t with
  | nil => rfl
  | cons name p ih =>
    cases t with
    | file => rfl
    | directory entries =>
      rw [List.cons_append, follow, follow]
      cases checkName name with
      | error e => rfl
      | ok _ =>
        cases entries.get? name with
        | none => rfl
        | some t => exact ih t

/-- The tree with another one at the end of a path. -/
def graft : Path → Tree → Tree → Tree
  | [], u, _ => u
  | _ :: _, _, .file content => .file content
  | name :: rest, u, .directory entries =>
    .directory (entries.insert name (graft rest u ((entries.get? name).getD empty)))

theorem follow_graft (h : t.follow p = .ok v) (u : Tree) : (graft p u t).follow p = .ok u := by
  induction p generalizing t with
  | nil => rfl
  | cons name p ih =>
    cases t with
    | file => cases h
    | directory entries =>
      rw [graft, follow]
      rw [follow] at h
      cases hname : checkName name with
      | error e =>
        rw [hname] at h
        cases h
      | ok _ =>
        rw [hname] at h
        cases hget : entries.get? name with
        | none =>
          rw [hget] at h
          cases h
        | some t =>
          rw [hget] at h
          simp only [Table.get?_insert_self]
          exact ih h

/-- Replacing what is behind a path is replacing it in the tree that the path leads to. -/
theorem alterAt_append (hq : q ≠ []) (f : Option Tree → Except FileError (Option Tree)) (p : Path)
    (t : Tree) :
    t.alterAt f (p ++ q) =
      t.follow p >>= fun u => (u.alterAt f q).map fun u => graft p u t := by
  induction p generalizing t with
  | nil =>
    change t.alterAt f q = (t.alterAt f q).map id
    cases t.alterAt f q <;> rfl
  | cons name p ih =>
    obtain ⟨next, rest, hrest⟩ : ∃ next rest, p ++ q = next :: rest :=
      List.exists_cons_of_ne_nil (List.append_ne_nil_of_right_ne_nil p hq)
    cases t with
    | file => rfl
    | directory entries =>
      rw [List.cons_append, hrest, alterAt, follow, ← hrest]
      · cases checkName name with
        | error e => rfl
        | ok _ =>
          cases hget : entries.get? name with
          | none => rfl
          | some t =>
            change (t.alterAt f (p ++ q) >>= _) = (t.follow p >>= _)
            rw [ih]
            cases t.follow p with
            | error e => rfl
            | ok u =>
              cases hu : u.alterAt f q with
              | error e => simp [hu, bind, Except.bind, Except.map]
              | ok v => simp [hu, hget, bind, Except.bind, Except.map, graft, pure, Except.pure]
      · exact fun h => List.cons_ne_nil next rest h

/-- What is put at the end of a path, in the place of what the path leads to, is what the path leads
to then. -/
theorem follow_alterAt (h : t.alterAt f p = .ok v) :
    ∃ new, f (t.follow p).toOption = .ok new ∧ ∀ u ∈ new, v.follow p = .ok u := by
  induction p generalizing t v with
  | nil =>
    rw [alterAt] at h
    obtain ⟨new, hf, h⟩ := Attempt.ok_of_bind h
    cases new with
    | none => cases h
    | some u =>
      cases h
      exact ⟨some v, hf, fun w hw => congrArg Except.ok (Option.some.inj hw)⟩
  | cons name p ih =>
    cases t with
    | file => cases h
    | directory entries =>
      have hentry (u : Tree) (hname : checkName name = .ok ⟨⟩) :
          (directory (entries.insert name u)).follow (name :: p) = u.follow p := by
        rw [follow, hname]
        simp only [Table.get?_insert_self]
        rfl
      cases p with
      | nil =>
        rw [alterAt] at h
        obtain ⟨_, hname, h⟩ := Attempt.ok_of_bind h
        obtain ⟨new, hf, h⟩ := Attempt.ok_of_bind h
        refine ⟨new, ?_, fun u hu => ?_⟩
        · rw [follow, hname]
          cases hget : entries.get? name <;> rw [hget] at hf <;> exact hf
        · obtain rfl := Option.mem_def.mp hu
          cases h
          exact hentry u hname
      | cons next rest =>
        rw [alterAt] at h
        · obtain ⟨_, hname, h⟩ := Attempt.ok_of_bind h
          cases hget : entries.get? name with
          | none =>
            rw [hget] at h
            cases h
          | some u =>
            rw [hget] at h
            obtain ⟨w, hw, h⟩ := Attempt.ok_of_bind h
            cases h
            obtain ⟨new, hf, hnew⟩ := ih hw
            refine ⟨new, ?_, fun v hv => (hentry w hname).trans (hnew v hv)⟩
            rw [follow, hname, hget]
            exact hf
        · exact fun hnil => List.cons_ne_nil next rest hnil

/-- What a path leads to can be replaced. -/
theorem alterAt_of_follow {new : Tree} (h : t.follow p = .ok u) (hf : f (some u) = .ok (some new)) :
    ∃ v, t.alterAt f p = .ok v := by
  induction p generalizing t with
  | nil =>
    cases h
    rw [alterAt, hf]
    exact ⟨new, rfl⟩
  | cons name p ih =>
    cases t with
    | file => cases h
    | directory entries =>
      rw [follow] at h
      obtain ⟨_, hname, h⟩ := Attempt.ok_of_bind h
      cases hget : entries.get? name with
      | none =>
        rw [hget] at h
        cases h
      | some w =>
        rw [hget] at h
        cases p with
        | nil =>
          cases h
          rw [alterAt, hname, hget]
          refine ⟨.directory (entries.insert name new), ?_⟩
          change (f (some u) >>= fun found => _) = _
          rw [hf]
          rfl
        | cons next rest =>
          obtain ⟨v, hv⟩ := ih h
          rw [alterAt, hname, hget]
          · refine ⟨.directory (entries.insert name v), ?_⟩
            change (alterAt f (next :: rest) w >>= fun found => _) = _
            rw [hv]
            rfl
          · exact fun hnil => List.cons_ne_nil next rest hnil

theorem find_alter (h : t.alter f p = .ok v) :
    ∃ new, f (t.find p).toOption = .ok new ∧ ∀ u ∈ new, v.find p = .ok u := by
  obtain ⟨_, hpath, h⟩ := Attempt.ok_of_bind h
  rw [find, find, hpath]
  exact follow_alterAt h

theorem alter_of_find {new : Tree} (h : t.find p = .ok u) (hf : f (some u) = .ok (some new)) :
    ∃ v, t.alter f p = .ok v ∧ v.find p = .ok new := by
  obtain ⟨_, hpath, hfollow⟩ := Attempt.ok_of_bind h
  obtain ⟨v, hv⟩ := alterAt_of_follow hfollow hf
  have halter : t.alter f p = .ok v := by
    rw [alter, hpath]
    exact hv
  obtain ⟨found, hfound, hnew⟩ := find_alter halter
  rw [h] at hfound
  cases hf.symm.trans hfound
  exact ⟨v, halter, hnew new rfl⟩

/-- A file that is written is found. -/
theorem find_write {content : Bytes} (h : t.write p content = .ok v) :
    v.find p = .ok (.file content) := by
  obtain ⟨new, hf, hnew⟩ := find_alter h
  refine hnew _ ?_
  split at hf
  · cases hf
  · exact (Except.ok.inj hf).symm

theorem createAt_cons {name : String} (hname : checkName name = .ok ⟨⟩) (hp : p ≠ [])
    (entries : Table Tree) :
    (directory entries).createAt (name :: p) =
      let created := ((entries.get? name).getD empty).createAt p
      (created.1, .directory (entries.insert name created.2)) := by
  obtain ⟨next, rest, rfl⟩ := List.exists_cons_of_ne_nil hp
  conv =>
    lhs
    unfold createAt
    simp only [hname]
  rcases entries.get? name with _ | _ | _ <;> rfl

/-- What a path leads to once the directories are there that are missing. -/
def reach (p : Path) (t : Tree) : Except FileError Tree :=
  match t.follow p with
  | .error .notFound => .ok empty
  | found => found

theorem reach_empty (h : empty.reach p = .ok u) : u = empty := by
  unfold reach at h
  cases p with
  | nil =>
    cases h
    rfl
  | cons name p =>
    have hfollow : empty.follow (name :: p) = checkName name >>= fun _ => .error .notFound := rfl
    rw [hfollow] at h
    cases hname : checkName name with
    | ok _ =>
      rw [hname] at h
      cases h
      rfl
    | error e =>
      rw [hname] at h
      cases e <;> cases h
      rfl

/-- Where directories were created, the path leads to what was there, or to a new directory, with
the rest of the directories created in it. -/
theorem createAt_reach (hq : q ≠ []) (h : (t.createAt (p ++ q)).1 = .ok ⟨⟩) :
    ∃ u, t.reach p = .ok u ∧ (u.createAt q).1 = .ok ⟨⟩ ∧
      (t.createAt (p ++ q)).2.follow p = .ok (u.createAt q).2 := by
  induction p generalizing t with
  | nil => exact ⟨t, rfl, h, rfl⟩
  | cons name p ih =>
    cases t with
    | file => cases h
    | directory entries =>
      cases hname : checkName name with
      | error e =>
        rw [List.cons_append] at h
        unfold createAt at h
        simp only [hname] at h
        cases h
      | ok _ =>
        rw [List.cons_append, createAt_cons hname (List.append_ne_nil_of_right_ne_nil p hq)] at h ⊢
        obtain ⟨u, hu, hok, hfollow⟩ := ih h
        refine ⟨u, ?_, hok, ?_⟩
        · unfold reach
          rw [follow, hname]
          cases hget : entries.get? name with
          | some t =>
            rw [hget] at hu
            exact hu
          | none =>
            rw [hget] at hu
            rw [reach_empty hu]
            rfl
        · rw [follow, hname]
          simp only [Table.get?_insert_self]
          exact hfollow

section Entries
variable {name : String} {entries : Table Tree}

theorem find_entry (hname : checkPath [name] = .ok ⟨⟩) (entries : Table Tree) :
    (directory entries).find [name] =
      checkName name >>= fun _ => (entries.get? name).elim (.error .notFound) .ok := by
  rw [find, hname]
  change (directory entries).follow [name] = _
  rw [follow]
  congr 1
  funext _
  cases entries.get? name <;> rfl

theorem find_of_get? (hname : checkPath [name] = .ok ⟨⟩) (hshort : checkName name = .ok ⟨⟩)
    (hget : entries.get? name = some t) : (directory entries).find [name] = .ok t := by
  rw [find_entry hname, hshort, hget]
  rfl

/-- What is not there is not found, or its name is too long to be there. -/
theorem find_of_none (hname : checkPath [name] = .ok ⟨⟩) (hget : entries.get? name = none) :
    ∃ e, (directory entries).find [name] = .error e := by
  rw [find_entry hname, hget]
  cases checkName name with
  | error e => exact ⟨e, rfl⟩
  | ok _ => exact ⟨.notFound, rfl⟩

theorem alter_entry (hname : checkPath [name] = .ok ⟨⟩) (entries : Table Tree)
    (f : Option Tree → Except FileError (Option Tree)) :
    (directory entries).alter f [name] =
      checkName name >>= fun _ => (f (entries.get? name)).map fun new =>
        .directory (new.elim (entries.erase name) (entries.insert name)) := by
  rw [alter, hname]
  change (directory entries).alterAt f [name] = _
  rw [alterAt]
  congr 1
  funext _
  cases hf : f (entries.get? name) with
  | error e => rfl
  | ok new => cases new <;> rfl

theorem createDirectories_entry (hname : checkPath [name] = .ok ⟨⟩) (entries : Table Tree) :
    createDirectories [name] (directory entries) =
      match checkName name, entries.get? name with
      | .error e, _ => (.error e, .directory entries)
      | .ok _, some (.file _) => (.error .alreadyExists, .directory entries)
      | .ok _, found => (.ok ⟨⟩, .directory (entries.insert name (found.getD empty))) := by
  rw [createDirectories, hname]
  change (directory entries).createAt [name] = _
  unfold createAt
  cases checkName name with
  | error e => rfl
  | ok _ => rcases entries.get? name with _ | _ | _ <;> rfl

end Entries

/-- The path of a directory leads to a tree. -/
structure At (p : Path) (t u : Tree) : Prop where
  path : checkPath p = .ok ⟨⟩
  leads : t.follow p = .ok u

namespace At

theorem find (h : t.At p u) (q : Path) : t.find (p ++ q) = u.find q := by
  unfold Tree.find
  rw [checkPath_append h.path, follow_append, h.leads]
  rfl

theorem read (h : t.At p u) (q : Path) : t.read (p ++ q) = u.read q := by
  rw [Tree.read, h.find, ← Tree.read]

theorem list (h : t.At p u) (q : Path) : t.list (p ++ q) = u.list q := by
  rw [Tree.list, h.find, ← Tree.list]

theorem isFile (h : t.At p u) (q : Path) : t.isFile (p ++ q) = u.isFile q := by
  rw [Tree.isFile, h.find, ← Tree.isFile]

theorem isDirectory (h : t.At p u) (q : Path) : t.isDirectory (p ++ q) = u.isDirectory q := by
  rw [Tree.isDirectory, h.find, ← Tree.isDirectory]

theorem graft (h : t.At p u) (v : Tree) : (graft p v t).At p v :=
  ⟨h.path, follow_graft h.leads v⟩

/-- What changes a tree below a path changes the tree that the path leads to. -/
theorem alter (h : t.At p u) (hq : q ≠ []) (f : Option Tree → Except FileError (Option Tree)) :
    t.alter f (p ++ q) = (u.alter f q).map fun v => Tree.graft p v t := by
  unfold Tree.alter
  rw [checkPath_append h.path, alterAt_append hq, h.leads]
  cases checkPath q <;> rfl

theorem alter_cases (h : t.At p u) (hq : q ≠ [])
    (f : Option Tree → Except FileError (Option Tree)) :
    (∃ e, u.alter f q = .error e ∧ t.alter f (p ++ q) = .error e) ∨
      ∃ v s, u.alter f q = .ok v ∧ t.alter f (p ++ q) = .ok s ∧ s.At p v := by
  rw [h.alter hq]
  cases u.alter f q with
  | error e => exact .inl ⟨e, rfl, rfl⟩
  | ok v => exact .inr ⟨v, _, rfl, rfl, h.graft v⟩

end At

/-- What was done to a tree was done to a part of it. -/
inductive Moves {ε α : Type} (p : Path) :
    Except ε (α × Tree) → Except ε (α × Tree) → Prop
  | error (e : ε) : Moves p (.error e) (.error e)
  | ok (v : α) {t u : Tree} : t.At p u → Moves p (.ok (v, t)) (.ok (v, u))

/-- An attempt does on a tree what another one does on a part of it. -/
def Relocates {ε α : Type} (p : Path) (a b : Attempt Tree ε α) : Prop :=
  ∀ t u, t.At p u → (a t).1 = (b u).1 ∧ (a t).2.At p (b u).2

namespace Relocates
variable {ε α β : Type} {a b : Attempt Tree ε α}

theorem pure (v : α) : Relocates p (Pure.pure v : Attempt Tree ε α) (Pure.pure v) :=
  fun _ _ h => ⟨rfl, h⟩

theorem bind {f g : α → Attempt Tree ε β} (ha : Relocates p a b)
    (hf : ∀ v, Relocates p (f v) (g v)) : Relocates p (a >>= f) (b >>= g) := by
  intro t u h
  obtain ⟨hr, ht⟩ := ha t u h
  rw [Attempt.bind_apply, Attempt.bind_apply]
  rcases hat : a t with ⟨r, t'⟩
  rcases hbu : b u with ⟨r', u'⟩
  rw [hat, hbu] at hr ht
  dsimp only at hr ht
  subst hr
  cases r with
  | error e => exact ⟨rfl, ht⟩
  | ok v => exact hf v t' u' ht

theorem look {f g : Tree → Except ε α} (h : ∀ t u, t.At p u → f t = g u) :
    Relocates p (Attempt.look f) (Attempt.look g) :=
  fun t u ht => ⟨h t u ht, ht⟩

theorem alter {f g : Tree → Except ε (α × Tree)} (h : ∀ t u, t.At p u → Moves p (f t) (g u)) :
    Relocates p (Attempt.alter f) (Attempt.alter g) := by
  intro t u ht
  have hmoves := h t u ht
  unfold Attempt.alter
  generalize f t = r, g u = r' at hmoves
  cases hmoves with
  | error e => exact ⟨rfl, ht⟩
  | ok v ht => exact ⟨rfl, ht⟩

end Relocates

/-- Following a path stops with an error. -/
structure Blocked (p : Path) (t : Tree) (e : FileError) : Prop where
  path : checkPath p = .ok ⟨⟩
  stops : t.follow p = .error e

namespace Blocked
variable {e : FileError}

theorem append (h : Blocked p t e) (hq : checkPath q = .ok ⟨⟩) : Blocked (p ++ q) t e where
  path := by
    rw [checkPath_append h.path]
    exact hq
  stops := by
    rw [follow_append, h.stops]
    rfl

theorem find (h : Blocked p t e) : t.find p = .error e := by
  rw [Tree.find, h.path]
  exact h.stops

theorem read (h : Blocked p t e) : t.read p = .error e := by
  rw [Tree.read, h.find]
  rfl

theorem list (h : Blocked p t e) : t.list p = .error e := by
  rw [Tree.list, h.find]
  rfl

theorem isDirectory (h : Blocked p t e) : t.isDirectory p = false := by
  rw [Tree.isDirectory, h.find]

theorem alter (h : Blocked p t e) (hq : checkPath q = .ok ⟨⟩) (hne : q ≠ [])
    (f : Option Tree → Except FileError (Option Tree)) : t.alter f (p ++ q) = .error e := by
  rw [Tree.alter, checkPath_append h.path, hq]
  change t.alterAt f (p ++ q) = _
  rw [alterAt_append hne, h.stops]
  rfl

theorem removeIfExists (h : Blocked p t e) (hq : checkPath q = .ok ⟨⟩) (hne : q ≠ []) :
    t.removeIfExists (p ++ q) = if e = .notFound then .ok (false, t) else .error e := by
  rw [Tree.removeIfExists, remove, h.alter hq hne]
  cases e <;> rfl

/-- Where nothing is, nothing is changed that has to be there. -/
theorem alter_last {name : String} (h : Blocked (p ++ [name]) t e) {cause : FileError}
    (hf : f none = .error cause) : ∃ e, t.alter f (p ++ [name]) = .error e := by
  rw [Tree.alter, h.path]
  change ∃ e, t.alterAt f (p ++ [name]) = _
  rw [alterAt_append (List.cons_ne_nil name [])]
  have hstops := h.stops
  rw [follow_append] at hstops
  cases ht : t.follow p with
  | error cause => exact ⟨cause, rfl⟩
  | ok u =>
    rw [ht] at hstops
    cases u with
    | file => exact ⟨.notDirectory, rfl⟩
    | directory entries =>
      change (directory entries).follow [name] = _ at hstops
      rw [follow] at hstops
      change ∃ e, ((directory entries).alterAt f [name]).map _ = _
      rw [alterAt]
      cases hname : checkName name with
      | error cause => exact ⟨cause, rfl⟩
      | ok _ =>
        rw [hname] at hstops
        cases hget : entries.get? name with
        | none =>
          rw [hf]
          exact ⟨cause, rfl⟩
        | some u =>
          rw [hget] at hstops
          cases hstops

theorem removeDirectory {name : String} (h : Blocked (p ++ [name]) t e) :
    ∃ e, t.removeDirectory (p ++ [name]) = .error e :=
  h.alter_last rfl

end Blocked

theorem blocked_of_none {name : String} {entries : Table Tree} (hname : checkPath [name] = .ok ⟨⟩)
    (hget : entries.get? name = none) : ∃ e, Blocked [name] (directory entries) e := by
  obtain ⟨e, he⟩ := find_of_none hname hget
  rw [find, hname] at he
  exact ⟨e, hname, he⟩

def inside (entries : Table Tree) (name : String) (files : Table Tree) : Tree :=
  .directory (entries.insert name (.directory files))

section Inside
variable {name last : String} {entries files : Table Tree}

theorem inside_at (hpath : checkPath [name] = .ok ⟨⟩) (hname : checkName name = .ok ⟨⟩)
    (entries files : Table Tree) : (inside entries name files).At [name] (.directory files) where
  path := hpath
  leads := by
    rw [inside, follow, hname]
    simp only [Table.get?_insert_self]
    rfl

theorem graft_inside (entries files : Table Tree) (name : String) (fs : Table Tree) :
    graft [name] (.directory fs) (inside entries name files) = inside entries name fs := by
  unfold inside
  rw [graft, graft, Table.insert_insert]

theorem alter_inside (hpath : checkPath [name] = .ok ⟨⟩) (hname : checkName name = .ok ⟨⟩)
    (hlast : checkPath [last] = .ok ⟨⟩) (f : Option Tree → Except FileError (Option Tree))
    (entries files : Table Tree) :
    (inside entries name files).alter f ([name] ++ [last]) =
      checkName last >>= fun _ => (f (files.get? last)).map fun new =>
        inside entries name (new.elim (files.erase last) (files.insert last)) := by
  rw [(inside_at hpath hname entries files).alter (List.cons_ne_nil last []), alter_entry hlast]
  cases checkName last with
  | error e => rfl
  | ok _ =>
    change Except.map _ (Except.map _ (f (files.get? last))) = Except.map _ (f (files.get? last))
    cases f (files.get? last) with
    | error e => rfl
    | ok new => exact congrArg Except.ok (graft_inside entries files name _)

theorem checkName_cases (name : String) :
    checkName name = .ok ⟨⟩ ∨ checkName name = .error .nameTooLong := by
  unfold checkName
  split
  · exact .inr rfl
  · exact .inl rfl

theorem removeIfExists_inside_long (hpath : checkPath [name] = .ok ⟨⟩)
    (hname : checkName name = .ok ⟨⟩) (hlast : checkPath [last] = .ok ⟨⟩)
    (hlong : checkName last = .error .nameTooLong) (entries files : Table Tree) :
    (inside entries name files).removeIfExists ([name] ++ [last]) = .error .nameTooLong := by
  rw [removeIfExists, remove, alter_inside hpath hname hlast, hlong]
  rfl

/-- What is removed is gone, whether it was there or not. -/
theorem removeIfExists_inside (hpath : checkPath [name] = .ok ⟨⟩) (hname : checkName name = .ok ⟨⟩)
    (hlast : checkPath [last] = .ok ⟨⟩) (hshort : checkName last = .ok ⟨⟩) (hfiles : files.Sorted)
    (hfile : ∀ fs, files.get? last ≠ some (.directory fs)) (entries : Table Tree) :
    (inside entries name files).removeIfExists ([name] ++ [last]) =
      .ok ((files.get? last).isSome, inside entries name (files.erase last)) := by
  rw [removeIfExists, remove, alter_inside hpath hname hlast, hshort]
  cases hget : files.get? last with
  | none =>
    rw [hfiles.erase_of_none hget]
    rfl
  | some found =>
    cases found with
    | file => rfl
    | directory fs => exact absurd hget (hfile fs)

theorem write_inside (hpath : checkPath [name] = .ok ⟨⟩) (hname : checkName name = .ok ⟨⟩)
    (hlast : checkPath [last] = .ok ⟨⟩) (hfile : ∀ fs, files.get? last ≠ some (.directory fs))
    (content : Bytes) (entries : Table Tree) :
    (inside entries name files).write ([name] ++ [last]) content =
      (checkName last).map fun _ => inside entries name (files.insert last (.file content)) := by
  rw [write, alter_inside hpath hname hlast]
  cases checkName last with
  | error e => rfl
  | ok _ =>
    cases hget : files.get? last with
    | none => rfl
    | some found =>
      cases found with
      | file => rfl
      | directory fs => exact absurd hget (hfile fs)

theorem inside_of_get? (hentries : entries.Sorted)
    (hget : entries.get? name = some (.directory files)) :
    inside entries name files = .directory entries :=
  congrArg directory (hentries.insert_of_get? hget)

end Inside
end Workflow.Tree
