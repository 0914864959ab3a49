import Workflow.Proofs.Storage.Apart

/-!
# What changes in a tree of files

Two trees are compared by what they show at each path: a directory, the content of a file, or
nothing. Writing and removing a file changes this at one path. Creating directories changes it only
on the way to the innermost of them, and only where there was nothing.
-/
namespace Workflow.Tree
open Attempt
variable {f : Option Tree → Except FileError (Option Tree)} {p q dir : Path} {t u v : Tree}

/-- What is to be seen of something that was found: that it is a directory, or its content. -/
def look : Except FileError Tree → Option (Option Bytes)
  | .ok (.file content) => some (some content)
  | .ok (.directory _) => some none
  | .error _ => none

/-- What is to be seen at a path, if there is anything. -/
def shown (p : Path) (t : Tree) : Option (Option Bytes) := look (t.find p)

/-- Two trees show the same but for some paths. -/
def SameBut (P : Path → Prop) (t u : Tree) : Prop := ∀ p, ¬P p → u.shown p = t.shown p

/-- Two trees show the same on the way to a directory, but that directories may have been created
that were missing. -/
def Made (dir : Path) (t u : Tree) : Prop :=
  ∀ p, p <+: dir → u.shown p = t.shown p ∨ t.shown p = none ∧ u.shown p = some none

theorem shown_eq (p : Path) (t : Tree) :
    t.shown p = if checkPath p = .ok ⟨⟩ then look (t.follow p) else none := by
  rw [shown, find]
  obtain hp | hp := checkPath_cases p <;> rw [hp]
  · rw [if_pos rfl]
    rfl
  · rw [if_neg (by simp)]
    rfl

theorem shown_congr (h : look (u.follow p) = look (t.follow p)) : u.shown p = t.shown p := by
  rw [shown_eq, shown_eq, h]

def Bare (found : Option Tree) : Prop :=
  ∀ t ∈ found, ∀ name rest, look (t.follow (name :: rest)) = none

theorem bare_none : Bare none := nofun

theorem bare_file (content : Bytes) : Bare (some (.file content)) := by
  rintro t ⟨⟩ name rest
  rfl

theorem bare_empty {entries : Table Tree} (h : entries.isEmpty) :
    Bare (some (.directory entries)) := by
  rintro t ⟨⟩ name rest
  obtain ⟨_ | _⟩ := entries
  · rw [follow]
    cases checkName name <;> rfl
  · cases h

/-- Below an entry of a directory is what stands below the entry. -/
theorem look_follow_entry {name next : String} {entries : Table Tree} {rest : Path}
    (h : Bare (entries.get? name)) :
    look ((directory entries).follow (name :: next :: rest)) = none := by
  rw [follow]
  cases checkName name with
  | error e => rfl
  | ok _ =>
    cases hget : entries.get? name with
    | none => rfl
    | some v => exact h v hget next rest

theorem alterAt_last {name : String} {entries : Table Tree}
    (h : (directory entries).alterAt f [name] = .ok u) :
    ∃ files, u = .directory files ∧ f (entries.get? name) = .ok (files.get? name) ∧
      ∀ first ≠ name, files.get? first = entries.get? first := by
  rw [alterAt] at h
  obtain ⟨_, -, h⟩ := ok_of_bind h
  obtain ⟨new, hnew, h⟩ := ok_of_bind h
  cases new with
  | some w =>
    cases h
    refine ⟨_, rfl, ?_, fun first hfirst => Table.get?_insert_of_ne _ hfirst _⟩
    rwa [Table.get?_insert_self]
  | none =>
    cases h
    refine ⟨_, rfl, ?_, fun first hfirst => ?_⟩
    · rwa [Table.get?_erase, if_pos rfl]
    · rw [Table.get?_erase, if_neg hfirst]

theorem alterAt_inner {name : String} {entries : Table Tree} (hq : q ≠ [])
    (h : (directory entries).alterAt f (name :: q) = .ok u) :
    ∃ v w, checkName name = .ok ⟨⟩ ∧ entries.get? name = some v ∧ v.alterAt f q = .ok w ∧
      u = .directory (entries.insert name w) := by
  rw [alterAt] at h
  · obtain ⟨_, hname, h⟩ := ok_of_bind h
    cases hget : entries.get? name with
    | none =>
      rw [hget] at h
      cases h
    | some v =>
      rw [hget] at h
      obtain ⟨w, hw, h⟩ := ok_of_bind h
      cases h
      exact ⟨v, w, hname, rfl, hw, rfl⟩
  · exact fun hnil => hq hnil

/-- Replacing what is at the end of a path changes what is to be seen there, and nothing else if
nothing stands below it, neither before nor after. -/
theorem look_follow_alterAt (hf : ∀ found new, f found = .ok new → Bare found ∧ Bare new)
    (h : t.alterAt f q = .ok u) (hne : p ≠ q) : look (u.follow p) = look (t.follow p) := by
  induction q generalizing p t u with
  | nil =>
    obtain ⟨name, rest, rfl⟩ := List.exists_cons_of_ne_nil hne
    rw [alterAt] at h
    obtain ⟨new, hnew, h⟩ := ok_of_bind h
    obtain ⟨hbefore, hafter⟩ := hf _ _ hnew
    cases new with
    | none => cases h
    | some w =>
      cases h
      rw [hbefore t rfl, hafter u rfl]
  | cons name q ih =>
    cases t with
    | file => cases h
    | directory entries =>
      -- The last name is apart from the others: `f` decides what comes there, and only there the
      -- path that is compared can go on below what has been replaced.
      by_cases hq : q = []
      · subst hq
        obtain ⟨files, rfl, hnew, hother⟩ := alterAt_last h
        obtain ⟨hbefore, hafter⟩ := hf _ _ hnew
        cases p with
        | nil => rfl
        | cons first p =>
          by_cases hfirst : first = name
          · subst hfirst
            cases p with
            | nil => exact absurd rfl hne
            | cons next rest => rw [look_follow_entry hafter, look_follow_entry hbefore]
          · rw [follow_cons_congr (hother first hfirst)]
      · obtain ⟨v, w, hname, hget, hw, rfl⟩ := alterAt_inner hq h
        cases p with
        | nil => rfl
        | cons first p =>
          by_cases hfirst : first = name
          · subst hfirst
            rw [follow_insert_self hname, follow_of_some hname hget]
            exact ih hw fun hp => hne (congrArg (first :: ·) hp)
          · rw [follow_cons_congr (Table.get?_insert_of_ne _ hfirst _)]

theorem sameBut_of_alter (hf : ∀ found new, f found = .ok new → Bare found ∧ Bare new)
    (h : t.alter f q = .ok u) : SameBut (· = q) t u := by
  intro p hp
  obtain ⟨_, -, h⟩ := ok_of_bind h
  exact shown_congr (look_follow_alterAt hf h hp)

theorem sameBut_of_write {content : Bytes} (h : t.write q content = .ok u) :
    SameBut (· = q) t u := by
  refine sameBut_of_alter ?_ h
  rintro (_ | ⟨_ | _⟩) new hnew <;> cases hnew
  · exact ⟨bare_none, bare_file content⟩
  · exact ⟨bare_file _, bare_file content⟩

theorem sameBut_of_remove (h : t.remove q = .ok u) : SameBut (· = q) t u := by
  refine sameBut_of_alter ?_ h
  rintro (_ | ⟨_ | _⟩) new hnew <;> cases hnew
  exact ⟨bare_file _, bare_none⟩

theorem sameBut_of_removeDirectory (h : t.removeDirectory q = .ok u) : SameBut (· = q) t u := by
  refine sameBut_of_alter ?_ h
  rintro (_ | ⟨_ | entries⟩) new hnew
  · cases hnew
  · cases hnew
  · dsimp only at hnew
    split at hnew
    · rename_i hempty
      cases hnew
      exact ⟨bare_empty hempty, bare_none⟩
    · cases hnew

namespace SameBut
variable {P Q : Path → Prop}

theorem refl (P : Path → Prop) (t : Tree) : SameBut P t t := fun _ _ => rfl

theorem trans (h : SameBut P t u) (h' : SameBut P u v) : SameBut P t v :=
  fun p hp => (h' p hp).trans (h p hp)

theorem mono (h : SameBut P t u) (hPQ : ∀ p, P p → Q p) : SameBut Q t u :=
  fun p hp => h p fun hP => hp (hPQ p hP)

end SameBut

theorem sameBut_of_removeIfExists {found : Bool} (h : t.removeIfExists q = .ok (found, u)) :
    SameBut (· = q) t u := by
  unfold removeIfExists at h
  split at h
  · rename_i v hv
    cases h
    exact sameBut_of_remove hv
  · cases h
    exact .refl _ t
  · cases h

instance {P : Path → Prop} : Std.Refl (SameBut P) := ⟨SameBut.refl P⟩

instance {P : Path → Prop} : IsTrans Tree (SameBut P) := ⟨fun _ _ _ => SameBut.trans⟩

theorem look_follow_createAt (hpq : p <+: q) (t : Tree) :
    look ((t.createAt q).2.follow p) = look (t.follow p) ∨
      look (t.follow p) = none ∧ look ((t.createAt q).2.follow p) = some none := by
  induction q generalizing p t with
  | nil => exact .inl rfl
  | cons name q ih =>
    cases t with
    | file => exact .inl rfl
    | directory entries =>
      obtain hsame | hput := createAt_cases name q entries
      · rw [hsame]
        exact .inl rfl
      rw [hput]
      cases p with
      | nil => exact .inl rfl
      | cons first p =>
        obtain ⟨rfl, hbelow⟩ := List.cons_prefix_cons.mp hpq
        obtain hname | hlong := checkName_cases first
        · rw [follow_insert_self hname]
          cases hget : entries.get? first with
          | some v =>
            rw [follow_of_some hname hget]
            exact ih hbelow v
          | none =>
            rw [follow_of_none hname hget, Option.getD_none]
            obtain hempty | ⟨-, hmade⟩ := ih hbelow empty
            · cases p with
              | nil => exact .inr ⟨rfl, hempty⟩
              | cons next rest => exact .inl (hempty.trans (bare_empty rfl _ rfl next rest))
            · exact .inr ⟨rfl, hmade⟩
        · rw [follow, follow, hlong]
          exact .inl rfl

theorem shown_createDirectories (hpq : ¬p <+: q) (t : Tree) :
    (createDirectories q t).2.shown p = t.shown p := by
  unfold shown
  obtain hsame | ⟨hbefore, hafter⟩ := find_createDirectories_cases hpq t
  · rw [hsame]
  · rw [hbefore, hafter]
    rfl

theorem shown_createDirectories_dropLast (path : Path) (t : Tree) :
    (createDirectories path.dropLast t).2.shown path = t.shown path := by
  by_cases hpath : path = []
  · subst hpath
    rfl
  · refine shown_createDirectories (fun h => ?_) t
    have hlength := h.length_le
    have hpositive := List.length_pos_of_ne_nil hpath
    rw [List.length_dropLast] at hlength
    omega

theorem made_createDirectories (q : Path) (t : Tree) : Made q t (createDirectories q t).2 := by
  intro p hp
  unfold createDirectories
  cases checkPath q with
  | error e => exact .inl rfl
  | ok _ =>
    rw [shown_eq, shown_eq]
    split
    · exact look_follow_createAt hp t
    · exact .inl rfl

/-- A tree has become another one by saving to some names of a directory: only what stands at these
names has changed, and directories may have been created on the way. -/
structure Saves (dir : Path) (names : String → Prop) (t u : Tree) : Prop where
  same : SameBut (fun p => p <+: dir ∨ ∃ name, names name ∧ p = dir ++ [name]) t u
  made : Made dir t u

namespace Saves
variable {names : String → Prop}

theorem refl (dir : Path) (names : String → Prop) (t : Tree) : Saves dir names t t :=
  ⟨.refl _ t, fun _ _ => .inl rfl⟩

theorem trans (h : Saves dir names t u) (h' : Saves dir names u v) : Saves dir names t v := by
  refine ⟨h.same.trans h'.same, fun p hp => ?_⟩
  obtain hsame | ⟨hnone, hdir⟩ := h.made p hp <;>
    obtain hsame' | ⟨hnone', hdir'⟩ := h'.made p hp
  · exact .inl (hsame'.trans hsame)
  · exact .inr ⟨hsame.symm.trans hnone', hdir'⟩
  · exact .inr ⟨hnone, hsame'.trans hdir⟩
  · exact .inr ⟨hnone, hdir'⟩

instance : Std.Refl (Saves dir names) := ⟨refl dir names⟩

instance : IsTrans Tree (Saves dir names) := ⟨fun _ _ _ => trans⟩

theorem createDirectories (dir : Path) (names : String → Prop) (t : Tree) :
    Saves dir names t (Tree.createDirectories dir t).2 :=
  ⟨fun _ hp => shown_createDirectories (fun hdir => hp (.inl hdir)) t, made_createDirectories dir t⟩

theorem write {name : String} {content : Bytes} (hname : names name)
    (h : t.write (dir ++ [name]) content = .ok u) : Saves dir names t u := by
  have hsame := sameBut_of_write h
  refine ⟨hsame.mono fun p hp => .inr ⟨name, hname, hp⟩, fun p hp => .inl (hsame p ?_)⟩
  rintro rfl
  have hlength := hp.length_le
  rw [List.length_append] at hlength
  exact absurd hlength (Nat.not_succ_le_self dir.length)

end Saves

end Workflow.Tree
