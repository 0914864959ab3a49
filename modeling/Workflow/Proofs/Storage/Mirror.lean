import Workflow.Proofs.Storage.Directory
import Workflow.Proofs.Store.Ordered

/-!
# Directories that hold values

A directory mirrors values: each namespace is a directory in it, with a marker and a file for every
key, and nothing else is there.
-/
namespace Workflow.Storage
open Tree Attempt
variable {N : String → Prop} {ns key : String} {v : Json}

def keyContent (key : String) (v : Json) : Bytes :=
  Text.utf8 (Json.obj ⟨[("key", .str key), ("value", v)]⟩).pretty

def markerContent (ns : String) : Bytes := Text.utf8 (Json.obj ⟨[("namespace", .str ns)]⟩).pretty

/-- The value of a key reads back from its text. -/
def Readable (key : String) (v : Json) : Prop :=
  Json.read? (Json.obj ⟨[("key", .str key), ("value", v)]⟩).pretty =
    some (.obj ⟨[("key", .str key), ("value", v)]⟩)

theorem sorted_record (key : String) (v : Json) :
    Table.Sorted ⟨[("key", Json.str key), ("value", v)]⟩ := by
  refine .cons ?_ (List.pairwise_singleton _ _)
  intro e he
  rw [List.mem_singleton.mp he]
  exact (by decide : "key" < "value")

/-- Texts read back. -/
theorem readable_text (key s : String) : Readable key (.str s) := by
  have hread := Json.read?_texts ("key", key) [("value", s)]
  have hrecord := (sorted_record key (.str s)).ofList_entries
  exact hread.trans (congrArg (fun t => some (Json.obj t)) hrecord)

theorem readFile_of_read {α : Type} {r : Decoder α} {path : Path} {t : Tree} {json : Json} {a : α}
    (hfile : t.read path = .ok (Text.utf8 json.pretty)) (hjson : Json.read? json.pretty = some json)
    (hr : r json = .ok a) : readFile r path t = .ok (some a) := by
  rw [readFile, hfile]
  simp only [Text.ofUtf8?_utf8, Option.bind_some, hjson, hr]
  rfl

theorem readFile_keyContent {path : Path} {t : Tree} (hfile : t.read path = .ok (keyContent key v))
    (h : Readable key v) :
    readFile (storedRecord.decode "struct StoredValue") path t = .ok (some (key, v)) := by
  have hkey : Record.Reads ⟨[("key", .str key), ("value", v)]⟩ (.required "key" .text) key :=
    .field rfl rfl
  have hvalue : Record.Reads ⟨[("key", .str key), ("value", v)]⟩ (.required "value" .any) v :=
    .field rfl rfl
  have hreads : Record.Reads _ storedRecord (key, v) := (hkey.map Prod.mk).seq hvalue
  exact readFile_of_read hfile h (hreads.ofTable (sorted_record key v))

theorem readFile_markerContent {path : Path} {t : Tree}
    (hfile : t.read path = .ok (markerContent ns)) :
    readFile (markerRecord.decode "struct NamespaceMarker") path t = .ok (some ns) := by
  have hreads : Record.Reads (.singleton "namespace" (.str ns)) markerRecord ns :=
    .field rfl rfl
  exact readFile_of_read hfile (Json.read?_texts ("namespace", ns) [])
    (hreads.ofTable (List.pairwise_singleton _ _))

theorem readFile_of_error {α : Type} {r : Decoder α} {path : Path} {t : Tree} {e : FileError}
    (hfile : t.read path = .error e) :
    readFile r path t = if e = .notFound then .ok none else .error (.file e) := by
  rw [readFile, hfile]
  cases e <;> rfl

/-- Names that can be told apart by what stands for them. -/
structure Apart (N : String → Prop) : Prop where
  nameable : ∀ name, N name → Nameable name
  apart : ∀ a b, N a → N b → fingerprint a = fingerprint b → a = b

namespace Apart
variable {a b : String}

theorem storageName_ne (hN : Apart N) (ha : N a) (hb : N b) (hne : a ≠ b) :
    storageName a ≠ storageName b :=
  fun h => hne (hN.apart a b ha hb (fingerprint_eq_of_storageName_eq h))

theorem keyName_ne (hN : Apart N) (ha : N a) (hb : N b) (hne : a ≠ b) : keyName a ≠ keyName b :=
  fun h => hne (hN.apart a b ha hb (fingerprint_eq_of_keyName_eq h))

end Apart

/-- The files of a namespace hold its marker and its values. -/
structure SpaceMirrors (N : String → Prop) (ns : String) (values : Table Json)
    (files : Table Tree) : Prop where
  sorted : files.Sorted
  ordered : values.Sorted
  short : ∀ name, (files.get? name).isSome → checkName name = .ok ⟨⟩
  marker : files.get? markerName = some (.file (markerContent ns))
  value : ∀ key, N key →
    files.get? (keyName key) = (values.get? key).map fun v => .file (keyContent key v)
  only : ∀ name, (files.get? name).isSome → name = markerName ∨ ∃ key, N key ∧ name = keyName key
  keys : ∀ key v, values.get? key = some v → N key ∧ Readable key v

namespace SpaceMirrors
variable {values : Table Json} {files : Table Tree}

theorem new (N : String → Prop) (ns : String) :
    SpaceMirrors N ns .empty (.singleton markerName (.file (markerContent ns))) where
  sorted := List.pairwise_singleton _ _
  ordered := List.Pairwise.nil
  short name h := by
    have hname : name = markerName := by
      rw [← Table.mem_keys] at h
      exact List.mem_singleton.mp h
    rw [hname]
    exact checkName_markerName
  marker := rfl
  value key _ := by
    have hne : keyName key ≠ markerName := keyName_ne_marker key
    exact if_neg hne
  only name h := by
    rw [← Table.mem_keys] at h
    exact .inl (List.mem_singleton.mp h)
  keys _ _ h := nomatch h

theorem put (hN : Apart N) (h : SpaceMirrors N ns values files) (hkey : N key)
    (hv : Readable key v) (hshort : checkName (keyName key) = .ok ⟨⟩) :
    SpaceMirrors N ns (values.insert key v)
      (files.insert (keyName key) (.file (keyContent key v))) where
  sorted := h.sorted.insert _ _
  ordered := h.ordered.insert _ _
  short := Table.insert_keys h.short hshort
  marker := by
    rw [Table.get?_insert_of_ne _ (keyName_ne_marker key).symm]
    exact h.marker
  value key' hkey' := by
    rw [Table.get?_insert, Table.get?_insert]
    by_cases heq : key' = key
    · rw [heq, if_pos rfl, if_pos rfl]
      rfl
    · rw [if_neg heq, if_neg (hN.keyName_ne hkey' hkey heq)]
      exact h.value key' hkey'
  only := Table.insert_keys h.only (.inr ⟨key, hkey, rfl⟩)
  keys key' v' hv' := by
    rw [Table.get?_insert] at hv'
    split at hv'
    · rename_i heq
      cases hv'
      exact heq ▸ ⟨hkey, hv⟩
    · exact h.keys key' v' hv'

theorem erase (hN : Apart N) (h : SpaceMirrors N ns values files) (hkey : N key) :
    SpaceMirrors N ns (values.erase key) (files.erase (keyName key)) where
  sorted := h.sorted.erase _
  ordered := h.ordered.erase _
  short := Table.erase_keys _ h.short
  marker := by
    rw [Table.get?_erase, if_neg (keyName_ne_marker key).symm]
    exact h.marker
  value key' hkey' := by
    rw [Table.get?_erase, Table.get?_erase]
    by_cases heq : key' = key
    · rw [heq, if_pos rfl, if_pos rfl]
      rfl
    · rw [if_neg heq, if_neg (hN.keyName_ne hkey' hkey heq)]
      exact h.value key' hkey'
  only := Table.erase_keys _ h.only
  keys key' v' hv' := by
    rw [Table.get?_erase] at hv'
    split at hv'
    · cases hv'
    · exact h.keys key' v' hv'

end SpaceMirrors

/-- The entries of a directory are the namespaces. -/
structure Mirrors (N : String → Prop) (vs : Values) (dirs : Table Tree) : Prop where
  sorted : dirs.Sorted
  ordered : vs.Sorted
  short : ∀ name, (dirs.get? name).isSome → checkName name = .ok ⟨⟩
  space : ∀ ns, N ns →
    (vs.get? ns = none ∧ dirs.get? (storageName ns) = none) ∨
      ∃ values files, vs.get? ns = some values ∧
        dirs.get? (storageName ns) = some (.directory files) ∧ SpaceMirrors N ns values files
  only : ∀ name, (dirs.get? name).isSome → ∃ ns, N ns ∧ name = storageName ns
  names : ∀ ns, (vs.get? ns).isSome → N ns

namespace Mirrors
variable {vs : Values} {dirs : Table Tree}

theorem empty (N : String → Prop) : Mirrors N .empty .empty where
  sorted := List.Pairwise.nil
  ordered := List.Pairwise.nil
  short _ h := nomatch h
  space _ _ := .inl ⟨rfl, rfl⟩
  only _ h := nomatch h
  names _ h := nomatch h

theorem insert (hN : Apart N) (h : Mirrors N vs dirs) (hns : N ns) {values : Table Json}
    {files : Table Tree} (hspace : SpaceMirrors N ns values files)
    (hshort : checkName (storageName ns) = .ok ⟨⟩) :
    Mirrors N (vs.insert ns values) (dirs.insert (storageName ns) (.directory files)) where
  sorted := h.sorted.insert _ _
  ordered := h.ordered.insert _ _
  short := Table.insert_keys h.short hshort
  space ns' hns' := by
    rw [Table.get?_insert, Table.get?_insert]
    by_cases heq : ns' = ns
    · subst heq
      rw [if_pos rfl, if_pos rfl]
      exact .inr ⟨values, files, rfl, rfl, hspace⟩
    · rw [if_neg heq, if_neg (hN.storageName_ne hns' hns heq)]
      exact h.space ns' hns'
  only := Table.insert_keys h.only ⟨ns, hns, rfl⟩
  names := Table.insert_keys h.names hns

theorem erase (hN : Apart N) (h : Mirrors N vs dirs) (hns : N ns) :
    Mirrors N (vs.erase ns) (dirs.erase (storageName ns)) where
  sorted := h.sorted.erase _
  ordered := h.ordered.erase _
  short := Table.erase_keys _ h.short
  space ns' hns' := by
    rw [Table.get?_erase, Table.get?_erase]
    by_cases heq : ns' = ns
    · subst heq
      rw [if_pos rfl, if_pos rfl]
      exact .inl ⟨rfl, rfl⟩
    · rw [if_neg heq, if_neg (hN.storageName_ne hns' hns heq)]
      exact h.space ns' hns'
  only := Table.erase_keys _ h.only
  names := Table.erase_keys _ h.names

end Mirrors
end Workflow.Storage
