import Workflow.Storage.Name
import Workflow.Storage.Directory
import Workflow.Proofs.Text.Split
import Mathlib.Data.List.Basic
import Mathlib.Data.String.Basic

/-!
# Names that keep apart

Every text but three has a name, in which its fingerprint stands last. So texts with different
fingerprints have different names, and all names can be those of files.
-/
namespace Workflow.Storage

structure Nameable (name : String) : Prop where
  nonempty : name ≠ ""
  not_here : name ≠ "."
  not_up : name ≠ ".."

theorem nameable_iff {name : String} :
    Nameable name ↔ ¬(name = "" ∨ name = "." ∨ name = "..") := by
  rw [not_or, not_or]
  exact ⟨fun h => ⟨h.nonempty, h.not_here, h.not_up⟩, fun ⟨he, hh, hu⟩ => ⟨he, hh, hu⟩⟩

instance : DecidablePred Nameable := fun _ => decidable_of_iff _ nameable_iff.symm

def storageName (name : String) : String :=
  String.ofList (name.toList.map fun c => if isSafe c then c else '_') ++ "-" ++ fingerprint name

def keyName (key : String) : String := storageName key ++ extension

theorem Nameable.storageName? {name : String} (h : Nameable name) :
    storageName? name = some (storageName name) := by
  rw [Storage.storageName?, sanitize?, if_neg (nameable_iff.mp h)]
  rfl

theorem bigEndian_length (width n : Nat) : (Sha256.bigEndian width n).length = width := by
  induction width with
  | zero => rfl
  | succ width ih => rw [Sha256.bigEndian, List.length_cons, ih]

theorem digest_length (message : Bytes) : (Sha256.digest message).length = 32 := by
  simp [Sha256.digest, bigEndian_length]

theorem hexText_length (bs : Bytes) : (hexText bs).length = 2 * bs.length := by
  induction bs with
  | nil => rfl
  | cons b bs ih =>
    rw [hexText, List.flatMap_cons, List.length_append, ← hexText, ih, List.length_cons]
    simp [hexByte]
    omega

theorem fingerprint_length (name : String) :
    (fingerprint name).toList.length = digestLength := by
  simp [fingerprint, hexText_length, digest_length, digestLength]

theorem fingerprint_eq_of_storageName_eq {a b : String} (h : storageName a = storageName b) :
    fingerprint a = fingerprint b := by
  have hlist := congrArg String.toList h
  simp only [storageName, String.toList_append] at hlist
  have hlength : (fingerprint a).toList.length = (fingerprint b).toList.length := by
    rw [fingerprint_length, fingerprint_length]
  exact String.toList_inj.mp (List.append_inj_right' hlist hlength)

theorem hexText_ne_nul (bs : Bytes) : ∀ c ∈ hexText bs, c ≠ '\x00' := by
  have hdigit : ∀ d < 16, Nat.digitChar d ≠ '\x00' := by decide
  intro c hc
  obtain ⟨b, -, hc⟩ := List.mem_flatMap.mp hc
  have hb := b.toNat_lt
  rcases List.mem_pair.mp hc with rfl | rfl
  · exact hdigit _ (by omega)
  · exact hdigit _ (by omega)

theorem storageName_ne_nul (name : String) : ∀ c ∈ (storageName name).toList, c ≠ '\x00' := by
  intro c hc
  simp only [storageName, String.toList_append, String.toList_ofList, List.mem_append,
    List.mem_map] at hc
  obtain (⟨d, -, rfl⟩ | hdash) | hprint := hc
  · split
    · rename_i hsafe
      rintro rfl
      revert hsafe
      decide
    · decide
  · rintro rfl
    revert hdash
    decide
  · rw [fingerprint, String.toList_ofList] at hprint
    exact hexText_ne_nul _ c (List.mem_of_mem_take hprint)

theorem checkPath_of_ne_nul {path : Tree.Path} (h : ∀ name ∈ path, ∀ c ∈ name.toList, c ≠ '\x00') :
    Tree.checkPath path = .ok ⟨⟩ := by
  have hnone : path.any (fun name => name.toList.contains '\x00') = false := by
    rw [List.any_eq_false]
    intro name hname hnul
    exact h name hname _ (List.contains_iff_mem.mp hnul) rfl
  rw [Tree.checkPath, hnone]
  rfl

theorem isValueName_keyName (key : String) : isValueName (keyName key) = true := by
  have hname : 0 < (storageName key).toList.length := by
    rw [storageName, String.toList_append, List.length_append, fingerprint_length]
    exact Nat.add_pos_right _ (by decide)
  have hlonger : extension.length < extension.toList.length + (storageName key).toList.length :=
    Nat.lt_add_of_pos_right hname
  simpa [isValueName, keyName] using hlonger

theorem isValueName_markerName : isValueName markerName = false := by decide

theorem keyName_ne_marker (key : String) : keyName key ≠ markerName := by
  intro h
  have hvalue := isValueName_keyName key
  rw [h, isValueName_markerName] at hvalue
  cases hvalue

theorem fingerprint_eq_of_keyName_eq {a b : String} (h : keyName a = keyName b) :
    fingerprint a = fingerprint b := by
  apply fingerprint_eq_of_storageName_eq
  have hlist := congrArg String.toList h
  simp only [keyName, String.toList_append] at hlist
  exact String.toList_inj.mp (List.append_cancel_right hlist)

theorem checkPath_storageName (name : String) : Tree.checkPath [storageName name] = .ok ⟨⟩ := by
  apply checkPath_of_ne_nul
  intro n hn
  rw [List.mem_singleton.mp hn]
  exact storageName_ne_nul name

theorem checkPath_keyName (key : String) : Tree.checkPath [keyName key] = .ok ⟨⟩ := by
  apply checkPath_of_ne_nul
  intro n hn c hc
  rw [List.mem_singleton.mp hn, keyName, String.toList_append] at hc
  rcases List.mem_append.mp hc with hc | hc
  · exact storageName_ne_nul key c hc
  · rintro rfl
    revert hc
    decide

theorem checkPath_markerName : Tree.checkPath [markerName] = .ok ⟨⟩ := by
  apply checkPath_of_ne_nul
  intro n hn c hc
  rw [List.mem_singleton.mp hn] at hc
  rintro rfl
  revert hc
  decide

theorem checkName_markerName : Tree.checkName markerName = .ok ⟨⟩ := by
  rw [Tree.checkName, if_neg (by decide)]

theorem splitOn_slash {s : String} (h : '/' ∉ s.toList) : s.splitOn "/" = [s] := by
  have hpieces := Text.splitOn_eq s '/'
  rw [List.splitOn_eq_singleton h] at hpieces
  simpa using hpieces

/-- A text without slashes is its own last part. -/
theorem Nameable.basename? {name : String} (h : Nameable name) (hslash : '/' ∉ name.toList) :
    Storage.basename? name = some name := by
  have hkept : [name].filter (fun p => p != "" && p != ".") = [name] := by
    simp [h.nonempty, h.not_here]
  rw [Storage.basename?, splitOn_slash hslash, hkept]
  split
  · rename_i hup
    exact absurd (Option.some.inj hup) h.not_up
  · rfl

/-- What follows the last slash of a text is its last part. -/
theorem Nameable.basename?_under {name : String} (h : Nameable name)
    (hslash : '/' ∉ name.toList) (dir : String) :
    Storage.basename? (dir ++ "/" ++ name) = some name := by
  have hpieces : (dir ++ "/" ++ name).splitOn "/" = dir.splitOn "/" ++ [name] := by
    have hmark : "/" = String.singleton '/' := rfl
    have hchars : (dir ++ "/" ++ name).toList = dir.toList ++ '/' :: name.toList := by simp
    rw [hmark, Text.splitOn_eq, Text.splitOn_eq, ← hmark, hchars, List.splitOn_append_cons_self,
      List.splitOn_eq_singleton hslash]
    simp
  have hkept : [name].filter (fun p => p != "" && p != ".") = [name] := by
    simp [h.nonempty, h.not_here]
  rw [Storage.basename?, hpieces, List.filter_append, hkept, List.getLast?_concat]
  split
  · rename_i hup
    exact absurd (Option.some.inj hup) h.not_up
  · rfl

end Workflow.Storage
