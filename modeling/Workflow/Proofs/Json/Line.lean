import Workflow.Json.Printer
import Mathlib.Data.List.Basic

/-!
# Values on one line

In the compact text of a value no character is a control character, whatever strings the value has
inside: in a string these characters are escaped, and nothing else brings any. So the text has no
line break.
-/
namespace Workflow

def Unbroken (cs : List Char) : Prop := ∀ c ∈ cs, ' ' ≤ c

namespace Unbroken
variable {c : Char} {cs ds : List Char}

@[simp] theorem nil : Unbroken [] := List.forall_mem_nil _

@[simp] theorem cons_iff : Unbroken (c :: cs) ↔ ' ' ≤ c ∧ Unbroken cs := List.forall_mem_cons

@[simp] theorem append_iff : Unbroken (cs ++ ds) ↔ Unbroken cs ∧ Unbroken ds :=
  List.forall_mem_append

theorem of_subset (h : Unbroken cs) (hds : ds ⊆ cs) : Unbroken ds := fun c hc => h c (hds hc)

theorem replicate (n : Nat) (hc : ' ' ≤ c) : Unbroken (List.replicate n c) :=
  fun _ hd => List.eq_of_mem_replicate hd ▸ hc

theorem newline_not_mem (h : Unbroken cs) : '\n' ∉ cs := fun hmem => absurd (h _ hmem) (by decide)

end Unbroken

theorem le_digitChar : ∀ n < 16, ' ' ≤ Nat.digitChar n := by decide

@[simp] theorem unbroken_toDigits {base : Nat} (hleast : 1 < base) (hmost : base ≤ 16) (n : Nat) :
    Unbroken (Nat.toDigits base n) := by
  induction n using Nat.strongRecOn with
  | ind n ih =>
    obtain hlt | hle := Nat.lt_or_ge n base
    · rw [Nat.toDigits_of_lt_base hlt]
      simp [le_digitChar n (Nat.lt_of_lt_of_le hlt hmost)]
    · have hlast : n % base < 16 :=
        Nat.lt_of_lt_of_le (Nat.mod_lt n (Nat.zero_lt_of_lt hleast)) hmost
      have hinner := ih _ (Nat.div_lt_self (by omega) hleast)
      rw [Nat.toDigits_of_base_le hleast hle]
      simp [hinner, le_digitChar _ hlast]

namespace Decimal

theorem unbroken_ofScaled (d : Nat) (k : Int) : Unbroken (Digits.ofScaled d k).digits := by
  have hdigits : Unbroken (Nat.toDigits 10 d) := by simp
  refine hdigits.of_subset fun c hc => ?_
  have hmem := (List.dropWhile_sublist _).subset (List.mem_reverse.mp hc)
  exact List.mem_reverse.mp hmem

theorem unbroken_shortest (m : Nat) (q : Int) : Unbroken (shortest m q).digits := by
  unfold shortest
  dsimp only
  split
  · rename_i d hd
    obtain ⟨n, -, hn⟩ := List.exists_of_findSome?_eq_some hd
    obtain ⟨point, -, rfl⟩ := Option.map_eq_some_iff.mp hn
    exact unbroken_ofScaled point _
  · exact unbroken_ofScaled 0 0

variable {d : Digits}

theorem unbroken_positional (h : Unbroken d.digits) : Unbroken d.positional := by
  have hwhole (n : Nat) : Unbroken (d.digits.take n) := h.of_subset (List.take_subset n _)
  have hfraction (n : Nat) : Unbroken (d.digits.drop n) := h.of_subset (List.drop_subset n _)
  have hzeros (n : Nat) : Unbroken (List.replicate n '0') := .replicate n (by decide)
  unfold Digits.positional
  dsimp only
  split
  · simp [hzeros, h]
  · split <;> simp [hwhole, hfraction, hzeros]

theorem unbroken_exponential (h : Unbroken d.digits) : Unbroken d.exponential := by
  have hwhole : Unbroken (d.digits.take 1) := h.of_subset (List.take_subset 1 _)
  have hfraction : Unbroken d.digits.tail := h.of_subset (List.tail_sublist _).subset
  unfold Digits.exponential
  dsimp only
  split <;> split <;> simp [hwhole, hfraction]

theorem Style.unbroken_write (s : Style) (x : Float) : Unbroken (s.write x).toList := by
  unfold Style.write
  split
  · simp
  dsimp only
  rw [String.toList_ofList]
  generalize hd : shortest _ _ = d
  have hdigits : Unbroken d.digits := hd ▸ unbroken_shortest _ _
  have hpositional := unbroken_positional hdigits
  have hexponential := unbroken_exponential hdigits
  repeat' split
  all_goals simp [hpositional, hexponential]

end Decimal

namespace Json

@[simp] theorem unbroken_numberText (n : Number) : Unbroken (numberText n) := by
  cases n with
  | int i =>
    rw [numberText, intText]
    split <;> simp
  | float x => exact Decimal.Style.unbroken_write .json x

theorem unbroken_unicodeEscape (c : Char) : Unbroken (unicodeEscape c) := by
  simp [unicodeEscape, Unbroken.replicate]

theorem unbroken_escapeChar (c : Char) : Unbroken (escapeChar c) := by
  unfold escapeChar
  iterate 7
    split
    · simp
  split
  · exact unbroken_unicodeEscape c
  · simpa using ‹¬c < ' '›

@[simp] theorem unbroken_quote (s : String) : Unbroken (quote s) := by
  have hchars : Unbroken (s.toList.flatMap escapeChar) := by
    intro c hc
    obtain ⟨d, -, hd⟩ := List.mem_flatMap.mp hc
    exact unbroken_escapeChar d c hd
  simp [quote, hchars]

theorem unbroken_joinWith {texts : List (List Char)} (h : ∀ cs ∈ texts, Unbroken cs) :
    Unbroken (joinWith [','] texts) := by
  fun_induction joinWith [','] texts with
  | case1 => exact .nil
  | case2 x => exact h x List.mem_cons_self
  | case3 x y rest ih =>
    obtain ⟨hx, hrest⟩ := List.forall_mem_cons.mp h
    simp [hx, ih hrest]

mutual

/-- A value on one line has no control character. -/
theorem unbroken_compactChars : ∀ v : Json, Unbroken v.compactChars
  | .null => by simp [compactChars]
  | .bool true => by simp [compactChars]
  | .bool false => by simp [compactChars]
  | .num n => by simp [compactChars]
  | .str s => by simp [compactChars]
  | .arr items => by
    simp [compactChars, unbroken_joinWith (unbroken_compactItems items)]
  | .obj ⟨members⟩ => by
    simp [compactChars, unbroken_joinWith (unbroken_compactMembers members)]

theorem unbroken_compactItems : ∀ items : List Json, ∀ cs ∈ compactItems items, Unbroken cs
  | [] => by simp [compactItems]
  | v :: rest => by
    rw [compactItems]
    exact List.forall_mem_cons.mpr ⟨unbroken_compactChars v, unbroken_compactItems rest⟩

theorem unbroken_compactMembers :
    ∀ members : List (String × Json), ∀ cs ∈ compactMembers members, Unbroken cs
  | [] => by simp [compactMembers]
  | (k, v) :: rest => by
    rw [compactMembers]
    have hmember : Unbroken (quote k ++ ':' :: v.compactChars) := by
      simp [unbroken_compactChars v]
    exact List.forall_mem_cons.mpr ⟨hmember, unbroken_compactMembers rest⟩

end

end Json
end Workflow
