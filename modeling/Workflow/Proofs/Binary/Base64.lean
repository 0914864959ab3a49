import Workflow.Binary.Base64
import Mathlib.Data.List.Basic

/-!
# Base64 is read back

Symbols are written for six bits each, and six bits are read of each. So the groups of four symbols
give back the bytes that they were written for, and the last group does with its fillers.
-/
namespace Workflow.Base64

theorem value?_symbol {n : Nat} (h : n < 64) : value? (symbol n) = some n := by
  have hall : ∀ n < 64, value? (symbol n) = some n := by decide
  exact hall n h

theorem symbol_ne_filler {n : Nat} (h : n < 64) : symbol n ≠ filler := by
  intro hfiller
  have hvalue := value?_symbol h
  rw [hfiller] at hvalue
  cases hvalue

theorem valueAt_symbol {n : Nat} (h : n < 64) (offset : Nat) :
    valueAt offset (symbol n) = .ok n := by
  rw [valueAt, value?_symbol h]

theorem readLast_symbol {n : Nat} (h : n < 64) (start i : Nat) (read : List (UInt8 × Nat))
    (rest : Bytes) :
    readLast start i ⟨read, 0, 0⟩ (symbol n :: rest) =
      readLast start (i + 1) ⟨read ++ [(symbol n, n)], 0, 0⟩ rest := by
  rw [readLast, if_neg (symbol_ne_filler h), if_neg (Nat.lt_irrefl 0), value?_symbol h]

theorem decodeFrom_last {last : Bytes} (h : last.length < 5) (start : Nat) :
    decodeFrom start last = readLast start 0 ⟨[], 0, 0⟩ last >>= finishLast start := by
  match last with
  | [] => rfl
  | [_] => rfl
  | [_, _] => rfl
  | [_, _, _] => rfl
  | [_, _, _, _] => rfl
  | _ :: _ :: _ :: _ :: _ :: _ => simp only [List.length_cons] at h; omega

theorem finishLast_one {x : Nat} (h : x % 16 = 0) (start w : Nat) (s t : UInt8) :
    finishLast start ⟨[(s, w), (t, x)], 2, 2⟩ = .ok [UInt8.ofNat (w * 4 + x / 16)] := by
  unfold finishLast
  simp only [List.length_cons, List.length_nil, Nat.zero_add, h]
  rfl

theorem finishLast_two {y : Nat} (h : y % 4 = 0) (start w x : Nat) (s t u : UInt8) :
    finishLast start ⟨[(s, w), (t, x), (u, y)], 1, 3⟩ =
      .ok [UInt8.ofNat (w * 4 + x / 16), UInt8.ofNat (x % 16 * 16 + y / 4)] := by
  unfold finishLast
  simp only [List.length_cons, List.length_nil, Nat.zero_add, h]
  rfl

theorem finishLast_three (start w x y z : Nat) (s t u v : UInt8) :
    finishLast start ⟨[(s, w), (t, x), (u, y), (v, z)], 0, 0⟩ = .ok (joinFour w x y z) := by
  unfold finishLast
  simp only [List.length_cons, List.length_nil, Nat.zero_add]
  rfl

/-- Three bytes are put together from the six bits of four symbols. -/
theorem joinFour_split (a b c : UInt8) :
    joinFour (a.toNat / 4) (a.toNat % 4 * 16 + b.toNat / 16) (b.toNat % 16 * 4 + c.toNat / 64)
      (c.toNat % 64) = [a, b, c] := by
  have ha := a.toNat_lt
  have hb := b.toNat_lt
  have hc := c.toNat_lt
  have hfirst : a.toNat / 4 * 4 + (a.toNat % 4 * 16 + b.toNat / 16) / 16 = a.toNat := by omega
  have hsecond : (a.toNat % 4 * 16 + b.toNat / 16) % 16 * 16 +
      (b.toNat % 16 * 4 + c.toNat / 64) / 4 = b.toNat := by omega
  have hthird : (b.toNat % 16 * 4 + c.toNat / 64) % 4 * 64 + c.toNat % 64 = c.toNat := by omega
  rw [joinFour, hfirst, hsecond, hthird]
  simp

theorem decodeFrom_three (a b c : UInt8) (start : Nat) :
    decodeFrom start (encode [a, b, c]) = .ok [a, b, c] := by
  have ha := a.toNat_lt
  have hb := b.toNat_lt
  have hc := c.toNat_lt
  have hw : a.toNat / 4 < 64 := by omega
  have hx : a.toNat % 4 * 16 + b.toNat / 16 < 64 := by omega
  have hy : b.toNat % 16 * 4 + c.toNat / 64 < 64 := by omega
  have hz : c.toNat % 64 < 64 := by omega
  rw [encode, encode, decodeFrom_last (by simp), readLast_symbol hw, readLast_symbol hx,
    readLast_symbol hy, readLast_symbol hz]
  change finishLast start ⟨[(symbol (a.toNat / 4), a.toNat / 4),
    (symbol (a.toNat % 4 * 16 + b.toNat / 16), a.toNat % 4 * 16 + b.toNat / 16),
    (symbol (b.toNat % 16 * 4 + c.toNat / 64), b.toNat % 16 * 4 + c.toNat / 64),
    (symbol (c.toNat % 64), c.toNat % 64)], 0, 0⟩ = _
  rw [finishLast_three, joinFour_split]

theorem decodeFrom_two (a b : UInt8) (start : Nat) :
    decodeFrom start (encode [a, b]) = .ok [a, b] := by
  have ha := a.toNat_lt
  have hb := b.toNat_lt
  have hw : a.toNat / 4 < 64 := by omega
  have hx : a.toNat % 4 * 16 + b.toNat / 16 < 64 := by omega
  have hy : b.toNat % 16 * 4 < 64 := by omega
  have hfirst : a.toNat / 4 * 4 + (a.toNat % 4 * 16 + b.toNat / 16) / 16 = a.toNat := by omega
  have hsecond : (a.toNat % 4 * 16 + b.toNat / 16) % 16 * 16 + b.toNat % 16 * 4 / 4 = b.toNat := by
    omega
  have hzero : b.toNat % 16 * 4 % 4 = 0 := by omega
  rw [encode, decodeFrom_last (by simp), readLast_symbol hw, readLast_symbol hx, readLast_symbol hy]
  change finishLast start ⟨[(symbol (a.toNat / 4), a.toNat / 4),
    (symbol (a.toNat % 4 * 16 + b.toNat / 16), a.toNat % 4 * 16 + b.toNat / 16),
    (symbol (b.toNat % 16 * 4), b.toNat % 16 * 4)], 1, 3⟩ = _
  rw [finishLast_two hzero, hfirst, hsecond, UInt8.ofNat_toNat, UInt8.ofNat_toNat]

theorem decodeFrom_one (a : UInt8) (start : Nat) : decodeFrom start (encode [a]) = .ok [a] := by
  have ha := a.toNat_lt
  have hw : a.toNat / 4 < 64 := by omega
  have hx : a.toNat % 4 * 16 < 64 := by omega
  have hfirst : a.toNat / 4 * 4 + a.toNat % 4 * 16 / 16 = a.toNat := by omega
  have hzero : a.toNat % 4 * 16 % 16 = 0 := by omega
  rw [encode, decodeFrom_last (by simp), readLast_symbol hw, readLast_symbol hx]
  change finishLast start ⟨[(symbol (a.toNat / 4), a.toNat / 4),
    (symbol (a.toNat % 4 * 16), a.toNat % 4 * 16)], 2, 2⟩ = _
  rw [finishLast_one hzero, hfirst, UInt8.ofNat_toNat]

theorem encode_ne_nil {bs : Bytes} (h : bs ≠ []) : ∃ e rest, encode bs = e :: rest := by
  match bs with
  | [a] => exact ⟨_, _, rfl⟩
  | [a, b] => exact ⟨_, _, rfl⟩
  | a :: b :: c :: rest => exact ⟨_, _, rfl⟩

theorem decodeFrom_encode {bs : Bytes} (h : bs ≠ []) (start : Nat) :
    decodeFrom start (encode bs) = .ok bs := by
  fun_induction encode bs generalizing start with
  | case1 a b c rest ih =>
    by_cases hrest : rest = []
    · subst hrest
      exact decodeFrom_three a b c start
    · have ha := a.toNat_lt
      have hb := b.toNat_lt
      have hc := c.toNat_lt
      have hw : a.toNat / 4 < 64 := by omega
      have hx : a.toNat % 4 * 16 + b.toNat / 16 < 64 := by omega
      have hy : b.toNat % 16 * 4 + c.toNat / 64 < 64 := by omega
      have hz : c.toNat % 64 < 64 := by omega
      obtain ⟨e, others, hothers⟩ := encode_ne_nil hrest
      rw [hothers, decodeFrom, valueAt_symbol hw, valueAt_symbol hx, valueAt_symbol hy,
        valueAt_symbol hz, ← hothers]
      change (decodeFrom (start + 4) (encode rest) >>= _) = _
      rw [ih hrest]
      exact congrArg (fun bs => Except.ok (bs ++ rest)) (joinFour_split a b c)
  | case2 a b => exact decodeFrom_two a b start
  | case3 a => exact decodeFrom_one a start
  | case4 => exact absurd rfl h

theorem encode_length (bs : Bytes) : (encode bs).length % 4 = 0 := by
  fun_induction encode bs with
  | case1 a b c rest ih =>
    simp only [List.length_cons]
    omega
  | case2 => simp
  | case3 => simp
  | case4 => simp

theorem decode_encode (bs : Bytes) : decode (encode bs) = .ok bs := by
  by_cases hbs : bs = []
  · subst hbs
    rfl
  · obtain ⟨e, rest, hsome⟩ := encode_ne_nil hbs
    have hempty : (encode bs).isEmpty = false := by
      rw [hsome]
      rfl
    have hlength : (encode bs).length % 4 ≠ 1 := by
      rw [encode_length]
      exact Nat.zero_ne_one
    rw [decode, hempty, if_neg Bool.false_ne_true, if_neg hlength]
    exact decodeFrom_encode hbs 0

theorem symbol_lt {n : Nat} (h : n < 64) : (symbol n).toNat < 128 := by
  have hall : ∀ n < 64, (symbol n).toNat < 128 := by decide
  exact hall n h

theorem encode_lt (bs : Bytes) : ∀ b ∈ encode bs, b.toNat < 128 := by
  fun_induction encode bs with
  | case1 a b c rest ih =>
    have ha := a.toNat_lt
    have hb := b.toNat_lt
    have hc := c.toNat_lt
    simp only [List.forall_mem_cons]
    exact ⟨symbol_lt (by omega), symbol_lt (by omega), symbol_lt (by omega), symbol_lt (by omega),
      ih⟩
  | case2 a b =>
    have ha := a.toNat_lt
    have hb := b.toNat_lt
    simp only [List.forall_mem_cons]
    exact ⟨symbol_lt (by omega), symbol_lt (by omega), symbol_lt (by omega), by decide,
      List.forall_mem_nil _⟩
  | case3 a =>
    have ha := a.toNat_lt
    simp only [List.forall_mem_cons]
    exact ⟨symbol_lt (by omega), symbol_lt (by omega), by decide, by decide, List.forall_mem_nil _⟩
  | case4 => exact List.forall_mem_nil _

/-- A text of characters of ASCII has their codes as its bytes. -/
theorem utf8_ascii {bs : Bytes} (h : ∀ b ∈ bs, b.toNat < 128) :
    Text.utf8 (String.ofList (bs.map fun b => Char.ofNat b.toNat)) = bs := by
  have htext (l : List Char) : Text.utf8 (String.ofList l) = l.flatMap String.utf8EncodeChar := by
    simp [Text.utf8, List.utf8Encode]
  have hchars : ∀ n < 128, String.utf8EncodeChar (Char.ofNat n) = [UInt8.ofNat n] := by decide
  rw [htext]
  induction bs with
  | nil => rfl
  | cons b bs ih =>
    have hb : b.toNat < 128 := h b List.mem_cons_self
    have hchar : String.utf8EncodeChar (Char.ofNat b.toNat) = [b] := by
      rw [hchars b.toNat hb, UInt8.ofNat_toNat]
    rw [List.map_cons, List.flatMap_cons, hchar,
      ih fun c hc => h c (List.mem_cons_of_mem b hc)]
    rfl

/-- Bytes are read back from their text. -/
theorem decodeText_encodeText (bs : Bytes) : decodeText (encodeText bs) = .ok bs := by
  rw [decodeText, encodeText, utf8_ascii (encode_lt bs), decode_encode]

end Workflow.Base64
