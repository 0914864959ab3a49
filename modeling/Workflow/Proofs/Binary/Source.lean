import Workflow.Binary.Source

/-!
# What a source delivers

However a source delivers its bytes, and however many of them a reader asks for at a time, the bytes
up to its end are the same. Those that are taken from its start are put back before the rest.
-/
namespace Workflow.Source
variable {n : Nat} {head : Bytes} {source rest : Source}

theorem drain_append (source rest : Source) :
    drain (source ++ rest) = source.drain >>= fun bs => rest.drain.map (bs ++ ·) := by
  induction source with
  | nil =>
    change rest.drain = rest.drain.map id
    cases rest.drain <;> rfl
  | cons e source ih =>
    cases e with
    | piece bs =>
      change (drain (source ++ rest)).map (bs ++ ·) = ((drain source).map (bs ++ ·)) >>= _
      rw [ih]
      cases drain source with
      | error cause => rfl
      | ok bytes => cases rest.drain <;> simp [bind, Except.bind, Except.map]
    | interrupted => exact ih
    | failure cause => rfl

theorem drain_ofBytes (bs : Bytes) : (ofBytes bs).drain = .ok bs :=
  congrArg Except.ok (List.append_nil bs)

theorem drain_map_piece (pieces : List Bytes) :
    drain (pieces.map .piece) = .ok pieces.flatten := by
  induction pieces with
  | nil => rfl
  | cons bs pieces ih =>
    rw [List.map_cons, drain, ih]
    rfl

theorem flatten_pieces (n : Nat) (bs : Bytes) : (pieces n bs).flatten = bs := by
  fun_induction pieces n bs with
  | case1 bs h => exact List.append_nil bs
  | case2 bs h ih => rw [List.flatten_cons, ih, List.take_append_drop]

/-- Asking for fewer bytes at a time does not change what is read. -/
theorem drain_chunked (n : Nat) (source : Source) : (source.chunked n).drain = source.drain := by
  induction source with
  | nil => rfl
  | cons e source ih =>
    rw [chunked, List.flatMap_cons, ← chunked, drain_append, ih]
    cases e with
    | piece bs =>
      dsimp only
      rw [drain_map_piece, flatten_pieces]
      rfl
    | interrupted =>
      change (drain source).map id = drain source
      cases drain source <;> rfl
    | failure cause => rfl

/-- The bytes that were taken come first, and what is read then is the rest. -/
theorem drain_takeUpTo (h : source.takeUpTo n = .ok (head, rest)) :
    drain (.piece head :: rest) = source.drain := by
  fun_induction takeUpTo n source generalizing head with
  | case1 n =>
    cases h
    rfl
  | case2 e source =>
    cases h
    change (drain (e :: source)).map id = drain (e :: source)
    cases drain (e :: source) <;> rfl
  | case3 n source hn bs hlt =>
    cases h
    rw [drain, drain, drain]
    cases drain source with
    | error cause => rfl
    | ok bytes => simp [Except.map, ← List.append_assoc]
  | case4 n source hn bs hle ih =>
    cases htake : takeUpTo (n - bs.length) source with
    | error cause =>
      rw [htake] at h
      cases h
    | ok taken =>
      rw [htake] at h
      cases h
      have hrest := ih htake
      rw [drain] at hrest ⊢
      rw [drain, ← hrest]
      cases drain taken.2 <;> simp [Except.map]
  | case5 n source hn ih => exact ih h
  | case6 n source hn cause => cases h

/-- Fewer bytes than asked for are all that there are. -/
theorem takeUpTo_length (h : source.takeUpTo n = .ok (head, rest)) :
    head.length = n ∨ head.length < n ∧ rest = [] := by
  fun_induction takeUpTo n source generalizing head with
  | case1 n =>
    cases h
    rcases Nat.eq_zero_or_pos n with rfl | hn
    · exact .inl rfl
    · exact .inr ⟨hn, rfl⟩
  | case2 e source =>
    cases h
    exact .inl rfl
  | case3 n source hn bs hlt =>
    cases h
    exact .inl (List.length_take_of_le (Nat.le_of_lt hlt))
  | case4 n source hn bs hle ih =>
    cases htake : takeUpTo (n - bs.length) source with
    | error cause =>
      rw [htake] at h
      cases h
    | ok taken =>
      rw [htake] at h
      cases h
      rw [List.length_append]
      rcases ih htake with hall | ⟨hless, hend⟩
      · exact .inl (by omega)
      · exact .inr ⟨by omega, hend⟩
  | case5 n source hn ih => exact ih h
  | case6 n source hn cause => cases h

/-- The bytes that are taken are fewer than asked for exactly if all of them are. -/
theorem length_lt_iff (h : source.takeUpTo n = .ok (head, rest)) {bytes : Bytes}
    (hbytes : source.drain = .ok bytes) : head.length < n ↔ bytes.length < n := by
  rw [← drain_takeUpTo h, drain] at hbytes
  rcases takeUpTo_length h with hall | ⟨hless, rfl⟩
  · cases hrest : drain rest with
    | error cause =>
      rw [hrest] at hbytes
      cases hbytes
    | ok others =>
      rw [hrest] at hbytes
      cases hbytes
      rw [List.length_append]
      omega
  · cases hbytes
    change head.length < n ↔ (head ++ []).length < n
    rw [List.append_nil]

end Workflow.Source
