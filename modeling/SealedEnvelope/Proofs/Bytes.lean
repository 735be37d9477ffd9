import Mathlib.Algebra.Group.Nat.Defs
import SealedEnvelope.Bytes

/-!
# Byte string laws

A byte string that is combined with another twice comes back, and so does one that is cut into pieces
and put together. A number is read back from the bytes that it is written in, so a string behind its
length is told apart from what follows it.
-/

namespace SealedEnvelope

namespace Bytes

theorem xor_xor_right (a b : UInt8) : a ^^^ b ^^^ b = a := by
  rw [UInt8.xor_assoc, UInt8.xor_self, UInt8.xor_zero]

theorem length_xor (a b : Bytes) : (xor a b).length = min a.length b.length := List.length_zipWith

theorem length_xor_of_eq {a b : Bytes} {n : Nat} (ha : a.length = n) (hb : b.length = n) :
    (xor a b).length = n := by rw [length_xor, ha, hb, Nat.min_self]

theorem xor_xor {a b : Bytes} (h : a.length ≤ b.length) : xor (xor a b) b = a := by
  induction a generalizing b with
  | nil => rfl
  | cons x a ih =>
    cases b with
    | nil => exact absurd h (Nat.not_succ_le_zero _)
    | cons y b =>
      change (x ^^^ y ^^^ y) :: xor (xor a b) b = x :: a
      rw [xor_xor_right, ih (Nat.le_of_succ_le_succ h)]

/-! ### Numbers -/

theorem toNat_append_singleton (b : Bytes) (c : UInt8) :
    toNat (b ++ [c]) = toNat b * 256 + c.toNat := by
  unfold toNat
  rw [List.foldl_append]
  rfl

theorem toNat_ofNat {width n : Nat} (h : n < 256 ^ width) : toNat (ofNat width n) = n := by
  induction width generalizing n with
  | zero => exact (Nat.lt_one_iff.mp h).symm
  | succ width ih =>
    have hhigh : n / 256 < 256 ^ width := Nat.div_lt_of_lt_mul (Nat.pow_succ' ▸ h)
    unfold ofNat
    rw [toNat_append_singleton, ih hhigh, UInt8.toNat_ofNat']
    exact Nat.div_add_mod' n 256

theorem ofNat_toNat {n : Nat} {b : Bytes} (h : b.length = n) : ofNat n (toNat b) = b := by
  induction n generalizing b with
  | zero => exact (List.eq_nil_of_length_eq_zero h).symm
  | succ n ih =>
    obtain rfl | ⟨b, c, rfl⟩ := List.eq_nil_or_concat b
    · cases h
    · rw [List.concat_eq_append] at h ⊢
      have hb : b.length = n := by
        rw [List.length_append] at h
        exact Nat.succ.inj h
      have hc : c.toNat < 256 := c.toNat_lt
      have hhigh : (toNat b * 256 + c.toNat) / 256 = toNat b := by omega
      have hlow : UInt8.ofNat (toNat b * 256 + c.toNat) = c := by
        apply UInt8.toNat_inj.mp
        rw [UInt8.toNat_ofNat']
        omega
      unfold ofNat
      rw [toNat_append_singleton, hhigh, hlow, ih hb]

theorem word32_inj {m n : Nat} (hm : m < 2 ^ 32) (hn : n < 2 ^ 32) : word32 m = word32 n ↔ m = n := by
  refine ⟨fun h => ?_, congrArg word32⟩
  have hread : ∀ {k : Nat}, k < 2 ^ 32 → toNat (word32 k) = k := fun h => toNat_ofNat h
  rw [← hread hm, ← hread hn, h]

/-- A framed string is told apart from what follows it. -/
theorem framed_append_inj {a b : Bytes} (ha : a.length < 2 ^ 32) (hb : b.length < 2 ^ 32)
    (s t : Bytes) : a.framed ++ s = b.framed ++ t ↔ a = b ∧ s = t := by
  constructor
  · intro h
    unfold framed at h
    rw [List.append_assoc, List.append_assoc] at h
    obtain ⟨hframes, hrest⟩ := List.append_inj h (by simp)
    exact List.append_inj hrest ((word32_inj ha hb).mp hframes)
  · rintro ⟨rfl, rfl⟩
    rfl

/-! ### Pieces -/

theorem pieces_flatten {size : Nat} (rs done : List Bytes) (h : ∀ r ∈ rs, r.length = size) :
    pieces size rs.length rs.flatten done = done.reverse ++ rs := by
  induction rs generalizing done with
  | nil => exact (List.append_nil _).symm
  | cons r rs ih =>
    have hr : r.length = size := h r List.mem_cons_self
    have hdrop : (r ++ rs.flatten).drop size = rs.flatten := by rw [← hr, List.drop_left]
    have htake : (r ++ rs.flatten).take size = r := by rw [← hr, List.take_left]
    rw [List.flatten_cons, List.length_cons]
    change pieces size rs.length ((r ++ rs.flatten).drop size) ((r ++ rs.flatten).take size :: done) = _
    rw [hdrop, htake, ih (r :: done) fun s hs => h s (List.mem_cons_of_mem r hs),
      List.reverse_cons, List.append_assoc]
    rfl

theorem length_flatten_of_forall {size : Nat} {rs : List Bytes} (h : ∀ r ∈ rs, r.length = size) :
    rs.flatten.length = size * rs.length := by
  induction rs with
  | nil => rfl
  | cons r rs ih =>
    rw [List.flatten_cons, List.length_append, h r List.mem_cons_self,
      ih fun s hs => h s (List.mem_cons_of_mem r hs), List.length_cons, Nat.mul_succ, Nat.add_comm]

theorem blocks_flatten {size : Nat} (hsize : 0 < size) {rs : List Bytes}
    (h : ∀ r ∈ rs, r.length = size) : blocks size rs.flatten = rs := by
  have hcount : (size * rs.length + (size - 1)) / size = rs.length := by
    rw [Nat.mul_add_div hsize, Nat.div_eq_of_lt (Nat.sub_lt hsize Nat.one_pos), Nat.add_zero]
  unfold blocks
  rw [length_flatten_of_forall h, hcount, pieces_flatten rs [] h]
  rfl

theorem exists_pieces {size : Nat} : ∀ (n : Nat) (b : Bytes), b.length = size * n →
    ∃ rs : List Bytes, rs.flatten = b ∧ rs.length = n ∧ ∀ r ∈ rs, r.length = size
  | 0, b, h => ⟨[], (List.eq_nil_of_length_eq_zero h).symm, rfl, fun _ hr => absurd hr List.not_mem_nil⟩
  | n + 1, b, h => by
    rw [Nat.mul_succ] at h
    have hrest : (b.drop size).length = size * n := by rw [List.length_drop, h, Nat.add_sub_cancel]
    have hfirst : (b.take size).length = size := by
      rw [List.length_take, h]
      exact Nat.min_eq_left (Nat.le_add_left size _)
    obtain ⟨rs, hflatten, hlength, hrs⟩ := exists_pieces n (b.drop size) hrest
    refine ⟨b.take size :: rs, ?_, by rw [List.length_cons, hlength], ?_⟩
    · rw [List.flatten_cons, hflatten, List.take_append_drop]
    · intro r hr
      rcases List.mem_cons.mp hr with rfl | hr
      · exact hfirst
      · exact hrs r hr

theorem blocks_spec {size n : Nat} (hsize : 0 < size) {b : Bytes} (h : b.length = size * n) :
    (blocks size b).flatten = b ∧ (blocks size b).length = n ∧
      ∀ r ∈ blocks size b, r.length = size := by
  obtain ⟨rs, rfl, hlength, hrs⟩ := exists_pieces n b h
  rw [blocks_flatten hsize hrs]
  exact ⟨rfl, hlength, hrs⟩

end Bytes
end SealedEnvelope
