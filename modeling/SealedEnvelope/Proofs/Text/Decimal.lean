import Mathlib.Algebra.Group.Nat.Defs
import SealedEnvelope.Text.Basic

/-!
# Decimal digits

Digits are read from left to right, one step for each. The digits of a number spell it, and the first
of them is not zero unless the number is.
-/

namespace SealedEnvelope

namespace Text

def IsDigits (t : Text) : Prop := ∀ u ∈ t, 0x30 ≤ u ∧ u ≤ 0x39

/-- The number that the digits of `n` and those of `t` behind them spell. -/
def decimal (n : Nat) (t : Text) : Nat := t.foldl (fun n u => n * 10 + (u.toNat - 0x30)) n

theorem IsDigits.cons {u : CodeUnit} {t : Text} (hu : 0x30 ≤ u ∧ u ≤ 0x39) (ht : IsDigits t) :
    IsDigits (u :: t) := by
  intro w hw
  rcases List.mem_cons.mp hw with rfl | hw
  · exact hu
  · exact ht w hw

theorem IsDigits.append {s t : Text} (hs : IsDigits s) (ht : IsDigits t) : IsDigits (s ++ t) := by
  intro w hw
  rcases List.mem_append.mp hw with hw | hw
  · exact hs w hw
  · exact ht w hw

theorem IsDigits.of_cons {u : CodeUnit} {t : Text} (h : IsDigits (u :: t)) :
    (0x30 ≤ u ∧ u ≤ 0x39) ∧ IsDigits t :=
  ⟨h u List.mem_cons_self, fun w hw => h w (List.mem_cons_of_mem u hw)⟩

theorem isDigits_zeros (k : Nat) : IsDigits (List.replicate k 0x30) := by
  intro w hw
  obtain ⟨-, rfl⟩ := List.mem_replicate.mp hw
  decide

theorem digit?_eq {u : CodeUnit} (h : 0x30 ≤ u ∧ u ≤ 0x39) : digit? u = some (u.toNat - 0x30) := by
  unfold digit?
  rw [if_pos]
  rw [Bool.and_eq_true, decide_eq_true_eq, decide_eq_true_eq]
  exact h

theorem decimal_append (n : Nat) (s t : Text) : decimal n (s ++ t) = decimal (decimal n s) t :=
  List.foldl_append

theorem decimal_zeros (n k : Nat) : decimal n (List.replicate k 0x30) = n * 10 ^ k := by
  induction k generalizing n with
  | zero => exact (Nat.mul_one n).symm
  | succ k ih =>
    have hstep : decimal n (List.replicate (k + 1) 0x30) = decimal (n * 10) (List.replicate k 0x30) :=
      rfl
    rw [hstep, ih, Nat.pow_succ, Nat.mul_comm (10 ^ k), Nat.mul_assoc]

/-! ### The digits of a number -/

theorem unit_bounds {d : Nat} (hd : d < 10) :
    (UInt16.ofNat (0x30 + d)).toNat = 0x30 + d ∧ 0x30 ≤ UInt16.ofNat (0x30 + d) ∧
      UInt16.ofNat (0x30 + d) ≤ 0x39 := by
  have hval : (UInt16.ofNat (0x30 + d)).toNat = 0x30 + d := by
    rw [UInt16.toNat_ofNat']
    omega
  refine ⟨hval, ?_, ?_⟩
  · rw [UInt16.le_iff_toNat_le, hval]
    exact Nat.le_add_right 0x30 d
  · rw [UInt16.le_iff_toNat_le, hval]
    change 0x30 + d ≤ 0x39
    omega

theorem exists_digit {u : CodeUnit} (h : 0x30 ≤ u ∧ u ≤ 0x39) :
    ∃ d < 10, u = UInt16.ofNat (0x30 + d) := by
  have hlow : 0x30 ≤ u.toNat := UInt16.le_iff_toNat_le.mp h.1
  have hhigh : u.toNat ≤ 0x39 := UInt16.le_iff_toNat_le.mp h.2
  refine ⟨u.toNat - 0x30, by omega, ?_⟩
  rw [Nat.add_sub_cancel' hlow, UInt16.ofNat_toNat]

theorem ofNat_of_lt {n : Nat} (h : n < 10) : ofNat n = [UInt16.ofNat (0x30 + n)] := by
  unfold ofNat
  rw [Nat.toDigits_of_lt_base h, List.map_singleton, Nat.toNat_digitChar_of_lt_ten h]

theorem ofNat_of_ge {n : Nat} (h : 10 ≤ n) :
    ofNat n = ofNat (n / 10) ++ [UInt16.ofNat (0x30 + n % 10)] := by
  unfold ofNat
  rw [Nat.toDigits_of_base_le (by decide) h, List.map_append, List.map_singleton,
    Nat.toNat_digitChar_of_lt_ten (Nat.mod_lt n (by decide))]

/-- The digits of a number begin with one that is not zero, and spell the number. -/
theorem ofNat_spec {n : Nat} (hpos : 0 < n) :
    ∃ u t, ofNat n = u :: t ∧ 0x31 ≤ u ∧ u ≤ 0x39 ∧ IsDigits t ∧ decimal 0 (u :: t) = n := by
  induction n using Nat.strongRecOn with
  | ind n ih =>
    rcases Nat.lt_or_ge n 10 with hsmall | hlarge
    · obtain ⟨hval, -, hle⟩ := unit_bounds hsmall
      refine ⟨_, [], ofNat_of_lt hsmall, ?_, hle, fun w hw => absurd hw (List.not_mem_nil), ?_⟩
      · rw [UInt16.le_iff_toNat_le, hval]
        change 0x31 ≤ 0x30 + n
        omega
      · change 0 * 10 + ((UInt16.ofNat (0x30 + n)).toNat - 0x30) = n
        omega
    · obtain ⟨u, t, htext, hlow, hhigh, ht, hvalue⟩ := ih (n / 10) (by omega) (by omega)
      obtain ⟨hval, hbounds⟩ := unit_bounds (Nat.mod_lt n (show 0 < 10 by decide))
      refine ⟨u, t ++ [UInt16.ofNat (0x30 + n % 10)], ?_, hlow, hhigh, ?_, ?_⟩
      · rw [ofNat_of_ge hlarge, htext, List.cons_append]
      · exact ht.append (IsDigits.cons hbounds fun w hw => absurd hw (List.not_mem_nil))
      · rw [← List.cons_append, decimal_append, hvalue]
        change n / 10 * 10 + ((UInt16.ofNat (0x30 + n % 10)).toNat - 0x30) = n
        omega

theorem isDigits_ofNat (n : Nat) : IsDigits (ofNat n) := by
  rcases Nat.eq_zero_or_pos n with rfl | hpos
  · rw [ofNat_of_lt (by decide)]
    exact IsDigits.cons (by decide) fun w hw => absurd hw (List.not_mem_nil)
  · obtain ⟨u, t, htext, hlow, hhigh, ht, -⟩ := ofNat_spec hpos
    rw [htext]
    refine IsDigits.cons ⟨?_, hhigh⟩ ht
    exact UInt16.le_trans (by decide) hlow

theorem ofNat_ne_nil (n : Nat) : ofNat n ≠ [] := by
  unfold ofNat
  rw [ne_eq, List.map_eq_nil_iff]
  exact Nat.toDigits_ne_nil

theorem decimal_ofNat (n : Nat) : decimal 0 (ofNat n) = n := by
  rcases Nat.eq_zero_or_pos n with rfl | hpos
  · rfl
  · obtain ⟨u, t, htext, -, -, -, hvalue⟩ := ofNat_spec hpos
    rw [htext, hvalue]

end Text
end SealedEnvelope
