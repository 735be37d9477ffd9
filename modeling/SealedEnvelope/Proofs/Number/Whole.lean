import Mathlib.Algebra.Order.Field.Rat
import Mathlib.Data.Rat.Cast.CharZero
import SealedEnvelope.Proofs.Number.Rounding

/-!
# Whole numbers

A finite double stands for a rational number. It equals an integer exactly if its units make that many
ones, and the whole numbers up to the precision of a double are doubles.
-/

namespace SealedEnvelope

namespace Double

/-- The number that a finite double stands for. -/
def value? (d : Double) : Option ℚ :=
  d.signedUnits?.map fun units : Int => (units : ℚ) / (unitsPerOne : ℚ)

theorem natCast_eq_mul_iff {a b : Nat} (hb : 0 < b) {k : Int} :
    (a : Int) = k * b ↔ a % b = 0 ∧ ((a / b : Nat) : Int) = k := by
  constructor
  · intro h
    have hdvd : b ∣ a := Int.natCast_dvd_natCast.mp ⟨k, by rw [h, Int.mul_comm]⟩
    refine ⟨Nat.mod_eq_zero_of_dvd hdvd, ?_⟩
    rw [Int.natCast_ediv, h, Int.mul_ediv_cancel _ (Int.natCast_ne_zero.mpr hb.ne')]
  · rintro ⟨hmod, rfl⟩
    exact_mod_cast (Nat.div_mul_cancel (Nat.dvd_of_mod_eq_zero hmod)).symm

theorem value?_finite {negative : Bool} {units : Nat} {n : Int} :
    (finite negative units).value? = some (n : ℚ) ↔
      (if negative then -(units : Int) else units) = n * unitsPerOne := by
  have hpos : (unitsPerOne : ℚ) ≠ 0 := Nat.cast_ne_zero.mpr unitsPerOne_pos.ne'
  simp only [value?, signedUnits?, Option.map_some, Option.some.injEq]
  generalize unitsPerOne = scale at *
  rw [div_eq_iff hpos]
  norm_cast

/-- The integer that is found is the number that the double stands for. -/
theorem toInt?_eq_some {d : Double} {n : Int} : d.toInt? = some n ↔ d.value? = some (n : ℚ) := by
  cases d with
  | nan => exact ⟨fun h => (nomatch h), fun h => (nomatch h)⟩
  | infinite negative => exact ⟨fun h => (nomatch h), fun h => (nomatch h)⟩
  | finite negative units =>
    rw [value?_finite]
    simp only [toInt?, Option.ite_none_right_eq_some, Option.some.injEq]
    cases negative with
    | false => exact (natCast_eq_mul_iff unitsPerOne_pos).symm
    | true =>
      have hsign : -(units : Int) = n * unitsPerOne ↔ (units : Int) = -n * unitsPerOne := by
        rw [Int.neg_mul]
        omega
      simp only [if_true, hsign, natCast_eq_mul_iff unitsPerOne_pos, neg_eq_iff_eq_neg]

/-! ### The whole numbers that are doubles -/

theorem roundUnits_of_dvd {units : Nat} (h : 2 ^ spacing units ∣ units) :
    roundUnits units 1 = units := by
  have hgap : 0 < 2 ^ spacing units := Nat.two_pow_pos _
  have hwhole : units / 2 ^ spacing units * 2 ^ spacing units = units := Nat.div_mul_cancel h
  have hround : roundHalfEven units (2 ^ spacing units) = units / 2 ^ spacing units :=
    roundHalfEven_eq hgap (by omega) (by omega) (by omega)
  change roundHalfEven units (1 * 2 ^ spacing (units / 1)) * 2 ^ spacing (units / 1) = units
  rw [Nat.div_one, Nat.one_mul, hround, hwhole]

theorem ofNat_eq {n : Nat} (h : n < 2 ^ 53) : ofNat n = .finite false (n * unitsPerOne) := by
  have hdvd : 2 ^ spacing (n * unitsPerOne) ∣ n * unitsPerOne := by
    rw [unitsPerOne_eq]
    exact two_pow_spacing_dvd_mul h.le 1074
  have hbound : n * unitsPerOne < overflow :=
    (Nat.mul_lt_mul_of_pos_right h unitsPerOne_pos).trans_le mul_unitsPerOne_le
  rw [ofNat, ofRatio, roundUnits_of_dvd hdvd, ofUnits, if_pos hbound]

theorem value?_ofNat {n : Nat} (h : n < 2 ^ 53) : (ofNat n).value? = some (n : ℚ) := by
  rw [ofNat_eq h]
  have hvalue : (finite false (n * unitsPerOne)).value? = some ((n : Int) : ℚ) :=
    value?_finite.mpr (Int.natCast_mul n unitsPerOne)
  exact hvalue

end Double
end SealedEnvelope
