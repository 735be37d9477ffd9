import SealedEnvelope.Proofs.Number.Shortest

/-!
# The decimal of a double is rounded to it

A decimal in the interval of a double is converted to that double. The conversion settles very large and
very small decimals from their size, so it has to be shown that these are in no interval.
-/

namespace SealedEnvelope

namespace Double

theorem interval_bounds {units : Nat} (hpos : 0 < units) (hrep : 2 ^ spacing units ∣ units) :
    2 * units ≤ (interval units).low ∧ (interval units).high ≤ 6 * units := by
  have hgap := Nat.le_of_dvd hpos hrep
  have hreach := reachBelow_le units
  rw [interval_eq]
  constructor
  · change 2 * units ≤ 4 * units - reachBelow units
    omega
  · change 4 * units + 2 * 2 ^ spacing units ≤ 6 * units
    omega

theorem ofRatio_of_holds {units num den : Nat} (hpos : 0 < units) (hbound : units < overflow)
    (hrep : 2 ^ spacing units ∣ units) (hden : 0 < den) (negative : Bool)
    (h : (interval units).holds (num * quartersPerOne) den = true) :
    ofRatio negative num den = .finite negative units := by
  have hquarters : num * quartersPerOne = 4 * (num * unitsPerOne) := Nat.mul_left_comm num 4 _
  rw [hquarters] at h
  unfold ofRatio
  rw [roundUnits_of_holds hpos hrep hden h, ofUnits, if_pos hbound]

theorem holds_of_serves_ofNat {units digits e : Nat}
    (h : Decimal.Serves ⟨digits, Int.ofNat e⟩ units) :
    (interval units).holds (digits * 10 ^ e * quartersPerOne) 1 = true := by
  obtain ⟨-, h⟩ := h
  revert h
  generalize quartersPerOne = quarters
  intro h
  have hscale : (-Int.ofNat e).toNat = 0 :=
    Int.toNat_eq_zero.mpr (Int.neg_nonpos_of_nonneg (Int.natCast_nonneg e))
  rw [Nat.mul_assoc, Nat.mul_comm (10 ^ e)]
  change (interval units).holds (digits * (quarters * 10 ^ e)) (10 ^ (-Int.ofNat e).toNat) = true
    at h
  rwa [hscale] at h

theorem Decimal.Serves.scaled {units digits : Nat} {exponent : Int} (hnonneg : 0 ≤ exponent)
    (h : Decimal.Serves ⟨digits, exponent⟩ units) :
    Decimal.Serves ⟨digits * 10 ^ exponent.toNat, 0⟩ units := by
  obtain ⟨e, rfl⟩ := Int.eq_ofNat_of_zero_le hnonneg
  refine ⟨Nat.mul_pos h.1 (Nat.pow_pos (by decide)), ?_⟩
  have hholds := holds_of_serves_ofNat h
  revert hholds
  generalize quartersPerOne = quarters
  intro hholds
  rw [← Nat.mul_one quarters] at hholds
  exact hholds

theorem holds_of_serves_negSucc {units digits e : Nat}
    (h : Decimal.Serves ⟨digits, Int.negSucc e⟩ units) :
    (interval units).holds (digits * quartersPerOne) (10 ^ (e + 1)) = true := by
  obtain ⟨-, h⟩ := h
  revert h
  generalize quartersPerOne = quarters
  intro h
  rw [← Nat.mul_one quarters]
  exact h

/-- A decimal that serves a double is not so large that it is taken for infinite unread. -/
theorem exponent_le_of_serves {units digits e : Nat} (hbound : units < overflow)
    (hpos : 0 < units) (hrep : 2 ^ spacing units ∣ units)
    (h : Decimal.Serves ⟨digits, Int.ofNat e⟩ units) : e ≤ 400 := by
  have hdigits : 0 < digits := h.1
  obtain ⟨-, hhigh, -⟩ := Interval.bounds_of_holds (holds_of_serves_ofNat h)
  by_contra hlarge
  have hpower : 10 ^ 401 ≤ 10 ^ e := Nat.pow_le_pow_right (by decide) (Nat.lt_of_not_le hlarge)
  refine Nat.not_le.mpr overflow_lt ?_
  calc 10 ^ 401 * quartersPerOne ≤ 10 ^ e * quartersPerOne := Nat.mul_le_mul_right _ hpower
    _ ≤ digits * 10 ^ e * quartersPerOne :=
      Nat.mul_le_mul_right _ (Nat.le_mul_of_pos_left _ hdigits)
    _ ≤ (interval units).high * 1 := hhigh
    _ = (interval units).high := Nat.mul_one _
    _ ≤ 6 * units := (interval_bounds hpos hrep).2
    _ ≤ 6 * overflow := Nat.mul_le_mul_left _ hbound.le

/-- A decimal that serves a double is not so small that it is taken for zero unread. -/
theorem exponent_ge_of_serves {units digits e : Nat} (hpos : 0 < units)
    (hrep : 2 ^ spacing units ∣ units) (h : Decimal.Serves ⟨digits, Int.negSucc e⟩ units) :
    3 * (e + 1) ≤ Nat.log2 digits + 1201 := by
  obtain ⟨hlow, -⟩ := Interval.bounds_of_holds (holds_of_serves_negSucc h)
  have hlowPos : 1 ≤ (interval units).low := by
    have := (interval_bounds hpos hrep).1
    omega
  have hlt : 2 ^ (3 * (e + 1)) < 2 ^ (Nat.log2 digits + 1 + 1076) := by
    calc 2 ^ (3 * (e + 1)) = 8 ^ (e + 1) := Nat.pow_mul 2 3 (e + 1)
      _ ≤ 10 ^ (e + 1) := Nat.pow_le_pow_left (by decide) _
      _ ≤ (interval units).low * 10 ^ (e + 1) := Nat.le_mul_of_pos_left _ hlowPos
      _ ≤ digits * quartersPerOne := hlow
      _ ≤ digits * 2 ^ 1076 := Nat.mul_le_mul_left _ quartersPerOne_le
      _ < 2 ^ (Nat.log2 digits + 1) * 2 ^ 1076 :=
        Nat.mul_lt_mul_of_pos_right Nat.lt_log2_self (Nat.two_pow_pos 1076)
      _ = 2 ^ (Nat.log2 digits + 1 + 1076) := (Nat.pow_add 2 _ 1076).symm
  have := (Nat.pow_lt_pow_iff_right (by decide)).mp hlt
  omega

theorem ofDecimal_of_serves {units digits : Nat} {exponent : Int} (hpos : 0 < units)
    (hbound : units < overflow) (hrep : 2 ^ spacing units ∣ units) (negative : Bool)
    (h : Decimal.Serves ⟨digits, exponent⟩ units) :
    ofDecimal negative digits exponent = .finite negative units := by
  have hdigits : 0 < digits := h.1
  unfold ofDecimal
  rw [if_neg hdigits.ne']
  cases exponent with
  | ofNat e =>
    have hle := exponent_le_of_serves hbound hpos hrep h
    simp only
    rw [if_neg (Nat.not_lt.mpr hle)]
    exact ofRatio_of_holds hpos hbound hrep Nat.one_pos negative (holds_of_serves_ofNat h)
  | negSucc e =>
    have hge := exponent_ge_of_serves hpos hrep h
    simp only
    rw [if_neg (Nat.not_lt.mpr hge)]
    exact ofRatio_of_holds hpos hbound hrep (Nat.pow_pos (by decide)) negative
      (holds_of_serves_negSucc h)

end Double
end SealedEnvelope
