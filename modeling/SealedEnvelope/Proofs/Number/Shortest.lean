import SealedEnvelope.Proofs.Number.Rounding

/-!
# The shortest decimal is in the interval

The main fact is `shortest_serves`: the decimal chosen for a double lies in the interval of the double.
Any decimal that is found does, so what has to be shown is that seventeen digits are enough to find
one: two neighbours on the last grid cannot both miss the interval, because they are closer to each
other than its ends are.
-/

namespace SealedEnvelope

namespace Double

/-- The decimal lies in the interval of a double. -/
def Decimal.Serves (d : Decimal) (units : Nat) : Prop :=
  0 < d.digits ∧
    (interval units).holds (d.digits * (quartersPerOne * 10 ^ d.exponent.toNat))
      (10 ^ (-d.exponent).toNat) = true

/-! ### What is found serves -/

theorem serves_of_onGrid? {units : Nat} {e : Int} {d : Decimal} (h : onGrid? units e = some d) :
    d.Serves units := by
  unfold onGrid? at h
  extract_lets scaleUp step value below fits at h
  have hserves : ∀ n, 0 < n → fits n = true → (Decimal.mk n e).Serves units := fun n hn hfits =>
    ⟨hn, hfits⟩
  split at h
  · rename_i hbelow habove
    rw [Bool.and_eq_true, decide_eq_true_eq] at hbelow
    split at h
    · exact Option.some.inj h ▸ hserves below hbelow.2 hbelow.1
    · exact Option.some.inj h ▸ hserves (below + 1) (Nat.succ_pos _) habove
  · rename_i hbelow habove
    rw [Bool.and_eq_true, decide_eq_true_eq] at hbelow
    exact Option.some.inj h ▸ hserves below hbelow.2 hbelow.1
  · rename_i hbelow habove
    exact Option.some.inj h ▸ hserves (below + 1) (Nat.succ_pos _) habove
  · exact absurd h (by simp)

theorem Decimal.Serves.carried {d : Decimal} {units : Nat} (h : d.Serves units) :
    d.carried.Serves units := by
  unfold Decimal.carried
  split
  · rename_i hten
    obtain ⟨-, h⟩ := h
    rw [hten] at h
    refine ⟨Nat.one_pos, ?_⟩
    change (interval units).holds (1 * (quartersPerOne * 10 ^ (d.exponent + 1).toNat))
      (10 ^ (-(d.exponent + 1)).toNat) = true
    generalize quartersPerOne = quarters at h ⊢
    rcases lt_or_ge d.exponent 0 with hneg | hnonneg
    · obtain ⟨j, hj⟩ : ∃ j : Nat, d.exponent = -(j + 1 : Nat) := ⟨(-d.exponent).toNat - 1, by omega⟩
      have hnum : 10 * (quarters * 10 ^ d.exponent.toNat)
          = 1 * (quarters * 10 ^ (d.exponent + 1).toNat) * 10 := by
        rw [show d.exponent.toNat = 0 by omega, show (d.exponent + 1).toNat = 0 by omega]
        ring
      have hden : 10 ^ (-d.exponent).toNat = 10 ^ (-(d.exponent + 1)).toNat * 10 := by
        rw [show (-d.exponent).toNat = j + 1 by omega, show (-(d.exponent + 1)).toNat = j by omega,
          Nat.pow_succ]
      rwa [hnum, hden, Interval.holds_mul_right _ _ _ (by decide)] at h
    · have hnum : 10 * (quarters * 10 ^ d.exponent.toNat)
          = 1 * (quarters * 10 ^ (d.exponent + 1).toNat) := by
        rw [show (d.exponent + 1).toNat = d.exponent.toNat + 1 by omega, Nat.pow_succ]
        ring
      rw [show (-d.exponent).toNat = (-(d.exponent + 1)).toNat by omega, hnum] at h
      exact h
  · exact h

/-! ### Seventeen digits are enough -/

/-- A double has as many digits as its magnitude says: it is not smaller than `10 ^ (n - 1)`. -/
theorem magnitude_spec {units : Nat} (hpos : 0 < units) :
    unitsPerOne * 10 ^ (magnitude units - 1).toNat ≤ units * 10 ^ (1 - magnitude units).toNat := by
  unfold magnitude
  simp only
  split
  · rename_i hwhole
    have hdigits : 0 < (Nat.toDigits 10 (units / unitsPerOne)).length := Nat.length_toDigits_pos
    obtain ⟨j, hj⟩ : ∃ j, (Nat.toDigits 10 (units / unitsPerOne)).length = j + 1 :=
      ⟨_, (Nat.succ_pred_eq_of_pos hdigits).symm⟩
    have hle : 10 ^ j ≤ units / unitsPerOne := by
      rcases Nat.eq_zero_or_pos j with rfl | hjpos
      · exact hwhole
      · by_contra hlt
        have := (Nat.length_toDigits_le_iff (by decide) hjpos).mpr (Nat.lt_of_not_le hlt)
        omega
    rw [hj, show (((j + 1 : Nat) : Int) - 1).toNat = j by omega,
      show (1 - ((j + 1 : Nat) : Int)).toNat = 0 by omega, Nat.pow_zero, Nat.mul_one]
    exact (Nat.mul_le_mul_left _ hle).trans (Nat.mul_div_le units unitsPerOne)
  · have hsome : ((List.range 330).find? fun z => decide (unitsPerOne ≤ units * Nat.pow 10 (z + 1))).isSome := by
      rw [List.find?_isSome]
      refine ⟨329, by decide, ?_⟩
      rw [decide_eq_true_eq]
      exact unitsPerOne_le.trans (Nat.le_mul_of_pos_left _ hpos)
    obtain ⟨z, hz⟩ := Option.isSome_iff_exists.mp hsome
    have hle := List.find?_some hz
    rw [decide_eq_true_eq] at hle
    rw [hz, Option.getD_some, show (-(z : Int) - 1).toNat = 0 by omega,
      show (1 - -(z : Int)).toNat = z + 1 by omega, Nat.pow_zero, Nat.mul_one]
    exact hle

/-- The grid of the seventeenth digit is so fine that a double is at least `10 ^ 16` steps. -/
theorem step_le_of_seventeen {units : Nat} {e : Int} (hpos : 0 < units)
    (he : e = magnitude units - 17) :
    quartersPerOne * 10 ^ e.toNat * 10 ^ 16 ≤ 4 * units * 10 ^ (-e).toNat := by
  have hsize := magnitude_spec hpos
  -- Its value plays no part here, and is too large to be looked at.
  change 4 * unitsPerOne * 10 ^ e.toNat * 10 ^ 16 ≤ _
  generalize unitsPerOne = one at hsize ⊢
  rcases lt_or_ge e 0 with hneg | hnonneg
  · obtain ⟨j, hj⟩ : ∃ j : Nat, e = -(j : Int) := ⟨(-e).toNat, by omega⟩
    rw [show e.toNat = 0 by omega, show (-e).toNat = j by omega]
    rcases Nat.lt_or_ge 16 j with hlong | hshort
    · rw [show (magnitude units - 1).toNat = 0 by omega,
        show (1 - magnitude units).toNat = j - 16 by omega] at hsize
      have hj16 : 10 ^ j = 10 ^ (j - 16) * 10 ^ 16 := by rw [← Nat.pow_add]; congr 1; omega
      have hscaled := Nat.mul_le_mul_right (4 * 10 ^ 16) hsize
      rw [hj16]
      linarith
    · rw [show (magnitude units - 1).toNat = 16 - j by omega,
        show (1 - magnitude units).toNat = 0 by omega] at hsize
      have hj16 : (10 : Nat) ^ 16 = 10 ^ (16 - j) * 10 ^ j := by rw [← Nat.pow_add]; congr 1; omega
      have hscaled := Nat.mul_le_mul_right (4 * 10 ^ j) hsize
      rw [hj16]
      linarith
  · rw [show (-e).toNat = 0 by omega]
    rw [show (magnitude units - 1).toNat = e.toNat + 16 by omega,
      show (1 - magnitude units).toNat = 0 by omega, Nat.pow_add] at hsize
    linarith

theorem Interval.outside_of_not_holds {i : Interval} {num den : Nat} (h : i.holds num den = false) :
    num ≤ i.low * den ∨ i.high * den ≤ num := by
  unfold Interval.holds at h
  split at h
  · rw [Bool.and_eq_false_iff, decide_eq_false_iff_not, decide_eq_false_iff_not] at h
    omega
  · rw [Bool.and_eq_false_iff, decide_eq_false_iff_not, decide_eq_false_iff_not] at h
    omega

/-- Two neighbours on a grid that both miss the interval are as far apart as its ends. -/
theorem reach_le_of_outside {units scale step below : Nat} (hscale : 0 < scale)
    (hlow : below * step ≤ 4 * units * scale) (hhigh : 4 * units * scale < (below + 1) * step)
    (hreach : reachBelow units ≤ 4 * units)
    (h : (interval units).holds (below * step) scale = false)
    (h' : (interval units).holds ((below + 1) * step) scale = false) :
    (reachBelow units + 2 * 2 ^ spacing units) * scale ≤ step := by
  have hgap : 0 < 2 ^ spacing units * scale := Nat.mul_pos (Nat.two_pow_pos _) hscale
  have hreachScaled : reachBelow units * scale ≤ 4 * units * scale := Nat.mul_le_mul_right _ hreach
  have hleft := Interval.outside_of_not_holds h
  have hright := Interval.outside_of_not_holds h'
  rw [interval_eq] at hleft hright
  simp only [Nat.sub_mul, Nat.add_mul, Nat.mul_assoc] at *
  omega

theorem reachBelow_le_units {units : Nat} (hpos : 0 < units) (hrep : 2 ^ spacing units ∣ units) :
    reachBelow units ≤ 4 * units := by
  have := Nat.le_of_dvd hpos hrep
  have := reachBelow_le units
  omega

theorem step_lt_reach {units scale step : Nat} (hpos : 0 < units) (hrep : 2 ^ spacing units ∣ units)
    (hscale : 0 < scale) (hstep : step * 10 ^ 16 ≤ 4 * units * scale) :
    step < (reachBelow units + 2 * 2 ^ spacing units) * scale := by
  obtain ⟨m, hm, -, hlarge, -⟩ := exists_mantissa hpos hrep
  have hgap : 0 < 2 ^ spacing units * scale := Nat.mul_pos (Nat.two_pow_pos _) hscale
  have hunits : units * scale = m * (2 ^ spacing units * scale) := by rw [← Nat.mul_assoc, ← hm]
  rw [Nat.mul_assoc, hunits] at hstep
  unfold reachBelow
  split
  · rename_i hpower
    have hmantissa : m = 2 ^ 52 := by
      refine Nat.eq_of_mul_eq_mul_right (Nat.two_pow_pos (spacing units)) ?_
      rw [← hm, ← Nat.pow_add]
      exact hpower.2
    rw [hmantissa] at hstep
    rw [Nat.add_mul, Nat.mul_assoc 2]
    omega
  · have hmantissa : m * (2 ^ spacing units * scale) ≤ 2 ^ 53 * (2 ^ spacing units * scale) :=
      Nat.mul_le_mul_right _ hlarge.le
    rw [Nat.add_mul, Nat.mul_assoc 2]
    omega

theorem onGrid?_isSome_of_seventeen {units : Nat} {e : Int} (hpos : 0 < units)
    (hrep : 2 ^ spacing units ∣ units) (he : e = magnitude units - 17) :
    (onGrid? units e).isSome := by
  unfold onGrid?
  extract_lets scaleUp step value below fits
  have hscale : 0 < scaleUp := Nat.pow_pos (by decide)
  have hstep : 0 < step := Nat.mul_pos quartersPerOne_pos (Nat.pow_pos (by decide))
  have hsize : step * 10 ^ 16 ≤ value := step_le_of_seventeen hpos he
  have hdigits : 0 < below :=
    Nat.div_pos ((Nat.le_mul_of_pos_right step (by decide)).trans hsize) hstep
  have hlow : below * step ≤ value := Nat.div_mul_le_self value step
  have hhigh : value < (below + 1) * step := by
    rw [Nat.mul_comm]
    exact Nat.lt_mul_div_succ value hstep
  split
  · split <;> rfl
  · rfl
  · rfl
  · rename_i hbelow habove
    rw [Bool.and_eq_false_iff, decide_eq_false_iff_not] at hbelow
    have hmissed : fits below = false := hbelow.resolve_right (not_not_intro hdigits)
    have hreach := reach_le_of_outside hscale hlow hhigh (reachBelow_le_units hpos hrep) hmissed habove
    exact absurd (step_lt_reach hpos hrep hscale hsize) (Nat.not_lt.mpr hreach)

theorem shortest_serves {units : Nat} (hpos : 0 < units) (hrep : 2 ^ spacing units ∣ units) :
    (shortest units).Serves units := by
  unfold shortest
  simp only
  refine Decimal.Serves.carried ?_
  have hsome : ((List.range 17).findSome? fun d =>
      onGrid? units (magnitude units - (d + 1 : Nat))).isSome := by
    rw [List.findSome?_isSome_iff]
    exact ⟨16, by decide, onGrid?_isSome_of_seventeen hpos hrep rfl⟩
  obtain ⟨d, hd⟩ := Option.isSome_iff_exists.mp hsome
  rw [hd, Option.getD_some]
  obtain ⟨_, -, hfound⟩ := List.exists_of_findSome?_eq_some hd
  exact serves_of_onGrid? hfound

end Double
end SealedEnvelope
