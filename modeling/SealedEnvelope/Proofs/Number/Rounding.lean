import Mathlib.Tactic.Linarith
import Mathlib.Tactic.Ring
import SealedEnvelope.Number.Shortest

/-!
# Rounding to a double

The main fact is `roundUnits_of_holds`: every quotient in the interval of a double is rounded to that
double. The interval is that of half the spacing on both sides, except below a power of two, where the
spacing changes: a quotient there is rounded on the finer grid, and still to the power of two.
-/

namespace SealedEnvelope

namespace Double

/-- A value that binary64 has: a finite one is a multiple of the spacing at its size. -/
def IsBinary64 : Double → Prop
  | .finite _ units => units < overflow ∧ 2 ^ spacing units ∣ units
  | _ => True

/-! ### The constants -/

/-- How large the constants are, against each other and against the powers that bound exponents. -/
theorem scale_sizes :
    0 < unitsPerOne ∧ unitsPerOne = 2 ^ 1074 ∧ 2 ^ 53 * unitsPerOne ≤ overflow ∧
      unitsPerOne ≤ 10 ^ 330 ∧ quartersPerOne ≤ 2 ^ 1076 ∧
      6 * overflow < 10 ^ 401 * quartersPerOne := by
  decide +kernel

theorem unitsPerOne_pos : 0 < unitsPerOne := scale_sizes.1

theorem unitsPerOne_eq : unitsPerOne = 2 ^ 1074 := scale_sizes.2.1

theorem mul_unitsPerOne_le : 2 ^ 53 * unitsPerOne ≤ overflow := scale_sizes.2.2.1

theorem unitsPerOne_le : unitsPerOne ≤ 10 ^ 330 := scale_sizes.2.2.2.1

theorem quartersPerOne_le : quartersPerOne ≤ 2 ^ 1076 := scale_sizes.2.2.2.2.1

theorem overflow_lt : 6 * overflow < 10 ^ 401 * quartersPerOne := scale_sizes.2.2.2.2.2

theorem quartersPerOne_pos : 0 < quartersPerOne := Nat.mul_pos (by decide) unitsPerOne_pos

theorem overflow_pos : 0 < overflow :=
  (Nat.mul_pos (by decide) unitsPerOne_pos).trans_le mul_unitsPerOne_le

/-! ### Rounding to an integer -/

theorem div_mod_add (m : Nat) {den r : Nat} (hr : r < den) :
    (m * den + r) / den = m ∧ (m * den + r) % den = r := by
  rw [Nat.add_comm]
  constructor
  · rw [Nat.add_mul_div_right _ _ (Nat.zero_lt_of_lt hr), Nat.div_eq_of_lt hr, Nat.zero_add]
  · rw [Nat.add_mul_mod_self_right, Nat.mod_eq_of_lt hr]

theorem roundHalfEven_eq {num den m : Nat} (hden : 0 < den)
    (hlow : 2 * (m * den) ≤ 2 * num + den) (hhigh : 2 * num ≤ 2 * (m * den) + den)
    (htie : 2 * (m * den) = 2 * num + den ∨ 2 * num = 2 * (m * den) + den → m % 2 = 0) :
    roundHalfEven num den = m := by
  by_cases hle : m * den ≤ num
  · obtain ⟨r, rfl⟩ := Nat.exists_eq_add_of_le hle
    obtain ⟨hquotient, hremainder⟩ := div_mod_add m (show r < den by omega)
    simp only [roundHalfEven, hquotient, hremainder]
    rw [if_neg]
    rintro (hmore | ⟨hhalf, hodd⟩)
    · omega
    · have := htie (Or.inr (by omega))
      omega
  · obtain ⟨j, rfl⟩ : ∃ j, m = j + 1 := ⟨m - 1, by cases m <;> simp_all⟩
    have hsucc : (j + 1) * den = j * den + den := Nat.succ_mul j den
    rw [hsucc] at hlow hhigh hle htie
    obtain ⟨r, rfl⟩ : ∃ r, num = j * den + r := ⟨num - j * den, by omega⟩
    obtain ⟨hquotient, hremainder⟩ := div_mod_add j (show r < den by omega)
    simp only [roundHalfEven, hquotient, hremainder]
    rw [if_pos]
    by_cases hhalf : 2 * r = den
    · have := htie (Or.inl (by omega))
      exact Or.inr ⟨hhalf, by omega⟩
    · exact Or.inl (by omega)

/-! ### The spacing -/

theorem spacing_of_lt {n : Nat} (h : n < 2 ^ 53) : spacing n = 0 := by
  by_cases hn : n = 0
  · subst hn
    rfl
  · have := (Nat.log2_lt hn).mpr h
    unfold spacing
    omega

theorem spacing_eq {n k : Nat} (hlow : 2 ^ (52 + k) ≤ n) (hhigh : n < 2 ^ (53 + k)) :
    spacing n = k := by
  have hn : n ≠ 0 := by
    have := Nat.two_pow_pos (52 + k)
    omega
  have hge := (Nat.le_log2 hn).mpr hlow
  have hlt := (Nat.log2_lt hn).mpr hhigh
  unfold spacing
  omega

/-- A double is fewer than `2 ^ 53` times its spacing, and as much as half of that if the spacing is
not the smallest. -/
theorem exists_mantissa {units : Nat} (hpos : 0 < units) (h : 2 ^ spacing units ∣ units) :
    ∃ m, units = m * 2 ^ spacing units ∧ 0 < m ∧ m < 2 ^ 53 ∧
      (0 < spacing units → 2 ^ 52 ≤ m) := by
  obtain ⟨m, hm⟩ := h
  rw [Nat.mul_comm] at hm
  have hgap := Nat.two_pow_pos (spacing units)
  have hlt : units < 2 ^ 53 * 2 ^ spacing units := by
    rw [← Nat.pow_add]
    refine (Nat.log2_lt hpos.ne').mp ?_
    unfold spacing
    omega
  refine ⟨m, hm, ?_, ?_, ?_⟩
  · rcases Nat.eq_zero_or_pos m with rfl | hm0
    · omega
    · exact hm0
  · refine Nat.lt_of_mul_lt_mul_right (a := 2 ^ spacing units) ?_
    rw [← hm]
    exact hlt
  · intro hk
    have hle : 2 ^ 52 * 2 ^ spacing units ≤ units := by
      rw [← Nat.pow_add]
      refine (Nat.le_log2 hpos.ne').mp ?_
      unfold spacing at hk ⊢
      omega
    refine Nat.le_of_mul_le_mul_right ?_ hgap
    rw [← hm]
    exact hle

/-! ### The interval of a double -/

theorem Interval.holds_mul_right (i : Interval) (num den : Nat) {c : Nat} (hc : 0 < c) :
    i.holds (num * c) (den * c) = i.holds num den := by
  have hlow : i.low * (den * c) ≤ num * c ↔ i.low * den ≤ num := by
    rw [← Nat.mul_assoc]
    exact Nat.mul_le_mul_right_iff hc
  have hhigh : num * c ≤ i.high * (den * c) ↔ num ≤ i.high * den := by
    rw [← Nat.mul_assoc]
    exact Nat.mul_le_mul_right_iff hc
  have hlow' : i.low * (den * c) < num * c ↔ i.low * den < num := by
    rw [← Nat.mul_assoc]
    exact Nat.mul_lt_mul_right hc
  have hhigh' : num * c < i.high * (den * c) ↔ num < i.high * den := by
    rw [← Nat.mul_assoc]
    exact Nat.mul_lt_mul_right hc
  simp only [Interval.holds, hlow, hhigh, hlow', hhigh']

theorem Interval.bounds_of_holds {i : Interval} {num den : Nat} (h : i.holds num den = true) :
    i.low * den ≤ num ∧ num ≤ i.high * den ∧
      (i.low * den = num ∨ num = i.high * den → i.closed = true) := by
  unfold Interval.holds at h
  split at h
  · rename_i hclosed
    rw [Bool.and_eq_true, decide_eq_true_eq, decide_eq_true_eq] at h
    exact ⟨h.1, h.2, fun _ => hclosed⟩
  · rw [Bool.and_eq_true, decide_eq_true_eq, decide_eq_true_eq] at h
    refine ⟨h.1.le, h.2.le, ?_⟩
    rintro (hlow | hhigh)
    · omega
    · omega

/-- How far the interval of a double reaches down, in quarters of a unit. -/
def reachBelow (units : Nat) : Nat :=
  if 0 < spacing units ∧ units = 2 ^ (52 + spacing units) then 2 ^ spacing units
  else 2 * 2 ^ spacing units

theorem interval_eq (units : Nat) :
    interval units = ⟨4 * units - reachBelow units, 4 * units + 2 * 2 ^ spacing units,
      decide (units / 2 ^ spacing units % 2 = 0)⟩ := rfl

theorem reachBelow_le (units : Nat) : reachBelow units ≤ 2 * 2 ^ spacing units := by
  unfold reachBelow
  split
  · omega
  · exact Nat.le_refl _

/-- What lies in the interval of a double is within half a spacing of it, and below a power of two
within a quarter, where `g` is the spacing and `m` how often it fits. -/
theorem bounds_of_holds {units m g num den : Nat} (hg : 2 ^ spacing units = g)
    (hm : units = m * g) (h : (interval units).holds num den = true) :
    4 * (units * den) ≤ num + 2 * (g * den) ∧ num ≤ 4 * (units * den) + 2 * (g * den) ∧
      (4 * (units * den) = num + 2 * (g * den) ∨ num = 4 * (units * den) + 2 * (g * den) →
        m % 2 = 0) ∧
      (0 < spacing units → units = 2 ^ (52 + spacing units) →
        4 * (units * den) ≤ num + g * den) := by
  have hgpos : 0 < g := hg ▸ Nat.two_pow_pos _
  have hquotient : units / g = m := Nat.div_eq_of_eq_mul_left hgpos hm
  have hreach : reachBelow units * den ≤ 2 * (g * den) := by
    rw [← Nat.mul_assoc, ← hg]
    exact Nat.mul_le_mul_right den (reachBelow_le units)
  rw [interval_eq, hg, hquotient] at h
  obtain ⟨hlow, hhigh, hend⟩ := Interval.bounds_of_holds h
  rw [decide_eq_true_eq] at hend
  rw [Nat.sub_mul, Nat.mul_assoc] at hlow hend
  rw [Nat.add_mul, Nat.mul_assoc, Nat.mul_assoc] at hhigh hend
  refine ⟨by omega, hhigh, ?_, ?_⟩
  · rintro (hlowest | hhighest)
    · exact hend (Or.inl (by omega))
    · exact hend (Or.inr hhighest)
  · intro hk hpower
    have hquarter : reachBelow units = g := by rw [reachBelow, if_pos ⟨hk, hpower⟩, hg]
    rw [hquarter] at hlow
    omega

theorem roundUnits_of_spacing_eq {units m num den : Nat} (hden : 0 < den)
    (hm : units = m * 2 ^ spacing units) (hspacing : spacing (num / den) = spacing units)
    (h : (interval units).holds (4 * num) den = true) : roundUnits num den = units := by
  obtain ⟨hlow, hhigh, htie, -⟩ := bounds_of_holds rfl hm h
  have hproduct : m * (den * 2 ^ spacing units) = units * den := by
    rw [Nat.mul_comm den, ← Nat.mul_assoc, ← hm]
  have hround : roundHalfEven num (den * 2 ^ spacing units) = m := by
    rw [Nat.mul_comm (2 ^ spacing units) den] at hlow hhigh htie
    refine roundHalfEven_eq (Nat.mul_pos hden (Nat.two_pow_pos _)) ?_ ?_ ?_
    · omega
    · omega
    · intro hends
      exact htie (by omega)
  change roundHalfEven num (den * 2 ^ spacing (num / den)) * 2 ^ spacing (num / den) = units
  rw [hspacing, hround, ← hm]

/-- A quotient just below a power of two, where the spacing is half as large. -/
theorem roundUnits_below_power {k num den : Nat} (hden : 0 < den)
    (hspacing : spacing (2 ^ (53 + k)) = k + 1) (hbelow : num / den < 2 ^ (53 + k))
    (h : (interval (2 ^ (53 + k))).holds (4 * num) den = true) :
    roundUnits num den = 2 ^ (53 + k) := by
  have hpower : 2 ^ (53 + k) = 2 ^ 53 * 2 ^ k := Nat.pow_add 2 53 k
  have hproduct : 2 ^ (53 + k) * den = 2 ^ 53 * (2 ^ k * den) := by rw [hpower, Nat.mul_assoc]
  have hgap : 2 ^ spacing (2 ^ (53 + k)) = 2 * 2 ^ k := by rw [hspacing, Nat.pow_succ, Nat.mul_comm]
  have hm : 2 ^ (53 + k) = 2 ^ 52 * (2 * 2 ^ k) := by
    rw [hpower, ← Nat.mul_assoc, ← Nat.pow_succ]
  obtain ⟨-, -, -, hquarter⟩ := bounds_of_holds hgap hm h
  replace hquarter := hquarter (by omega) (by rw [hspacing, ← Nat.add_assoc, Nat.add_right_comm])
  rw [hproduct, Nat.mul_assoc 2] at hquarter
  have hlt := (Nat.div_lt_iff_lt_mul hden).mp hbelow
  rw [hproduct] at hlt
  have hlow : 2 ^ (52 + k) ≤ num / den := by
    rw [Nat.le_div_iff_mul_le hden, Nat.pow_add, Nat.mul_assoc]
    omega
  have hround : roundHalfEven num (den * 2 ^ k) = 2 ^ 53 := by
    rw [Nat.mul_comm den]
    refine roundHalfEven_eq (Nat.mul_pos (Nat.two_pow_pos k) hden) ?_ ?_ fun _ => by decide
    · omega
    · omega
  change roundHalfEven num (den * 2 ^ spacing (num / den)) * 2 ^ spacing (num / den) = _
  rw [spacing_eq hlow hbelow, hround, hpower]

theorem roundUnits_of_holds {units num den : Nat} (hpos : 0 < units)
    (hrep : 2 ^ spacing units ∣ units) (hden : 0 < den)
    (h : (interval units).holds (4 * num) den = true) : roundUnits num den = units := by
  obtain ⟨m, hm, -, hlarge, hsmall⟩ := exists_mantissa hpos hrep
  obtain ⟨hlow, hhigh, htie, -⟩ := bounds_of_holds rfl hm h
  have hproduct : units * den = m * (2 ^ spacing units * den) := by
    rw [← Nat.mul_assoc, ← hm]
  have hunit : 0 < 2 ^ spacing units * den := Nat.mul_pos (Nat.two_pow_pos _) hden
  -- The mantissa is at most `2 ^ 53 - 1`, so half a spacing above stays below the next power.
  have hbelow : num / den < 2 ^ (53 + spacing units) := by
    rw [Nat.div_lt_iff_lt_mul hden, Nat.pow_add, Nat.mul_assoc]
    have hmantissa : m * (2 ^ spacing units * den) ≤ (2 ^ 53 - 1) * (2 ^ spacing units * den) :=
      Nat.mul_le_mul_right _ (by omega)
    rw [Nat.sub_mul] at hmantissa
    omega
  rcases Nat.eq_zero_or_pos (spacing units) with hzero | hk
  · rw [hzero] at hbelow
    exact roundUnits_of_spacing_eq hden hm (by rw [hzero, spacing_of_lt hbelow]) h
  · rcases Nat.lt_or_ge (num / den) (2 ^ (52 + spacing units)) with hlt | hge
    · -- Only the power of two itself has quotients below the power of two.
      have hpower : m = 2 ^ 52 := by
        by_contra hne
        have hmore : (2 ^ 52 + 1) * (2 ^ spacing units * den) ≤ m * (2 ^ spacing units * den) :=
          Nat.mul_le_mul_right _ (by have := hsmall hk; omega)
        rw [Nat.div_lt_iff_lt_mul hden, Nat.pow_add, Nat.mul_assoc] at hlt
        rw [Nat.add_mul] at hmore
        omega
      obtain ⟨k, hk'⟩ : ∃ k, spacing units = k + 1 := ⟨spacing units - 1, by omega⟩
      have hunits : units = 2 ^ (53 + k) := by
        rw [hm, hpower, hk', ← Nat.pow_add]
        congr 1
        omega
      rw [hunits] at h hk' ⊢
      refine roundUnits_below_power hden hk' ?_ h
      rw [hunits, hk'] at hlt
      exact lt_of_lt_of_le hlt (Nat.pow_le_pow_right (by decide) (by omega))
    · exact roundUnits_of_spacing_eq hden hm (spacing_eq hge hbelow) h

/-! ### What is rounded is a double -/

theorem lt_two_pow_spacing (n : Nat) : n < 2 ^ (53 + spacing n) := by
  rcases Nat.eq_zero_or_pos n with rfl | hpos
  · exact Nat.two_pow_pos _
  · refine (Nat.log2_lt hpos.ne').mp ?_
    unfold spacing
    omega

theorem two_pow_spacing_le {n : Nat} (h : 0 < spacing n) : 2 ^ (52 + spacing n) ≤ n := by
  have hn : n ≠ 0 := by
    rintro rfl
    exact absurd h (by decide)
  refine (Nat.le_log2 hn).mp ?_
  unfold spacing at h ⊢
  omega

theorem roundHalfEven_le (num den : Nat) : roundHalfEven num den ≤ num / den + 1 := by
  simp only [roundHalfEven]
  split <;> omega

/-- A number within the precision is a multiple of the spacing on every scale. -/
theorem two_pow_spacing_dvd_mul {m : Nat} (h : m ≤ 2 ^ 53) (k : Nat) :
    2 ^ spacing (m * 2 ^ k) ∣ m * 2 ^ k := by
  rcases Nat.lt_or_eq_of_le h with hlt | rfl
  · have hbelow : m * 2 ^ k < 2 ^ (53 + k) := by
      rw [Nat.pow_add]
      exact Nat.mul_lt_mul_of_pos_right hlt (Nat.two_pow_pos k)
    have hspacing : spacing (m * 2 ^ k) ≤ k := by
      by_contra hlarge
      have hlow := two_pow_spacing_le (n := m * 2 ^ k) (by omega)
      have hpow : 2 ^ (53 + k) ≤ 2 ^ (52 + spacing (m * 2 ^ k)) :=
        Nat.pow_le_pow_right (by decide) (by omega)
      omega
    exact (Nat.pow_dvd_pow 2 hspacing).trans (Nat.dvd_mul_left _ m)
  · have hspacing : spacing (2 ^ (53 + k)) = k + 1 :=
      spacing_eq (Nat.pow_le_pow_right (by decide) (by omega))
        (Nat.pow_lt_pow_right (by decide) (by omega))
    rw [← Nat.pow_add, hspacing]
    exact Nat.pow_dvd_pow 2 (by omega)

theorem two_pow_spacing_dvd_roundUnits (num den : Nat) :
    2 ^ spacing (roundUnits num den) ∣ roundUnits num den := by
  let k := spacing (num / den)
  have hquotient : num / (den * 2 ^ k) = num / den / 2 ^ k := (Nat.div_div_eq_div_mul _ _ _).symm
  have hround := roundHalfEven_le num (den * 2 ^ k)
  rw [hquotient] at hround
  have hbelow : num / den / 2 ^ k < 2 ^ 53 := by
    rw [Nat.div_lt_iff_lt_mul (Nat.two_pow_pos k), ← Nat.pow_add]
    exact lt_two_pow_spacing (num / den)
  exact two_pow_spacing_dvd_mul (show roundHalfEven num (den * 2 ^ k) ≤ 2 ^ 53 by omega) k

theorem ofUnits_cases (negative : Bool) (units : Nat) :
    (units < overflow ∧ ofUnits negative units = .finite negative units) ∨
      ofUnits negative units = .infinite negative := by
  rcases Nat.lt_or_ge units overflow with hbound | hbound
  · exact .inl ⟨hbound, if_pos hbound⟩
  · exact .inr (if_neg (Nat.not_lt.mpr hbound))

variable {negative : Bool} {d : Double}

/-! The number is a variable `d`, because evaluating it would evaluate the bound of all doubles. -/

theorem isBinary64_of_ofRatio {num den : Nat} (hd : ofRatio negative num den = d) :
    d.IsBinary64 := by
  rcases ofUnits_cases negative (roundUnits (num * unitsPerOne) den) with ⟨hbound, hfinite⟩ | hlarge
  · obtain rfl := hd.symm.trans hfinite
    exact ⟨hbound, two_pow_spacing_dvd_roundUnits _ _⟩
  · obtain rfl := hd.symm.trans hlarge
    trivial

theorem ofDecimal_cases (negative : Bool) (mantissa : Nat) (exponent : Int) :
    ofDecimal negative mantissa exponent = .finite negative 0 ∨
      ofDecimal negative mantissa exponent = .infinite negative ∨
      ∃ num den, ofDecimal negative mantissa exponent = ofRatio negative num den := by
  unfold ofDecimal
  split
  · exact .inl rfl
  · split
    · split
      · exact .inr (.inl rfl)
      · exact .inr (.inr ⟨_, _, rfl⟩)
    · split
      · exact .inl rfl
      · exact .inr (.inr ⟨_, _, rfl⟩)

theorem isBinary64_of_ofDecimal {mantissa : Nat} {exponent : Int}
    (hd : ofDecimal negative mantissa exponent = d) : d.IsBinary64 := by
  rcases ofDecimal_cases negative mantissa exponent with hzero | hlarge | ⟨num, den, hratio⟩
  · obtain rfl := hd.symm.trans hzero
    exact ⟨overflow_pos, Nat.dvd_zero _⟩
  · obtain rfl := hd.symm.trans hlarge
    trivial
  · exact isBinary64_of_ofRatio (hratio.symm.trans hd)

end Double
end SealedEnvelope
