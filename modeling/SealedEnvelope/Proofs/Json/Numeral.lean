import SealedEnvelope.Json.Printer
import SealedEnvelope.Json.Reader
import SealedEnvelope.Proofs.Number.Decimal
import SealedEnvelope.Proofs.Text.Decimal

/-!
# A printed number reads back

The main fact is `foldl_next_numberText`: where a value is expected, the text of a finite double is
read as a numeral with the value of that double, negative zero apart, which is written as zero.

The text of a decimal has one of four layouts. Whichever it is, the numeral has digits and an exponent
that stand for the decimal, and a decimal in the interval of a double is rounded to the double.
-/

namespace SealedEnvelope

open Text

namespace Json

namespace Numeral

/-- The numeral behind a text, if numerals go on with it. -/
def run? (n : Numeral) (t : Text) : Option Numeral := t.foldlM next? n

theorem run?_cons (n : Numeral) (u : CodeUnit) (t : Text) :
    n.run? (u :: t) = (n.next? u).bind fun m => m.run? t := rfl

theorem run?_append (n : Numeral) (s t : Text) :
    n.run? (s ++ t) = (n.run? s).bind fun m => m.run? t := List.foldlM_append

/-! ### Runs of digits -/

theorem run?_whole (negative : Bool) {t : Text} (ht : IsDigits t) (mantissa : Nat) :
    run? ⟨.whole, negative, mantissa, 0, false, 0⟩ t
      = some ⟨.whole, negative, decimal mantissa t, 0, false, 0⟩ := by
  induction t generalizing mantissa with
  | nil => rfl
  | cons u t ih =>
    obtain ⟨hu, ht⟩ := ht.of_cons
    rw [run?_cons]
    unfold next?
    simp only [digit?_eq hu, Option.bind_some]
    exact ih ht _

theorem run?_fraction (negative : Bool) {t : Text} (ht : IsDigits t) (mantissa places : Nat) :
    run? ⟨.fraction, negative, mantissa, places, false, 0⟩ t
      = some ⟨.fraction, negative, decimal mantissa t, places + t.length, false, 0⟩ := by
  induction t generalizing mantissa places with
  | nil => rfl
  | cons u t ih =>
    obtain ⟨hu, ht⟩ := ht.of_cons
    rw [run?_cons]
    unfold next?
    simp only [digit?_eq hu, Option.bind_some]
    rw [ih ht, List.length_cons, Nat.add_assoc, Nat.add_comm 1]
    rfl

theorem run?_point (negative : Bool) {t : Text} (ht : IsDigits t) (hne : t ≠ []) (mantissa : Nat) :
    run? ⟨.point, negative, mantissa, 0, false, 0⟩ t
      = some ⟨.fraction, negative, decimal mantissa t, t.length, false, 0⟩ := by
  cases t with
  | nil => exact absurd rfl hne
  | cons u t =>
    obtain ⟨hu, ht⟩ := ht.of_cons
    rw [run?_cons]
    unfold next?
    simp only [digit?_eq hu, Option.bind_some]
    rw [run?_fraction negative ht, List.length_cons, Nat.zero_add, Nat.add_comm 1]
    rfl

theorem run?_exponent (negative exponentNegative : Bool) {t : Text} (ht : IsDigits t)
    (mantissa places exponent : Nat) :
    run? ⟨.exponent, negative, mantissa, places, exponentNegative, exponent⟩ t
      = some ⟨.exponent, negative, mantissa, places, exponentNegative, decimal exponent t⟩ := by
  induction t generalizing exponent with
  | nil => rfl
  | cons u t ih =>
    obtain ⟨hu, ht⟩ := ht.of_cons
    rw [run?_cons]
    unfold next?
    simp only [digit?_eq hu, Option.bind_some]
    exact ih ht _

theorem run?_sign (negative : Bool) {u : CodeUnit} {t : Text} (hlow : 0x31 ≤ u) (hhigh : u ≤ 0x39)
    (ht : IsDigits t) :
    run? ⟨.sign, negative, 0, 0, false, 0⟩ (u :: t)
      = some ⟨.whole, negative, decimal 0 (u :: t), 0, false, 0⟩ := by
  have hle : 0x31 ≤ u.toNat := UInt16.le_iff_toNat_le.mp hlow
  obtain ⟨d, hd⟩ : ∃ d, u.toNat - 0x30 = d + 1 := ⟨u.toNat - 0x31, by omega⟩
  have hfirst : decimal 0 (u :: t) = decimal (d + 1) t := by
    change decimal (0 * 10 + (u.toNat - 0x30)) t = _
    rw [hd, Nat.zero_mul, Nat.zero_add]
  rw [run?_cons]
  unfold next?
  simp only [digit?_eq ⟨UInt16.le_trans (by decide) hlow, hhigh⟩, hd, Option.bind_some]
  rw [run?_whole negative ht, hfirst]

/-! ### The layouts of a decimal -/

variable (negative : Bool) {u : CodeUnit} {digits : Text}

theorem run?_pointed (hlow : 0x31 ≤ u) (hhigh : u ≤ 0x39) {whole fraction : Text}
    (hwhole : IsDigits whole) (hfraction : IsDigits fraction) (hne : fraction ≠ []) :
    run? ⟨.sign, negative, 0, 0, false, 0⟩ (u :: (whole ++ 0x2E :: fraction))
      = some ⟨.fraction, negative, decimal 0 (u :: (whole ++ fraction)), fraction.length, false, 0⟩ := by
  rw [← List.cons_append, run?_append, run?_sign negative hlow hhigh hwhole, Option.bind_some,
    run?_cons]
  change run? ⟨.point, negative, decimal 0 (u :: whole), 0, false, 0⟩ fraction = _
  rw [run?_point negative hfraction hne, ← List.cons_append, decimal_append]

theorem run?_leadingZeros (k : Nat) (hdigits : IsDigits digits) (hne : digits ≠ []) :
    run? ⟨.sign, negative, 0, 0, false, 0⟩ (0x30 :: 0x2E :: (List.replicate k 0x30 ++ digits))
      = some ⟨.fraction, negative, decimal 0 digits, k + digits.length, false, 0⟩ := by
  have hzeros : decimal 0 (List.replicate k 0x30) = 0 := by rw [decimal_zeros, Nat.zero_mul]
  rw [run?_cons]
  change run? ⟨.point, negative, 0, 0, false, 0⟩ (List.replicate k 0x30 ++ digits) = _
  rw [run?_point negative ((isDigits_zeros k).append hdigits)
      (List.append_ne_nil_of_right_ne_nil _ hne), decimal_append, hzeros, List.length_append,
    List.length_replicate]

theorem run?_signedExponent (hdigits : IsDigits digits) (hne : digits ≠ []) (mantissa places : Nat)
    (exponentNegative : Bool) :
    run? ⟨.mark, negative, mantissa, places, false, 0⟩
        ((if exponentNegative then 0x2D else 0x2B) :: digits)
      = some ⟨.exponent, negative, mantissa, places, exponentNegative, decimal 0 digits⟩ := by
  have hmark : run? ⟨.mark, negative, mantissa, places, false, 0⟩
      ((if exponentNegative then 0x2D else 0x2B) :: digits)
      = run? ⟨.exponentSign, negative, mantissa, places, exponentNegative, 0⟩ digits := by
    cases exponentNegative <;> rfl
  rw [hmark]
  cases digits with
  | nil => exact absurd rfl hne
  | cons w rest =>
    obtain ⟨hw, hrest⟩ := hdigits.of_cons
    rw [run?_cons]
    unfold next?
    simp only [digit?_eq hw, Option.bind_some]
    exact run?_exponent negative exponentNegative hrest mantissa places _

/-- One digit, a fraction if there are more digits, and an exponent. -/
theorem run?_scientific (hlow : 0x31 ≤ u) (hhigh : u ≤ 0x39) (hdigits : IsDigits digits)
    (exponentNegative : Bool) (e : Nat) :
    run? ⟨.sign, negative, 0, 0, false, 0⟩
        ((u :: if digits.isEmpty then [] else 0x2E :: digits) ++
          0x65 :: (if exponentNegative then 0x2D else 0x2B) :: Text.ofNat e)
      = some ⟨.exponent, negative, decimal 0 (u :: digits), digits.length, exponentNegative, e⟩ := by
  have hexponent := run?_signedExponent negative (isDigits_ofNat e) (ofNat_ne_nil e)
    (decimal 0 (u :: digits)) digits.length exponentNegative
  rw [decimal_ofNat] at hexponent
  cases digits with
  | nil =>
    rw [run?_append]
    change ((run? _ [u]).bind _) = _
    rw [run?_sign negative hlow hhigh hdigits, Option.bind_some, run?_cons]
    exact hexponent
  | cons w rest =>
    rw [run?_append]
    change ((run? _ (u :: ([] ++ 0x2E :: w :: rest))).bind _) = _
    rw [run?_pointed negative hlow hhigh (fun w hw => absurd hw List.not_mem_nil) hdigits
        (List.cons_ne_nil w rest), Option.bind_some, run?_cons]
    exact hexponent

/-- The text of a decimal is a numeral for it. Zeros in front of the point are read as digits, so a
decimal with a positive exponent can come back with its exponent multiplied out. -/
theorem run?_decimalText {digits : Nat} (hpos : 0 < digits) (exponent : Int) :
    ∃ m, run? ⟨.sign, negative, 0, 0, false, 0⟩ (Double.Decimal.text ⟨digits, exponent⟩) = some m ∧
      (m.value? = some (.ofDecimal negative digits exponent) ∨
        0 ≤ exponent ∧
          m.value? = some (.ofDecimal negative (digits * 10 ^ exponent.toNat) 0)) := by
  obtain ⟨u, rest, htext, hlow, hhigh, hrest, hvalue⟩ := ofNat_spec hpos
  have hdigits : IsDigits (u :: rest) := .cons ⟨UInt16.le_trans (by decide) hlow, hhigh⟩ hrest
  unfold Double.Decimal.text
  simp only [htext, List.length_cons]
  generalize hpoint : ((rest.length + 1 : Nat) : Int) + exponent = point
  split
  · split
    · -- An integer with zeros behind its digits.
      refine ⟨_, run?_sign negative hlow hhigh (hrest.append (isDigits_zeros _)), Or.inr ⟨by omega, ?_⟩⟩
      have hscaled : decimal 0 ((u :: rest) ++ List.replicate (point.toNat - (rest.length + 1)) 0x30)
          = digits * 10 ^ exponent.toNat := by
        rw [decimal_append, hvalue, decimal_zeros]
        congr 2
        omega
      rw [← hscaled]
      rfl
    · -- A point among the digits.
      obtain ⟨p, hp⟩ : ∃ p, point.toNat = p + 1 := ⟨point.toNat - 1, by omega⟩
      rw [hp, List.take_succ_cons, List.drop_succ_cons]
      refine ⟨_, run?_pointed negative hlow hhigh (fun w hw => hrest w (List.mem_of_mem_take hw))
        (fun w hw => hrest w (List.mem_of_mem_drop hw)) ?_, Or.inl ?_⟩
      · rw [ne_eq, List.drop_eq_nil_iff]
        omega
      · rw [List.take_append_drop, hvalue]
        unfold value?
        simp only [List.length_drop, Option.some.injEq]
        congr 1
        simp only [Bool.false_eq_true, if_false]
        omega
  · split
    · refine ⟨_, run?_leadingZeros negative (-point).toNat hdigits (List.cons_ne_nil u rest),
        Or.inl ?_⟩
      rw [hvalue]
      unfold value?
      simp only [List.length_cons, Option.some.injEq]
      congr 1
      simp only [Bool.false_eq_true, if_false]
      omega
    · have hsign : (if point - 1 < 0 then (0x2D : CodeUnit) else 0x2B)
          = if decide (point - 1 < 0) then 0x2D else 0x2B := by
        simp only [decide_eq_true_eq]
      rw [hsign]
      refine ⟨_, run?_scientific negative hlow hhigh hrest (decide (point - 1 < 0)) _, Or.inl ?_⟩
      rw [hvalue]
      unfold value?
      simp only [Option.some.injEq]
      congr 1
      split
      · rename_i hneg
        rw [decide_eq_true_eq] at hneg
        omega
      · rename_i hnonneg
        rw [decide_eq_true_eq] at hnonneg
        omega

/-! ### The units of numerals -/

def IsUnit (u : CodeUnit) : Prop :=
  (0x30 ≤ u ∧ u ≤ 0x39) ∨ u = 0x2B ∨ u = 0x2D ∨ u = 0x2E ∨ u = 0x45 ∨ u = 0x65

theorem isUnit_of_next? {n m : Numeral} (h : n.next? u = some m) : IsUnit u := by
  by_cases hdigit : 0x30 ≤ u ∧ u ≤ 0x39
  · exact Or.inl hdigit
  · have hnone : digit? u = none := by
      unfold digit?
      rw [if_neg]
      rwa [Bool.and_eq_true, decide_eq_true_eq, decide_eq_true_eq]
    unfold next? at h
    rw [hnone] at h
    refine Or.inr ?_
    by_contra hother
    rw [not_or, not_or, not_or, not_or] at hother
    obtain ⟨hplus, hminus, hpoint, hupper, hlower⟩ := hother
    cases hphase : n.phase <;>
      simp only [hphase, hplus, hminus, hpoint, hupper, hlower, or_self, if_false, reduceCtorEq] at h

theorem isUnit_of_run? {n m : Numeral} {t : Text} (h : n.run? t = some m) : ∀ u ∈ t, IsUnit u := by
  induction t generalizing n with
  | nil => exact fun u hu => absurd hu List.not_mem_nil
  | cons w rest ih =>
    rw [run?_cons] at h
    obtain ⟨next, hnext, hrest⟩ := Option.bind_eq_some_iff.mp h
    intro u hu
    rcases List.mem_cons.mp hu with rfl | hu
    · exact isUnit_of_next? hnext
    · exact ih hrest u hu

theorem IsUnit.plain {u : CodeUnit} (h : IsUnit u) :
    u < 0x80 ∧ isBlank u = false ∧ u ≠ 0x2C ∧ u ≠ 0x5D ∧ u ≠ 0x7D := by
  rcases h with hdigit | rfl | rfl | rfl | rfl | rfl
  · obtain ⟨d, hd, rfl⟩ := exists_digit hdigit
    revert d
    decide
  all_goals decide

end Numeral

/-! ### Reading the text of a double -/

theorem foldl_next_number {n m : Numeral} {t : Text} (h : n.run? t = some m)
    (stack : List Frame) :
    t.foldl Reading.next ⟨stack, .number n⟩ = ⟨stack, .number m⟩ := by
  induction t generalizing n with
  | nil => rw [← Option.some.inj h, List.foldl_nil]
  | cons u t ih =>
    rw [Numeral.run?_cons] at h
    obtain ⟨next, hnext, hrest⟩ := Option.bind_eq_some_iff.mp h
    have hstep : Reading.next ⟨stack, .number n⟩ u = ⟨stack, .number next⟩ := by
      unfold Reading.next
      simp only [hnext]
    rw [List.foldl_cons, hstep, ih hrest]

theorem digit_of_next?_sign {negative : Bool} {u : CodeUnit} {m : Numeral}
    (h : Numeral.next? ⟨.sign, negative, 0, 0, false, 0⟩ u = some m) : 0x30 ≤ u ∧ u ≤ 0x39 := by
  by_contra hdigit
  have hnone : digit? u = none := by
    unfold digit?
    rw [if_neg]
    rwa [Bool.and_eq_true, decide_eq_true_eq, decide_eq_true_eq]
  unfold Numeral.next? at h
  simp only [hnone, reduceCtorEq] at h

theorem next_value_of_digit {n : Numeral} {u : CodeUnit}
    (h : Numeral.next? ⟨.sign, false, 0, 0, false, 0⟩ u = some n) (stack : List Frame) :
    Reading.next ⟨stack, .value⟩ u = ⟨stack, .number n⟩ := by
  obtain ⟨hlow, hhigh⟩ := digit_of_next?_sign h
  have hne : ∀ c : CodeUnit, c < 0x30 ∨ 0x39 < c → u ≠ c := by
    rintro c hc rfl
    rcases hc with hc | hc
    · exact UInt16.not_le.mpr hc hlow
    · exact UInt16.not_le.mpr hc hhigh
  have hspace : Reading.isSpace u = false := by
    unfold Reading.isSpace
    simp only [Bool.or_eq_false_iff, beq_eq_false_iff_ne]
    exact ⟨⟨⟨hne _ (by decide), hne _ (by decide)⟩, hne _ (by decide)⟩, hne _ (by decide)⟩
  unfold Reading.next Reading.beginValue
  simp only [hspace, Bool.false_eq_true, if_false, hne 0x22 (by decide), hne 0x5B (by decide),
    hne 0x7B (by decide), hne 0x6E (by decide), hne 0x74 (by decide), hne 0x66 (by decide),
    hne 0x2D (by decide), h]

theorem foldl_next_value {m : Numeral} {d : Double} {t : Text}
    (h : Numeral.run? ⟨.sign, false, 0, 0, false, 0⟩ t = some m) (hvalue : m.value? = some d)
    (stack : List Frame) : t.foldl Reading.next ⟨stack, .value⟩ = ⟨stack, .number m⟩ := by
  cases t with
  | nil =>
    rw [← Option.some.inj h] at hvalue
    exact absurd hvalue (by simp [Numeral.value?])
  | cons u t =>
    rw [Numeral.run?_cons] at h
    obtain ⟨next, hnext, hrest⟩ := Option.bind_eq_some_iff.mp h
    rw [List.foldl_cons, next_value_of_digit hnext, foldl_next_number hrest]

theorem run?_shortest {units : Nat} (hpos : 0 < units) (hrep : (Double.finite false units).IsBinary64)
    (negative : Bool) :
    ∃ m, Numeral.run? ⟨.sign, negative, 0, 0, false, 0⟩ (Double.shortest units).text = some m ∧
      m.value? = some (.finite negative units) := by
  obtain ⟨hbound, hdvd⟩ := hrep
  have hserves := Double.shortest_serves hpos hdvd
  generalize Double.shortest units = decimal at hserves ⊢
  obtain ⟨digits, exponent⟩ := decimal
  obtain ⟨m, hrun, hvalue⟩ := Numeral.run?_decimalText negative hserves.1 exponent
  refine ⟨m, hrun, ?_⟩
  rcases hvalue with hvalue | ⟨hnonneg, hvalue⟩
  · rw [hvalue, Double.ofDecimal_of_serves hpos hbound hdvd negative hserves]
  · rw [hvalue,
      Double.ofDecimal_of_serves hpos hbound hdvd negative (hserves.scaled hnonneg)]

theorem foldl_next_numberText {d : Double} (hfinite : d.isFinite = true) (hrep : d.IsBinary64) :
    ∃ n : Numeral, n.value? = some d.unsignedZero ∧ (∀ u ∈ numberText d, Numeral.IsUnit u) ∧
      ∀ stack, (numberText d).foldl Reading.next ⟨stack, .value⟩ = ⟨stack, .number n⟩ := by
  unfold numberText
  rw [if_pos hfinite]
  cases d with
  | nan => exact absurd hfinite (by decide)
  | infinite negative => exact absurd hfinite Bool.false_ne_true
  | finite negative units =>
    unfold Double.text
    simp only
    rcases Nat.eq_zero_or_pos units with rfl | hpos
    · rw [if_pos rfl]
      refine ⟨⟨.zero, false, 0, 0, false, 0⟩, rfl, ?_, fun stack => rfl⟩
      intro u hu
      rw [List.mem_singleton.mp hu]
      exact Or.inl (by decide)
    · rw [if_neg hpos.ne']
      obtain ⟨m, hrun, hvalue⟩ := run?_shortest hpos hrep negative
      have hzero : (Double.finite negative units).unsignedZero = .finite negative units := by
        unfold Double.unsignedZero
        split
        · rename_i heq
          cases heq
          exact absurd rfl hpos.ne'
        · rfl
      have hunits := Numeral.isUnit_of_run? hrun
      rw [hzero]
      cases negative with
      | false => exact ⟨m, hvalue, hunits, foldl_next_value hrun hvalue⟩
      | true =>
        refine ⟨m, hvalue, ?_, fun stack => ?_⟩
        · intro u hu
          rcases List.mem_cons.mp hu with rfl | hu
          · exact Or.inr (Or.inr (Or.inl rfl))
          · exact hunits u hu
        · exact foldl_next_number hrun stack

end Json
end SealedEnvelope
