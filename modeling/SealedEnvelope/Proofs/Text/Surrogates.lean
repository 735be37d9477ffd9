import SealedEnvelope.Proofs.Text.Utf8

/-!
# Surrogates without a partner

A high surrogate with a low one behind it is a pair wherever the two stand, so its neighbours decide
whether a surrogate is alone. Repairing a text puts U+FFFD in the place of each lone surrogate and changes
nothing else. Texts have the same bytes if they are repaired to the same text, and what is read back from
the bytes is the repaired text without a byte order mark in front.
-/

namespace SealedEnvelope

namespace Text

/-- Whether the unit before a place is a high surrogate. -/
def followsHigh (t : Text) : Nat → Bool
  | 0 => false
  | i + 1 => t[i]?.any isHighSurrogate

/-- Whether the unit at a place is a surrogate without a partner: a high one that no low one follows, or
a low one that follows no high one. -/
def isLone (t : Text) (i : Nat) : Bool :=
  t[i]?.any fun u =>
    (isHighSurrogate u && !t[i + 1]?.any isLowSurrogate) || (isLowSurrogate u && !t.followsHigh i)

def unmarked : Text → Text
  | [] => []
  | u :: t => if u = 0xFEFF then t else u :: t

/-- What a unit that has no partner is repaired to. -/
def mended (u : CodeUnit) : CodeUnit :=
  if isHighSurrogate u || isLowSurrogate u then 0xFFFD else u

theorem isLow_eq_false_of_isHigh {u : CodeUnit} (h : isHighSurrogate u = true) :
    isLowSurrogate u = false := by
  rw [isHighSurrogate_iff] at h
  rw [Bool.eq_false_iff, ne_eq, isLowSurrogate_iff]
  omega

theorem isHigh_eq_false_of_isLow {u : CodeUnit} (h : isLowSurrogate u = true) :
    isHighSurrogate u = false := by
  rw [isLowSurrogate_iff] at h
  rw [Bool.eq_false_iff, ne_eq, isHighSurrogate_iff]
  omega

theorem mended_not_surrogate (u : CodeUnit) :
    isHighSurrogate (mended u) = false ∧ isLowSurrogate (mended u) = false := by
  unfold mended
  split
  · decide
  · rename_i hneither
    rwa [Bool.not_eq_true, Bool.or_eq_false_iff] at hneither

theorem scalarOfUnit_eq (u : CodeUnit) : scalarOfUnit u = (mended u).toNat := by
  unfold scalarOfUnit mended
  split <;> rfl

/-! ### Repaired texts -/

theorem repaired_pair {u v : CodeUnit} (hu : isHighSurrogate u = true)
    (hv : isLowSurrogate v = true) (t : Text) : repaired (u :: v :: t) = u :: v :: t.repaired := by
  rw [repaired, scalars_pair hu hv, ofScalars, List.flatMap_cons, unitsOfScalar_scalarOfPair hu hv]
  rfl

theorem repaired_unit {u : CodeUnit} {t : Text} (h : opensPair u t = false) :
    repaired (u :: t) = mended u :: t.repaired := by
  rw [repaired, scalars_cons h, ofScalars, List.flatMap_cons, scalarOfUnit_eq, unitsOfScalar_toNat]
  rfl

theorem paired_repaired (t : Text) : t.repaired.Paired := by
  induction t using pairInduction with
  | nil => exact .nil
  | pair u v t hu hv ih =>
    rw [repaired_pair hu hv]
    exact .pair hu hv ih
  | unit u t hopens ih =>
    obtain ⟨hhigh, hlow⟩ := mended_not_surrogate u
    rw [repaired_unit hopens]
    exact .unit hhigh hlow ih

theorem scalars_repaired (t : Text) : t.repaired.scalars = t.scalars := by
  induction t using pairInduction with
  | nil => rfl
  | pair u v t hu hv ih => rw [repaired_pair hu hv, scalars_pair hu hv, scalars_pair hu hv, ih]
  | unit u t hopens ih =>
    obtain ⟨hhigh, hlow⟩ := mended_not_surrogate u
    rw [repaired_unit hopens, scalars_unit hhigh, scalarOfUnit_of_not_surrogate hhigh hlow,
      ← scalarOfUnit_eq, scalars_cons hopens, ih]

theorem repaired_of_paired {t : Text} (h : t.Paired) : t.repaired = t := ofScalars_scalars h

theorem ofScalars_dropMark (t : Text) :
    ofScalars (Utf8.dropMark t.scalars) = t.repaired.unmarked := by
  induction t using pairInduction with
  | nil => rfl
  | pair u v t hu hv _ =>
    have hscalar : scalarOfPair u v ≠ Utf8.byteOrderMark := by
      unfold scalarOfPair Utf8.byteOrderMark
      omega
    have hunit : u ≠ 0xFEFF := by
      rintro rfl
      cases hu
    rw [repaired_pair hu hv, unmarked, if_neg hunit, scalars_pair hu hv, Utf8.dropMark,
      if_neg hscalar, ← repaired_pair hu hv, repaired, scalars_pair hu hv]
  | unit u t hopens _ =>
    rw [repaired_unit hopens, unmarked, scalars_cons hopens, Utf8.dropMark]
    by_cases hmark : mended u = 0xFEFF
    · have hscalar : scalarOfUnit u = Utf8.byteOrderMark := by
        rw [scalarOfUnit_eq, hmark]
        rfl
      rw [if_pos hmark, if_pos hscalar]
      rfl
    · have hscalar : scalarOfUnit u ≠ Utf8.byteOrderMark := by
        intro h
        rw [scalarOfUnit_eq] at h
        exact hmark (UInt16.toNat_inj.mp h)
      rw [if_neg hmark, if_neg hscalar, ← scalars_cons hopens, ← repaired, repaired_unit hopens]

/-! ### The places of lone surrogates -/

theorem isLone_cons_zero {u : CodeUnit} {t : Text} (h : opensPair u t = false) :
    isLone (u :: t) 0 = (isHighSurrogate u || isLowSurrogate u) := by
  have hnext : (u :: t)[0 + 1]? = t.head? := List.head?_eq_getElem?.symm
  rw [isLone, hnext, List.getElem?_cons_zero, Option.any_some, followsHigh, Bool.not_false,
    Bool.and_true]
  rw [opensPair] at h
  cases hhigh : isHighSurrogate u with
  | false => rfl
  | true =>
    rw [hhigh, Bool.true_and] at h
    rw [h]
    rfl

/-- Behind a unit that opens no pair, it makes no difference to what follows. -/
theorem isLone_cons_succ {u : CodeUnit} {t : Text} (h : opensPair u t = false) (i : Nat) :
    isLone (u :: t) (i + 1) = isLone t i := by
  cases i with
  | succ i => rfl
  | zero =>
    cases t with
    | nil => rfl
    | cons v t =>
      have hpair : (isHighSurrogate u && isLowSurrogate v) = false := h
      have hlow : (isLowSurrogate v && !isHighSurrogate u) = (isLowSurrogate v && true) := by
        cases hv : isLowSurrogate v with
        | false => rfl
        | true =>
          rw [hv, Bool.and_true] at hpair
          rw [hpair]
          rfl
      simp only [isLone, followsHigh, List.getElem?_cons_zero, List.getElem?_cons_succ,
        Option.any_some, hlow, Bool.not_false]

theorem opensPair_of_isLow {u : CodeUnit} (h : isLowSurrogate u = true) (t : Text) :
    opensPair u t = false := by
  rw [opensPair, isHigh_eq_false_of_isLow h, Bool.false_and]

/-- Repairing replaces the lone surrogates, each in its place, and nothing else. -/
theorem getElem?_repaired (t : Text) (i : Nat) :
    t.repaired[i]? = if t.isLone i then some 0xFFFD else t[i]? := by
  induction t using pairInduction generalizing i with
  | nil => rfl
  | pair u v t hu hv ih =>
    rw [repaired_pair hu hv]
    match i with
    | 0 =>
      have hlone : isLone (u :: v :: t) 0 = false := by
        simp [isLone, followsHigh, hv, isLow_eq_false_of_isHigh hu]
      rw [hlone]
      rfl
    | 1 =>
      have hlone : isLone (u :: v :: t) 1 = false := by
        simp [isLone, followsHigh, hu, isHigh_eq_false_of_isLow hv]
      rw [hlone]
      rfl
    | i + 2 =>
      have hlone : isLone (u :: v :: t) (i + 2) = isLone t i :=
        isLone_cons_succ (opensPair_of_isLow hv t) i
      rw [hlone]
      exact ih i
  | unit u t hopens ih =>
    rw [repaired_unit hopens]
    cases i with
    | zero =>
      rw [isLone_cons_zero hopens, List.getElem?_cons_zero, List.getElem?_cons_zero, mended]
      split <;> rfl
    | succ i =>
      rw [isLone_cons_succ hopens]
      exact ih i

/-- A text is paired if none of its surrogates is alone. -/
theorem paired_iff {t : Text} : t.Paired ↔ ∀ i, t.isLone i = false := by
  constructor
  · intro h i
    cases hlone : t.isLone i with
    | false => rfl
    | true =>
      -- The unit in this place would be a surrogate and U+FFFD at once.
      have hunit := getElem?_repaired t i
      rw [repaired_of_paired h, hlone, if_pos rfl] at hunit
      rw [isLone, hunit] at hlone
      cases hlone
  · intro h
    have hsame : t.repaired = t := by
      apply List.ext_getElem?
      intro i
      rw [getElem?_repaired, h i]
      rfl
    exact hsame ▸ paired_repaired t

end Text

namespace Utf8

theorem utf8_eq_utf8_iff {s t : Text} : s.utf8 = t.utf8 ↔ s.repaired = t.repaired := by
  constructor
  · intro h
    rw [Text.repaired, Text.repaired, scalars_eq_of_utf8_eq h]
  · intro h
    rw [Text.utf8, Text.utf8, encode, encode, ← Text.scalars_repaired s, h, Text.scalars_repaired]

theorem decodeLenient_utf8_eq (t : Text) : decodeLenient t.utf8 = t.repaired.unmarked := by
  rw [Text.utf8, decodeLenient_encode, Text.ofScalars_dropMark]

end Utf8
end SealedEnvelope
