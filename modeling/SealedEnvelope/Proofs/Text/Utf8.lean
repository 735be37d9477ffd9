import SealedEnvelope.Text.Utf8

/-!
# Reading back UTF-8

The bytes of a text spell its code points, so both readings agree on them. What comes back is the text
with its lone surrogates replaced and without one byte order mark in front. A text whose surrogates are
paired and that does not begin with the mark comes back as it was.
-/

namespace SealedEnvelope

namespace Text

/-- A code point that is not a surrogate. -/
def IsScalar (c : Nat) : Prop := c < 0xD800 ∨ (0xE000 ≤ c ∧ c < 0x110000)

/-- Every surrogate of the text has a partner. -/
inductive Paired : Text → Prop
  | nil : Paired []
  | unit {u : CodeUnit} {t : Text} (hhigh : isHighSurrogate u = false)
      (hlow : isLowSurrogate u = false) (ht : Paired t) : Paired (u :: t)
  | pair {u v : CodeUnit} {t : Text} (hu : isHighSurrogate u = true) (hv : isLowSurrogate v = true)
      (ht : Paired t) : Paired (u :: v :: t)

theorem isHighSurrogate_iff (u : CodeUnit) :
    isHighSurrogate u = true ↔ 0xD800 ≤ u.toNat ∧ u.toNat < 0xDC00 := by
  simp [isHighSurrogate, UInt16.le_iff_toNat_le, UInt16.lt_iff_toNat_lt]

theorem isLowSurrogate_iff (u : CodeUnit) :
    isLowSurrogate u = true ↔ 0xDC00 ≤ u.toNat ∧ u.toNat < 0xE000 := by
  simp [isLowSurrogate, UInt16.le_iff_toNat_le, UInt16.lt_iff_toNat_lt]

theorem scalarOfUnit_of_not_surrogate {u : CodeUnit} (hhigh : isHighSurrogate u = false)
    (hlow : isLowSurrogate u = false) : scalarOfUnit u = u.toNat := by
  simp [scalarOfUnit, hhigh, hlow]

theorem isScalar_scalarOfUnit (u : CodeUnit) : IsScalar (scalarOfUnit u) := by
  have hlt : u.toNat < 65536 := u.toNat_lt
  have hhigh := isHighSurrogate_iff u
  have hlow := isLowSurrogate_iff u
  unfold scalarOfUnit IsScalar
  split
  · decide
  · rename_i hneither
    rw [Bool.or_eq_true, not_or, hhigh, hlow] at hneither
    omega

theorem isScalar_scalarOfPair {u v : CodeUnit} (hu : isHighSurrogate u = true)
    (hv : isLowSurrogate v = true) : IsScalar (scalarOfPair u v) := by
  rw [isHighSurrogate_iff] at hu
  rw [isLowSurrogate_iff] at hv
  unfold scalarOfPair IsScalar
  omega

theorem scalarsOnto_eq : ∀ (t : Text) (done : List Nat),
    scalarsOnto t done = done.reverse ++ t.scalars
  | [], done => by simp [scalars, scalarsOnto]
  | [u], done => by simp [scalars, scalarsOnto]
  | u :: v :: rest, done => by
    simp only [scalars, scalarsOnto]
    split
    · rw [scalarsOnto_eq rest, scalarsOnto_eq rest [scalarOfPair u v]]
      simp
    · rw [scalarsOnto_eq (v :: rest), scalarsOnto_eq (v :: rest) [scalarOfUnit u]]
      simp

theorem scalars_pair {u v : CodeUnit} (hu : isHighSurrogate u = true)
    (hv : isLowSurrogate v = true) (t : Text) :
    scalars (u :: v :: t) = scalarOfPair u v :: t.scalars := by
  rw [scalars, scalarsOnto, hu, hv, Bool.and_self, if_pos rfl, scalarsOnto_eq]
  rfl

/-- Whether a unit and the first one of the text behind it are a pair. -/
def opensPair (u : CodeUnit) (t : Text) : Bool :=
  isHighSurrogate u && t.head?.any isLowSurrogate

theorem scalars_cons {u : CodeUnit} {t : Text} (h : opensPair u t = false) :
    scalars (u :: t) = scalarOfUnit u :: t.scalars := by
  cases t with
  | nil => rfl
  | cons v t =>
    have hpair : (isHighSurrogate u && isLowSurrogate v) = false := h
    rw [scalars, scalarsOnto, hpair, if_neg Bool.false_ne_true, scalarsOnto_eq]
    rfl

theorem scalars_unit {u : CodeUnit} (hhigh : isHighSurrogate u = false) (t : Text) :
    scalars (u :: t) = scalarOfUnit u :: t.scalars :=
  scalars_cons (by rw [opensPair, hhigh, Bool.false_and])

/-- A text is empty or begins with a pair or a unit that opens none. -/
@[elab_as_elim] theorem pairInduction {motive : Text → Prop} (nil : motive [])
    (pair : ∀ u v t, isHighSurrogate u = true → isLowSurrogate v = true → motive t →
      motive (u :: v :: t))
    (unit : ∀ u t, opensPair u t = false → motive t → motive (u :: t)) : ∀ t, motive t
  | [] => nil
  | [u] => unit u [] (Bool.and_false _) nil
  | u :: v :: t => by
    cases hpair : opensPair u (v :: t) with
    | false => exact unit u (v :: t) hpair (pairInduction nil pair unit (v :: t))
    | true =>
      rw [opensPair, Bool.and_eq_true] at hpair
      exact pair u v t hpair.1 hpair.2 (pairInduction nil pair unit t)

theorem isScalar_of_mem_scalars {t : Text} {c : Nat} (h : c ∈ t.scalars) : IsScalar c := by
  induction t using pairInduction with
  | nil => cases h
  | pair u v t hu hv ih =>
    rw [scalars_pair hu hv] at h
    rcases List.mem_cons.mp h with hfirst | hrest
    · exact hfirst ▸ isScalar_scalarOfPair hu hv
    · exact ih hrest
  | unit u t hopens ih =>
    rw [scalars_cons hopens] at h
    rcases List.mem_cons.mp h with hfirst | hrest
    · exact hfirst ▸ isScalar_scalarOfUnit u
    · exact ih hrest

theorem unitsOfScalar_toNat (u : CodeUnit) : unitsOfScalar u.toNat = [u] := by
  have hlt : u.toNat < 65536 := u.toNat_lt
  rw [unitsOfScalar, if_pos hlt, UInt16.ofNat_toNat]

theorem unitsOfScalar_scalarOfPair {u v : CodeUnit} (hu : isHighSurrogate u = true)
    (hv : isLowSurrogate v = true) : unitsOfScalar (scalarOfPair u v) = [u, v] := by
  rw [isHighSurrogate_iff] at hu
  rw [isLowSurrogate_iff] at hv
  have hhigh : 0xD800 + (scalarOfPair u v - 0x10000) / 0x400 = u.toNat := by
    unfold scalarOfPair
    omega
  have hlow : 0xDC00 + (scalarOfPair u v - 0x10000) % 0x400 = v.toNat := by
    unfold scalarOfPair
    omega
  have hlarge : ¬scalarOfPair u v < 0x10000 := by
    unfold scalarOfPair
    omega
  rw [unitsOfScalar, if_neg hlarge, hhigh, hlow, UInt16.ofNat_toNat, UInt16.ofNat_toNat]

theorem Paired.append {a b : Text} (ha : Paired a) (hb : Paired b) : Paired (a ++ b) := by
  induction ha with
  | nil => exact hb
  | unit hhigh hlow _ ih => exact .unit hhigh hlow ih
  | pair hu hv _ ih => exact .pair hu hv ih

theorem paired_of_forall_lt {t : Text} (h : ∀ u ∈ t, u < 0xD800) : Paired t := by
  induction t with
  | nil => exact .nil
  | cons u t ih =>
    have hu : u.toNat < 0xD800 := UInt16.lt_iff_toNat_lt.mp (h u List.mem_cons_self)
    refine .unit ?_ ?_ (ih fun w hw => h w (List.mem_cons_of_mem u hw))
    · rw [Bool.eq_false_iff, ne_eq, isHighSurrogate_iff]
      omega
    · rw [Bool.eq_false_iff, ne_eq, isLowSurrogate_iff]
      omega

/-- For texts that are written out: the condition is evaluated. -/
theorem paired_of_all {t : Text} (h : (t.all fun u => decide (u < 0xD800)) = true) : Paired t := by
  apply paired_of_forall_lt
  intro u hu
  exact of_decide_eq_true (List.all_eq_true.mp h u hu)

theorem ofScalars_scalars {t : Text} (h : Paired t) : ofScalars t.scalars = t := by
  induction h with
  | nil => rfl
  | @unit u t hhigh hlow _ ih =>
    rw [scalars_unit hhigh, scalarOfUnit_of_not_surrogate hhigh hlow]
    rw [ofScalars, List.flatMap_cons, unitsOfScalar_toNat]
    exact congrArg (u :: ·) ih
  | @pair u v t hu hv _ ih =>
    rw [scalars_pair hu hv, ofScalars, List.flatMap_cons, unitsOfScalar_scalarOfPair hu hv]
    exact congrArg (fun rest => u :: v :: rest) ih

end Text

namespace Utf8

open Text (IsScalar Paired)

/-! ### One sequence -/

theorem start_ofNat (done : List (Option Nat)) {n : Nat} (hn : n < 256) :
    Reading.start done (UInt8.ofNat n) =
      if n < 0x80 then ⟨some n :: done, none⟩
      else if 0xC2 ≤ n ∧ n ≤ 0xDF then ⟨done, some ⟨1, 0x80, 0xBF, n - 0xC0⟩⟩
      else if n = 0xE0 then ⟨done, some ⟨2, 0xA0, 0xBF, 0⟩⟩
      else if n = 0xED then ⟨done, some ⟨2, 0x80, 0x9F, 0xD⟩⟩
      else if 0xE1 ≤ n ∧ n ≤ 0xEF then ⟨done, some ⟨2, 0x80, 0xBF, n - 0xE0⟩⟩
      else if n = 0xF0 then ⟨done, some ⟨3, 0x90, 0xBF, 0⟩⟩
      else if n = 0xF4 then ⟨done, some ⟨3, 0x80, 0x8F, 4⟩⟩
      else if 0xF1 ≤ n ∧ n ≤ 0xF3 then ⟨done, some ⟨3, 0x80, 0xBF, n - 0xF0⟩⟩
      else ⟨none :: done, none⟩ := by
  have htoNat : (UInt8.ofNat n).toNat = n := by simp [Nat.mod_eq_of_lt hn]
  simp only [Reading.start, Bool.and_eq_true, decide_eq_true_eq, beq_iff_eq,
    UInt8.lt_iff_toNat_lt, UInt8.le_iff_toNat_le, ← UInt8.toNat_inj, htoNat]
  rfl

theorem next_pending (done : List (Option Nat)) {p : Pending} {n : Nat} (hn : n < 256)
    (hlow : p.low.toNat ≤ n) (hhigh : n ≤ p.high.toNat) :
    Reading.next ⟨done, some p⟩ (UInt8.ofNat n) =
      if p.missing ≤ 1 then ⟨some (p.value * 0x40 + (n - 0x80)) :: done, none⟩
      else ⟨done, some ⟨p.missing - 1, 0x80, 0xBF, p.value * 0x40 + (n - 0x80)⟩⟩ := by
  have htoNat : (UInt8.ofNat n).toNat = n := by simp [Nat.mod_eq_of_lt hn]
  have hbounds : (decide (p.low ≤ UInt8.ofNat n) && decide (UInt8.ofNat n ≤ p.high)) = true := by
    rw [Bool.and_eq_true, decide_eq_true_eq, decide_eq_true_eq, UInt8.le_iff_toNat_le,
      UInt8.le_iff_toNat_le, htoNat]
    exact ⟨hlow, hhigh⟩
  simp only [Reading.next, hbounds, htoNat, if_true]

theorem next_last (done : List (Option Nat)) (value c : Nat) :
    Reading.next ⟨done, some ⟨1, 0x80, 0xBF, value⟩⟩ (UInt8.ofNat (0x80 + c % 0x40)) =
      ⟨some (value * 0x40 + c % 0x40) :: done, none⟩ := by
  have hlow : (0x80 : UInt8).toNat ≤ 0x80 + c % 0x40 := Nat.le_add_right _ _
  have hhigh : 0x80 + c % 0x40 ≤ (0xBF : UInt8).toNat := by
    change _ ≤ 0xBF
    omega
  rw [next_pending done (by omega) hlow hhigh, if_pos (Nat.le_refl 1), Nat.add_sub_cancel_left]

/-- The last two bytes of a sequence, with any bounds on the first of them. -/
theorem next_last_two (done : List (Option Nat)) {low high : UInt8} (value c : Nat) {n : Nat}
    (hn : n < 0x40) (hlow : low.toNat ≤ 0x80 + n) (hhigh : 0x80 + n ≤ high.toNat) :
    Reading.next (Reading.next ⟨done, some ⟨2, low, high, value⟩⟩ (UInt8.ofNat (0x80 + n)))
        (UInt8.ofNat (0x80 + c % 0x40)) =
      ⟨some ((value * 0x40 + n) * 0x40 + c % 0x40) :: done, none⟩ := by
  rw [next_pending done (by omega) hlow hhigh, if_neg (by simp), Nat.add_sub_cancel_left]
  exact next_last done (value * 0x40 + n) c

theorem next_last_three (done : List (Option Nat)) {low high : UInt8} (value c : Nat) {n : Nat}
    (hn : n < 0x40) (hlow : low.toNat ≤ 0x80 + n) (hhigh : 0x80 + n ≤ high.toNat) :
    Reading.next (Reading.next
        (Reading.next ⟨done, some ⟨3, low, high, value⟩⟩ (UInt8.ofNat (0x80 + n)))
        (UInt8.ofNat (0x80 + c / 0x40 % 0x40))) (UInt8.ofNat (0x80 + c % 0x40)) =
      ⟨some (((value * 0x40 + n) * 0x40 + c / 0x40 % 0x40) * 0x40 + c % 0x40) :: done, none⟩ := by
  rw [next_pending done (by omega) hlow hhigh, if_neg (by simp), Nat.add_sub_cancel_left]
  refine next_last_two done (value * 0x40 + n) c (Nat.mod_lt _ (by decide)) ?_ ?_
  · exact Nat.le_add_right _ _
  · change _ ≤ 0xBF
    omega

theorem foldl_next_three {c : Nat} (hc : IsScalar c) (hlarge : ¬c < 0x800) (hsmall : c < 0x10000)
    (done : List (Option Nat)) :
    [UInt8.ofNat (0xE0 + c / 0x1000), UInt8.ofNat (0x80 + c / 0x40 % 0x40),
        UInt8.ofNat (0x80 + c % 0x40)].foldl Reading.next ⟨done, none⟩ =
      ⟨some c :: done, none⟩ := by
  unfold IsScalar at hc
  have hvalue : (c / 0x1000 * 0x40 + c / 0x40 % 0x40) * 0x40 + c % 0x40 = c := by omega
  have hsecond : c / 0x40 % 0x40 < 0x40 := Nat.mod_lt _ (by decide)
  change Reading.next (Reading.next (Reading.start done _) _) _ = _
  -- The first byte decides the bounds of the second one.
  rw [start_ofNat done (by omega), if_neg (by omega), if_neg (by omega)]
  by_cases he0 : c / 0x1000 = 0
  · have hlow : (0xA0 : UInt8).toNat ≤ 0x80 + c / 0x40 % 0x40 := by
      change 0xA0 ≤ _
      omega
    have hhigh : 0x80 + c / 0x40 % 0x40 ≤ (0xBF : UInt8).toNat := by
      change _ ≤ 0xBF
      omega
    rw [if_pos (by omega), next_last_two done 0 c hsecond hlow hhigh, ← he0, hvalue]
  · have hlow : (0x80 : UInt8).toNat ≤ 0x80 + c / 0x40 % 0x40 := Nat.le_add_right _ _
    by_cases hed : c / 0x1000 = 0xD
    · have hhigh : 0x80 + c / 0x40 % 0x40 ≤ (0x9F : UInt8).toNat := by
        change _ ≤ 0x9F
        omega
      rw [if_neg (by omega), if_pos (by omega), next_last_two done 0xD c hsecond hlow hhigh, ← hed,
        hvalue]
    · have hhigh : 0x80 + c / 0x40 % 0x40 ≤ (0xBF : UInt8).toNat := by
        change _ ≤ 0xBF
        omega
      rw [if_neg (by omega), if_neg (by omega), if_pos (by omega), Nat.add_sub_cancel_left,
        next_last_two done _ c hsecond hlow hhigh, hvalue]

theorem foldl_next_four {c : Nat} (hc : IsScalar c) (hlarge : ¬c < 0x10000)
    (done : List (Option Nat)) :
    [UInt8.ofNat (0xF0 + c / 0x40000), UInt8.ofNat (0x80 + c / 0x1000 % 0x40),
        UInt8.ofNat (0x80 + c / 0x40 % 0x40), UInt8.ofNat (0x80 + c % 0x40)].foldl Reading.next
        ⟨done, none⟩ =
      ⟨some c :: done, none⟩ := by
  unfold IsScalar at hc
  have hvalue : ((c / 0x40000 * 0x40 + c / 0x1000 % 0x40) * 0x40 + c / 0x40 % 0x40) * 0x40
      + c % 0x40 = c := by omega
  have hsecond : c / 0x1000 % 0x40 < 0x40 := Nat.mod_lt _ (by decide)
  change Reading.next (Reading.next (Reading.next (Reading.start done _) _) _) _ = _
  rw [start_ofNat done (by omega), if_neg (by omega), if_neg (by omega), if_neg (by omega),
    if_neg (by omega), if_neg (by omega)]
  by_cases hf0 : c / 0x40000 = 0
  · have hlow : (0x90 : UInt8).toNat ≤ 0x80 + c / 0x1000 % 0x40 := by
      change 0x90 ≤ _
      omega
    have hhigh : 0x80 + c / 0x1000 % 0x40 ≤ (0xBF : UInt8).toNat := by
      change _ ≤ 0xBF
      omega
    rw [if_pos (by omega), next_last_three done 0 c hsecond hlow hhigh, ← hf0, hvalue]
  · have hlow : (0x80 : UInt8).toNat ≤ 0x80 + c / 0x1000 % 0x40 := Nat.le_add_right _ _
    by_cases hf4 : c / 0x40000 = 4
    · have hhigh : 0x80 + c / 0x1000 % 0x40 ≤ (0x8F : UInt8).toNat := by
        change _ ≤ 0x8F
        omega
      rw [if_neg (by omega), if_pos (by omega), next_last_three done 4 c hsecond hlow hhigh, ← hf4,
        hvalue]
    · have hhigh : 0x80 + c / 0x1000 % 0x40 ≤ (0xBF : UInt8).toNat := by
        change _ ≤ 0xBF
        omega
      rw [if_neg (by omega), if_neg (by omega), if_pos (by omega), Nat.add_sub_cancel_left,
        next_last_three done _ c hsecond hlow hhigh, hvalue]

theorem foldl_next_encodeScalar {c : Nat} (hc : IsScalar c) (done : List (Option Nat)) :
    (encodeScalar c).foldl Reading.next ⟨done, none⟩ = ⟨some c :: done, none⟩ := by
  unfold encodeScalar
  split
  · rename_i hone
    change Reading.start done _ = _
    rw [start_ofNat done (by omega), if_pos hone]
  · split
    · rename_i hone htwo
      have hvalue : c / 0x40 * 0x40 + c % 0x40 = c := by omega
      change Reading.next (Reading.start done _) _ = _
      rw [start_ofNat done (by omega), if_neg (by omega), if_pos (by omega), Nat.add_sub_cancel_left,
        next_last, hvalue]
    · split
      · rename_i hone htwo hthree
        exact foldl_next_three hc htwo hthree done
      · rename_i hone htwo hthree
        exact foldl_next_four hc hthree done

/-! ### A whole text -/

theorem foldl_next_encodeScalars {cs : List Nat} (hcs : ∀ c ∈ cs, IsScalar c)
    (done : List (Option Nat)) :
    (cs.flatMap encodeScalar).foldl Reading.next ⟨done, none⟩ =
      ⟨(cs.map some).reverse ++ done, none⟩ := by
  induction cs generalizing done with
  | nil => rfl
  | cons c cs ih =>
    have hc := foldl_next_encodeScalar (hcs c List.mem_cons_self) done
    rw [List.flatMap_cons, List.foldl_append, hc,
      ih (fun c' h => hcs c' (List.mem_cons_of_mem c h)) (some c :: done)]
    simp

/-- Encoding loses nothing but the lone surrogates, and what it writes has no malformed place. -/
theorem read_encode (t : Text) : read (encode t) = t.scalars.map some := by
  rw [read, encode, foldl_next_encodeScalars (fun c h => Text.isScalar_of_mem_scalars h)]
  simp [Reading.finish]

theorem decode?_encode (t : Text) :
    decode? (encode t) = some (Text.ofScalars (dropMark t.scalars)) := by
  simp [decode?, read_encode, List.filterMap_map]

theorem decodeLenient_encode (t : Text) :
    decodeLenient (encode t) = Text.ofScalars (dropMark t.scalars) := by
  simp [decodeLenient, read_encode, Function.comp_def]

theorem dropMark_scalars {t : Text} (h : Paired t) (hmark : t.head? ≠ some 0xFEFF) :
    dropMark t.scalars = t.scalars := by
  cases h with
  | nil => rfl
  | @unit u t hhigh hlow _ =>
    have hne : u.toNat ≠ byteOrderMark := by
      intro he
      have hu : u = 0xFEFF := UInt16.toNat_inj.mp he
      exact hmark (congrArg some hu)
    rw [Text.scalars_unit hhigh, Text.scalarOfUnit_of_not_surrogate hhigh hlow, dropMark,
      if_neg hne]
  | @pair u v t hu hv _ =>
    have hne : Text.scalarOfPair u v ≠ byteOrderMark := by
      unfold Text.scalarOfPair byteOrderMark
      omega
    rw [Text.scalars_pair hu hv, dropMark, if_neg hne]

theorem decode?_utf8 {t : Text} (h : Paired t) (hmark : t.head? ≠ some 0xFEFF) :
    decode? t.utf8 = some t := by
  rw [Text.utf8, decode?_encode, dropMark_scalars h hmark, Text.ofScalars_scalars h]

theorem decodeLenient_utf8 {t : Text} (h : Paired t) (hmark : t.head? ≠ some 0xFEFF) :
    decodeLenient t.utf8 = t := by
  rw [Text.utf8, decodeLenient_encode, dropMark_scalars h hmark, Text.ofScalars_scalars h]

theorem utf8_cons {u : CodeUnit} (hu : u.toNat < 0x80) (t : Text) :
    Text.utf8 (u :: t) = UInt8.ofNat u.toNat :: t.utf8 := by
  have hhigh : Text.isHighSurrogate u = false := by
    rw [Bool.eq_false_iff, ne_eq, Text.isHighSurrogate_iff]
    omega
  have hlow : Text.isLowSurrogate u = false := by
    rw [Bool.eq_false_iff, ne_eq, Text.isLowSurrogate_iff]
    omega
  unfold Text.utf8 encode
  rw [Text.scalars_unit hhigh, Text.scalarOfUnit_of_not_surrogate hhigh hlow, List.flatMap_cons,
    encodeScalar, if_pos hu]
  rfl

theorem utf8_eq_map {t : Text} (h : ∀ u ∈ t, u.toNat < 0x80) : t.utf8 = t.map UInt16.toUInt8 := by
  induction t with
  | nil => rfl
  | cons u t ih =>
    obtain ⟨hu, ht⟩ := List.forall_mem_cons.mp h
    rw [utf8_cons hu, ih ht]
    rfl

theorem scalars_eq_of_utf8_eq {s t : Text} (h : s.utf8 = t.utf8) : s.scalars = t.scalars := by
  have hscalars : s.scalars.map some = t.scalars.map some := by
    rw [← read_encode, ← read_encode]
    exact congrArg read h
  exact (List.map_inj_right fun _ _ => Option.some.inj).mp hscalars

/-- Texts whose surrogates are paired differ in their bytes if they differ, a byte order mark in front
included. -/
theorem utf8_inj {s t : Text} (hs : s.Paired) (ht : t.Paired) : s.utf8 = t.utf8 ↔ s = t := by
  refine ⟨fun h => ?_, congrArg Text.utf8⟩
  rw [← Text.ofScalars_scalars hs, ← Text.ofScalars_scalars ht, scalars_eq_of_utf8_eq h]

end Utf8
end SealedEnvelope
