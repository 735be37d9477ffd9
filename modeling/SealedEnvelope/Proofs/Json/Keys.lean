import SealedEnvelope.Proofs.Json.Members
import SealedEnvelope.Proofs.Text.Decimal
import SealedEnvelope.Proofs.Text.Order

/-!
# The order of keys

Array indices come first, by the number that they spell, and the other keys follow by their units. An
index has one spelling, so this is a strict order of all keys, and members with different keys have one
order. Members in normal order are in it; so it does not matter in which order they were before.
-/

namespace SealedEnvelope

namespace Text

/-! ### Canonical decimals -/

theorem mapM_digit?_eq_some {t : Text} {digits : List Nat} :
    t.mapM digit? = some digits ↔ IsDigits t ∧ digits = t.map fun u => u.toNat - 0x30 := by
  induction t generalizing digits with
  | nil =>
    simp [IsDigits, eq_comm]
  | cons u t ih =>
    simp only [List.mapM_cons, Option.bind_eq_bind, Option.bind_eq_some_iff, ih]
    constructor
    · rintro ⟨d, hd, ds, ⟨hdigits, rfl⟩, hpure⟩
      obtain rfl := Option.some.inj hpure
      simp only [digit?] at hd
      split at hd
      · rename_i hu
        rw [Bool.and_eq_true, decide_eq_true_eq, decide_eq_true_eq] at hu
        obtain rfl := Option.some.inj hd
        exact ⟨.cons hu hdigits, rfl⟩
      · cases hd
    · rintro ⟨hdigits, rfl⟩
      obtain ⟨hu, ht⟩ := hdigits.of_cons
      exact ⟨_, digit?_eq hu, _, ⟨ht, rfl⟩, rfl⟩

theorem ofNat_append {n : Nat} {t : Text} (hpos : 0 < n) (ht : IsDigits t) :
    ofNat n ++ t = ofNat (decimal n t) := by
  induction t generalizing n with
  | nil => exact List.append_nil _
  | cons u t ih =>
    obtain ⟨hu, hrest⟩ := ht.of_cons
    obtain ⟨d, hd, rfl⟩ := exists_digit hu
    have hvalue : (UInt16.ofNat (0x30 + d)).toNat - 0x30 = d := by
      rw [(unit_bounds hd).1]
      omega
    have hstep : ofNat (n * 10 + d) = ofNat n ++ [UInt16.ofNat (0x30 + d)] := by
      rw [ofNat_of_ge (by omega), show (n * 10 + d) / 10 = n by omega,
        show (n * 10 + d) % 10 = d by omega]
    calc ofNat n ++ UInt16.ofNat (0x30 + d) :: t = ofNat (n * 10 + d) ++ t := by
          rw [hstep, List.append_assoc, List.singleton_append]
      _ = ofNat (decimal (n * 10 + d) t) := ih (by omega) hrest
      _ = ofNat (decimal n (UInt16.ofNat (0x30 + d) :: t)) := by
          rw [decimal, decimal, List.foldl_cons, hvalue]

theorem eq_ofNat_decimal {u : CodeUnit} {t : Text} (h : IsDigits (u :: t))
    (hlead : u = 0x30 → t = []) : u :: t = ofNat (decimal 0 (u :: t)) := by
  obtain ⟨hu, ht⟩ := h.of_cons
  obtain ⟨d, hd, rfl⟩ := exists_digit hu
  have hvalue : decimal 0 (UInt16.ofNat (0x30 + d) :: t) = decimal d t := by
    have hfirst : 0 * 10 + ((UInt16.ofNat (0x30 + d)).toNat - 0x30) = d := by
      rw [(unit_bounds hd).1]
      omega
    rw [decimal, decimal, List.foldl_cons, hfirst]
  rw [hvalue]
  rcases Nat.eq_zero_or_pos d with rfl | hpos
  · rw [hlead rfl]
    rfl
  · rw [← ofNat_append hpos ht, ofNat_of_lt hd, List.singleton_append]

theorem length_ofNat_le {n k : Nat} (hk : 0 < k) (h : n < 10 ^ k) : (ofNat n).length ≤ k := by
  rw [ofNat, List.length_map]
  exact (Nat.length_toDigits_le_iff (by decide) hk).mpr h

theorem ofNat_inj {m n : Nat} (h : ofNat m = ofNat n) : m = n := by
  rw [← decimal_ofNat m, h, decimal_ofNat]

end Text

theorem foldl_digits (t : Text) :
    (t.map fun u => u.toNat - 0x30).foldl (fun n d => n * 10 + d) 0 = Text.decimal 0 t :=
  List.foldl_map

theorem eq_ofNat_of_indexKey? {key : Text} {n : Nat} (h : indexKey? key = some n) :
    n ≤ largestIndex ∧ key = Text.ofNat n := by
  simp only [indexKey?] at h
  split at h
  · cases h
  · rename_i hform
    split at h
    · cases h
    · rename_i digits hdigits
      obtain ⟨hkey, rfl⟩ := Text.mapM_digit?_eq_some.mp hdigits
      rw [foldl_digits] at h
      split at h
      · rename_i hle
        obtain rfl := Option.some.inj h
        refine ⟨hle, ?_⟩
        cases key with
        | nil => exact absurd (.inl rfl) hform
        | cons u t =>
          refine Text.eq_ofNat_decimal hkey fun hzero => ?_
          cases t with
          | nil => rfl
          | cons v t => exact absurd (.inr (.inr ⟨by simp, by rw [hzero, List.head?_cons]⟩)) hform
      · cases h

theorem indexKey?_ofNat {n : Nat} (hle : n ≤ largestIndex) :
    indexKey? (Text.ofNat n) = some n := by
  have hlength : (Text.ofNat n).length ≤ 10 :=
    Text.length_ofNat_le (by decide) (Nat.lt_of_le_of_lt hle (by decide))
  have hform : ¬((Text.ofNat n).length = 0 ∨ 10 < (Text.ofNat n).length ∨
      (1 < (Text.ofNat n).length ∧ (Text.ofNat n).head? = some 0x30)) := by
    rintro (hnil | hlong | ⟨hmore, hzero⟩)
    · exact Text.ofNat_ne_nil n (List.length_eq_zero_iff.mp hnil)
    · omega
    · rcases Nat.eq_zero_or_pos n with rfl | hpos
      · exact absurd hmore (by decide)
      · obtain ⟨u, t, htext, hu, -⟩ := Text.ofNat_spec hpos
        rw [htext, List.head?_cons, Option.some.injEq] at hzero
        rw [hzero] at hu
        exact absurd hu (by decide)
  have hdigits := Text.mapM_digit?_eq_some.mpr ⟨Text.isDigits_ofNat n, rfl⟩
  simp only [indexKey?, if_neg hform, hdigits, foldl_digits, Text.decimal_ofNat, if_pos hle]

theorem indexKey?_eq_some {key : Text} {n : Nat} :
    indexKey? key = some n ↔ n ≤ largestIndex ∧ key = Text.ofNat n := by
  constructor
  · exact eq_ofNat_of_indexKey?
  · rintro ⟨hle, rfl⟩
    exact indexKey?_ofNat hle

def IsIndexKey (key : Text) : Prop := ∃ n ≤ largestIndex, key = Text.ofNat n

theorem isIndexKey_iff {key : Text} : IsIndexKey key ↔ (indexKey? key).isSome = true := by
  simp only [Option.isSome_iff_exists, indexKey?_eq_some, IsIndexKey]

/-- Whether a key comes before another one. -/
inductive KeyBefore : Text → Text → Prop
  | indices {m n : Nat} (h : m < n) (hn : n ≤ largestIndex) :
      KeyBefore (Text.ofNat m) (Text.ofNat n)
  | index {a b : Text} (ha : IsIndexKey a) (hb : ¬IsIndexKey b) : KeyBefore a b
  | others {a b : Text} (ha : ¬IsIndexKey a) (hb : ¬IsIndexKey b) (h : a < b) : KeyBefore a b

/-- The order of keys as it is computed, from the array indices that they spell. -/
def keyLt (a b : Text) : Bool :=
  match indexKey? a, indexKey? b with
  | some m, some n => m < n
  | some _, none => true
  | none, some _ => false
  | none, none => a < b

theorem keyLt_iff {a b : Text} : keyLt a b = true ↔ KeyBefore a b := by
  constructor
  · intro h
    unfold keyLt at h
    cases ha : indexKey? a with
    | some m =>
      obtain ⟨hm, rfl⟩ := indexKey?_eq_some.mp ha
      cases hb : indexKey? b with
      | some n =>
        obtain ⟨hn, rfl⟩ := indexKey?_eq_some.mp hb
        rw [ha, hb] at h
        exact .indices (of_decide_eq_true h) hn
      | none => exact .index ⟨m, hm, rfl⟩ (by simp [isIndexKey_iff, hb])
    | none =>
      have hother : ¬IsIndexKey a := by simp [isIndexKey_iff, ha]
      cases hb : indexKey? b with
      | some n =>
        rw [ha, hb] at h
        cases h
      | none =>
        rw [ha, hb] at h
        exact .others hother (by simp [isIndexKey_iff, hb]) (of_decide_eq_true h)
  · intro h
    cases h with
    | @indices m n h hn =>
      simp [keyLt, indexKey?_ofNat hn, indexKey?_ofNat (show m ≤ largestIndex by omega), h]
    | index ha hb =>
      obtain ⟨m, hm, rfl⟩ := ha
      simp only [isIndexKey_iff, Option.not_isSome_iff_eq_none] at hb
      simp [keyLt, indexKey?_ofNat hm, hb]
    | others ha hb h =>
      simp only [isIndexKey_iff, Option.not_isSome_iff_eq_none] at ha hb
      simp [keyLt, ha, hb, h]

instance (a b : Text) : Decidable (KeyBefore a b) := decidable_of_iff _ keyLt_iff

theorem KeyBefore.asymm {a b : Text} (hab : KeyBefore a b) : ¬KeyBefore b a := by
  intro hba
  cases hab with
  | @indices m n h hn =>
    have ha : IsIndexKey (Text.ofNat m) := ⟨m, by omega, rfl⟩
    have hb : IsIndexKey (Text.ofNat n) := ⟨n, hn, rfl⟩
    generalize hs : Text.ofNat m = s at hba ha
    generalize ht : Text.ofNat n = t at hba hb
    cases hba with
    | @indices n' m' h' =>
      obtain rfl := Text.ofNat_inj hs
      obtain rfl := Text.ofNat_inj ht
      omega
    | index _ hb' => exact hb' ha
    | others ha' => exact ha' hb
  | index ha hb =>
    cases hba with
    | @indices m n h hn => exact hb ⟨m, by omega, rfl⟩
    | index ha' => exact hb ha'
    | others _ hb' => exact hb' ha
  | others ha hb h =>
    cases hba with
    | @indices m n h' hn => exact ha ⟨n, hn, rfl⟩
    | index ha' => exact hb ha'
    | others _ _ h' => exact List.lt_asymm h h'

namespace Members

variable {α : Type}

/-- The members are in the order of their keys. -/
def InOrder (ms : List (Text × α)) : Prop := ms.Pairwise fun a b => KeyBefore a.1 b.1

instance (ms : List (Text × α)) : Decidable (InOrder ms) :=
  inferInstanceAs (Decidable (ms.Pairwise _))

/-- Members have one order. -/
theorem InOrder.eq_of_perm {ms ns : List (Text × α)} (hms : InOrder ms) (hns : InOrder ns)
    (h : ms.Perm ns) : ms = ns :=
  h.eq_of_pairwise (fun _ _ _ _ hab hba => absurd hba hab.asymm) hms hns

theorem Distinct.pairwise {ms : List (Text × α)} (h : Distinct ms) :
    ms.Pairwise fun a b => a.1 ≠ b.1 :=
  List.pairwise_map.mp h

theorem isIndex_iff {m : Text × α} : isIndex m = true ↔ IsIndexKey m.1 := isIndexKey_iff.symm

theorem keyBefore_of_indexLe {a b : Text × α} (ha : isIndex a = true) (hb : isIndex b = true)
    (hle : indexLe a b = true) (hne : a.1 ≠ b.1) : KeyBefore a.1 b.1 := by
  obtain ⟨m, hm⟩ := Option.isSome_iff_exists.mp ha
  obtain ⟨n, hn⟩ := Option.isSome_iff_exists.mp hb
  rw [indexLe, hm, hn, Option.getD_some, Option.getD_some, decide_eq_true_eq] at hle
  obtain ⟨-, hma⟩ := indexKey?_eq_some.mp hm
  obtain ⟨hbound, hnb⟩ := indexKey?_eq_some.mp hn
  rw [hma, hnb] at hne ⊢
  refine .indices (Nat.lt_of_le_of_ne hle ?_) hbound
  rintro rfl
  exact hne rfl

theorem pairwise_ascending (ms : List (Text × α)) :
    (ascending ms).Pairwise fun a b => a.1 ≤ b.1 :=
  Text.pairwise_mergeSort_le Prod.fst ms

theorem inOrder_arranged {ms : List (Text × α)} (hdistinct : Distinct ms)
    (hascending : ms.Pairwise fun a b => a.1 ≤ b.1) : InOrder (arranged ms) := by
  have hindices : ∀ m ∈ (ms.filter isIndex).mergeSort indexLe, isIndex m = true := fun m hm =>
    (List.mem_filter.mp (List.mem_mergeSort.mp hm)).2
  have hothers : ∀ m ∈ ms.filter fun m => !isIndex m, ¬IsIndexKey m.1 := by
    intro m hm
    rw [← isIndex_iff, Bool.not_eq_true, ← Bool.not_eq_true']
    exact (List.mem_filter.mp hm).2
  rw [InOrder, arranged_eq, List.pairwise_append]
  refine ⟨?_, ?_, ?_⟩
  · have hdifferent := ((hdistinct.filter isIndex).perm (List.mergeSort_perm _ indexLe)).pairwise
    refine ((pairwise_indices _).and hdifferent).imp_of_mem ?_
    rintro a b ha hb ⟨hle, hne⟩
    exact keyBefore_of_indexLe (hindices a ha) (hindices b hb) hle hne
  · have hdifferent := (hdistinct.filter fun m => !isIndex m).pairwise
    refine ((hascending.filter _).and hdifferent).imp_of_mem ?_
    rintro a b ha hb ⟨hle, hne⟩
    refine .others (hothers a ha) (hothers b hb) (List.not_le.mp fun hge => hne ?_)
    exact List.le_antisymm hle hge
  · intro a ha b hb
    exact .index (isIndex_iff.mp (hindices a ha)) (hothers b hb)

theorem inOrder_normal {ms : List (Text × α)} (h : Distinct ms) : InOrder (normal ms) :=
  inOrder_arranged ((h.filter _).perm (ascending_perm _)) (pairwise_ascending _)

/-- Normal order does not depend on the order before. -/
theorem normal_eq_of_perm {ms ns : List (Text × α)} (hdistinct : Distinct ms) (h : ms.Perm ns) :
    normal ms = normal ns := by
  refine (inOrder_normal hdistinct).eq_of_perm (inOrder_normal (hdistinct.perm h.symm)) ?_
  exact (normal_perm ms).trans ((h.filter _).trans (normal_perm ns).symm)

/-- What members come to in normal order can be told without sorting them. -/
theorem normal_eq_of_inOrder {ms ns : List (Text × α)} (hdistinct : Distinct ms) (hns : InOrder ns)
    (h : (ms.filter fun m => m.1 ≠ reservedKey).Perm ns) : normal ms = ns :=
  (inOrder_normal hdistinct).eq_of_perm hns ((normal_perm ms).trans h)

end Members
end SealedEnvelope
