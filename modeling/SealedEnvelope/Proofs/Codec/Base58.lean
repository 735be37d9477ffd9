import Mathlib.Data.List.GetD
import Mathlib.Data.List.Induction
import Mathlib.Data.List.TakeWhile
import Mathlib.Data.Nat.Digits.Lemmas
import SealedEnvelope.Codec.Base58
import SealedEnvelope.Proofs.Bytes
import SealedEnvelope.Proofs.Codec.Digits

/-!
# Base 58 laws

A byte string and its text are one number in two bases, with as many zeros in front. Changing the base
keeps the number and the zeros, and these two determine the digits, so changing it back gives what was
there. Hence bytes come back from their text, and the text that bytes were read from is their only text.
-/

namespace SealedEnvelope

namespace Base58

/-! ### Digits of a number -/

theorem digitsOnto_eq {base : Nat} (hbase : 1 < base) (n : Nat) (done : List Nat) :
    digitsOnto base n done = (Nat.digits base n).reverse ++ done := by
  induction n using Nat.strong_induction_on generalizing done with
  | _ n ih =>
    rw [digitsOnto]
    by_cases hn : n = 0
    · rw [dif_pos (Or.inl hn), hn, Nat.digits_zero]
      rfl
    · have hpos : 0 < n := Nat.pos_of_ne_zero hn
      rw [dif_neg (by omega), ih _ (Nat.div_lt_self hpos hbase), Nat.digits_def' hbase hpos,
        List.reverse_cons, List.append_assoc]
      rfl

theorem ofDigits_eq (base : Nat) (digits : List Nat) :
    ofDigits base digits = Nat.ofDigits base digits.reverse := by
  induction digits using List.reverseRecOn with
  | nil => rfl
  | append_singleton digits d ih =>
    have hlast : ofDigits base (digits ++ [d]) = ofDigits base digits * base + d := by
      unfold ofDigits
      rw [List.foldl_append]
      rfl
    rw [hlast, ih, List.reverse_append, List.reverse_singleton, List.singleton_append,
      Nat.ofDigits_cons, Nat.mul_comm, Nat.add_comm]

theorem ofDigits_digitsOnto {base : Nat} (hbase : 1 < base) (n : Nat) :
    ofDigits base (digitsOnto base n []) = n := by
  rw [digitsOnto_eq hbase, List.append_nil, ofDigits_eq, List.reverse_reverse, Nat.ofDigits_digits]

theorem lt_of_mem_digitsOnto {base n d : Nat} (hbase : 1 < base) (h : d ∈ digitsOnto base n []) :
    d < base := by
  rw [digitsOnto_eq hbase, List.append_nil, List.mem_reverse] at h
  exact Nat.digits_lt_base hbase h

theorem head?_digitsOnto_ne {base : Nat} (hbase : 1 < base) (n : Nat) :
    (digitsOnto base n []).head? ≠ some 0 := by
  rw [digitsOnto_eq hbase, List.append_nil, List.head?_reverse]
  intro hlast
  by_cases hn : n = 0
  · rw [hn, Nat.digits_zero] at hlast
    cases hlast
  · have hne : Nat.digits base n ≠ [] := Nat.digits_ne_nil_iff_ne_zero.mpr hn
    rw [List.getLast?_eq_some_getLast hne] at hlast
    exact Nat.getLast_digit_ne_zero base hn (Option.some.inj hlast)

/-! ### Zeros in front -/

def leadingZeros (digits : List Nat) : Nat := (digits.takeWhile (· == 0)).length

theorem replicate_leadingZeros (digits : List Nat) :
    List.replicate (leadingZeros digits) 0 ++ digits.dropWhile (· == 0) = digits := by
  have hzeros : digits.takeWhile (· == 0) = List.replicate (leadingZeros digits) 0 := by
    rw [List.eq_replicate_iff]
    refine ⟨rfl, fun d hd => ?_⟩
    have hzero : (d == 0) = true := @List.mem_takeWhile_imp _ (· == 0) _ _ hd
    exact beq_iff_eq.mp hzero
  rw [← hzeros, List.takeWhile_append_dropWhile]

theorem leadingZeros_append {digits : List Nat} (h : digits.head? ≠ some 0) (count : Nat) :
    leadingZeros (List.replicate count 0 ++ digits) = count := by
  induction count with
  | zero =>
    cases digits with
    | nil => rfl
    | cons d digits =>
      have hd : (d == 0) = false := beq_false_of_ne fun hzero => h (congrArg some hzero)
      simp [leadingZeros, hd]
  | succ count ih => simpa [leadingZeros, List.replicate_succ] using ih

theorem ofDigits_zeros_append (base count : Nat) (digits : List Nat) :
    ofDigits base (List.replicate count 0 ++ digits) = ofDigits base digits := by
  rw [ofDigits_eq, ofDigits_eq, List.reverse_append, List.reverse_replicate,
    Nat.ofDigits_append_replicate_zero]

/-- A number has the digits that it is made of, but for the zeros in front. -/
theorem digitsOnto_ofDigits {base : Nat} (hbase : 1 < base) {digits : List Nat}
    (h : ∀ d ∈ digits, d < base) :
    digitsOnto base (ofDigits base digits) [] = digits.dropWhile (· == 0) := by
  have hdrop : ofDigits base digits = ofDigits base (digits.dropWhile (· == 0)) := by
    conv_lhs => rw [← replicate_leadingZeros digits]
    apply ofDigits_zeros_append
  have hlast : ∀ hne : (digits.dropWhile (· == 0)).reverse ≠ [],
      (digits.dropWhile (· == 0)).reverse.getLast hne ≠ 0 := by
    intro hne hzero
    rw [List.getLast_reverse] at hzero
    have hhead := List.head_dropWhile_not (fun d => d == 0) (fun hnil => hne (by rw [hnil]; rfl))
    rw [hzero] at hhead
    cases hhead
  rw [hdrop, ofDigits_eq, digitsOnto_eq hbase, Nat.digits_ofDigits base hbase _ ?_ hlast,
    List.reverse_reverse, List.append_nil]
  intro d hd
  exact h d ((List.dropWhile_sublist _).subset (List.mem_reverse.mp hd))

/-! ### Changing the base -/

/-- The same number in another base, with the zeros in front. -/
def rebased (base target : Nat) (digits : List Nat) : List Nat :=
  List.replicate (leadingZeros digits) 0 ++ digitsOnto target (ofDigits base digits) []

theorem lt_of_mem_rebased {base target : Nat} (htarget : 1 < target) {digits : List Nat} {d : Nat}
    (h : d ∈ rebased base target digits) : d < target := by
  rcases List.mem_append.mp h with hzero | hdigit
  · rw [List.eq_of_mem_replicate hzero]
    exact Nat.zero_lt_of_lt htarget
  · exact lt_of_mem_digitsOnto htarget hdigit

theorem rebased_rebased {base target : Nat} (hbase : 1 < base) (htarget : 1 < target)
    {digits : List Nat} (h : ∀ d ∈ digits, d < base) :
    rebased target base (rebased base target digits) = digits := by
  have hzeros : leadingZeros (rebased base target digits) = leadingZeros digits :=
    leadingZeros_append (head?_digitsOnto_ne htarget _) _
  have hnumber : ofDigits target (rebased base target digits) = ofDigits base digits := by
    unfold rebased
    rw [ofDigits_zeros_append, ofDigits_digitsOnto htarget]
  rw [rebased, hzeros, hnumber, digitsOnto_ofDigits hbase h, replicate_leadingZeros]

/-! ### Texts -/

theorem value?_digit : ∀ n < 58, value? (digit n) = some n := by decide

theorem digit_of_value? (u : CodeUnit) (n : Nat) (h : value? u = some n) : n < 58 ∧ digit n = u := by
  simp only [value?] at h
  split at h
  · rename_i hn
    obtain rfl := Option.some.inj h
    refine ⟨hn, ?_⟩
    have hfound := @List.findIdx_getElem _ (· == u) alphabet hn
    rw [digit, List.getD_eq_getElem _ _ hn]
    exact beq_iff_eq.mp hfound
  · cases h

theorem encode_eq (b : Bytes) :
    encode b = (rebased 256 58 (b.map UInt8.toNat)).map digit := by
  have hzeros : (b.takeWhile (· == 0)).length = leadingZeros (b.map UInt8.toNat) := by
    have hzero : ((fun n : Nat => n == 0) ∘ UInt8.toNat) = fun c : UInt8 => c == 0 := by
      funext c
      rw [Bool.eq_iff_iff]
      simp [← UInt8.toNat_inj]
    rw [leadingZeros, List.takeWhile_map, List.length_map, hzero]
  have hnumber : b.toNat = ofDigits 256 (b.map UInt8.toNat) := by
    rw [ofDigits, List.foldl_map]
    rfl
  simp only [encode, rebased, List.map_append, List.map_replicate, hzeros, hnumber]

theorem decode?_eq_some {t : Text} {b : Bytes} :
    decode? t = some b ↔
      ∃ values, t.mapM value? = some values ∧ (rebased 58 256 values).map UInt8.ofNat = b := by
  simp only [decode?]
  cases t.mapM value? with
  | none => simp
  | some values =>
    simp only [Option.some.injEq, exists_eq_left', rebased, List.map_append, List.map_replicate]
    rfl

theorem decode?_encode (b : Bytes) : decode? (encode b) = some b := by
  have hbytes : ∀ d ∈ b.map UInt8.toNat, d < 256 := by
    intro d hd
    obtain ⟨c, -, rfl⟩ := List.mem_map.mp hd
    exact c.toNat_lt
  rw [decode?_eq_some, encode_eq]
  refine ⟨_, Digits.mapM_map_digit value?_digit fun n hn => lt_of_mem_rebased (by decide) hn, ?_⟩
  rw [rebased_rebased (by decide) (by decide) hbytes, List.map_map]
  apply List.map_id''
  exact fun c => UInt8.ofNat_toNat

/-- The text that bytes are read from is their only text. -/
theorem encode_of_decode? {t : Text} {b : Bytes} (h : decode? t = some b) : encode b = t := by
  obtain ⟨values, hvalues, rfl⟩ := decode?_eq_some.mp h
  obtain ⟨hlt, rfl⟩ := Digits.map_digit_of_mapM digit_of_value? hvalues
  have hnumbers : ((rebased 58 256 values).map UInt8.ofNat).map UInt8.toNat =
      rebased 58 256 values := by
    rw [List.map_map]
    conv_rhs => rw [← List.map_id (rebased 58 256 values)]
    apply List.map_congr_left
    intro d hd
    exact UInt8.toNat_ofNat_of_lt' (lt_of_mem_rebased (by decide) hd)
  rw [encode_eq, hnumbers, rebased_rebased (by decide) (by decide) hlt]

theorem exists_digit_of_decode? {t : Text} {b : Bytes} (h : decode? t = some b) {u : CodeUnit}
    (hu : u ∈ t) : ∃ n < 58, digit n = u := by
  obtain ⟨values, hvalues, -⟩ := decode?_eq_some.mp h
  exact Digits.exists_of_mem digit_of_value? hvalues hu

end Base58
end SealedEnvelope
