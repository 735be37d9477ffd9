import SealedEnvelope.Proofs.Cipher.ConcatKdf
import SealedEnvelope.Proofs.Number.Whole

/-!
# The bytes of a key

A round puts its digest behind those of the rounds before it. So byte `i` comes from round
`i / 32 + 1`, the first round being number one, and no later round touches it. There are as many rounds
as the bytes need, the last one for a part of its digest, and what is too much is cut off.
-/

namespace SealedEnvelope

namespace ConcatKdf

section Rounds

variable (secret context : Bytes)

theorem digests_succ (count : Nat) :
    digests secret context (count + 1) =
      digests secret context count ++ Sha256.hash (roundInput (count + 1) secret context) := by
  rw [digests, List.range_succ, List.flatMap_append, List.flatMap_singleton]
  rfl

@[simp] theorem length_digests (count : Nat) :
    (digests secret context count).length = 32 * count := by
  induction count with
  | zero => rfl
  | succ count ih => rw [digests_succ, List.length_append, ih, Sha256.length_hash, Nat.mul_succ]

/-- Where a byte comes from does not depend on how many rounds follow. -/
theorem getElem?_digests {count i : Nat} (h : i < 32 * count) :
    (digests secret context count)[i]? =
      (Sha256.hash (roundInput (i / 32 + 1) secret context))[i % 32]? := by
  induction count with
  | zero => exact absurd h (Nat.not_lt_zero i)
  | succ count ih =>
    -- The last round leaves the bytes of the earlier ones where they are.
    rw [digests_succ]
    rcases Nat.lt_or_ge i (32 * count) with hearlier | hlast
    · rw [List.getElem?_append_left (by rwa [length_digests]), ih hearlier]
    · have hround : i / 32 = count := by omega
      have hplace : i % 32 = i - 32 * count := by omega
      rw [List.getElem?_append_right (by rwa [length_digests]), length_digests, hround, hplace]

end Rounds

/-! ### Cutting -/

theorem le_roundCount (bytes : Nat) : bytes ≤ 32 * roundCount bytes := by
  unfold roundCount
  omega

theorem roundCount_le {bytes : Nat} (h : bytes ≤ 32 * maxRounds) : roundCount bytes ≤ maxRounds := by
  unfold roundCount
  omega

section Material

variable (secret apu apv : Bytes) (bytes : Nat) (algorithm : Text)

@[simp] theorem length_material : (material secret apu apv bytes algorithm).length = bytes := by
  rw [material, List.length_take, length_digests, Nat.min_eq_left (le_roundCount bytes)]

theorem getElem?_material {i : Nat} (h : i < bytes) :
    (material secret apu apv bytes algorithm)[i]? =
      (Sha256.hash
        (roundInput (i / 32 + 1) secret (context algorithm apu apv (bytes * 8))))[i % 32]? := by
  rw [material, List.getElem?_take_of_lt h,
    getElem?_digests secret _ (h.trans_le (le_roundCount bytes))]

end Material

/-! ### Lengths that can be asked for -/

theorem byteCount?_eq_some_iff_value? {bits : Double} {bytes : Nat} :
    byteCount? bits = some bytes ↔ 0 < bytes ∧ bits.value? = some ((bytes * 8 : Nat) : ℚ) := by
  rw [byteCount?_eq_some, Double.toInt?_eq_some, Int.cast_natCast]

theorem byteCount?_eq_none {bits : Double}
    (h : ∀ q ∈ bits.value?, q ≤ 0 ∨ ∀ m : Int, q ≠ 8 * m) : byteCount? bits = none := by
  rw [Option.eq_none_iff_forall_ne_some]
  intro bytes hbytes
  obtain ⟨hpositive, hvalue⟩ := byteCount?_eq_some_iff_value?.mp hbytes
  rcases h _ hvalue with hnegative | hparts
  · exact absurd (Nat.cast_pos.mpr (Nat.mul_pos hpositive (by decide))) (not_lt.mpr hnegative)
  · apply hparts bytes
    push_cast
    rw [mul_comm]

/-- A length in bits that makes whole bytes is derived in full, and each byte is one of the digest that
is hashed for its place. The lengths and the numbers in what is hashed are big-endian 32-bit words. Any
other number is refused as a length. -/
theorem derive_output :
    (∀ m < 2 ^ 32, (Bytes.word32 m).length = 4 ∧ Bytes.toNat (Bytes.word32 m) = m) ∧
    (∀ n < 2 ^ 53, (Double.ofNat n).value? = some (n : ℚ)) ∧
    (∀ (secret apu apv : Bytes) (algorithm : Text) (bits : Double) (n : Nat),
      bits.value? = some (n : ℚ) → 0 < n → n < 2 ^ 32 → 8 ∣ n →
        ∃ key, derive secret apu apv bits algorithm = .ok key ∧ key.length = n / 8 ∧
          ∀ i < n / 8, key[i]? = (Sha256.hash (Bytes.word32 (i / 32 + 1) ++ secret ++
            (Bytes.word32 algorithm.utf8.length ++ algorithm.utf8 ++
              (Bytes.word32 apu.length ++ apu) ++ (Bytes.word32 apv.length ++ apv) ++
                Bytes.word32 n)))[i % 32]?) ∧
    ∀ (secret apu apv : Bytes) (algorithm : Text) (bits : Double),
      (∀ q ∈ bits.value?, q = 0 ∨ q < 0 ∨ (∀ m : Int, q ≠ m) ∨ ∀ m : Int, q ≠ 8 * m) →
        ∃ e : Error, derive secret apu apv bits algorithm = .error e ∧
          e.code? = some .invalidParameter := by
  refine ⟨?_, fun n hn => Double.value?_ofNat hn, ?_, ?_⟩
  · intro m hm
    exact ⟨Bytes.length_word32 m, Bytes.toNat_ofNat hm⟩
  · rintro secret apu apv algorithm bits n hvalue hpositive hbound ⟨bytes, rfl⟩
    rw [Nat.mul_comm] at hvalue hbound ⊢
    have hbytes : byteCount? bits = some bytes :=
      byteCount?_eq_some_iff_value?.mpr ⟨Nat.pos_of_mul_pos_left hpositive, hvalue⟩
    have hcount : roundCount bytes ≤ maxRounds := roundCount_le (by unfold maxRounds; omega)
    rw [Nat.mul_div_cancel bytes (by decide)]
    refine ⟨_, derive_eq_material secret apu apv algorithm hbytes hcount,
      length_material secret apu apv bytes algorithm, ?_⟩
    intro i hi
    exact getElem?_material secret apu apv bytes algorithm hi
  · intro secret apu apv algorithm bits h
    refine ⟨_, derive_eq_error secret apu apv algorithm (byteCount?_eq_none ?_), rfl⟩
    intro q hq
    rcases h q hq with hzero | hnegative | hfraction | hparts
    · exact .inl hzero.le
    · exact .inl hnegative.le
    · refine .inr fun m hm => hfraction (8 * m) ?_
      rw [hm]
      push_cast
      rfl
    · exact .inr hparts

/-- The last of 33 bytes is the first one of the second digest. Nothing is derived for twelve and a half
bits, for minus eight, and for what is no number. -/
theorem derive_output_samples :
    (∃ key, derive [0x42] [] [0x62] (.ofNat 264) "A" = .ok key ∧ key.length = 33 ∧
      key[32]? = (Sha256.hash (Bytes.word32 2 ++ [0x42] ++ (Bytes.word32 1 ++ [0x41] ++
        (Bytes.word32 0 ++ []) ++ (Bytes.word32 1 ++ [0x62]) ++ Bytes.word32 264)))[0]?) ∧
    (∃ e : Error, derive [0x42] [] [] (.ofDecimal false 125 (-1)) "A" = .error e ∧
      e.code? = some .invalidParameter) ∧
    (∃ e : Error, derive [0x42] [] [] (.finite true (8 * Double.unitsPerOne)) "A" = .error e ∧
      e.code? = some .invalidParameter) ∧
    ∃ e : Error, derive [0x42] [] [] .nan "A" = .error e ∧ e.code? = some .invalidParameter := by
  obtain ⟨-, hnumber, hderived, hrefused⟩ := derive_output
  have hname : Text.utf8 "A" = [0x41] := by decide +kernel
  have hwhole : (Double.ofDecimal false 125 (-1)).toInt? = none := by decide +kernel
  have hnegative : (Double.finite true (8 * Double.unitsPerOne)).toInt? = some (-8) := by
    decide +kernel
  refine ⟨?_, hrefused _ _ _ _ _ ?_, hrefused _ _ _ _ _ ?_, hrefused _ _ _ _ _ ?_⟩
  · obtain ⟨key, hkey, hlength, hbytes⟩ := hderived [0x42] [] [0x62] "A" _ 264
      (hnumber 264 (by decide)) (by decide) (by decide) (by decide)
    refine ⟨key, hkey, hlength, ?_⟩
    have hlast := hbytes 32 (by decide)
    rw [hname] at hlast
    exact hlast
  · intro q hq
    refine .inr (.inr (.inl ?_))
    rintro m rfl
    cases hwhole.symm.trans (Double.toInt?_eq_some.mpr hq)
  · intro q hq
    obtain rfl := Option.some.inj (hq.symm.trans (Double.toInt?_eq_some.mp hnegative))
    exact .inr (.inl (by decide))
  · intro q hq
    cases hq

end ConcatKdf
end SealedEnvelope
