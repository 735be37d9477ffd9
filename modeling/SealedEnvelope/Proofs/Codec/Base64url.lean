import SealedEnvelope.Codec.Base64url
import SealedEnvelope.Proofs.Codec.Digits
import SealedEnvelope.Proofs.Text.Utf8

/-!
# Base64url laws

Bytes come back from their digits, and the digits are letters, decimal digits, the hyphen and the low
line. So an encoded value contains no dot, no blank and no surrogate.
-/

namespace SealedEnvelope

namespace Base64url

theorem value?_digit : ∀ n < 64, value? (digit n) = some n := by decide

def sextets : Bytes → List Nat
  | [] => []
  | [a] => [a.toNat / 4, a.toNat % 4 * 16]
  | [a, b] => [a.toNat / 4, a.toNat % 4 * 16 + b.toNat / 16, b.toNat % 16 * 4]
  | a :: b :: c :: rest =>
    a.toNat / 4 :: (a.toNat % 4 * 16 + b.toNat / 16) :: (b.toNat % 16 * 4 + c.toNat / 64)
      :: c.toNat % 64 :: sextets rest

theorem sextets_lt : ∀ {b : Bytes} {n : Nat}, n ∈ sextets b → n < 64
  | [], n, h => by simp [sextets] at h
  | [a], n, h => by
    have := a.toNat_lt
    simp only [sextets, List.mem_cons, List.not_mem_nil, or_false] at h
    omega
  | [a, b], n, h => by
    have := a.toNat_lt
    have := b.toNat_lt
    simp only [sextets, List.mem_cons, List.not_mem_nil, or_false] at h
    omega
  | a :: b :: c :: rest, n, h => by
    have := a.toNat_lt
    have := b.toNat_lt
    have := c.toNat_lt
    simp only [sextets, List.mem_cons] at h
    rcases h with h | h | h | h | h
    · omega
    · omega
    · omega
    · omega
    · exact sextets_lt h

theorem encodeOnto_eq : ∀ (b : Bytes) (out : Text),
    encodeOnto b out = out.reverse ++ (sextets b).map digit
  | [], out => by simp [encodeOnto, sextets]
  | [a], out => by simp [encodeOnto, sextets]
  | [a, b], out => by simp [encodeOnto, sextets]
  | a :: b :: c :: rest, out => by
    rw [encodeOnto, encodeOnto_eq rest, sextets]
    simp

theorem encode_eq_map (b : Bytes) : encode b = (sextets b).map digit := encodeOnto_eq b []

theorem mapM_value?_digits {values : List Nat} (h : ∀ n ∈ values, n < 64) :
    (values.map digit).mapM value? = some values :=
  Digits.mapM_map_digit value?_digit h

theorem decodeOnto_sextets : ∀ (b out : Bytes), decodeOnto (sextets b) out = out.reverse ++ b
  | [], out => by simp [sextets, decodeOnto]
  | [a], out => by
    have ha := a.toNat_lt
    have hvalue : a.toNat / 4 * 4 + a.toNat % 4 * 16 / 16 = a.toNat := by omega
    simp only [sextets, decodeOnto, hvalue, UInt8.ofNat_toNat]
    simp
  | [a, b], out => by
    have hb := b.toNat_lt
    have hfirst : a.toNat / 4 * 4 + (a.toNat % 4 * 16 + b.toNat / 16) / 16 = a.toNat := by omega
    have hsecond : (a.toNat % 4 * 16 + b.toNat / 16) % 16 * 16 + b.toNat % 16 * 4 / 4 = b.toNat := by
      omega
    simp only [sextets, decodeOnto, hfirst, hsecond, UInt8.ofNat_toNat]
    simp
  | a :: b :: c :: rest, out => by
    have hb := b.toNat_lt
    have hc := c.toNat_lt
    have hfirst : a.toNat / 4 * 4 + (a.toNat % 4 * 16 + b.toNat / 16) / 16 = a.toNat := by omega
    have hsecond : (a.toNat % 4 * 16 + b.toNat / 16) % 16 * 16
        + (b.toNat % 16 * 4 + c.toNat / 64) / 4 = b.toNat := by omega
    have hthird : (b.toNat % 16 * 4 + c.toNat / 64) % 4 * 64 + c.toNat % 64 = c.toNat := by omega
    simp only [sextets, decodeOnto, hfirst, hsecond, hthird, UInt8.ofNat_toNat,
      decodeOnto_sextets rest]
    simp

theorem length_sextets_mod : ∀ b : Bytes, (sextets b).length % 4 ≠ 1
  | [] => by simp [sextets]
  | [_] => by simp [sextets]
  | [_, _] => by simp [sextets]
  | _ :: _ :: _ :: rest => by
    have ih := length_sextets_mod rest
    simp only [sextets, List.length_cons]
    omega

@[simp] theorem decode?_encode (b : Bytes) : decode? (encode b) = some b := by
  have hlength : (encode b).length % 4 ≠ 1 := by
    rw [encode_eq_map, List.length_map]
    exact length_sextets_mod b
  simp only [decode?, if_neg hlength]
  rw [encode_eq_map, mapM_value?_digits fun n h => sextets_lt h]
  exact congrArg some (decodeOnto_sextets b [])

/-! ### The alphabet -/

theorem exists_digit_of_mem_encode {b : Bytes} {u : CodeUnit} (h : u ∈ encode b) :
    ∃ n < 64, digit n = u := by
  rw [encode_eq_map] at h
  obtain ⟨n, hn, hu⟩ := List.mem_map.mp h
  exact ⟨n, sextets_lt hn, hu⟩

theorem digit_eq {u : CodeUnit} {n : Nat}
    (h : (if n < 26 then 0x41 + n else if n < 52 then 0x61 + (n - 26)
      else if n < 62 then 0x30 + (n - 52) else if n = 62 then 0x2D else 0x5F) = u.toNat) :
    digit n = u := by
  rw [digit, h, UInt16.ofNat_toNat]

theorem digit_of_value? (u : CodeUnit) (n : Nat) (h : value? u = some n) : n < 64 ∧ digit n = u := by
  simp only [value?, UInt16.le_iff_toNat_le, UInt16.reduceToNat] at h
  split at h
  · have hn := Option.some.inj h
    exact ⟨by omega, digit_eq (by split <;> omega)⟩
  split at h
  · have hn := Option.some.inj h
    refine ⟨by omega, digit_eq ?_⟩
    rw [if_neg (by omega), if_pos (by omega)]
    omega
  split at h
  · have hn := Option.some.inj h
    refine ⟨by omega, digit_eq ?_⟩
    rw [if_neg (by omega), if_neg (by omega), if_pos (by omega)]
    omega
  split at h
  · rename_i hu
    rw [← Option.some.inj h, hu]
    exact ⟨by decide, rfl⟩
  split at h
  · rename_i hu
    rw [← Option.some.inj h, hu]
    exact ⟨by decide, rfl⟩
  · cases h

theorem decode?_map_digit {values : List Nat} (h : ∀ n ∈ values, n < 64)
    (hlength : values.length % 4 ≠ 1) :
    decode? (values.map digit) = some (decodeOnto values []) := by
  simp only [decode?, mapM_value?_digits h, List.length_map, if_neg hlength]

/-- What is read is the text of values, without a lone one at the end. -/
theorem decode?_eq_some {t : Text} {b : Bytes} :
    decode? t = some b ↔ ∃ values, (∀ n ∈ values, n < 64) ∧ values.map digit = t ∧
      values.length % 4 ≠ 1 ∧ b = decodeOnto values [] := by
  constructor
  · intro h
    unfold decode? at h
    split at h
    · cases h
    · rename_i values hvalues
      split at h
      · cases h
      · rename_i hlength
        obtain ⟨hlt, rfl⟩ := Digits.map_digit_of_mapM digit_of_value? hvalues
        rw [List.length_map] at hlength
        exact ⟨values, hlt, rfl, hlength, (Option.some.inj h).symm⟩
  · rintro ⟨values, hlt, rfl, hlength, rfl⟩
    exact decode?_map_digit hlt hlength

theorem exists_digit_of_decode? {t : Text} {b : Bytes} (h : decode? t = some b) {u : CodeUnit}
    (hu : u ∈ t) : ∃ n < 64, digit n = u := by
  obtain ⟨values, hlt, rfl, -, -⟩ := decode?_eq_some.mp h
  obtain ⟨n, hn, hdigit⟩ := List.mem_map.mp hu
  exact ⟨n, hlt n hn, hdigit⟩

theorem digit_ne_dot : ∀ n < 64, digit n ≠ 0x2E := by decide

theorem isBlank_digit : ∀ n < 64, Text.isBlank (digit n) = false := by decide

theorem dot_not_mem_encode (b : Bytes) : 0x2E ∉ encode b := by
  intro h
  obtain ⟨n, hn, hu⟩ := exists_digit_of_mem_encode h
  exact digit_ne_dot n hn hu

theorem dot_not_mem_of_decode? {t : Text} {b : Bytes} (h : decode? t = some b) : 0x2E ∉ t := by
  intro hdot
  obtain ⟨n, hn, hu⟩ := exists_digit_of_decode? h hdot
  exact digit_ne_dot n hn hu

theorem digit_lt : ∀ n < 64, (digit n).toNat < 0x80 := by decide

theorem lt_of_decode? {t : Text} {b : Bytes} (h : decode? t = some b) : ∀ u ∈ t, u.toNat < 0x80 := by
  intro u hu
  obtain ⟨n, hn, rfl⟩ := exists_digit_of_decode? h hu
  exact digit_lt n hn

theorem isBlank_of_mem_encode {b : Bytes} {u : CodeUnit} (h : u ∈ encode b) :
    Text.isBlank u = false := by
  obtain ⟨n, hn, rfl⟩ := exists_digit_of_mem_encode h
  exact isBlank_digit n hn

theorem head?_encode : ∀ (a : UInt8) (rest : Bytes),
    (encode (a :: rest)).head? = some (digit (a.toNat / 4))
  | a, [] => rfl
  | a, [b] => rfl
  | a, b :: c :: rest => by rw [encode_eq_map, sextets, List.map_cons, List.head?_cons]

/-! ### Texts -/

theorem decode?_encodeText (t : Text) : decode? (encodeText t) = some t.utf8 := decode?_encode t.utf8

theorem decodeText_eq_ok {t s : Text} :
    decodeText t = .ok s ↔ ∃ b, decode? t = some b ∧ Utf8.decodeLenient b = s := by
  unfold decodeText
  cases decode? t with
  | none => simp
  | some b => simp

end Base64url
end SealedEnvelope
