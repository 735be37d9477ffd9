import SealedEnvelope.Proofs.Codec.Base64url

/-!
# Unused bits of a text in base64url

Four digits are three bytes, and a shorter group at the end is one or two bytes and some bits that belong
to none. Reading ignores these bits, so a text is one of several for its bytes; the one that the bytes
are written as has all of them zero.
-/

namespace SealedEnvelope

namespace Base64url

/-- The digit for the largest multiple of `weight` that is not above the value of `u`. -/
def roundedDown (weight : Nat) (u : CodeUnit) : CodeUnit :=
  digit ((value? u).getD 0 / weight * weight)

/-- The text with the unused bits of its last digit cleared: two bits behind two bytes, four behind
one. -/
def cleared : Text → Text
  | a :: b :: c :: d :: rest => a :: b :: c :: d :: cleared rest
  | [a, b, c] => [a, b, roundedDown 4 c]
  | [a, b] => [a, roundedDown 16 b]
  | t => t

theorem roundedDown_digit (weight : Nat) {n : Nat} (h : n < 64) :
    roundedDown weight (digit n) = digit (n / weight * weight) := by
  rw [roundedDown, value?_digit n h, Option.getD_some]

theorem toNat_firstByte {a b : Nat} (ha : a < 64) (hb : b < 64) :
    (UInt8.ofNat (a * 4 + b / 16)).toNat = a * 4 + b / 16 := by
  apply UInt8.toNat_ofNat_of_lt'
  change _ < 256
  omega

theorem toNat_secondByte (b : Nat) {c : Nat} (hc : c < 64) :
    (UInt8.ofNat (b % 16 * 16 + c / 4)).toNat = b % 16 * 16 + c / 4 := by
  apply UInt8.toNat_ofNat_of_lt'
  change _ < 256
  omega

theorem toNat_thirdByte (c : Nat) {d : Nat} (hd : d < 64) :
    (UInt8.ofNat (c % 4 * 64 + d)).toNat = c % 4 * 64 + d := by
  apply UInt8.toNat_ofNat_of_lt'
  change _ < 256
  omega

theorem decodeOnto_eq : ∀ (values : List Nat) (out : Bytes),
    decodeOnto values out = out.reverse ++ decodeOnto values []
  | a :: b :: c :: d :: rest, out => by
    rw [decodeOnto, decodeOnto_eq rest, decodeOnto, decodeOnto_eq rest (_ :: _)]
    simp
  | [a, b, c], out => by simp [decodeOnto]
  | [a, b], out => by simp [decodeOnto]
  | [_], out => by simp [decodeOnto]
  | [], out => by simp [decodeOnto]

/-- The bytes of digits have these digits, but for the bits of the last one that belong to no byte. -/
theorem map_sextets_decodeOnto : ∀ {values : List Nat}, (∀ n ∈ values, n < 64) →
    values.length % 4 ≠ 1 → (sextets (decodeOnto values [])).map digit = cleared (values.map digit)
  | a :: b :: c :: d :: rest, hvalues, hlength => by
    simp only [List.forall_mem_cons] at hvalues
    obtain ⟨ha, hb, hc, hd, hrest⟩ := hvalues
    have hlength' : rest.length % 4 ≠ 1 := by
      simp only [List.length_cons] at hlength
      omega
    have hdigits : (a * 4 + b / 16) / 4 = a ∧
        (a * 4 + b / 16) % 4 * 16 + (b % 16 * 16 + c / 4) / 16 = b ∧
        (b % 16 * 16 + c / 4) % 16 * 4 + (c % 4 * 64 + d) / 64 = c ∧ (c % 4 * 64 + d) % 64 = d := by
      omega
    obtain ⟨ha', hb', hc', hd'⟩ := hdigits
    rw [decodeOnto, decodeOnto_eq]
    simp only [List.reverse_cons, List.reverse_nil, List.nil_append, List.cons_append, sextets,
      toNat_firstByte ha hb, toNat_secondByte b hc, toNat_thirdByte c hd, ha', hb', hc', hd',
      List.map_cons, cleared, map_sextets_decodeOnto hrest hlength']
  | [a, b, c], hvalues, _ => by
    simp only [List.forall_mem_cons] at hvalues
    obtain ⟨ha, hb, hc, -⟩ := hvalues
    have hdigits : (a * 4 + b / 16) / 4 = a ∧
        (a * 4 + b / 16) % 4 * 16 + (b % 16 * 16 + c / 4) / 16 = b ∧
        (b % 16 * 16 + c / 4) % 16 * 4 = c / 4 * 4 := by omega
    obtain ⟨ha', hb', hc'⟩ := hdigits
    simp only [decodeOnto, List.reverse_cons, List.reverse_nil, List.nil_append, List.cons_append,
      sextets, toNat_firstByte ha hb, toNat_secondByte b hc, ha', hb', hc', List.map_cons,
      List.map_nil, cleared, roundedDown_digit 4 hc]
  | [a, b], hvalues, _ => by
    simp only [List.forall_mem_cons] at hvalues
    obtain ⟨ha, hb, -⟩ := hvalues
    have hdigits : (a * 4 + b / 16) / 4 = a ∧ (a * 4 + b / 16) % 4 * 16 = b / 16 * 16 := by omega
    obtain ⟨ha', hb'⟩ := hdigits
    simp only [decodeOnto, List.reverse_cons, List.reverse_nil, List.nil_append, sextets,
      toNat_firstByte ha hb, ha', hb', List.map_cons, List.map_nil, cleared, roundedDown_digit 16 hb]
  | [_], _, hlength => absurd rfl hlength
  | [], _, _ => rfl

theorem encode_of_decode? {t : Text} {b : Bytes} (h : decode? t = some b) : encode b = cleared t := by
  obtain ⟨values, hlt, rfl, hlength, rfl⟩ := decode?_eq_some.mp h
  rw [encode_eq_map, map_sextets_decodeOnto hlt hlength]

theorem decode?_cleared {t : Text} {b : Bytes} (h : decode? t = some b) :
    decode? (cleared t) = some b := by
  rw [← encode_of_decode? h, decode?_encode]

end Base64url
end SealedEnvelope
