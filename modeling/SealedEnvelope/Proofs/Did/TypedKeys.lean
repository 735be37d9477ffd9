import SealedEnvelope.Proofs.Did.SelfCertifying

/-!
# One text for each typed key

A typed key and its multikey determine each other, and so do a typed key and its DID. A key with a wrong
number of bytes has a text as well, which is the text of nothing else and is refused when it is read.
-/

namespace SealedEnvelope

namespace DidKey

theorem eq_of_multibase {did other : Text} (hdid : isDidKey did = true) (hother : isDidKey other = true)
    (h : multibase did = multibase other) : did = other := by
  rw [eq_scheme_of_isDidKey hdid, eq_scheme_of_isDidKey hother, h]

end DidKey

namespace Multikey

/-- Typed keys of the right length and the texts that are read correspond to each other. -/
theorem typed_keys_correspond :
    (∀ (keyType : KeyType) (publicKey : Bytes), publicKey.length = keyLength keyType →
      decode (encode ⟨keyType, publicKey⟩) = .ok ⟨keyType, publicKey⟩) ∧
    (∀ (keyType : KeyType) (publicKey : Bytes), publicKey.length ≠ keyLength keyType →
      ∃ e, decode (encode ⟨keyType, publicKey⟩) = .error e ∧ e.code? = some .invalidKey) ∧
    (∀ (t : Text) (key : Multikey), decode t = .ok key → encode key = t) ∧
    (∀ (did other : Text) (key : Multikey),
      DidKey.isDidKey did = true → DidKey.isDidKey other = true →
      decode (DidKey.multibase did) = .ok key → decode (DidKey.multibase other) = .ok key →
      did = other) ∧
    (∀ key other : Multikey, encode key = encode other → key = other) ∧
    keyLength .ed25519 = 32 ∧ ∀ c, keyLength (.ec c) = 33 := by
  refine ⟨?_, ?_, ?_, ?_, fun _ _ => encode_inj, rfl, fun _ => rfl⟩
  · intro keyType publicKey hlength
    rw [decode_encode, if_pos hlength]
  · intro keyType publicKey hlength
    have hrefused : decode (encode ⟨keyType, publicKey⟩) =
        .error (.multikeyLength keyType.text (keyLength keyType)) := by
      rw [decode_encode, if_neg hlength]
    exact ⟨_, hrefused, rfl⟩
  · intro t key h
    exact (decode_eq_ok.mp h).1
  · intro did other key hdid hother hkey hsame
    apply DidKey.eq_of_multibase hdid hother
    rw [← (decode_eq_ok.mp hkey).1, ← (decode_eq_ok.mp hsame).1]

theorem typed_keys_correspond_samples :
    decode (encode ⟨.ec .p256, 2 :: Bytes.ofNat 32 7⟩) = .ok ⟨.ec .p256, 2 :: Bytes.ofNat 32 7⟩ ∧
      (∃ e, decode (encode ⟨.ec .p256, .ofNat 32 7⟩) = .error e ∧ e.code? = some .invalidKey) ∧
      ∃ key, decode "z6MkhaXgBZDvotDkL5257faiztiGiC2QtKLGpbnnEGta2doK" = .ok key ∧
        key.keyType = .ed25519 ∧
        encode key = "z6MkhaXgBZDvotDkL5257faiztiGiC2QtKLGpbnnEGta2doK" := by
  obtain ⟨hreads, hrefuses, hwrites, -⟩ := typed_keys_correspond
  refine ⟨?_, ?_, ?_⟩
  · apply hreads
    rw [List.length_cons, Bytes.length_ofNat]
    rfl
  · apply hrefuses
    rw [Bytes.length_ofNat]
    decide
  · have hrun : (decode "z6MkhaXgBZDvotDkL5257faiztiGiC2QtKLGpbnnEGta2doK").toOption.map
        keyType = some .ed25519 := by decide +kernel
    obtain ⟨key, hkey, htype⟩ := Option.map_eq_some_iff.mp hrun
    have hkey := toOption_eq_some.mp hkey
    exact ⟨key, hkey, htype, hwrites _ key hkey⟩

end Multikey
end SealedEnvelope
