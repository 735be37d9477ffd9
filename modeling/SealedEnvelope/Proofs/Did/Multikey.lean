import SealedEnvelope.Did.Multikey
import SealedEnvelope.Proofs.Codec.Base58

/-!
# Multikeys and their texts

The bytes of a multikey begin with the code of its type, and no code is the beginning of another one.
So a text stands for one typed key at most, and a typed key of the right length has exactly one text.
-/

namespace SealedEnvelope

namespace Multikey

theorem length_codec (k : KeyType) : (codec k).length = 2 := by
  rcases k with _ | (_ | _) <;> rfl

theorem find?_codec (k : KeyType) (b : Bytes) :
    (KeyType.all.find? fun other => (codec other).isPrefixOf (codec k ++ b)) = some k := by
  rcases k with _ | (_ | _) <;> rfl

/-- The codes tell the types apart, whatever follows them. -/
theorem codec_append_inj {k other : KeyType} {b rest : Bytes} (h : codec k ++ b = codec other ++ rest) :
    k = other ∧ b = rest := by
  have hcodes : some k = some other := by rw [← find?_codec k b, h, find?_codec]
  obtain rfl := Option.some.inj hcodes
  exact ⟨rfl, List.append_cancel_left h⟩

theorem ofBytes_codec_append (key : Multikey) :
    ofBytes (codec key.keyType ++ key.publicKey) =
      if key.publicKey.length = keyLength key.keyType then .ok key
      else .error (.multikeyLength key.keyType.text (keyLength key.keyType)) := by
  have hdrop : (codec key.keyType ++ key.publicKey).drop 2 = key.publicKey := by
    rw [← length_codec key.keyType, List.drop_left]
  simp only [ofBytes, find?_codec, hdrop]

theorem ofBytes_eq_ok {b : Bytes} {key : Multikey} :
    ofBytes b = .ok key ↔
      codec key.keyType ++ key.publicKey = b ∧
        key.publicKey.length = keyLength key.keyType := by
  constructor
  · intro h
    simp only [ofBytes] at h
    split at h
    · cases h
    · rename_i k hk
      have hprefix : (codec k).isPrefixOf b = true := by simpa using List.find?_some hk
      obtain ⟨rest, rfl⟩ := List.isPrefixOf_iff_prefix.mp hprefix
      have hdrop : (codec k ++ rest).drop 2 = rest := by rw [← length_codec k, List.drop_left]
      rw [hdrop] at h
      split at h
      · rename_i hlength
        obtain rfl := Except.ok.inj h
        exact ⟨rfl, hlength⟩
      · cases h
  · rintro ⟨rfl, hlength⟩
    rw [ofBytes_codec_append, if_pos hlength]

theorem decodeMarked?_encode (key : Multikey) :
    decodeMarked? (encode key) = some (codec key.keyType ++ key.publicKey) := by
  simp only [encode, decodeMarked?, if_true, Base58.decode?_encode]

theorem decode_encode (key : Multikey) :
    decode (encode key) =
      if key.publicKey.length = keyLength key.keyType then .ok key
      else .error (.multikeyLength key.keyType.text (keyLength key.keyType)) := by
  simp only [decode, decodeMarked?_encode, ofBytes_codec_append]

/-- A text is read as the key that it is the text of, and only as that. -/
theorem decode_eq_ok {t : Text} {key : Multikey} :
    decode t = .ok key ↔ encode key = t ∧ key.publicKey.length = keyLength key.keyType := by
  constructor
  · intro h
    simp only [decode] at h
    split at h
    · cases h
    · rename_i b hb
      obtain ⟨hbytes, hlength⟩ := ofBytes_eq_ok.mp h
      refine ⟨?_, hlength⟩
      cases t with
      | nil => cases hb
      | cons u digits =>
        simp only [decodeMarked?] at hb
        split at hb
        · rename_i hu
          rw [encode, hbytes, Base58.encode_of_decode? hb, hu]
        · cases hb
  · rintro ⟨rfl, hlength⟩
    rw [decode_encode, if_pos hlength]

theorem encode_inj {key other : Multikey} (h : encode key = encode other) : key = other := by
  have hbytes := congrArg decodeMarked? h
  rw [decodeMarked?_encode, decodeMarked?_encode] at hbytes
  obtain ⟨htype, hpublic⟩ := codec_append_inj (Option.some.inj hbytes)
  cases key
  cases other
  rw [Multikey.mk.injEq]
  exact ⟨htype, hpublic⟩

theorem digit_ne_numberSign : ∀ n < 58, Base58.digit n ≠ 0x23 := by decide

theorem numberSign_not_mem_encode (key : Multikey) : 0x23 ∉ encode key := by
  intro h
  rcases List.mem_cons.mp h with hmark | hdigit
  · cases hmark
  · obtain ⟨n, hn, hu⟩ := Base58.exists_digit_of_decode? (Base58.decode?_encode _) hdigit
    exact digit_ne_numberSign n hn hu

end Multikey
end SealedEnvelope
