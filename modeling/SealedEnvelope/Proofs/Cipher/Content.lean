import SealedEnvelope.Cipher.Content
import SealedEnvelope.Proofs.Cipher.Aes
import SealedEnvelope.Proofs.Outcome

/-!
# Sealed content is opened

The key stream is as long as the text, so combining with it twice gives the text back, and the tag is
recomputed from the ciphertext that was sealed. Only the sizes of the cipher's blocks matter here.
-/

namespace SealedEnvelope

namespace Gcm

variable {c : BlockCipher} {iv : Bytes}

theorem length_encrypt_counterBlock (hc : c.Inverts) (hiv : iv.length = 12) (counter : Nat) :
    (c.encrypt (counterBlock iv counter)).length = 16 := by
  refine (hc _ ?_).1
  unfold counterBlock
  rw [List.length_append, hiv, Bytes.length_word32]

theorem length_stream (hc : c.Inverts) (hiv : iv.length = 12) (count : Nat) :
    ((List.range count).flatMap fun i => c.encrypt (counterBlock iv (i + 2))).length
      = 16 * count := by
  have hblocks : ∀ b ∈ (List.range count).map fun i => c.encrypt (counterBlock iv (i + 2)),
      b.length = 16 := by
    intro b hb
    obtain ⟨i, -, rfl⟩ := List.mem_map.mp hb
    exact length_encrypt_counterBlock hc hiv (i + 2)
  rw [List.flatMap_def, Bytes.length_flatten_of_forall hblocks, List.length_map,
    List.length_range]

theorem le_length_stream (hc : c.Inverts) (hiv : iv.length = 12) (text : Bytes) :
    text.length ≤ ((List.range ((text.length + 15) / 16)).flatMap fun i =>
      c.encrypt (counterBlock iv (i + 2))).length := by
  rw [length_stream hc hiv]
  omega

theorem length_crypt (hc : c.Inverts) (hiv : iv.length = 12) (text : Bytes) :
    (crypt c iv text).length = text.length := by
  unfold crypt
  rw [Bytes.length_xor]
  exact Nat.min_eq_left (le_length_stream hc hiv text)

theorem crypt_crypt (hc : c.Inverts) (hiv : iv.length = 12) (text : Bytes) :
    crypt c iv (crypt c iv text) = text := by
  have hlength := length_crypt hc hiv text
  unfold crypt at hlength ⊢
  simp only at hlength ⊢
  rw [hlength, Bytes.xor_xor (le_length_stream hc hiv text)]

theorem length_tag (hc : c.Inverts) (hiv : iv.length = 12) (aad ciphertext : Bytes) :
    (tag c iv aad ciphertext).length = 16 :=
  Bytes.length_xor_of_eq (Bytes.length_ofNat 16 _) (length_encrypt_counterBlock hc hiv 1)

end Gcm

namespace Content

theorem sealed_of_length {key : Bytes} (plaintext aad : Bytes) (e : Entropy)
    (hkey : key.length = keyLength) : ∃ content, Content.sealed key plaintext aad e = .ok content :=
  ⟨_, if_neg (not_not_intro hkey)⟩

theorem exists_sealed (e e' : Entropy) (plaintext aad : Bytes) :
    ∃ content, Content.sealed (freshKey e) plaintext aad e' = .ok content :=
  sealed_of_length plaintext aad e' (Entropy.length_first e keyLength)

theorem sizes_of_sealed {key plaintext aad : Bytes} {e : Entropy} {content : SealedContent}
    (h : Content.sealed key plaintext aad e = .ok content) :
    content.ciphertext.length = plaintext.length ∧ content.iv = e.first ivLength ∧
      content.tag.length = tagLength := by
  unfold Content.sealed at h
  split at h
  · cases h
  · rename_i hkey
    have hc := Aes.inverts_cipher (Decidable.not_not.mp hkey)
    have hiv : (e.first ivLength).length = 12 := Entropy.length_first e ivLength
    obtain rfl := Except.ok.inj h
    refine ⟨?_, rfl, ?_⟩
    · exact Gcm.length_crypt hc hiv plaintext
    · dsimp only [Gcm.encrypt]
      exact Gcm.length_tag hc hiv aad _

/-- What has been sealed is opened with the same key and the same associated data. -/
theorem opened_of_sealed {key plaintext aad : Bytes} {e : Entropy} {content : SealedContent}
    (h : Content.sealed key plaintext aad e = .ok content) : opened key content aad = .ok plaintext := by
  unfold Content.sealed at h
  split at h
  · cases h
  · rename_i hkey
    obtain rfl := Except.ok.inj h
    have hc := Aes.inverts_cipher (Decidable.not_not.mp hkey)
    have hiv : (e.first ivLength).length = 12 := Entropy.length_first e ivLength
    have htag := Gcm.length_tag hc hiv aad (Gcm.crypt (Aes.cipher key) (e.first ivLength) plaintext)
    unfold opened Gcm.decrypt?
    simp only
    rw [if_neg, if_pos trivial, Gcm.crypt_crypt hc hiv]
    rw [not_or, not_or]
    exact ⟨hkey, not_not_intro hiv, not_not_intro htag⟩

end Content
end SealedEnvelope
