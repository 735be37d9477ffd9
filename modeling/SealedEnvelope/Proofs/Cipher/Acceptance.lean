import SealedEnvelope.Proofs.Cipher.Converse

/-!
# What is accepted under a key

Wrapping is one to one onto what is unwrapped, and sealing onto what is opened. A wrapped key is accepted
exactly if it is the wrapping of some key, and sealed content exactly if encrypting some plaintext under
the same vector and data gives it, the tag included. Whatever is not accepted is refused for its lengths
or for its check value, and the error tells no more than that.
-/

namespace SealedEnvelope

namespace KeyWrap

variable {kek key wrapped : Bytes}

theorem wrap_eq_ok :
    wrap kek key = .ok wrapped ↔
      kek.length = 32 ∧ 16 ≤ key.length ∧ key.length % 8 = 0 ∧
        wrapWith (Aes.cipher kek) key = wrapped := by
  by_cases hkek : kek.length = 32
  · by_cases hkey : key.length < 16 ∨ key.length % 8 ≠ 0
    · have hrefused : ¬(16 ≤ key.length ∧ key.length % 8 = 0) := by omega
      simp [wrap, hkek, hkey, ← and_assoc, hrefused]
    · have hwhole : 16 ≤ key.length ∧ key.length % 8 = 0 := by omega
      rw [wrap, if_neg (not_not_intro hkek), if_neg hkey]
      simp [hkek, hwhole]
  · simp [wrap, hkek]

theorem length_of_wrap (h : wrap kek key = .ok wrapped) : wrapped.length = key.length + 8 := by
  obtain ⟨hkek, -, hwhole, rfl⟩ := wrap_eq_ok.mp h
  obtain ⟨n, hn⟩ := Nat.dvd_of_mod_eq_zero hwhole
  rw [(unwrapWith_wrapWith (Aes.inverts_cipher hkek) hn).1, hn]

/-- Unwrapping is the inverse of wrapping, on whatever it is given. -/
theorem unwrap_eq_ok : unwrap kek wrapped = .ok key ↔ wrap kek key = .ok wrapped :=
  ⟨wrap_of_unwrap, unwrap_of_wrap⟩

/-- Why bytes are not unwrapped, with the error that says so. Lengths come first, and bytes of the right
length are at fault exactly if no key has them as its wrapping. -/
inductive Rejection (kek wrapped : Bytes) : Error → Prop
  | kekLength (h : kek.length ≠ 32) : Rejection kek wrapped (.kekLength kek.length)
  | length (hkek : kek.length = 32) (h : wrapped.length < 24 ∨ wrapped.length % 8 ≠ 0) :
    Rejection kek wrapped (.wrappedLength wrapped.length)
  | integrity (hkek : kek.length = 32) (hlength : ¬(wrapped.length < 24 ∨ wrapped.length % 8 ≠ 0))
    (h : ∀ key, wrap kek key ≠ .ok wrapped) : Rejection kek wrapped .wrapIntegrity

theorem unwrap_eq_error {e : Error} : unwrap kek wrapped = .error e ↔ Rejection kek wrapped e := by
  constructor
  · intro h
    have hnone : ∀ key, wrap kek key ≠ .ok wrapped := by
      intro key hkey
      cases (unwrap_eq_ok.mpr hkey).symm.trans h
    simp only [unwrap] at h
    split at h
    · rename_i hkek
      obtain rfl := Except.error.inj h
      exact .kekLength hkek
    · rename_i hkek
      split at h
      · rename_i hlength
        obtain rfl := Except.error.inj h
        exact .length (Decidable.not_not.mp hkek) hlength
      · rename_i hlength
        split at h
        · cases h
        · obtain rfl := Except.error.inj h
          exact .integrity (Decidable.not_not.mp hkek) hlength hnone
  · intro h
    cases h with
    | kekLength h => exact if_pos h
    | length hkek h => rw [unwrap, if_neg (not_not_intro hkek), if_pos h]
    | integrity hkek hlength h =>
      rw [unwrap, if_neg (not_not_intro hkek), if_neg hlength]
      split
      · rename_i key hkey
        -- A key that came back would have been wrapped to these bytes.
        apply absurd _ (h key)
        apply unwrap_eq_ok.mp
        rw [unwrap, if_neg (not_not_intro hkek), if_neg hlength, hkey]
      · rfl

/-- Every key of two or more whole semiblocks is wrapped to eight bytes more, and the wrappings are
exactly what is unwrapped, each to the one key that it is the wrapping of. -/
theorem wrap_bijective :
    (∀ kek key : Bytes, kek.length = 32 → 16 ≤ key.length → key.length % 8 = 0 →
      ∃ wrapped, wrap kek key = .ok wrapped ∧ wrapped.length = key.length + 8 ∧
        unwrap kek wrapped = .ok key) ∧
    (∀ kek wrapped key : Bytes, unwrap kek wrapped = .ok key → wrap kek key = .ok wrapped) ∧
    (∀ kek wrapped other key : Bytes, unwrap kek wrapped = .ok key → unwrap kek other = .ok key →
      wrapped = other) ∧
    (∀ kek wrapped : Bytes,
      (∃ e, unwrap kek wrapped = .error e ∧ e.code? = some .invalidParameter) ↔
        kek.length ≠ 32 ∨ wrapped.length < 24 ∨ wrapped.length % 8 ≠ 0) ∧
    ∀ (kek wrapped : Bytes) (e : Error), unwrap kek wrapped = .error e →
      e.code? ≠ some .invalidParameter →
        e.code? = some .integrityCheckFailed ∧ ∀ key, wrap kek key ≠ .ok wrapped := by
  refine ⟨?_, fun _ _ _ => unwrap_eq_ok.mp, ?_, ?_, ?_⟩
  · intro kek key hkek hlength hwhole
    have hwrapped : wrap kek key = .ok (wrapWith (Aes.cipher kek) key) :=
      wrap_eq_ok.mpr ⟨hkek, hlength, hwhole, rfl⟩
    exact ⟨_, hwrapped, length_of_wrap hwrapped, unwrap_eq_ok.mpr hwrapped⟩
  · intro kek wrapped other key hwrapped hother
    exact Except.ok.inj ((unwrap_eq_ok.mp hwrapped).symm.trans (unwrap_eq_ok.mp hother))
  · intro kek wrapped
    constructor
    · intro ⟨e, he, hcode⟩
      cases unwrap_eq_error.mp he with
      | kekLength h => exact .inl h
      | length _ h => exact .inr h
      | integrity => cases hcode
    · intro h
      by_cases hkek : kek.length = 32
      · exact ⟨_, unwrap_eq_error.mpr (.length hkek (h.resolve_left (not_not_intro hkek))), rfl⟩
      · exact ⟨_, unwrap_eq_error.mpr (.kekLength hkek), rfl⟩
  · intro kek wrapped e he hcode
    cases unwrap_eq_error.mp he with
    | kekLength | length => exact absurd rfl hcode
    | integrity _ _ h => exact ⟨rfl, h⟩

theorem wrap_bijective_sample :
    (∃ wrapped, wrap (.ofNat 32 7) (.ofNat 24 9) = .ok wrapped ∧ wrapped.length = 32 ∧
      unwrap (.ofNat 32 7) wrapped = .ok (.ofNat 24 9)) ∧
      ∃ e, unwrap (.ofNat 32 7) (.ofNat 23 9) = .error e ∧ e.code? = some .invalidParameter := by
  obtain ⟨hwraps, -, -, hlengths, -⟩ := wrap_bijective
  have hkey : (Bytes.ofNat 24 9).length = 24 := Bytes.length_ofNat 24 9
  constructor
  · obtain ⟨wrapped, hwrapped, hlength, hunwrapped⟩ := hwraps (.ofNat 32 7) (.ofNat 24 9)
      (Bytes.length_ofNat 32 7) (by rw [hkey]; decide) (by rw [hkey])
    rw [hkey] at hlength
    exact ⟨wrapped, hwrapped, hlength, hunwrapped⟩
  · apply (hlengths (.ofNat 32 7) (.ofNat 23 9)).mpr
    rw [Bytes.length_ofNat, Bytes.length_ofNat]
    decide

end KeyWrap

namespace Content

variable {key plaintext aad : Bytes} {content : SealedContent}

theorem opened_eq_ok :
    opened key content aad = .ok plaintext ↔
      key.length = keyLength ∧ content.iv.length = ivLength ∧ content.tag.length = tagLength ∧
        Gcm.encrypt (Aes.cipher key) content.iv aad plaintext = (content.ciphertext, content.tag) := by
  constructor
  · exact encrypt_of_opened
  · intro ⟨hkey, hiv, htag, hencrypt⟩
    obtain ⟨hciphertext, hsame⟩ := Prod.mk.inj hencrypt
    have hlengths : ¬(key.length ≠ keyLength ∨ content.iv.length ≠ ivLength ∨
        content.tag.length ≠ tagLength) := by
      rw [not_or, not_or]
      exact ⟨not_not_intro hkey, not_not_intro hiv, not_not_intro htag⟩
    rw [hciphertext] at hsame
    rw [opened, if_neg hlengths, Gcm.decrypt?, if_pos hsame, ← hciphertext,
      Gcm.crypt_crypt (Aes.inverts_cipher hkey) hiv]

theorem opened_eq_error {e : Error} :
    opened key content aad = .error e ↔
      e = .openFailed ∧ ∀ plaintext, opened key content aad ≠ .ok plaintext := by
  have hcases : opened key content aad = .error .openFailed ∨
      ∃ plaintext, opened key content aad = .ok plaintext := by
    unfold opened
    split
    · exact .inl rfl
    · split
      · exact .inr ⟨_, rfl⟩
      · exact .inl rfl
  rcases hcases with hfailed | ⟨plaintext, hplaintext⟩
  · simp [hfailed, eq_comm]
  · simp [hplaintext]

/-- What is sealed with a key has the sizes of its parts and is opened again, and what is opened is the
encryption of the plaintext under the same key, vector and data. So one tag only is accepted for a
ciphertext, and everything else has the same error. -/
theorem opened_iff_encrypted :
    (∀ (key plaintext : Bytes) (aad : Option Bytes) (e : Entropy), key.length = keyLength →
      ∃ content, Content.sealed key plaintext (aad.getD []) e = .ok content ∧
        content.ciphertext.length = plaintext.length ∧ content.iv = e.first ivLength ∧
        content.tag.length = tagLength ∧ opened key content (aad.getD []) = .ok plaintext) ∧
    (∀ (key : Bytes) (content : SealedContent) (aad : Option Bytes) (plaintext : Bytes),
      opened key content (aad.getD []) = .ok plaintext ↔
        key.length = keyLength ∧ content.iv.length = ivLength ∧ content.tag.length = tagLength ∧
        Gcm.encrypt (Aes.cipher key) content.iv (aad.getD []) plaintext =
          (content.ciphertext, content.tag)) ∧
    (∀ (key ciphertext iv tag other first second : Bytes) (aad : Option Bytes),
      opened key ⟨ciphertext, iv, tag⟩ (aad.getD []) = .ok first →
      opened key ⟨ciphertext, iv, other⟩ (aad.getD []) = .ok second → tag = other) ∧
    (∀ (key : Bytes) (content : SealedContent) (aad : Option Bytes),
      (∀ plaintext, opened key content (aad.getD []) ≠ .ok plaintext) →
      opened key content (aad.getD []) = .error .openFailed) ∧
    Error.openFailed.code? = some .decryptionFailed ∧
    Error.openFailed.message = "decryption failed" := by
  refine ⟨?_, fun _ _ _ _ => opened_eq_ok, ?_, ?_, rfl, rfl⟩
  · intro key plaintext aad e hkey
    obtain ⟨content, hsealed⟩ := sealed_of_length plaintext (aad.getD []) e hkey
    obtain ⟨hciphertext, hiv, htag⟩ := sizes_of_sealed hsealed
    exact ⟨content, hsealed, hciphertext, hiv, htag, opened_of_sealed hsealed⟩
  · intro key ciphertext iv tag other first second aad hfirst hsecond
    obtain ⟨hkey, hiv, -, hencrypt⟩ := opened_eq_ok.mp hfirst
    obtain ⟨-, -, -, hencrypt'⟩ := opened_eq_ok.mp hsecond
    obtain ⟨hciphertext, htag⟩ := Prod.mk.inj hencrypt
    obtain ⟨hciphertext', htag'⟩ := Prod.mk.inj hencrypt'
    -- The tag is computed from the ciphertext, which is the same.
    rw [hciphertext] at htag
    rw [hciphertext'] at htag'
    exact htag.symm.trans htag'
  · intro key content aad hnone
    exact opened_eq_error.mpr ⟨rfl, hnone⟩

theorem opened_iff_encrypted_sample :
    ∃ content, Content.sealed (.ofNat 32 7) [1, 2, 3] [] (fun _ => 0) = .ok content ∧
      content.ciphertext.length = 3 ∧ opened (.ofNat 32 7) content [] = .ok [1, 2, 3] ∧
      opened (.ofNat 32 7) { content with tag := content.tag.map (· + 1) } [] = .error .openFailed := by
  obtain ⟨hseals, -, htags, hfails, -, -⟩ := opened_iff_encrypted
  obtain ⟨content, hsealed, hlength, -, htag, hopened⟩ :=
    hseals (.ofNat 32 7) [1, 2, 3] none (fun _ => 0) (Bytes.length_ofNat 32 7)
  refine ⟨content, hsealed, hlength, hopened, ?_⟩
  apply hfails (.ofNat 32 7) { content with tag := content.tag.map (· + 1) } none
  intro plaintext h
  have hsame : content.tag = content.tag.map (· + 1) :=
    htags (.ofNat 32 7) content.ciphertext content.iv _ _ _ _ none hopened h
  cases hbytes : content.tag with
  | nil =>
    rw [hbytes] at htag
    cases htag
  | cons b rest =>
    rw [hbytes, List.map_cons] at hsame
    have hnext : b = b + 1 := (List.cons.inj hsame).1
    simp at hnext

end Content
end SealedEnvelope
