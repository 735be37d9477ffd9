import SealedEnvelope.Proofs.Jwe.Evidence

/-!
# What keeps an envelope closed

Opening an entry goes through the header, the ephemeral key, the agreement, the wrapped key and the
content, and each of these can be at fault in its own way. An entry stays closed exactly if one of them
is, and what is reported then is the same for all of them.
-/

namespace SealedEnvelope

/-- What is wrong with sealed content or with the key that it is to be opened with. -/
inductive Content.Obstacle (key : Bytes) (content : SealedContent) (aad : Bytes) : Prop
  | keyLength (h : key.length ≠ keyLength)
  | ivLength (h : content.iv.length ≠ ivLength)
  | tagLength (h : content.tag.length ≠ tagLength)
  | tag (h : Gcm.decrypt? (Aes.cipher key) content.iv aad content.ciphertext content.tag = none)

theorem Content.opened_eq_error_iff {key : Bytes} {content : SealedContent} {aad : Bytes} :
    (∃ e, opened key content aad = .error e) ↔ Obstacle key content aad := by
  unfold opened
  constructor
  · intro h
    split at h
    · rename_i hlengths
      rcases hlengths with hkey | hiv | htag
      · exact .keyLength hkey
      · exact .ivLength hiv
      · exact .tagLength htag
    · split at h
      · obtain ⟨e, he⟩ := h
        cases he
      · rename_i htag
        exact .tag htag
  · intro h
    cases h with
    | keyLength h => exact ⟨_, if_pos (Or.inl h)⟩
    | ivLength h => exact ⟨_, if_pos (Or.inr (Or.inl h))⟩
    | tagLength h => exact ⟨_, if_pos (Or.inr (Or.inr h))⟩
    | tag h =>
      rw [h]
      exact ⟨.openFailed, ite_self _⟩

/-- What is wrong on the way from an ephemeral key and a wrapped key to a content key. -/
inductive KeyObstacle (context : RecipientContext) (epk : EcJwk) (wrapped : Bytes)
    (senderKid : Option Text) : Prop
  | curve (h : epk.curve ≠ context.curve)
  | point {e : Error} (h : epk.publicKey = .error e)
  | agreement {publicKey : Bytes} (hpublicKey : epk.publicKey = .ok publicKey)
      (h : context.agree publicKey = none)
  | wrapping {publicKey secret : Bytes} {e : Error} (hpublicKey : epk.publicKey = .ok publicKey)
      (hsecret : context.agree publicKey = some secret)
      (h : KeyWrap.unwrap (wrappingKey secret senderKid context.keyId) wrapped = .error e)

theorem unwrapFrom?_eq_none_iff {context : RecipientContext} {epk : EcJwk} {wrapped : Bytes}
    {senderKid : Option Text} :
    unwrapFrom? context epk wrapped senderKid = none ↔ KeyObstacle context epk wrapped senderKid := by
  constructor
  · intro h
    by_cases hcurve : epk.curve = context.curve
    · cases hpublicKey : epk.publicKey with
      | error e => exact .point hpublicKey
      | ok publicKey =>
        cases hsecret : context.agree publicKey with
        | none => exact .agreement hpublicKey hsecret
        | some secret =>
          simp only [unwrapFrom?, hcurve, hpublicKey, hsecret, ne_eq, not_true_eq_false, if_false,
            Except.toOption, Option.bind_eq_bind, Option.bind_some] at h
          obtain ⟨e, he⟩ := toOption_eq_none.mp h
          exact .wrapping hpublicKey hsecret he
    · exact .curve hcurve
  · intro h
    cases h with
    | curve h => exact if_pos h
    | point h => simp [unwrapFrom?, h, Except.toOption]
    | agreement hpublicKey h => simp [unwrapFrom?, hpublicKey, h, Except.toOption]
    | wrapping hpublicKey hsecret h => simp [unwrapFrom?, hpublicKey, hsecret, h, Except.toOption]

namespace Jwe

/-- What keeps an entry closed to a recipient. -/
inductive Obstacle (j : Jwe) (context : RecipientContext) (entry : JweRecipient) : Prop
  | header {e : Error} (h : JweHeader.decode j.protectedHeader .decryptionFailed = .error e)
  | encryptedKey (h : Base64url.decode? entry.encryptedKey = none)
  | key {header : JweHeader} {wrapped : Bytes}
      (hheader : JweHeader.decode j.protectedHeader .decryptionFailed = .ok header)
      (hwrapped : Base64url.decode? entry.encryptedKey = some wrapped)
      (h : KeyObstacle context header.epk wrapped entry.senderKid)
  | ciphertext (h : Base64url.decode? j.ciphertext = none)
  | iv (h : Base64url.decode? j.iv = none)
  | tag (h : Base64url.decode? j.tag = none)
  | content {header : JweHeader} {wrapped contentKey : Bytes} {content : SealedContent}
      (hheader : JweHeader.decode j.protectedHeader .decryptionFailed = .ok header)
      (hwrapped : Base64url.decode? entry.encryptedKey = some wrapped)
      (hkey : unwrapFrom? context header.epk wrapped entry.senderKid = some contentKey)
      (hcontent : j.content? = some content)
      (h : Content.Obstacle contentKey content j.protectedHeader.utf8)

variable {j : Jwe} {context : RecipientContext} {entry : JweRecipient}

theorem Obstacle.of_content?_eq_none (h : j.content? = none) : j.Obstacle context entry := by
  cases hciphertext : Base64url.decode? j.ciphertext with
  | none => exact .ciphertext hciphertext
  | some ciphertext =>
    cases hiv : Base64url.decode? j.iv with
    | none => exact .iv hiv
    | some iv =>
      cases htag : Base64url.decode? j.tag with
      | none => exact .tag htag
      | some tag => simp [content?, hciphertext, hiv, htag] at h

/-- Each step is gone through in its order, and the first that fails is the obstacle. -/
theorem openEntry?_eq_none_iff : j.openEntry? context entry = none ↔ j.Obstacle context entry := by
  constructor
  · intro h
    cases hheader : JweHeader.decode j.protectedHeader .decryptionFailed with
    | error e => exact .header hheader
    | ok header =>
      cases hwrapped : Base64url.decode? entry.encryptedKey with
      | none => exact .encryptedKey hwrapped
      | some wrapped =>
        cases hkey : unwrapFrom? context header.epk wrapped entry.senderKid with
        | none => exact .key hheader hwrapped (unwrapFrom?_eq_none_iff.mp hkey)
        | some contentKey =>
          cases hcontent : j.content? with
          | none => exact .of_content?_eq_none hcontent
          | some content =>
            simp only [hheader, hwrapped, hkey, hcontent, openEntry?, Except.toOption,
              Option.bind_eq_bind, Option.bind_some] at h
            exact .content hheader hwrapped hkey hcontent
              (Content.opened_eq_error_iff.mp (toOption_eq_none.mp h))
  · intro h
    -- A fault in the encoding of the content is one of its own, whatever the key is.
    by_contra hopen
    obtain ⟨plaintext, hplaintext⟩ := Option.ne_none_iff_exists'.mp hopen
    obtain ⟨header, wrapped, contentKey, content, hheader, hwrapped, hkey, hcontent, hopened⟩ :=
      openEntry?_eq_some hplaintext
    obtain ⟨hciphertext, hiv, htag⟩ := content?_eq_some hcontent
    cases h with
    | header h => cases hheader.symm.trans h
    | encryptedKey h => cases hwrapped.symm.trans h
    | key hheader' hwrapped' h =>
      obtain rfl := Except.ok.inj (hheader.symm.trans hheader')
      obtain rfl := Option.some.inj (hwrapped.symm.trans hwrapped')
      cases hkey.symm.trans (unwrapFrom?_eq_none_iff.mpr h)
    | ciphertext h => cases hciphertext.symm.trans h
    | iv h => cases hiv.symm.trans h
    | tag h => cases htag.symm.trans h
    | content hheader' hwrapped' hkey' hcontent' h =>
      obtain rfl := Except.ok.inj (hheader.symm.trans hheader')
      obtain rfl := Option.some.inj (hwrapped.symm.trans hwrapped')
      obtain rfl := Option.some.inj (hkey.symm.trans hkey')
      obtain rfl := Option.some.inj (hcontent.symm.trans hcontent')
      obtain ⟨e, he⟩ := Content.opened_eq_error_iff.mpr h
      cases hopened.symm.trans he

theorem opened_of_unnamed (h : ∀ entry ∈ j.recipients, entry.kid ≠ context.keyId) :
    j.opened context = .error (.notRecipient (some context.keyId)) := by
  have hentry : j.entry? context.keyId = none := by
    simpa [List.find?_eq_none, entry?] using h
  simp only [opened, hentry]

theorem exists_entry_of_kid {kid : Text} (h : ∃ entry ∈ j.recipients, entry.kid = kid) :
    ∃ entry, j.entry? kid = some entry := by
  simpa [← Option.isSome_iff_exists, List.find?_isSome, entry?] using h

/-- An entry that is addressed opens, or there is an obstacle and nothing is told about it. -/
theorem opened_of_addressed (h : j.entry? context.keyId = some entry) :
    (¬j.Obstacle context entry ∧
        ∃ plaintext, j.opened context = .ok ⟨plaintext, context.keyId, entry.senderKid⟩) ∨
      (j.Obstacle context entry ∧ j.opened context = .error .decryptionFailed) := by
  cases hopen : j.openEntry? context entry with
  | some plaintext =>
    refine Or.inl ⟨fun hobstacle => ?_, plaintext, ?_⟩
    · cases hopen.symm.trans (openEntry?_eq_none_iff.mpr hobstacle)
    · simp only [opened, h, hopen]
  | none =>
    refine Or.inr ⟨openEntry?_eq_none_iff.mp hopen, ?_⟩
    simp only [opened, h, hopen]

end Jwe

namespace DetachedContent

/-- What keeps detached content closed to a recipient. -/
inductive Obstacle (d : DetachedContent) (context : RecipientContext) (senderKid : Option Text)
    (aad : Bytes) : Prop
  | key (h : KeyObstacle context d.epk d.encryptedKey senderKid)
  | content {contentKey : Bytes}
      (hkey : unwrapFrom? context d.epk d.encryptedKey senderKid = some contentKey)
      (h : Content.Obstacle contentKey d.content aad)

theorem opened_cases (d : DetachedContent) (context : RecipientContext) (senderKid : Option Text)
    (aad : Bytes) :
    (¬d.Obstacle context senderKid aad ∧ ∃ plaintext, d.opened context senderKid aad = .ok plaintext) ∨
      (d.Obstacle context senderKid aad ∧
        d.opened context senderKid aad = .error .decryptionFailed) := by
  cases hkey : unwrapFrom? context d.epk d.encryptedKey senderKid with
  | none =>
    refine Or.inr ⟨.key (unwrapFrom?_eq_none_iff.mp hkey), ?_⟩
    simp only [opened, hkey]
  | some contentKey =>
    cases hopened : Content.opened contentKey d.content aad with
    | error e =>
      refine Or.inr ⟨.content hkey (Content.opened_eq_error_iff.mp ⟨e, hopened⟩), ?_⟩
      simp only [opened, hkey, hopened]
    | ok plaintext =>
      refine Or.inl ⟨fun hobstacle => ?_, plaintext, ?_⟩
      · cases hobstacle with
        | key h => cases hkey.symm.trans (unwrapFrom?_eq_none_iff.mpr h)
        | content hkey' h =>
          obtain rfl := Option.some.inj (hkey.symm.trans hkey')
          obtain ⟨e, he⟩ := Content.opened_eq_error_iff.mpr h
          cases hopened.symm.trans he
      · simp only [opened, hkey, hopened]

end DetachedContent
end SealedEnvelope
