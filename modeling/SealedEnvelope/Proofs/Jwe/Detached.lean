import SealedEnvelope.Jwe.Detached
import SealedEnvelope.Proofs.Jwe.Evidence

/-!
# Envelopes and detached content

An envelope for one recipient is detached content with an envelope around it: the header names the
ephemeral key, which is drawn first, and the rest is made as it is made without an envelope, with the
encoded header as associated data. Conversely, the parts of an envelope that a recipient finds its entry
in are detached content, and they open as the envelope does.
-/

namespace SealedEnvelope

variable {plaintext aad : Bytes} {r : VerificationKey} {senderKid : Option Text} {e : Entropy}

namespace DetachedContent

variable {d : DetachedContent}

def enveloped (d : DetachedContent) (protectedHeader recipientKid : Text) (senderKid : Option Text) :
    Jwe where
  protectedHeader := protectedHeader
  recipients := [⟨Base64url.encode d.encryptedKey, recipientKid, senderKid⟩]
  iv := Base64url.encode d.content.iv
  ciphertext := Base64url.encode d.content.ciphertext
  tag := Base64url.encode d.content.tag

section Fresh

variable {curve : EcCurve} {ephemeral : Ephemeral}

theorem create_of_fresh (hcurve : sharedCurve [r] = .ok curve)
    (hfresh : Ephemeral.fresh curve e = .ok ephemeral) (plaintext : Bytes) (senderKid : Option Text)
    (aad : Bytes) :
    ∃ content, create plaintext r senderKid aad e =
      (wrapFor ephemeral r (Content.freshKey (e.after Ephemeral.drawn)) senderKid).map fun wrapped =>
        ⟨content, wrapped, ephemeral.epk⟩ := by
  obtain ⟨content, hcontent⟩ := Content.exists_sealed (e.after Ephemeral.drawn)
    (e.after (Ephemeral.drawn + Content.keyLength)) plaintext aad
  refine ⟨content, ?_⟩
  simp only [create, hcurve, hfresh, hcontent, ok_bind]
  cases wrapFor ephemeral r (Content.freshKey (e.after Ephemeral.drawn)) senderKid with
  | error err => rfl
  | ok wrapped => rfl

theorem epk_of_create (hcurve : sharedCurve [r] = .ok curve)
    (hfresh : Ephemeral.fresh curve e = .ok ephemeral)
    (h : create plaintext r senderKid aad e = .ok d) : d.epk = ephemeral.epk := by
  obtain ⟨content, hcreate⟩ := create_of_fresh hcurve hfresh plaintext senderKid aad
  rw [hcreate] at h
  obtain ⟨wrapped, -, rfl⟩ := map_eq_ok.mp h
  rfl

end Fresh

/-- Whether there is content for a recipient does not depend on what it is associated with. -/
theorem create_eq_error {err : Error} (aad aad' : Bytes) :
    create plaintext r senderKid aad e = .error err ↔
      create plaintext r senderKid aad' e = .error err := by
  cases hcurve : sharedCurve [r] with
  | error err' => simp only [create, hcurve, error_bind]
  | ok curve =>
    cases hfresh : Ephemeral.fresh curve e with
    | error err' => simp only [create, hcurve, hfresh, ok_bind, error_bind]
    | ok ephemeral =>
      obtain ⟨content, hcreate⟩ := create_of_fresh hcurve hfresh plaintext senderKid aad
      obtain ⟨content', hcreate'⟩ := create_of_fresh hcurve hfresh plaintext senderKid aad'
      rw [hcreate, hcreate', map_eq_error, map_eq_error]

end DetachedContent

namespace Jwe

/-! ### Making -/

def headerFor (epk : EcJwk) (r : VerificationKey) (options : JweOptions) : JweHeader where
  epk := epk
  apv := recipientSetApv [r.keyId]
  apu := options.senderKid.map Base64url.encodeText
  typ := options.typ.getD MediaType.encrypted
  cty := options.cty

theorem create_singleton (plaintext : Bytes) (r : VerificationKey) (options : JweOptions) (e : Entropy) :
    create plaintext [r] options e = (do
      let curve ← sharedCurve [r]
      let ephemeral ← Ephemeral.fresh curve e
      let protectedHeader := (headerFor ephemeral.epk r options).encode
      let d ← DetachedContent.create plaintext r options.senderKid protectedHeader.utf8 e
      return d.enveloped protectedHeader r.keyId options.senderKid) := by
  unfold create DetachedContent.create
  simp only [List.map_singleton, List.nodup_singleton, not_true, if_false]
  cases sharedCurve [r] with
  | error err => simp only [error_bind]
  | ok curve =>
    simp only [ok_bind]
    cases Ephemeral.fresh curve e with
    | error err => simp only [error_bind]
    | ok ephemeral =>
      obtain ⟨content, hcontent⟩ := Content.exists_sealed (e.after Ephemeral.drawn)
        (e.after (Ephemeral.drawn + Content.keyLength)) plaintext
        (headerFor ephemeral.epk r options).encode.utf8
      unfold headerFor at hcontent ⊢
      simp only [ok_bind, hcontent, entriesFor, entryFor]
      cases wrapFor ephemeral r (Content.freshKey (e.after Ephemeral.drawn)) options.senderKid with
      | error err => rfl
      | ok wrapped => rfl

/-! ### Opening -/

/-- The content, the wrapped key and the ephemeral key that an envelope has for a recipient, and the
sender that is named with them, if everything can be decoded. -/
def detachedFor? (j : Jwe) (kid : Text) : Option (DetachedContent × Option Text) := do
  let entry ← j.entry? kid
  let header ← (JweHeader.decode j.protectedHeader .serializationError).toOption
  let encryptedKey ← Base64url.decode? entry.encryptedKey
  let content ← j.content?
  return (⟨content, encryptedKey, header.epk⟩, entry.senderKid)

variable {j : Jwe} {d : DetachedContent} {kid : Text}

theorem detachedFor?_eq_some :
    j.detachedFor? kid = some (d, senderKid) ↔
      ∃ entry header, j.entry? kid = some entry ∧
        JweHeader.decode j.protectedHeader .serializationError = .ok header ∧
        Base64url.decode? entry.encryptedKey = some d.encryptedKey ∧ j.content? = some d.content ∧
        header.epk = d.epk ∧ entry.senderKid = senderKid := by
  simp only [detachedFor?, Option.bind_eq_bind, Option.bind_eq_some_iff, toOption_eq_some]
  constructor
  · rintro ⟨entry, hentry, header, hheader, encryptedKey, hkey, content, hcontent, hd⟩
    obtain ⟨rfl, rfl⟩ := Prod.mk.inj (Option.some.inj hd)
    exact ⟨entry, header, hentry, hheader, hkey, hcontent, rfl, rfl⟩
  · obtain ⟨content, encryptedKey, epk⟩ := d
    rintro ⟨entry, header, hentry, hheader, hkey, hcontent, rfl, rfl⟩
    exact ⟨entry, hentry, header, hheader, encryptedKey, hkey, content, hcontent, rfl⟩

theorem detachedFor?_enveloped {header : JweHeader} (hepk : header.epk = d.epk) :
    (d.enveloped header.encode kid senderKid).detachedFor? kid = some (d, senderKid) := by
  refine detachedFor?_eq_some.mpr ⟨⟨Base64url.encode d.encryptedKey, kid, senderKid⟩, header, ?_,
    header.decode_encode _, Base64url.decode?_encode _, ?_, hepk, rfl⟩
  · exact List.find?_cons_of_pos (decide_eq_true rfl)
  · simp [content?, DetachedContent.enveloped, Base64url.decode?_encode]

theorem detachedFor?_of_create {options : JweOptions}
    (h : create plaintext [r] options e = .ok j) :
    ∃ d, DetachedContent.create plaintext r options.senderKid
        (j.protectedHeader.map UInt16.toUInt8) e = .ok d ∧
      j = d.enveloped j.protectedHeader r.keyId options.senderKid ∧
      j.detachedFor? r.keyId = some (d, options.senderKid) := by
  simp only [create_singleton, bind_eq_ok] at h
  obtain ⟨curve, hcurve, ephemeral, hfresh, d, hd, hj⟩ := h
  obtain rfl := Except.ok.inj hj
  have hepk := DetachedContent.epk_of_create hcurve hfresh hd
  have hascii := JweHeader.utf8_of_decode
    ((headerFor ephemeral.epk r options).decode_encode .serializationError)
  rw [hascii] at hd
  exact ⟨d, hd, rfl, detachedFor?_enveloped hepk.symm⟩

theorem create_eq_error_iff {options : JweOptions} {err : Error} (aad : Bytes) :
    create plaintext [r] options e = .error err ↔
      DetachedContent.create plaintext r options.senderKid aad e = .error err := by
  rw [create_singleton]
  cases hcurve : sharedCurve [r] with
  | error err' => simp only [DetachedContent.create, hcurve, error_bind, Except.error.injEq]
  | ok curve =>
    cases hfresh : Ephemeral.fresh curve e with
    | error err' =>
      simp only [DetachedContent.create, hcurve, hfresh, ok_bind, error_bind, Except.error.injEq]
    | ok ephemeral =>
      -- Putting the envelope around the content cannot fail.
      have hpure : ∀ aad', ¬∃ d, DetachedContent.create plaintext r options.senderKid aad' e = .ok d ∧
          (pure (d.enveloped (headerFor ephemeral.epk r options).encode r.keyId options.senderKid) :
            Except Error Jwe) = .error err := by
        rintro _ ⟨_, -, h⟩
        cases h
      simp only [ok_bind, hfresh]
      rw [bind_eq_error, or_iff_left (hpure _)]
      exact DetachedContent.create_eq_error _ aad

theorem opened_of_detachedFor? {context : RecipientContext}
    (h : j.detachedFor? context.keyId = some (d, senderKid)) :
    (j.opened context).map OpenedJwe.plaintext =
      d.opened context senderKid (j.protectedHeader.map UInt16.toUInt8) := by
  obtain ⟨entry, header, hentry, hheader, hkey, hcontent, hepk, rfl⟩ := detachedFor?_eq_some.mp h
  have hheader' : JweHeader.decode j.protectedHeader .decryptionFailed = .ok header :=
    JweHeader.decode_code.mp hheader
  have hopen : j.openEntry? context entry =
      (unwrapFrom? context d.epk d.encryptedKey entry.senderKid).bind fun key =>
        (Content.opened key d.content j.protectedHeader.utf8).toOption := by
    simp only [hheader', openEntry?, hkey, hcontent, hepk, Except.toOption, Option.bind_eq_bind,
      Option.bind_some]
  rw [← JweHeader.utf8_of_decode hheader]
  simp only [opened, hentry, hopen, DetachedContent.opened]
  cases unwrapFrom? context d.epk d.encryptedKey entry.senderKid with
  | none => rfl
  | some key =>
    simp only [Option.bind_some]
    cases Content.opened key d.content j.protectedHeader.utf8 with
    | error err => rfl
    | ok plaintext => rfl

/-- Making an envelope for one recipient and making detached content with its encoded header come to the
same parts or to the same error, and so do opening an envelope and opening the parts that it has for a
recipient. -/
theorem detached_agrees :
    (∀ (plaintext : Bytes) (r : VerificationKey) (options : JweOptions) (e : Entropy),
      (∀ j, create plaintext [r] options e = .ok j →
        ∃ d, DetachedContent.create plaintext r options.senderKid
            (j.protectedHeader.map UInt16.toUInt8) e = .ok d ∧
          j = d.enveloped j.protectedHeader r.keyId options.senderKid ∧
          j.detachedFor? r.keyId = some (d, options.senderKid)) ∧
      ∀ (aad : Bytes) (err : Error), create plaintext [r] options e = .error err ↔
        DetachedContent.create plaintext r options.senderKid aad e = .error err) ∧
    ∀ (j : Jwe) (context : RecipientContext) (d : DetachedContent) (senderKid : Option Text),
      j.detachedFor? context.keyId = some (d, senderKid) →
        (j.opened context).map OpenedJwe.plaintext =
          d.opened context senderKid (j.protectedHeader.map UInt16.toUInt8) :=
  ⟨fun _ _ _ _ => ⟨fun _ => detachedFor?_of_create, fun aad _ => create_eq_error_iff aad⟩,
    fun _ _ _ _ => opened_of_detachedFor?⟩

theorem detached_agrees_sample :
    ∃ (j : Jwe) (d : DetachedContent),
      create [42] [samplePublicKey] { senderKid := some "did:example:alice#key" } UInt8.ofNat = .ok j ∧
        DetachedContent.create [42] samplePublicKey (some "did:example:alice#key")
          (j.protectedHeader.map UInt16.toUInt8) UInt8.ofNat = .ok d ∧
        j.detachedFor? samplePublicKey.keyId = some (d, some (Text.ofString "did:example:alice#key")) ∧
        d.opened (AgreementKey.mk sampleRecipient .secp256k1).context (some "did:example:alice#key")
          (j.protectedHeader.map UInt16.toUInt8) = .ok [42] := by
  obtain ⟨j, hj, hopened⟩ := opened_sample
  obtain ⟨hmade, hopens⟩ := detached_agrees
  obtain ⟨d, hd, -, hparts⟩ := (hmade _ _ _ _).1 j hj
  have hsame := hopens j (AgreementKey.mk sampleRecipient .secp256k1).context d _ hparts
  rw [hopened] at hsame
  exact ⟨j, d, hj, hd, hparts, hsame.symm⟩

end Jwe
end SealedEnvelope
