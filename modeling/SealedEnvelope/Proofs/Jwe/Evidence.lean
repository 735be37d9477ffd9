import SealedEnvelope.Proofs.Cipher.Converse
import SealedEnvelope.Proofs.Jwe.Creation

/-!
# What an opened envelope proves

An envelope opens only if its parts are what sealing makes of the plaintext: the ephemeral key is a point
of the recipient's curve, the entry holds a content key as it is wrapped for the recipient and the sender
that the entry names, and the ciphertext and its tag are those of the plaintext under that content key
with the encoded header. Nothing is assumed of the agreement here, only that the cipher's steps are undone
by their inverses.
-/

namespace SealedEnvelope

theorem unwrapFrom?_eq_some {context : RecipientContext} {epk : EcJwk} {wrapped contentKey : Bytes}
    {senderKid : Option Text} (h : unwrapFrom? context epk wrapped senderKid = some contentKey) :
    epk.curve = context.curve ∧ ∃ publicKey secret, epk.publicKey = .ok publicKey ∧
      context.agree publicKey = some secret ∧
      KeyWrap.unwrap (wrappingKey secret senderKid context.keyId) wrapped = .ok contentKey := by
  unfold unwrapFrom? at h
  split at h
  · cases h
  · rename_i hcurve
    simp only [Option.bind_eq_bind, Option.bind_eq_some_iff, toOption_eq_some] at h
    exact ⟨Decidable.not_not.mp hcurve, by simpa [and_assoc] using h⟩

namespace Jwe

/-- The parts of an envelope as they are made by sealing a plaintext for one recipient. -/
structure Evidence (j : Jwe) (context : RecipientContext) (o : OpenedJwe) where
  entry : JweRecipient
  header : JweHeader
  /-- The ephemeral key. -/
  point : Weierstrass.Affine
  secret : Bytes
  wrappingKey : Bytes
  contentKey : Bytes
  wrapped : Bytes
  content : SealedContent
  entry_first : j.entry? context.keyId = some entry
  header_decoded : JweHeader.decode j.protectedHeader .decryptionFailed = .ok header
  curve : header.epk.curve = context.curve
  point_on : point.On context.curve.group
  epk_x : Base64url.decode? header.epk.x = some (.ofNat 32 point.x)
  epk_y : Base64url.decode? header.epk.y = some (.ofNat 32 point.y)
  agreed : context.agree point.compressed = some secret
  derived : ConcatKdf.derive secret (senderInfo entry.senderKid) context.keyId.utf8 (.ofNat 256)
    ConcatKdf.keyAgreement = .ok wrappingKey
  contentKey_length : contentKey.length = 32
  wrapped_eq : KeyWrap.wrap wrappingKey contentKey = .ok wrapped
  encryptedKey : Base64url.decode? entry.encryptedKey = some wrapped
  ciphertext : Base64url.decode? j.ciphertext = some content.ciphertext
  iv : Base64url.decode? j.iv = some content.iv
  tag : Base64url.decode? j.tag = some content.tag
  iv_length : content.iv.length = 12
  tag_length : content.tag.length = 16
  /-- The associated data is the encoded header in ASCII. -/
  sealed_eq : Gcm.encrypt (Aes.cipher contentKey) content.iv
    (j.protectedHeader.map UInt16.toUInt8) o.plaintext = (content.ciphertext, content.tag)
  recipientKid : o.recipientKid = context.keyId
  senderKidHint : o.senderKidHint = entry.senderKid

theorem openEntry?_eq_some {j : Jwe} {context : RecipientContext} {entry : JweRecipient}
    {plaintext : Bytes} (h : j.openEntry? context entry = some plaintext) :
    ∃ header wrapped contentKey content,
      JweHeader.decode j.protectedHeader .decryptionFailed = .ok header ∧
      Base64url.decode? entry.encryptedKey = some wrapped ∧
      unwrapFrom? context header.epk wrapped entry.senderKid = some contentKey ∧
      j.content? = some content ∧
      Content.opened contentKey content j.protectedHeader.utf8 = .ok plaintext := by
  simp only [Option.bind_eq_bind, openEntry?, Option.bind_eq_some_iff, toOption_eq_some] at h
  obtain ⟨header, hheader, wrapped, hwrapped, contentKey, hkey, content, hcontent, hopened⟩ := h
  exact ⟨header, wrapped, contentKey, content, hheader, hwrapped, hkey, hcontent, hopened⟩

theorem content?_eq_some {j : Jwe} {content : SealedContent} (h : j.content? = some content) :
    Base64url.decode? j.ciphertext = some content.ciphertext ∧
      Base64url.decode? j.iv = some content.iv ∧ Base64url.decode? j.tag = some content.tag := by
  simp only [content?, Option.bind_eq_bind, Option.bind_eq_some_iff] at h
  obtain ⟨ciphertext, hciphertext, iv, hiv, tag, htag, hcontent⟩ := h
  obtain rfl := Option.some.inj hcontent
  exact ⟨hciphertext, hiv, htag⟩

theorem opened_eq_ok {j : Jwe} {context : RecipientContext} {o : OpenedJwe}
    (h : j.opened context = .ok o) :
    ∃ entry plaintext, j.entry? context.keyId = some entry ∧
      j.openEntry? context entry = some plaintext ∧
      o = ⟨plaintext, context.keyId, entry.senderKid⟩ := by
  simp only [opened] at h
  split at h
  · cases h
  · rename_i entry hentry
    split at h
    · cases h
    · rename_i plaintext hplaintext
      exact ⟨entry, plaintext, hentry, hplaintext, (Except.ok.inj h).symm⟩

/-- Whatever opens for a recipient has been sealed for it, byte for byte, as it is opened. -/
theorem evidence_of_opened {j : Jwe} {context : RecipientContext} {o : OpenedJwe}
    (h : j.opened context = .ok o) : Nonempty (j.Evidence context o) := by
  obtain ⟨entry, plaintext, hentry, hplaintext, rfl⟩ := opened_eq_ok h
  obtain ⟨header, wrapped, contentKey, content, hheader, hwrapped, hkey, hcontent, hopened⟩ :=
    openEntry?_eq_some hplaintext
  obtain ⟨hcurve, publicKey, secret, hpublicKey, hsecret, hunwrapped⟩ := unwrapFrom?_eq_some hkey
  obtain ⟨q, hon, rfl, hx, hy⟩ := EcJwk.on_of_publicKey hpublicKey
  obtain ⟨hciphertext, hiv, htag⟩ := content?_eq_some hcontent
  obtain ⟨hkeyLength, hivLength, htagLength, hsealed⟩ := Content.encrypt_of_opened hopened
  have hascii := JweHeader.utf8_of_decode hheader
  exact ⟨{
    entry, header, secret, contentKey, wrapped, content
    point := q
    wrappingKey := wrappingKey secret entry.senderKid context.keyId
    entry_first := hentry
    header_decoded := hheader
    curve := hcurve
    point_on := hcurve ▸ hon
    epk_x := hx
    epk_y := hy
    agreed := hsecret
    derived := ConcatKdf.derive_wrappingKey secret entry.senderKid context.keyId
    contentKey_length := hkeyLength
    wrapped_eq := KeyWrap.wrap_of_unwrap hunwrapped
    encryptedKey := hwrapped
    ciphertext := hciphertext
    iv := hiv
    tag := htag
    iv_length := hivLength
    tag_length := htagLength
    sealed_eq := hascii ▸ hsealed
    recipientKid := rfl
    senderKidHint := rfl }⟩

def sampleRecipient : AgentKey :=
  ⟨"did:example:dora", samplePublicKey.keyId,
    ⟨.ec .secp256k1, Weierstrass.secp256k1.generator.compressed, .ofNat 32 1⟩⟩

theorem opened_sample :
    ∃ j, create [42] [samplePublicKey] { senderKid := some "did:example:alice#key" } UInt8.ofNat = .ok j ∧
      j.opened (AgreementKey.mk sampleRecipient .secp256k1).context =
        .ok ⟨[42], samplePublicKey.keyId, some (Text.ofString "did:example:alice#key")⟩ := by
  have hrun : (create [42] [samplePublicKey] { senderKid := some "did:example:alice#key" }
      UInt8.ofNat).toOption.isSome = true := by decide +kernel
  have hmatches : sampleRecipient.Matches samplePublicKey :=
    ⟨rfl, _, constructed_samplePublicKey.consistent, by decide +kernel⟩
  have hsymmetric : EcCurve.secp256k1.Symmetric (EcCurve.secp256k1.freshPrivateKey UInt8.ofNat)
      sampleRecipient.pair.privateKey := by decide +kernel
  obtain ⟨j, hj⟩ := exists_ok hrun
  exact ⟨j, hj, opened_of_create hj List.mem_cons_self rfl rfl hmatches hsymmetric⟩

theorem evidence_of_opened_sample :
    ∃ (j : Jwe) (o : OpenedJwe),
      create [42] [samplePublicKey] { senderKid := some "did:example:alice#key" } UInt8.ofNat = .ok j ∧
        j.opened (AgreementKey.mk sampleRecipient .secp256k1).context = .ok o ∧ o.plaintext = [42] ∧
        Nonempty (j.Evidence (AgreementKey.mk sampleRecipient .secp256k1).context o) := by
  obtain ⟨j, hj, hopened⟩ := opened_sample
  exact ⟨j, _, hj, hopened, rfl, evidence_of_opened hopened⟩

end Jwe
end SealedEnvelope
