import SealedEnvelope.Jwe.Sealing

/-!
# Detached content

The parts of an encryption for one recipient, without an envelope around them. They are made and opened
as those of an envelope are; the caller chooses the associated data.
-/

namespace SealedEnvelope

structure DetachedContent where
  content : SealedContent
  /-- The content key, wrapped for the recipient. -/
  encryptedKey : Bytes
  /-- The ephemeral public key. -/
  epk : EcJwk

namespace DetachedContent

def create (plaintext : Bytes) (recipient : VerificationKey) (senderKid : Option Text)
    (aad : Bytes) (e : Entropy) : Except Error DetachedContent := do
  let curve ← sharedCurve [recipient]
  let ephemeral ← Ephemeral.fresh curve e
  let key := Content.freshKey (e.after Ephemeral.drawn)
  let content ← Content.sealed key plaintext aad (e.after (Ephemeral.drawn + Content.keyLength))
  let encryptedKey ← wrapFor ephemeral recipient key senderKid
  return ⟨content, encryptedKey, ephemeral.epk⟩

def opened (d : DetachedContent) (context : RecipientContext) (senderKid : Option Text)
    (aad : Bytes) : Except Error Bytes :=
  match unwrapFrom? context d.epk d.encryptedKey senderKid with
  | none => .error .decryptionFailed
  | some key =>
    match Content.opened key d.content aad with
    | .ok plaintext => .ok plaintext
    | .error _ => .error .decryptionFailed

end DetachedContent
end SealedEnvelope
