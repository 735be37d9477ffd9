import SealedEnvelope.Cipher.Content
import SealedEnvelope.Jwe.Agreement
import SealedEnvelope.MediaType

/-!
# Sealing and opening

An envelope has one ephemeral key, one content key and one initialization vector, drawn in this order,
whatever the number of recipients. Opening tells apart only whether the envelope is addressed to the
recipient; every other failure looks the same.
-/

namespace SealedEnvelope

/-- What an envelope is made with besides its content and recipients. -/
structure JweOptions where
  senderKid : Option Text := none
  typ : Option Text := none
  cty : Option Text := none

/-- An opened envelope, and the entry that opened it. -/
structure OpenedJwe where
  plaintext : Bytes
  recipientKid : Text
  /-- The sender that the entry names. -/
  senderKidHint : Option Text
  deriving DecidableEq

namespace Jwe

/-- The digest of the set of recipients: the order in which they are given does not matter. -/
def recipientSetApv (kids : List Text) : Text :=
  Base64url.encode (Sha256.hash (Text.utf8 (.join "." (Text.sorted kids))))

/-- A recipient's entry. -/
def entryFor (ephemeral : Ephemeral) (key : Bytes) (senderKid : Option Text)
    (recipient : VerificationKey) : Except Error JweRecipient := do
  let wrapped ← wrapFor ephemeral recipient key senderKid
  return ⟨Base64url.encode wrapped, recipient.keyId, senderKid⟩

/-- The entries in the order of the recipients. -/
def entriesFor (ephemeral : Ephemeral) (key : Bytes) (senderKid : Option Text) :
    List VerificationKey → Except Error (List JweRecipient)
  | [] => .ok []
  | r :: rest => do
    let entry ← entryFor ephemeral key senderKid r
    let entries ← entriesFor ephemeral key senderKid rest
    return entry :: entries

/-- An envelope for recipients with different ids and keys on one curve. -/
def create (plaintext : Bytes) (recipients : List VerificationKey) (options : JweOptions)
    (e : Entropy) : Except Error Jwe :=
  let kids := recipients.map VerificationKey.keyId
  if ¬kids.Nodup then .error .duplicateRecipient
  else do
    let curve ← sharedCurve recipients
    let ephemeral ← Ephemeral.fresh curve e
    let key := Content.freshKey (e.after Ephemeral.drawn)
    let header : JweHeader := {
      epk := ephemeral.epk
      apv := recipientSetApv kids
      apu := options.senderKid.map Base64url.encodeText
      typ := options.typ.getD MediaType.encrypted
      cty := options.cty }
    let protectedHeader := header.encode
    let content ← Content.sealed key plaintext protectedHeader.utf8
      (e.after (Ephemeral.drawn + Content.keyLength))
    let entries ← entriesFor ephemeral key options.senderKid recipients
    return {
      protectedHeader
      recipients := entries
      iv := Base64url.encode content.iv
      ciphertext := Base64url.encode content.ciphertext
      tag := Base64url.encode content.tag }

/-- The sealed content of an envelope. -/
def content? (j : Jwe) : Option SealedContent := do
  let ciphertext ← Base64url.decode? j.ciphertext
  let iv ← Base64url.decode? j.iv
  let tag ← Base64url.decode? j.tag
  return ⟨ciphertext, iv, tag⟩

/-- The plaintext, by way of one entry. -/
def openEntry? (j : Jwe) (context : RecipientContext) (entry : JweRecipient) : Option Bytes := do
  let header ← (JweHeader.decode j.protectedHeader .decryptionFailed).toOption
  let wrapped ← Base64url.decode? entry.encryptedKey
  let key ← unwrapFrom? context header.epk wrapped entry.senderKid
  let content ← j.content?
  (Content.opened key content j.protectedHeader.utf8).toOption

/-- Opens the entry that is addressed to the recipient. -/
def opened (j : Jwe) (context : RecipientContext) : Except Error OpenedJwe :=
  match j.entry? context.keyId with
  | none => .error (.notRecipient (some context.keyId))
  | some entry =>
    match j.openEntry? context entry with
    | none => .error .decryptionFailed
    | some plaintext => .ok ⟨plaintext, context.keyId, entry.senderKid⟩

end Jwe
end SealedEnvelope
