import SealedEnvelope.Cipher.ConcatKdf
import SealedEnvelope.Cipher.KeyWrap
import SealedEnvelope.Jwe.Basic
import SealedEnvelope.Key.Verification

/-!
# Wrapping a content key for a recipient

The sender makes an ephemeral key for each envelope. It agrees with a recipient's key on a secret, from
which the key is derived that wraps the content key. Both ids go into the derivation: a wrapped key
opens only under the recipient's id and with the sender that it was made with.
-/

namespace SealedEnvelope

/-- An ephemeral key pair. -/
structure Ephemeral where
  curve : EcCurve
  privateKey : Bytes
  epk : EcJwk

/-- What a recipient brings to an envelope: the id that entries are matched on, and the agreement with
its private key, which stays with the key. -/
structure RecipientContext where
  keyId : Text
  curve : EcCurve
  agree : Bytes → Option Bytes

namespace Ephemeral

def fresh (c : EcCurve) (e : Entropy) : Except Error Ephemeral :=
  let privateKey := c.freshPrivateKey e
  match ((KeyType.ec c).publicKey? privateKey).bind (EcJwk.ofPublicKey? c) with
  | some epk => .ok ⟨c, privateKey, epk⟩
  | none => .error .refused

/-- How much of the stream goes into an ephemeral key. -/
def drawn : Nat := EcCurve.drawLength

end Ephemeral

/-- The sender's part in a derivation: nothing if the sender is not named. -/
def senderInfo : Option Text → Bytes
  | none => []
  | some kid => kid.utf8

/-- The key that wraps a content key. -/
def wrappingKey (secret : Bytes) (senderKid : Option Text) (recipientKid : Text) : Bytes :=
  ConcatKdf.material secret (senderInfo senderKid) recipientKid.utf8 32 ConcatKdf.keyAgreement

/-- The one curve of all recipients, given that of those before them. -/
def sharedCurveFrom : Option EcCurve → List VerificationKey → Except Error EcCurve
  | none, [] => .error .noRecipients
  | some c, [] => .ok c
  | before, r :: rest =>
    match r.jwk, before with
    | .okp _, _ => .error (.recipientIncapable r.keyId r.keyType.text)
    | .ec key, none => sharedCurveFrom (some key.curve) rest
    | .ec key, some c =>
      if c = key.curve then sharedCurveFrom before rest
      else .error (.recipientCurves c.text key.curve.text)

def sharedCurve (recipients : List VerificationKey) : Except Error EcCurve :=
  sharedCurveFrom none recipients

/-- A content key wrapped for a recipient. -/
def wrapFor (ephemeral : Ephemeral) (recipient : VerificationKey) (key : Bytes)
    (senderKid : Option Text) : Except Error Bytes := do
  let publicKey ← recipient.jwk.publicKey
  match ephemeral.curve.sharedSecret? ephemeral.privateKey publicKey with
  | none => throw .refused
  | some secret => KeyWrap.wrap (wrappingKey secret senderKid recipient.keyId) key

/-- The content key, if it is wrapped for this recipient. -/
def unwrapFrom? (context : RecipientContext) (epk : EcJwk) (wrapped : Bytes)
    (senderKid : Option Text) : Option Bytes :=
  if epk.curve ≠ context.curve then none
  else do
    let publicKey ← epk.publicKey.toOption
    let secret ← context.agree publicKey
    (KeyWrap.unwrap (wrappingKey secret senderKid context.keyId) wrapped).toOption

end SealedEnvelope
