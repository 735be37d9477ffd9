import SealedEnvelope.Jwe.Detached
import SealedEnvelope.Key.Agent

/-!
# Agent keys that agree on secrets

An agent key on one of the Weierstrass curves can also make and open encrypted envelopes. It is the
sender of those that it makes, by its id alone.
-/

namespace SealedEnvelope

/-- An agent key together with the curve that it is on. -/
structure AgreementKey where
  key : AgentKey
  curve : EcCurve

/-- The key as one that agrees on secrets, if its type can. -/
def AgentKey.agreement? (key : AgentKey) : Option AgreementKey :=
  match key.keyType with
  | .ed25519 => none
  | .ec c => some ⟨key, c⟩

def AgentKey.canAgree (key : AgentKey) : Bool := key.agreement?.isSome

namespace AgreementKey

def keyId (k : AgreementKey) : Text := k.key.keyId

/-- The key as the recipient of envelopes. -/
def context (k : AgreementKey) : RecipientContext :=
  ⟨k.keyId, k.curve, k.curve.sharedSecret? k.key.pair.privateKey⟩

/-- Encrypts for one recipient. -/
def encrypt (k : AgreementKey) (plaintext : Bytes) (recipient : VerificationKey) (aad : Bytes)
    (e : Entropy) : Except Error DetachedContent :=
  DetachedContent.create plaintext recipient (some k.keyId) aad e

/-- Decrypts what the sender's key has encrypted, or what has no named sender. -/
def decrypt (k : AgreementKey) (d : DetachedContent) (aad : Bytes)
    (sender : Option VerificationKey) : Except Error Bytes :=
  d.opened k.context (sender.map VerificationKey.keyId) aad

def createJwe (k : AgreementKey) (plaintext : Bytes) (recipients : List VerificationKey)
    (typ : Option Text) (e : Entropy) : Except Error Jwe :=
  Jwe.create plaintext recipients { senderKid := some k.keyId, typ := typ } e

/-- The content of an envelope that is addressed to the key. -/
def openJwe (k : AgreementKey) (j : Jwe) : Except Error Bytes := do
  return (← j.opened k.context).plaintext

end AgreementKey
end SealedEnvelope
