import SealedEnvelope.Did.Resolver
import SealedEnvelope.Key.Agreement
import SealedEnvelope.Settings

/-!
# Key managers

A key manager holds agent keys under their ids, no id twice, in the order in which they were added. It
answers for the capability that an operation needs, and it finds verification keys: those of its own
keys first, then those that its resolver gives.
-/

namespace SealedEnvelope

structure KeyManager where
  keys : List AgentKey
  resolver : Option Resolver

namespace KeyManager

def empty (resolver : Option Resolver) : KeyManager := ⟨[], resolver⟩

def get? (m : KeyManager) (kid : Text) : Option AgentKey := m.keys.find? fun k => k.keyId = kid

def hasKey (m : KeyManager) (kid : Text) : Bool := (m.get? kid).isSome

def keyIds (m : KeyManager) : List Text := m.keys.map AgentKey.keyId

def add (m : KeyManager) (key : AgentKey) : Except Error KeyManager :=
  if m.hasKey key.keyId then .error (.keyRegistered key.keyId)
  else .ok { m with keys := m.keys ++ [key] }

def remove (m : KeyManager) (kid : Text) : KeyManager :=
  { m with keys := m.keys.filter fun k => k.keyId ≠ kid }

/-- A manager that starts with the given keys. -/
def ofKeys (keys : List AgentKey) (resolver : Option Resolver) : Except Error KeyManager :=
  keys.foldlM add (empty resolver)

/-- Makes a key and adds it. Without a choice the type is the default one. -/
def generate (m : KeyManager) (keyType : Option KeyType) (identity : KeyIdentity) (e : Entropy) :
    Except Error (AgentKey × KeyManager) := do
  let key ← AgentKey.generate (keyType.getD Settings.initial.defaultKeyType) identity e
  return (key, ← m.add key)

/-- Adds the key of raw private key bytes. -/
def importKey (m : KeyManager) (keyType : KeyType) (privateKey : Bytes) (identity : KeyIdentity) :
    Except Error (AgentKey × KeyManager) := do
  let key ← AgentKey.ofPrivateKey keyType privateKey identity
  return (key, ← m.add key)

def get (m : KeyManager) (kid : Text) : Except Error AgentKey :=
  match m.get? kid with
  | some key => .ok key
  | none => .error (.keyUnknown kid)

/-- Every key can sign. -/
def signingKey (m : KeyManager) (kid : Text) : Except Error AgentKey := m.get kid

/-- The key with an id, if it can agree on secrets. -/
def agreementKey (m : KeyManager) (kid capability : Text) : Except Error AgreementKey := do
  let key ← m.get kid
  match key.agreement? with
  | some k => return k
  | none => throw (.keyIncapable kid key.keyType.text capability)

def encryptionKey (m : KeyManager) (kid : Text) : Except Error AgreementKey :=
  m.agreementKey kid "encryption"

def decryptionKey (m : KeyManager) (kid : Text) : Except Error AgreementKey :=
  m.agreementKey kid "decryption"

/-- Whether the manager has a key with this id that opens encrypted envelopes. -/
def canDecrypt (m : KeyManager) (kid : Text) : Bool :=
  match m.get? kid with
  | some key => key.canAgree
  | none => false

/-- The verification key for an id, out of what a resolver answers. -/
def usable (kid : Text) (answer : Json) : Except Error VerificationKey :=
  match VerificationKey.ofJwk kid (some answer) with
  | .ok key => .ok key
  | .error e => .error (.resolvedKeyUnusable kid e.message)

/-- The verification key for an id. -/
def verificationKey (m : KeyManager) (kid : Text) : Except Error VerificationKey :=
  match m.get? kid, m.resolver with
  | some key, _ => key.verificationKey
  | none, none => .error (.keyUnknown kid)
  | none, some r =>
    match r.resolve kid with
    | .error e => .error e
    | .ok answer => usable kid answer

end KeyManager
end SealedEnvelope
