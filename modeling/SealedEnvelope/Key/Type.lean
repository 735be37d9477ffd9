import SealedEnvelope.Curve.Edwards
import SealedEnvelope.Curve.Ecdsa
import SealedEnvelope.Entropy
import SealedEnvelope.Text.Basic

/-!
# Key types

A key is on Ed25519, which only signs, or on one of two Weierstrass curves, which can also agree on
secrets. Each key type has one signature algorithm and the algorithm has one key type, so an algorithm
named by an envelope never chooses between keys.

The operations on raw keys are here. They are partial: `none` stands for a key or a point that is not
one.
-/

namespace SealedEnvelope

/-- The curves that keys can agree on secrets on. -/
inductive EcCurve
  | p256
  | secp256k1
  deriving DecidableEq

inductive KeyType
  | ed25519
  | ec (curve : EcCurve)
  deriving DecidableEq

inductive SignatureAlgorithm
  | edDsa
  | es256
  | es256k
  deriving DecidableEq

namespace EcCurve

def all : List EcCurve := [p256, secp256k1]

def text : EcCurve → Text
  | p256 => "P-256"
  | secp256k1 => "secp256k1"

def ofText? (t : Text) : Option EcCurve := all.find? fun c => c.text = t

def group : EcCurve → Weierstrass
  | p256 => .p256
  | secp256k1 => .secp256k1

/-- Whether only the smaller of the two signatures for a nonce is made and accepted. -/
def lowS : EcCurve → Bool
  | p256 => false
  | secp256k1 => true

/-- The horizontal coordinate of the point that a private and a public key agree on. -/
def sharedSecret? (c : EcCurve) (privateKey publicKey : Bytes) : Option Bytes :=
  match c.group.scalar? privateKey, c.group.decode? publicKey with
  | some k, some q =>
    match c.group.affine? (c.group.mul k q.jacobian) with
    | some shared => some (Bytes.ofNat 32 shared.x)
    | none => none
  | _, _ => none

/-- How many random bytes a scalar is drawn from. They are more than a scalar has, so that the
remainder is close to uniform. -/
def drawLength : Nat := 48

/-- A private key from the beginning of the stream. -/
def freshPrivateKey (c : EcCurve) (e : Entropy) : Bytes :=
  Bytes.ofNat 32 (Bytes.toNat (e.first drawLength) % (c.group.order - 1) + 1)

end EcCurve

namespace SignatureAlgorithm

def all : List SignatureAlgorithm := [edDsa, es256, es256k]

def text : SignatureAlgorithm → Text
  | edDsa => "EdDSA"
  | es256 => "ES256"
  | es256k => "ES256K"

def ofText? (t : Text) : Option SignatureAlgorithm := all.find? fun a => a.text = t

/-- The only key type that may use an algorithm. -/
def keyType : SignatureAlgorithm → KeyType
  | edDsa => .ed25519
  | es256 => .ec .p256
  | es256k => .ec .secp256k1

end SignatureAlgorithm

namespace KeyType

def all : List KeyType := [ed25519, ec .p256, ec .secp256k1]

def text : KeyType → Text
  | ed25519 => "Ed25519"
  | ec c => c.text

def ofText? (t : Text) : Option KeyType := all.find? fun k => k.text = t

def algorithm : KeyType → SignatureAlgorithm
  | ed25519 => .edDsa
  | ec .p256 => .es256
  | ec .secp256k1 => .es256k

def isPrivateKey : KeyType → Bytes → Bool
  | ed25519, privateKey => privateKey.length == 32
  | ec c, privateKey => (c.group.scalar? privateKey).isSome

/-- The public key: 32 bytes for Ed25519, and else a point in 33 bytes. -/
def publicKey? : KeyType → Bytes → Option Bytes
  | ed25519, privateKey => Edwards.publicKey? privateKey
  | ec c, privateKey =>
    match c.group.scalar? privateKey with
    | none => none
    | some k =>
      match c.group.affine? (c.group.mul k c.group.generator.jacobian) with
      | some q => some (q.compressed)
      | none => none

/-- A signature of 64 bytes. -/
def sign? : KeyType → (privateKey message : Bytes) → Option Bytes
  | ed25519, privateKey, message => Edwards.sign? privateKey message
  | ec c, privateKey, message => Ecdsa.sign? c.group c.lowS privateKey message

/-- Whether a signature is one of the message. It is not if the signature or the key is malformed. -/
def verify : KeyType → (publicKey signature message : Bytes) → Bool
  | ed25519, publicKey, signature, message => Edwards.verify publicKey signature message
  | ec c, publicKey, signature, message => Ecdsa.verify c.group c.lowS publicKey signature message

def freshPrivateKey : KeyType → Entropy → Bytes
  | ed25519, e => e.first 32
  | ec c, e => c.freshPrivateKey e

@[simp] theorem keyType_algorithm (k : KeyType) : k.algorithm.keyType = k := by
  rcases k with _ | (_ | _) <;> rfl

end KeyType
end SealedEnvelope
