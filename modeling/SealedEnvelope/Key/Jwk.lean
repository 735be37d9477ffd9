import SealedEnvelope.Codec.Base64url
import SealedEnvelope.Json.Schema
import SealedEnvelope.Key.Type

/-!
# JSON web keys

A public key with its coordinates in base64url, and possibly an id. The kind of key decides which
coordinates there are. Reading the point back checks their lengths and that the point is on the curve.
-/

namespace SealedEnvelope

structure OkpJwk where
  x : Text
  kid : Option Text
  deriving DecidableEq

structure EcJwk where
  curve : EcCurve
  x : Text
  y : Text
  kid : Option Text
  deriving DecidableEq

inductive PublicJwk
  | okp (key : OkpJwk)
  | ec (key : EcJwk)
  deriving DecidableEq

/-- The key kinds as they are written. -/
def okpKind : Text := "OKP"

def ecKind : Text := "EC"

/-- The bytes of a coordinate, which are always 32. -/
def coordinate (name value : Text) : Except Error Bytes :=
  match Base64url.decode? value with
  | none => .error (.coordinateNotBase64url name)
  | some b => if b.length = 32 then .ok b else .error (.coordinateLength name)

namespace EcJwk

def toJson (key : EcJwk) : Json :=
  .ofOptional [("kty", some (.str ecKind)), ("crv", some (.str key.curve.text)),
    ("x", some (.str key.x)), ("y", some (.str key.y)), ("kid", key.kid.map .str)]

/-- A point's key, without an id. -/
def ofPoint (c : EcCurve) (q : Weierstrass.Affine) : EcJwk :=
  ⟨c, Base64url.encode (.ofNat 32 q.x), Base64url.encode (.ofNat 32 q.y), none⟩

/-- The key of a raw public key, if it is a point of the curve. -/
def ofPublicKey? (c : EcCurve) (publicKey : Bytes) : Option EcJwk :=
  (c.group.decode? publicKey).map (ofPoint c)

/-- The raw public key of the coordinates on a curve. -/
def publicKeyOf (c : EcCurve) (x y : Text) : Except Error Bytes := do
  let x ← coordinate "x" x
  let y ← coordinate "y" y
  match c.group.point? x.toNat y.toNat with
  | some q => return q.compressed
  | none => throw (.notCurvePoint c.text)

def publicKey (key : EcJwk) : Except Error Bytes := publicKeyOf key.curve key.x key.y

open Schema in
def schema : Schema EcJwk := object fun members => do
  field members "kty" (literal ecKind)
  let curve ← field members "crv" (choice EcCurve.ofText?)
  let x ← field members "x" text
  let y ← field members "y" text
  let kid ← field members "kid" (optional text)
  return ⟨curve, x, y, kid⟩

end EcJwk

namespace OkpJwk

def toJson (key : OkpJwk) : Json :=
  .ofOptional [("kty", some (.str okpKind)), ("crv", some (.str KeyType.ed25519.text)),
    ("x", some (.str key.x)), ("kid", key.kid.map .str)]

/-- The key of any bytes: they are not checked to be a point. -/
def ofPublicKey (publicKey : Bytes) : OkpJwk := ⟨Base64url.encode publicKey, none⟩

/-- The raw public key of a coordinate, which has to be a point in canonical form. -/
def publicKeyOf (x : Text) : Except Error Bytes := do
  let x ← coordinate "x" x
  if (Edwards.decode? true x).isSome then return x else throw .notEdwardsPoint

def publicKey (key : OkpJwk) : Except Error Bytes := publicKeyOf key.x

open Schema in
def schema : Schema OkpJwk := object fun members => do
  field members "kty" (literal okpKind)
  field members "crv" (literal KeyType.ed25519.text)
  let x ← field members "x" text
  let kid ← field members "kid" (optional text)
  return ⟨x, kid⟩

end OkpJwk

namespace PublicJwk

def toJson : PublicJwk → Json
  | okp key => key.toJson
  | ec key => key.toJson

def keyType : PublicJwk → KeyType
  | okp _ => .ed25519
  | ec key => .ec key.curve

def kid : PublicJwk → Option Text
  | okp key => key.kid
  | ec key => key.kid

/-- The key with an id, or without one. -/
def withKid : PublicJwk → Option Text → PublicJwk
  | okp key, kid => okp { key with kid := kid }
  | ec key, kid => ec { key with kid := kid }

def ofPublicKey? : KeyType → Bytes → Option PublicJwk
  | .ed25519, publicKey => some (okp (.ofPublicKey publicKey))
  | .ec c, publicKey => (EcJwk.ofPublicKey? c publicKey).map ec

/-- The raw public key, compressed if there are two coordinates. -/
def publicKey : PublicJwk → Except Error Bytes
  | okp key => key.publicKey
  | ec key => key.publicKey

/-- The raw public key of a given type that the members of a key describe. -/
def publicKeyOf (expected : KeyType) (kty crv x y : Text) : Except Error Bytes :=
  match expected with
  | .ed25519 =>
    if kty = okpKind ∧ crv = KeyType.ed25519.text then OkpJwk.publicKeyOf x
    else .error (.notOkpKey kty crv)
  | .ec c =>
    if kty = ecKind ∧ crv = c.text then EcJwk.publicKeyOf c x y
    else .error (.notEcKey c.text kty crv)

/-- Either kind. If it is neither, the key as a whole is at fault. -/
def schema : Schema PublicJwk :=
  Schema.either (Schema.map okp OkpJwk.schema) (Schema.map ec EcJwk.schema)

end PublicJwk
end SealedEnvelope
