import SealedEnvelope.Key.Verification

/-!
# DID documents

A document lists the verification methods of a DID. A method's id may be written relative to a DID, as
a fragment alone. An id that is asked for either names a method or is a bare DID and then stands for
the first method that the document lists for authentication.
-/

namespace SealedEnvelope

/-- A DID, or a method's id split at the first number sign. -/
structure DidUrl where
  did : Text
  fragment : Option Text

namespace DidUrl

/-- The number sign. -/
def mark : CodeUnit := 0x23

def ofText (id : Text) : DidUrl :=
  ⟨id.takeWhile (· ≠ mark),
    match id.dropWhile (· ≠ mark) with
    | [] => none
    | _ :: fragment => some fragment⟩

/-- The id of the method that a fragment names. -/
def method (did fragment : Text) : Text := did ++ mark :: fragment

/-- A method's id, made absolute if it is relative. -/
def absolute (did id : Text) : Text := if id.head? = some mark then did ++ id else id

end DidUrl

/-- How a method carries its key. Either may be missing or unusable. -/
inductive KeyMaterial
  | jwk (v : Option Json)
  | multikey (multibase : Option Text)

structure VerificationMethod where
  id : Text
  controller : Text
  material : KeyMaterial

structure DidDocument where
  context : List Text
  id : Text
  methods : List VerificationMethod
  authentication : List Text
  keyAgreement : List Text

/-- The verification key of a method, under a given id. -/
def VerificationKey.ofMaterial (keyId : Text) : KeyMaterial → Except Error VerificationKey
  | .jwk v => ofJwk keyId v
  | .multikey multibase => ofMultikey keyId multibase

def VerificationKey.ofMethod (m : VerificationMethod) : Except Error VerificationKey :=
  ofMaterial m.id m.material

/-- The name of methods that carry a web key. All others carry a multikey. -/
def webKeyMethod : Text := "JsonWebKey2020"

def multikeyMethod : Text := "Multikey"

def VerificationMethod.toJson (m : VerificationMethod) : Json :=
  let described (type : Text) (key : Text) (v : Option Json) : Json :=
    .ofOptional [("id", some (.str m.id)), ("type", some (.str type)),
      ("controller", some (.str m.controller)), (key, v)]
  match m.material with
  | .jwk v => described webKeyMethod "publicKeyJwk" v
  | .multikey multibase => described multikeyMethod "publicKeyMultibase" (multibase.map .str)

namespace DidDocument

def toJson (d : DidDocument) : Json :=
  .obj [("@context", .arr (d.context.map .str)), ("id", .str d.id),
    ("verificationMethod", .arr (d.methods.map VerificationMethod.toJson)),
    ("authentication", .arr (d.authentication.map .str)),
    ("keyAgreement", .arr (d.keyAgreement.map .str))]

/-- The absolute id of the method that an id asks for. -/
def wanted? (d : DidDocument) (id : Text) : Option Text :=
  let url := DidUrl.ofText id
  match url.fragment with
  | some fragment => some (DidUrl.method url.did fragment)
  | none => d.authentication.head?.map (DidUrl.absolute url.did)

/-- The first method with an absolute id. -/
def method? (d : DidDocument) (wanted : Text) : Option VerificationMethod :=
  d.methods.find? fun m => DidUrl.absolute d.id m.id = wanted

/-- The key that an id asks for, under the method's absolute id. -/
def jwk (d : DidDocument) (id : Text) : Except Error PublicJwk :=
  match d.wanted? id with
  | none => .error (.unresolved id (some "no matching verification method"))
  | some wanted =>
    match d.method? wanted with
    | none => .error (.unresolved id (some "no matching verification method"))
    | some m =>
      match VerificationKey.ofMaterial wanted m.material with
      | .ok key => .ok key.publicJwk
      | .error e => .error (.unresolved id (some e.message))

end DidDocument
end SealedEnvelope
