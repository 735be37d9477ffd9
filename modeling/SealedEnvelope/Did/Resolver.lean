import SealedEnvelope.Did.DidKey

/-!
# Resolvers

A resolver gives the public key for a DID or a key id. It works from the DID itself, from documents in
memory, or by any rule of the caller's own; what it answers is not trusted. A chain asks one resolver
after the other and goes on only where a key is not found.
-/

namespace SealedEnvelope

/-- Documents in memory, at most one for a DID. -/
structure DocumentRegistry where
  documents : List DidDocument

namespace DocumentRegistry

def empty : DocumentRegistry := ⟨[]⟩

def find? (r : DocumentRegistry) (did : Text) : Option DidDocument :=
  r.documents.find? fun d => d.id = did

def contains (r : DocumentRegistry) (did : Text) : Bool := (r.find? did).isSome

def unregister (r : DocumentRegistry) (did : Text) : DocumentRegistry :=
  ⟨r.documents.filter fun d => d.id ≠ did⟩

/-- Adds a document in place of any other for its DID. -/
def register (r : DocumentRegistry) (d : DidDocument) : DocumentRegistry :=
  ⟨d :: (r.unregister d.id).documents⟩

def ofList (ds : List DidDocument) : DocumentRegistry := ds.foldl register empty

def resolve (r : DocumentRegistry) (id : Text) : Except Error PublicJwk :=
  match r.find? (DidUrl.ofText id).did with
  | none => .error (.unresolved id (some "unknown DID"))
  | some d => d.jwk id

end DocumentRegistry

/-- The key for an id whose DID is a key. -/
def DidKey.resolve (id : Text) : Except Error PublicJwk :=
  let did := (DidUrl.ofText id).did
  if DidKey.isDidKey did then
    match DidKey.document did with
    | .ok d => d.jwk id
    | .error e => .error (.unresolved id (some e.message))
  else .error (.unresolved id (some "not a did:key"))

inductive Resolver
  | didKey
  | documents (registry : DocumentRegistry)
  | chain (resolvers : List Resolver)
  /-- A rule of the caller's own. -/
  | custom (lookup : Text → Except Error Json)

namespace Resolver

mutual

/-- The key for an id, as an untrusted value. -/
def resolve : Resolver → Text → Except Error Json
  | didKey, id => (DidKey.resolve id).map PublicJwk.toJson
  | documents registry, id => (registry.resolve id).map PublicJwk.toJson
  | chain resolvers, id => resolveFirst resolvers id
  | custom lookup, id => lookup id

/-- The outcome of the first resolver that knows the key or fails for another reason. -/
def resolveFirst : List Resolver → Text → Except Error Json
  | [], id => .error (.unresolved id none)
  | r :: rest, id =>
    match resolve r id with
    | .error e => if e.hasCode .keyNotFound then resolveFirst rest id else .error e
    | .ok v => .ok v

end

end Resolver
end SealedEnvelope
