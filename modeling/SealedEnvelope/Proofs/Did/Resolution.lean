import SealedEnvelope.Did.Resolver
import SealedEnvelope.Proofs.Outcome

/-!
# How resolution fails

The resolvers of this library fail in one way: the key is not found. Whatever is wrong with a multikey,
a document or a web key in it is a reason for that, and so a chain of such resolvers asks all of them.
A rule of the caller's own may fail in any way.
-/

namespace SealedEnvelope

theorem DidDocument.failsAs_jwk (d : DidDocument) (id : Text) :
    FailsAs (fun e => e.code? = some .keyNotFound) (d.jwk id) := by
  simp only [jwk]
  split
  · simp [Error.code?]
  · split
    · simp [Error.code?]
    · split <;> simp [Error.code?]

theorem DocumentRegistry.failsAs_resolve (registry : DocumentRegistry) (id : Text) :
    FailsAs (fun e => e.code? = some .keyNotFound) (registry.resolve id) := by
  simp only [resolve]
  split
  · simp [Error.code?]
  · apply DidDocument.failsAs_jwk

theorem DidKey.failsAs_resolve (id : Text) :
    FailsAs (fun e => e.code? = some .keyNotFound) (resolve id) := by
  simp only [resolve]
  split
  · split
    · apply DidDocument.failsAs_jwk
    · simp [Error.code?]
  · simp [Error.code?]

namespace Resolver

/-- The resolvers that are made without a rule of the caller's own. -/
inductive BuiltIn : Resolver → Prop
  | didKey : BuiltIn didKey
  | documents (registry : DocumentRegistry) : BuiltIn (documents registry)
  | chain {resolvers : List Resolver} (h : ∀ r ∈ resolvers, BuiltIn r) : BuiltIn (chain resolvers)

theorem failsAs_resolveFirst {resolvers : List Resolver} {id : Text}
    (h : ∀ r ∈ resolvers, FailsAs (fun e => e.code? = some .keyNotFound) (r.resolve id)) :
    FailsAs (fun e => e.code? = some .keyNotFound) (resolveFirst resolvers id) := by
  induction resolvers with
  | nil => simp [resolveFirst, Error.code?]
  | cons r rest ih =>
    obtain ⟨hr, hrest⟩ := List.forall_mem_cons.mp h
    cases hfound : r.resolve id with
    | ok v => simp [resolveFirst, hfound]
    | error e =>
      have he : e.hasCode .keyNotFound = true := decide_eq_true (hr e hfound)
      simpa [resolveFirst, hfound, he] using ih hrest

theorem BuiltIn.failsAs_resolve {r : Resolver} (h : r.BuiltIn) (id : Text) :
    FailsAs (fun e => e.code? = some .keyNotFound) (r.resolve id) := by
  induction h with
  | didKey =>
    rw [resolve]
    exact (DidKey.failsAs_resolve id).map _
  | documents registry =>
    rw [resolve]
    exact (registry.failsAs_resolve id).map _
  | chain _ ih =>
    rw [resolve]
    exact failsAs_resolveFirst ih

end Resolver
end SealedEnvelope
