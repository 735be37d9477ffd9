import SealedEnvelope.Proofs.Key.Changes

/-!
# Verification keys hold the key that they are made of

The web key of a raw public key leads back to it, whatever id the web key is given. Whichever way a
verification key has come about, it is that of a web key, holds it without an id and holds the raw key
that it is read as. So the verification key of an agent key whose public half is a point is that public
half, under the id of the agent key.
-/

namespace SealedEnvelope

namespace PublicJwk

@[simp] theorem publicKey_withKid (jwk : PublicJwk) (kid : Option Text) :
    (jwk.withKid kid).publicKey = jwk.publicKey := by
  cases jwk <;> rfl

@[simp] theorem keyType_withKid (jwk : PublicJwk) (kid : Option Text) :
    (jwk.withKid kid).keyType = jwk.keyType := by
  cases jwk <;> rfl

@[simp] theorem kid_withKid (jwk : PublicJwk) (kid : Option Text) :
    (jwk.withKid kid).kid = kid := by
  cases jwk <;> rfl

@[simp] theorem withKid_withKid (jwk : PublicJwk) (first second : Option Text) :
    (jwk.withKid first).withKid second = jwk.withKid second := by
  cases jwk <;> rfl

theorem publicKey_of_ofPublicKey? {keyType : KeyType} {publicKey found : Bytes} {jwk : PublicJwk}
    (hlength : publicKey.length = Multikey.keyLength keyType)
    (hjwk : ofPublicKey? keyType publicKey = some jwk) (hfound : jwk.publicKey = .ok found) :
    jwk.keyType = keyType ∧ found = publicKey := by
  cases keyType with
  | ed25519 =>
    obtain rfl := Option.some.inj hjwk
    refine ⟨rfl, ?_⟩
    change publicKey.length = 32 at hlength
    change OkpJwk.publicKeyOf (Base64url.encode publicKey) = .ok found at hfound
    simp only [OkpJwk.publicKeyOf, coordinate, Base64url.decode?_encode, hlength, if_true,
      ok_bind] at hfound
    split at hfound
    · exact (Except.ok.inj hfound).symm
    · cases hfound
  | ec c =>
    obtain ⟨key, hkey, rfl⟩ := Option.map_eq_some_iff.mp hjwk
    obtain ⟨hcurve, hread⟩ := EcJwk.publicKey_of_ofPublicKey? hlength hkey
    exact ⟨congrArg KeyType.ec hcurve, Except.ok.inj (hfound.symm.trans hread)⟩

end PublicJwk

namespace VerificationKey

/-- Whether the raw key is the one that the web key stands for. -/
def Consistent (r : VerificationKey) : Prop := r.jwk.publicKey = .ok r.publicKey

/-- The verification keys that there are: those of a web key and those of a raw key, which a multikey
or an agent's key gives. -/
inductive Constructed : VerificationKey → Prop
  | ofJwk {keyId : Text} {v : Option Json} {r : VerificationKey} (h : ofJwk keyId v = .ok r) :
    Constructed r
  | ofPublicKey {keyId : Text} {keyType : KeyType} {publicKey : Bytes} {r : VerificationKey}
    (h : ofPublicKey keyId keyType publicKey = .ok r) : Constructed r

variable {keyId : Text} {key : VerificationKey}

theorem ofPublicJwk_eq_ok {jwk : PublicJwk} :
    ofPublicJwk keyId jwk = .ok key ↔
      jwk.publicKey = .ok key.publicKey ∧ key.keyId = keyId ∧ key.jwk = jwk.withKid none := by
  unfold ofPublicJwk
  rw [bind_eq_ok]
  constructor
  · intro ⟨publicKey, hpublicKey, hkey⟩
    obtain rfl := Except.ok.inj hkey
    exact ⟨hpublicKey, rfl, rfl⟩
  · intro ⟨hpublicKey, hid, hjwk⟩
    refine ⟨key.publicKey, hpublicKey, ?_⟩
    rw [← hid, ← hjwk]
    rfl

theorem ofJwk_eq_ok {v : Option Json} :
    ofJwk keyId v = .ok key ↔ ∃ jwk, PublicJwk.schema v = .ok jwk ∧ ofPublicJwk keyId jwk = .ok key := by
  unfold ofJwk
  cases PublicJwk.schema v with
  | error path => simp
  | ok jwk => simp

theorem ofPublicKey_eq_ok {keyType : KeyType} {publicKey : Bytes} :
    ofPublicKey keyId keyType publicKey = .ok key ↔
      ∃ jwk, PublicJwk.ofPublicKey? keyType publicKey = some jwk ∧
        jwk.publicKey = .ok key.publicKey ∧ key.keyId = keyId ∧ key.jwk = jwk.withKid none := by
  unfold ofPublicKey
  cases PublicJwk.ofPublicKey? keyType publicKey with
  | none => simp
  | some jwk => simp [ofPublicJwk_eq_ok]

/-- Every verification key is that of a web key, if only of the one that a raw key is written as. -/
theorem Constructed.exists_ofPublicJwk (h : key.Constructed) :
    ∃ jwk, ofPublicJwk key.keyId jwk = .ok key := by
  cases h with
  | ofJwk h =>
    obtain ⟨jwk, -, hjwk⟩ := ofJwk_eq_ok.mp h
    obtain ⟨hpublicKey, -, hheld⟩ := ofPublicJwk_eq_ok.mp hjwk
    exact ⟨jwk, ofPublicJwk_eq_ok.mpr ⟨hpublicKey, rfl, hheld⟩⟩
  | ofPublicKey h =>
    obtain ⟨jwk, -, hpublicKey, -, hheld⟩ := ofPublicKey_eq_ok.mp h
    exact ⟨jwk, ofPublicJwk_eq_ok.mpr ⟨hpublicKey, rfl, hheld⟩⟩

theorem Constructed.consistent (h : key.Constructed) : key.Consistent := by
  obtain ⟨jwk, hjwk⟩ := h.exists_ofPublicJwk
  obtain ⟨hpublicKey, -, hheld⟩ := ofPublicJwk_eq_ok.mp hjwk
  rw [Consistent, hheld, PublicJwk.publicKey_withKid, hpublicKey]

theorem Constructed.ofPoint {c : EcCurve} {q : Weierstrass.Affine} (hq : q.On c.group)
    (hread : c.group.decode? q.compressed = some q) (keyId : Text) :
    Constructed ⟨keyId, .ec (.ofPoint c q), q.compressed⟩ := by
  have hjwk : PublicJwk.ofPublicKey? (.ec c) q.compressed = some (.ec (.ofPoint c q)) := by
    simp only [PublicJwk.ofPublicKey?, EcJwk.ofPublicKey?, hread, Option.map_some]
  have hpublic : (PublicJwk.ec (.ofPoint c q)).publicKey = .ok q.compressed :=
    EcJwk.publicKey_ofPoint c hq
  have hheld : PublicJwk.ec (.ofPoint c q) = (PublicJwk.ec (.ofPoint c q)).withKid none := by
    simp only [PublicJwk.withKid, EcJwk.ofPoint]
  have hmade : VerificationKey.ofPublicKey keyId (.ec c) q.compressed =
      .ok ⟨keyId, .ec (.ofPoint c q), q.compressed⟩ :=
    ofPublicKey_eq_ok.mpr ⟨_, hjwk, hpublic, rfl, hheld⟩
  exact .ofPublicKey hmade

theorem Constructed.withKid_none (h : key.Constructed) : key.jwk.withKid none = key.jwk := by
  obtain ⟨jwk, hjwk⟩ := h.exists_ofPublicJwk
  obtain ⟨-, -, hheld⟩ := ofPublicJwk_eq_ok.mp hjwk
  rw [hheld, PublicJwk.withKid_withKid]

end VerificationKey

theorem KeyType.IsPoint.length {k : KeyType} {b : Bytes} (h : k.IsPoint b) :
    b.length = Multikey.keyLength k := by
  cases k with
  | ed25519 | ec c => exact h.1

theorem AgentKey.exists_verificationKey {key : AgentKey}
    (h : key.keyType.IsPoint key.pair.publicKey) :
    ∃ found, key.verificationKey = .ok found ∧ found.keyId = key.keyId ∧
      found.keyType = key.keyType ∧ found.publicKey = key.pair.publicKey ∧
      key.publicJwk = .ok found.publicJwk := by
  obtain ⟨found, hfound⟩ := VerificationKey.exists_ofPublicKey key.keyId h
  obtain ⟨jwk, hjwk, hread, hid, hheld⟩ := VerificationKey.ofPublicKey_eq_ok.mp hfound
  obtain ⟨htype, hbytes⟩ := PublicJwk.publicKey_of_ofPublicKey? h.length hjwk hread
  refine ⟨found, hfound, hid, ?_, hbytes, ?_⟩
  · rw [VerificationKey.keyType, hheld, PublicJwk.keyType_withKid, htype]
  · simp only [publicJwk, hjwk, VerificationKey.publicJwk, hheld, hid, PublicJwk.withKid_withKid]

end SealedEnvelope
