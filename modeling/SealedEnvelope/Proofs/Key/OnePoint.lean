import SealedEnvelope.Proofs.Codec.UnusedBits
import SealedEnvelope.Proofs.Curve.Compression
import SealedEnvelope.Proofs.Jwe.Opening
import SealedEnvelope.Proofs.Key.Verification

/-!
# A verification key is one point

A verification key holds its point twice: in the coordinates of a web key, which encryption uses, and as
a raw key, which signatures are checked with. Whichever way it has come about, the raw key is the one that
the coordinates are read as, and the coordinates are the ones that the raw key is written in, but for bits
that belong to no byte. The second half needs a raw key that is read back, and only the two points of
P-256 with the horizontal coordinate zero have none.
-/

namespace SealedEnvelope

/-! ### Web keys and raw keys -/

theorem EcCurve.group_rooted (c : EcCurve) : c.group.Rooted := by
  cases c with
  | p256 => exact Weierstrass.p256_rooted
  | secp256k1 => exact Weierstrass.secp256k1_rooted

theorem EcCurve.readsBack {c : EcCurve} {q : Weierstrass.Affine} (hq : q.On c.group)
    (hx : c = .p256 → q.x ≠ 0) : c.group.ReadsBack q := by
  apply (Weierstrass.readsBack_iff c.group_rooted hq).mpr
  cases c with
  | p256 => exact hx rfl
  | secp256k1 => exact Weierstrass.x_ne_zero_of_on_secp256k1 hq

namespace PublicJwk

/-- The key with the unused bits of its coordinates cleared. -/
def cleared : PublicJwk → PublicJwk
  | okp key => okp { key with x := Base64url.cleared key.x }
  | ec key => ec { key with x := Base64url.cleared key.x, y := Base64url.cleared key.y }

/-- The raw key that the members of a key describe to the curve that they name. -/
def suiteKey : PublicJwk → Except Error Bytes
  | okp key => publicKeyOf .ed25519 okpKind KeyType.ed25519.text key.x []
  | ec key => publicKeyOf (.ec key.curve) ecKind key.curve.text key.x key.y

theorem suiteKey_eq (jwk : PublicJwk) : jwk.suiteKey = jwk.publicKey := by
  cases jwk with
  | okp key =>
    rw [suiteKey, publicKeyOf, if_pos ⟨rfl, rfl⟩]
    rfl
  | ec key =>
    rw [suiteKey, publicKeyOf, if_pos ⟨rfl, rfl⟩]
    rfl

theorem get?_crv (jwk : PublicJwk) : jwk.toJson.get? "crv" = some (.str jwk.keyType.text) := by
  cases jwk with
  | okp key => rfl
  | ec key => rfl

variable {publicKey : Bytes}

theorem okp_ofPublicKey {key : OkpJwk} (h : key.publicKey = .ok publicKey) :
    OkpJwk.ofPublicKey publicKey = ⟨Base64url.cleared key.x, none⟩ := by
  simp only [OkpJwk.publicKey, OkpJwk.publicKeyOf, bind_eq_ok, coordinate_eq_ok] at h
  obtain ⟨x, ⟨hx, -⟩, h⟩ := h
  split at h
  · obtain rfl := Except.ok.inj h
    rw [OkpJwk.ofPublicKey, Base64url.encode_of_decode? hx]
  · cases h

theorem ec_ofPublicKey? {key : EcJwk} (h : key.publicKey = .ok publicKey)
    (hback : ∀ q : Weierstrass.Affine, q.On key.curve.group → q.compressed = publicKey →
      key.curve.group.ReadsBack q) :
    EcJwk.ofPublicKey? key.curve publicKey =
      some ⟨key.curve, Base64url.cleared key.x, Base64url.cleared key.y, none⟩ := by
  obtain ⟨q, hq, hpublicKey, hx, hy⟩ := EcJwk.on_of_publicKey h
  have hdecode : key.curve.group.decode? publicKey = some q := by
    rw [hpublicKey]
    exact hback q hq hpublicKey.symm
  rw [EcJwk.ofPublicKey?, hdecode, Option.map_some, EcJwk.ofPoint, Base64url.encode_of_decode? hx,
    Base64url.encode_of_decode? hy]

/-- The raw key of a web key is written as that web key without its id, the unused bits cleared. -/
theorem ofPublicKey?_of_publicKey {jwk : PublicJwk} (h : jwk.publicKey = .ok publicKey)
    (hback : ∀ c (q : Weierstrass.Affine), jwk.keyType = .ec c → q.On c.group →
      q.compressed = publicKey → c.group.ReadsBack q) :
    ofPublicKey? jwk.keyType publicKey = some (jwk.withKid none).cleared := by
  cases jwk with
  | okp key =>
    change some (okp (OkpJwk.ofPublicKey publicKey)) = _
    rw [okp_ofPublicKey h]
    rfl
  | ec key =>
    change (EcJwk.ofPublicKey? key.curve publicKey).map ec = _
    rw [ec_ofPublicKey? h fun q => hback key.curve q rfl]
    rfl

end PublicJwk

namespace VerificationKey

/-! ### Where verification keys come from -/

/-- The ways to a verification key. -/
inductive Obtained : VerificationKey → Prop
  | ofJwk {keyId : Text} {v : Option Json} {key : VerificationKey}
    (h : VerificationKey.ofJwk keyId v = .ok key) : Obtained key
  | ofPublicKey {keyId : Text} {keyType : KeyType} {publicKey : Bytes} {key : VerificationKey}
    (h : VerificationKey.ofPublicKey keyId keyType publicKey = .ok key) : Obtained key
  | ofMethod {m : VerificationMethod} {key : VerificationKey}
    (h : VerificationKey.ofMethod m = .ok key) : Obtained key
  | ofAgentKey {agentKey : AgentKey} {key : VerificationKey}
    (h : agentKey.verificationKey = .ok key) : Obtained key

variable {key : VerificationKey}

/-- A method carries a web key or a raw key, and an agent's key is a raw key. -/
theorem Obtained.constructed (h : key.Obtained) : key.Constructed := by
  cases h with
  | ofJwk h => exact .ofJwk h
  | ofPublicKey h => exact .ofPublicKey h
  | ofAgentKey h => exact .ofPublicKey h
  | @ofMethod m _ h =>
    obtain ⟨id, controller, material⟩ := m
    cases material with
    | jwk v => exact .ofJwk h
    | multikey multibase =>
      cases multibase with
      | none => cases h
      | some t =>
        obtain ⟨decoded, -, h⟩ := bind_eq_ok.mp h
        exact .ofPublicKey h

/-! ### The point of a key -/

/-- Whether the point that the raw key encodes is decoded from it. -/
def PointReadsBack (key : VerificationKey) : Prop :=
  ∀ c (q : Weierstrass.Affine), key.keyType = .ec c → q.On c.group → q.compressed = key.publicKey →
    c.group.ReadsBack q

theorem pointReadsBack (h : ∀ q : Weierstrass.Affine, key.keyType = .ec .p256 → q.On .p256 →
    q.compressed = key.publicKey → q.x ≠ 0) : key.PointReadsBack := by
  intro c q htype hq hencoded
  apply EcCurve.readsBack hq
  rintro rfl
  exact h q htype hq hencoded

theorem ofJwk_publicJwk (h : key.Constructed) (keyId : Text) :
    ofJwk keyId (some key.publicJwk.toJson) = .ok { key with keyId := keyId } := by
  apply ofJwk_eq_ok.mpr
  refine ⟨key.publicJwk, PublicJwk.schema_toJson _, ofPublicJwk_eq_ok.mpr ⟨?_, rfl, ?_⟩⟩
  · rw [publicJwk, PublicJwk.publicKey_withKid]
    exact h.consistent
  · rw [publicJwk, PublicJwk.withKid_withKid]
    exact h.withKid_none.symm

/-- However a verification key has come about, its web key is read as its raw key. The raw key is written
as the web key with the unused bits cleared if the point is read back, which it is unless it is a point of
P-256 with the horizontal coordinate zero. The key type is the curve that the web key names. The published
web key is accepted under any id and gives a key that accepts the same signatures. Content keys are wrapped
for the raw key that signatures are checked with. -/
theorem one_point (h : key.Obtained) :
    key.publicJwk.suiteKey = .ok key.publicKey ∧
      (key.PointReadsBack →
        PublicJwk.ofPublicKey? key.keyType key.publicKey = some key.jwk.cleared) ∧
      ((∀ q : Weierstrass.Affine, key.keyType = .ec .p256 → q.On .p256 →
        q.compressed = key.publicKey → q.x ≠ 0) → key.PointReadsBack) ∧
      key.publicJwk.toJson.get? "crv" = some (.str key.keyType.text) ∧
      (∀ keyId, ∃ rebuilt, ofJwk keyId (some key.publicJwk.toJson) = .ok rebuilt ∧
        rebuilt.keyId = keyId ∧ rebuilt.jwk = key.jwk ∧ rebuilt.publicKey = key.publicKey ∧
        ∀ algorithm message signature, rebuilt.acceptsNamed algorithm message signature =
          key.acceptsNamed algorithm message signature) ∧
      ∀ ephemeral contentKey senderKid, wrapFor ephemeral key contentKey senderKid =
        match ephemeral.curve.sharedSecret? ephemeral.privateKey key.publicKey with
        | none => .error .refused
        | some secret => KeyWrap.wrap (wrappingKey secret senderKid key.keyId) contentKey := by
  have hconstructed := h.constructed
  have hconsistent := hconstructed.consistent
  refine ⟨?_, ?_, pointReadsBack, ?_, ?_, wrapFor_eq hconsistent⟩
  · rw [PublicJwk.suiteKey_eq, publicJwk, PublicJwk.publicKey_withKid]
    exact hconsistent
  · intro hback
    have hwritten := PublicJwk.ofPublicKey?_of_publicKey hconsistent hback
    rw [hconstructed.withKid_none] at hwritten
    exact hwritten
  · rw [PublicJwk.get?_crv, publicJwk, PublicJwk.keyType_withKid]
    rfl
  · intro keyId
    exact ⟨_, ofJwk_publicJwk hconstructed keyId, rfl, rfl, rfl, fun _ _ _ => rfl⟩

/-- The base point of P-256 as a web key, with unused bits set and a member that no key has. -/
def strayWebKey : Json :=
  .obj [("kty", .str "EC"), ("crv", .str "P-256"),
    ("x", .str "axfR8uEsQkf4vOblY6RA8ncDfYEt6zOg9KE5RdiYwpZ"),
    ("y", .str "T-NC4v4af5uO5-tKfA-eFivOM1drMV7Oy7ZAaDe_UfX"), ("kid", .str "7"), ("use", .str "sig")]

theorem one_point_of_strayWebKey :
    ∃ key, ofJwk "did:example:zoe#key" (some strayWebKey) = .ok key ∧
      key.publicJwk.suiteKey = .ok key.publicKey ∧ key.jwk.cleared ≠ key.jwk ∧
      PublicJwk.ofPublicKey? key.keyType key.publicKey = some key.jwk.cleared ∧
      ∃ rebuilt, ofJwk "7" (some key.publicJwk.toJson) = .ok rebuilt ∧
        rebuilt.publicKey = key.publicKey := by
  have hrun : (ofJwk "did:example:zoe#key" (some strayWebKey)).toOption.map
      (fun key => (decide (key.jwk.cleared = key.jwk), key.publicKey)) =
        some (false, Weierstrass.p256.generator.compressed) := by decide +kernel
  obtain ⟨key, hkey, hfacts⟩ := Option.map_eq_some_iff.mp hrun
  obtain ⟨hcleared, hpublicKey⟩ := Prod.mk.inj hfacts
  have hkey := toOption_eq_some.mp hkey
  obtain ⟨hread, hwritten, hback, -, hrebuilt, -⟩ := one_point (.ofJwk hkey)
  refine ⟨key, hkey, hread, of_decide_eq_false hcleared, hwritten (hback ?_), ?_⟩
  · intro q _ _ hencoded hzero
    rw [hpublicKey, Weierstrass.Affine.compressed, Weierstrass.Affine.compressed, hzero] at hencoded
    exact absurd (List.cons.inj hencoded).2 (by decide +kernel)
  · obtain ⟨rebuilt, hok, -, -, hsame, -⟩ := hrebuilt "7"
    exact ⟨rebuilt, hok, hsame⟩

end VerificationKey
end SealedEnvelope
