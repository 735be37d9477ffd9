import SealedEnvelope.Key.Jwk
import SealedEnvelope.Proofs.Codec.Base64url
import SealedEnvelope.Proofs.Curve.Encoding
import SealedEnvelope.Proofs.Json.Records

/-!
# Curve points as JSON web keys

The key of a raw public key leads back to the same raw public key, since its coordinates are those of a
point of the curve. It is also read back from the JSON object that it is written as.
-/

namespace SealedEnvelope

theorem EcCurve.group_fits (c : EcCurve) : c.group.Fits := by
  cases c with
  | p256 => exact Weierstrass.p256_fits
  | secp256k1 => exact Weierstrass.secp256k1_fits

theorem KeyType.length_publicKey? {c : EcCurve} {privateKey publicKey : Bytes}
    (h : (KeyType.ec c).publicKey? privateKey = some publicKey) : publicKey.length = 33 := by
  simp only [KeyType.publicKey?] at h
  split at h
  · cases h
  · split at h
    · obtain rfl := Option.some.inj h
      apply Weierstrass.Affine.length_compressed
    · cases h

theorem coordinate_eq_ok {name value : Text} {b : Bytes} :
    coordinate name value = .ok b ↔ Base64url.decode? value = some b ∧ b.length = 32 := by
  unfold coordinate
  cases Base64url.decode? value with
  | none => simp
  | some decoded =>
    by_cases hlength : decoded.length = 32
    · simp only [if_pos hlength, Except.ok.injEq, Option.some.injEq]
      refine ⟨fun h => ⟨h, h ▸ hlength⟩, And.left⟩
    · simp only [if_neg hlength, Option.some.injEq]
      refine ⟨fun h => (nomatch h), ?_⟩
      rintro ⟨rfl, h⟩
      exact absurd h hlength

theorem coordinate_encode (name : Text) (n : Nat) :
    coordinate name (Base64url.encode (.ofNat 32 n)) = .ok (.ofNat 32 n) := by
  simp [coordinate, Base64url.decode?_encode]

namespace EcJwk

theorem publicKey_ofPoint (c : EcCurve) {q : Weierstrass.Affine} (hq : q.On c.group) :
    (ofPoint c q).publicKey = .ok q.compressed := by
  have hx : Bytes.toNat (.ofNat 32 q.x) = q.x :=
    Bytes.toNat_ofNat (Nat.lt_of_lt_of_le hq.x_lt c.group_fits.le)
  have hy : Bytes.toNat (.ofNat 32 q.y) = q.y :=
    Bytes.toNat_ofNat (Nat.lt_of_lt_of_le hq.y_lt c.group_fits.le)
  simp only [ofPoint, publicKey, publicKeyOf, coordinate_encode, ok_bind, hx, hy,
    Weierstrass.point?_of_on hq]
  rfl

theorem publicKey_of_ofPublicKey? {c : EcCurve} {publicKey : Bytes} {key : EcJwk}
    (hlength : publicKey.length = 33) (h : ofPublicKey? c publicKey = some key) :
    key.curve = c ∧ key.publicKey = .ok publicKey := by
  obtain ⟨q, hq, rfl⟩ := Option.map_eq_some_iff.mp h
  refine ⟨rfl, ?_⟩
  rw [publicKey_ofPoint c (Weierstrass.on_of_decode? c.group_fits hq),
    Weierstrass.compressed_of_decode? c.group_fits hlength hq]

/-- A key that is read is a point of its curve, with the coordinates that it is given by. -/
theorem on_of_publicKey {key : EcJwk} {b : Bytes} (h : key.publicKey = .ok b) :
    ∃ q : Weierstrass.Affine, q.On key.curve.group ∧ b = q.compressed ∧
      Base64url.decode? key.x = some (.ofNat 32 q.x) ∧
      Base64url.decode? key.y = some (.ofNat 32 q.y) := by
  simp only [publicKey, publicKeyOf, bind_eq_ok, coordinate_eq_ok] at h
  obtain ⟨x, ⟨hx, hxlength⟩, y, ⟨hy, hylength⟩, h⟩ := h
  split at h
  · rename_i q hq
    obtain rfl := Except.ok.inj h
    have hon := Weierstrass.point?_eq_some hq
    simp only [Weierstrass.point?] at hq
    split at hq
    · obtain rfl := Option.some.inj hq
      exact ⟨_, hon, rfl, by rw [hx, Bytes.ofNat_toNat hxlength],
        by rw [hy, Bytes.ofNat_toNat hylength]⟩
    · cases hq
  · cases h

theorem settled_toJson (key : EcJwk) : key.toJson.Settled := by
  apply Json.settled_ofOptional ["kty", "crv", "x", "y", "kid"] rfl (by decide)
  simp only [List.forall_mem_cons, List.not_mem_nil, false_implies, implies_true, and_true]
  exact ⟨Json.settled_some trivial, Json.settled_some trivial, Json.settled_some trivial,
    Json.settled_some trivial, Json.settled_map_str key.kid⟩

theorem schema_toJson (key : EcJwk) : schema (some key.toJson) = .ok key := by
  obtain ⟨curve, x, y, kid⟩ := key
  cases curve <;> cases kid <;> rfl

end EcJwk

theorem OkpJwk.schema_toJson (key : OkpJwk) : schema (some key.toJson) = .ok key := by
  obtain ⟨x, kid⟩ := key
  cases kid <;> rfl

/-- A key is read back from the object that it is written as: the two kinds are not mistaken for each
other. -/
theorem PublicJwk.schema_toJson (jwk : PublicJwk) : schema (some jwk.toJson) = .ok jwk := by
  cases jwk with
  | okp key => simp only [schema, Schema.either, Schema.map, toJson, OkpJwk.schema_toJson]
  | ec key =>
    have hother : ∃ path, OkpJwk.schema (some key.toJson) = .error path := by
      obtain ⟨curve, x, y, kid⟩ := key
      cases kid <;> exact ⟨_, rfl⟩
    obtain ⟨path, hpath⟩ := hother
    simp only [schema, Schema.either, Schema.map, toJson, hpath, EcJwk.schema_toJson]
end SealedEnvelope
