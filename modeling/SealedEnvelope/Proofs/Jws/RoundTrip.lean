import SealedEnvelope.Proofs.Curve.Nonce
import SealedEnvelope.Proofs.Jws.Compact
import SealedEnvelope.Proofs.Jws.Verification

/-!
# Signed envelopes read back

An envelope comes back from both of its texts, the general one and the compact one, and the header of an
entry comes back from its encoding. So what a key signs is what is verified: an envelope that an agent
key makes is verified wherever the key's id leads to its public key.

Of the signature schemes it is relied on that a signature is accepted under the public key of the key
that made it, and on the Weierstrass curves that one of the nonces that are tried is usable. That signing
succeeds then is proved.
-/

namespace SealedEnvelope

namespace JwsHeader

theorem settled_toJson (h : JwsHeader) : h.toJson.Settled := by
  apply Json.settled_ofOptional ["typ", "alg", "kid"] rfl (by decide)
  simp only [List.forall_mem_cons, List.not_mem_nil, false_implies, implies_true, and_true]
  exact ⟨Json.settled_some trivial, Json.settled_some trivial, Json.settled_map_str h.kid⟩

theorem schema_toJson (h : JwsHeader) : schema (some h.toJson) = .ok h := by
  obtain ⟨typ, alg, kid⟩ := h
  cases kid <;> cases alg <;> rfl

theorem ofJson?_toJson (h : JwsHeader) : ofJson? h.toJson = some h := by
  unfold ofJson?
  rw [schema_toJson]
  rfl

theorem decode?_encode (h : JwsHeader) : decode? h.encode = some h := by
  simp only [decode?, encode, Base64url.decode?_encodeText, Option.bind_eq_bind, Option.bind_some]
  rw [Json.decodeLenient_utf8_text h.settled_toJson, Json.parse?_text h.settled_toJson]
  exact h.ofJson?_toJson

/-- An encoded header begins like every encoded JSON object. -/
theorem head?_encode (h : JwsHeader) : h.encode.head? = some 0x65 := by
  obtain ⟨typ, alg, kid⟩ := h
  unfold encode Base64url.encodeText
  rw [Json.text_eq_written]
  change (Base64url.encode (Text.utf8 (0x7B :: _))).head? = _
  rw [Utf8.utf8_cons (by decide), Base64url.head?_encode]
  rfl

end JwsHeader

namespace JwsSignature

theorem settled_toJson (s : JwsSignature) : s.toJson.Settled := by
  refine Json.settled_obj ["protected", "signature", "header"] rfl (by decide) ⟨trivial, trivial, ?_⟩
  exact ⟨Json.settled_obj ["kid"] rfl (by decide) ⟨trivial, trivial⟩, trivial⟩

theorem schema_toJson {s : JwsSignature} (hkid : s.kid ≠ []) : schema (some s.toJson) = .ok s := by
  obtain ⟨protectedHeader, signature, kid⟩ := s
  cases kid with
  | nil => exact absurd rfl hkid
  | cons u kid => rfl

end JwsSignature

namespace Jws

theorem settled_toJson (j : Jws) : j.toJson.Settled := by
  refine Json.settled_obj ["payload", "signatures"] rfl (by decide) ⟨trivial, ?_, trivial⟩
  exact Json.settled_map_arr fun s _ => s.settled_toJson

theorem ofJson_toJson {j : Jws} (hne : j.signatures ≠ []) (hkids : ∀ s ∈ j.signatures, s.kid ≠ []) :
    ofJson (some j.toJson) = .ok j := by
  have hitems : Schema.nonEmptyList JwsSignature.schema
      (some (.arr (j.signatures.map JwsSignature.toJson))) = .ok j.signatures :=
    Schema.nonEmptyList_map hne fun s hs => JwsSignature.schema_toJson (hkids s hs)
  have hschema : schema (some j.toJson) = .ok j := by
    change (do
      let signatures ← Schema.within "signatures" (Schema.nonEmptyList JwsSignature.schema)
        (some (.arr (j.signatures.map JwsSignature.toJson)))
      return (⟨j.payload, signatures⟩ : Jws)) = .ok j
    unfold Schema.within
    rw [hitems]
    rfl
  exact Schema.read_eq_ok.mpr hschema

/-! ### Compact texts -/

section Compact

variable {header : JwsHeader} {kid : Text}

theorem compact_encode (hkid : header.kid = some kid) (payload signature : Text) :
    compact ⟨payload, [⟨header.encode, signature, kid⟩]⟩
      = .ok (compactText header.encode payload signature) :=
  compact_eq_ok.mpr ⟨_, _, _, header, kid, rfl, header.decode?_encode, hkid, rfl⟩

variable (header) (kid) (payload signature : Bytes)

theorem splitOn_compactText :
    (compactText header.encode (Base64url.encode payload) (Base64url.encode signature)).splitOn dot
      = [header.encode, Base64url.encode payload, Base64url.encode signature] :=
  splitOn_eq_three.mpr ⟨rfl, Base64url.dot_not_mem_encode _, Base64url.dot_not_mem_encode payload,
    Base64url.dot_not_mem_encode signature⟩

variable {header} {kid}

theorem ofCompact_compactText (hkid : header.kid = some kid) :
    ofCompact (compactText header.encode (Base64url.encode payload) (Base64url.encode signature))
      = .ok ⟨Base64url.encode payload, [⟨header.encode, Base64url.encode signature, kid⟩]⟩ :=
  ofCompact_eq_ok.mpr ⟨_, _, _, header, kid, splitOn_compactText header payload signature,
    header.decode?_encode, hkid, rfl⟩

variable {payload} {signature}

theorem isBlank_of_mem_compactText {u : CodeUnit}
    (h : u ∈ compactText header.encode (Base64url.encode payload) (Base64url.encode signature)) :
    Text.isBlank u = false := by
  unfold compactText at h
  rw [List.mem_append, List.mem_cons, List.mem_append, List.mem_cons] at h
  rcases h with h | rfl | h | rfl | h
  · exact Base64url.isBlank_of_mem_encode h
  · decide
  · exact Base64url.isBlank_of_mem_encode h
  · decide
  · exact Base64url.isBlank_of_mem_encode h

variable (header) (payload) (signature)

theorem trim_compactText :
    (compactText header.encode (Base64url.encode payload) (Base64url.encode signature)).trim
      = compactText header.encode (Base64url.encode payload) (Base64url.encode signature) :=
  Text.trim_eq_self (fun _ hu => isBlank_of_mem_compactText (List.mem_of_head? hu))
    (fun _ hu => isBlank_of_mem_compactText (List.mem_of_getLast? hu))

/-- A compact text is never JSON: no JSON text begins with the letter that encoded objects begin
with. -/
theorem parse?_compactText (payload signature : Text) :
    Json.parse? (compactText header.encode payload signature) = none := by
  have hhead := header.head?_encode
  unfold compactText
  cases hencoded : header.encode with
  | nil =>
    rw [hencoded] at hhead
    cases hhead
  | cons u rest =>
    rw [hencoded] at hhead
    obtain rfl := Option.some.inj hhead
    exact Json.parse?_eq_none rfl _

end Compact

/-! ### Envelopes that a key has made -/

def headerOf (signer : AgentKey) (kid : Option Text) : JwsHeader :=
  ⟨MediaType.signed, signer.algorithm, kid⟩

def signedInput (signer : AgentKey) (kid : Option Text) (payload : Bytes) : Bytes :=
  signingInput (headerOf signer kid).encode (Base64url.encode payload)

def madeBy (signer : AgentKey) (kid : Option Text) (payload signature : Bytes) : Jws :=
  ⟨Base64url.encode payload,
    [⟨(headerOf signer kid).encode, Base64url.encode signature, signer.keyId⟩]⟩

theorem create_eq (signer : AgentKey) (kid : Option Text) (payload : Bytes) :
    create signer payload none kid =
      (signer.sign (signedInput signer kid payload)).map (madeBy signer kid payload) := by
  change (signer.sign (signedInput signer kid payload) >>= _) = _
  cases signer.sign (signedInput signer kid payload) with
  | error failure => rfl
  | ok signature => rfl

theorem ofJson_madeBy {signer : AgentKey} (hid : signer.keyId ≠ []) (kid : Option Text)
    (payload signature : Bytes) :
    ofJson (some (madeBy signer kid payload signature).toJson) =
      .ok (madeBy signer kid payload signature) := by
  apply ofJson_toJson (List.cons_ne_nil _ _)
  intro s hs
  rw [List.mem_singleton.mp hs]
  exact hid

theorem verify_madeBy {signer : AgentKey} {kid : Option Text} {payload signature : Bytes}
    {lookup : Text → Except Error VerificationKey} {key : VerificationKey}
    (hkid : kid = none ∨ kid = some signer.keyId) (hlookup : lookup signer.keyId = .ok key)
    (hkeyType : key.keyType = signer.keyType)
    (hverified : key.keyType.verify key.publicKey signature (signedInput signer kid payload) = true) :
    (madeBy signer kid payload signature).verify lookup = .ok ⟨payload, [signer.keyId]⟩ := by
  have haccepts : key.accepts (headerOf signer kid).alg (signedInput signer kid payload) signature
      = true := by
    unfold VerificationKey.accepts
    rw [hverified, Bool.and_true, decide_eq_true_eq, hkeyType]
    exact KeyType.keyType_algorithm signer.keyType
  have hreads : JwsSignature.Reads
      ⟨(headerOf signer kid).encode, Base64url.encode signature, signer.keyId⟩
      (headerOf signer kid) signature :=
    ⟨JwsHeader.decode?_encode _, hkid, Base64url.decode?_encode signature⟩
  refine verify_eq_ok_iff.mpr ⟨List.cons_ne_nil _ _, ?_, Base64url.decode?_encode payload, rfl⟩
  exact List.forall_mem_singleton.mpr ⟨_, signature, key, hreads, hlookup, haccepts⟩

end Jws

namespace AgentKey

/-- Every signature that the key makes of a message is accepted under its public key. -/
def Accepts (key : AgentKey) (message : Bytes) : Prop :=
  ∀ signature, key.sign message = .ok signature →
    key.keyType.verify key.pair.publicKey signature message = true

instance (key : AgentKey) (message : Bytes) : Decidable (key.Accepts message) :=
  match h : key.sign message with
  | .error _ => isTrue fun _ hsign => nomatch h.symm.trans hsign
  | .ok signature =>
    decidable_of_iff (key.keyType.verify key.pair.publicKey signature message = true)
      ⟨fun haccepted _ hsign => Except.ok.inj (h.symm.trans hsign) ▸ haccepted,
        fun haccepts => haccepts signature h⟩

/-- What is relied on of a key and a message: the key is one of its type, one of the nonces that are
drawn is usable if the type needs one, and the signature of the message is accepted. -/
structure Signs (key : AgentKey) (message : Bytes) : Prop where
  valid : key.keyType.isPrivateKey key.pair.privateKey = true
  nonce : ∀ c, key.keyType = .ec c → Ecdsa.DrawsNonce c.group key.pair.privateKey message
  accepted : key.Accepts message

theorem exists_sign {key : AgentKey} {message : Bytes}
    (hvalid : key.keyType.isPrivateKey key.pair.privateKey = true)
    (hnonce : ∀ c, key.keyType = .ec c → Ecdsa.DrawsNonce c.group key.pair.privateKey message) :
    ∃ signature, key.sign message = .ok signature := by
  have hsome : (key.keyType.sign? key.pair.privateKey message).isSome = true := by
    cases hkeyType : key.keyType with
    | ed25519 =>
      rw [hkeyType] at hvalid
      unfold KeyType.isPrivateKey at hvalid
      rw [beq_iff_eq] at hvalid
      unfold KeyType.sign? Edwards.sign?
      simp only
      rw [if_neg (not_not_intro hvalid)]
      rfl
    | ec c =>
      rw [hkeyType] at hvalid
      exact (Ecdsa.isSome_sign? c.primeOrder_group c.lowS _ message).mpr ⟨hvalid, hnonce c hkeyType⟩
  obtain ⟨signature, hsignature⟩ := Option.isSome_iff_exists.mp hsome
  refine ⟨signature, ?_⟩
  unfold sign
  rw [hsignature]

theorem Signs.exists_signature {key : AgentKey} {message : Bytes} (h : key.Signs message) :
    ∃ signature, key.sign message = .ok signature ∧
      key.keyType.verify key.pair.publicKey signature message = true := by
  obtain ⟨signature, hsign⟩ := exists_sign h.valid h.nonce
  exact ⟨signature, hsign, h.accepted signature hsign⟩

end AgentKey

/-- The manager finds the public key of an agent key under the id of the key. -/
def KeyManager.Knows (m : KeyManager) (signer : AgentKey) : Prop :=
  ∃ key, m.verificationKey signer.keyId = .ok key ∧ key.keyType = signer.keyType ∧
    key.publicKey = signer.pair.publicKey

instance (m : KeyManager) (signer : AgentKey) : Decidable (m.Knows signer) :=
  match h : m.verificationKey signer.keyId with
  | .error _ => isFalse fun ⟨_, hkey, _⟩ => nomatch h.symm.trans hkey
  | .ok key =>
    decidable_of_iff (key.keyType = signer.keyType ∧ key.publicKey = signer.pair.publicKey)
      ⟨fun hsame => ⟨key, h, hsame⟩,
        fun ⟨_, hkey, hsame⟩ => Except.ok.inj (h.symm.trans hkey) ▸ hsame⟩

theorem Jws.verify_of_knows {signer : AgentKey} {kid : Option Text} {payload signature : Bytes}
    {keys : KeyManager} (hkid : kid = none ∨ kid = some signer.keyId) (hknown : keys.Knows signer)
    (haccepted : signer.keyType.verify signer.pair.publicKey signature
      (signedInput signer kid payload) = true) :
    (madeBy signer kid payload signature).verify keys.verificationKey
      = .ok ⟨payload, [signer.keyId]⟩ := by
  obtain ⟨key, hkey, hkeyType, hpublicKey⟩ := hknown
  refine verify_madeBy hkid hkey hkeyType ?_
  rw [hkeyType, hpublicKey]
  exact haccepted

end SealedEnvelope
