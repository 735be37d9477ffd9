import SealedEnvelope.Envelope.Pack
import SealedEnvelope.Proofs.Envelope.Unpacking
import SealedEnvelope.Proofs.Json.Keys
import SealedEnvelope.Proofs.Jws.RoundTrip
import SealedEnvelope.Proofs.Payload.Canonical

/-!
# Signed envelopes

A payload that is signed comes back in normal form, with the id of the key that signed it, in both
serializations. The two are read in different ways: the general one is a JSON object with signatures,
the compact one is no JSON at all and carries the id in the encoded header.
-/

namespace SealedEnvelope

namespace Envelope

variable {signer : AgentKey} {signature : Bytes} {payload : Bytes}

theorem packSigned_general
    (h : signer.sign (Jws.signedInput signer none payload) = .ok signature) :
    packSigned signer false payload = .ok (Jws.madeBy signer none payload signature).serialized := by
  simp only [packSigned, Bool.false_eq_true, if_false, Jws.create_eq, h, Except.map, ok_bind]
  rfl

theorem packSigned_compact
    (h : signer.sign (Jws.signedInput signer (some signer.keyId) payload) = .ok signature) :
    packSigned signer true payload =
      .ok (Jws.compactText (Jws.headerOf signer (some signer.keyId)).encode
        (Base64url.encode payload) (Base64url.encode signature)) := by
  simp only [packSigned, Jws.createCompact, if_true, Jws.create_eq, h, Except.map, ok_bind,
    Jws.madeBy]
  exact Jws.compact_encode rfl _ _

/-! ### Both serializations are read as the envelope that was made -/

theorem ofText_general (hid : signer.keyId ≠ []) :
    Wire.ofText (Jws.madeBy signer none payload signature).serialized.trim =
      .ok (.signed (Jws.madeBy signer none payload signature)) := by
  unfold Jws.serialized
  rw [ofText_text (Jws.settled_toJson _)]
  unfold Wire.ofJson
  rw [if_pos (by rfl), Jws.ofJson_madeBy hid]
  rfl

theorem ofText_compact :
    Wire.ofText (Jws.compactText (Jws.headerOf signer (some signer.keyId)).encode
        (Base64url.encode payload) (Base64url.encode signature)).trim =
      .ok (.signed (Jws.madeBy signer (some signer.keyId) payload signature)) := by
  rw [Jws.trim_compactText]
  unfold Wire.ofText
  rw [Jws.parse?_compactText]
  have hcompact : Wire.isCompact (Jws.compactText (Jws.headerOf signer (some signer.keyId)).encode
      (Base64url.encode payload) (Base64url.encode signature)) = true := by
    unfold Wire.isCompact
    rw [Jws.splitOn_compactText]
    rfl
  simp only
  rw [if_pos hcompact, Jws.ofCompact_compactText payload signature rfl]
  rfl

theorem unpack_madeBy {p : Json} {kid : Option Text} {transport : Text} {keys : KeyManager}
    {options : UnpackOptions} (hp : p.WellFormed) (hkid : kid = none ∨ kid = some signer.keyId)
    (hknown : keys.Knows signer)
    (haccepted : signer.keyType.verify signer.pair.publicKey signature
      (Jws.signedInput signer kid p.normal.text.utf8) = true)
    (hwire : Wire.ofText transport.trim =
      .ok (.signed (Jws.madeBy signer kid p.normal.text.utf8 signature)))
    (hsize : options.maxEnvelopeBytes.lt (.ofNat transport.utf8.length) = false)
    (hmode : ∀ expected ∈ options.expectedMode, expected = .signed) :
    unpack transport keys options = .ok ⟨p.normal, ⟨.signed, [signer.keyId], none, none⟩⟩ := by
  rw [unpack_eq_ok]
  refine ⟨checkSize_eq_ok.mpr hsize, _, hwire, checkMode_eq_ok.mpr hmode, ?_⟩
  unfold openWire openSigned
  simp only
  rw [Jws.verify_of_knows hkid hknown haccepted, ok_bind,
    decodePayload_text (Json.settled_normal p hp), ok_bind]
  rfl

/-- Signing succeeds, and what is signed is unpacked as signed by the signer. -/
theorem signed_round_trip (p : Json) (hp : p.WellFormed) (packer receiver : KeyManager)
    (signer : AgentKey) (compact : Bool) (e : Entropy)
    (hheld : packer.get? signer.keyId = some signer) (hid : signer.keyId ≠ [])
    (hsigns : signer.Signs (Jws.signedInput signer (if compact then some signer.keyId else none)
      p.normal.text.utf8))
    (hknown : receiver.Knows signer) :
    ∃ t, pack (.ofJson p) (.signed signer.keyId compact) packer e = .ok t ∧
      ∀ options : UnpackOptions, options.maxEnvelopeBytes.lt (.ofNat t.utf8.length) = false →
        (∀ expected ∈ options.expectedMode, expected = .signed) →
          unpack t receiver options =
            .ok ⟨p.normal, ⟨.signed, [signer.keyId], none, none⟩⟩ := by
  have hpack : ∀ t, packSigned signer compact p.normal.text.utf8 = .ok t →
      pack (.ofJson p) (.signed signer.keyId compact) packer e = .ok t := by
    intro t ht
    unfold pack KeyManager.signingKey KeyManager.get
    simp only
    rw [hheld, Payload.canonicalBytes_ofJson]
    exact ht
  obtain ⟨signature, hsign, haccepted⟩ := hsigns.exists_signature
  cases compact with
  | false =>
    exact ⟨_, hpack _ (packSigned_general hsign), fun options hsize hmode =>
      unpack_madeBy hp (Or.inl rfl) hknown haccepted (ofText_general hid) hsize hmode⟩
  | true =>
    exact ⟨_, hpack _ (packSigned_compact hsign), fun options hsize hmode =>
      unpack_madeBy hp (Or.inr rfl) hknown haccepted ofText_compact hsize hmode⟩

/-- Packed by the signer alone, a payload comes out as `p'` where a signature is required. -/
def ComesBack (signer : AgentKey) (compact : Bool) (receiver : KeyManager) (p p' : Json) : Prop :=
  ∃ t, pack (.ofJson p) (.signed signer.keyId compact) ⟨[signer], none⟩ (fun _ => 0) = .ok t ∧
    unpack t receiver
        { requireSignature := true, expectedMode := some .signed, maxEnvelopeBytes := .infinite false } =
      .ok ⟨p', ⟨.signed, [signer.keyId], none, none⟩⟩

/-- A signer whose id is half a surrogate pair. -/
def surrogateSigner : AgentKey := { AgentKey.sample with keyId := [0xD800] }

/-- A signer known by its key. The private number is one, so the point is the generator. -/
def curveSigner (c : EcCurve) : AgentKey :=
  .ofPair ⟨.ec c, c.group.generator.compressed, .ofNat 32 1⟩ ⟨none, none⟩

/-- A payload that its normal form differs from in every way. -/
def untidy : Json :=
  .obj [("b", .num (.finite true 0)), ("__proto__", .null), ("a", .num .nan)]

def tidied : Json := .obj [("a", .null), ("b", .num (.finite false 0))]

set_option maxRecDepth 100000 in
/-- All three types sign, and the signers on the curves are strangers to the receiver. -/
theorem signed_round_trip_samples :
    ComesBack surrogateSigner true ⟨[surrogateSigner], none⟩ (.str "x") (.str "x") ∧
    ComesBack (curveSigner .p256) false ⟨[], some .didKey⟩ untidy tidied ∧
    ComesBack (curveSigner .secp256k1) true ⟨[], some .didKey⟩ untidy tidied := by
  have hrun : ∀ (signer : AgentKey) (compact : Bool) (receiver : KeyManager) (p p' : Json),
      p.WellFormed → p.normal = p' → signer.keyId ≠ [] →
      signer.Signs (Jws.signedInput signer (if compact then some signer.keyId else none)
        p'.text.utf8) →
      receiver.Knows signer → ComesBack signer compact receiver p p' := by
    rintro signer compact receiver p p' hp rfl hid hsigns hknown
    obtain ⟨t, hpack, hunpack⟩ := signed_round_trip p hp ⟨[signer], none⟩ receiver signer compact
      (fun _ => 0) (by simp [KeyManager.get?]) hid hsigns hknown
    exact ⟨t, hpack, hunpack _ (infinite_lt _) fun _ h => (Option.some.inj h).symm⟩
  have hformed : untidy.WellFormed :=
    ⟨by decide, ⟨Double.overflow_pos, dvd_zero _⟩, trivial, trivial, trivial⟩
  have hnormal : untidy.normal = tidied := by
    refine congrArg Json.obj (Members.normal_eq_of_inOrder ?_ ?_ (.swap _ _ _))
    · decide
    · decide
  refine ⟨?_, ?_, ?_⟩
  · refine hrun surrogateSigner true _ (.str "x") _ trivial rfl (by decide) ?_ (by decide +kernel)
    refine ⟨by decide, ?_, by decide +kernel⟩
    intro c h
    cases h
  · refine hrun (curveSigner .p256) false _ untidy _ hformed hnormal (by decide +kernel) ?_
      (by decide +kernel)
    refine ⟨by decide +kernel, ?_, by decide +kernel⟩
    intro c h
    obtain rfl := KeyType.ec.inj h
    exact ⟨0, by decide, by decide +kernel⟩
  · refine hrun (curveSigner .secp256k1) true _ untidy _ hformed hnormal (by decide +kernel) ?_
      (by decide +kernel)
    refine ⟨by decide +kernel, ?_, by decide +kernel⟩
    intro c h
    obtain rfl := KeyType.ec.inj h
    exact ⟨0, by decide, by decide +kernel⟩

end Envelope
end SealedEnvelope
