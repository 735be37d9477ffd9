import SealedEnvelope.Proofs.Envelope.Authenticity
import SealedEnvelope.Proofs.Envelope.SignedRoundTrip
import SealedEnvelope.Proofs.Jwe.Opening

/-!
# Encrypted envelopes

A payload that is encrypted comes back in normal form from every manager that holds one of the
recipients' keys, and so does one that is signed and then encrypted. The first recipient in the order of
the list that the manager holds is the one that opens the envelope.
-/

namespace SealedEnvelope

/-- Under each recipient's id the manager has the recipient's key, if it has a key at all, and that key
agrees with the ephemeral key of the stream on a secret. -/
structure KeyManager.Receives (m : KeyManager) (recipients : List VerificationKey) (e : Entropy) :
    Prop where
  keys : ∀ r ∈ recipients, ∀ key, m.get? r.keyId = some key → key.Matches r
  symmetric : ∀ r ∈ recipients, ∀ key c, m.get? r.keyId = some key → r.keyType = .ec c →
    c.Symmetric (c.freshPrivateKey e) key.pair.privateKey

namespace Envelope

variable {recipients : List VerificationKey} {plaintext : Bytes} {options : JweOptions}
  {keys : KeyManager} {e : Entropy} {j : Jwe} {kid : Text}

/-! ### Finding the recipient -/

theorem canDecrypt_eq_hasKey {r : VerificationKey} {c : EcCurve} (hreceives : keys.Receives recipients e)
    (hr : r ∈ recipients) (hcurve : r.keyType = .ec c) :
    keys.canDecrypt r.keyId = keys.hasKey r.keyId := by
  cases hget : keys.get? r.keyId with
  | none => simp [KeyManager.canDecrypt, KeyManager.hasKey, hget]
  | some key =>
    have hkeyType : key.keyType = .ec c := (hreceives.keys r hr key hget).keyType.trans hcurve
    simp [KeyManager.canDecrypt, KeyManager.hasKey, hget, AgentKey.canAgree,
      AgentKey.agreement?_of_keyType hkeyType]

theorem candidates_of_create (h : Jwe.create plaintext recipients options e = .ok j)
    (hreceives : keys.Receives recipients e) :
    candidates j keys none = (recipients.map VerificationKey.keyId).filter keys.hasKey := by
  obtain ⟨c, ephemeral, header, hcurve, -, -, hseals⟩ := Jwe.create_eq_ok h
  unfold candidates
  rw [Jwe.map_kid_of_entriesFor hseals.entries]
  apply List.filter_congr
  intro kid hkid
  obtain ⟨r, hr, rfl⟩ := List.mem_map.mp hkid
  simp [canDecrypt_eq_hasKey hreceives hr (keyType_of_sharedCurve hcurve r hr)]

theorem openWith_of_create (h : Jwe.create plaintext recipients options e = .ok j)
    (hreceives : keys.Receives recipients e) (hkid : kid ∈ recipients.map VerificationKey.keyId)
    (hheld : keys.hasKey kid = true) :
    openWith j keys kid = .ok ⟨plaintext, kid, options.senderKid⟩ := by
  obtain ⟨r, hr, rfl⟩ := List.mem_map.mp hkid
  obtain ⟨c, ephemeral, header, hcurve, hfresh, -, hseals⟩ := Jwe.create_eq_ok h
  obtain ⟨key, hget⟩ := Option.isSome_iff_exists.mp hheld
  have hr_curve : r.keyType = .ec c := keyType_of_sharedCurve hcurve r hr
  have hmatches := hreceives.keys r hr key hget
  have hopened := hseals.opened hfresh hr hr_curve (KeyManager.keyId_of_get? hget) hmatches
    (hreceives.symmetric r hr key c hget hr_curve)
  simp only [openWith, KeyManager.decryptionKey, KeyManager.agreementKey, KeyManager.get, hget,
    ok_bind, AgentKey.agreement?_of_keyType (hmatches.keyType.trans hr_curve)]
  exact hopened

theorem openFirst_of_create (h : Jwe.create plaintext recipients options e = .ok j)
    (hreceives : keys.Receives recipients e)
    (hfirst : (recipients.map VerificationKey.keyId).find? keys.hasKey = some kid) (failure : Error) :
    openFirst j keys failure (candidates j keys none) =
      .ok ⟨plaintext, kid, options.senderKid⟩ := by
  rw [candidates_of_create h hreceives]
  have hhead : ((recipients.map VerificationKey.keyId).filter keys.hasKey).head? = some kid := by
    rw [List.head?_filter, hfirst]
  cases hheld : (recipients.map VerificationKey.keyId).filter keys.hasKey with
  | nil =>
    rw [hheld] at hhead
    cases hhead
  | cons first rest =>
    rw [hheld] at hhead
    obtain rfl := Option.some.inj hhead
    have hopened := openWith_of_create h hreceives (List.mem_of_find?_eq_some hfirst)
      (List.find?_some hfirst)
    simp only [openFirst, hopened]

/-! ### Reading the envelope -/

theorem ofText_serialized {header : JweHeader} (hread : Jwe.ofJson (some j.toJson) = .ok j)
    (hheader : JweHeader.decode j.protectedHeader .decryptionFailed = .ok header) :
    Wire.ofText j.serialized.trim = .ok (.encrypted j header) := by
  have hunsigned : j.toJson.hasMember "signatures" = false := rfl
  have hrecipients : j.toJson.hasMember "recipients" = true := rfl
  unfold Jwe.serialized
  rw [ofText_text j.settled_toJson]
  simp only [Wire.ofJson, hunsigned, hrecipients, Bool.false_eq_true, if_false, if_true, hread,
    ok_bind, hheader]
  rfl

theorem ofText_encrypted (h : Jwe.create plaintext recipients options e = .ok j)
    (hids : ∀ r ∈ recipients, r.keyId ≠ []) :
    ∃ header, header.cty = options.cty ∧
      Wire.ofText j.serialized.trim = .ok (.encrypted j header) := by
  obtain ⟨c, ephemeral, header, -, -, hcty, hseals⟩ := Jwe.create_eq_ok h
  refine ⟨header, hcty, ofText_serialized (Jwe.ofJson_of_create h hids) ?_⟩
  rw [hseals.protectedHeader, JweHeader.decode_encode]

/-- What is left of unpacking an envelope that has been made, once it is opened. -/
theorem unpack_of_create {request : UnpackOptions}
    (h : Jwe.create plaintext recipients options e = .ok j) (hids : ∀ r ∈ recipients, r.keyId ≠ [])
    (hreceives : keys.Receives recipients e)
    (hfirst : (recipients.map VerificationKey.keyId).find? keys.hasKey = some kid)
    (hsize : request.maxEnvelopeBytes.lt (.ofNat j.serialized.utf8.length) = false)
    (hany : request.expectedRecipientKid = none)
    (hmode : ∀ expected ∈ request.expectedMode,
      expected = if options.cty = some MediaType.signed then .signedEncrypted else .encrypted) :
    unpack j.serialized keys request =
      if options.cty = some MediaType.signed then
        openNested ⟨plaintext, kid, options.senderKid⟩ keys
      else do
        checkUnsigned .encrypted request
        let payload ← decodePayload plaintext "JWE plaintext"
        return ⟨payload, ⟨.encrypted, [], some kid, options.senderKid⟩⟩ := by
  obtain ⟨header, hcty, hwire⟩ := ofText_encrypted h hids
  -- The mode is read off the header, which says what the envelope was made as.
  have hchecked : checkMode (Wire.encrypted j header).mode request = .ok () := by
    rw [checkMode_eq_ok]
    intro expected hexpected
    simp [hmode expected hexpected, Wire.mode, Wire.isNested, hcty]
  unfold unpack
  rw [checkSize_eq_ok.mpr hsize, ok_bind, hwire, ok_bind, hchecked, ok_bind]
  simp only [openWire, openEncrypted, hany, openFirst_of_create h hreceives hfirst, ok_bind,
    Wire.isNested, hcty, decide_eq_true_eq]

/-! ### Packing -/

theorem pack_encrypted_eq_ok {p : Json} {sender : Option Text} {packer : KeyManager} {t : Text}
    (h : pack (.ofJson p) (.encrypted sender recipients) packer e = .ok t) :
    ∃ j, Jwe.create p.normal.text.utf8 recipients { senderKid := sender } e = .ok j ∧
      t = j.serialized := by
  simp only [pack, Payload.canonicalBytes_ofJson, ok_bind] at h
  cases sender with
  | none =>
    obtain ⟨j, hj, ht⟩ := bind_eq_ok.mp h
    exact ⟨j, hj, (Except.ok.inj ht).symm⟩
  | some kid =>
    obtain ⟨k, hk, h⟩ := bind_eq_ok.mp h
    obtain ⟨j, hj, ht⟩ := bind_eq_ok.mp h
    rw [← KeyManager.keyId_of_encryptionKey hk]
    exact ⟨j, hj, (Except.ok.inj ht).symm⟩

theorem pack_signedEncrypted_eq_ok {p : Json} {signer : AgentKey} {packer : KeyManager} {t : Text}
    (hheld : packer.get? signer.keyId = some signer)
    (h : pack (.ofJson p) (.signedEncrypted signer.keyId recipients) packer e = .ok t) :
    ∃ signature j, signer.sign (Jws.signedInput signer none p.normal.text.utf8) = .ok signature ∧
      Jwe.create (Jws.madeBy signer none p.normal.text.utf8 signature).serialized.utf8 recipients
        { senderKid := some signer.keyId, cty := some MediaType.signed } e = .ok j ∧
      t = j.serialized := by
  simp only [pack, KeyManager.signingKey, KeyManager.get_eq_ok.mpr hheld,
    Payload.canonicalBytes_ofJson, ok_bind, packSignedEncrypted, Jws.create_eq] at h
  obtain ⟨inner, hinner, h⟩ := bind_eq_ok.mp h
  obtain ⟨signature, hsignature, rfl⟩ := map_eq_ok.mp hinner
  obtain ⟨j, hj, ht⟩ := bind_eq_ok.mp h
  exact ⟨signature, j, hsignature, hj, (Except.ok.inj ht).symm⟩

/-! ### The two kinds of encrypted envelopes -/

theorem openNested_madeBy {p : Json} {signer : AgentKey} {signature : Bytes} (hp : p.WellFormed)
    (hid : signer.keyId ≠ []) (hknown : keys.Knows signer)
    (haccepted : signer.keyType.verify signer.pair.publicKey signature
      (Jws.signedInput signer none p.normal.text.utf8) = true) :
    openNested ⟨(Jws.madeBy signer none p.normal.text.utf8 signature).serialized.utf8, kid,
        some signer.keyId⟩ keys =
      .ok ⟨p.normal, ⟨.signedEncrypted, [signer.keyId], some kid, some signer.keyId⟩⟩ := by
  have hhint : hintMatches (some signer.keyId) [signer.keyId] = true := by
    rw [hintMatches_iff]
    rintro _ ⟨⟩
    exact List.mem_singleton_self _
  unfold openNested Jws.serialized
  rw [decodePayload_text (Jws.settled_toJson _), ok_bind, Jws.ofJson_madeBy hid, ok_bind,
    Jws.verify_of_knows (Or.inl rfl) hknown haccepted, ok_bind]
  simp only [hhint, if_true, decodePayload_text (Json.settled_normal p hp), ok_bind]
  rfl

/-- Whatever has been encrypted is unpacked by a manager that holds one of the recipients' keys. The
sender is reported as it was named, and as the signer if the payload was signed. -/
theorem encrypted_round_trip (p : Json) (hp : p.WellFormed) (packer receiver : KeyManager)
    (recipients : List VerificationKey) (e : Entropy) (hids : ∀ r ∈ recipients, r.keyId ≠ [])
    (hheld : ∃ r ∈ recipients, receiver.hasKey r.keyId = true)
    (hreceives : receiver.Receives recipients e) :
    ∃ kid, (recipients.map VerificationKey.keyId).find? receiver.hasKey = some kid ∧
      (∀ sender t, pack (.ofJson p) (.encrypted sender recipients) packer e = .ok t →
        ∀ options : UnpackOptions, options.maxEnvelopeBytes.lt (.ofNat t.utf8.length) = false →
          options.expectedRecipientKid = none → options.requireSignature = false →
          (∀ expected ∈ options.expectedMode, expected = .encrypted) →
            unpack t receiver options = .ok ⟨p.normal, ⟨.encrypted, [], some kid, sender⟩⟩) ∧
      (∀ (signer : AgentKey) (t : Text), packer.get? signer.keyId = some signer →
        signer.keyId ≠ [] → receiver.Knows signer →
        signer.Accepts (Jws.signedInput signer none p.normal.text.utf8) →
        pack (.ofJson p) (.signedEncrypted signer.keyId recipients) packer e = .ok t →
        ∀ options : UnpackOptions, options.maxEnvelopeBytes.lt (.ofNat t.utf8.length) = false →
          options.expectedRecipientKid = none →
          (∀ expected ∈ options.expectedMode, expected = .signedEncrypted) →
            unpack t receiver options = .ok ⟨p.normal,
              ⟨.signedEncrypted, [signer.keyId], some kid, some signer.keyId⟩⟩) := by
  have hsome : ((recipients.map VerificationKey.keyId).find? receiver.hasKey).isSome = true := by
    obtain ⟨r, hr, hkey⟩ := hheld
    exact List.find?_isSome.mpr ⟨r.keyId, List.mem_map_of_mem hr, hkey⟩
  obtain ⟨kid, hfirst⟩ := Option.isSome_iff_exists.mp hsome
  refine ⟨kid, hfirst, ?_, ?_⟩
  · intro sender t hpack options hsize hany hunsigned hmode
    obtain ⟨j, hj, rfl⟩ := pack_encrypted_eq_ok hpack
    rw [unpack_of_create hj hids hreceives hfirst hsize hany hmode, if_neg nofun,
      checkUnsigned_eq_ok.mpr hunsigned, ok_bind, decodePayload_text (Json.settled_normal p hp)]
    rfl
  · intro signer t hsigner hid hknown haccepted hpack options hsize hany hmode
    obtain ⟨signature, j, hsignature, hj, rfl⟩ := pack_signedEncrypted_eq_ok hsigner hpack
    rw [unpack_of_create hj hids hreceives hfirst hsize hany hmode, if_pos rfl]
    exact openNested_madeBy hp hid hknown (haccepted signature hsignature)

/-- A recipient for the case that is run: its private key is one, so its point is the generator. -/
def recipientKey : AgentKey :=
  ⟨"did:example:bob", "did:example:bob#key",
    ⟨.ec .p256, Weierstrass.p256.generator.compressed, .ofNat 32 1⟩⟩

def recipientPublicKey : VerificationKey :=
  ⟨"did:example:bob#key", .ec (.ofPoint .p256 Weierstrass.p256.generator),
    Weierstrass.p256.generator.compressed⟩

/-- The key of that recipient is all that a manager has to hold for the recipients. -/
theorem receives_of_recipientKey
    (h : ∀ r ∈ recipients, ∀ key, keys.get? r.keyId = some key →
      r = recipientPublicKey ∧ key = recipientKey) : keys.Receives recipients UInt8.ofNat := by
  constructor
  · intro r hr key hget
    obtain ⟨rfl, rfl⟩ := h r hr key hget
    have hon : Weierstrass.p256.generator.On EcCurve.p256.group :=
      ⟨by decide, by decide, by decide, by decide +kernel⟩
    exact ⟨rfl, _, EcJwk.publicKey_ofPoint .p256 hon, by decide +kernel⟩
  · intro r hr key c hget hcurve
    obtain ⟨rfl, rfl⟩ := h r hr key hget
    obtain rfl := KeyType.ec.inj hcurve
    decide +kernel

/-- A recipient whose key the receiver does not hold, in front of the one whose key it holds. -/
def strangerFirst : List VerificationKey :=
  [⟨"did:example:erin#key", .ec (.ofPoint .p256 Weierstrass.p256.twiceGenerator),
      Weierstrass.p256.twiceGenerator.compressed⟩,
    recipientPublicKey]

set_option maxRecDepth 100000 in
theorem encrypted_round_trip_sample :
    ∃ t t', pack (.ofJson (.str "x")) (.encrypted none strangerFirst) ⟨[.sample], none⟩
          UInt8.ofNat = .ok t ∧
      unpack t ⟨[.sample, recipientKey], none⟩ { maxEnvelopeBytes := .infinite false } =
        .ok ⟨.str "x", ⟨.encrypted, [], some "did:example:bob#key", none⟩⟩ ∧
      pack (.ofJson (.str "x")) (.signedEncrypted "did:example:alice#key" strangerFirst)
          ⟨[.sample], none⟩ UInt8.ofNat = .ok t' ∧
      unpack t' ⟨[.sample, recipientKey], none⟩
          { requireSignature := true, maxEnvelopeBytes := .infinite false } =
        .ok ⟨.str "x", ⟨.signedEncrypted, ["did:example:alice#key"], some "did:example:bob#key",
          some "did:example:alice#key"⟩⟩ := by
  let receiver : KeyManager := ⟨[.sample, recipientKey], none⟩
  have hheld : ∀ r ∈ strangerFirst, ∀ key, receiver.get? r.keyId = some key →
      r = recipientPublicKey ∧ key = recipientKey := by
    have hkey : receiver.get? recipientPublicKey.keyId = some recipientKey := by decide +kernel
    intro r hr key hget
    rcases List.mem_cons.mp hr with rfl | hr
    · cases hget
    · obtain rfl := List.mem_singleton.mp hr
      exact ⟨rfl, Option.some.inj (hget.symm.trans hkey)⟩
  obtain ⟨kid, hfirst, hencrypted, hsigned⟩ := encrypted_round_trip (.str "x") trivial
    ⟨[.sample], none⟩ receiver strangerFirst UInt8.ofNat (by decide)
    ⟨recipientPublicKey, List.mem_cons_of_mem _ (List.mem_singleton_self _), by decide⟩
    (receives_of_recipientKey hheld)
  have hfound : (strangerFirst.map VerificationKey.keyId).find? receiver.hasKey =
      some "did:example:bob#key" := by decide
  obtain rfl := Option.some.inj (hfirst.symm.trans hfound)
  have hrun : (pack (.ofJson (.str "x")) (.encrypted none strangerFirst) ⟨[.sample], none⟩
      UInt8.ofNat).toOption.isSome = true := by decide +kernel
  have hrun' : (pack (.ofJson (.str "x")) (.signedEncrypted "did:example:alice#key" strangerFirst)
      ⟨[.sample], none⟩ UInt8.ofNat).toOption.isSome = true := by
    decide +kernel
  obtain ⟨t, ht⟩ := exists_ok hrun
  obtain ⟨t', ht'⟩ := exists_ok hrun'
  refine ⟨t, t', ht, ?_, ht', ?_⟩
  · exact hencrypted none t ht _ (infinite_lt _) rfl rfl fun _ h => (nomatch h)
  · exact hsigned .sample t' (by decide +kernel) (by decide) (by decide +kernel)
      (by decide +kernel) ht' _ (infinite_lt _) rfl fun _ h => (nomatch h)

end Envelope
end SealedEnvelope
