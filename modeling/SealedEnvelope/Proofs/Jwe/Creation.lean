import SealedEnvelope.Proofs.Jwe.Opening
import SealedEnvelope.Proofs.Jwe.WrappingKey
import SealedEnvelope.Proofs.Key.Verification

/-!
# When an envelope is made

An envelope is made for recipients with different ids and keys on one curve, given that the ephemeral
key reaches all of them: the point that it agrees on with each one exists. Nothing else can go wrong, and
each of the ways not to make an envelope has its own error. What has been made has an entry for each
recipient, is read back from its text and is opened by each recipient's private key.

A recipient of P-256 whose point has the horizontal coordinate zero is a valid verification key, but no
ephemeral key reaches it, because such a point is not decoded again once it is compressed.
-/

namespace SealedEnvelope

/-! ### Recipients -/

theorem sharedCurveFrom_of_forall {recipients : List VerificationKey} {c : EcCurve}
    (h : ∀ r ∈ recipients, r.keyType = .ec c) : sharedCurveFrom (some c) recipients = .ok c := by
  induction recipients with
  | nil => rfl
  | cons r rest ih =>
    obtain ⟨hr, hrest⟩ := List.forall_mem_cons.mp h
    cases hjwk : r.jwk with
    | okp key => simp [VerificationKey.keyType, hjwk, PublicJwk.keyType] at hr
    | ec key =>
      have hcurve : c = key.curve := by
        simpa [VerificationKey.keyType, hjwk, PublicJwk.keyType, eq_comm] using hr
      simp [sharedCurveFrom, hjwk, ← hcurve, ih hrest]

theorem sharedCurve_eq_ok {recipients : List VerificationKey} {c : EcCurve} :
    sharedCurve recipients = .ok c ↔ recipients ≠ [] ∧ ∀ r ∈ recipients, r.keyType = .ec c := by
  constructor
  · intro h
    refine ⟨?_, keyType_of_sharedCurve h⟩
    rintro rfl
    cases h
  · rintro ⟨hne, h⟩
    cases recipients with
    | nil => exact absurd rfl hne
    | cons r rest =>
      obtain ⟨hr, hrest⟩ := List.forall_mem_cons.mp h
      cases hjwk : r.jwk with
      | okp key => simp [VerificationKey.keyType, hjwk, PublicJwk.keyType] at hr
      | ec key =>
        have hcurve : key.curve = c := by
          simpa [VerificationKey.keyType, hjwk, PublicJwk.keyType] using hr
        simp only [sharedCurve, sharedCurveFrom, hjwk, hcurve]
        exact sharedCurveFrom_of_forall hrest

/-- Recipients that are not on one curve are refused for their keys, and no recipients for their
number. -/
theorem failsAs_sharedCurveFrom (before : Option EcCurve) (recipients : List VerificationKey) :
    FailsAs (fun e => e = .noRecipients ∧ before = none ∧ recipients = [] ∨
      e.code? = some .unsupportedAlgorithm) (sharedCurveFrom before recipients) := by
  induction recipients generalizing before with
  | nil => cases before <;> simp [sharedCurveFrom]
  | cons r rest ih =>
    cases hjwk : r.jwk with
    | okp key => cases before <;> simp [sharedCurveFrom, hjwk, Error.code?]
    | ec key =>
      cases before with
      | none => simpa [sharedCurveFrom, hjwk] using ih (some key.curve)
      | some c =>
        by_cases hsame : c = key.curve
        · simpa [sharedCurveFrom, hjwk, hsame] using ih (some key.curve)
        · simp [sharedCurveFrom, hjwk, hsame, Error.code?]

/-! ### The content key -/

/-- Whether the ephemeral key of a stream can be written down, and agrees on a point with each of the
recipients' keys. -/
def Ephemeral.Reaches (c : EcCurve) (e : Entropy) (recipients : List VerificationKey) : Prop :=
  (∃ ephemeral, fresh c e = .ok ephemeral) ∧
    ∀ r ∈ recipients, (c.sharedSecret? (c.freshPrivateKey e) r.publicKey).isSome = true

theorem Ephemeral.failsAs_fresh (c : EcCurve) (e : Entropy) :
    FailsAs (fun err => err = .refused) (fresh c e) := by
  unfold fresh
  generalize c.freshPrivateKey e = privateKey
  cases h : ((KeyType.ec c).publicKey? privateKey).bind (EcJwk.ofPublicKey? c) <;> simp [h]

/-- Whether the ephemeral key of a stream and a recipient's private key come to one secret. -/
def Ephemeral.Agrees (c : EcCurve) (e : Entropy) (r : VerificationKey) : Prop :=
  ∃ A b secret, (KeyType.ec c).publicKey? (c.freshPrivateKey e) = some A ∧
    (KeyType.ec c).publicKey? b = some r.publicKey ∧
    c.sharedSecret? (c.freshPrivateKey e) r.publicKey = some secret ∧
    c.sharedSecret? b A = some secret

theorem Ephemeral.reaches_of_agrees {c : EcCurve} {e : Entropy} {recipients : List VerificationKey}
    (hne : recipients ≠ []) (h : ∀ r ∈ recipients, Agrees c e r) : Reaches c e recipients := by
  obtain ⟨r, hr⟩ := List.exists_mem_of_ne_nil recipients hne
  obtain ⟨A, b, secret, hA, -, -, hsecret⟩ := h r hr
  constructor
  · -- The recipient's side reads the ephemeral point, so it can be written down.
    have hpoint : ∃ q, c.group.decode? A = some q := by
      cases hq : c.group.decode? A with
      | none => cases hk : c.group.scalar? b <;> simp [EcCurve.sharedSecret?, hq, hk] at hsecret
      | some q => exact ⟨q, rfl⟩
    obtain ⟨q, hq⟩ := hpoint
    have hepk : EcJwk.ofPublicKey? c A = some (.ofPoint c q) := by simp [EcJwk.ofPublicKey?, hq]
    unfold fresh
    generalize c.freshPrivateKey e = privateKey at hA ⊢
    simp [hA, hepk]
  · intro r hr
    obtain ⟨_, _, secret, -, -, hagreed, -⟩ := h r hr
    simp [hagreed]

section Entries

variable {c : EcCurve} {e : Entropy} {ephemeral : Ephemeral} {contentKey : Bytes}
  {senderKid : Option Text}

theorem wrapFor_cases (senderKid : Option Text) {r : VerificationKey}
    (hephemeral : Ephemeral.fresh c e = .ok ephemeral) (hr : r.Consistent) (hkey : contentKey.length = 32) :
    ((∃ wrapped, wrapFor ephemeral r contentKey senderKid = .ok wrapped) ↔
        (c.sharedSecret? (c.freshPrivateKey e) r.publicKey).isSome = true) ∧
      FailsAs (fun err => err = .refused) (wrapFor ephemeral r contentKey senderKid) := by
  obtain ⟨hcurve, hprivate, -⟩ := Ephemeral.fresh_eq_ok hephemeral
  rw [wrapFor_eq hr, hcurve, hprivate]
  cases c.sharedSecret? (c.freshPrivateKey e) r.publicKey with
  | none =>
    refine ⟨⟨?_, ?_⟩, failsAs_error.mpr rfl⟩
    · rintro ⟨_, h⟩
      cases h
    · intro h
      cases h
  | some secret =>
    have hwrapped : KeyWrap.wrap (wrappingKey secret senderKid r.keyId) contentKey =
        .ok (KeyWrap.wrapWith (Aes.cipher (wrappingKey secret senderKid r.keyId)) contentKey) := by
      simp [KeyWrap.wrap, length_wrappingKey, hkey]
    simp [hwrapped]

namespace Jwe

theorem entriesFor_cases (senderKid : Option Text) {recipients : List VerificationKey}
    (hephemeral : Ephemeral.fresh c e = .ok ephemeral)
    (hrecipients : ∀ r ∈ recipients, r.Consistent) (hkey : contentKey.length = 32) :
    ((∃ entries, entriesFor ephemeral contentKey senderKid recipients = .ok entries) ↔
        ∀ r ∈ recipients, (c.sharedSecret? (c.freshPrivateKey e) r.publicKey).isSome = true) ∧
      FailsAs (fun err => err = .refused)
        (entriesFor ephemeral contentKey senderKid recipients) := by
  induction recipients with
  | nil => simp [entriesFor]
  | cons r rest ih =>
    obtain ⟨hr, hrest⟩ := List.forall_mem_cons.mp hrecipients
    obtain ⟨hwraps, hfails⟩ := wrapFor_cases senderKid hephemeral hr hkey
    obtain ⟨hentries, hfail⟩ := ih hrest
    rw [List.forall_mem_cons, ← hwraps, ← hentries]
    constructor
    · simp only [entriesFor, entryFor, bind_eq_ok]
      constructor
      · rintro ⟨_, _, ⟨wrapped, hwrapped, -⟩, others, hothers, -⟩
        exact ⟨⟨wrapped, hwrapped⟩, others, hothers⟩
      · rintro ⟨⟨wrapped, hwrapped⟩, others, hothers⟩
        exact ⟨_, _, ⟨wrapped, hwrapped, rfl⟩, others, hothers, rfl⟩
    · refine FailsAs.bind (FailsAs.bind hfails fun _ _ => failsAs_pure _) fun _ _ => ?_
      exact FailsAs.bind hfail fun _ _ => failsAs_pure _

theorem senderKid_of_entriesFor {recipients : List VerificationKey} {entries : List JweRecipient}
    (h : entriesFor ephemeral contentKey senderKid recipients = .ok entries) :
    ∀ entry ∈ entries, entry.senderKid = senderKid := by
  replace h := entriesFor_eq_ok.mp h
  induction h with
  | nil => exact fun _ hentry => absurd hentry List.not_mem_nil
  | cons hentry _ ih =>
    obtain ⟨wrapped, -, rfl⟩ := entryFor_eq_ok hentry
    exact List.forall_mem_cons.mpr ⟨rfl, ih⟩

end Jwe

end Entries

namespace Jwe

/-! ### Envelopes -/

variable {plaintext : Bytes} {recipients : List VerificationKey} {options : JweOptions} {e : Entropy}
  {j : Jwe} {c : EcCurve}

/-- For recipients with different ids on one curve, the ephemeral key decides. -/
theorem create_cases (hrecipients : ∀ r ∈ recipients, r.Consistent)
    (hnodup : (recipients.map VerificationKey.keyId).Nodup) (hcurve : sharedCurve recipients = .ok c) :
    ((∃ j, create plaintext recipients options e = .ok j) ↔ Ephemeral.Reaches c e recipients) ∧
      FailsAs (fun err => err = .refused) (create plaintext recipients options e) := by
  have hkey : (Content.freshKey (e.after Ephemeral.drawn)).length = 32 := Entropy.length_first _ _
  simp only [create, hnodup, not_true, if_false, hcurve, ok_bind]
  cases hephemeral : Ephemeral.fresh c e with
  | error err =>
    have hrefused : err = .refused := Ephemeral.failsAs_fresh c e err hephemeral
    refine ⟨⟨?_, ?_⟩, failsAs_error.mpr hrefused⟩
    · rintro ⟨_, h⟩
      cases h
    · rintro ⟨⟨ephemeral, h⟩, -⟩
      cases hephemeral.symm.trans h
  | ok ephemeral =>
    obtain ⟨content, hcontent⟩ := Content.exists_sealed (e.after Ephemeral.drawn)
      (e.after (Ephemeral.drawn + Content.keyLength)) plaintext
      (madeHeader recipients options ephemeral.epk).encode.utf8
    obtain ⟨hentries, hfails⟩ :=
      entriesFor_cases options.senderKid hephemeral hrecipients hkey
    unfold madeHeader at hcontent
    simp only [ok_bind, hcontent]
    constructor
    · rw [Ephemeral.Reaches, ← hentries]
      constructor
      · rintro ⟨_, h⟩
        obtain ⟨entries, hmade, -⟩ := bind_eq_ok.mp h
        exact ⟨⟨ephemeral, hephemeral⟩, entries, hmade⟩
      · rintro ⟨-, entries, hmade⟩
        exact ⟨_, bind_eq_ok.mpr ⟨entries, hmade, rfl⟩⟩
    · exact FailsAs.bind hfails fun _ _ => failsAs_pure _

/-- What an envelope that has been made does for its recipients. -/
structure Delivers (j : Jwe) (plaintext : Bytes) (recipients : List VerificationKey)
    (senderKid : Option Text) (e : Entropy) : Prop where
  /-- There is one entry for each recipient, in their order. -/
  kids : j.recipients.map JweRecipient.kid = recipients.map VerificationKey.keyId
  sender : ∀ entry ∈ j.recipients, entry.senderKid = senderKid
  /-- The envelope is read back from its text. -/
  read : (∀ r ∈ recipients, r.keyId ≠ []) →
    ∃ v, Json.parse? j.serialized = some v ∧ ofJson (some v) = .ok j
  /-- A recipient's private key opens the envelope if the two sides come to one secret. -/
  opened : ∀ r ∈ recipients, ∀ c b, r.keyType = .ec c →
    (KeyType.ec c).publicKey? b = some r.publicKey → c.Symmetric (c.freshPrivateKey e) b →
    j.opened ⟨r.keyId, c, c.sharedSecret? b⟩ = .ok ⟨plaintext, r.keyId, senderKid⟩

theorem delivers_of_create (hrecipients : ∀ r ∈ recipients, r.Consistent)
    (h : create plaintext recipients options e = .ok j) :
    j.Delivers plaintext recipients options.senderKid e := by
  obtain ⟨c, ephemeral, header, -, -, -, hseals⟩ := create_eq_ok h
  refine ⟨map_kid_of_entriesFor hseals.entries, senderKid_of_entriesFor hseals.entries, ?_, ?_⟩
  · intro hids
    exact ⟨j.toJson, Json.parse?_text j.settled_toJson, ofJson_of_create h hids⟩
  · intro r hr c b hkeyType hb hsymmetric
    let key : AgentKey := ⟨[], r.keyId, ⟨.ec c, r.publicKey, b⟩⟩
    have hmatches : key.Matches r := ⟨hkeyType.symm, _, hrecipients r hr, hb⟩
    have hopened := @opened_of_create plaintext recipients options e j c r key h hr hkeyType rfl
      hmatches hsymmetric
    exact hopened

/-- Why no envelope is made, with the error that says so: repeated ids come first, then the keys, then
that there are no recipients. An ephemeral key that does not reach all recipients has no code. -/
inductive Unmade (recipients : List VerificationKey) (e : Entropy) : Error → Prop
  | repeated (h : ¬(recipients.map VerificationKey.keyId).Nodup) :
    Unmade recipients e .duplicateRecipient
  | keys {err : Error} (hnodup : (recipients.map VerificationKey.keyId).Nodup)
    (h : ¬∃ c, ∀ r ∈ recipients, r.keyType = .ec c) (herr : err.code? = some .unsupportedAlgorithm) :
    Unmade recipients e err
  | nobody (h : recipients = []) : Unmade recipients e .noRecipients
  | unreached {c : EcCurve} (hnodup : (recipients.map VerificationKey.keyId).Nodup)
    (hne : recipients ≠ []) (hcurve : ∀ r ∈ recipients, r.keyType = .ec c)
    (h : ¬Ephemeral.Reaches c e recipients) : Unmade recipients e .refused

theorem unmade_of_sharedCurve {err : Error} (hnodup : (recipients.map VerificationKey.keyId).Nodup)
    (h : sharedCurve recipients = .error err) : Unmade recipients e err := by
  rcases failsAs_sharedCurveFrom none recipients err h with ⟨rfl, -, hnone⟩ | hcode
  · exact .nobody hnone
  · refine .keys hnodup ?_ hcode
    rintro ⟨c, hcurve⟩
    by_cases hnone : recipients = []
    · subst hnone
      obtain rfl := Except.error.inj h
      cases hcode
    · cases h.symm.trans (sharedCurve_eq_ok.mpr ⟨hnone, hcurve⟩)

/-- An envelope is made exactly for recipients with different ids and keys on one curve that the
ephemeral key reaches, as it does if both sides come to one secret. Whatever stands against it has its
own error. -/
theorem create_outcome (hrecipients : ∀ r ∈ recipients, r.Constructed) (plaintext : Bytes)
    (options : JweOptions) (e : Entropy) :
    ((∃ j, create plaintext recipients options e = .ok j) ↔
      recipients ≠ [] ∧ (recipients.map VerificationKey.keyId).Nodup ∧
        ∃ c, (∀ r ∈ recipients, r.keyType = .ec c) ∧ Ephemeral.Reaches c e recipients) ∧
    (recipients ≠ [] → ∀ c, (∀ r ∈ recipients, Ephemeral.Agrees c e r) →
      Ephemeral.Reaches c e recipients) ∧
    (∀ err, create plaintext recipients options e = .error err → Unmade recipients e err) ∧
    ∀ j, create plaintext recipients options e = .ok j →
      j.Delivers plaintext recipients options.senderKid e := by
  replace hrecipients : ∀ r ∈ recipients, r.Consistent := fun r hr => (hrecipients r hr).consistent
  refine ⟨⟨?_, ?_⟩, fun hne c => Ephemeral.reaches_of_agrees hne, ?_,
    fun j => delivers_of_create hrecipients⟩
  · rintro ⟨j, hj⟩
    obtain ⟨c, ephemeral, header, hcurve, -, -, hseals⟩ := create_eq_ok hj
    obtain ⟨hne, hkeyTypes⟩ := sharedCurve_eq_ok.mp hcurve
    exact ⟨hne, hseals.nodup, c, hkeyTypes,
      (create_cases hrecipients hseals.nodup hcurve).1.mp ⟨j, hj⟩⟩
  · rintro ⟨hne, hnodup, c, hkeyTypes, hreaches⟩
    have hcurve := sharedCurve_eq_ok.mpr ⟨hne, hkeyTypes⟩
    exact (create_cases hrecipients hnodup hcurve).1.mpr hreaches
  · intro err herr
    by_cases hnodup : (recipients.map VerificationKey.keyId).Nodup
    · cases hcurve : sharedCurve recipients with
      | error err' =>
        simp only [create, hnodup, not_true, if_false, hcurve, error_bind] at herr
        obtain rfl := Except.error.inj herr
        exact unmade_of_sharedCurve hnodup hcurve
      | ok c =>
        obtain ⟨hne, hkeyTypes⟩ := sharedCurve_eq_ok.mp hcurve
        obtain ⟨hmade, hfails⟩ := create_cases hrecipients hnodup hcurve
        obtain rfl := hfails err herr
        refine .unreached hnodup hne hkeyTypes fun hreaches => ?_
        obtain ⟨j, hj⟩ := hmade.mpr hreaches
        cases herr.symm.trans hj
    · simp only [create, hnodup, not_false_eq_true, if_true] at herr
      obtain rfl := Except.error.inj herr
      exact .repeated hnodup

/-- A recipient whose private key is one, so that its point is the generator. -/
def samplePublicKey : VerificationKey :=
  ⟨"did:example:dora#key", .ec (.ofPoint .secp256k1 Weierstrass.secp256k1.generator),
    Weierstrass.secp256k1.generator.compressed⟩

theorem constructed_samplePublicKey : samplePublicKey.Constructed :=
  .ofPoint ⟨by decide, by decide, by decide, by decide +kernel⟩ (by decide +kernel) _

/-- A recipient whose private key is two. -/
def otherPublicKey : VerificationKey :=
  ⟨"did:example:erin#key", .ec (.ofPoint .secp256k1 Weierstrass.secp256k1.twiceGenerator),
    Weierstrass.secp256k1.twiceGenerator.compressed⟩

theorem constructed_otherPublicKey : otherPublicKey.Constructed :=
  .ofPoint ⟨by decide +kernel, by decide +kernel, by decide +kernel, by decide +kernel⟩
    (by decide +kernel) _

/-- Either of two recipients opens the envelope with its own key. -/
theorem create_outcome_sample :
    ∃ j, create [42] [otherPublicKey, samplePublicKey] {} UInt8.ofNat = .ok j ∧
      j.opened ⟨"did:example:erin#key", .secp256k1, EcCurve.secp256k1.sharedSecret? (.ofNat 32 2)⟩ =
        .ok ⟨[42], "did:example:erin#key", none⟩ ∧
      j.opened ⟨"did:example:dora#key", .secp256k1, EcCurve.secp256k1.sharedSecret? (.ofNat 32 1)⟩ =
        .ok ⟨[42], "did:example:dora#key", none⟩ := by
  have hrun : (create [42] [otherPublicKey, samplePublicKey] {} UInt8.ofNat).toOption.isSome
      = true := by
    decide +kernel
  obtain ⟨j, hj⟩ := exists_ok hrun
  have hconstructed : ∀ r ∈ [otherPublicKey, samplePublicKey], r.Constructed :=
    List.forall_mem_cons.mpr
      ⟨constructed_otherPublicKey, List.forall_mem_singleton.mpr constructed_samplePublicKey⟩
  obtain ⟨-, -, -, hmade⟩ := create_outcome hconstructed [42] {} UInt8.ofNat
  refine ⟨j, hj, ?_, ?_⟩
  · exact (hmade j hj).opened otherPublicKey List.mem_cons_self .secp256k1 (.ofNat 32 2) rfl
      (by decide +kernel) (by decide +kernel)
  · exact (hmade j hj).opened samplePublicKey (List.mem_cons_of_mem _ (List.mem_singleton_self _))
      .secp256k1 (.ofNat 32 1) rfl (by decide +kernel) (by decide +kernel)

/-! ### The point at coordinate zero -/

theorem not_reaches_of_zero {r : VerificationKey} (hr : r ∈ recipients) {y : Nat}
    (hzero : r.publicKey = Weierstrass.Affine.compressed ⟨0, y⟩) :
    ¬Ephemeral.Reaches c e recipients := by
  rintro ⟨-, hreached⟩
  have hnone : c.group.decode? r.publicKey = none := by
    rw [hzero, Weierstrass.decode?_compressed c.group (Nat.pow_pos (by decide)),
      Weierstrass.lift?_zero]
  have hreach := hreached r hr
  generalize c.freshPrivateKey e = privateKey at hreach
  cases hk : c.group.scalar? privateKey <;> simp [EcCurve.sharedSecret?, hnone, hk] at hreach

theorem create_of_zero {r : VerificationKey} (hrecipients : ∀ r ∈ recipients, r.Consistent)
    (hnodup : (recipients.map VerificationKey.keyId).Nodup) (hcurve : sharedCurve recipients = .ok c)
    (hr : r ∈ recipients) {y : Nat} (hzero : r.publicKey = Weierstrass.Affine.compressed ⟨0, y⟩) :
    create plaintext recipients options e = .error .refused := by
  obtain ⟨hmade, hfails⟩ := @create_cases plaintext recipients options e c hrecipients hnodup hcurve
  cases hcreate : create plaintext recipients options e with
  | ok j => exact absurd (hmade.mp ⟨j, hcreate⟩) (not_reaches_of_zero hr hzero)
  | error err => rw [hfails err hcreate]

/-- A point of P-256 with the coordinate zero. -/
def zeroPoint : Weierstrass.Affine :=
  ⟨0, 0x66485c780e2f83d72433bd5d84a06bb6541c2af31dae871728bf856a174f93f4⟩

/-- A verification key with that point is accepted, and then no envelope is made for it alone. -/
theorem zero_coordinate_refused :
    ∃ r, VerificationKey.ofJwk "did:example:zoe#key" (some (EcJwk.ofPoint .p256 zeroPoint).toJson) =
        .ok r ∧
      r.keyType = .ec .p256 ∧
      ∀ plaintext options e, create plaintext [r] options e = .error .refused := by
  have hpublic : (EcJwk.ofPoint .p256 zeroPoint).publicKey = .ok zeroPoint.compressed :=
    EcJwk.publicKey_ofPoint .p256 ⟨by decide, by decide, by decide, by decide +kernel⟩
  have hread : VerificationKey.ofJwk "did:example:zoe#key"
      (some (EcJwk.ofPoint .p256 zeroPoint).toJson) =
        .ok ⟨"did:example:zoe#key", .ec (.ofPoint .p256 zeroPoint), zeroPoint.compressed⟩ := by
    simp only [VerificationKey.ofJwk, PublicJwk.schema, Schema.either, Schema.map,
      EcJwk.schema_toJson]
    change (PublicJwk.ec (.ofPoint .p256 zeroPoint)).publicKey >>= _ = _
    rw [show (PublicJwk.ec (.ofPoint .p256 zeroPoint)).publicKey = .ok zeroPoint.compressed from
      hpublic]
    rfl
  refine ⟨_, hread, rfl, fun plaintext options e => ?_⟩
  have hconsistent := (VerificationKey.Constructed.ofJwk hread).consistent
  exact create_of_zero (List.forall_mem_singleton.mpr hconsistent) (by simp) rfl List.mem_cons_self rfl

end Jwe
end SealedEnvelope
