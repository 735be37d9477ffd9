import SealedEnvelope.Proofs.Envelope.Candidates
import SealedEnvelope.Proofs.Key.Changes

/-!
# How unpacking fails

Each step of unpacking reports its failures under its own code: the size, the shape, the sealed content,
the policy of the caller. What a signed envelope fails with is told only where such an envelope was
being verified. No other code comes out, whatever the text and the keys are, unless a resolver of the
caller's own reports one.
-/

namespace SealedEnvelope

namespace Jws

/-- An envelope that is not verified has no signatures, or one that is rejected or whose key is not
found, or a payload that is not encoded. -/
theorem failsAs_verify {lookup : Text → Except Error VerificationKey} (j : Jws)
    (hlookup : ∀ kid, FailsAs (fun e => e.code? = some .keyNotFound) (lookup kid)) :
    FailsAs (fun e => e.code? = some .keyNotFound ∨ e.code? = some .verificationFailed ∨
      e.code? = some .invalidFormat) (j.verify lookup) := by
  intro e he
  cases verify_eq_error_iff.mp he with
  | unsigned _ => exact .inr (.inl rfl)
  | payload _ _ _ => exact .inr (.inr rfl)
  | @entry _ _ s _ _ _ hfault =>
    rcases hfault.told with hunknown | ⟨hrejected, -⟩
    · exact .inl (hlookup s.kid e hunknown)
    · exact .inr (.inl hrejected)

end Jws

namespace Envelope

theorem failsAs_ofText (t : Text) :
    FailsAs (fun e => e.code? = some .serializationError ∨ e.code? = some .decryptionFailed)
      (Wire.ofText t) := by
  simp only [Wire.ofText]
  split
  · refine (Wire.failsAs_ofJson _).mono ?_
    intro e he
    cases he <;> simp [Error.code?]
  · split
    · refine ((Jws.failsAs_ofCompact _).mono ?_).map _
      intro e he
      cases he <;> simp [Error.code?]
    · simp [Error.code?]

theorem failsAs_decodePayload (b : Bytes) (what : Text) :
    FailsAs (fun e => e.code? = some .serializationError) (decodePayload b what) := by
  simp only [decodePayload]
  split
  · simp [Error.code?]
  · exact Json.failsAs_parse rfl

theorem failsAs_checkUnsigned (mode : EnvelopeMode) (options : UnpackOptions) :
    FailsAs (fun e => e.code? = some .policyViolation) (checkUnsigned mode options) := by
  simp only [checkUnsigned]
  split <;> simp [Error.code?]

theorem failsAs_checkMode (mode : EnvelopeMode) (options : UnpackOptions) :
    FailsAs (fun e => e.code? = some .policyViolation) (checkMode mode options) := by
  simp only [checkMode]
  split
  · simp
  · split <;> simp [Error.code?]

/-! ### Why a text is not unpacked -/

/-- Whether a text takes more bytes than the limit. -/
def IsTooLarge (transport : Text) (options : UnpackOptions) : Prop :=
  options.maxEnvelopeBytes.lt (.ofNat transport.utf8.length) = true

/-- Whether an error is what a signed envelope in the text is refused with: it is not verified, or the
envelope around it names a sender who is not among the signers. -/
def Refuses (transport : Text) (keys : KeyManager) (e : Error) : Prop :=
  ∃ j mode hint, Carries transport keys j mode hint ∧
    (j.verify keys.verificationKey = .error e ∨
      ∃ verified, j.verify keys.verificationKey = .ok verified ∧
        hintMatches hint verified.signerKids = false ∧ e = .senderMismatch)

/-- The reasons for which a text within the limit is not unpacked, with the codes that go with them. -/
inductive Reason (transport : Text) (keys : KeyManager) (e : Error) : Prop
  | shape (h : e.code? = some .serializationError)
  | content (h : e.code? = some .decryptionFailed)
  | policy (h : e.code? = some .policyViolation)
  | signature (h : e.code? = some .keyNotFound ∨ e.code? = some .verificationFailed ∨
      e.code? = some .invalidFormat) (hrefused : Refuses transport keys e)

variable {transport : Text} {keys : KeyManager} {options : UnpackOptions}

theorem failsAs_verify {j : Jws} {mode : EnvelopeMode} {hint : Option Text}
    (hkeys : ∀ kid, FailsAs (fun e => e.code? = some .keyNotFound) (keys.verificationKey kid))
    (hj : Carries transport keys j mode hint) :
    FailsAs (Reason transport keys) (j.verify keys.verificationKey) := by
  intro e he
  exact .signature (j.failsAs_verify hkeys e he) ⟨j, mode, hint, hj, .inl he⟩

theorem failsAs_openSigned {j : Jws} {mode : EnvelopeMode} {hint : Option Text}
    (hkeys : ∀ kid, FailsAs (fun e => e.code? = some .keyNotFound) (keys.verificationKey kid))
    (hj : Carries transport keys j mode hint) :
    FailsAs (Reason transport keys) (openSigned j keys) := by
  refine FailsAs.bind (failsAs_verify hkeys hj) ?_
  intro verified _
  refine FailsAs.bind ((failsAs_decodePayload _ _).mono fun _ => .shape) ?_
  simp

theorem failsAs_openNested {outer : Json} {jwe : Jwe} {kid : Text} {opened : OpenedJwe}
    (hkeys : ∀ kid, FailsAs (fun e => e.code? = some .keyNotFound) (keys.verificationKey kid))
    (houter : Json.parse? transport.trim = some outer) (hjwe : Jwe.ofJson (some outer) = .ok jwe)
    (hopened : openWith jwe keys kid = .ok opened) :
    FailsAs (Reason transport keys) (openNested opened keys) := by
  refine FailsAs.bind ((failsAs_decodePayload _ _).mono fun _ => .shape) ?_
  intro inner hinner
  refine FailsAs.bind (Schema.failsAs_read fun _ => .shape rfl) ?_
  intro j hj
  have hcarries : Carries transport keys j .signedEncrypted opened.senderKidHint :=
    .nested houter hjwe hopened hinner hj
  refine FailsAs.bind (failsAs_verify hkeys hcarries) ?_
  intro verified hverified
  by_cases hhint : hintMatches opened.senderKidHint verified.signerKids = true
  · rw [if_pos hhint]
    refine FailsAs.bind ((failsAs_decodePayload _ _).mono fun _ => .shape) ?_
    simp
  · rw [if_neg hhint]
    refine failsAs_error.mpr ?_
    refine .signature (.inr (.inl rfl)) ⟨j, _, _, hcarries, .inr ⟨verified, hverified, ?_, rfl⟩⟩
    simpa using hhint

theorem failsAs_openEncrypted {outer : Json} {jwe : Jwe} (header : JweHeader)
    (hkeys : ∀ kid, FailsAs (fun e => e.code? = some .keyNotFound) (keys.verificationKey kid))
    (houter : Json.parse? transport.trim = some outer) (hjwe : Jwe.ofJson (some outer) = .ok jwe) :
    FailsAs (Reason transport keys) (openEncrypted jwe header keys options) := by
  have hdecrypted : FailsAs (Reason transport keys) (openFirst jwe keys (.notRecipient none)
      (candidates jwe keys options.expectedRecipientKid)) := by
    intro e he
    have hcode := (decrypted_cases jwe keys options.expectedRecipientKid).2 e he
    exact .content (of_decide_eq_true hcode)
  apply FailsAs.bind hdecrypted
  intro opened hfirst
  obtain ⟨kid, -, hopened⟩ := openFirst_eq_ok hfirst
  by_cases hnested : Wire.isNested header = true
  · rw [if_pos hnested]
    exact failsAs_openNested hkeys houter hjwe hopened
  · rw [if_neg hnested]
    refine FailsAs.bind ((failsAs_checkUnsigned _ _).mono fun _ => .policy) ?_
    intro _ _
    refine FailsAs.bind ((failsAs_decodePayload _ _).mono fun _ => .shape) ?_
    simp

theorem failsAs_openWire {w : Wire}
    (hkeys : ∀ kid, FailsAs (fun e => e.code? = some .keyNotFound) (keys.verificationKey kid))
    (hw : Wire.ofText transport.trim = .ok w) :
    FailsAs (Reason transport keys) (openWire w keys options) := by
  cases w with
  | plain payload =>
    refine FailsAs.bind ((failsAs_checkUnsigned _ _).mono fun _ => .policy) ?_
    simp
  | signed j =>
    refine FailsAs.bind (failsAs_openSigned hkeys (signed_of_ofText hw)) ?_
    simp
  | encrypted jwe header =>
    obtain ⟨outer, houter, hjwe⟩ := encrypted_of_ofText hw
    exact failsAs_openEncrypted header hkeys houter hjwe

theorem failsAs_unpack
    (hkeys : ∀ kid, FailsAs (fun e => e.code? = some .keyNotFound) (keys.verificationKey kid))
    (hsize : ¬IsTooLarge transport options) :
    FailsAs (Reason transport keys) (unpack transport keys options) := by
  have hchecked : checkSize transport options = .ok () := by
    simpa [checkSize_eq_ok, IsTooLarge] using hsize
  simp only [unpack, hchecked, ok_bind]
  have hread : FailsAs (Reason transport keys) (Wire.ofText transport.trim) := by
    refine (failsAs_ofText _).mono ?_
    rintro e (he | he)
    · exact .shape he
    · exact .content he
  refine hread.bind ?_
  intro w hw
  refine FailsAs.bind ((failsAs_checkMode _ _).mono fun _ => .policy) ?_
  intro _ _
  exact failsAs_openWire hkeys hw

theorem unpack_of_isTooLarge (h : IsTooLarge transport options) :
    unpack transport keys options =
      .error (.envelopeTooLarge transport.utf8.length options.maxEnvelopeBytes) := by
  have hchecked : checkSize transport options =
      .error (.envelopeTooLarge transport.utf8.length options.maxEnvelopeBytes) := if_pos h
  simp only [unpack, hchecked]
  rfl

def failureCodes : List ErrorCode :=
  [.invalidParameter, .serializationError, .invalidFormat, .keyNotFound, .verificationFailed,
    .decryptionFailed, .policyViolation]

/-- Whatever keys a manager has come to hold, unpacking fails with one of seven codes. One of them says
that the text is too large, and three of them that a signed envelope in the text was refused. -/
theorem unpack_failure {resolver : Option Resolver} {changes : List KeyManager.Change}
    (hresolver : ∀ r ∈ resolver, r.BuiltIn)
    (hadded : ∀ key, .add key ∈ changes → key.Derived)
    (hpoints : ∀ key ∈ ((KeyManager.empty resolver).run changes).keys,
      ∀ b, key.keyType.publicKey? key.pair.privateKey = some b → key.keyType.IsPoint b)
    (transport : Text) (options : UnpackOptions) :
    ((∃ e, unpack transport ((KeyManager.empty resolver).run changes) options = .error e ∧
        e.code? = some .invalidParameter) ↔
      options.maxEnvelopeBytes.lt (.ofNat transport.utf8.length) = true) ∧
    ∀ e, unpack transport ((KeyManager.empty resolver).run changes) options = .error e →
      ∃ code ∈ failureCodes, e.code? = some code ∧
        (code ∈ [ErrorCode.keyNotFound, .verificationFailed, .invalidFormat] →
          Refuses transport ((KeyManager.empty resolver).run changes) e) := by
  have hderived := KeyManager.derived_run (m := .empty resolver) (by simp [KeyManager.empty]) hadded
  have hresolver' := KeyManager.resolver_run (.empty resolver) changes
  generalize (KeyManager.empty resolver).run changes = keys at *
  have hkeys : ∀ kid, FailsAs (fun e => e.code? = some .keyNotFound) (keys.verificationKey kid) := by
    intro kid
    apply KeyManager.failsAs_verificationKey kid
    · intro key hkey
      exact hpoints key hkey _ (hderived key hkey)
    · rw [hresolver']
      exact hresolver
  by_cases hsize : IsTooLarge transport options
  · rw [unpack_of_isTooLarge hsize]
    refine ⟨⟨fun _ => hsize, fun _ => ⟨_, rfl, rfl⟩⟩, ?_⟩
    rintro _ ⟨⟩
    exact ⟨_, by simp [failureCodes], rfl, by simp⟩
  · have hreasons := failsAs_unpack hkeys hsize
    constructor
    · constructor
      · rintro ⟨e, he, hcode⟩
        exfalso
        cases hreasons e he <;> simp_all
      · intro h
        exact absurd h hsize
    · intro e he
      cases hreasons e he with
      | shape h => exact ⟨_, by simp [failureCodes], h, by simp⟩
      | content h => exact ⟨_, by simp [failureCodes], h, by simp⟩
      | policy h => exact ⟨_, by simp [failureCodes], h, by simp⟩
      | signature h hrefused =>
        rcases h with h | h | h
        · exact ⟨_, by simp [failureCodes], h, fun _ => hrefused⟩
        · exact ⟨_, by simp [failureCodes], h, fun _ => hrefused⟩
        · exact ⟨_, by simp [failureCodes], h, fun _ => hrefused⟩

/-- A signed envelope whose signer nobody knows. -/
def unknownSigner : Jws :=
  ⟨[], [⟨JwsHeader.encode ⟨MediaType.signed, .edDsa, none⟩, "AAAA", "did:example:alice#key"⟩]⟩

/-- The keys that are held for the case that is run. -/
def heldChanges : List KeyManager.Change :=
  [.importKey (.ec .p256) (.ofNat 32 1) ⟨some "did:example:bob", some "did:example:bob#key"⟩,
    .remove "did:example:carol#key"]

theorem unpack_failure_unknown_signer :
    ∃ keys e, keys = (KeyManager.empty (some (.chain [.didKey, .documents .empty]))).run heldChanges ∧
      keys.hasKey "did:example:bob#key" = true ∧
      unpack unknownSigner.serialized keys {} = .error e ∧ e.code? = some .keyNotFound ∧
      Refuses unknownSigner.serialized keys e := by
  let keys := (KeyManager.empty (some (.chain [.didKey, .documents .empty]))).run heldChanges
  have hheld : keys.keys = [recipientKey] := by decide +kernel
  have hpublic : (KeyType.ec .p256).publicKey? (.ofNat 32 1) =
      some Weierstrass.p256.generator.compressed := by decide +kernel
  have hpoint : (KeyType.ec .p256).IsPoint Weierstrass.p256.generator.compressed :=
    ⟨by decide, by decide +kernel⟩
  have hfailure := @unpack_failure (some (.chain [.didKey, .documents .empty])) heldChanges
    (by
      rintro _ ⟨⟩
      apply Resolver.BuiltIn.chain
      simpa using ⟨.didKey, .documents .empty⟩)
    (by simp [heldChanges])
    (by
      intro key hkey b hb
      change key ∈ keys.keys at hkey
      rw [hheld, List.mem_singleton] at hkey
      obtain rfl := hkey
      obtain rfl := Option.some.inj (hpublic.symm.trans hb)
      exact hpoint)
    unknownSigner.serialized {}
  have hrun : (match unpack unknownSigner.serialized keys {} with
      | .ok _ => false
      | .error e => e.hasCode .keyNotFound) = true := by decide +kernel
  split at hrun
  · cases hrun
  · rename_i e he
    have hcode : e.code? = some .keyNotFound := of_decide_eq_true hrun
    obtain ⟨code, -, hsame, hrefused⟩ := hfailure.2 e he
    obtain rfl := Option.some.inj (hcode.symm.trans hsame)
    exact ⟨keys, e, rfl, by simp [KeyManager.hasKey, KeyManager.get?, hheld, recipientKey], he, hcode,
      hrefused (by simp)⟩

end Envelope
end SealedEnvelope
