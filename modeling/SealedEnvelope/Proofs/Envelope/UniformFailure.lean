import SealedEnvelope.Proofs.Envelope.Candidates
import SealedEnvelope.Proofs.Jwe.Obstacles

/-!
# Failures to decrypt look alike

An envelope that is addressed to a recipient and does not open for it gives one error, without details,
whatever the obstacle is. So does detached content, and so does a manager that has tried a key of its own
for every entry that names one: two runs of unpacking that get as far as that and fail cannot be told
apart, however much the envelopes, the keys and the obstacles differ.
-/

namespace SealedEnvelope

namespace Envelope

/-- What is read of a text before any key is looked for. -/
def admitted (transport : Text) (options : UnpackOptions) : Except Error Wire := do
  checkSize transport options
  let w ← Wire.ofText transport.trim
  checkMode w.mode options
  return w

/-- An encrypted envelope is read, it names a key of the manager, and no key that it names opens it. -/
inductive Closed (transport : Text) (keys : KeyManager) (options : UnpackOptions) : Prop
  | intro {j : Jwe} {header : JweHeader}
      (hread : admitted transport options = .ok (.encrypted j header))
      (hnamed : candidates j keys options.expectedRecipientKid ≠ [])
      (hclosed : ∀ kid ∈ candidates j keys options.expectedRecipientKid, ∀ opened,
        openWith j keys kid ≠ .ok opened)

variable {j : Jwe} {keys : KeyManager} {transport : Text} {options : UnpackOptions} {kid : Text}

theorem admitted_eq_ok {w : Wire} :
    admitted transport options = .ok w ↔
      checkSize transport options = .ok () ∧ Wire.ofText transport.trim = .ok w ∧
        checkMode w.mode options = .ok () := by
  simp only [admitted, bind_eq_ok]
  constructor
  · rintro ⟨⟨⟩, hsize, w', hwire, ⟨⟩, hmode, hw⟩
    obtain rfl := Except.ok.inj hw
    exact ⟨hsize, hwire, hmode⟩
  · rintro ⟨hsize, hwire, hmode⟩
    exact ⟨(), hsize, w, hwire, (), hmode, rfl⟩

theorem unpack_eq_admitted (transport : Text) (keys : KeyManager) (options : UnpackOptions) :
    unpack transport keys options = admitted transport options >>= fun w => openWire w keys options := by
  unfold unpack admitted
  cases checkSize transport options with
  | error e => rfl
  | ok checked =>
    cases Wire.ofText transport.trim with
    | error e => rfl
    | ok w => cases hmode : checkMode w.mode options <;> simp [hmode]

theorem openWith_candidate {expected : Option Text} (h : kid ∈ candidates j keys expected) :
    (∃ opened, openWith j keys kid = .ok opened) ∨ openWith j keys kid = .error .decryptionFailed := by
  obtain ⟨hnamed, haddressed⟩ := List.mem_filter.mp h
  obtain ⟨k, hk, hkid⟩ := exists_agreement_of_canDecrypt (Bool.and_eq_true_iff.mp haddressed).2
  obtain ⟨entry, hentry⟩ := Jwe.exists_entry_of_kid (List.mem_map.mp hnamed)
  have hopened : openWith j keys kid = j.opened k.context := by
    simp only [openWith, hk, ok_bind]
  rw [hopened]
  rcases Jwe.opened_of_addressed (hkid ▸ hentry) with ⟨-, plaintext, h⟩ | ⟨-, h⟩
  · exact Or.inl ⟨_, h⟩
  · exact Or.inr h

/-- Keys that all fail alike leave no trace of how many they are or of what came before them. -/
theorem openFirst_of_closed {kids : List Text} (hne : kids ≠ [])
    (h : ∀ kid ∈ kids, openWith j keys kid = .error .decryptionFailed) (failure : Error) :
    openFirst j keys failure kids = .error .decryptionFailed := by
  induction kids generalizing failure with
  | nil => exact absurd rfl hne
  | cons kid rest ih =>
    obtain ⟨hkid, hrest⟩ := List.forall_mem_cons.mp h
    have hstep : openFirst j keys failure (kid :: rest) =
        openFirst j keys .decryptionFailed rest := by
      simp only [openFirst, hkid]
      exact if_pos rfl
    rw [hstep]
    cases rest with
    | nil => rfl
    | cons next rest => exact ih (List.cons_ne_nil _ _) hrest _

theorem unpack_of_closed (h : Closed transport keys options) :
    unpack transport keys options = .error .decryptionFailed := by
  obtain @⟨j, header, hread, hnamed, hclosed⟩ := h
  have hfail : ∀ kid ∈ candidates j keys options.expectedRecipientKid,
      openWith j keys kid = .error .decryptionFailed := by
    intro kid hkid
    apply (openWith_candidate hkid).resolve_left
    rintro ⟨opened, hopened⟩
    exact hclosed kid hkid opened hopened
  have hfirst := openFirst_of_closed hnamed hfail (.notRecipient none)
  simp only [unpack_eq_admitted, hread, ok_bind, openWire, openEncrypted, hfirst, error_bind]

/-- An envelope that no entry addresses to the recipient is refused as such. In every other case an
envelope opens, or there is an obstacle and the error is the one for all obstacles. The same error is
given for detached content, and by all runs of unpacking in which every candidate fails. -/
theorem decryption_fails_uniformly :
    (∀ (j : Jwe) (context : RecipientContext),
      ((∀ entry ∈ j.recipients, entry.kid ≠ context.keyId) →
        j.opened context = .error (.notRecipient (some context.keyId))) ∧
      ((∃ entry ∈ j.recipients, entry.kid = context.keyId) →
        ∃ entry, j.entry? context.keyId = some entry ∧
          ((¬j.Obstacle context entry ∧ ∃ opened, j.opened context = .ok opened) ∨
            (j.Obstacle context entry ∧ j.opened context = .error .decryptionFailed)))) ∧
    (∀ (d : DetachedContent) (context : RecipientContext) (senderKid : Option Text) (aad : Bytes),
      (¬d.Obstacle context senderKid aad ∧
          ∃ plaintext, d.opened context senderKid aad = .ok plaintext) ∨
        (d.Obstacle context senderKid aad ∧
          d.opened context senderKid aad = .error .decryptionFailed)) ∧
    (∀ (transport transport' : Text) (keys keys' : KeyManager) (options options' : UnpackOptions),
      Closed transport keys options → Closed transport' keys' options' →
        unpack transport keys options = .error .decryptionFailed ∧
          unpack transport' keys' options' = unpack transport keys options) ∧
    (∀ kid, (Error.notRecipient kid).code? = some .decryptionFailed ∧
      (Error.notRecipient kid).message = "not an intended recipient") ∧
    Error.decryptionFailed.code? = some .decryptionFailed ∧
    Error.decryptionFailed.message = "decryption failed" ∧
    Error.decryptionFailed.details? = none := by
  refine ⟨fun j context => ⟨Jwe.opened_of_unnamed, fun hnamed => ?_⟩, DetachedContent.opened_cases,
    fun transport transport' keys keys' options options' h h' => ?_, fun _ => ⟨rfl, rfl⟩,
    rfl, rfl, rfl⟩
  · obtain ⟨entry, hentry⟩ := Jwe.exists_entry_of_kid hnamed
    refine ⟨entry, hentry, ?_⟩
    rcases Jwe.opened_of_addressed hentry with ⟨hnone, plaintext, h⟩ | hobstacle
    · exact Or.inl ⟨hnone, _, h⟩
    · exact Or.inr hobstacle
  · rw [unpack_of_closed h, unpack_of_closed h']
    exact ⟨rfl, rfl⟩

/-- An envelope without content. Its ephemeral key has no coordinates. -/
def hollow (curve : EcCurve) (cty : Option Text) (entries : List JweRecipient) : Jwe :=
  ⟨JweHeader.encode ⟨⟨curve, [], [], none⟩, [], none, MediaType.encrypted, cty⟩, entries, [], [], []⟩

theorem closed_hollow {curve : EcCurve} {cty : Option Text} {entries : List JweRecipient}
    (hentries : entries ≠ []) (hkids : ∀ r ∈ entries, r.kid ≠ [])
    (hnamed : candidates (hollow curve cty entries) keys none ≠ [])
    (hclosed : ∀ kid ∈ candidates (hollow curve cty entries) keys none,
      (openWith (hollow curve cty entries) keys kid).toOption = none) :
    Closed (hollow curve cty entries).serialized keys { maxEnvelopeBytes := .infinite false } := by
  refine .intro (admitted_eq_ok.mpr ⟨checkSize_eq_ok.mpr (infinite_lt _), ofText_serialized
    (Jwe.ofJson_toJson hentries hkids) (JweHeader.decode_encode _ _), rfl⟩) hnamed ?_
  intro kid hkid opened hopened
  have hnone := hclosed kid hkid
  rw [hopened] at hnone
  cases hnone

/-- Its only entry has a key that is no base64url. -/
def unspelled : Jwe := hollow .p256 (some MediaType.signed) [spoiledEntry "did:example:bob#key"]

/-- Its ephemeral key is on another curve than the recipient's. -/
def onOtherCurve : Jwe := hollow .secp256k1 none [⟨[], "did:example:bob#key", none⟩]

theorem decryption_fails_uniformly_samples :
    Closed unspelled.serialized twoIds { maxEnvelopeBytes := .infinite false } ∧
      Closed onOtherCurve.serialized ⟨[recipientKey], none⟩ { maxEnvelopeBytes := .infinite false } ∧
      unpack unspelled.serialized twoIds { maxEnvelopeBytes := .infinite false } =
        .error .decryptionFailed ∧
      unpack onOtherCurve.serialized ⟨[recipientKey], none⟩ { maxEnvelopeBytes := .infinite false } =
        .error .decryptionFailed ∧
      onOtherCurve.opened (AgreementKey.mk recipientKey .p256).context = .error .decryptionFailed ∧
      (unspelled.only (spoiledEntry "did:example:carol#key")).opened
          (AgreementKey.mk recipientKey .p256).context =
        .error (.notRecipient (some "did:example:bob#key")) := by
  have hunspelled : Closed unspelled.serialized twoIds { maxEnvelopeBytes := .infinite false } :=
    closed_hollow (List.cons_ne_nil _ _) (by decide) (by decide) (by decide +kernel)
  have hcurve : Closed onOtherCurve.serialized ⟨[recipientKey], none⟩
      { maxEnvelopeBytes := .infinite false } :=
    closed_hollow (List.cons_ne_nil _ _) (by decide) (by decide) (by decide +kernel)
  obtain ⟨hopened, -, hruns, -⟩ := decryption_fails_uniformly
  obtain ⟨hfirst, hsame⟩ := hruns _ _ _ _ _ _ hunspelled hcurve
  refine ⟨hunspelled, hcurve, hfirst, hsame.trans hfirst, ?_, (hopened _ _).1 (by decide)⟩
  obtain ⟨entry, hentry, houtcome⟩ :=
    (hopened onOtherCurve (AgreementKey.mk recipientKey .p256).context).2 (by decide)
  have honly : onOtherCurve.entry? "did:example:bob#key" = some ⟨[], "did:example:bob#key", none⟩ := by
    decide
  obtain rfl := Option.some.inj (honly.symm.trans hentry)
  have hobstacle : onOtherCurve.Obstacle (AgreementKey.mk recipientKey .p256).context
      ⟨[], "did:example:bob#key", none⟩ :=
    .key (JweHeader.decode_encode _ _) rfl (.curve (by decide))
  exact (houtcome.resolve_left fun h => h.1 hobstacle).2

end Envelope
end SealedEnvelope
