import Mathlib.Data.List.Forall2
import SealedEnvelope.Key.Agreement
import SealedEnvelope.Proofs.Cipher.Content
import SealedEnvelope.Proofs.Cipher.KeyWrap
import SealedEnvelope.Proofs.Jwe.RoundTrip

/-!
# What is sealed for a recipient is opened by it

An envelope has one entry for each recipient, and the recipient's key unwraps the content key from it:
both sides derive the same wrapping key if they agree on a secret. The content is opened with the encoded
header as it was sealed with it.

Of the curves it is relied on that the two sides of an agreement come to the same point.
-/

namespace SealedEnvelope

/-- Two private keys come to the same secret, whichever of the two it is computed with. -/
def EcCurve.Symmetric (c : EcCurve) (a b : Bytes) : Prop :=
  ∀ A B, (KeyType.ec c).publicKey? a = some A → (KeyType.ec c).publicKey? b = some B →
    c.sharedSecret? a B = c.sharedSecret? b A

instance (c : EcCurve) (a b : Bytes) : Decidable (c.Symmetric a b) :=
  match ha : (KeyType.ec c).publicKey? a, hb : (KeyType.ec c).publicKey? b with
  | none, _ => isTrue fun _ _ hA _ => nomatch ha.symm.trans hA
  | some _, none => isTrue fun _ _ _ hB => nomatch hb.symm.trans hB
  | some A, some B =>
    decidable_of_iff (c.sharedSecret? a B = c.sharedSecret? b A)
      ⟨fun hsame _ _ hA hB =>
          Option.some.inj (ha.symm.trans hA) ▸ Option.some.inj (hb.symm.trans hB) ▸ hsame,
        fun hsymmetric => hsymmetric A B ha hb⟩

/-- The private key of an agent key is the one that belongs to a recipient's public key. -/
structure AgentKey.Matches (key : AgentKey) (r : VerificationKey) : Prop where
  keyType : key.keyType = r.keyType
  publicKey : ∃ b, r.jwk.publicKey = .ok b ∧ key.keyType.publicKey? key.pair.privateKey = some b

/-! ### The recipients' curve -/

theorem keyType_of_sharedCurveFrom {before : Option EcCurve} {recipients : List VerificationKey}
    {c : EcCurve} (h : sharedCurveFrom before recipients = .ok c) :
    (∀ b ∈ before, b = c) ∧ ∀ r ∈ recipients, r.keyType = .ec c := by
  induction recipients generalizing before with
  | nil =>
    cases before with
    | none => cases h
    | some b =>
      obtain rfl := Except.ok.inj h
      refine ⟨?_, fun r hr => absurd hr List.not_mem_nil⟩
      rintro _ ⟨⟩
      rfl
  | cons r rest ih =>
    cases hjwk : r.jwk with
    | okp key =>
      cases before <;> simp [sharedCurveFrom, hjwk] at h
    | ec key =>
      have hr : r.keyType = .ec key.curve := by
        simp only [VerificationKey.keyType, hjwk, PublicJwk.keyType]
      cases before with
      | none =>
        simp only [sharedCurveFrom, hjwk] at h
        obtain ⟨hkey, hrest⟩ := ih h
        rw [hkey key.curve rfl] at hr
        exact ⟨fun _ hb => (nomatch hb), List.forall_mem_cons.mpr ⟨hr, hrest⟩⟩
      | some b =>
        simp only [sharedCurveFrom, hjwk] at h
        split at h
        · rename_i hsame
          obtain ⟨hbefore, hrest⟩ := ih h
          rw [← hsame, hbefore b rfl] at hr
          exact ⟨hbefore, List.forall_mem_cons.mpr ⟨hr, hrest⟩⟩
        · cases h

theorem keyType_of_sharedCurve {recipients : List VerificationKey} {c : EcCurve}
    (h : sharedCurve recipients = .ok c) : ∀ r ∈ recipients, r.keyType = .ec c :=
  (keyType_of_sharedCurveFrom h).2

/-! ### The content key -/

theorem Ephemeral.fresh_eq_ok {c : EcCurve} {e : Entropy} {ephemeral : Ephemeral}
    (h : fresh c e = .ok ephemeral) :
    ephemeral.curve = c ∧ ephemeral.privateKey = c.freshPrivateKey e ∧ ephemeral.epk.curve = c ∧
      ∃ A, (KeyType.ec c).publicKey? (c.freshPrivateKey e) = some A ∧
        ephemeral.epk.publicKey = .ok A := by
  unfold fresh at h
  generalize c.freshPrivateKey e = privateKey at h ⊢
  simp only at h
  split at h
  · rename_i epk hepk
    obtain rfl := Except.ok.inj h
    obtain ⟨A, hA, hjwk⟩ := Option.bind_eq_some_iff.mp hepk
    obtain ⟨hcurve, hpublicKey⟩ := EcJwk.publicKey_of_ofPublicKey? (KeyType.length_publicKey? hA) hjwk
    exact ⟨rfl, rfl, hcurve, A, hA, hpublicKey⟩
  · cases h

theorem wrapFor_eq {r : VerificationKey} {publicKey : Bytes} (h : r.jwk.publicKey = .ok publicKey)
    (ephemeral : Ephemeral) (contentKey : Bytes) (senderKid : Option Text) :
    wrapFor ephemeral r contentKey senderKid =
      match ephemeral.curve.sharedSecret? ephemeral.privateKey publicKey with
      | none => .error .refused
      | some secret => KeyWrap.wrap (wrappingKey secret senderKid r.keyId) contentKey := by
  rw [wrapFor, h, ok_bind]
  rfl

theorem unwrapFrom?_of_wrapFor {c : EcCurve} {e : Entropy} {ephemeral : Ephemeral}
    {r : VerificationKey} {key : AgentKey} {contentKey wrapped : Bytes} {senderKid : Option Text}
    (hfresh : Ephemeral.fresh c e = .ok ephemeral) (hcurve : r.keyType = .ec c)
    (hid : key.keyId = r.keyId) (hmatches : key.Matches r)
    (hsymmetric : c.Symmetric (c.freshPrivateKey e) key.pair.privateKey)
    (hwrapped : wrapFor ephemeral r contentKey senderKid = .ok wrapped) :
    unwrapFrom? (AgreementKey.mk key c).context ephemeral.epk wrapped senderKid
      = some contentKey := by
  obtain ⟨hephemeral, hprivate, hepk, A, hA, hepkPublic⟩ := Ephemeral.fresh_eq_ok hfresh
  obtain ⟨B, hjwk, hB⟩ := hmatches.publicKey
  rw [hmatches.keyType, hcurve] at hB
  have hsecret := hsymmetric A B hA hB
  rw [wrapFor_eq hjwk, hephemeral, hprivate] at hwrapped
  split at hwrapped
  · cases hwrapped
  · rename_i secret hagreed
    rw [hsecret] at hagreed
    have hunwrapped := KeyWrap.unwrap_of_wrap hwrapped
    rw [← hid] at hunwrapped
    simp [unwrapFrom?, AgreementKey.context, AgreementKey.keyId, hepk, hepkPublic, hagreed,
      hunwrapped, Except.toOption]

/-! ### The entries -/

namespace Jwe

variable {ephemeral : Ephemeral} {contentKey : Bytes} {senderKid : Option Text}

theorem entryFor_eq_ok {r : VerificationKey} {entry : JweRecipient}
    (h : entryFor ephemeral contentKey senderKid r = .ok entry) :
    ∃ wrapped, wrapFor ephemeral r contentKey senderKid = .ok wrapped ∧
      entry = ⟨Base64url.encode wrapped, r.keyId, senderKid⟩ := by
  obtain ⟨wrapped, hwrapped, hentry⟩ := bind_eq_ok.mp h
  exact ⟨wrapped, hwrapped, (Except.ok.inj hentry).symm⟩

theorem entriesFor_eq_ok {recipients : List VerificationKey} {entries : List JweRecipient} :
    entriesFor ephemeral contentKey senderKid recipients = .ok entries ↔
      List.Forall₂ (fun r entry => entryFor ephemeral contentKey senderKid r = .ok entry)
        recipients entries := by
  induction recipients generalizing entries with
  | nil => simp [entriesFor, eq_comm]
  | cons r rest ih =>
    simp only [entriesFor, bind_eq_ok, List.forall₂_cons_left_iff, ih]
    constructor
    · rintro ⟨entry, hentry, behind, hbehind, hentries⟩
      exact ⟨entry, behind, hentry, hbehind, (Except.ok.inj hentries).symm⟩
    · rintro ⟨entry, behind, hentry, hbehind, rfl⟩
      exact ⟨entry, hentry, behind, hbehind, rfl⟩

theorem map_kid_of_entriesFor {recipients : List VerificationKey} {entries : List JweRecipient}
    (h : entriesFor ephemeral contentKey senderKid recipients = .ok entries) :
    entries.map JweRecipient.kid = recipients.map VerificationKey.keyId := by
  replace h := entriesFor_eq_ok.mp h
  induction h with
  | nil => rfl
  | cons hentry _ ih =>
    obtain ⟨wrapped, -, rfl⟩ := entryFor_eq_ok hentry
    rw [List.map_cons, List.map_cons, ih]

/-- The first entry with a recipient's id is the one that was made for the recipient. -/
theorem find?_of_entriesFor {recipients : List VerificationKey} {entries : List JweRecipient}
    (h : entriesFor ephemeral contentKey senderKid recipients = .ok entries)
    (hnodup : (recipients.map VerificationKey.keyId).Nodup) {r : VerificationKey}
    (hr : r ∈ recipients) :
    ∃ wrapped, wrapFor ephemeral r contentKey senderKid = .ok wrapped ∧
      (entries.find? fun entry => entry.kid = r.keyId)
        = some ⟨Base64url.encode wrapped, r.keyId, senderKid⟩ := by
  replace h := entriesFor_eq_ok.mp h
  induction h with
  | nil => cases hr
  | @cons first entry rest others hentry _ ih =>
    obtain ⟨wrapped, hwrapped, rfl⟩ := entryFor_eq_ok hentry
    obtain ⟨hnew, hnodup⟩ := List.nodup_cons.mp hnodup
    rcases List.mem_cons.mp hr with rfl | hr
    · exact ⟨wrapped, hwrapped, List.find?_cons_of_pos (decide_eq_true rfl)⟩
    · obtain ⟨wrapped', hwrapped', hfind⟩ := ih hnodup hr
      -- Ids differ, so no entry before the recipient's own can be taken for it.
      have hother : first.keyId ≠ r.keyId := by
        intro hsame
        rw [hsame] at hnew
        exact hnew (List.mem_map_of_mem hr)
      refine ⟨wrapped', hwrapped', ?_⟩
      rw [List.find?_cons_of_neg]
      · exact hfind
      · simpa using hother

/-! ### Envelopes that have been made -/

def madeHeader (recipients : List VerificationKey) (options : JweOptions) (epk : EcJwk) :
    JweHeader where
  epk := epk
  apv := recipientSetApv (recipients.map VerificationKey.keyId)
  apu := options.senderKid.map Base64url.encodeText
  typ := options.typ.getD MediaType.encrypted
  cty := options.cty

/-- An envelope is made if every step succeeds. -/
theorem create_iff {plaintext : Bytes} {recipients : List VerificationKey} {options : JweOptions}
    {e : Entropy} {j : Jwe} :
    create plaintext recipients options e = .ok j ↔
      (recipients.map VerificationKey.keyId).Nodup ∧ ∃ c ephemeral content entries,
        sharedCurve recipients = .ok c ∧ Ephemeral.fresh c e = .ok ephemeral ∧
        Content.sealed (Content.freshKey (e.after Ephemeral.drawn)) plaintext
          (madeHeader recipients options ephemeral.epk).encode.utf8
          (e.after (Ephemeral.drawn + Content.keyLength)) = .ok content ∧
        entriesFor ephemeral (Content.freshKey (e.after Ephemeral.drawn)) options.senderKid
          recipients = .ok entries ∧
        j = ⟨(madeHeader recipients options ephemeral.epk).encode, entries,
          Base64url.encode content.iv, Base64url.encode content.ciphertext,
          Base64url.encode content.tag⟩ := by
  by_cases hnodup : (recipients.map VerificationKey.keyId).Nodup
  · simp only [create, hnodup, not_true, if_false, bind_eq_ok, true_and]
    constructor
    · rintro ⟨c, hcurve, ephemeral, hfresh, content, hsealed, entries, hentries, hj⟩
      exact ⟨c, ephemeral, content, entries, hcurve, hfresh, hsealed, hentries,
        (Except.ok.inj hj).symm⟩
    · rintro ⟨c, ephemeral, content, entries, hcurve, hfresh, hsealed, hentries, rfl⟩
      exact ⟨c, hcurve, ephemeral, hfresh, content, hsealed, entries, hentries, rfl⟩
  · simp [create, hnodup]

/-- An envelope's parts belong together: the entries hold the content key for the recipients, and the
content is opened with that key and the encoded header. -/
structure Seals (j : Jwe) (plaintext : Bytes) (recipients : List VerificationKey)
    (senderKid : Option Text) (ephemeral : Ephemeral) (header : JweHeader) (contentKey : Bytes) :
    Prop where
  nodup : (recipients.map VerificationKey.keyId).Nodup
  epk : header.epk = ephemeral.epk
  protectedHeader : j.protectedHeader = header.encode
  entries : entriesFor ephemeral contentKey senderKid recipients = .ok j.recipients
  content : ∃ content, j.content? = some content ∧
    Content.opened contentKey content header.encode.utf8 = .ok plaintext

theorem create_eq_ok {plaintext : Bytes} {recipients : List VerificationKey} {options : JweOptions}
    {e : Entropy} {j : Jwe} (h : create plaintext recipients options e = .ok j) :
    ∃ c ephemeral header, sharedCurve recipients = .ok c ∧ Ephemeral.fresh c e = .ok ephemeral ∧
      header.cty = options.cty ∧ j.Seals plaintext recipients options.senderKid ephemeral header
        (Content.freshKey (e.after Ephemeral.drawn)) := by
  obtain ⟨hnodup, c, ephemeral, content, entries, hcurve, hfresh, hsealed, hentries, rfl⟩ :=
    create_iff.mp h
  refine ⟨c, ephemeral, _, hcurve, hfresh, rfl, hnodup, rfl, rfl, hentries, content, ?_,
    Content.opened_of_sealed hsealed⟩
  simp [content?, Base64url.decode?_encode]

theorem ofJson_of_create {plaintext : Bytes} {recipients : List VerificationKey}
    {options : JweOptions} {e : Entropy} {j : Jwe}
    (h : create plaintext recipients options e = .ok j) (hids : ∀ r ∈ recipients, r.keyId ≠ []) :
    ofJson (some j.toJson) = .ok j := by
  obtain ⟨c, ephemeral, header, hcurve, -, -, hseals⟩ := create_eq_ok h
  have hkids := map_kid_of_entriesFor hseals.entries
  apply ofJson_toJson
  · intro hnone
    rw [hnone] at hkids
    rw [List.map_eq_nil_iff.mp hkids.symm] at hcurve
    cases hcurve
  · intro entry hentry
    have hmem : entry.kid ∈ recipients.map VerificationKey.keyId :=
      hkids ▸ List.mem_map_of_mem hentry
    obtain ⟨r, hr, hkid⟩ := List.mem_map.mp hmem
    rw [← hkid]
    exact hids r hr

theorem Seals.opened {j : Jwe} {plaintext : Bytes} {recipients : List VerificationKey}
    {header : JweHeader} {c : EcCurve} {e : Entropy} {r : VerificationKey} {key : AgentKey}
    (h : j.Seals plaintext recipients senderKid ephemeral header contentKey)
    (hfresh : Ephemeral.fresh c e = .ok ephemeral) (hr : r ∈ recipients)
    (hcurve : r.keyType = .ec c) (hid : key.keyId = r.keyId) (hmatches : key.Matches r)
    (hsymmetric : c.Symmetric (c.freshPrivateKey e) key.pair.privateKey) :
    j.opened (AgreementKey.mk key c).context = .ok ⟨plaintext, r.keyId, senderKid⟩ := by
  obtain ⟨wrapped, hwrapped, hentry⟩ := find?_of_entriesFor h.entries h.nodup hr
  obtain ⟨content, hcontent, hopened⟩ := h.content
  have hkey := unwrapFrom?_of_wrapFor hfresh hcurve hid hmatches hsymmetric hwrapped
  have hplaintext : j.openEntry? (AgreementKey.mk key c).context
      ⟨Base64url.encode wrapped, r.keyId, senderKid⟩ = some plaintext := by
    simp [h.protectedHeader, openEntry?, JweHeader.decode_encode, Base64url.decode?_encode, h.epk,
      hkey, hcontent, hopened, Except.toOption]
  have hkeyId : (AgreementKey.mk key c).context.keyId = r.keyId := hid
  simp only [Jwe.opened, entry?, hkeyId, hentry, hplaintext]

theorem opened_of_create {plaintext : Bytes} {recipients : List VerificationKey}
    {options : JweOptions} {e : Entropy} {j : Jwe} {c : EcCurve} {r : VerificationKey} {key : AgentKey}
    (h : create plaintext recipients options e = .ok j) (hr : r ∈ recipients)
    (hcurve : r.keyType = .ec c) (hid : key.keyId = r.keyId) (hmatches : key.Matches r)
    (hsymmetric : c.Symmetric (c.freshPrivateKey e) key.pair.privateKey) :
    j.opened (AgreementKey.mk key c).context = .ok ⟨plaintext, r.keyId, options.senderKid⟩ := by
  obtain ⟨c', ephemeral, header, hshared, hfresh, -, hseals⟩ := create_eq_ok h
  have hsame : c' = c := KeyType.ec.inj ((keyType_of_sharedCurve hshared r hr).symm.trans hcurve)
  subst hsame
  exact hseals.opened hfresh hr hcurve hid hmatches hsymmetric

end Jwe
end SealedEnvelope
