import SealedEnvelope.Proofs.Envelope.Candidates
import SealedEnvelope.Proofs.Key.History

/-!
# Entries for others

The entries of an encrypted envelope are not protected, so anyone can add and remove some. A manager
never looks at an entry whose id names none of its keys that open envelopes. So it unpacks two envelopes
with one outcome if they have the same sealed content and the entries differ in such ones only, and a
single key sees nothing but the first entry with its id.
-/

namespace SealedEnvelope

namespace Jwe

/-- Two envelopes that differ at most in their entries. -/
structure SameContent (j j' : Jwe) : Prop where
  protectedHeader : j.protectedHeader = j'.protectedHeader
  iv : j.iv = j'.iv
  ciphertext : j.ciphertext = j'.ciphertext
  tag : j.tag = j'.tag

variable {j j' : Jwe}

theorem SameContent.openEntry? (h : j.SameContent j') (context : RecipientContext)
    (entry : JweRecipient) : j.openEntry? context entry = j'.openEntry? context entry := by
  have hcontent : j.content? = j'.content? := by
    simp only [content?, h.iv, h.ciphertext, h.tag]
  simp only [Jwe.openEntry?, h.protectedHeader, hcontent]

theorem SameContent.opened (h : j.SameContent j') {context : RecipientContext}
    (hentry : j.entry? context.keyId = j'.entry? context.keyId) :
    j.opened context = j'.opened context := by
  simp only [Jwe.opened, hentry, h.openEntry?]

end Jwe

namespace Envelope

/-- An entry that names no key of the manager that could open it. -/
def Foreign (keys : KeyManager) (entry : JweRecipient) : Prop := ¬keys.HoldsEc entry.kid

/-- Lists of entries that differ in foreign ones. -/
inductive Edited (keys : KeyManager) : List JweRecipient → List JweRecipient → Prop
  | nil : Edited keys [] []
  | kept (entry : JweRecipient) {entries entries' : List JweRecipient}
      (h : Edited keys entries entries') : Edited keys (entry :: entries) (entry :: entries')
  | deleted {entry : JweRecipient} (hentry : Foreign keys entry) {entries entries' : List JweRecipient}
      (h : Edited keys entries entries') : Edited keys (entry :: entries) entries'
  | inserted {entry : JweRecipient} (hentry : Foreign keys entry)
      {entries entries' : List JweRecipient} (h : Edited keys entries entries') :
      Edited keys entries (entry :: entries')

/-- A text that is read as an encrypted envelope, whatever its header is. -/
def Spells (transport : Text) (j : Jwe) : Prop :=
  ∃ v, Json.parse? transport.trim = some v ∧ v.hasMember "signatures" = false ∧
    v.hasMember "recipients" = true ∧ Jwe.ofJson (some v) = .ok j

variable {keys : KeyManager} {entries entries' : List JweRecipient} {j j' : Jwe}

theorem Foreign.canDecrypt {entry : JweRecipient} (h : Foreign keys entry) :
    keys.canDecrypt entry.kid = false :=
  Bool.eq_false_iff.mpr (mt KeyManager.canDecrypt_iff.mp h)

theorem Edited.refl : ∀ entries, Edited keys entries entries
  | [] => .nil
  | entry :: rest => .kept entry (Edited.refl rest)

/-- What is blind to foreign entries sees no edit. -/
theorem Edited.filter_eq (h : Edited keys entries entries') {p : JweRecipient → Bool}
    (hp : ∀ entry, Foreign keys entry → p entry = false) :
    entries.filter p = entries'.filter p := by
  induction h with
  | nil => rfl
  | kept entry _ ih => rw [List.filter_cons, List.filter_cons, ih]
  | deleted hentry _ ih => rw [List.filter_cons_of_neg (hp _ hentry ▸ Bool.false_ne_true), ih]
  | inserted hentry _ ih => rw [List.filter_cons_of_neg (hp _ hentry ▸ Bool.false_ne_true), ih]

theorem Edited.entry?_eq (h : Edited keys j.recipients j'.recipients) {kid : Text}
    (hkid : keys.canDecrypt kid = true) : j.entry? kid = j'.entry? kid := by
  have hblind : ∀ entry, Foreign keys entry → decide (entry.kid = kid) = false := by
    intro entry hentry
    rw [decide_eq_false_iff_not]
    rintro rfl
    rw [hentry.canDecrypt] at hkid
    cases hkid
  rw [Jwe.entry?, Jwe.entry?, ← List.head?_filter, ← List.head?_filter, h.filter_eq hblind]

theorem Edited.candidates_eq (h : Edited keys j.recipients j'.recipients) (expected : Option Text) :
    candidates j keys expected = candidates j' keys expected := by
  have hblind : ∀ entry, Foreign keys entry → isAddressed keys expected entry = false := by
    intro entry hentry
    rw [isAddressed, hentry.canDecrypt, Bool.and_false]
  rw [Envelope.candidates_eq, Envelope.candidates_eq, h.filter_eq hblind]

theorem canDecrypt_of_mem_candidates {expected : Option Text} {kid : Text}
    (h : kid ∈ candidates j keys expected) : keys.canDecrypt kid = true :=
  (Bool.and_eq_true_iff.mp (List.mem_filter.mp h).2).2

theorem openFirst_congr {kids : List Text}
    (h : ∀ kid ∈ kids, openWith j keys kid = openWith j' keys kid) (failure : Error) :
    openFirst j keys failure kids = openFirst j' keys failure kids := by
  induction kids generalizing failure with
  | nil => rfl
  | cons kid rest ih =>
    obtain ⟨hkid, hrest⟩ := List.forall_mem_cons.mp h
    simp only [openFirst, hkid, ih hrest]

theorem decrypted_of_edited (hsame : j.SameContent j')
    (hedited : Edited keys j.recipients j'.recipients) (expected : Option Text) :
    decrypted j keys expected = decrypted j' keys expected := by
  rw [decrypted, decrypted, hedited.candidates_eq]
  apply openFirst_congr
  intro kid hkid
  have hheld := canDecrypt_of_mem_candidates hkid
  obtain ⟨k, hk, hkeyId⟩ := exists_agreement_of_canDecrypt hheld
  simp only [openWith, hk, ok_bind]
  apply hsame.opened
  rw [hkeyId]
  exact hedited.entry?_eq hheld

theorem Spells.ofText {transport : Text} (h : Spells transport j) :
    Wire.ofText transport.trim =
      (JweHeader.decode j.protectedHeader .decryptionFailed).map (Wire.encrypted j) := by
  obtain ⟨v, hv, hsignatures, hrecipients, hj⟩ := h
  simp only [Wire.ofText, hv, Wire.ofJson, hsignatures, hrecipients, hj, Bool.false_eq_true, if_false,
    if_true, ok_bind]
  cases JweHeader.decode j.protectedHeader .decryptionFailed <;> rfl

theorem spells_serialized (hne : j.recipients ≠ []) (hkids : ∀ r ∈ j.recipients, r.kid ≠ []) :
    Spells j.serialized j := by
  exact ⟨j.toJson, Json.parse?_trim_text j.settled_toJson, rfl, rfl, Jwe.ofJson_toJson hne hkids⟩

/-- Entries for others do not matter. -/
theorem unpack_edited (keys : KeyManager) (hsame : j.SameContent j') :
    (∀ (transport transport' : Text) (options : UnpackOptions),
      Edited keys j.recipients j'.recipients → Spells transport j → Spells transport' j' →
      options.maxEnvelopeBytes.lt (.ofNat transport.utf8.length) = false →
      options.maxEnvelopeBytes.lt (.ofNat transport'.utf8.length) = false →
        unpack transport keys options = unpack transport' keys options) ∧
    (∀ context : RecipientContext, j.entry? context.keyId = j'.entry? context.keyId →
      j.opened context = j'.opened context) ∧
    (j.recipients ≠ [] → (∀ r ∈ j.recipients, r.kid ≠ []) → Spells j.serialized j) := by
  refine ⟨?_, fun context hentry => hsame.opened hentry, spells_serialized⟩
  intro transport transport' options hedited hspells hspells' hsize hsize'
  simp only [unpack, checkSize_eq_ok.mpr hsize, checkSize_eq_ok.mpr hsize', ok_bind, hspells.ofText,
    hspells'.ofText, hsame.protectedHeader]
  cases JweHeader.decode j'.protectedHeader .decryptionFailed with
  | error e => rfl
  | ok header =>
    -- The mode is the same for both, and what is left of each envelope is what is decrypted of it.
    simp only [Except.map, ok_bind, openWire_encrypted,
      decrypted_of_edited hsame hedited options.expectedRecipientKid]
    rfl

/-- An entry for a held key that only signs is put in front of the one that opens. -/
theorem unpack_edited_signing_key :
    ∃ (j j' : Jwe) (opened : OpenedJwe),
      j'.recipients = spoiledEntry AgentKey.sample.keyId :: j.recipients ∧ j.SameContent j' ∧
        unpack j.serialized ⟨[.sample, recipientKey], none⟩ { maxEnvelopeBytes := .infinite false } =
          unpack j'.serialized ⟨[.sample, recipientKey], none⟩
            { maxEnvelopeBytes := .infinite false } ∧
        decrypted j' ⟨[.sample, recipientKey], none⟩ none = .ok opened := by
  obtain ⟨j, entry, header, plaintext, hentries, hentry, -, hopens⟩ := exists_sample
  let keys : KeyManager := ⟨[.sample, recipientKey], none⟩
  let j' : Jwe := { j with recipients := spoiledEntry AgentKey.sample.keyId :: j.recipients }
  have hsame : j.SameContent j' := ⟨rfl, rfl, rfl, rfl⟩
  have hforeign : Foreign keys (spoiledEntry AgentKey.sample.keyId) := by
    rintro ⟨key, c, hget, hkeyType⟩
    obtain rfl := Option.some.inj hget
    cases hkeyType
  have hedited : Edited keys j.recipients j'.recipients := .inserted hforeign (.refl _)
  obtain ⟨hunpack, -, hspells⟩ := unpack_edited keys hsame
  obtain ⟨-, -, hspells'⟩ := unpack_edited keys (⟨rfl, rfl, rfl, rfl⟩ : j'.SameContent j')
  refine ⟨j, j', ⟨plaintext, "did:example:bob#key", none⟩, rfl, hsame, ?_, ?_⟩
  · apply hunpack _ _ _ hedited (hspells ?_ ?_) (hspells' ?_ ?_) (infinite_lt _) (infinite_lt _)
    · rw [hentries]
      exact List.cons_ne_nil _ _
    · rw [hentries, List.forall_mem_singleton, hentry]
      decide
    · exact List.cons_ne_nil _ _
    · change ∀ r ∈ spoiledEntry AgentKey.sample.keyId :: j.recipients, r.kid ≠ []
      rw [hentries, List.forall_mem_cons, List.forall_mem_singleton, hentry]
      decide
  · have hcandidates : candidates j keys none = [Text.ofString "did:example:bob#key"] := by
      simp only [candidates, hentries, List.map_cons, List.map_nil, hentry]
      rfl
    rw [← decrypted_of_edited hsame hedited, decrypted, hcandidates]
    simp only [openFirst, hopens keys rfl]

end Envelope
end SealedEnvelope
