import Mathlib.Data.List.Perm.Basic
import SealedEnvelope.Proofs.Jwe.Creation
import SealedEnvelope.Proofs.Text.Order
import SealedEnvelope.Proofs.Text.Parts

/-!
# The set of recipients

The header of an envelope carries a digest of its recipients' ids. What is hashed is the sorted ids with
dots between them, so the order of the recipients does not matter: it decides the order of the entries and
nothing else in the envelope. Ids that contain no dot come back from the hashed text, so there is one text
for each collection of such ids, an id that is repeated counting as often as it occurs.
-/

namespace SealedEnvelope

theorem Text.Paired.join {separator : Text} (hseparator : separator.Paired) {parts : List Text}
    (h : ∀ p ∈ parts, p.Paired) : (Text.join separator parts).Paired := by
  induction parts with
  | nil => exact .nil
  | cons p ps ih =>
    obtain ⟨hp, hps⟩ := List.forall_mem_cons.mp h
    cases ps with
    | nil => rwa [Text.join, List.intercalate_singleton]
    | cons q qs =>
      rw [Text.join_cons_append]
      exact (hp.append hseparator).append (ih hps)

namespace Jwe

/-! ### The text of a set of ids -/

def recipientSetText (kids : List Text) : Text := .join "." (Text.sorted kids)

theorem recipientSetApv_eq (kids : List Text) :
    recipientSetApv kids = Base64url.encode (Sha256.hash (recipientSetText kids).utf8) := rfl

theorem recipientSetText_of_perm {kids others : List Text} (h : kids.Perm others) :
    recipientSetText kids = recipientSetText others := by
  rw [recipientSetText, recipientSetText, Text.sorted_eq_sorted_iff.mpr h]

theorem recipientSetApv_of_perm {kids others : List Text} (h : kids.Perm others) :
    recipientSetApv kids = recipientSetApv others := by
  rw [recipientSetApv_eq, recipientSetApv_eq, recipientSetText_of_perm h]

theorem splitOn_recipientSetText {kids : List Text} (hne : kids ≠ [])
    (hdot : ∀ kid ∈ kids, 0x2E ∉ kid) :
    Text.splitOn 0x2E (recipientSetText kids) = Text.sorted kids := by
  apply Text.splitOn_join
  · intro hnil
    have hperm := Text.sorted_perm kids
    rw [hnil] at hperm
    exact hne hperm.nil_eq.symm
  · intro kid hkid
    exact hdot kid ((Text.sorted_perm kids).mem_iff.mp hkid)

/-- Ids without a dot are determined by their text, up to their order. -/
theorem recipientSetText_eq_iff {kids others : List Text} (hne : kids ≠ []) (hne' : others ≠ [])
    (hdot : ∀ kid ∈ kids, 0x2E ∉ kid) (hdot' : ∀ kid ∈ others, 0x2E ∉ kid) :
    recipientSetText kids = recipientSetText others ↔ kids.Perm others := by
  constructor
  · intro h
    rw [← Text.sorted_eq_sorted_iff, ← splitOn_recipientSetText hne hdot, h,
      splitOn_recipientSetText hne' hdot']
  · exact recipientSetText_of_perm

theorem paired_recipientSetText {kids : List Text} (h : ∀ kid ∈ kids, kid.Paired) :
    (recipientSetText kids).Paired := by
  refine Text.Paired.join (Text.paired_of_all (by decide)) ?_
  intro kid hkid
  exact h kid ((Text.sorted_perm kids).mem_iff.mp hkid)

/-! ### Envelopes for recipients in another order -/

variable {plaintext : Bytes} {recipients others : List VerificationKey} {options : JweOptions}
  {e : Entropy} {j : Jwe}

theorem entriesFor_of_perm (h : recipients.Perm others) {ephemeral : Ephemeral} {contentKey : Bytes}
    {senderKid : Option Text} {entries : List JweRecipient}
    (hentries : entriesFor ephemeral contentKey senderKid recipients = .ok entries) :
    ∃ entries', entries.Perm entries' ∧
      entriesFor ephemeral contentKey senderKid others = .ok entries' := by
  obtain ⟨entries', hmade, hperm⟩ := List.perm_comp_forall₂ h.symm (entriesFor_eq_ok.mp hentries)
  exact ⟨entries', hperm.symm, entriesFor_eq_ok.mpr hmade⟩

theorem sharedCurve_of_perm (h : recipients.Perm others) {c : EcCurve}
    (hcurve : sharedCurve recipients = .ok c) : sharedCurve others = .ok c := by
  obtain ⟨hne, hkeyTypes⟩ := sharedCurve_eq_ok.mp hcurve
  refine sharedCurve_eq_ok.mpr ⟨?_, fun r hr => hkeyTypes r (h.mem_iff.mpr hr)⟩
  rintro rfl
  exact hne h.eq_nil

theorem madeHeader_of_perm (h : recipients.Perm others) (options : JweOptions) (epk : EcJwk) :
    madeHeader recipients options epk = madeHeader others options epk := by
  rw [madeHeader, madeHeader, recipientSetApv_of_perm (h.map VerificationKey.keyId)]

/-- For the same recipients in another order, only the order of the entries changes. -/
theorem create_of_perm (h : recipients.Perm others)
    (hj : create plaintext recipients options e = .ok j) :
    ∃ entries, j.recipients.Perm entries ∧
      create plaintext others options e = .ok { j with recipients := entries } := by
  obtain ⟨hnodup, c, ephemeral, content, entries, hcurve, hfresh, hsealed, hentries, rfl⟩ :=
    create_iff.mp hj
  obtain ⟨entries', hperm, hentries'⟩ := entriesFor_of_perm h hentries
  refine ⟨entries', hperm, create_iff.mpr ⟨?_, c, ephemeral, content, entries', ?_⟩⟩
  · exact (h.map VerificationKey.keyId).nodup_iff.mp hnodup
  · rw [madeHeader_of_perm h] at hsealed ⊢
    exact ⟨sharedCurve_of_perm h hcurve, hfresh, hsealed, hentries', rfl⟩

theorem apv_of_create (hj : create plaintext recipients options e = .ok j) (code : ErrorCode) :
    ∃ header, JweHeader.decode j.protectedHeader code = .ok header ∧
      header.apv = recipientSetApv (recipients.map VerificationKey.keyId) := by
  obtain ⟨-, c, ephemeral, content, entries, -, -, -, -, rfl⟩ := create_iff.mp hj
  exact ⟨_, JweHeader.decode_encode _ code, rfl⟩

/-- Ids without a dot have one hashed text exactly if they are the same ids in some order, and so do their
bytes if surrogates are paired. Whatever the ids contain, their order does not matter for the digest.
Envelopes for the same recipients carry one digest, in whichever order the recipients are and whatever
else differs; and if one of them can be made, it can be made for every order. -/
theorem recipientSet_unordered (kids others : List Text)
    (recipients permuted : List VerificationKey) :
    recipientSetApv kids = Base64url.encode (Sha256.hash (recipientSetText kids).utf8) ∧
    (kids ≠ [] → others ≠ [] → (∀ kid ∈ kids, 0x2E ∉ kid) → (∀ kid ∈ others, 0x2E ∉ kid) →
      (recipientSetText kids = recipientSetText others ↔ kids.Perm others) ∧
      ((∀ kid ∈ kids, kid.Paired) → (∀ kid ∈ others, kid.Paired) →
        ((recipientSetText kids).utf8 = (recipientSetText others).utf8 ↔ kids.Perm others))) ∧
    (kids.Perm others → recipientSetApv kids = recipientSetApv others) ∧
    (recipients.Perm permuted →
      (∀ plaintext options e j, create plaintext recipients options e = .ok j →
        ∃ entries, j.recipients.Perm entries ∧
          create plaintext permuted options e = .ok { j with recipients := entries }) ∧
      ∀ plaintext plaintext' options options' e e' j j',
        create plaintext recipients options e = .ok j →
        create plaintext' permuted options' e' = .ok j' →
        ∃ header header', JweHeader.decode j.protectedHeader .decryptionFailed = .ok header ∧
          JweHeader.decode j'.protectedHeader .decryptionFailed = .ok header' ∧
          header.apv = recipientSetApv (recipients.map VerificationKey.keyId) ∧
          header'.apv = header.apv) := by
  refine ⟨rfl, ?_, recipientSetApv_of_perm, ?_⟩
  · intro hne hne' hdot hdot'
    have htexts := recipientSetText_eq_iff hne hne' hdot hdot'
    refine ⟨htexts, fun hpaired hpaired' => ?_⟩
    rw [Utf8.utf8_inj (paired_recipientSetText hpaired) (paired_recipientSetText hpaired'), htexts]
  · intro hperm
    refine ⟨fun plaintext options e j => create_of_perm hperm, ?_⟩
    intro plaintext plaintext' options options' e e' j j' hj hj'
    obtain ⟨header, hdecoded, hapv⟩ := apv_of_create hj .decryptionFailed
    obtain ⟨header', hdecoded', hapv'⟩ := apv_of_create hj' .decryptionFailed
    refine ⟨header, header', hdecoded, hdecoded', hapv, ?_⟩
    rw [hapv, hapv', recipientSetApv_of_perm (hperm.map VerificationKey.keyId)]

/-- Two ids with one key. -/
def samplePair : List VerificationKey :=
  [samplePublicKey, { samplePublicKey with keyId := "did:example:carl#key" }]

theorem recipientSet_unordered_pair :
    recipientSetText ["b", "a", "b"] = recipientSetText ["b", "b", "a"] ∧
      recipientSetText ["b", "a", "b"] ≠ recipientSetText ["a", "b"] ∧
      ∃ j j' header header', create [42] samplePair {} UInt8.ofNat = .ok j ∧
        create [42] samplePair.reverse {} UInt8.ofNat = .ok j' ∧
        JweHeader.decode j.protectedHeader .decryptionFailed = .ok header ∧
        JweHeader.decode j'.protectedHeader .decryptionFailed = .ok header' ∧
        header'.apv = header.apv := by
  have hperm : samplePair.Perm samplePair.reverse := (List.reverse_perm samplePair).symm
  obtain ⟨-, hsame, -, hcreated⟩ := recipientSet_unordered ["b", "a", "b"] ["b", "b", "a"] samplePair
    samplePair.reverse
  obtain ⟨-, hother, -⟩ := recipientSet_unordered ["b", "a", "b"] ["a", "b"] samplePair samplePair
  obtain ⟨hmade, hapv⟩ := hcreated hperm
  have hrun : (create [42] samplePair {} UInt8.ofNat).toOption.isSome = true := by
    decide +kernel
  obtain ⟨j, hj⟩ := exists_ok hrun
  obtain ⟨entries, -, hj'⟩ := hmade [42] {} UInt8.ofNat j hj
  obtain ⟨header, header', hdecoded, hdecoded', -, hequal⟩ :=
    hapv [42] [42] {} {} UInt8.ofNat UInt8.ofNat j _ hj hj'
  refine ⟨?_, ?_, j, _, header, header', hj, hj', hdecoded, hdecoded', hequal⟩
  · exact (hsame (by decide) (by decide) (by decide) (by decide)).1.mpr (by decide)
  · rw [ne_eq, (hother (by decide) (by decide) (by decide) (by decide)).1]
    decide

/-- A dot in an id can be taken for one between two ids. -/
example : recipientSetText ["a.b"] = recipientSetText ["b", "a"] := by cbv

end Jwe
end SealedEnvelope
