import SealedEnvelope.Proofs.Jws.Compact
import SealedEnvelope.Proofs.Jws.Verification
import SealedEnvelope.Proofs.Text.Utf8

/-!
# What a signature covers

A signature covers the encoded header and the encoded payload as one text with a dot between them. Both
are arbitrary texts as far as the reader of an envelope is concerned, and then the text could be taken
apart in several ways, and UTF-8 could write two payloads alike. In an envelope that has been verified
both are in base64url. So there is no dot in the header, no unit needs more than one byte, and the bytes
that are signed are those of one header and one payload only.
-/

namespace SealedEnvelope

namespace Jws

section Reading

variable {protectedHeader payload protectedHeader' payload' : Text} {b c b' c' : Bytes}

/-- A signed text has no surrogates at all, so UTF-8 replaces nothing in it. -/
theorem paired_signingText (hheader : Base64url.decode? protectedHeader = some b)
    (hpayload : Base64url.decode? payload = some c) :
    Text.Paired (protectedHeader ++ dot :: payload) := by
  have hascii : ∀ u ∈ protectedHeader ++ dot :: payload, u.toNat < 0x80 := by
    intro u hu
    rcases List.mem_append.mp hu with hu | hu
    · exact Base64url.lt_of_decode? hheader u hu
    · rcases List.mem_cons.mp hu with rfl | hu
      · decide
      · exact Base64url.lt_of_decode? hpayload u hu
  apply Text.paired_of_forall_lt
  intro u hu
  rw [UInt16.lt_iff_toNat_lt]
  exact (hascii u hu).trans (by decide)

theorem signingInput_inj (hheader : Base64url.decode? protectedHeader = some b)
    (hpayload : Base64url.decode? payload = some c)
    (hheader' : Base64url.decode? protectedHeader' = some b')
    (hpayload' : Base64url.decode? payload' = some c')
    (h : signingInput protectedHeader payload = signingInput protectedHeader' payload') :
    protectedHeader = protectedHeader' ∧ payload = payload' := by
  have htext : protectedHeader ++ dot :: payload = protectedHeader' ++ dot :: payload' :=
    (Utf8.utf8_inj (paired_signingText hheader hpayload) (paired_signingText hheader' hpayload')).mp h
  have hdot : dot ∉ protectedHeader := Base64url.dot_not_mem_of_decode? hheader
  have hdot' : dot ∉ protectedHeader' := Base64url.dot_not_mem_of_decode? hheader'
  have hparts := congrArg (Text.splitOn dot) htext
  rw [Text.splitOn_append_mark hdot, Text.splitOn_append_mark hdot'] at hparts
  obtain rfl := (List.cons.inj hparts).1
  exact ⟨rfl, (List.cons.inj (List.append_cancel_left htext)).2⟩

end Reading

variable {j j' : Jws} {lookup lookup' : Text → Except Error VerificationKey}
  {verified verified' : VerifiedJws} {s s' : JwsSignature}

theorem exists_decoded (h : j.verify lookup = .ok verified) (hs : s ∈ j.signatures) :
    ∃ b header, Base64url.decode? s.protectedHeader = some b ∧
      JwsHeader.decode? s.protectedHeader = some header ∧
      Base64url.decode? j.payload = some verified.payload := by
  obtain ⟨-, hpasses, hpayload, -⟩ := verify_eq_ok_iff.mp h
  obtain ⟨header, _, _, ⟨hheader, -, -⟩, -⟩ := hpasses s hs
  obtain ⟨b, -, hb, -⟩ := JwsHeader.decode?_eq_some.mp hheader
  exact ⟨b, header, hb, hheader, hpayload⟩

/-- Entries of verified envelopes for which the same bytes are signed have one header and one payload,
whatever keys they are verified with. -/
theorem one_reading (h : j.verify lookup = .ok verified) (h' : j'.verify lookup' = .ok verified')
    (hs : s ∈ j.signatures) (hs' : s' ∈ j'.signatures)
    (hsame : signingInput s.protectedHeader j.payload = signingInput s'.protectedHeader j'.payload) :
    s.protectedHeader = s'.protectedHeader ∧ j.payload = j'.payload ∧
      (∃ header, JwsHeader.decode? s.protectedHeader = some header ∧
        JwsHeader.decode? s'.protectedHeader = some header) ∧
      verified.payload = verified'.payload := by
  obtain ⟨b, header, hb, hheader, hpayload⟩ := exists_decoded h hs
  obtain ⟨b', header', hb', -, hpayload'⟩ := exists_decoded h' hs'
  obtain ⟨hprotected, hsamePayload⟩ := signingInput_inj hb hpayload hb' hpayload' hsame
  refine ⟨hprotected, hsamePayload, ⟨header, hheader, hprotected ▸ hheader⟩, ?_⟩
  rw [hsamePayload, hpayload'] at hpayload
  exact (Option.some.inj hpayload).symm

theorem one_reading_renamed :
    ∃ (key : VerificationKey) (s s' : JwsSignature) (verified verified' : VerifiedJws), s ≠ s' ∧
      (⟨"Kg", [s]⟩ : Jws).verify (fun _ => .ok key) = .ok verified ∧
      (⟨"Kg", [s, s']⟩ : Jws).verify (fun _ => .ok key) = .ok verified' ∧
      s.protectedHeader = s'.protectedHeader ∧ verified.payload = verified'.payload := by
  have hrun : (do
      let key ← AgentKey.sample.verificationKey
      let s ← sampleEntry "Kg" none
      let s' : JwsSignature := { s with kid := "k" }
      let verified ← (⟨"Kg", [s]⟩ : Jws).verify fun _ => .ok key
      let verified' ← (⟨"Kg", [s, s']⟩ : Jws).verify fun _ => .ok key
      if s ≠ s' then .ok (verified, verified') else .error .refused).toOption.isSome = true := by
    decide +kernel
  obtain ⟨_, hok⟩ := exists_ok hrun
  simp only [bind_eq_ok] at hok
  obtain ⟨key, -, s, -, verified, hverified, verified', hverified', hchecked⟩ := hok
  split at hchecked
  · rename_i hdiffer
    obtain ⟨hprotected, -, -, hpayload⟩ := one_reading hverified hverified' List.mem_cons_self
      (List.mem_cons_of_mem s List.mem_cons_self) rfl
    exact ⟨key, s, _, verified, verified', hdiffer, hverified, hverified', hprotected, hpayload⟩
  · cases hchecked

end Jws
end SealedEnvelope
