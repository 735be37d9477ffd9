import SealedEnvelope.Proofs.Envelope.Candidates
import SealedEnvelope.Proofs.Envelope.Serializations
import SealedEnvelope.Proofs.Json.Outline

/-!
# Members that no schema names

An envelope is read from the members that its schema names, at the top, in its entries and in their
headers. Whatever else stands there is not looked at, neither when the kind of the envelope is found out
nor when the envelope is refused. So a text with more in it is unpacked with the same outcome, and what
has been read of an envelope is all of it that there is to read.

Only at the top of an encrypted envelope a name is taken: with signatures it would be a signed one.
-/

namespace SealedEnvelope

namespace JwsSignature

def outline : Outline :=
  .members ["protected", "signature", "header"] fun key =>
    if key = "header" then .members ["kid"] fun _ => .whole else .whole

theorem staysWithin_schema : schema.StaysWithin outline := by
  have hheader : (Schema.object fun ms => Schema.field ms "kid" Schema.nonEmptyText).StaysWithin
      (.members ["kid"] fun _ => .whole) := by
    apply Schema.staysWithin_object
    intro ms
    rw [(Schema.staysWithin_whole _).field (by decide)]
  apply Schema.staysWithin_object
  intro ms
  rw [(Schema.staysWithin_whole _).field (by decide), (Schema.staysWithin_whole _).field (by decide),
    hheader.field (by decide)]

theorem retains_schema : schema.Retains outline toJson := by
  intro v s h
  obtain ⟨ms, rfl, hread⟩ := Schema.object_eq_ok.mp h
  simp only [bind_eq_ok, Schema.field_eq_ok, Schema.text_eq_ok, Schema.object_eq_ok,
    Schema.nonEmptyText_eq_ok] at hread
  obtain ⟨protectedHeader, hprotected, signature, hsignature, kid, ⟨header, hheader, hkid, -⟩, hpure⟩ :=
    hread
  obtain rfl := Except.ok.inj hpure
  rw [Option.map_some, outline, Outline.prune_members]
  simp only [List.map_cons, List.map_nil, hprotected, hsignature, hheader, if_true, Option.map_some,
    Outline.prune_members, hkid]
  rfl

end JwsSignature

namespace JweRecipient

def outline : Outline :=
  .members ["encrypted_key", "header"] fun key =>
    if key = "header" then .members ["kid", "sender_kid"] fun _ => .whole else .whole

theorem staysWithin_schema : schema.StaysWithin outline := by
  have hheader : (Schema.object fun ms => do
      let kid ← Schema.field ms "kid" Schema.nonEmptyText
      let senderKid ← Schema.field ms "sender_kid" (Schema.optional Schema.text)
      return (kid, senderKid)).StaysWithin (.members ["kid", "sender_kid"] fun _ => .whole) := by
    apply Schema.staysWithin_object
    intro ms
    rw [(Schema.staysWithin_whole _).field (by decide), (Schema.staysWithin_whole _).field (by decide)]
  apply Schema.staysWithin_object
  intro ms
  rw [(Schema.staysWithin_whole _).field (by decide), hheader.field (by decide)]

theorem retains_schema : schema.Retains outline toJson := by
  intro v r h
  obtain ⟨ms, rfl, hread⟩ := Schema.object_eq_ok.mp h
  simp only [bind_eq_ok, Schema.field_eq_ok, Schema.text_eq_ok, Schema.object_eq_ok,
    Schema.nonEmptyText_eq_ok, Schema.optional_text_eq_ok] at hread
  obtain ⟨encryptedKey, hencryptedKey, pair, ⟨header, hheader, kid, ⟨hkid, -⟩, senderKid, hsenderKid,
    hpair⟩, hpure⟩ := hread
  obtain rfl := Except.ok.inj hpair
  obtain rfl := Except.ok.inj hpure
  rw [Option.map_some, outline, Outline.prune_members]
  simp only [List.map_cons, List.map_nil, hencryptedKey, hheader, if_true, Option.map_some,
    Outline.prune_members, hkid, hsenderKid]
  cases senderKid <;> rfl

end JweRecipient

namespace Jws

def outline : Outline :=
  .members ["payload", "signatures"] fun key =>
    if key = "signatures" then .items JwsSignature.outline else .whole

theorem staysWithin_schema : schema.StaysWithin outline := by
  apply Schema.staysWithin_object
  intro ms
  rw [(Schema.staysWithin_whole _).field (by decide),
    JwsSignature.staysWithin_schema.nonEmptyList.field (by decide)]

theorem retains_schema : schema.Retains outline toJson := by
  intro v j h
  obtain ⟨ms, rfl, hread⟩ := Schema.object_eq_ok.mp h
  simp only [bind_eq_ok, Schema.field_eq_ok, Schema.text_eq_ok] at hread
  obtain ⟨payload, hpayload, signatures, hsignatures, hpure⟩ := hread
  obtain rfl := Except.ok.inj hpure
  have hlist := JwsSignature.retains_schema.nonEmptyList _ _ hsignatures
  rw [Option.map_some, outline, Outline.prune_members]
  simp only [List.map_cons, List.map_nil, hpayload, hlist, if_true, Option.map_some]
  rfl

end Jws

namespace Jwe

def outline : Outline :=
  .members ["protected", "recipients", "iv", "ciphertext", "tag"] fun key =>
    if key = "recipients" then .items JweRecipient.outline else .whole

theorem staysWithin_schema : schema.StaysWithin outline := by
  apply Schema.staysWithin_object
  intro ms
  rw [(Schema.staysWithin_whole _).field (by decide),
    JweRecipient.staysWithin_schema.nonEmptyList.field (by decide),
    (Schema.staysWithin_whole _).field (by decide), (Schema.staysWithin_whole _).field (by decide),
    (Schema.staysWithin_whole _).field (by decide)]

theorem retains_schema : schema.Retains outline toJson := by
  intro v j h
  obtain ⟨ms, rfl, hread⟩ := Schema.object_eq_ok.mp h
  simp only [bind_eq_ok, Schema.field_eq_ok, Schema.text_eq_ok] at hread
  obtain ⟨protectedHeader, hprotected, recipients, hrecipients, iv, hiv, ciphertext, hciphertext, tag,
    htag, hpure⟩ := hread
  obtain rfl := Except.ok.inj hpure
  have hlist := JweRecipient.retains_schema.nonEmptyList _ _ hrecipients
  rw [Option.map_some, outline, Outline.prune_members]
  simp only [List.map_cons, List.map_nil, hprotected, hlist, hiv, hciphertext, htag, if_true,
    Option.map_some]
  rfl

end Jwe

namespace Wire

variable {v w : Json}

theorem ofJson_widened_jws (h : v.hasMember "signatures" = true) (hwidened : Jws.outline.Widened v w) :
    ofJson w = ofJson v := by
  have hmember : w.hasMember "signatures" = true := (hwidened.hasMember_eq (by decide)).trans h
  simp only [ofJson, h, hmember, if_true, Jws.ofJson, Jws.staysWithin_schema.read_widened hwidened]

theorem ofJson_widened_jwe (h : v.hasMember "signatures" = false) (h' : w.hasMember "signatures" = false)
    (hwidened : Jwe.outline.Widened v w) (hrecipients : v.hasMember "recipients" = true) :
    ofJson w = ofJson v := by
  have hmember : w.hasMember "recipients" = true := (hwidened.hasMember_eq (by decide)).trans hrecipients
  simp only [ofJson, h, h', hmember, hrecipients, Bool.false_eq_true, if_false, if_true, Jwe.ofJson,
    Jwe.staysWithin_schema.read_widened hwidened]

end Wire

namespace Envelope

/-- An envelope, and the same envelope with members that its schema does not name. Signatures make every
object a signed envelope, so they are not added to an encrypted one. -/
inductive Widened (v w : Json) : Prop
  | signed (h : v.hasMember "signatures" = true) (hwidened : Jws.outline.Widened v w)
  | encrypted (h : v.hasMember "signatures" = false) (h' : w.hasMember "signatures" = false)
    (hrecipients : v.hasMember "recipients" = true) (hwidened : Jwe.outline.Widened v w)

theorem Widened.ofJson_eq {v w : Json} (h : Widened v w) : Wire.ofJson w = Wire.ofJson v := by
  cases h with
  | signed h hwidened => exact Wire.ofJson_widened_jws h hwidened
  | encrypted h h' hrecipients hwidened => exact Wire.ofJson_widened_jwe h h' hwidened hrecipients

/-- Members that the schema of an envelope does not name make no difference to what it is unpacked as, be
it a payload or an error. What is read of an envelope has no such members and is read as itself. -/
theorem unpack_widened :
    (∀ (t t' : Text) (v w : Json), Json.parse? t.trim = some v → Json.parse? t'.trim = some w →
      Widened v w → ∀ (keys : KeyManager) (options : UnpackOptions),
        options.maxEnvelopeBytes.lt (.ofNat t.utf8.length) = false →
        options.maxEnvelopeBytes.lt (.ofNat t'.utf8.length) = false →
          unpack t' keys options = unpack t keys options) ∧
    (∀ (v : Json) (j : Jws), Jws.ofJson (some v) = .ok j →
      j.toJson = Jws.outline.prune v ∧ Jws.outline.Covers j.toJson ∧ Jws.ofJson (some j.toJson) = .ok j) ∧
    ∀ (v : Json) (j : Jwe), Jwe.ofJson (some v) = .ok j →
      j.toJson = Jwe.outline.prune v ∧ Jwe.outline.Covers j.toJson ∧
        Jwe.ofJson (some j.toJson) = .ok j := by
  refine ⟨?_, ?_, ?_⟩
  · intro t t' v w hv hw hwidened keys options ht ht'
    have hwire : Wire.ofText t'.trim = Wire.ofText t.trim := by
      simp only [Wire.ofText, hv, hw, hwidened.ofJson_eq]
    exact unpack_congr ht' ht hwire keys
  · intro v j h
    exact Jws.staysWithin_schema.read_retained Jws.retains_schema h
  · intro v j h
    exact Jwe.staysWithin_schema.read_retained Jwe.retains_schema h

/-! ### Envelopes with more members -/

/-- The members of a header with two more, one of which has the name of an index. -/
def crowdedHeader (kid : Text) : List (Text × Json) :=
  [("kid", .str kid), ("__proto__", .obj []), ("7", .null)]

def crowdedEntry (s : JwsSignature) : Json :=
  .obj [("payload", .null), ("protected", .str s.protectedHeader), ("signature", .str s.signature),
    ("header", .obj (Members.arranged (crowdedHeader s.kid)))]

/-- A signed envelope that has recipients as well. -/
def crowdedSigned (payload : Text) (s : JwsSignature) : Json :=
  .obj [("recipients", .arr []), ("payload", .str payload), ("signatures", .arr [crowdedEntry s])]

/-- An encrypted envelope with a payload in the open. -/
def crowdedEncrypted (j : Jwe) : Json :=
  .obj [("payload", .null), ("protected", .str j.protectedHeader),
    ("recipients", .arr (j.recipients.map JweRecipient.toJson)), ("iv", .str j.iv),
    ("ciphertext", .str j.ciphertext), ("tag", .str j.tag)]

theorem distinct_crowdedHeader (kid : Text) : Members.Distinct (crowdedHeader kid) := by
  change (["kid", "__proto__", "7"] : List Text).Nodup
  decide

theorem widened_crowdedEntry (s : JwsSignature) :
    JwsSignature.outline.Widened s.toJson (crowdedEntry s) := by
  have hheader : (Outline.members ["kid"] fun _ => .whole).Widened (.obj [("kid", .str s.kid)])
      (.obj (Members.arranged (crowdedHeader s.kid))) := by
    refine .trans (.added "__proto__" (by decide) (.obj []) _)
      (.trans (.added "7" (by decide) .null _) ?_)
    have hperm := List.reverse_perm (crowdedHeader s.kid)
    exact .reordered ((distinct_crowdedHeader s.kid).perm hperm)
      (hperm.trans (Members.arranged_perm _).symm)
  exact .trans (.member [("protected", _), ("signature", _)] [] hheader)
    (.added "payload" (by decide) .null _)

theorem widened_crowdedSigned (payload : Text) (s : JwsSignature) :
    Jws.outline.Widened (Jws.toJson ⟨payload, [s]⟩) (crowdedSigned payload s) :=
  .trans (.member [("payload", _)] [] (.item [] [] (widened_crowdedEntry s)))
    (.added "recipients" (by decide) (.arr []) _)

theorem settled_crowdedSigned (payload : Text) (s : JwsSignature) :
    (crowdedSigned payload s).Settled := by
  have hheader : Json.Settled (.obj (Members.arranged (crowdedHeader s.kid))) := by
    refine ⟨Members.ofWritten_arranged (distinct_crowdedHeader s.kid), ?_⟩
    have hmembers : Json.SettledMembers (crowdedHeader s.kid) :=
      ⟨trivial, Json.settled_obj [] rfl (by decide) trivial, trivial, trivial⟩
    rw [Json.settledMembers_iff] at hmembers ⊢
    exact fun m hm => hmembers m ((Members.arranged_perm _).mem_iff.mp hm)
  have hentry : (crowdedEntry s).Settled :=
    Json.settled_obj ["payload", "protected", "signature", "header"] rfl (by decide)
      ⟨trivial, trivial, trivial, hheader, trivial⟩
  exact Json.settled_obj ["recipients", "payload", "signatures"] rfl (by decide)
    ⟨trivial, trivial, ⟨hentry, trivial⟩, trivial⟩

theorem settled_crowdedEncrypted (j : Jwe) : (crowdedEncrypted j).Settled := by
  obtain ⟨-, hmembers⟩ := j.settled_toJson
  exact Json.settled_obj ["payload", "protected", "recipients", "iv", "ciphertext", "tag"] rfl (by decide)
    ⟨trivial, hmembers⟩

/-- A signed envelope is unpacked although it has recipients and more members at every depth, and an
encrypted one has one outcome with and without a payload in the open. -/
theorem unpack_widened_samples :
    (∃ (payload : Text) (s : JwsSignature),
      Jws.ofJson (some (crowdedSigned payload s)) = .ok ⟨payload, [s]⟩ ∧
        Jws.outline.prune (crowdedSigned payload s) = Jws.toJson ⟨payload, [s]⟩ ∧
        unpack (crowdedSigned payload s).text ⟨[.sample], none⟩
            { requireSignature := true, maxEnvelopeBytes := .infinite false } =
          .ok ⟨.str "x", ⟨.signed, ["did:example:alice#key"], none, none⟩⟩) ∧
    ∃ j : Jwe, Jwe.ofJson (some (crowdedEncrypted j)) = .ok j ∧
      Jwe.outline.prune (crowdedEncrypted j) = j.toJson ∧
      unpack (crowdedEncrypted j).text ⟨[recipientKey], none⟩ { maxEnvelopeBytes := .infinite false } =
        unpack j.serialized ⟨[recipientKey], none⟩ { maxEnvelopeBytes := .infinite false } := by
  obtain ⟨hunpack, hjws, hjwe⟩ := unpack_widened
  constructor
  · have hsigns : AgentKey.sample.Signs
        (Jws.signedInput .sample none (Json.normal (.str "x")).text.utf8) :=
      ⟨by decide, fun c h => (nomatch h), by decide +kernel⟩
    have hknown : KeyManager.Knows ⟨[.sample], none⟩ .sample := by decide +kernel
    obtain ⟨signature, -, haccepted⟩ := hsigns.exists_signature
    let payload : Text := Base64url.encode (Json.normal (.str "x")).text.utf8
    let s : JwsSignature := ⟨(Jws.headerOf .sample none).encode, Base64url.encode signature,
      AgentKey.sample.keyId⟩
    have hwidened := widened_crowdedSigned payload s
    have hcrowded : Jws.ofJson (some (crowdedSigned payload s)) = .ok ⟨payload, [s]⟩ :=
      (Jws.staysWithin_schema.read_widened hwidened).trans (Jws.ofJson_madeBy (by decide) none _ _)
    refine ⟨payload, s, hcrowded, (hjws _ _ hcrowded).1.symm, ?_⟩
    rw [hunpack _ _ _ _ (Json.parse?_trim_text (Jws.settled_toJson ⟨payload, [s]⟩))
      (Json.parse?_trim_text (settled_crowdedSigned payload s)) (.signed rfl hwidened) _ _
      (infinite_lt _) (infinite_lt _)]
    have hformed : Json.WellFormed (.str "x") := trivial
    exact unpack_madeBy hformed (Or.inl rfl) hknown haccepted (ofText_general (by decide))
      (infinite_lt _) nofun
  · obtain ⟨j, entry, -, -, hentries, hentry, -, -⟩ := exists_sample
    have hread : Jwe.ofJson (some j.toJson) = .ok j := by
      apply Jwe.ofJson_toJson
      · simp [hentries]
      · simp [hentries, hentry]
        decide
    have hwidened : Jwe.outline.Widened j.toJson (crowdedEncrypted j) :=
      .added "payload" (by decide) .null _
    have hcrowded : Jwe.ofJson (some (crowdedEncrypted j)) = .ok j :=
      (Jwe.staysWithin_schema.read_widened hwidened).trans hread
    exact ⟨j, hcrowded, (hjwe _ j hcrowded).1.symm,
      hunpack _ _ _ _ (Json.parse?_trim_text j.settled_toJson)
        (Json.parse?_trim_text (settled_crowdedEncrypted j)) (.encrypted rfl rfl rfl hwidened) _ _
        (infinite_lt _) (infinite_lt _)⟩

end Envelope
end SealedEnvelope
