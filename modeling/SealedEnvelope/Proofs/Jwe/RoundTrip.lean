import SealedEnvelope.Jwe.Basic
import SealedEnvelope.Proofs.Key.Jwk

/-!
# Encrypted envelopes read back

An envelope comes back from its text, and its header from its encoding. Nothing about the cipher is
needed for that: the sealed content and the wrapped keys are texts here.
-/

namespace SealedEnvelope

namespace JweHeader

theorem settled_toJson (h : JweHeader) : h.toJson.Settled := by
  apply Json.settled_ofOptional ["epk", "apv", "apu", "typ", "cty", "enc", "alg"] rfl (by decide)
  simp only [List.forall_mem_cons, List.not_mem_nil, false_implies, implies_true, and_true]
  exact ⟨Json.settled_some h.epk.settled_toJson, Json.settled_some trivial,
    Json.settled_map_str h.apu, Json.settled_some trivial, Json.settled_map_str h.cty,
    Json.settled_some trivial, Json.settled_some trivial⟩

theorem schema_toJson (h : JweHeader) : schema (some h.toJson) = .ok h := by
  obtain ⟨⟨curve, x, y, kid⟩, apv, apu, typ, cty⟩ := h
  cases curve <;> cases kid <;> cases apu <;> cases cty <;> rfl

theorem decode_eq_ok {t : Text} {code : ErrorCode} {header : JweHeader} :
    decode t code = .ok header ↔
      ∃ b v, Base64url.decode? t = some b ∧ Json.parse? (Utf8.decodeLenient b) = some v ∧
        schema (some v) = .ok header := by
  unfold decode
  cases Base64url.decode? t with
  | none => simp
  | some b => simp [bind_eq_ok, Json.parse_eq_ok, Schema.read_eq_ok]

/-- Only the errors depend on the code. -/
theorem decode_code {t : Text} {code code' : ErrorCode} {header : JweHeader} :
    decode t code = .ok header ↔ decode t code' = .ok header := by
  rw [decode_eq_ok, decode_eq_ok]

theorem decode_encode (h : JweHeader) (code : ErrorCode) : decode h.encode code = .ok h := by
  refine decode_eq_ok.mpr ⟨_, h.toJson, Base64url.decode?_encodeText _, ?_, h.schema_toJson⟩
  rw [Json.decodeLenient_utf8_text h.settled_toJson, Json.parse?_text h.settled_toJson]

theorem utf8_of_decode {t : Text} {code : ErrorCode} {header : JweHeader}
    (h : decode t code = .ok header) : t.utf8 = t.map UInt16.toUInt8 := by
  obtain ⟨b, -, hb, -⟩ := decode_eq_ok.mp h
  exact Utf8.utf8_eq_map (Base64url.lt_of_decode? hb)

end JweHeader

namespace JweRecipient

theorem settled_toJson (r : JweRecipient) : r.toJson.Settled := by
  refine Json.settled_obj ["encrypted_key", "header"] rfl (by decide) ⟨trivial, ?_, trivial⟩
  apply Json.settled_ofOptional ["kid", "sender_kid"] rfl (by decide)
  simp only [List.forall_mem_cons, List.not_mem_nil, false_implies, implies_true, and_true]
  exact ⟨Json.settled_some trivial, Json.settled_map_str r.senderKid⟩

theorem schema_toJson {r : JweRecipient} (hkid : r.kid ≠ []) : schema (some r.toJson) = .ok r := by
  obtain ⟨encryptedKey, kid, senderKid⟩ := r
  cases kid with
  | nil => exact absurd rfl hkid
  | cons u kid => cases senderKid <;> rfl

end JweRecipient

namespace Jwe

theorem settled_toJson (j : Jwe) : j.toJson.Settled := by
  apply Json.settled_obj ["protected", "recipients", "iv", "ciphertext", "tag"] rfl (by decide)
  refine ⟨trivial, ?_, trivial, trivial, trivial, trivial⟩
  apply Json.settled_map_arr
  intro r _
  exact r.settled_toJson

theorem ofJson_toJson {j : Jwe} (hne : j.recipients ≠ []) (hkids : ∀ r ∈ j.recipients, r.kid ≠ []) :
    ofJson (some j.toJson) = .ok j := by
  have hitems : Schema.nonEmptyList JweRecipient.schema
      (some (.arr (j.recipients.map JweRecipient.toJson))) = .ok j.recipients := by
    apply Schema.nonEmptyList_map hne
    intro r hr
    exact JweRecipient.schema_toJson (hkids r hr)
  have hschema : schema (some j.toJson) = .ok j := by
    change (do
      let recipients ← Schema.within "recipients" (Schema.nonEmptyList JweRecipient.schema)
        (some (.arr (j.recipients.map JweRecipient.toJson)))
      return (⟨j.protectedHeader, recipients, j.iv, j.ciphertext, j.tag⟩ : Jwe)) = .ok j
    simp only [Schema.within, hitems]
    rfl
  exact Schema.read_eq_ok.mpr hschema

end Jwe
end SealedEnvelope
