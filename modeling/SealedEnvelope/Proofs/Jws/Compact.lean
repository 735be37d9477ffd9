import SealedEnvelope.Jws.Compact
import SealedEnvelope.Proofs.Codec.Base64url
import SealedEnvelope.Proofs.Json.Records
import SealedEnvelope.Proofs.Text.Parts

/-!
# Compact texts

An envelope with one entry whose header names the key has a compact text, and the compact reader takes
a text apart at its dots. The header has none, because it is in base64url, so the two undo each other on
the envelopes without a dot in the payload and in the signature. With a dot in one of them the text has
too many parts, and the reader refuses it. It never takes it for another envelope.

The header is written and read as the text that it is. What else it holds, and whether it is in base64url
as an encoder writes it, makes no difference.
-/

namespace SealedEnvelope

theorem JwsHeader.decode?_eq_some {encoded : Text} {header : JwsHeader} :
    decode? encoded = some header ↔
      ∃ b v, Base64url.decode? encoded = some b ∧ Json.parse? (Utf8.decodeLenient b) = some v ∧
        ofJson? v = some header := by
  simp only [decode?, Option.bind_eq_bind, Option.bind_eq_some_iff, exists_and_left]

theorem JwsHeader.dot_not_mem_of_decode? {encoded : Text} {header : JwsHeader}
    (h : decode? encoded = some header) : Jws.dot ∉ encoded := by
  obtain ⟨_, _, hb, -⟩ := decode?_eq_some.mp h
  exact Base64url.dot_not_mem_of_decode? hb

namespace Jws

variable {t : Text} {j : Jws}

def compactText (protectedHeader payload signature : Text) : Text :=
  protectedHeader ++ dot :: (payload ++ dot :: signature)

theorem splitOn_eq_three {protectedHeader payload signature : Text} :
    t.splitOn dot = [protectedHeader, payload, signature] ↔
      t = compactText protectedHeader payload signature ∧
        dot ∉ protectedHeader ∧ dot ∉ payload ∧ dot ∉ signature := by
  constructor
  · intro h
    have hmem : ∀ part ∈ [protectedHeader, payload, signature], dot ∉ part := by
      intro part hpart
      exact Text.not_mem_of_mem_splitOn (h ▸ hpart)
    simp only [List.forall_mem_cons, List.not_mem_nil, false_implies, implies_true, and_true] at hmem
    refine ⟨?_, hmem⟩
    rw [← Text.join_splitOn dot t, h]
    simp [Text.join, compactText, List.intercalate]
  · rintro ⟨rfl, hheader, hpayload, hsignature⟩
    rw [compactText, Text.splitOn_append_mark hheader, Text.splitOn_append_mark hpayload,
      Text.splitOn_of_not_mem hsignature]

/-! ### What is written and what is read -/

theorem compact_eq_ok :
    j.compact = .ok t ↔
      ∃ protectedHeader payload signature header kid,
        t = compactText protectedHeader payload signature ∧
          JwsHeader.decode? protectedHeader = some header ∧ header.kid = some kid ∧
          j = ⟨payload, [⟨protectedHeader, signature, kid⟩]⟩ := by
  constructor
  · intro h
    unfold compact at h
    split at h
    · rename_i s hsignatures
      simp only [bind_eq_ok] at h
      obtain ⟨decoded, hdecoded, v, hv, h⟩ := h
      split at h
      · rename_i hnamed
        obtain ⟨b, hb, rfl⟩ := Base64url.decodeText_eq_ok.mp hdecoded
        obtain ⟨header, hheader, hkid⟩ := Option.bind_eq_some_iff.mp hnamed
        obtain ⟨payload, signatures⟩ := j
        obtain rfl := hsignatures
        exact ⟨s.protectedHeader, payload, s.signature, header, s.kid, (Except.ok.inj h).symm,
          JwsHeader.decode?_eq_some.mpr ⟨b, v, hb, Json.parse_eq_ok.mp hv, hheader⟩, hkid, rfl⟩
      · cases h
    · cases h
  · rintro ⟨protectedHeader, payload, signature, header, kid, rfl, hdecoded, hkid, rfl⟩
    obtain ⟨b, v, hb, hv, hheader⟩ := JwsHeader.decode?_eq_some.mp hdecoded
    have htext := Base64url.decodeText_eq_ok.mpr ⟨b, hb, rfl⟩
    have hparsed : Json.parse (Utf8.decodeLenient b) .invalidFormat "JWS protected header" = .ok v :=
      Json.parse_eq_ok.mpr hv
    have hnamed : (JwsHeader.ofJson? v).bind JwsHeader.kid = some kid :=
      Option.bind_eq_some_iff.mpr ⟨header, hheader, hkid⟩
    simp only [compact, htext, ok_bind, hparsed, hnamed, if_true]
    rfl

/-- What a compact text is read as. Only the header is looked at. -/
theorem ofCompact_eq_ok :
    ofCompact t = .ok j ↔
      ∃ protectedHeader payload signature header kid,
        t.splitOn dot = [protectedHeader, payload, signature] ∧
          JwsHeader.decode? protectedHeader = some header ∧ header.kid = some kid ∧
          j = ⟨payload, [⟨protectedHeader, signature, kid⟩]⟩ := by
  constructor
  · intro h
    unfold ofCompact at h
    split at h
    · rename_i protectedHeader payload signature hparts
      split at h
      · cases h
      · rename_i header hheader
        split at h
        · cases h
        · rename_i kid hkid
          exact ⟨protectedHeader, payload, signature, header, kid, hparts, hheader, hkid,
            (Except.ok.inj h).symm⟩
    · cases h
  · rintro ⟨protectedHeader, payload, signature, header, kid, hparts, hheader, hkid, rfl⟩
    simp only [ofCompact, hparts, hheader, hkid]

/-! ### The envelopes that come back -/

/-- An envelope whose payload and signatures have no dot in them. -/
def Dotless (j : Jws) : Prop := dot ∉ j.payload ∧ ∀ s ∈ j.signatures, dot ∉ s.signature

theorem dotless_singleton {payload : Text} {s : JwsSignature} :
    Dotless ⟨payload, [s]⟩ ↔ dot ∉ payload ∧ dot ∉ s.signature := by
  rw [Dotless, List.forall_mem_singleton]

theorem ofCompact_iff_compact : ofCompact t = .ok j ↔ j.compact = .ok t ∧ j.Dotless := by
  rw [ofCompact_eq_ok, compact_eq_ok]
  constructor
  · rintro ⟨protectedHeader, payload, signature, header, kid, hparts, hheader, hkid, rfl⟩
    obtain ⟨rfl, -, hpayload, hsignature⟩ := splitOn_eq_three.mp hparts
    exact ⟨⟨protectedHeader, payload, signature, header, kid, rfl, hheader, hkid, rfl⟩,
      dotless_singleton.mpr ⟨hpayload, hsignature⟩⟩
  · rintro ⟨⟨protectedHeader, payload, signature, header, kid, rfl, hheader, hkid, rfl⟩, hdotless⟩
    obtain ⟨hpayload, hsignature⟩ := dotless_singleton.mp hdotless
    have hparts := splitOn_eq_three.mpr
      ⟨rfl, JwsHeader.dot_not_mem_of_decode? hheader, hpayload, hsignature⟩
    exact ⟨protectedHeader, payload, signature, header, kid, hparts, hheader, hkid, rfl⟩

theorem ofCompact_of_length_ne (h : (t.splitOn dot).length ≠ 3) :
    ofCompact t = .error .compactParts := by
  unfold ofCompact
  split
  · rename_i hparts
    exact absurd (congrArg List.length hparts) h
  · rfl

theorem length_splitOn_compactText {protectedHeader payload signature : Text}
    (h : dot ∈ payload ∨ dot ∈ signature) :
    3 < ((compactText protectedHeader payload signature).splitOn dot).length := by
  have hdots : 0 < payload.count dot + signature.count dot := by
    rcases h with h | h
    · exact Nat.add_pos_left (List.count_pos_iff.mpr h) _
    · exact Nat.add_pos_right _ (List.count_pos_iff.mpr h)
  rw [Text.length_splitOn, compactText]
  simp only [List.count_append, List.count_cons_self]
  omega

theorem ofCompact_of_not_dotless (h : j.compact = .ok t) (hdots : ¬j.Dotless) :
    ofCompact t = .error .compactParts := by
  obtain ⟨protectedHeader, payload, signature, header, kid, rfl, -, -, rfl⟩ := compact_eq_ok.mp h
  rw [dotless_singleton, not_and_or, not_not, not_not] at hdots
  exact ofCompact_of_length_ne (length_splitOn_compactText hdots).ne'

/-- Writing and reading undo each other between the envelopes without dots that have a compact text and
the texts that are read. An envelope with a dot in it is not read back as anything. -/
theorem compact_round_trip :
    (∀ (j : Jws) (t : Text), j.compact = .ok t → j.Dotless → ofCompact t = .ok j) ∧
    (∀ (j : Jws) (t : Text), j.compact = .ok t → ¬j.Dotless →
      ∃ e, ofCompact t = .error e ∧ e.code? = some .serializationError) ∧
    ∀ (t : Text) (j : Jws), ofCompact t = .ok j → j.compact = .ok t ∧ j.Dotless := by
  refine ⟨?_, ?_, fun _ _ => ofCompact_iff_compact.mp⟩
  · intro j t hcompact hdotless
    exact ofCompact_iff_compact.mpr ⟨hcompact, hdotless⟩
  · intro j t hcompact hdots
    exact ⟨.compactParts, ofCompact_of_not_dotless hcompact hdots, rfl⟩

/-- A header with a member of its own whose last digit no encoder writes, and a payload that is a dot. -/
theorem compact_round_trip_samples :
    ∃ (s : JwsSignature) (t u : Text),
      s.protectedHeader = "eyJ0eXAiOiJ0IiwiYWxnIjoiRWREU0EiLCJraWQiOiJrIiwieCI6MX1" ∧
        (⟨"Kg", [s]⟩ : Jws).compact = .ok t ∧ ofCompact t = .ok ⟨"Kg", [s]⟩ ∧
        (⟨".", [s]⟩ : Jws).compact = .ok u ∧
        ∃ e, ofCompact u = .error e ∧ e.code? = some .serializationError := by
  let s : JwsSignature := ⟨"eyJ0eXAiOiJ0IiwiYWxnIjoiRWREU0EiLCJraWQiOiJrIiwieCI6MX1", "A*", "k"⟩
  obtain ⟨hwritten, hrefused, hread⟩ := compact_round_trip
  have hheader : JwsHeader.decode? s.protectedHeader = some ⟨"t", .edDsa, some "k"⟩ := by
    decide +kernel
  have hcompact : ∀ payload, (⟨payload, [s]⟩ : Jws).compact =
      .ok (compactText s.protectedHeader payload s.signature) := by
    intro payload
    exact compact_eq_ok.mpr ⟨_, _, _, _, _, rfl, hheader, rfl, rfl⟩
  have hdotless : Dotless ⟨"Kg", [s]⟩ := dotless_singleton.mpr (by decide)
  have hdots : ¬Dotless ⟨".", [s]⟩ := mt dotless_singleton.mp (by decide)
  have hback := hread _ _ (hwritten _ _ (hcompact "Kg") hdotless)
  exact ⟨s, _, _, rfl, hback.1, hwritten _ _ (hcompact "Kg") hdotless, hcompact ".",
    hrefused _ _ (hcompact ".") hdots⟩

end Jws
end SealedEnvelope
