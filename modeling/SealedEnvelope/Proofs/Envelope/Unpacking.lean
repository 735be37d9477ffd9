import SealedEnvelope.Envelope.Unpack
import SealedEnvelope.Proofs.Json.Reading
import SealedEnvelope.Proofs.Outcome

/-!
# The steps of unpacking

A text is unpacked in four steps, and it is unpacked only if all of them succeed. The mode that is
reported is the one that the shape of the envelope has, and the shape is a matter of the text alone. A
text that has no shape is refused for a reason that tells whether it was read as JSON or as a compact
envelope.
-/

namespace SealedEnvelope

/-! ### Why a text has no shape -/

theorem Schema.failsAs_read {α : Type} {s : Schema α} {v : Option Json} {code : ErrorCode}
    {what : Text} {P : Error → Prop} (h : ∀ path, P (.malformed code what path)) :
    FailsAs P (s.read v code what) := by
  simp only [read]
  split
  · exact failsAs_ok _
  · exact failsAs_error.mpr (h _)

theorem Json.failsAs_parse {t : Text} {code : ErrorCode} {what : Text} {P : Error → Prop}
    (h : P (.notJson code what)) : FailsAs P (parse t code what) := by
  simp only [parse]
  split
  · exact failsAs_ok _
  · exact failsAs_error.mpr h

/-- What a JSON value is refused for as an envelope. -/
inductive Wire.JsonFault : Error → Prop
  | jws (path : Path) : JsonFault (.malformed .serializationError "JWS" path)
  | jwe (path : Path) : JsonFault (.malformed .serializationError "JWE" path)
  | encodedHeader : JsonFault (.headerNotBase64url .decryptionFailed)
  | headerText : JsonFault (.notJson .decryptionFailed "JWE protected header")
  | header (path : Path) : JsonFault (.malformed .decryptionFailed "JWE protected header" path)

/-- What a text is refused for as a compact envelope. -/
inductive Jws.CompactFault : Error → Prop
  | parts : CompactFault .compactParts
  | header : CompactFault .compactHeader
  | headerKid : CompactFault .compactHeaderKid

theorem JweHeader.failsAs_decode (t : Text) :
    FailsAs Wire.JsonFault (decode t .decryptionFailed) := by
  simp only [decode]
  split
  · exact failsAs_error.mpr .encodedHeader
  · refine FailsAs.bind (Json.failsAs_parse .headerText) ?_
    intro v _
    exact Schema.failsAs_read .header

theorem Wire.failsAs_ofJson (v : Json) : FailsAs JsonFault (ofJson v) := by
  simp only [ofJson]
  split
  · exact (Schema.failsAs_read .jws).map _
  · split
    · refine FailsAs.bind (Schema.failsAs_read .jwe) ?_
      intro j _
      refine FailsAs.bind (JweHeader.failsAs_decode _) ?_
      simp
    · exact failsAs_ok _

theorem Jws.failsAs_ofCompact (t : Text) : FailsAs CompactFault (ofCompact t) := by
  simp only [ofCompact]
  split
  · split
    · exact failsAs_error.mpr .header
    · split
      · exact failsAs_error.mpr .headerKid
      · exact failsAs_ok _
  · exact failsAs_error.mpr .parts

theorem Wire.JsonFault.not_compact {e : Error} (h : JsonFault e) : ¬Jws.CompactFault e := by
  intro hcompact
  cases hcompact <;> cases h

namespace Envelope

theorem unpack_eq_ok {transport : Text} {keys : KeyManager} {options : UnpackOptions}
    {u : Unpacked} :
    unpack transport keys options = .ok u ↔
      checkSize transport options = .ok () ∧
        ∃ w, Wire.ofText transport.trim = .ok w ∧ checkMode w.mode options = .ok () ∧
          openWire w keys options = .ok u := by
  unfold unpack
  simp only [bind_eq_ok]
  constructor
  · rintro ⟨⟨⟩, hsize, w, hwire, ⟨⟩, hmode, hopen⟩
    exact ⟨hsize, w, hwire, hmode, hopen⟩
  · rintro ⟨hsize, w, hwire, hmode, hopen⟩
    exact ⟨(), hsize, w, hwire, (), hmode, hopen⟩

theorem checkSize_eq_ok {transport : Text} {options : UnpackOptions} :
    checkSize transport options = .ok () ↔
      options.maxEnvelopeBytes.lt (.ofNat transport.utf8.length) = false := by
  unfold checkSize
  simp only
  split
  · rename_i h
    exact ⟨fun h' => (nomatch h'), fun h' => absurd h (h' ▸ Bool.false_ne_true)⟩
  · rename_i h
    exact ⟨fun _ => Bool.not_eq_true _ ▸ h, fun _ => rfl⟩

theorem infinite_lt (d : Double) : (Double.infinite false).lt d = false := by
  cases d with
  | nan => rfl
  | infinite negative => rfl
  | finite negative units => rfl

theorem checkMode_eq_ok {mode : EnvelopeMode} {options : UnpackOptions} :
    checkMode mode options = .ok () ↔ ∀ expected ∈ options.expectedMode, expected = mode := by
  unfold checkMode
  cases hexpected : options.expectedMode with
  | none => exact ⟨fun _ _ h => (nomatch h), fun _ => rfl⟩
  | some expected =>
    simp only
    split
    · rename_i heq
      exact ⟨fun _ e he => Option.some.inj he ▸ heq, fun _ => rfl⟩
    · rename_i hne
      exact ⟨fun h => (nomatch h), fun h => absurd (h expected rfl) hne⟩

theorem checkUnsigned_eq_ok {mode : EnvelopeMode} {options : UnpackOptions} :
    checkUnsigned mode options = .ok () ↔ options.requireSignature = false := by
  unfold checkUnsigned
  cases options.requireSignature with
  | true => exact ⟨fun h => (nomatch h), fun h => (nomatch h)⟩
  | false => exact ⟨fun _ => rfl, fun _ => rfl⟩

/-! ### The shape of an envelope -/

/-- An object with signatures is a signed envelope, whatever else it is. -/
theorem mode_of_signatures {v : Json} {w : Wire} (h : v.hasMember "signatures" = true)
    (hw : Wire.ofJson v = .ok w) : w.mode = .signed := by
  unfold Wire.ofJson at hw
  rw [if_pos h, map_eq_ok] at hw
  obtain ⟨j, -, rfl⟩ := hw
  rfl

/-- Any other object with recipients is an encrypted one. -/
theorem mode_of_recipients {v : Json} {w : Wire} (hno : v.hasMember "signatures" = false)
    (h : v.hasMember "recipients" = true) (hw : Wire.ofJson v = .ok w) :
    w.mode = .encrypted ∨ w.mode = .signedEncrypted := by
  unfold Wire.ofJson at hw
  rw [if_neg (hno ▸ Bool.false_ne_true), if_pos h] at hw
  simp only [bind_eq_ok] at hw
  obtain ⟨j, -, header, -, hpure⟩ := hw
  rw [← Except.ok.inj hpure]
  unfold Wire.mode
  simp only
  split
  · exact Or.inr rfl
  · exact Or.inl rfl

theorem ofJson_of_no_members {v : Json} (hsignatures : v.hasMember "signatures" = false)
    (hrecipients : v.hasMember "recipients" = false) : Wire.ofJson v = .ok (.plain v) := by
  unfold Wire.ofJson
  rw [if_neg (hsignatures ▸ Bool.false_ne_true), if_neg (hrecipients ▸ Bool.false_ne_true)]

theorem ofText_text {v : Json} (h : v.Settled) : Wire.ofText v.text.trim = Wire.ofJson v := by
  rw [Wire.ofText, Json.parse?_trim_text h]

theorem decodePayload_text {v : Json} (h : v.Settled) (what : Text) :
    decodePayload v.text.utf8 what = .ok v := by
  unfold decodePayload
  rw [Json.decode?_utf8_text h]
  simp only
  unfold Json.parse
  rw [Json.parse?_text h]

theorem mode_openNested {opened : OpenedJwe} {keys : KeyManager} {u : Unpacked}
    (h : openNested opened keys = .ok u) : u.provenance.mode = .signedEncrypted := by
  unfold openNested at h
  simp only [bind_eq_ok] at h
  obtain ⟨v, -, inner, -, verified, -, h⟩ := h
  split at h
  · rw [bind_eq_ok] at h
    obtain ⟨payload, -, h⟩ := h
    rw [← Except.ok.inj h]
  · exact nomatch h

theorem mode_openWire {w : Wire} {keys : KeyManager} {options : UnpackOptions} {u : Unpacked}
    (h : openWire w keys options = .ok u) : u.provenance.mode = w.mode := by
  unfold openWire at h
  cases w with
  | plain payload =>
    simp only [bind_eq_ok] at h
    obtain ⟨⟨⟩, -, h⟩ := h
    rw [← Except.ok.inj h]
    rfl
  | signed j =>
    simp only [bind_eq_ok] at h
    obtain ⟨opened, -, h⟩ := h
    rw [← Except.ok.inj h]
    rfl
  | encrypted j header =>
    simp only [openEncrypted, bind_eq_ok] at h
    obtain ⟨opened, -, h⟩ := h
    unfold Wire.mode
    simp only
    split at h
    · rename_i hnested
      rw [if_pos hnested]
      exact mode_openNested h
    · rename_i hnested
      rw [if_neg hnested]
      simp only [bind_eq_ok] at h
      obtain ⟨⟨⟩, -, payload, -, h⟩ := h
      rw [← Except.ok.inj h]

end Envelope
end SealedEnvelope
