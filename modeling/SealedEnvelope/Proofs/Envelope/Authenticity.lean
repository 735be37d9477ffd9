import SealedEnvelope.Envelope.Pack
import SealedEnvelope.Proofs.Envelope.Unpacking
import SealedEnvelope.Proofs.Json.Records
import SealedEnvelope.Proofs.Jws.Verification

/-!
# What is reported as signed is signed

A payload is given out as signed only if a signed envelope in the text carries it and all signatures of
that envelope are authentic. The signed envelope is the text itself, in one of two forms, or the content
of an encrypted envelope that a key of the manager has opened.
-/

namespace SealedEnvelope

namespace Envelope

/-- A signed envelope that a text carries, the mode that it is reported under, and the sender that the
envelope around it names. -/
inductive Carries (transport : Text) (keys : KeyManager) :
    Jws → EnvelopeMode → Option Text → Prop
  | general {v : Json} {j : Jws} (hv : Json.parse? transport.trim = some v)
      (hj : Jws.ofJson (some v) = .ok j) : Carries transport keys j .signed none
  | compact {j : Jws} (hv : Json.parse? transport.trim = none)
      (hj : Jws.ofCompact transport.trim = .ok j) : Carries transport keys j .signed none
  | nested {outer inner : Json} {jwe : Jwe} {kid : Text} {opened : OpenedJwe} {j : Jws}
      (houter : Json.parse? transport.trim = some outer)
      (hjwe : Jwe.ofJson (some outer) = .ok jwe) (hopened : openWith jwe keys kid = .ok opened)
      (hinner : decodePayload opened.plaintext "nested JWS" = .ok inner)
      (hj : Jws.ofJson (some inner) = .ok j) :
      Carries transport keys j .signedEncrypted opened.senderKidHint

theorem decodePayload_eq_ok {b : Bytes} {what : Text} {v : Json}
    (h : decodePayload b what = .ok v) :
    ∃ t, Utf8.decode? b = some t ∧ Json.parse? t = some v := by
  unfold decodePayload at h
  split at h
  · cases h
  · rename_i t ht
    exact ⟨t, ht, Json.parse_eq_ok.mp h⟩

/-! ### Where the parts of an envelope come from -/

theorem signed_of_ofText {transport : Text} {keys : KeyManager} {j : Jws}
    (h : Wire.ofText transport.trim = .ok (.signed j)) : Carries transport keys j .signed none := by
  unfold Wire.ofText at h
  split at h
  · rename_i v hv
    unfold Wire.ofJson at h
    split at h
    · obtain ⟨read, hread, hwire⟩ := map_eq_ok.mp h
      obtain rfl := Wire.signed.inj hwire
      exact .general hv hread
    · split at h
      · simp only [bind_eq_ok] at h
        obtain ⟨jwe, -, header, -, hwire⟩ := h
        cases hwire
      · cases h
  · rename_i hv
    split at h
    · obtain ⟨read, hread, hwire⟩ := map_eq_ok.mp h
      obtain rfl := Wire.signed.inj hwire
      exact .compact hv hread
    · cases h

theorem encrypted_of_ofText {t : Text} {jwe : Jwe} {header : JweHeader}
    (h : Wire.ofText t = .ok (.encrypted jwe header)) :
    ∃ v, Json.parse? t = some v ∧ Jwe.ofJson (some v) = .ok jwe := by
  unfold Wire.ofText at h
  split at h
  · rename_i v hv
    unfold Wire.ofJson at h
    split at h
    · obtain ⟨read, -, hwire⟩ := map_eq_ok.mp h
      cases hwire
    · split at h
      · simp only [bind_eq_ok] at h
        obtain ⟨read, hread, header', -, hwire⟩ := h
        cases hwire
        exact ⟨v, hv, hread⟩
      · cases h
  · split at h
    · obtain ⟨read, -, hwire⟩ := map_eq_ok.mp h
      cases hwire
    · cases h

theorem openFirst_eq_ok {j : Jwe} {keys : KeyManager} {opened : OpenedJwe} {kids : List Text}
    {failure : Error} (h : openFirst j keys failure kids = .ok opened) :
    ∃ kid ∈ kids, openWith j keys kid = .ok opened := by
  induction kids generalizing failure with
  | nil => cases h
  | cons kid rest ih =>
    unfold openFirst at h
    split at h
    · rename_i found hfound
      obtain rfl := Except.ok.inj h
      exact ⟨kid, List.mem_cons_self, hfound⟩
    · split at h
      · obtain ⟨kid', hmem, hopened⟩ := ih h
        exact ⟨kid', List.mem_cons_of_mem kid hmem, hopened⟩
      · cases h

theorem hintMatches_iff {hint : Option Text} {signerKids : List Text} :
    hintMatches hint signerKids = true ↔ ∀ kid ∈ hint, kid ∈ signerKids := by
  cases hint with
  | none => exact ⟨fun _ _ h => (nomatch h), fun _ => rfl⟩
  | some sender =>
    unfold hintMatches
    rw [List.contains_iff_mem]
    exact ⟨fun h kid hkid => Option.some.inj hkid ▸ h, fun h => h sender rfl⟩

/-! ### Signed payloads -/

/-- The payload and the signers that are reported are those of a signed envelope whose signatures are
all authentic. -/
def Signed (transport : Text) (keys : KeyManager) (u : Unpacked) : Prop :=
  ∃ j, Carries transport keys j u.provenance.mode u.provenance.senderKidHint ∧ j.signatures ≠ [] ∧
    u.provenance.signerKids = j.signatures.map JwsSignature.kid ∧
    (∀ s ∈ j.signatures, s.Authentic j.payload keys) ∧
    (∃ b t, Base64url.decode? j.payload = some b ∧ Utf8.decode? b = some t ∧
      Json.parse? t = some u.payload) ∧
    ∀ hint ∈ u.provenance.senderKidHint, hint ∈ u.provenance.signerKids

theorem signed_of_openSigned {transport : Text} {keys : KeyManager} {j : Jws} {v : Json}
    {signerKids : List Text} (hcarries : Carries transport keys j .signed none)
    (h : openSigned j keys = .ok (v, signerKids)) :
    Signed transport keys ⟨v, ⟨.signed, signerKids, none, none⟩⟩ := by
  simp only [openSigned, bind_eq_ok] at h
  obtain ⟨verified, hverified, payload, hpayload, hresult⟩ := h
  obtain ⟨rfl, rfl⟩ := Prod.mk.inj (Except.ok.inj hresult)
  obtain ⟨hnonempty, hauthentic, hdecoded, hsigners⟩ := Jws.verify_eq_ok hverified
  obtain ⟨t, ht, hparsed⟩ := decodePayload_eq_ok hpayload
  exact ⟨j, hcarries, hnonempty, hsigners, hauthentic, ⟨_, t, hdecoded, ht, hparsed⟩,
    fun _ h => nomatch h⟩

theorem signed_of_openNested {transport : Text} {keys : KeyManager} {outer : Json} {jwe : Jwe}
    {kid : Text} {opened : OpenedJwe} {u : Unpacked}
    (houter : Json.parse? transport.trim = some outer) (hjwe : Jwe.ofJson (some outer) = .ok jwe)
    (hopened : openWith jwe keys kid = .ok opened) (h : openNested opened keys = .ok u) :
    Signed transport keys u := by
  simp only [openNested, bind_eq_ok] at h
  obtain ⟨inner, hinner, j, hj, verified, hverified, h⟩ := h
  split at h
  · rename_i hhint
    obtain ⟨payload, hpayload, hresult⟩ := bind_eq_ok.mp h
    obtain rfl := Except.ok.inj hresult
    obtain ⟨hnonempty, hauthentic, hdecoded, hsigners⟩ := Jws.verify_eq_ok hverified
    obtain ⟨t, ht, hparsed⟩ := decodePayload_eq_ok hpayload
    exact ⟨j, .nested houter hjwe hopened hinner hj, hnonempty, hsigners, hauthentic,
      ⟨_, t, hdecoded, ht, hparsed⟩, hintMatches_iff.mp hhint⟩
  · cases h

theorem openEncrypted_eq_ok {transport : Text} {v : Json} {jwe : Jwe} {header : JweHeader}
    {keys : KeyManager} {options : UnpackOptions} {u : Unpacked}
    (hv : Json.parse? transport.trim = some v) (hjwe : Jwe.ofJson (some v) = .ok jwe)
    (h : openEncrypted jwe header keys options = .ok u) :
    (u.provenance.mode = .signedEncrypted ∧ Signed transport keys u) ∨
      (u.provenance.mode = .encrypted ∧ u.provenance.signerKids = [] ∧
        options.requireSignature = false) := by
  unfold openEncrypted at h
  obtain ⟨opened, hfirst, h⟩ := bind_eq_ok.mp h
  obtain ⟨kid, -, hopened⟩ := openFirst_eq_ok hfirst
  split at h
  · exact Or.inl ⟨mode_openNested h, signed_of_openNested hv hjwe hopened h⟩
  · simp only [bind_eq_ok] at h
    obtain ⟨⟨⟩, hunsigned, payload, -, hresult⟩ := h
    obtain rfl := Except.ok.inj hresult
    exact Or.inr ⟨rfl, rfl, checkUnsigned_eq_ok.mp hunsigned⟩

/-- Whatever is unpacked is signed if it is reported as signed. If it is not, no signers are reported,
and no signature was required. -/
theorem openWire_eq_ok {transport : Text} {w : Wire} {keys : KeyManager} {options : UnpackOptions}
    {u : Unpacked} (hwire : Wire.ofText transport.trim = .ok w)
    (h : openWire w keys options = .ok u) :
    ((u.provenance.mode = .signed ∨ u.provenance.mode = .signedEncrypted) ∧
        Signed transport keys u) ∨
      ((u.provenance.mode = .plain ∨ u.provenance.mode = .encrypted) ∧
        u.provenance.signerKids = [] ∧ options.requireSignature = false) := by
  cases w with
  | plain payload =>
    simp only [openWire, bind_eq_ok] at h
    obtain ⟨⟨⟩, hunsigned, hresult⟩ := h
    obtain rfl := Except.ok.inj hresult
    exact Or.inr ⟨Or.inl rfl, rfl, checkUnsigned_eq_ok.mp hunsigned⟩
  | signed j =>
    simp only [openWire, bind_eq_ok] at h
    obtain ⟨⟨payload, signerKids⟩, hopened, hresult⟩ := h
    obtain rfl := Except.ok.inj hresult
    exact Or.inl ⟨Or.inl rfl, signed_of_openSigned (signed_of_ofText hwire) hopened⟩
  | encrypted jwe header =>
    obtain ⟨v, hv, hjwe⟩ := encrypted_of_ofText hwire
    rcases openEncrypted_eq_ok hv hjwe h with ⟨hmode, hsigned⟩ | ⟨hmode, hrest⟩
    · exact Or.inl ⟨Or.inr hmode, hsigned⟩
    · exact Or.inr ⟨Or.inr hmode, hrest⟩

/-- What is unpacked under one of the signed modes is the payload of a signed envelope in the text, with
every signature verified. A caller who requires a signature, or a mode, gets nothing else. -/
theorem unpack_authentic {transport : Text} {keys : KeyManager} {options : UnpackOptions}
    {u : Unpacked} (h : unpack transport keys options = .ok u) :
    (u.provenance.mode = .signed ∨ u.provenance.mode = .signedEncrypted →
        Signed transport keys u) ∧
      (u.provenance.mode = .plain ∨ u.provenance.mode = .encrypted →
        u.provenance.signerKids = []) ∧
      (options.requireSignature = true →
        u.provenance.mode = .signed ∨ u.provenance.mode = .signedEncrypted) ∧
      ∀ expected ∈ options.expectedMode, u.provenance.mode = expected := by
  obtain ⟨-, w, hwire, hmode, hopen⟩ := unpack_eq_ok.mp h
  have hexpected : ∀ expected ∈ options.expectedMode, u.provenance.mode = expected := by
    intro expected hmem
    rw [mode_openWire hopen]
    exact (checkMode_eq_ok.mp hmode expected hmem).symm
  rcases openWire_eq_ok hwire hopen with ⟨hsignedMode, hsigned⟩ | ⟨hplainMode, hnone, hunrequired⟩
  · refine ⟨fun _ => hsigned, fun hplain => ?_, fun _ => hsignedMode, hexpected⟩
    rcases hsignedMode with hm | hm <;> rw [hm] at hplain <;> rcases hplain with h' | h' <;> cases h'
  · refine ⟨fun hsignedMode => ?_, fun _ => hnone, fun hrequired => ?_, hexpected⟩
    · rcases hplainMode with hm | hm <;> rw [hm] at hsignedMode <;>
        rcases hsignedMode with h' | h' <;> cases h'
    · rw [hunrequired] at hrequired
      cases hrequired

set_option maxRecDepth 100000 in
theorem unpack_authentic_sample :
    ∃ t u, pack .null (.signed "did:example:alice#key" false) ⟨[.sample], none⟩ (fun _ => 0) = .ok t ∧
      unpack t ⟨[.sample], none⟩ { requireSignature := true } = .ok u ∧
      Signed t ⟨[.sample], none⟩ u := by
  have hrun : (pack .null (.signed "did:example:alice#key" false) ⟨[.sample], none⟩ (fun _ => 0) >>=
      fun t => unpack t ⟨[.sample], none⟩ { requireSignature := true }).toOption.isSome = true := by
    decide +kernel
  obtain ⟨u, hu⟩ := exists_ok hrun
  obtain ⟨t, hpack, hunpack⟩ := bind_eq_ok.mp hu
  obtain ⟨hsigned, -, hrequired, -⟩ := unpack_authentic hunpack
  exact ⟨t, u, hpack, hunpack, hsigned (hrequired rfl)⟩

end Envelope
end SealedEnvelope
