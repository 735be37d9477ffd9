import SealedEnvelope.Proofs.Envelope.Unpacking

/-!
# The mode is a matter of shape

A text shows its mode without any key: by the members of the JSON object that it spells, by the header
of an encrypted envelope, or by being a compact signed one. What is unpacked has the mode that the text
shows. A text that shows another mode than the expected one, or none at all, is refused before a key is
looked for, so all managers give one answer.
-/

namespace SealedEnvelope

namespace Envelope

/-- The mode that a text shows by its shape. -/
inductive Shows (transport : Text) : EnvelopeMode → Prop
  /-- An object with signatures is signed, whatever else it holds. -/
  | general {v : Json} {j : Jws} (hv : Json.parse? transport.trim = some v)
      (hsignatures : v.hasMember "signatures" = true) (hj : Jws.ofJson (some v) = .ok j) :
      Shows transport .signed
  | compact {j : Jws} (hv : Json.parse? transport.trim = none)
      (hj : Jws.ofCompact transport.trim = .ok j) : Shows transport .signed
  | encrypted {v : Json} {j : Jwe} {header : JweHeader}
      (hv : Json.parse? transport.trim = some v) (hsignatures : v.hasMember "signatures" = false)
      (hrecipients : v.hasMember "recipients" = true) (hj : Jwe.ofJson (some v) = .ok j)
      (hheader : JweHeader.decode j.protectedHeader .decryptionFailed = .ok header)
      (hcty : header.cty ≠ some MediaType.signed) : Shows transport .encrypted
  | nested {v : Json} {j : Jwe} {header : JweHeader}
      (hv : Json.parse? transport.trim = some v) (hsignatures : v.hasMember "signatures" = false)
      (hrecipients : v.hasMember "recipients" = true) (hj : Jwe.ofJson (some v) = .ok j)
      (hheader : JweHeader.decode j.protectedHeader .decryptionFailed = .ok header)
      (hcty : header.cty = some MediaType.signed) : Shows transport .signedEncrypted
  | plain {v : Json} (hv : Json.parse? transport.trim = some v)
      (hsignatures : v.hasMember "signatures" = false)
      (hrecipients : v.hasMember "recipients" = false) : Shows transport .plain

/-- The mode that a text shows, if it shows one. -/
def shapeMode (transport : Text) : Option EnvelopeMode :=
  (Wire.ofText transport.trim).toOption.map Wire.mode

variable {transport : Text} {keys : KeyManager} {options : UnpackOptions}

theorem shapeMode_eq_some {mode : EnvelopeMode} :
    shapeMode transport = some mode ↔ ∃ w, Wire.ofText transport.trim = .ok w ∧ w.mode = mode := by
  simp only [shapeMode, Option.map_eq_some_iff, toOption_eq_some]

theorem shapeMode_eq_none (h : shapeMode transport = none) :
    ∃ e, Wire.ofText transport.trim = .error e := by
  unfold shapeMode at h
  cases hwire : Wire.ofText transport.trim with
  | error e => exact ⟨e, rfl⟩
  | ok w =>
    rw [hwire] at h
    cases h

/-! ### What the shape is -/

theorem shows_of_ofJson {v : Json} {w : Wire} (hv : Json.parse? transport.trim = some v)
    (hw : Wire.ofJson v = .ok w) : Shows transport w.mode := by
  unfold Wire.ofJson at hw
  split at hw
  · rename_i hsignatures
    obtain ⟨j, hj, rfl⟩ := map_eq_ok.mp hw
    exact .general hv hsignatures hj
  · rename_i hsignatures
    rw [Bool.not_eq_true] at hsignatures
    split at hw
    · rename_i hrecipients
      simp only [bind_eq_ok] at hw
      obtain ⟨j, hj, header, hheader, hpure⟩ := hw
      obtain rfl := Except.ok.inj hpure
      simp only [Wire.mode, Wire.isNested, decide_eq_true_eq]
      split
      · rename_i hcty
        exact .nested hv hsignatures hrecipients hj hheader hcty
      · rename_i hcty
        exact .encrypted hv hsignatures hrecipients hj hheader hcty
    · rename_i hrecipients
      obtain rfl := Except.ok.inj hw
      exact .plain hv hsignatures (Bool.not_eq_true _ ▸ hrecipients)

theorem shows_of_ofText {w : Wire} (hw : Wire.ofText transport.trim = .ok w) :
    Shows transport w.mode := by
  unfold Wire.ofText at hw
  split at hw
  · rename_i v hv
    exact shows_of_ofJson hv hw
  · rename_i hv
    split at hw
    · obtain ⟨j, hj, rfl⟩ := map_eq_ok.mp hw
      exact .compact hv hj
    · cases hw

theorem isCompact_of_ofCompact {t : Text} {j : Jws} (h : Jws.ofCompact t = .ok j) :
    Wire.isCompact t = true := by
  unfold Jws.ofCompact at h
  split at h
  · rename_i hparts
    simp [Wire.isCompact, hparts]
  · cases h

theorem Shows.exists_wire {mode : EnvelopeMode} (h : Shows transport mode) :
    ∃ w, Wire.ofText transport.trim = .ok w ∧ w.mode = mode := by
  cases h with
  | @general v j hv hsignatures hj =>
    refine ⟨.signed j, ?_, rfl⟩
    simp [Wire.ofText, Wire.ofJson, hv, hsignatures, hj, Except.map]
  | @compact j hv hj =>
    refine ⟨.signed j, ?_, rfl⟩
    simp [Wire.ofText, hv, isCompact_of_ofCompact hj, hj, Except.map]
  | @encrypted v j header hv hsignatures hrecipients hj hheader hcty =>
    refine ⟨.encrypted j header, ?_, ?_⟩
    · simp [Wire.ofText, Wire.ofJson, hv, hsignatures, hrecipients, hj, hheader, pure, Except.pure]
    · simp [Wire.mode, Wire.isNested, hcty]
  | @nested v j header hv hsignatures hrecipients hj hheader hcty =>
    refine ⟨.encrypted j header, ?_, ?_⟩
    · simp [Wire.ofText, Wire.ofJson, hv, hsignatures, hrecipients, hj, hheader, pure, Except.pure]
    · simp [Wire.mode, Wire.isNested, hcty]
  | @plain v hv hsignatures hrecipients =>
    refine ⟨.plain v, ?_, rfl⟩
    simp [Wire.ofText, Wire.ofJson, hv, hsignatures, hrecipients]

/-- The mode that a text shows is the one that its shape has. -/
theorem shapeMode_eq_some_iff {mode : EnvelopeMode} :
    shapeMode transport = some mode ↔ Shows transport mode := by
  rw [shapeMode_eq_some]
  constructor
  · rintro ⟨w, hw, rfl⟩
    exact shows_of_ofText hw
  · exact Shows.exists_wire

/-! ### What is answered without keys -/

theorem shapeMode_of_unpack {u : Unpacked} (h : unpack transport keys options = .ok u) :
    shapeMode transport = some u.provenance.mode ∧
      ∀ expected ∈ options.expectedMode, expected = u.provenance.mode := by
  obtain ⟨-, w, hwire, hmode, hopen⟩ := unpack_eq_ok.mp h
  rw [mode_openWire hopen]
  exact ⟨shapeMode_eq_some.mpr ⟨w, hwire, rfl⟩, checkMode_eq_ok.mp hmode⟩

theorem unpack_of_unexpected {actual expected : EnvelopeMode}
    (hsize : options.maxEnvelopeBytes.lt (.ofNat transport.utf8.length) = false)
    (hactual : shapeMode transport = some actual) (hexpected : options.expectedMode = some expected)
    (hne : expected ≠ actual) (keys : KeyManager) :
    unpack transport keys options = .error (.unexpectedMode expected.text actual.text) := by
  obtain ⟨w, hwire, rfl⟩ := shapeMode_eq_some.mp hactual
  have hchecked : checkMode w.mode options =
      .error (.unexpectedMode expected.text w.mode.text) := by
    simp [checkMode, hexpected, hne]
  simp only [unpack, checkSize_eq_ok.mpr hsize, hwire, hchecked, ok_bind, error_bind]

theorem unpack_of_shapeless (h : shapeMode transport = none) (options : UnpackOptions) :
    ∃ e, ∀ keys, unpack transport keys options = .error e := by
  obtain ⟨e, he⟩ := shapeMode_eq_none h
  cases hsize : checkSize transport options with
  | error e' =>
    refine ⟨e', fun keys => ?_⟩
    simp only [unpack, hsize, error_bind]
  | ok checked =>
    refine ⟨e, fun keys => ?_⟩
    simp only [unpack, hsize, he, ok_bind, error_bind]

/-- The mode of what is unpacked is the one that the text shows. A text within the limit that shows an
unexpected mode, and a text that shows none, are refused in the same way whatever keys there are. -/
theorem unpack_mode_of_shape (transport : Text) (options : UnpackOptions) :
    (∀ mode, shapeMode transport = some mode ↔ Shows transport mode) ∧
      (∀ keys u, unpack transport keys options = .ok u →
        shapeMode transport = some u.provenance.mode ∧
          ∀ expected ∈ options.expectedMode, expected = u.provenance.mode) ∧
      (∀ actual expected,
        options.maxEnvelopeBytes.lt (.ofNat transport.utf8.length) = false →
        shapeMode transport = some actual → options.expectedMode = some expected →
        expected ≠ actual →
          ∃ e : Error, (∀ keys, unpack transport keys options = .error e) ∧
            e.code? = some .policyViolation ∧
            e.message = .concat ["Expected a ", expected.text, " envelope but got ", actual.text] ∧
            e.details? = some [(Text.ofString "expected", Json.str expected.text),
              (Text.ofString "actual", Json.str actual.text)]) ∧
      (shapeMode transport = none → ∃ e, ∀ keys, unpack transport keys options = .error e) := by
  refine ⟨fun _ => shapeMode_eq_some_iff, fun _ _ => shapeMode_of_unpack, ?_,
    fun h => unpack_of_shapeless h options⟩
  intro actual expected hsize hactual hexpected hne
  exact ⟨_, unpack_of_unexpected hsize hactual hexpected hne, rfl, rfl, rfl⟩

/-- An encrypted envelope that says that it holds a signed one. Its entry is for nobody. -/
def nestedSample : Jwe :=
  ⟨JweHeader.encode ⟨⟨.p256, [], [], none⟩, [], none, MediaType.encrypted, some MediaType.signed⟩,
    [⟨[], "did:example:nobody#key", none⟩], [], [], []⟩

theorem unpack_mode_of_shape_samples :
    (∃ u, unpack (Json.obj [("recipient", .null)]).text (.empty none)
        { expectedMode := some .plain } = .ok u ∧
          shapeMode (Json.obj [("recipient", .null)]).text = some u.provenance.mode) ∧
      (∃ e : Error, (∀ keys, unpack nestedSample.serialized keys { expectedMode := some .encrypted } =
        .error e) ∧ e.code? = some .policyViolation) ∧
      ∃ e, ∀ keys, unpack "a.b" keys {} = .error e := by
  have hrun : (unpack (Json.obj [("recipient", .null)]).text (.empty none)
      { expectedMode := some .plain }).toOption.isSome = true := by decide +kernel
  obtain ⟨u, hu⟩ := exists_ok hrun
  refine ⟨⟨u, hu, ?_⟩, ?_, ?_⟩
  · exact ((unpack_mode_of_shape _ _).2.1 _ u hu).1
  · obtain ⟨e, hrefused, hcode, -⟩ := (unpack_mode_of_shape nestedSample.serialized
      { expectedMode := some .encrypted }).2.2.1 .signedEncrypted .encrypted (by decide +kernel)
      (by decide +kernel) rfl (by decide)
    exact ⟨e, hrefused, hcode⟩
  · exact (unpack_mode_of_shape "a.b" {}).2.2.2 (by decide +kernel)

end Envelope
end SealedEnvelope
