import SealedEnvelope.Envelope.Pack
import SealedEnvelope.Proofs.Envelope.Unpacking
import SealedEnvelope.Proofs.Payload.Canonical

/-!
# Plain envelopes

A plain envelope is the canonical text of its payload with nothing around it. It comes back as that
payload unless the payload itself has the shape of an envelope: the shape is all that unpacking goes by,
so such a payload is taken for the envelope that it looks like.
-/

namespace SealedEnvelope

namespace Envelope

/-- A payload without the members that mark an envelope comes back in normal form. A payload with
them is never taken for a plain one. -/
theorem plain_round_trip (p : Json) (hp : p.WellFormed) (packer receiver : KeyManager) (e : Entropy)
    (options : UnpackOptions) (hunsigned : options.requireSignature = false)
    (hmode : ∀ expected ∈ options.expectedMode, expected = .plain) :
    ∃ t, pack (.ofJson p) .plain packer e = .ok t ∧
      (options.maxEnvelopeBytes.lt (.ofNat t.utf8.length) = false →
        (p.hasMember "signatures" = false → p.hasMember "recipients" = false →
          unpack t receiver options = .ok ⟨p.normal, ⟨.plain, [], none, none⟩⟩) ∧
        (p.hasMember "signatures" = true → ∀ u, unpack t receiver options = .ok u →
          u.provenance.mode = .signed) ∧
        (p.hasMember "signatures" = false → p.hasMember "recipients" = true →
          ∀ u, unpack t receiver options = .ok u →
            u.provenance.mode = .encrypted ∨ u.provenance.mode = .signedEncrypted)) := by
  have hsettled := Json.settled_normal p hp
  have hsignatures : p.normal.hasMember "signatures" = p.hasMember "signatures" :=
    Json.hasMember_normal p (by decide)
  have hrecipients : p.normal.hasMember "recipients" = p.hasMember "recipients" :=
    Json.hasMember_normal p (by decide)
  refine ⟨p.normal.text, Payload.canonicalText_ofJson p, fun hsize => ⟨?_, ?_, ?_⟩⟩
  · intro hnoSignatures hnoRecipients
    rw [unpack_eq_ok]
    refine ⟨checkSize_eq_ok.mpr hsize, .plain p.normal, ?_, checkMode_eq_ok.mpr hmode, ?_⟩
    · rw [ofText_text hsettled]
      exact ofJson_of_no_members (hsignatures.trans hnoSignatures) (hrecipients.trans hnoRecipients)
    · unfold openWire
      rw [checkUnsigned_eq_ok.mpr hunsigned]
      rfl
  · intro hmember u hu
    obtain ⟨-, w, hwire, -, hopen⟩ := unpack_eq_ok.mp hu
    rw [ofText_text hsettled] at hwire
    rw [mode_openWire hopen]
    exact mode_of_signatures (hsignatures.trans hmember) hwire
  · intro hnoSignatures hmember u hu
    obtain ⟨-, w, hwire, -, hopen⟩ := unpack_eq_ok.mp hu
    rw [ofText_text hsettled] at hwire
    rw [mode_openWire hopen]
    exact mode_of_recipients (hsignatures.trans hnoSignatures) (hrecipients.trans hmember) hwire

theorem plain_round_trip_name :
    ∃ t, pack (.ofJson (.obj [("name", .str "x"), ("__proto__", .null)])) .plain (.empty none)
        (fun _ => 0) = .ok t ∧
      unpack t (.empty none) {} =
        .ok ⟨Json.normal (.obj [("name", .str "x"), ("__proto__", .null)]),
          ⟨.plain, [], none, none⟩⟩ := by
  have hformed : (Json.obj [("name", .str "x"), ("__proto__", .null)]).WellFormed := by
    refine ⟨?_, trivial, trivial, trivial⟩
    change (["name", "__proto__"] : List Text).Nodup
    decide
  obtain ⟨t, hpack, hunpack⟩ := plain_round_trip _ hformed (.empty none) (.empty none) (fun _ => 0)
    {} rfl (fun _ h => nomatch h)
  refine ⟨t, hpack, (hunpack ?_).1 (by decide) (by decide)⟩
  rw [← Except.ok.inj ((Payload.canonicalText_ofJson _).symm.trans hpack)]
  decide +kernel

/-- An object with signatures is packed, but its text is no plain envelope. -/
theorem plain_signatures_refused :
    (Json.obj [("signatures", .null)]).WellFormed ∧
      ∃ t, pack (.ofJson (.obj [("signatures", .null)])) .plain (.empty none) (fun _ => 0) = .ok t ∧
        ({} : UnpackOptions).maxEnvelopeBytes.lt (.ofNat t.utf8.length) = false ∧
        ¬∃ u, unpack t (.empty none) {} = .ok u := by
  refine ⟨⟨?_, trivial, trivial⟩, _, Payload.canonicalText_ofJson _, by decide +kernel, ?_⟩
  · change (["signatures"] : List Text).Nodup
    decide
  · rintro ⟨u, hu⟩
    have hfails : (unpack (Json.normal (.obj [("signatures", .null)])).text (.empty none)
        {}).toOption.isSome = false := by decide +kernel
    rw [hu] at hfails
    cases hfails

end Envelope
end SealedEnvelope
