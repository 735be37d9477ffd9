import SealedEnvelope.Proofs.Envelope.SignedRoundTrip
import SealedEnvelope.Proofs.Payload.Inert

/-!
# Payloads that are refused

A payload without a canonical text is refused in every mode, with the error that there is for the text. In
a payload in which nothing forms itself, the reasons are that it is no value or holds a big integer.
-/

namespace SealedEnvelope

def Protection.signingKeyId? : Protection → Option Text
  | signed kid _ | signedEncrypted kid _ => some kid
  | plain | encrypted _ _ => none

namespace Envelope

/-- A payload without a canonical text has no envelope, and the error is the same, once the key that has
to sign is found. -/
theorem pack_of_error {p : Payload} {err : Error} (h : p.canonicalText = .error err)
    {protection : Protection} {keys : KeyManager}
    (hkey : ∀ kid ∈ protection.signingKeyId?, keys.hasKey kid = true) (e : Entropy) :
    pack p protection keys e = .error err := by
  have hbytes : p.canonicalBytes = .error err := by
    rw [Payload.canonicalBytes, h]
    rfl
  cases protection with
  | plain => exact h
  | signed kid compact =>
    obtain ⟨signer, hsigner⟩ := Option.isSome_iff_exists.mp (hkey kid rfl)
    simp only [pack, KeyManager.signingKey, KeyManager.get, hsigner, hbytes, ok_bind, error_bind]
  | encrypted sender recipients => simp only [pack, hbytes, error_bind]
  | signedEncrypted kid recipients =>
    obtain ⟨signer, hsigner⟩ := Option.isSome_iff_exists.mp (hkey kid rfl)
    simp only [pack, KeyManager.signingKey, KeyManager.get, hsigner, hbytes, ok_bind, error_bind]

end Envelope

namespace Payload

/-! ### Inert payloads -/

/-- An inert payload is refused, and always as one that cannot be serialized, exactly if it is no value
or holds a big integer. Otherwise its text is read as the value that JSON says for it, tidied and up to
the order of members, and an array keeps its length. A payload that is refused is refused with the same
error in every mode whose signing key is held. -/
theorem canonicalText_of_inert (p : Payload) (hp : p.Inert) :
    ((∃ err, p.canonicalText = .error err) ↔ p = .absent ∨ p = .function ∨
      ∃ n, Occurs (.bigInteger n) p) ∧
    (∀ t, p.canonicalText = .ok t → ∃ w, Json.parse? t = some w ∧ p.asJson.tidied.Reordered w ∧
      ∀ items, p = .arr items → ∃ vs, w = .arr vs ∧ vs.length = items.length) ∧
    ∀ err, p.canonicalText = .error err → err.code? = some .serializationError ∧
      ∀ protection keys e, (∀ kid ∈ Protection.signingKeyId? protection, keys.hasKey kid = true) →
        Envelope.pack p protection keys e = .error err := by
  have hcases : p.IsRefused ∧ p.canonicalText = .error .notSerializable ∨
      ¬p.IsRefused ∧ p.canonicalText = .ok p.asJson.normal.text := by
    by_cases hrefused : p.IsRefused
    · exact .inl ⟨hrefused, canonicalText_of_refused hp hrefused⟩
    · exact .inr ⟨hrefused, canonicalText_of_not_refused hp hrefused⟩
  refine ⟨?_, ?_, ?_⟩
  · rcases hcases with ⟨hrefused, htext⟩ | ⟨hrefused, htext⟩
    · exact ⟨fun _ => hrefused, fun _ => ⟨_, htext⟩⟩
    · refine ⟨?_, fun h => absurd h hrefused⟩
      rintro ⟨err, herr⟩
      cases htext.symm.trans herr
  · intro t ht
    rcases hcases with ⟨-, htext⟩ | ⟨-, htext⟩
    · cases htext.symm.trans ht
    · obtain rfl := Except.ok.inj (htext.symm.trans ht)
      refine ⟨p.asJson.normal, ?_, Json.reordered_tidied_normal p.asJson, ?_⟩
      · exact Json.parse?_text (Json.settled_normal _ (wellFormed_asJson p hp))
      · rintro items rfl
        refine ⟨_, rfl, ?_⟩
        rw [Json.normalItems_eq_map, List.length_map, itemsAsJson_eq_map, List.length_map]
  · intro err herr
    rcases hcases with ⟨-, htext⟩ | ⟨-, htext⟩
    · obtain rfl := Except.error.inj (htext.symm.trans herr)
      exact ⟨rfl, fun protection keys e hkey => Envelope.pack_of_error herr hkey e⟩
    · cases htext.symm.trans herr

/-- A payload with values and no values of all kinds, and one more at some depth. -/
def mixedPayload (p : Payload) : Payload :=
  .obj [("z", .arr [.function, .num .nan, .absent]), ("f", .function), ("toJSON", .null),
    ("b", .arr [.obj [("n", p)]])]

theorem inert_mixedPayload {p : Payload} (h : p.Inert) : (mixedPayload p).Inert := by
  refine ⟨?_, by decide, nofun, ⟨trivial, trivial, trivial, trivial⟩, by decide, nofun, trivial,
    by decide, nofun, trivial, by decide, nofun, ⟨⟨?_, by decide, nofun, h, trivial⟩, trivial⟩, trivial⟩
  · change (["z", "f", "toJSON", "b"] : List Text).Nodup
    decide
  · change (["n"] : List Text).Nodup
    decide

theorem canonicalText_of_inert_mixed :
    (mixedPayload .absent).canonicalText =
        .ok "\x7b\"b\":[\x7b\x7d],\"toJSON\":null,\"z\":[null,null,null]\x7d" ∧
      (∃ w, Json.parse? "\x7b\"b\":[\x7b\x7d],\"toJSON\":null,\"z\":[null,null,null]\x7d" = some w ∧
        (mixedPayload .absent).asJson.tidied.Reordered w) ∧
      ∃ err, err.code? = some .serializationError ∧
        (mixedPayload (.bigInteger 1)).canonicalText = .error err ∧
        ∀ compact e, Envelope.pack (mixedPayload (.bigInteger 1))
          (.signed AgentKey.sample.keyId compact) ⟨[AgentKey.sample], none⟩ e = .error err := by
  have hinert : (mixedPayload .absent).Inert := inert_mixedPayload trivial
  have htext : (mixedPayload .absent).canonicalText =
      .ok "\x7b\"b\":[\x7b\x7d],\"toJSON\":null,\"z\":[null,null,null]\x7d" := by
    have hform : form true (mixedPayload .absent) = .value (mixedPayload .absent).asJson.normal := rfl
    have hinner : (Json.obj []).normal = .obj [] :=
      congrArg Json.obj (Members.normal_eq_of_inOrder (by decide) (by decide) .nil)
    have hnormal : (mixedPayload .absent).asJson.normal =
        .obj [("b", .arr [(Json.obj []).normal]), ("toJSON", .null),
          ("z", .arr [.null, .null, .null])] :=
      congrArg Json.obj
        (Members.normal_eq_of_inOrder (by decide) (by decide) (List.reverse_perm _).symm)
    rw [canonicalText, if_pos (isOrderable_of_inert _ hinert), hform, hnormal, hinner]
    exact congrArg Except.ok (by decide +kernel)
  obtain ⟨-, haccepted, -⟩ := canonicalText_of_inert (mixedPayload .absent) hinert
  obtain ⟨hrefused, -, hfails⟩ :=
    canonicalText_of_inert (mixedPayload (.bigInteger 1)) (inert_mixedPayload trivial)
  have hholds : Occurs (.bigInteger 1) (mixedPayload (.bigInteger 1)) :=
    .member (m := ("b", .arr [.obj [("n", .bigInteger 1)]])) (by simp)
      (.item List.mem_cons_self (.member List.mem_cons_self .self))
  obtain ⟨w, hw, hreordered, -⟩ := haccepted _ htext
  obtain ⟨err, herr⟩ := hrefused.mpr (.inr (.inr ⟨1, hholds⟩))
  obtain ⟨hcode, hpack⟩ := hfails err herr
  refine ⟨htext, ⟨w, hw, hreordered⟩, err, hcode, herr, fun compact e => hpack _ _ e ?_⟩
  rintro _ ⟨⟩
  rfl

end Payload
end SealedEnvelope
