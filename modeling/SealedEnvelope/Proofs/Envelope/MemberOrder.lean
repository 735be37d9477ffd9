import SealedEnvelope.Envelope.Pack
import SealedEnvelope.Proofs.Envelope.SignedRoundTrip
import SealedEnvelope.Proofs.Json.Reordering
import SealedEnvelope.Proofs.Payload.Canonical

/-!
# The order of members

An envelope depends on a payload only through its canonical text. Payloads that differ in the order of
members have one canonical text, so they have one plain envelope and, for each key, one signed envelope
in each serialization.
-/

namespace SealedEnvelope

namespace Payload

theorem canonicalText_reordered {v w : Json} (hv : v.WellFormed) (h : v.Reordered w) :
    (ofJson w).canonicalText = .ok v.normal.text := by
  rw [canonicalText_ofJson, h.normal_eq hv]

theorem canonicalBytes_eq {p : Payload} {t : Text} (h : p.canonicalText = .ok t) :
    p.canonicalBytes = .ok t.utf8 := by
  unfold canonicalBytes
  rw [h]
  rfl

end Payload

namespace Envelope

theorem pack_congr {p q : Payload} (h : p.canonicalText = q.canonicalText) (protection : Protection)
    (keys : KeyManager) (e : Entropy) : pack p protection keys e = pack q protection keys e := by
  have hbytes : p.canonicalBytes = q.canonicalBytes := by
    unfold Payload.canonicalBytes
    rw [h]
  cases protection with
  | plain => exact h
  | signed => simp only [pack, hbytes]
  | encrypted => simp only [pack, hbytes]
  | signedEncrypted => simp only [pack, hbytes]

variable {p : Payload} {t : Text}

/-- Nothing is drawn for a signature. -/
theorem pack_signed (h : p.canonicalText = .ok t) (kid : Text) (compact : Bool) (keys : KeyManager)
    (e : Entropy) :
    pack p (.signed kid compact) keys e =
      keys.signingKey kid >>= fun signer => packSigned signer compact t.utf8 := by
  unfold pack
  simp only
  rw [Payload.canonicalBytes_eq h]
  rfl

def signedBytes (signer : AgentKey) (compact : Bool) (payload : Bytes) : Bytes :=
  Jws.signedInput signer (if compact then some signer.keyId else none) payload

theorem exists_packSigned {signer : AgentKey} {compact : Bool} {payload signature : Bytes}
    (h : signer.sign (signedBytes signer compact payload) = .ok signature) :
    ∃ s, packSigned signer compact payload = .ok s := by
  cases compact with
  | false => exact ⟨_, packSigned_general h⟩
  | true => exact ⟨_, packSigned_compact h⟩

theorem exists_pack_signed (h : p.canonicalText = .ok t) {signer : AgentKey} {compact : Bool}
    {keys : KeyManager} (hheld : keys.get? signer.keyId = some signer) {signature : Bytes}
    (hsign : signer.sign (signedBytes signer compact t.utf8) = .ok signature) (e : Entropy) :
    ∃ s, pack p (.signed signer.keyId compact) keys e = .ok s := by
  obtain ⟨s, hs⟩ := exists_packSigned hsign
  refine ⟨s, ?_⟩
  rw [pack_signed h]
  unfold KeyManager.signingKey KeyManager.get
  rw [hheld]
  exact hs

/-- Values that differ in the order of members have one canonical text and one envelope for all that is
asked for. If the text is not encrypted, this does not depend on what is drawn, and whatever a key that
is held can sign is signed. -/
theorem pack_reordered {v w : Json} (hv : v.WellFormed) (h : v.Reordered w) :
    ∃ t : Text,
      ((Payload.ofJson v).canonicalText = .ok t ∧ (Payload.ofJson w).canonicalText = .ok t) ∧
      ((Payload.ofJson v).canonicalBytes = .ok t.utf8 ∧
        (Payload.ofJson w).canonicalBytes = .ok t.utf8) ∧
      (∀ keys e, pack (.ofJson v) .plain keys e = .ok t ∧ pack (.ofJson w) .plain keys e = .ok t) ∧
      (∀ kid compact keys e e',
        pack (.ofJson v) (.signed kid compact) keys e =
          pack (.ofJson w) (.signed kid compact) keys e') ∧
      (∀ signer compact keys e signature, keys.get? signer.keyId = some signer →
        signer.sign (signedBytes signer compact t.utf8) = .ok signature →
          ∃ s, pack (.ofJson v) (.signed signer.keyId compact) keys e = .ok s ∧
            pack (.ofJson w) (.signed signer.keyId compact) keys e = .ok s) ∧
      ∀ protection keys e, pack (.ofJson v) protection keys e = pack (.ofJson w) protection keys e := by
  have hleft : (Payload.ofJson v).canonicalText = .ok v.normal.text := Payload.canonicalText_ofJson v
  have hright : (Payload.ofJson w).canonicalText = .ok v.normal.text :=
    Payload.canonicalText_reordered hv h
  have hsame : ∀ protection keys e,
      pack (.ofJson v) protection keys e = pack (.ofJson w) protection keys e :=
    pack_congr (hleft.trans hright.symm)
  refine ⟨v.normal.text, ⟨hleft, hright⟩,
    ⟨Payload.canonicalBytes_eq hleft, Payload.canonicalBytes_eq hright⟩, fun _ _ => ⟨hleft, hright⟩,
    ?_, ?_, hsame⟩
  · intro kid compact keys e e'
    rw [pack_signed hleft, pack_signed hright]
  · intro signer compact keys e signature hheld hsign
    obtain ⟨s, hs⟩ := exists_pack_signed hleft hheld hsign e
    exact ⟨s, hs, (hsame _ _ _).symm.trans hs⟩

/-- Two values that have their members in another order, also in an object within an array. -/
def indicesDescending : Json :=
  .obj [("b", .arr [.obj [("10", .null), ("9", .bool true)]]), ("a", .str "x")]

def indicesAscending : Json :=
  .obj [("a", .str "x"), ("b", .arr [.obj [("9", .bool true), ("10", .null)]])]

theorem pack_reordered_nested :
    indicesDescending.WellFormed ∧ indicesDescending.Reordered indicesAscending ∧
      (Payload.ofJson indicesDescending).canonicalText =
        .ok "\x7b\"a\":\"x\",\"b\":[\x7b\"9\":true,\"10\":null\x7d]\x7d" ∧
      (Payload.ofJson indicesAscending).canonicalText =
        .ok "\x7b\"a\":\"x\",\"b\":[\x7b\"9\":true,\"10\":null\x7d]\x7d" ∧
      ∀ compact, ∃ s,
        pack (.ofJson indicesDescending) (.signed AgentKey.sample.keyId compact)
          ⟨[AgentKey.sample], none⟩ (fun _ => 0) = .ok s ∧
        pack (.ofJson indicesAscending) (.signed AgentKey.sample.keyId compact)
          ⟨[AgentKey.sample], none⟩ (fun _ => 1) = .ok s := by
  have hformed : indicesDescending.WellFormed :=
    ⟨by decide, ⟨⟨by decide, trivial, trivial, trivial⟩, trivial⟩, trivial, trivial⟩
  have hreordered : indicesDescending.Reordered indicesAscending :=
    .trans (.members (.swap _ _ _))
      (.member [("a", .str "x")] [] "b" (.item [] [] (.members (.swap _ _ _))))
  have hinner : (Json.obj [("10", .null), ("9", .bool true)]).normal =
      .obj [("9", .bool true), ("10", .null)] :=
    congrArg Json.obj (Members.normal_eq_of_inOrder (by decide) (by decide) (.swap _ _ _))
  have hnormal : indicesDescending.normal =
      .obj [("a", .str "x"), ("b", .arr [(Json.obj [("10", .null), ("9", .bool true)]).normal])] :=
    congrArg Json.obj (Members.normal_eq_of_inOrder (by decide) (by decide) (.swap _ _ _))
  have htext : indicesDescending.normal.text =
      "\x7b\"a\":\"x\",\"b\":[\x7b\"9\":true,\"10\":null\x7d]\x7d" := by
    rw [hnormal, hinner]
    decide +kernel
  obtain ⟨t, ⟨hleft, hright⟩, -, -, hsame, hsigned, -⟩ := pack_reordered hformed hreordered
  have ht : t = indicesDescending.normal.text :=
    Except.ok.inj (hleft.symm.trans (Payload.canonicalText_ofJson _))
  refine ⟨hformed, hreordered, ?_, ?_, ?_⟩
  · rw [hleft, ht, htext]
  · rw [hright, ht, htext]
  · intro compact
    have hsigns : ∃ signature,
        AgentKey.sample.sign (signedBytes AgentKey.sample compact t.utf8) = .ok signature :=
      AgentKey.exists_sign (by decide) (by intro _ h; cases h)
    obtain ⟨signature, hsign⟩ := hsigns
    obtain ⟨s, hs, -⟩ := hsigned AgentKey.sample compact ⟨[AgentKey.sample], none⟩ (fun _ => 0)
      signature rfl hsign
    exact ⟨s, hs, (hsame _ _ _ _ _).symm.trans hs⟩

end Envelope
end SealedEnvelope
