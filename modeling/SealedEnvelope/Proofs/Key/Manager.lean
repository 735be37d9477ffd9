import SealedEnvelope.Key.Manager
import SealedEnvelope.Proofs.Outcome

/-!
# Keys have the ids they are found under

Whatever a manager finds for an id has that id: its own agent keys, the verification keys that its
resolver answers with, and the keys that it encrypts with.
-/

namespace SealedEnvelope

namespace VerificationKey

theorem keyId_ofPublicJwk {kid : Text} {jwk : PublicJwk} {key : VerificationKey}
    (h : ofPublicJwk kid jwk = .ok key) : key.keyId = kid := by
  obtain ⟨publicKey, -, hkey⟩ := bind_eq_ok.mp h
  rw [← Except.ok.inj hkey]

theorem keyId_ofPublicKey {kid : Text} {keyType : KeyType} {publicKey : Bytes}
    {key : VerificationKey} (h : ofPublicKey kid keyType publicKey = .ok key) : key.keyId = kid := by
  unfold ofPublicKey at h
  split at h
  · cases h
  · exact keyId_ofPublicJwk h

theorem keyId_ofJwk {kid : Text} {v : Option Json} {key : VerificationKey}
    (h : ofJwk kid v = .ok key) : key.keyId = kid := by
  unfold ofJwk at h
  split at h
  · cases h
  · exact keyId_ofPublicJwk h

end VerificationKey

namespace KeyManager

theorem keyId_of_get? {keys : KeyManager} {kid : Text} {key : AgentKey}
    (h : keys.get? kid = some key) : key.keyId = kid := by
  unfold get? at h
  have hfound := List.find?_some h
  exact of_decide_eq_true hfound

theorem keyId_of_usable {kid : Text} {answer : Json} {key : VerificationKey}
    (h : usable kid answer = .ok key) : key.keyId = kid := by
  unfold usable at h
  split at h
  · rename_i found hfound
    rw [← Except.ok.inj h]
    exact VerificationKey.keyId_ofJwk hfound
  · cases h

theorem keyId_of_verificationKey {keys : KeyManager} {kid : Text} {key : VerificationKey}
    (h : keys.verificationKey kid = .ok key) : key.keyId = kid := by
  unfold verificationKey at h
  split at h
  · rename_i held _ hheld
    exact (VerificationKey.keyId_ofPublicKey h).trans (keyId_of_get? hheld)
  · cases h
  · split at h
    · cases h
    · exact keyId_of_usable h

theorem get_eq_ok {m : KeyManager} {kid : Text} {key : AgentKey} :
    m.get kid = .ok key ↔ m.get? kid = some key := by
  unfold get
  cases m.get? kid with
  | none => simp
  | some found => simp

/-- A sender is named by the id that its key was asked for. -/
theorem keyId_of_encryptionKey {m : KeyManager} {kid : Text} {k : AgreementKey}
    (h : m.encryptionKey kid = .ok k) : k.keyId = kid := by
  obtain ⟨key, hget, hk⟩ := bind_eq_ok.mp h
  have hkid : key.keyId = kid := keyId_of_get? (get_eq_ok.mp hget)
  simp only [AgentKey.agreement?] at hk
  cases hkeyType : key.keyType with
  | ed25519 => simp [hkeyType] at hk
  | ec c =>
    simp only [hkeyType] at hk
    rw [← Except.ok.inj hk]
    exact hkid

end KeyManager

theorem AgentKey.agreement?_of_keyType {key : AgentKey} {c : EcCurve} (h : key.keyType = .ec c) :
    key.agreement? = some ⟨key, c⟩ := by
  simp only [agreement?, h]

end SealedEnvelope
