import SealedEnvelope.Proofs.Did.Resolution
import SealedEnvelope.Proofs.Key.Jwk
import SealedEnvelope.Proofs.Key.Manager

/-!
# Managers over time

The keys of a manager change one at a time, and a change that fails leaves them as they are. However a
manager has come about, the public half of every key that it holds belongs to the private half. If
these public halves are points, then looking for a verification key fails in one way only: the key is
not found.
-/

namespace SealedEnvelope

/-- Whether bytes are a public key of a type: a point of its curve as it is encoded. -/
def KeyType.IsPoint : KeyType → Bytes → Prop
  | ed25519, b => b.length = 32 ∧ (Edwards.decode? true b).isSome = true
  | ec c, b => b.length = 33 ∧ (c.group.decode? b).isSome = true

/-- Whether the public half of a key is the one that belongs to the private half. -/
def AgentKey.Derived (key : AgentKey) : Prop :=
  key.keyType.publicKey? key.pair.privateKey = some key.pair.publicKey

namespace KeyPair

theorem publicKey?_of_complete {keyType : KeyType} {privateKey : Bytes} {pair : KeyPair}
    (h : complete keyType privateKey = .ok pair) :
    pair.keyType.publicKey? pair.privateKey = some pair.publicKey := by
  simp only [complete] at h
  split at h
  · rename_i publicKey hpublicKey
    rw [← Except.ok.inj h]
    exact hpublicKey
  · cases h

theorem publicKey?_of_ofPrivateKey {keyType : KeyType} {privateKey : Bytes} {pair : KeyPair}
    (h : ofPrivateKey keyType privateKey = .ok pair) :
    pair.keyType.publicKey? pair.privateKey = some pair.publicKey := by
  simp only [ofPrivateKey] at h
  split at h
  · exact publicKey?_of_complete h
  · cases h

end KeyPair

namespace AgentKey

theorem pair_ofPair (pair : KeyPair) (identity : KeyIdentity) : (ofPair pair identity).pair = pair := by
  cases hdid : identity.did <;> simp [ofPair, hdid]

theorem derived_ofPair {pair : KeyPair} (identity : KeyIdentity)
    (h : pair.keyType.publicKey? pair.privateKey = some pair.publicKey) :
    (ofPair pair identity).Derived := by
  simpa [Derived, keyType, pair_ofPair] using h

theorem derived_generate {keyType : KeyType} {identity : KeyIdentity} {e : Entropy} {key : AgentKey}
    (h : generate keyType identity e = .ok key) : key.Derived := by
  obtain ⟨pair, hpair, hkey⟩ := bind_eq_ok.mp h
  obtain rfl := Except.ok.inj hkey
  exact derived_ofPair identity (KeyPair.publicKey?_of_complete hpair)

theorem derived_ofPrivateKey {keyType : KeyType} {privateKey : Bytes} {identity : KeyIdentity}
    {key : AgentKey} (h : ofPrivateKey keyType privateKey identity = .ok key) : key.Derived := by
  obtain ⟨pair, hpair, hkey⟩ := bind_eq_ok.mp h
  obtain rfl := Except.ok.inj hkey
  exact derived_ofPair identity (KeyPair.publicKey?_of_ofPrivateKey hpair)

end AgentKey

namespace KeyManager

/-! ### One change -/

/-- A change to the keys that a manager holds. -/
inductive Change
  | add (key : AgentKey)
  | importKey (keyType : KeyType) (privateKey : Bytes) (identity : KeyIdentity)
  | generate (keyType : Option KeyType) (identity : KeyIdentity) (e : Entropy)
  | remove (kid : Text)

def changed (m : KeyManager) : Change → Except Error KeyManager
  | .add key => m.add key
  | .importKey keyType privateKey identity =>
    (m.importKey keyType privateKey identity).map Prod.snd
  | .generate keyType identity e => (m.generate keyType identity e).map Prod.snd
  | .remove kid => .ok (m.remove kid)

/-- The manager after a change, which may have failed. -/
def after (m : KeyManager) (change : Change) : KeyManager :=
  match m.changed change with
  | .ok m' => m'
  | .error _ => m

variable {m m' : KeyManager} {key : AgentKey}

theorem add_eq_ok (h : m.add key = .ok m') :
    m.hasKey key.keyId = false ∧ m' = { m with keys := m.keys ++ [key] } := by
  simp only [add] at h
  split at h
  · cases h
  · rename_i hnew
    exact ⟨by simpa using hnew, (Except.ok.inj h).symm⟩

theorem changed_eq_ok {change : Change} (h : m.changed change = .ok m') :
    (∃ key, m.hasKey key.keyId = false ∧ m' = { m with keys := m.keys ++ [key] } ∧
        (change = .add key ∨ key.Derived)) ∨
      ∃ kid, change = .remove kid ∧ m' = m.remove kid := by
  cases change with
  | add key =>
    obtain ⟨hnew, hadded⟩ := add_eq_ok h
    exact .inl ⟨key, hnew, hadded, .inl rfl⟩
  | importKey keyType privateKey identity =>
    obtain ⟨⟨key', _⟩, himported, rfl⟩ := map_eq_ok.mp h
    simp only [importKey, bind_eq_ok] at himported
    obtain ⟨key, hkey, added, hadd, hresult⟩ := himported
    obtain ⟨-, rfl⟩ := Prod.mk.inj (Except.ok.inj hresult)
    obtain ⟨hnew, hadded⟩ := add_eq_ok hadd
    exact .inl ⟨key, hnew, hadded, .inr (AgentKey.derived_ofPrivateKey hkey)⟩
  | generate keyType identity e =>
    obtain ⟨⟨key', _⟩, hgenerated, rfl⟩ := map_eq_ok.mp h
    simp only [generate, bind_eq_ok] at hgenerated
    obtain ⟨key, hkey, added, hadd, hresult⟩ := hgenerated
    obtain ⟨-, rfl⟩ := Prod.mk.inj (Except.ok.inj hresult)
    obtain ⟨hnew, hadded⟩ := add_eq_ok hadd
    exact .inl ⟨key, hnew, hadded, .inr (AgentKey.derived_generate hkey)⟩
  | remove kid => exact .inr ⟨kid, rfl, (Except.ok.inj h).symm⟩

theorem resolver_after (m : KeyManager) (change : Change) : (m.after change).resolver = m.resolver := by
  cases hchanged : m.changed change with
  | error e => simp [after, hchanged]
  | ok m' =>
    rcases changed_eq_ok hchanged with ⟨key, -, rfl, -⟩ | ⟨kid, -, rfl⟩
    · simp [after, hchanged]
    · simp [after, hchanged, remove]

theorem derived_after {change : Change} (hm : ∀ key ∈ m.keys, key.Derived)
    (hadded : ∀ key, change = .add key → key.Derived) :
    ∀ key ∈ (m.after change).keys, key.Derived := by
  cases hchanged : m.changed change with
  | error e => simpa [after, hchanged] using hm
  | ok m' =>
    rcases changed_eq_ok hchanged with ⟨new, -, rfl, horigin⟩ | ⟨kid, -, rfl⟩
    · have hnew : new.Derived := horigin.elim (hadded new) id
      intro key hkey
      simp only [after, hchanged, List.mem_append, List.mem_singleton] at hkey
      rcases hkey with hkey | rfl
      · exact hm key hkey
      · exact hnew
    · intro key hkey
      simp only [after, hchanged, remove] at hkey
      exact hm key (List.mem_filter.mp hkey).1

/-! ### A run of changes -/

def run (m : KeyManager) (changes : List Change) : KeyManager := changes.foldl after m

theorem resolver_run (m : KeyManager) (changes : List Change) :
    (m.run changes).resolver = m.resolver := by
  induction changes generalizing m with
  | nil => rfl
  | cons change rest ih => exact (ih (m.after change)).trans (resolver_after m change)

/-- Over any run of changes, the public half of every key belongs to the private half. -/
theorem derived_run {changes : List Change} (hm : ∀ key ∈ m.keys, key.Derived)
    (hadded : ∀ key, .add key ∈ changes → key.Derived) : ∀ key ∈ (m.run changes).keys, key.Derived := by
  induction changes generalizing m with
  | nil => exact hm
  | cons change rest ih =>
    apply ih
    · apply derived_after hm
      rintro key rfl
      exact hadded key List.mem_cons_self
    · intro key hkey
      exact hadded key (List.mem_cons_of_mem change hkey)

end KeyManager

/-! ### Verification keys -/

theorem VerificationKey.exists_ofPublicKey (keyId : Text) {keyType : KeyType} {publicKey : Bytes}
    (h : keyType.IsPoint publicKey) : ∃ key, ofPublicKey keyId keyType publicKey = .ok key := by
  cases keyType with
  | ed25519 =>
    have hread : (OkpJwk.ofPublicKey publicKey).publicKey = .ok publicKey := by
      simp [OkpJwk.ofPublicKey, OkpJwk.publicKey, OkpJwk.publicKeyOf, coordinate,
        Base64url.decode?_encode, h.1, h.2]
      rfl
    simp only [ofPublicKey, PublicJwk.ofPublicKey?, ofPublicJwk, PublicJwk.publicKey, hread]
    exact ⟨_, rfl⟩
  | ec c =>
    obtain ⟨q, hq⟩ := Option.isSome_iff_exists.mp h.2
    have hjwk : EcJwk.ofPublicKey? c publicKey = some (.ofPoint c q) := by simp [EcJwk.ofPublicKey?, hq]
    have hread := (EcJwk.publicKey_of_ofPublicKey? h.1 hjwk).2
    simp only [ofPublicKey, PublicJwk.ofPublicKey?, hjwk, Option.map_some, ofPublicJwk,
      PublicJwk.publicKey, hread]
    exact ⟨_, rfl⟩

namespace KeyManager

theorem failsAs_usable (kid : Text) (answer : Json) :
    FailsAs (fun e => e.code? = some .keyNotFound) (usable kid answer) := by
  simp only [usable]
  split <;> simp [Error.code?]

/-- A manager without a rule of the caller's own fails to find a verification key in one way only. -/
theorem failsAs_verificationKey {m : KeyManager} (kid : Text)
    (hpoints : ∀ key ∈ m.keys, key.keyType.IsPoint key.pair.publicKey)
    (hresolver : ∀ r ∈ m.resolver, r.BuiltIn) :
    FailsAs (fun e => e.code? = some .keyNotFound) (m.verificationKey kid) := by
  cases hkey : m.get? kid with
  | some key =>
    obtain ⟨found, hfound⟩ := VerificationKey.exists_ofPublicKey key.keyId
      (hpoints key (List.mem_of_find?_eq_some hkey))
    simp [verificationKey, hkey, AgentKey.verificationKey, hfound]
  | none =>
    cases hr : m.resolver with
    | none => simp [verificationKey, hkey, hr, Error.code?]
    | some r =>
      have hfails := (hresolver r hr).failsAs_resolve kid
      cases hanswer : r.resolve kid with
      | error e => simpa [verificationKey, hkey, hr, hanswer] using hfails e hanswer
      | ok answer => simpa [verificationKey, hkey, hr, hanswer] using failsAs_usable kid answer

end KeyManager
end SealedEnvelope
