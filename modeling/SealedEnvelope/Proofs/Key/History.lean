import SealedEnvelope.Proofs.Key.Verification

/-!
# What a manager holds after a run

The look-ups of a manager are answered from one list of keys, so they agree about every id. Over a run
of changes the list follows from the changes that have succeeded: the key with an id is the one that was
added last, unless it was removed since, and the keys stand in the order in which they were added last.
-/

namespace SealedEnvelope

namespace KeyManager

/-! ### One manager -/

/-- An outcome that is a failure with a code. -/
def FailsWith {α : Type} (code : ErrorCode) (x : Except Error α) : Prop :=
  ∃ e, x = .error e ∧ e.code? = some code

/-- Whether the key with an id is on a curve that keys can agree on secrets on. -/
def HoldsEc (m : KeyManager) (kid : Text) : Prop :=
  ∃ key c, m.get? kid = some key ∧ key.keyType = .ec c

/-- What the look-ups answer for an id: all of them from the same key, if there is one. -/
structure Agrees (m : KeyManager) (kid : Text) : Prop where
  hasKey : m.hasKey kid = true ↔ kid ∈ m.keyIds
  get : (∃ key, m.get kid = .ok key) ↔ kid ∈ m.keyIds
  signingKey : (∃ key, m.signingKey kid = .ok key) ↔ kid ∈ m.keyIds
  keyId : ∀ key, m.get kid = .ok key ∨ m.signingKey kid = .ok key → key.keyId = kid
  canDecrypt : m.canDecrypt kid = true ↔ m.HoldsEc kid
  decryptionKey : (∃ k, m.decryptionKey kid = .ok k) ↔ m.HoldsEc kid
  encryptionKey : (∃ k, m.encryptionKey kid = .ok k) ↔ m.HoldsEc kid
  signsOnly : ∀ key, m.get kid = .ok key → key.keyType = .ed25519 →
    FailsWith .unsupportedAlgorithm (m.decryptionKey kid) ∧
      FailsWith .unsupportedAlgorithm (m.encryptionKey kid)
  unknown : kid ∉ m.keyIds →
    FailsWith .keyNotFound (m.decryptionKey kid) ∧ FailsWith .keyNotFound (m.encryptionKey kid)

variable {m : KeyManager} {kid : Text} {key : AgentKey}

theorem hasKey_iff : m.hasKey kid = true ↔ kid ∈ m.keyIds := by
  simp [hasKey, get?, keyIds]

theorem get?_eq_none : m.get? kid = none ↔ kid ∉ m.keyIds := by
  rw [← hasKey_iff, hasKey, Bool.not_eq_true, Option.isSome_eq_false_iff, Option.isNone_iff_eq_none]

theorem exists_get : (∃ key, m.get kid = .ok key) ↔ kid ∈ m.keyIds := by
  rw [← hasKey_iff, hasKey, Option.isSome_iff_exists]
  simp only [get_eq_ok]

theorem agreementKey_of_none (h : m.get? kid = none) (capability : Text) :
    m.agreementKey kid capability = .error (.keyUnknown kid) := by
  simp only [agreementKey, get, h, error_bind]

theorem agreementKey_of_ed25519 (h : m.get? kid = some key) (hkey : key.keyType = .ed25519)
    (capability : Text) :
    m.agreementKey kid capability = .error (.keyIncapable kid key.keyType.text capability) := by
  simp only [agreementKey, get, h, ok_bind, AgentKey.agreement?, hkey]
  rfl

theorem agreementKey_of_ec {c : EcCurve} (h : m.get? kid = some key) (hkey : key.keyType = .ec c)
    (capability : Text) : m.agreementKey kid capability = .ok ⟨key, c⟩ := by
  simp only [agreementKey, get, h, ok_bind, AgentKey.agreement?_of_keyType hkey]
  rfl

theorem exists_agreementKey (capability : Text) :
    (∃ k, m.agreementKey kid capability = .ok k) ↔ m.HoldsEc kid := by
  constructor
  · rintro ⟨k, hk⟩
    cases hget : m.get? kid with
    | none =>
      rw [agreementKey_of_none hget] at hk
      cases hk
    | some key =>
      cases hkey : key.keyType with
      | ed25519 =>
        rw [agreementKey_of_ed25519 hget hkey] at hk
        cases hk
      | ec c => exact ⟨key, c, hget, hkey⟩
  · rintro ⟨key, c, hget, hkey⟩
    exact ⟨⟨key, c⟩, agreementKey_of_ec hget hkey capability⟩

theorem canDecrypt_iff : m.canDecrypt kid = true ↔ m.HoldsEc kid := by
  rw [HoldsEc, canDecrypt]
  cases m.get? kid with
  | none => simp
  | some key =>
    cases hkey : key.keyType with
    | ed25519 => simp [AgentKey.canAgree, AgentKey.agreement?, hkey]
    | ec c => simp [AgentKey.canAgree, AgentKey.agreement?_of_keyType hkey, hkey]

theorem agrees (m : KeyManager) (kid : Text) : m.Agrees kid where
  hasKey := hasKey_iff
  get := exists_get
  signingKey := exists_get
  keyId := by
    intro key hkey
    exact keyId_of_get? (get_eq_ok.mp (hkey.elim id id))
  canDecrypt := canDecrypt_iff
  decryptionKey := exists_agreementKey _
  encryptionKey := exists_agreementKey _
  signsOnly := by
    intro key hget hkey
    have hfails := agreementKey_of_ed25519 (get_eq_ok.mp hget) hkey
    exact ⟨⟨_, hfails _, rfl⟩, ⟨_, hfails _, rfl⟩⟩
  unknown := by
    intro hnot
    have hfails := agreementKey_of_none (get?_eq_none.mpr hnot)
    exact ⟨⟨_, hfails _, rfl⟩, ⟨_, hfails _, rfl⟩⟩

/-! ### One change -/

/-- The key that a change is to add. -/
def Change.made? : Change → Option AgentKey
  | .add key => some key
  | .importKey keyType privateKey identity =>
    (AgentKey.ofPrivateKey keyType privateKey identity).toOption
  | .generate keyType identity e =>
    (AgentKey.generate (keyType.getD Settings.initial.defaultKeyType) identity e).toOption
  | .remove _ => none

theorem changed_of_made {change : Change} (h : change.made? = some key) :
    m.changed change = m.add key := by
  cases change with
  | add other =>
    obtain rfl := Option.some.inj h
    rfl
  | importKey keyType privateKey identity =>
    simp only [changed, importKey, toOption_eq_some.mp h, ok_bind]
    cases m.add key <;> rfl
  | generate keyType identity e =>
    simp only [changed, generate, toOption_eq_some.mp h, ok_bind]
    cases m.add key <;> rfl
  | remove kid => cases h

theorem changed_of_new {change : Change} (h : change.made? = some key) (hnew : key.keyId ∉ m.keyIds) :
    m.changed change = .ok { m with keys := m.keys ++ [key] } := by
  rw [changed_of_made h, add, if_neg (mt hasKey_iff.mp hnew)]

theorem changed_of_taken {change : Change} (h : change.made? = some key) (htaken : key.keyId ∈ m.keyIds) :
    m.changed change = .error (.keyRegistered key.keyId) := by
  rw [changed_of_made h, add, if_pos (hasKey_iff.mpr htaken)]

theorem changed_of_invalid {keyType : KeyType} {privateKey : Bytes}
    (h : keyType.isPrivateKey privateKey = false) (identity : KeyIdentity) :
    m.changed (.importKey keyType privateKey identity) =
      .error (.privateKeyInvalid keyType.text privateKey.length) := by
  simp only [changed, importKey, AgentKey.ofPrivateKey, KeyPair.ofPrivateKey, h, Bool.false_eq_true,
    if_false, error_bind]
  rfl

/-- A change that succeeds. -/
inductive Event
  | added (key : AgentKey)
  | removed (kid : Text)

namespace Event

def about : Event → Text
  | added key => key.keyId
  | removed kid => kid

def key? : Event → Option AgentKey
  | added key => some key
  | removed _ => none

def adds (kid : Text) : Event → Bool
  | added key => key.keyId = kid
  | removed _ => false

end Event

/-- What a change comes to, if it succeeds. -/
def event? (m : KeyManager) (change : Change) : Option Event :=
  match change.made?, change with
  | some key, _ => if m.hasKey key.keyId then none else some (.added key)
  | none, .remove kid => some (.removed kid)
  | none, _ => none

/-- A change that fails is no event and leaves the keys as they are. -/
theorem event?_of_error {change : Change} {e : Error} (h : m.changed change = .error e) :
    m.event? change = none ∧ m.after change = m := by
  refine ⟨?_, by simp only [after, h]⟩
  cases hmade : change.made? with
  | some key =>
    by_cases htaken : key.keyId ∈ m.keyIds
    · simp only [event?, hmade, hasKey_iff.mpr htaken, if_true]
    · rw [changed_of_new hmade htaken] at h
      cases h
  | none =>
    cases change with
    | remove kid => cases h
    | add key | importKey keyType privateKey identity | generate keyType identity e =>
      simp only [event?, hmade]

/-- Without an event nothing has changed, and with one the keys have changed accordingly. -/
theorem after_cases (m : KeyManager) (change : Change) :
    (m.event? change = none ∧ m.after change = m) ∨
      (∃ key, m.event? change = some (.added key) ∧ key.keyId ∉ m.keyIds ∧
        m.after change = { m with keys := m.keys ++ [key] }) ∨
      ∃ kid, m.event? change = some (.removed kid) ∧ m.after change = m.remove kid := by
  cases hchanged : m.changed change with
  | error e => exact Or.inl (event?_of_error hchanged)
  | ok m' =>
    have hafter : m.after change = m' := by simp only [after, hchanged]
    rw [hafter]
    cases hmade : change.made? with
    | some key =>
      by_cases htaken : key.keyId ∈ m.keyIds
      · rw [changed_of_taken hmade htaken] at hchanged
        cases hchanged
      · rw [changed_of_new hmade htaken] at hchanged
        refine Or.inr (Or.inl ⟨key, ?_, htaken, (Except.ok.inj hchanged).symm⟩)
        simp only [event?, hmade, mt hasKey_iff.mp htaken, Bool.false_eq_true, if_false]
    | none =>
      cases change with
      | remove kid => exact Or.inr (Or.inr ⟨kid, rfl, (Except.ok.inj hchanged).symm⟩)
      | add key => cases hmade
      | importKey keyType privateKey identity =>
        obtain ⟨e, he⟩ := toOption_eq_none.mp hmade
        simp only [changed, importKey, he, error_bind] at hchanged
        cases hchanged
      | generate keyType identity e =>
        obtain ⟨e', he⟩ := toOption_eq_none.mp hmade
        simp only [changed, generate, he, error_bind] at hchanged
        cases hchanged

/-! ### A run of changes -/

/-- The events of a run, the newest first, with those before it behind. -/
def history (m : KeyManager) (past : List Event) : List Change → List Event
  | [] => past
  | change :: rest => history (m.after change) ((m.event? change).toList ++ past) rest

/-- The key with an id according to the newest event about it. -/
def latest? (past : List Event) (kid : Text) : Option AgentKey :=
  (past.find? fun e => e.about = kid).bind Event.key?

/-- How many events there have been since an id was added last. -/
def age (past : List Event) (kid : Text) : Nat := past.findIdx (Event.adds kid)

/-- The manager holds what has been added and not removed since, in the order of the additions. -/
structure Follows (past : List Event) (m : KeyManager) : Prop where
  get? : ∀ kid, m.get? kid = latest? past kid
  ordered : m.keyIds.Pairwise fun first second => age past second < age past first

variable {past : List Event}

theorem latest?_cons (e : Event) (past : List Event) (kid : Text) :
    latest? (e :: past) kid = if e.about = kid then e.key? else latest? past kid := by
  by_cases h : e.about = kid
  · simp [latest?, h]
  · simp [latest?, h]

theorem latest?_added (past : List Event) (key : AgentKey) (kid : Text) :
    latest? (.added key :: past) kid = if key.keyId = kid then some key else latest? past kid :=
  latest?_cons _ _ _

theorem latest?_removed (past : List Event) (removed kid : Text) :
    latest? (.removed removed :: past) kid = if removed = kid then none else latest? past kid :=
  latest?_cons _ _ _

theorem age_cons (e : Event) (past : List Event) (kid : Text) :
    age (e :: past) kid = if e.adds kid then 0 else age past kid + 1 := by
  rw [age, List.findIdx_cons, age]
  cases e.adds kid <;> rfl

theorem age_added_self (past : List Event) (key : AgentKey) :
    age (.added key :: past) key.keyId = 0 :=
  (age_cons _ _ _).trans (if_pos (decide_eq_true rfl))

theorem age_added_of_ne (past : List Event) (h : key.keyId ≠ kid) :
    age (.added key :: past) kid = age past kid + 1 :=
  (age_cons _ _ _).trans (if_neg (mt of_decide_eq_true h))

theorem age_removed (past : List Event) (removed kid : Text) :
    age (.removed removed :: past) kid = age past kid + 1 :=
  (age_cons _ _ _).trans (if_neg Bool.false_ne_true)

theorem get?_append (m : KeyManager) (key : AgentKey) (kid : Text) :
    get? { m with keys := m.keys ++ [key] } kid =
      (m.get? kid).or (if key.keyId = kid then some key else none) := by
  rw [get?, List.find?_append, List.find?_singleton, get?]
  simp only [decide_eq_true_eq]

theorem get?_remove (m : KeyManager) (removed kid : Text) :
    (m.remove removed).get? kid = if removed = kid then none else m.get? kid := by
  rw [get?, remove, List.find?_filter]
  by_cases h : removed = kid
  · rw [if_pos h, List.find?_eq_none]
    intro key _
    simp [h]
  · rw [if_neg h, get?]
    congr 1
    funext key
    by_cases hkey : key.keyId = kid
    · simp [hkey, Ne.symm h]
    · simp [hkey]

theorem Follows.add (h : Follows past m) (hnew : key.keyId ∉ m.keyIds) :
    Follows (.added key :: past) { m with keys := m.keys ++ [key] } where
  get? := by
    intro kid
    rw [latest?_added, ← h.get?, get?_append]
    by_cases hkid : key.keyId = kid
    · rw [← hkid, get?_eq_none.mpr hnew, if_pos rfl, Option.none_or]
    · rw [if_neg hkid, if_neg hkid, Option.or_none]
  ordered := by
    rw [keyIds, List.map_append, List.pairwise_append]
    refine ⟨?_, List.pairwise_singleton _ _, ?_⟩
    · apply h.ordered.imp_of_mem
      intro first second hfirst hsecond hage
      rw [age_added_of_ne past (ne_of_mem_of_not_mem hfirst hnew).symm,
        age_added_of_ne past (ne_of_mem_of_not_mem hsecond hnew).symm]
      exact Nat.succ_lt_succ hage
    · intro first hfirst second hsecond
      rw [List.mem_singleton.mp hsecond, age_added_self,
        age_added_of_ne past (ne_of_mem_of_not_mem hfirst hnew).symm]
      exact Nat.succ_pos _

theorem Follows.remove (h : Follows past m) (kid : Text) :
    Follows (.removed kid :: past) (m.remove kid) where
  get? := by
    intro other
    rw [latest?_removed, ← h.get?, get?_remove]
  ordered := by
    have hsublist : (m.remove kid).keyIds.Sublist m.keyIds := List.filter_sublist.map _
    apply (h.ordered.sublist hsublist).imp
    intro first second hage
    rw [age_removed, age_removed]
    exact Nat.succ_lt_succ hage

theorem Follows.after (h : Follows past m) (change : Change) :
    Follows ((m.event? change).toList ++ past) (m.after change) := by
  rcases after_cases m change with
    ⟨hnone, hafter⟩ | ⟨key, hadded, hnew, hafter⟩ | ⟨kid, hremoved, hafter⟩
  · rw [hnone, hafter]
    exact h
  · rw [hadded, hafter]
    exact h.add hnew
  · rw [hremoved, hafter]
    exact h.remove kid

theorem Follows.run (h : Follows past m) (changes : List Change) :
    Follows (m.history past changes) (m.run changes) := by
  induction changes generalizing m past with
  | nil => exact h
  | cons change rest ih => exact ih (h.after change)

theorem Follows.foldlM {keys : List AgentKey} (h : Follows past m) {m' : KeyManager}
    (hkeys : keys.foldlM KeyManager.add m = .ok m') :
    Follows ((keys.map Event.added).reverse ++ past) m' := by
  induction keys generalizing m past with
  | nil =>
    obtain rfl := Except.ok.inj hkeys
    exact h
  | cons key rest ih =>
    rw [List.foldlM_cons, bind_eq_ok] at hkeys
    obtain ⟨next, hadd, hrest⟩ := hkeys
    obtain ⟨hnew, rfl⟩ := add_eq_ok hadd
    have hnext := ih (h.add fun hkid => Bool.false_ne_true (hnew.symm.trans (hasKey_iff.mpr hkid))) hrest
    rw [List.map_cons, List.reverse_cons, List.append_assoc]
    exact hnext

theorem run_append_of_error {changes : List Change} {change : Change} {e : Error}
    (h : (m.run changes).changed change = .error e) :
    m.run (changes ++ [change]) = m.run changes ∧
      m.history past (changes ++ [change]) = m.history past changes := by
  induction changes generalizing m past with
  | nil =>
    obtain ⟨hevent, hafter⟩ := event?_of_error h
    refine ⟨hafter, ?_⟩
    change (m.event? change).toList ++ past = past
    rw [show m.event? change = none from hevent]
    rfl
  | cons first rest ih => exact ih h

theorem follows_ofKeys {keys : List AgentKey} {resolver : Option Resolver}
    (h : ofKeys keys resolver = .ok m) : Follows (keys.map Event.added).reverse m := by
  have hempty : Follows [] (empty resolver) := ⟨fun _ => rfl, List.Pairwise.nil⟩
  have hfollows := hempty.foldlM h
  rw [List.append_nil] at hfollows
  exact hfollows

theorem Follows.nodup (h : Follows past m) : m.keyIds.Nodup := by
  apply h.ordered.imp
  rintro first second hage rfl
  exact absurd hage (Nat.lt_irrefl _)

/-! ### Verification keys -/

theorem verificationKey_of_get {key : AgentKey} (h : m.get kid = .ok key)
    (resolver : Option Resolver) :
    verificationKey { m with resolver := resolver } kid = key.verificationKey := by
  have hheld : get? { m with resolver := resolver } kid = some key := get_eq_ok.mp h
  simp only [verificationKey, hheld]

/-- After any run of changes, successful or not, to a manager made with some keys: no id is held twice
and the ids stand in the order in which they were added last, a key is held under an id if the last
event about the id has added it, all look-ups agree, a change that fails changes nothing, and the public
half of a held key is found under its id in front of what any resolver would answer. -/
theorem run_invariant {keys : List AgentKey} {resolver : Option Resolver}
    (h : ofKeys keys resolver = .ok m) (changes : List Change) :
    let past := m.history (keys.map Event.added).reverse changes
    let now := m.run changes
    now.keyIds.Nodup ∧
      now.keyIds.Pairwise (fun first second => age past second < age past first) ∧
      (∀ kid, now.get? kid = latest? past kid) ∧
      (∀ kid, now.Agrees kid) ∧
      (∀ change key, change.made? = some key → key.keyId ∈ now.keyIds →
        now.changed change = .error (.keyRegistered key.keyId)) ∧
      (∀ keyType privateKey identity, KeyType.isPrivateKey keyType privateKey = false →
        now.changed (.importKey keyType privateKey identity) =
          .error (.privateKeyInvalid keyType.text privateKey.length)) ∧
      (∀ change e, now.changed change = .error e →
        m.run (changes ++ [change]) = now ∧
          m.history (keys.map Event.added).reverse (changes ++ [change]) = past) ∧
      (∀ kid key, now.get kid = .ok key → ∀ resolver,
        verificationKey { now with resolver := resolver } kid = key.verificationKey ∧
          (key.keyType.IsPoint key.pair.publicKey →
            ∃ found, key.verificationKey = .ok found ∧ found.keyType = key.keyType ∧
              found.publicKey = key.pair.publicKey)) ∧
      ∀ kid found, now.verificationKey kid = .ok found → found.keyId = kid := by
  intro past now
  have hfollows : Follows past now := (follows_ofKeys h).run changes
  refine ⟨hfollows.nodup, hfollows.ordered, hfollows.get?, agrees now, fun _ _ => changed_of_taken,
    fun _ _ identity hinvalid => changed_of_invalid hinvalid identity,
    fun _ _ => run_append_of_error, ?_, fun _ _ => keyId_of_verificationKey⟩
  intro kid key hheld resolver
  refine ⟨verificationKey_of_get hheld resolver, fun hpoint => ?_⟩
  obtain ⟨found, hfound, -, htype, hbytes, -⟩ := AgentKey.exists_verificationKey hpoint
  exact ⟨found, hfound, htype, hbytes⟩

/-- Two keys that only sign. -/
def signingKeys : List AgentKey :=
  [Text.ofString "a", Text.ofString "b"].filterMap fun kid =>
    (AgentKey.ofPrivateKey .ed25519 (.ofNat 32 1) ⟨none, some kid⟩).toOption

/-- The first of the two ids is taken, then there is no private key, and then the id is given anew. -/
def replacingChanges : List Change :=
  [.importKey (.ec .p256) (.ofNat 32 1) ⟨none, some "a"⟩,
    .importKey (.ec .p256) (.ofNat 32 0) ⟨none, some "c"⟩,
    .remove "a",
    .importKey (.ec .p256) (.ofNat 32 1) ⟨none, some "a"⟩]

theorem run_invariant_replaced :
    ∃ m, ofKeys signingKeys none = .ok m ∧
      (m.run replacingChanges).keyIds = [Text.ofString "b", Text.ofString "a"] ∧
      (m.run replacingChanges).keyIds.Nodup ∧
      (∃ k, (m.run replacingChanges).decryptionKey "a" = .ok k) ∧
      FailsWith .unsupportedAlgorithm ((m.run replacingChanges).decryptionKey "b") ∧
      FailsWith .keyNotFound ((m.run replacingChanges).decryptionKey "c") := by
  have hrun : (ofKeys signingKeys none).toOption.isSome = true := by decide +kernel
  have hheld : ∀ m ∈ (ofKeys signingKeys none).toOption,
      (m.run replacingChanges).keyIds = [Text.ofString "b", Text.ofString "a"] ∧
        (m.run replacingChanges).canDecrypt "a" = true ∧
        ∀ key ∈ (m.run replacingChanges).get? "b", key.keyType = .ed25519 := by
    decide +kernel
  obtain ⟨m, hm⟩ := exists_ok hrun
  obtain ⟨hids, hcan, hsigns⟩ := hheld m (toOption_eq_some.mpr hm)
  obtain ⟨hnodup, -, -, hagrees, -⟩ := run_invariant hm replacingChanges
  refine ⟨m, hm, hids, hnodup, ?_, ?_, ?_⟩
  · exact (hagrees "a").decryptionKey.mpr ((hagrees "a").canDecrypt.mp hcan)
  · obtain ⟨key, hkey⟩ := (hagrees "b").get.mpr (hids ▸ List.mem_cons_self)
    exact ((hagrees "b").signsOnly key hkey (hsigns key (get_eq_ok.mp hkey))).1
  · exact ((hagrees "c").unknown (by rw [hids]; decide)).1

end KeyManager
end SealedEnvelope
