import SealedEnvelope.Proofs.Did.Multikey
import SealedEnvelope.Proofs.Key.Verification

/-!
# DIDs that certify their key

A DID of the method `key` cannot be made to answer with a key that it does not embed. An id is resolved
exactly if it is such a DID, alone or with its multikey as the fragment, and the answer is the embedded
key under the id with the fragment. So the answer leads back to the DID, and every agent key that has no
identity of its own is found under its DID and under its id.
-/

namespace SealedEnvelope

namespace DidUrl

variable {did : Text}

theorem forall_ne_mark (h : mark ∉ did) : ∀ u ∈ did, decide (u ≠ mark) = true := by
  intro u hu
  exact decide_eq_true fun hmark => h (hmark ▸ hu)

theorem ofText_of_not_mem (h : mark ∉ did) : ofText did = ⟨did, none⟩ := by
  have hall := forall_ne_mark h
  have hrest : did.dropWhile (fun u => decide (u ≠ mark)) = [] := List.dropWhile_eq_nil_iff.mpr hall
  simp only [ofText, hrest, List.takeWhile_eq_self_iff.mpr hall]

theorem ofText_method (h : mark ∉ did) (fragment : Text) :
    ofText (method did fragment) = ⟨did, some fragment⟩ := by
  have hall := forall_ne_mark h
  have hrest : (method did fragment).dropWhile (fun u => decide (u ≠ mark)) = mark :: fragment := by
    rw [method, List.dropWhile_append_of_pos hall, List.dropWhile_cons_of_neg (by simp)]
  have hdid : (method did fragment).takeWhile (fun u => decide (u ≠ mark)) = did := by
    rw [method, List.takeWhile_append_of_pos hall, List.takeWhile_cons_of_neg (by simp),
      List.append_nil]
  simp only [ofText, hrest, hdid]

theorem ofText_cases (id : Text) :
    ofText id = ⟨id, none⟩ ∨
      ∃ did fragment, id = method did fragment ∧ ofText id = ⟨did, some fragment⟩ := by
  by_cases h : mark ∈ id
  · obtain ⟨did, fragment, rfl, hdid⟩ := List.eq_append_cons_of_mem h
    exact Or.inr ⟨did, fragment, rfl, ofText_method hdid fragment⟩
  · exact Or.inl (ofText_of_not_mem h)

end DidUrl

namespace DidKey

/-! ### The document of a multikey -/

theorem multibase_scheme (t : Text) : multibase (scheme ++ t) = t := List.drop_left

theorem methodId_scheme (t : Text) :
    methodId (scheme ++ t) = DidUrl.method (scheme ++ t) t := by rw [methodId, multibase_scheme]

theorem numberSign_not_mem_scheme : DidUrl.mark ∉ scheme := by decide

theorem absolute_methodId (did t : Text) :
    DidUrl.absolute did (methodId (scheme ++ t)) = methodId (scheme ++ t) :=
  if_neg (by
    change ¬some (0x64 : CodeUnit) = some DidUrl.mark
    decide)

variable {t : Text} {key : Multikey}

theorem isDidKey_of_decode (h : Multikey.decode t = .ok key) : isDidKey (scheme ++ t) = true := by
  obtain ⟨rfl, -⟩ := Multikey.decode_eq_ok.mp h
  rw [isDidKey, Text.startsWith, List.isPrefixOf_iff_prefix]
  exact ⟨Base58.encode (Multikey.codec key.keyType ++ key.publicKey), by simp [Multikey.encode]⟩

theorem eq_scheme_of_isDidKey {did : Text} (h : isDidKey did = true) :
    did = scheme ++ multibase did := by
  rw [isDidKey, Text.startsWith, List.isPrefixOf_iff_prefix] at h
  obtain ⟨rest, rfl⟩ := h
  rw [List.append_assoc, multibase_scheme]

theorem numberSign_not_mem (h : Multikey.decode t = .ok key) : DidUrl.mark ∉ scheme ++ t := by
  obtain ⟨rfl, -⟩ := Multikey.decode_eq_ok.mp h
  rw [List.mem_append, not_or]
  exact ⟨numberSign_not_mem_scheme, Multikey.numberSign_not_mem_encode key⟩

theorem exists_document_iff {did : Text} :
    (∃ d, document did = .ok d) ↔ ∃ t key, did = scheme ++ t ∧ Multikey.decode t = .ok key := by
  constructor
  · rintro ⟨d, h⟩
    simp only [document] at h
    split at h
    · rename_i hdid
      split at h
      · cases h
      · rename_i key hkey
        exact ⟨multibase did, key, eq_scheme_of_isDidKey hdid, hkey⟩
    · cases h
  · rintro ⟨t, key, rfl, hkey⟩
    simp only [document, isDidKey_of_decode hkey, if_true, multibase_scheme, hkey]
    exact ⟨_, rfl⟩

theorem jwk_document {d : DidDocument} {id : Text} {fragment : Option Text}
    (hkey : Multikey.decode t = .ok key) (hd : document (scheme ++ t) = .ok d)
    (hid : DidUrl.ofText id = ⟨scheme ++ t, fragment⟩) (jwk : PublicJwk) :
    d.jwk id = .ok jwk ↔ (∀ name ∈ fragment, name = t) ∧
      ∃ found, VerificationKey.ofPublicKey (methodId (scheme ++ t)) key.keyType key.publicKey =
        .ok found ∧ found.publicJwk = jwk := by
  simp only [document, isDidKey_of_decode hkey, if_true, multibase_scheme, hkey] at hd
  obtain rfl := Except.ok.inj hd
  have hmaterial : VerificationKey.ofMaterial (methodId (scheme ++ t)) (.multikey (some t)) =
      VerificationKey.ofPublicKey (methodId (scheme ++ t)) key.keyType key.publicKey := by
    simp only [VerificationKey.ofMaterial, VerificationKey.ofMultikey, hkey, ok_bind]
  cases fragment with
  | none =>
    simp only [DidDocument.jwk, DidDocument.wanted?, DidDocument.method?, hid, List.head?_cons,
      Option.map_some, absolute_methodId, List.find?_cons, decide_true, hmaterial]
    cases VerificationKey.ofPublicKey (methodId (scheme ++ t)) key.keyType key.publicKey <;> simp
  | some name =>
    by_cases hname : name = t
    · subst hname
      simp only [DidDocument.jwk, DidDocument.wanted?, DidDocument.method?, hid,
        absolute_methodId, List.find?_cons, ← methodId_scheme, decide_true, hmaterial]
      cases VerificationKey.ofPublicKey (methodId (scheme ++ name)) key.keyType key.publicKey <;> simp
    · have hother : methodId (scheme ++ t) ≠ DidUrl.method (scheme ++ t) name := by
        intro h
        rw [methodId_scheme] at h
        exact hname (List.cons.inj (List.append_cancel_left h)).2.symm
      simp [DidDocument.jwk, DidDocument.wanted?, DidDocument.method?, hid, absolute_methodId,
        hother, hname]

/-- An id is resolved if it is the DID of a key, alone or with its multikey as the fragment. -/
theorem resolve_eq_ok {id : Text} {jwk : PublicJwk} :
    resolve id = .ok jwk ↔
      ∃ t key, Multikey.decode t = .ok key ∧
        (id = scheme ++ t ∨ id = methodId (scheme ++ t)) ∧
        ∃ found, VerificationKey.ofPublicKey (methodId (scheme ++ t)) key.keyType key.publicKey =
          .ok found ∧ found.publicJwk = jwk := by
  constructor
  · intro h
    simp only [resolve] at h
    split at h
    · split at h
      · rename_i d hd
        obtain ⟨t, key, hdid, hkey⟩ := exists_document_iff.mp ⟨d, hd⟩
        rw [hdid] at hd
        refine ⟨t, key, hkey, ?_⟩
        rcases DidUrl.ofText_cases id with hbare | ⟨did, name, rfl, hnamed⟩
        · rw [hbare] at hdid
          change id = scheme ++ t at hdid
          subst hdid
          obtain ⟨-, hfound⟩ := (jwk_document hkey hd hbare jwk).mp h
          exact ⟨Or.inl rfl, hfound⟩
        · rw [hnamed] at hdid
          change did = scheme ++ t at hdid
          subst hdid
          obtain ⟨hname, hfound⟩ := (jwk_document hkey hd hnamed jwk).mp h
          rw [hname name rfl, ← methodId_scheme]
          exact ⟨Or.inr rfl, hfound⟩
      · cases h
    · cases h
  · rintro ⟨t, key, hkey, hid, hfound⟩
    have hresolve : ∀ fragment, (∀ name ∈ fragment, name = t) →
        DidUrl.ofText id = ⟨scheme ++ t, fragment⟩ → resolve id = .ok jwk := by
      intro fragment hfragment hurl
      obtain ⟨d, hd⟩ := exists_document_iff.mpr ⟨t, key, rfl, hkey⟩
      simp only [resolve, hurl, isDidKey_of_decode hkey, if_true, hd]
      exact (jwk_document hkey hd hurl jwk).mpr ⟨hfragment, hfound⟩
    rcases hid with rfl | rfl
    · exact hresolve none (by simp) (DidUrl.ofText_of_not_mem (numberSign_not_mem hkey))
    · refine hresolve (some t) (by simp) ?_
      rw [methodId_scheme]
      exact DidUrl.ofText_method (numberSign_not_mem hkey) t

theorem ofPublicKey_of_found {found : VerificationKey} (hkey : Multikey.decode t = .ok key)
    (hfound : VerificationKey.ofPublicKey (methodId (scheme ++ t)) key.keyType key.publicKey =
      .ok found) :
    found.publicJwk.kid = some (methodId (scheme ++ t)) ∧
      ∃ publicKey, found.publicJwk.publicKey = .ok publicKey ∧
        ofPublicKey found.publicJwk.keyType publicKey = scheme ++ t := by
  obtain ⟨rfl, hlength⟩ := Multikey.decode_eq_ok.mp hkey
  obtain ⟨jwk, hjwk, hread, hid, hheld⟩ := VerificationKey.ofPublicKey_eq_ok.mp hfound
  obtain ⟨htype, hbytes⟩ := PublicJwk.publicKey_of_ofPublicKey? hlength hjwk hread
  have hanswer : found.publicJwk = jwk.withKid (some (methodId (scheme ++ key.encode))) := by
    rw [VerificationKey.publicJwk, hheld, hid, PublicJwk.withKid_withKid]
  rw [hanswer, PublicJwk.kid_withKid, PublicJwk.publicKey_withKid, PublicJwk.keyType_withKid, htype]
  refine ⟨rfl, found.publicKey, hread, ?_⟩
  rw [hbytes, ofPublicKey]

end DidKey

/-- An agent key whose identity is only its key. -/
inductive AgentKey.SelfNamed : AgentKey → Prop
  | ofKeyPair (pair : KeyPair) : SelfNamed (ofPair pair ⟨none, none⟩)
  | generate {keyType : KeyType} {e : Entropy} {key : AgentKey}
      (h : generate keyType ⟨none, none⟩ e = .ok key) : SelfNamed key
  | ofPrivateKey {keyType : KeyType} {privateKey : Bytes} {key : AgentKey}
      (h : ofPrivateKey keyType privateKey ⟨none, none⟩ = .ok key) : SelfNamed key

namespace AgentKey

variable {key : AgentKey}

theorem SelfNamed.eq_ofPair (h : key.SelfNamed) : key = ofPair key.pair ⟨none, none⟩ := by
  cases h with
  | ofKeyPair pair => rfl
  | generate h | ofPrivateKey h =>
    obtain ⟨pair, -, hkey⟩ := bind_eq_ok.mp h
    obtain rfl := Except.ok.inj hkey
    rfl

end AgentKey

/-- A DID of the method `key` answers only with the key that it embeds, and a key that is known by
nothing else is found by it. -/
theorem DidKey.self_certifying :
    (∀ id jwk, resolve id = .ok jwk →
      ∃ m publicKey, (id = scheme ++ m ∨ id = DidUrl.method (scheme ++ m) m) ∧
        jwk.kid = some (DidUrl.method (scheme ++ m) m) ∧
        jwk.publicKey = .ok publicKey ∧ ofPublicKey jwk.keyType publicKey = scheme ++ m) ∧
    (∀ id e, resolve id = .error e → e.code? = some .keyNotFound) ∧
    ∀ key : AgentKey, key.SelfNamed → key.keyType.IsPoint key.pair.publicKey →
      ∃ jwk found, resolve key.keyId = .ok jwk ∧ resolve key.did = .ok jwk ∧
        key.publicJwk = .ok jwk ∧ key.verificationKey = .ok found ∧ found.publicJwk = jwk := by
  refine ⟨?_, failsAs_resolve, ?_⟩
  · intro id jwk h
    obtain ⟨m, key, hkey, hid, found, hfound, rfl⟩ := resolve_eq_ok.mp h
    obtain ⟨hkid, publicKey, hread, hdid⟩ := ofPublicKey_of_found hkey hfound
    rw [methodId_scheme] at hid hkid
    exact ⟨m, publicKey, hid, hkid, hread, hdid⟩
  · intro key hself hpoint
    obtain ⟨found, hfound, -, -, -, hjwk⟩ := AgentKey.exists_verificationKey hpoint
    have hdecode : Multikey.decode (Multikey.encode ⟨key.keyType, key.pair.publicKey⟩) =
        .ok ⟨key.keyType, key.pair.publicKey⟩ :=
      Multikey.decode_eq_ok.mpr ⟨rfl, hpoint.length⟩
    have hdid : key.did = scheme ++ Multikey.encode ⟨key.keyType, key.pair.publicKey⟩ := by
      rw [hself.eq_ofPair]
      rfl
    have hkeyId : key.keyId =
        methodId (scheme ++ Multikey.encode ⟨key.keyType, key.pair.publicKey⟩) := by
      rw [hself.eq_ofPair]
      rfl
    have hembedded := hfound
    rw [AgentKey.verificationKey, hkeyId] at hembedded
    refine ⟨found.publicJwk, found, ?_, ?_, hjwk, hfound, rfl⟩
    · exact resolve_eq_ok.mpr ⟨_, _, hdecode, Or.inr hkeyId, found, hembedded, rfl⟩
    · exact resolve_eq_ok.mpr ⟨_, _, hdecode, Or.inl hdid, found, hembedded, rfl⟩

theorem DidKey.self_certifying_seed :
    (∃ key jwk m publicKey,
      AgentKey.ofPrivateKey .ed25519 (List.replicate 32 0) ⟨none, none⟩ = .ok key ∧
        key.keyType.IsPoint key.pair.publicKey ∧
        resolve key.keyId = .ok jwk ∧ resolve key.did = .ok jwk ∧
        jwk.kid = some (DidUrl.method (scheme ++ m) m) ∧
        jwk.publicKey = .ok publicKey ∧ ofPublicKey jwk.keyType publicKey = scheme ++ m) ∧
      ∃ e, resolve "did:key:zz" = .error e ∧ e.code? = some .keyNotFound := by
  obtain ⟨hsound, hfails, hcomplete⟩ := self_certifying
  constructor
  · have hrun : (AgentKey.ofPrivateKey .ed25519 (List.replicate 32 0)
        ⟨none, none⟩).toOption.isSome = true := by decide +kernel
    have hpoints : ∀ key ∈ (AgentKey.ofPrivateKey .ed25519 (List.replicate 32 0)
        ⟨none, none⟩).toOption, key.keyType = .ed25519 ∧ key.pair.publicKey.length = 32 ∧
          (Edwards.decode? true key.pair.publicKey).isSome = true := by decide +kernel
    obtain ⟨key, hkey⟩ := exists_ok hrun
    obtain ⟨htype, hpoint⟩ := hpoints key (toOption_eq_some.mpr hkey)
    have hpoint : key.keyType.IsPoint key.pair.publicKey := by
      rw [htype]
      exact hpoint
    obtain ⟨jwk, -, hkeyId, hdid, -⟩ := hcomplete key (.ofPrivateKey hkey) hpoint
    obtain ⟨m, publicKey, -, hkid, hread, hm⟩ := hsound key.did jwk hdid
    exact ⟨key, jwk, m, publicKey, hkey, hpoint, hkeyId, hdid, hkid, hread, hm⟩
  · have hrefused : (resolve "did:key:zz").toOption = none := by decide +kernel
    obtain ⟨e, he⟩ := toOption_eq_none.mp hrefused
    exact ⟨e, he, hfails _ e he⟩

end SealedEnvelope
