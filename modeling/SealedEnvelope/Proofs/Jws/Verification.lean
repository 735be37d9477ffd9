import SealedEnvelope.Jws.Signing
import SealedEnvelope.Proofs.Key.Manager
import SealedEnvelope.Proofs.Outcome

/-!
# What verification establishes

An entry of a signed envelope passes or not on its own: its header names no other key, its signature can
be read, and the key that is found for its id accepts the signature over the header and payload as they
stand in the envelope. An envelope is verified exactly if it has entries, all of them pass and its payload
can be read, and otherwise the first entry that does not pass gives the error. So entries can be added,
taken away and put in another order without touching what is found of the others.

With the keys of a manager, an entry that passes has been signed by a key with the entry's id, and the
key is of the one type that the header's algorithm allows.
-/

namespace SealedEnvelope

variable {payload : Text} {lookup : Text → Except Error VerificationKey}

/-! ### One entry -/

namespace JwsSignature

/-- What an entry is read as: a header that names no other key than the entry, and a signature. -/
def Reads (s : JwsSignature) (header : JwsHeader) (signature : Bytes) : Prop :=
  JwsHeader.decode? s.protectedHeader = some header ∧
    (header.kid = none ∨ header.kid = some s.kid) ∧ Base64url.decode? s.signature = some signature

/-- The key that is found for the id of an entry accepts its signature of the payload. -/
def Passes (s : JwsSignature) (payload : Text) (lookup : Text → Except Error VerificationKey) : Prop :=
  ∃ header signature key, s.Reads header signature ∧ lookup s.kid = .ok key ∧
    key.accepts header.alg (Jws.signingInput s.protectedHeader payload) signature = true

/-- Why an entry does not pass, with the error that says so. The key is looked up only if the entry can
be read. -/
inductive Fault (s : JwsSignature) (payload : Text) (lookup : Text → Except Error VerificationKey) :
    Error → Prop
  | unreadable (h : ∀ header signature, ¬s.Reads header signature) :
    Fault s payload lookup (.signatureRejected s.kid)
  | lookup {header : JwsHeader} {signature : Bytes} {e : Error} (hreads : s.Reads header signature)
    (h : lookup s.kid = .error e) : Fault s payload lookup e
  | rejected {header : JwsHeader} {signature : Bytes} {key : VerificationKey}
    (hreads : s.Reads header signature) (hkey : lookup s.kid = .ok key)
    (h : key.accepts header.alg (Jws.signingInput s.protectedHeader payload) signature = false) :
    Fault s payload lookup (.signatureRejected s.kid)

variable {s : JwsSignature}

theorem Fault.told {e : Error} (h : s.Fault payload lookup e) :
    lookup s.kid = .error e ∨
      e.code? = some .verificationFailed ∧
        e.details? = some [(Text.ofString "kid", Json.str s.kid)] := by
  cases h with
  | unreadable _ => exact .inr ⟨rfl, rfl⟩
  | lookup _ h => exact .inl h
  | rejected _ _ _ => exact .inr ⟨rfl, rfl⟩

theorem passes_or_fault (s : JwsSignature) (payload : Text)
    (lookup : Text → Except Error VerificationKey) :
    s.Passes payload lookup ∨ ∃ e, s.Fault payload lookup e := by
  by_cases hreads : ∃ header signature, s.Reads header signature
  · obtain ⟨header, signature, hreads⟩ := hreads
    cases hkey : lookup s.kid with
    | error e => exact .inr ⟨e, .lookup hreads hkey⟩
    | ok key =>
      cases haccepts : key.accepts header.alg (Jws.signingInput s.protectedHeader payload) signature with
      | true => exact .inl ⟨header, signature, key, hreads, hkey, haccepts⟩
      | false => exact .inr ⟨_, .rejected hreads hkey haccepts⟩
  · refine .inr ⟨_, .unreadable fun header signature h => ?_⟩
    exact hreads ⟨header, signature, h⟩

end JwsSignature

namespace Jws

open JwsSignature

section Entries

variable {s : JwsSignature} {e : Error}

theorem header?_eq_some {header : JwsHeader} :
    header? s = some header ↔
      JwsHeader.decode? s.protectedHeader = some header ∧
        (header.kid = none ∨ header.kid = some s.kid) := by
  unfold header?
  cases hdecoded : JwsHeader.decode? s.protectedHeader with
  | none => simp
  | some decoded =>
    simp only [Option.ite_none_right_eq_some, Option.some.injEq]
    constructor
    · rintro ⟨hkid, rfl⟩
      exact ⟨rfl, hkid⟩
    · rintro ⟨rfl, hkid⟩
      exact ⟨hkid, rfl⟩

theorem reads_iff {header : JwsHeader} {signature : Bytes} :
    s.Reads header signature ↔
      header? s = some header ∧ Base64url.decode? s.signature = some signature := by
  rw [header?_eq_some, Reads, and_assoc]

theorem verifySignature_of_passes (h : s.Passes payload lookup) :
    verifySignature payload lookup s = .ok () := by
  obtain ⟨header, signature, key, hreads, hkey, haccepts⟩ := h
  obtain ⟨hheader, hsignature⟩ := reads_iff.mp hreads
  simp only [verifySignature, hheader, hsignature, hkey, haccepts, if_true]

theorem verifySignature_of_fault (h : s.Fault payload lookup e) :
    verifySignature payload lookup s = .error e := by
  cases h with
  | unreadable h =>
    unfold verifySignature
    split
    · rename_i header signature hheader hsignature
      exact absurd (reads_iff.mpr ⟨hheader, hsignature⟩) (h header signature)
    · rfl
  | lookup hreads h =>
    obtain ⟨hheader, hsignature⟩ := reads_iff.mp hreads
    simp only [verifySignature, hheader, hsignature, h]
  | rejected hreads hkey h =>
    obtain ⟨hheader, hsignature⟩ := reads_iff.mp hreads
    simp only [verifySignature, hheader, hsignature, hkey, h, Bool.false_eq_true, if_false]

theorem verifySignature_eq_ok : verifySignature payload lookup s = .ok () ↔ s.Passes payload lookup := by
  refine ⟨fun h => ?_, verifySignature_of_passes⟩
  rcases s.passes_or_fault payload lookup with hpasses | ⟨e, hfault⟩
  · exact hpasses
  · cases h.symm.trans (verifySignature_of_fault hfault)

theorem verifySignature_eq_error :
    verifySignature payload lookup s = .error e ↔ s.Fault payload lookup e := by
  refine ⟨fun h => ?_, verifySignature_of_fault⟩
  rcases s.passes_or_fault payload lookup with hpasses | ⟨e', hfault⟩
  · cases h.symm.trans (verifySignature_of_passes hpasses)
  · obtain rfl := Except.error.inj (h.symm.trans (verifySignature_of_fault hfault))
    exact hfault

theorem not_passes_of_fault (h : s.Fault payload lookup e) : ¬s.Passes payload lookup := by
  intro hpasses
  cases (verifySignature_of_passes hpasses).symm.trans (verifySignature_of_fault h)

/-! ### All entries -/

theorem verifySignatures_eq_ok {signatures : List JwsSignature} :
    verifySignatures payload lookup signatures = .ok () ↔
      ∀ s ∈ signatures, s.Passes payload lookup := by
  induction signatures with
  | nil => simp [verifySignatures]
  | cons first rest ih =>
    rw [List.forall_mem_cons, ← ih, ← verifySignature_eq_ok]
    cases hfirst : verifySignature payload lookup first with
    | ok _ => simp [verifySignatures, hfirst]
    | error e => simp [verifySignatures, hfirst]

/-- Going through the entries stops at the first one that does not pass. -/
theorem verifySignatures_eq_error {signatures : List JwsSignature} :
    verifySignatures payload lookup signatures = .error e ↔
      ∃ before s after, signatures = before ++ s :: after ∧
        (∀ b ∈ before, b.Passes payload lookup) ∧ s.Fault payload lookup e := by
  constructor
  · intro h
    induction signatures with
    | nil => cases h
    | cons first rest ih =>
      unfold verifySignatures at h
      split at h
      · rename_i hfirst
        obtain ⟨before, s, after, rfl, hbefore, hfault⟩ := ih h
        refine ⟨first :: before, s, after, rfl, ?_, hfault⟩
        exact List.forall_mem_cons.mpr ⟨verifySignature_eq_ok.mp hfirst, hbefore⟩
      · rename_i e' hfirst
        obtain rfl := Except.error.inj h
        refine ⟨[], first, rest, rfl, ?_, verifySignature_eq_error.mp hfirst⟩
        simp
  · rintro ⟨before, s, after, rfl, hbefore, hfault⟩
    induction before with
    | nil => simp [verifySignatures, verifySignature_of_fault hfault]
    | cons first before ih =>
      obtain ⟨hfirst, hbefore⟩ := List.forall_mem_cons.mp hbefore
      simp [verifySignatures, verifySignature_of_passes hfirst, ih hbefore]

end Entries

/-! ### Envelopes -/

section Envelopes

variable {j : Jws} {verified : VerifiedJws} {e : Error}

/-- Why an envelope is not verified, with the error that says so. -/
inductive Refused (j : Jws) (lookup : Text → Except Error VerificationKey) : Error → Prop
  | unsigned (h : j.signatures = []) : Refused j lookup .noSignatures
  | entry {before after : List JwsSignature} {s : JwsSignature} {e : Error}
    (hsplit : j.signatures = before ++ s :: after)
    (hbefore : ∀ b ∈ before, b.Passes j.payload lookup) (hfault : s.Fault j.payload lookup e) :
    Refused j lookup e
  | payload (hsigned : j.signatures ≠ []) (hpasses : ∀ s ∈ j.signatures, s.Passes j.payload lookup)
    (h : Base64url.decode? j.payload = none) : Refused j lookup .payloadNotBase64url

theorem verify_eq_ok_iff :
    j.verify lookup = .ok verified ↔
      j.signatures ≠ [] ∧ (∀ s ∈ j.signatures, s.Passes j.payload lookup) ∧
        Base64url.decode? j.payload = some verified.payload ∧
        verified.signerKids = j.signatures.map JwsSignature.kid := by
  obtain ⟨bytes, kids⟩ := verified
  rw [← verifySignatures_eq_ok, ← List.isEmpty_eq_false_iff]
  cases hempty : j.signatures.isEmpty with
  | true => simp [verify, hempty]
  | false =>
    cases hsignatures : verifySignatures j.payload lookup j.signatures with
    | error e => simp [verify, hempty, hsignatures]
    | ok _ =>
      cases hpayload : Base64url.decode? j.payload with
      | none => simp [verify, hempty, hsignatures, hpayload]
      | some b => simp [verify, hempty, hsignatures, hpayload, eq_comm]

theorem verify_eq_error_iff : j.verify lookup = .error e ↔ j.Refused lookup e := by
  constructor
  · intro h
    unfold verify at h
    split at h
    · rename_i hempty
      obtain rfl := Except.error.inj h
      exact .unsigned (List.isEmpty_iff.mp hempty)
    · rename_i hsigned
      split at h
      · rename_i e' hsignatures
        obtain rfl := Except.error.inj h
        obtain ⟨before, s, after, hsplit, hbefore, hfault⟩ := verifySignatures_eq_error.mp hsignatures
        exact .entry hsplit hbefore hfault
      · rename_i hsignatures
        split at h
        · cases h
        · rename_i hpayload
          obtain rfl := Except.error.inj h
          exact .payload (mt List.isEmpty_iff.mpr hsigned) (verifySignatures_eq_ok.mp hsignatures)
            hpayload
  · intro h
    cases h with
    | unsigned h => simp [verify, h]
    | entry hsplit hbefore hfault =>
      have hsigned : j.signatures ≠ [] := by simp [hsplit]
      have hsignatures := verifySignatures_eq_error.mpr ⟨_, _, _, hsplit, hbefore, hfault⟩
      simp [verify, hsigned, hsignatures]
    | payload hsigned hpasses h =>
      simp [verify, hsigned, verifySignatures_eq_ok.mpr hpasses, h]

theorem verify_of_not_passes (h : ∃ s ∈ j.signatures, ¬s.Passes j.payload lookup) :
    ∃ before s after e, j.signatures = before ++ s :: after ∧
      (∀ b ∈ before, b.Passes j.payload lookup) ∧ s.Fault j.payload lookup e ∧
      j.verify lookup = .error e := by
  obtain ⟨first, hfirst, hnot⟩ := h
  cases hsignatures : verifySignatures j.payload lookup j.signatures with
  | ok _ => exact absurd (verifySignatures_eq_ok.mp hsignatures first hfirst) hnot
  | error e =>
    obtain ⟨before, s, after, hsplit, hbefore, hfault⟩ := verifySignatures_eq_error.mp hsignatures
    exact ⟨before, s, after, e, hsplit, hbefore, hfault,
      verify_eq_error_iff.mpr (.entry hsplit hbefore hfault)⟩

/-- The payload is looked at last: unless it is a look-up's own, the error for it says that all entries
pass. -/
theorem passes_of_invalidFormat (h : j.verify lookup = .error e) (hcode : e.code? = some .invalidFormat) :
    (∀ s ∈ j.signatures, s.Passes j.payload lookup) ∨ ∃ s ∈ j.signatures, lookup s.kid = .error e := by
  cases verify_eq_error_iff.mp h with
  | unsigned _ => cases hcode
  | payload _ hpasses _ => exact .inl hpasses
  | @entry before after s _ hsplit _ hfault =>
    rcases hfault.told with hlookup | ⟨hfailed, -⟩
    · exact .inr ⟨s, by simp [hsplit], hlookup⟩
    · cases hcode.symm.trans hfailed

end Envelopes

section Lists

variable {first second : List JwsSignature}

theorem verify_append (hfirst : first ≠ []) (hsecond : second ≠ []) {verified : VerifiedJws} :
    (⟨payload, first ++ second⟩ : Jws).verify lookup = .ok verified ↔
      ∃ a b, (⟨payload, first⟩ : Jws).verify lookup = .ok a ∧
        (⟨payload, second⟩ : Jws).verify lookup = .ok b ∧
        verified = ⟨a.payload, a.signerKids ++ b.signerKids⟩ := by
  simp only [verify_eq_ok_iff, List.forall_mem_append, List.map_append]
  constructor
  · rintro ⟨-, ⟨hpasses, hpasses'⟩, hpayload, hkids⟩
    obtain ⟨bytes, kids⟩ := verified
    obtain rfl := hkids
    exact ⟨⟨bytes, first.map JwsSignature.kid⟩, ⟨bytes, second.map JwsSignature.kid⟩,
      ⟨hfirst, hpasses, hpayload, rfl⟩, ⟨hsecond, hpasses', hpayload, rfl⟩, rfl⟩
  · rintro ⟨a, b, ⟨-, hpasses, hpayload, hkids⟩, ⟨-, hpasses', -, hkids'⟩, rfl⟩
    rw [hkids, hkids']
    exact ⟨List.append_ne_nil_of_left_ne_nil hfirst _, ⟨hpasses, hpasses'⟩, hpayload, rfl⟩

theorem verify_of_perm (h : first.Perm second) {verified : VerifiedJws}
    (hverified : (⟨payload, first⟩ : Jws).verify lookup = .ok verified) :
    (⟨payload, second⟩ : Jws).verify lookup =
      .ok ⟨verified.payload, second.map JwsSignature.kid⟩ := by
  obtain ⟨hsigned, hpasses, hpayload, -⟩ := verify_eq_ok_iff.mp hverified
  refine verify_eq_ok_iff.mpr ⟨?_, fun s hs => hpasses s (h.mem_iff.mpr hs), hpayload, rfl⟩
  rintro rfl
  exact hsigned h.eq_nil

end Lists

/-- An envelope is verified exactly if all of its entries are, whatever else stands beside them and in
whatever order, and the error is that of the first one that is not. -/
theorem verify_entrywise (lookup : Text → Except Error VerificationKey) :
    (∀ (j : Jws) (verified : VerifiedJws), j.verify lookup = .ok verified ↔
      j.signatures ≠ [] ∧ (∀ s ∈ j.signatures, s.Passes j.payload lookup) ∧
        Base64url.decode? j.payload = some verified.payload ∧
        verified.signerKids = j.signatures.map JwsSignature.kid) ∧
    (∀ j : Jws, (∃ s ∈ j.signatures, ¬s.Passes j.payload lookup) →
      ∃ before s after e, j.signatures = before ++ s :: after ∧
        (∀ b ∈ before, b.Passes j.payload lookup) ∧ ¬s.Passes j.payload lookup ∧
        s.Fault j.payload lookup e ∧
        (lookup s.kid = .error e ∨ e.code? = some .verificationFailed ∧
          e.details? = some [(Text.ofString "kid", Json.str s.kid)]) ∧
        j.verify lookup = .error e) ∧
    (∀ (j : Jws) (e : Error), j.verify lookup = .error e → e.code? = some .invalidFormat →
      (∀ s ∈ j.signatures, s.Passes j.payload lookup) ∨
        ∃ s ∈ j.signatures, lookup s.kid = .error e) ∧
    (∀ payload first second, first ≠ [] → second ≠ [] → ∀ verified,
      (⟨payload, first ++ second⟩ : Jws).verify lookup = .ok verified ↔
        ∃ a b, (⟨payload, first⟩ : Jws).verify lookup = .ok a ∧
          (⟨payload, second⟩ : Jws).verify lookup = .ok b ∧
          verified = ⟨a.payload, a.signerKids ++ b.signerKids⟩) ∧
    ∀ payload first second, first.Perm second →
      ((∃ verified, (⟨payload, first⟩ : Jws).verify lookup = .ok verified) ↔
        ∃ verified, (⟨payload, second⟩ : Jws).verify lookup = .ok verified) := by
  refine ⟨fun _ _ => verify_eq_ok_iff, ?_, fun _ _ => passes_of_invalidFormat,
    fun _ _ _ hfirst hsecond _ => verify_append hfirst hsecond, ?_⟩
  · intro j h
    obtain ⟨before, s, after, e, hsplit, hbefore, hfault, herror⟩ := verify_of_not_passes h
    exact ⟨before, s, after, e, hsplit, hbefore, not_passes_of_fault hfault, hfault, hfault.told, herror⟩
  · intro payload first second h
    constructor
    · rintro ⟨verified, hverified⟩
      exact ⟨_, verify_of_perm h hverified⟩
    · rintro ⟨verified, hverified⟩
      exact ⟨_, verify_of_perm h.symm hverified⟩

end Jws

/-- A key for the cases that are run. -/
def AgentKey.sample : AgentKey :=
  ⟨"did:example:alice", "did:example:alice#key",
    ⟨.ed25519, (KeyType.ed25519.publicKey? (.ofNat 32 1)).getD [], .ofNat 32 1⟩⟩

namespace Jws

/-- The key's entry for an encoded payload, with the key named in the header or not. -/
def sampleEntry (payload : Text) (kid : Option Text) : Except Error JwsSignature := do
  let header : JwsHeader := ⟨MediaType.signed, .edDsa, kid⟩
  let signature ← AgentKey.sample.sign (signingInput header.encode payload)
  return ⟨header.encode, Base64url.encode signature, AgentKey.sample.keyId⟩

/-- Two entries of one key in both orders, the second one without its signature, and a payload that is
signed but cannot be read. -/
theorem verify_entrywise_sample :
    ∃ (key : VerificationKey) (a b c : JwsSignature), a ≠ b ∧
      (⟨"Kg", [a] ++ [b]⟩ : Jws).verify (fun _ => .ok key) = .ok ⟨[42], [a.kid, b.kid]⟩ ∧
      (∃ verified, (⟨"Kg", [b, a]⟩ : Jws).verify (fun _ => .ok key) = .ok verified) ∧
      (∃ e, (⟨"Kg", [a, { b with signature := "A" }]⟩ : Jws).verify (fun _ => .ok key) = .error e ∧
        e.code? = some .verificationFailed) ∧
      (⟨"A", [c]⟩ : Jws).verify (fun _ => .ok key) = .error .payloadNotBase64url ∧
      ∀ s ∈ [c], s.Passes "A" fun _ => .ok key := by
  have hrun : (do
      let key ← AgentKey.sample.verificationKey
      let a ← sampleEntry "Kg" none
      let b ← sampleEntry "Kg" (some AgentKey.sample.keyId)
      let c ← sampleEntry "A" none
      let va ← (⟨"Kg", [a]⟩ : Jws).verify fun _ => .ok key
      let vb ← (⟨"Kg", [b]⟩ : Jws).verify fun _ => .ok key
      let accepted ← verifySignature "A" (fun _ => .ok key) c
      if a ≠ b ∧ va = VerifiedJws.mk [42] [a.kid] ∧ vb = VerifiedJws.mk [42] [b.kid] then
        .ok accepted
      else .error .refused).toOption.isSome = true := by
    decide +kernel
  obtain ⟨_, hok⟩ := exists_ok hrun
  simp only [bind_eq_ok] at hok
  obtain ⟨key, -, a, -, b, -, c, -, va, hva, vb, hvb, _, hc, hchecked⟩ := hok
  split at hchecked
  · rename_i hresults
    obtain ⟨hdiffer, rfl, rfl⟩ := hresults
    obtain ⟨-, hfault, hformat, happend, hperm⟩ := verify_entrywise fun _ => .ok key
    have htogether := (happend "Kg" [a] [b] (by simp) (by simp) ⟨[42], [a.kid, b.kid]⟩).mpr
      ⟨_, _, hva, hvb, rfl⟩
    have hswapped := (hperm "Kg" [a, b] [b, a] (.swap b a [])).mp ⟨_, htogether⟩
    have hunsigned : ∃ s ∈ [a, { b with signature := "A" }], ¬s.Passes "Kg" fun _ => .ok key := by
      refine ⟨_, List.mem_cons_of_mem _ List.mem_cons_self, ?_⟩
      rintro ⟨header, signature, key, ⟨-, -, hsignature⟩, -⟩
      cases hsignature
    obtain ⟨_, s, _, e, -, -, -, -, htold, herror⟩ :=
      hfault ⟨"Kg", [a, { b with signature := "A" }]⟩ hunsigned
    have hpayload : (⟨"A", [c]⟩ : Jws).verify (fun _ => .ok key) = .error .payloadNotBase64url := by
      have hodd : Base64url.decode? "A" = none := by decide
      simp [verify, verifySignatures, hc, hodd]
    refine ⟨key, a, b, c, hdiffer, htogether, hswapped, ⟨e, herror, ?_⟩, hpayload, ?_⟩
    · rcases htold with hlookup | ⟨hcode, -⟩
      · cases hlookup
      · exact hcode
    · rcases hformat _ _ hpayload rfl with hpasses | ⟨_, -, hlookup⟩
      · exact hpasses
      · cases hlookup
  · cases hchecked

end Jws

/-! ### The keys of a manager -/

/-- An entry that the key found for its id has signed. -/
def JwsSignature.Authentic (s : JwsSignature) (payload : Text) (keys : KeyManager) : Prop :=
  ∃ header signature key, JwsHeader.decode? s.protectedHeader = some header ∧
    (header.kid = none ∨ header.kid = some s.kid) ∧
    Base64url.decode? s.signature = some signature ∧
    keys.verificationKey s.kid = .ok key ∧ key.keyId = s.kid ∧
    key.keyType = header.alg.keyType ∧
    key.keyType.verify key.publicKey signature (Jws.signingInput s.protectedHeader payload) = true

theorem JwsSignature.Passes.authentic {s : JwsSignature} {keys : KeyManager}
    (h : s.Passes payload keys.verificationKey) : s.Authentic payload keys := by
  obtain ⟨header, signature, key, ⟨hheader, hkid, hsignature⟩, hkey, haccepts⟩ := h
  unfold VerificationKey.accepts at haccepts
  rw [Bool.and_eq_true, decide_eq_true_eq] at haccepts
  obtain ⟨hkeyType, hverified⟩ := haccepts
  exact ⟨header, signature, key, hheader, hkid, hsignature, hkey,
    KeyManager.keyId_of_verificationKey hkey, hkeyType.symm, hverified⟩

theorem Jws.verify_eq_ok {j : Jws} {keys : KeyManager} {verified : VerifiedJws}
    (h : j.verify keys.verificationKey = .ok verified) :
    j.signatures ≠ [] ∧ (∀ s ∈ j.signatures, s.Authentic j.payload keys) ∧
      Base64url.decode? j.payload = some verified.payload ∧
      verified.signerKids = j.signatures.map JwsSignature.kid := by
  obtain ⟨hsigned, hpasses, hpayload, hkids⟩ := verify_eq_ok_iff.mp h
  exact ⟨hsigned, fun s hs => (hpasses s hs).authentic, hpayload, hkids⟩

end SealedEnvelope
