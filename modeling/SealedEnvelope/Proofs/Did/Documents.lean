import SealedEnvelope.Proofs.Did.Resolution
import SealedEnvelope.Proofs.Did.SelfCertifying
import SealedEnvelope.Proofs.Jws.Verification

/-!
# Documents in memory

What has been registered and taken out before decides nothing but which document an id is looked up in:
the one that was registered last for the DID of the id, if it has not been taken out since.

In a document an id asks for one absolute id, its own or that of the first authentication entry, and the
first method with that absolute id answers. Ids are compared only in their absolute form, so it makes no
difference which ids of a document are written relative to its DID. This rests on one fact: a DID that
an id is split at has no number sign, so that an absolute id is never taken for a relative one.
-/

namespace SealedEnvelope

namespace DidUrl

variable {did id id' : Text}

theorem mark_not_mem_did (id : Text) : mark ∉ (ofText id).did := by
  intro h
  have hne := List.mem_takeWhile_imp h
  simp at hne

theorem absolute_of_head? (h : id.head? ≠ some mark) : absolute did id = id := if_neg h

theorem absolute_absolute (h : mark ∉ did) (id : Text) :
    absolute did (absolute did id) = absolute did id := by
  by_cases hid : id.head? = some mark
  · cases did with
    | nil => simp [absolute]
    | cons u did =>
      have hu : u ≠ mark := fun hu => h (hu ▸ List.mem_cons_self)
      have hhead : (absolute (u :: did) id).head? ≠ some mark := by
        rw [absolute, if_pos hid, List.cons_append, List.head?_cons]
        exact fun hmark => hu (Option.some.inj hmark)
      exact absolute_of_head? hhead
  · rw [absolute_of_head? hid, absolute_of_head? hid]

/-- An id as it is, or in its absolute form. -/
def Respelled (did id id' : Text) : Prop := id' = id ∨ id' = absolute did id

theorem Respelled.absolute_eq (h : Respelled did id id') (hdid : mark ∉ did) :
    absolute did id' = absolute did id := by
  rcases h with rfl | rfl
  · rfl
  · exact absolute_absolute hdid id

end DidUrl

theorem VerificationKey.keyId_ofMaterial {keyId : Text} {material : KeyMaterial}
    {key : VerificationKey} (h : ofMaterial keyId material = .ok key) : key.keyId = keyId := by
  cases material with
  | jwk v => exact keyId_ofJwk h
  | multikey multibase =>
    cases multibase with
    | none => cases h
    | some t =>
      obtain ⟨_, -, hkey⟩ := bind_eq_ok.mp h
      exact keyId_ofPublicKey hkey

namespace DidDocument

/-- The absolute id that an id asks for: its own if it has a fragment, and otherwise that of the first
method that the document lists for authentication. -/
inductive Asks (d : DidDocument) (id : Text) : Text → Prop
  | method (h : DidUrl.mark ∈ id) : Asks d id id
  | bare (h : DidUrl.mark ∉ id) {first : Text} {rest : List Text}
    (hfirst : d.authentication = first :: rest) : Asks d id (DidUrl.absolute d.id first)

/-- A document and another one in which some ids are absolute that are relative in the first. What else
the documents hold is not looked at. -/
structure Respelled (d d' : DidDocument) : Prop where
  id : d'.id = d.id
  methods : List.Forall₂ (fun m m' => DidUrl.Respelled d.id m.id m'.id ∧ m'.material = m.material)
    d.methods d'.methods
  authentication : List.Forall₂ (DidUrl.Respelled d.id) d.authentication d'.authentication

variable {d d' : DidDocument} {id wanted : Text} {jwk : PublicJwk}

theorem wanted?_eq_some (h : (DidUrl.ofText id).did = d.id) :
    d.wanted? id = some wanted ↔ d.Asks id wanted := by
  rcases DidUrl.ofText_cases id with hbare | ⟨did, fragment, rfl, hnamed⟩
  · have hmark : DidUrl.mark ∉ id := by
      have hdid := DidUrl.mark_not_mem_did id
      rwa [hbare] at hdid
    have hwanted : d.wanted? id = d.authentication.head?.map (DidUrl.absolute d.id) := by
      simp only [wanted?, ← h, hbare]
    rw [hwanted, Option.map_eq_some_iff]
    constructor
    · rintro ⟨first, hfirst, rfl⟩
      obtain ⟨rest, hrest⟩ := List.head?_eq_some_iff.mp hfirst
      exact .bare hmark hrest
    · intro hasks
      cases hasks with
      | method hmem => exact absurd hmem hmark
      | bare _ hfirst => exact ⟨_, by rw [hfirst, List.head?_cons], rfl⟩
  · have hmark : DidUrl.mark ∈ DidUrl.method did fragment :=
      List.mem_append_right did List.mem_cons_self
    have hwanted : d.wanted? (DidUrl.method did fragment) = some (DidUrl.method did fragment) := by
      simp only [wanted?, hnamed]
    rw [hwanted, Option.some.injEq]
    constructor
    · rintro rfl
      exact .method hmark
    · intro hasks
      cases hasks with
      | method _ => rfl
      | bare hmem _ => exact absurd hmark hmem

theorem jwk_eq_ok (h : (DidUrl.ofText id).did = d.id) :
    d.jwk id = .ok jwk ↔
      ∃ wanted front m back key, d.Asks id wanted ∧ d.methods = front ++ m :: back ∧
        DidUrl.absolute d.id m.id = wanted ∧ (∀ f ∈ front, DidUrl.absolute d.id f.id ≠ wanted) ∧
        VerificationKey.ofMaterial wanted m.material = .ok key ∧ key.publicJwk = jwk ∧
        jwk.kid = some wanted := by
  have hmethod : ∀ wanted m, d.method? wanted = some m ↔
      DidUrl.absolute d.id m.id = wanted ∧ ∃ front back, d.methods = front ++ m :: back ∧
        ∀ f ∈ front, DidUrl.absolute d.id f.id ≠ wanted := by
    intro wanted m
    simp [method?, List.find?_eq_some_iff_append]
  constructor
  · intro hjwk
    simp only [DidDocument.jwk] at hjwk
    split at hjwk
    · cases hjwk
    · rename_i wanted hwanted
      split at hjwk
      · cases hjwk
      · rename_i m hm
        obtain ⟨habsolute, front, back, hsplit, hfront⟩ := (hmethod wanted m).mp hm
        split at hjwk
        · rename_i key hkey
          obtain rfl := Except.ok.inj hjwk
          refine ⟨wanted, front, m, back, key, (wanted?_eq_some h).mp hwanted, hsplit, habsolute, hfront,
            hkey, rfl, ?_⟩
          rw [VerificationKey.publicJwk, PublicJwk.kid_withKid, VerificationKey.keyId_ofMaterial hkey]
        · cases hjwk
  · rintro ⟨wanted, front, m, back, key, hasks, hsplit, habsolute, hfront, hkey, rfl, -⟩
    have hm := (hmethod wanted m).mpr ⟨habsolute, front, back, hsplit, hfront⟩
    simp only [DidDocument.jwk, (wanted?_eq_some h).mpr hasks, hm, hkey]

theorem Respelled.wanted?_eq (h : d.Respelled d') (hid : (DidUrl.ofText id).did = d.id) :
    d'.wanted? id = d.wanted? id := by
  have hdid : DidUrl.mark ∉ d.id := hid ▸ DidUrl.mark_not_mem_did id
  have hfirst : ∀ {ids ids' : List Text}, List.Forall₂ (DidUrl.Respelled d.id) ids ids' →
      ids'.head?.map (DidUrl.absolute d.id) = ids.head?.map (DidUrl.absolute d.id) := by
    intro ids ids' hids
    cases hids with
    | nil => rfl
    | cons hfirst _ => exact congrArg some (hfirst.absolute_eq hdid)
  simp only [wanted?, hid, hfirst h.authentication]

theorem find?_respelled {ms ms' : List VerificationMethod} (hdid : DidUrl.mark ∉ d.id) (wanted : Text)
    (h : List.Forall₂ (fun m m' => DidUrl.Respelled d.id m.id m'.id ∧ m'.material = m.material) ms ms') :
    (ms'.find? fun m => DidUrl.absolute d.id m.id = wanted).map VerificationMethod.material =
      (ms.find? fun m => DidUrl.absolute d.id m.id = wanted).map VerificationMethod.material := by
  induction h with
  | nil => rfl
  | cons hm _ ih =>
    obtain ⟨hspelling, hmaterial⟩ := hm
    simp only [List.find?_cons, hspelling.absolute_eq hdid]
    split
    · exact congrArg some hmaterial
    · exact ih

/-- It makes no difference which ids of a document are relative. -/
theorem Respelled.jwk_eq (h : d.Respelled d') (hid : (DidUrl.ofText id).did = d.id) :
    d'.jwk id = d.jwk id := by
  have hdid : DidUrl.mark ∉ d.id := hid ▸ DidUrl.mark_not_mem_did id
  simp only [jwk, h.wanted?_eq hid]
  split
  · rfl
  · rename_i wanted _
    have hmaterial : (d'.method? wanted).map VerificationMethod.material =
        (d.method? wanted).map VerificationMethod.material := by
      simp only [method?, h.id, find?_respelled hdid wanted h.methods]
    cases hm : d.method? wanted with
    | none =>
      rw [hm, Option.map_none, Option.map_eq_none_iff] at hmaterial
      simp only [hmaterial]
    | some m =>
      rw [hm, Option.map_some, Option.map_eq_some_iff] at hmaterial
      obtain ⟨m', hm', hkey⟩ := hmaterial
      simp only [hm', hkey]

end DidDocument

namespace DocumentRegistry

/-! ### One change -/

/-- A change to the documents in memory. -/
inductive Change
  | register (d : DidDocument)
  | unregister (did : Text)

namespace Change

def did : Change → Text
  | register d => d.id
  | unregister did => did

/-- The document that there is for the DID after a change. -/
def document? : Change → Option DidDocument
  | register d => some d
  | unregister _ => none

end Change

def after (registry : DocumentRegistry) : Change → DocumentRegistry
  | .register d => registry.register d
  | .unregister did => registry.unregister did

variable {registry : DocumentRegistry} {did : Text} {d : DidDocument}

theorem find?_unregister (registry : DocumentRegistry) (removed did : Text) :
    (registry.unregister removed).find? did = if removed = did then none else registry.find? did := by
  rw [find?, unregister, List.find?_filter]
  split
  · rename_i h
    subst h
    rw [List.find?_eq_none]
    simp
  · rename_i h
    rw [find?]
    congr 1
    funext d
    by_cases hd : d.id = did
    · simp [hd, Ne.symm h]
    · simp [hd]

/-- A change decides what is found for its own DID and touches no other. -/
theorem find?_after (registry : DocumentRegistry) (change : Change) (did : Text) :
    (registry.after change).find? did =
      if change.did = did then change.document? else registry.find? did := by
  cases change with
  | unregister removed => exact find?_unregister registry removed did
  | register d =>
    rw [after, register, find?, List.find?_cons]
    by_cases hd : d.id = did
    · simp [hd, Change.did, Change.document?]
    · have hother := find?_unregister registry d.id did
      rw [find?] at hother
      simp [hd, Change.did, hother]

/-! ### A run of changes -/

def run (registry : DocumentRegistry) (changes : List Change) : DocumentRegistry :=
  changes.foldl after registry

/-- The last change of the document for a DID was that this document was registered. -/
def Holds (changes : List Change) (did : Text) (d : DidDocument) : Prop :=
  ∃ earlier later, changes = earlier ++ .register d :: later ∧ d.id = did ∧
    ∀ change ∈ later, change.did ≠ did

theorem run_ofList (ds : List DidDocument) (changes : List Change) :
    (ofList ds).run changes = empty.run (ds.map .register ++ changes) := by
  rw [run, run, List.foldl_append, List.foldl_map]
  rfl

theorem find?_run_of_untouched {changes : List Change} (h : ∀ change ∈ changes, change.did ≠ did)
    (registry : DocumentRegistry) : (registry.run changes).find? did = registry.find? did := by
  induction changes generalizing registry with
  | nil => rfl
  | cons change rest ih =>
    obtain ⟨hchange, hrest⟩ := List.forall_mem_cons.mp h
    rw [run, List.foldl_cons, ← run, ih hrest, find?_after, if_neg hchange]

theorem find?_run_of_last {earlier later : List Change} {change : Change} (hdid : change.did = did)
    (hlater : ∀ c ∈ later, c.did ≠ did) (registry : DocumentRegistry) :
    (registry.run (earlier ++ change :: later)).find? did = change.document? := by
  rw [run, List.foldl_append, List.foldl_cons, ← run, ← run, find?_run_of_untouched hlater, find?_after,
    if_pos hdid]

theorem untouched_or_last (changes : List Change) (did : Text) :
    (∀ change ∈ changes, change.did ≠ did) ∨
      ∃ earlier change later, changes = earlier ++ change :: later ∧ change.did = did ∧
        ∀ c ∈ later, c.did ≠ did := by
  induction changes with
  | nil => exact .inl fun change hchange => absurd hchange List.not_mem_nil
  | cons first rest ih =>
    rcases ih with hrest | ⟨earlier, change, later, rfl, hdid, hlater⟩
    · by_cases hfirst : first.did = did
      · exact .inr ⟨[], first, rest, rfl, hfirst, hrest⟩
      · exact .inl (List.forall_mem_cons.mpr ⟨hfirst, hrest⟩)
    · exact .inr ⟨first :: earlier, change, later, rfl, hdid, hlater⟩

/-- What is found for a DID is what was registered last and not taken out since. -/
theorem find?_run_eq_some {changes : List Change} :
    (empty.run changes).find? did = some d ↔ Holds changes did d := by
  constructor
  · intro hfound
    rcases untouched_or_last changes did with hnone | ⟨earlier, change, later, rfl, hdid, hlater⟩
    · rw [find?_run_of_untouched hnone] at hfound
      cases hfound
    · rw [find?_run_of_last hdid hlater] at hfound
      cases change with
      | register found =>
        obtain rfl := Option.some.inj hfound
        exact ⟨earlier, later, rfl, hdid, hlater⟩
      | unregister removed => cases hfound
  · rintro ⟨earlier, later, rfl, hdid, hlater⟩
    have hchange : (Change.register d).did = did := hdid
    exact find?_run_of_last hchange hlater empty

variable {ds : List DidDocument} {changes : List Change} {id : Text}

theorem resolve_run_of_holds (h : Holds (ds.map .register ++ changes) (DidUrl.ofText id).did d) :
    ((ofList ds).run changes).resolve id = d.jwk id := by
  rw [run_ofList, resolve, find?_run_eq_some.mpr h]

theorem resolve_run_of_not_holds
    (h : ∀ d, ¬Holds (ds.map .register ++ changes) (DidUrl.ofText id).did d) :
    ((ofList ds).run changes).resolve id = .error (.unresolved id (some "unknown DID")) := by
  have hnone : (empty.run (ds.map .register ++ changes)).find? (DidUrl.ofText id).did = none := by
    rw [Option.eq_none_iff_forall_ne_some]
    exact fun d hd => h d (find?_run_eq_some.mp hd)
  rw [run_ofList, resolve, hnone]

end DocumentRegistry

/-- After any run of changes an id is looked up in the document that was registered last for its DID. The
first method with the absolute id that is asked for answers under that id, wherever the document writes
ids relative to its DID. Every failure is that of a key that is not found. -/
theorem documents_resolve (ds : List DidDocument) (changes : List DocumentRegistry.Change) (id : Text) :
    (∀ d, DocumentRegistry.Holds (ds.map .register ++ changes) (DidUrl.ofText id).did d →
      ((DocumentRegistry.ofList ds).run changes).resolve id = d.jwk id) ∧
    ((∀ d, ¬DocumentRegistry.Holds (ds.map .register ++ changes) (DidUrl.ofText id).did d) →
      ((DocumentRegistry.ofList ds).run changes).resolve id =
        .error (.unresolved id (some "unknown DID"))) ∧
    FailsAs (fun e => e.code? = some .keyNotFound)
      (((DocumentRegistry.ofList ds).run changes).resolve id) ∧
    ∀ d : DidDocument, (DidUrl.ofText id).did = d.id →
      (∀ jwk, d.jwk id = .ok jwk ↔
        ∃ wanted front m back key, d.Asks id wanted ∧ d.methods = front ++ m :: back ∧
          DidUrl.absolute d.id m.id = wanted ∧ (∀ f ∈ front, DidUrl.absolute d.id f.id ≠ wanted) ∧
          VerificationKey.ofMaterial wanted m.material = .ok key ∧ key.publicJwk = jwk ∧
          jwk.kid = some wanted) ∧
      (∀ d', d.Respelled d' → d'.jwk id = d.jwk id) ∧
      FailsAs (fun e => e.code? = some .keyNotFound) (d.jwk id) := by
  refine ⟨fun d => DocumentRegistry.resolve_run_of_holds, DocumentRegistry.resolve_run_of_not_holds,
    DocumentRegistry.failsAs_resolve _ id, ?_⟩
  intro d hid
  exact ⟨fun jwk => DidDocument.jwk_eq_ok hid, fun d' h => h.jwk_eq hid, d.failsAs_jwk id⟩

/-- A document with one method, which is a raw key on Edwards' curve under an id that is given. -/
def DidDocument.sample (method : Text) (publicKey : Bytes) : DidDocument :=
  { context := []
    id := "did:example:alice"
    methods := [⟨method, "did:example:alice", .jwk (some (OkpJwk.ofPublicKey publicKey).toJson)⟩]
    authentication := [method]
    keyAgreement := [] }

/-- The key of Alice, who has replaced her document, and of Bob, who has taken his out. -/
def DocumentRegistry.sample (publicKey : Bytes) : DocumentRegistry :=
  (ofList [.sample "#old" []]).run
    [.register (.sample "#key" publicKey), .unregister "did:example:bob"]

theorem DidDocument.exists_sample :
    ∃ jwk, (sample "#key" AgentKey.sample.pair.publicKey).jwk "did:example:alice" = .ok jwk := by
  apply exists_ok
  decide +kernel

/-- A document with a relative id takes the place of one that has no key to give, and a DID is asked for
whose document has been taken out. -/
theorem documents_resolve_relative : ∃ jwk,
    (DocumentRegistry.sample AgentKey.sample.pair.publicKey).resolve "did:example:alice" = .ok jwk ∧
      jwk.kid = some (Text.ofString "did:example:alice#key") ∧
      (DidDocument.sample "did:example:alice#key" AgentKey.sample.pair.publicKey).jwk
        "did:example:alice" = .ok jwk ∧
      (DocumentRegistry.sample AgentKey.sample.pair.publicKey).resolve "did:example:bob" =
        .error (.unresolved "did:example:bob" (some "unknown DID")) := by
  obtain ⟨jwk, hjwk⟩ := DidDocument.exists_sample
  have hrun := documents_resolve [.sample "#old" []]
    [.register (.sample "#key" AgentKey.sample.pair.publicKey), .unregister "did:example:bob"]
  obtain ⟨hfound, -, -, hdocument⟩ := hrun "did:example:alice"
  obtain ⟨-, hmissing, -, -⟩ := hrun "did:example:bob"
  obtain ⟨hanswer, hspelling, -⟩ := hdocument (.sample "#key" AgentKey.sample.pair.publicKey) (by decide)
  refine ⟨jwk, ?_, ?_, ?_, ?_⟩
  · have hholds := hfound (.sample "#key" AgentKey.sample.pair.publicKey)
      ⟨[.register (.sample "#old" [])], [.unregister "did:example:bob"], rfl, by decide, by decide⟩
    rw [DocumentRegistry.sample, hholds, hjwk]
  · obtain ⟨wanted, -, -, -, -, hasks, -, -, -, -, -, hkid⟩ := (hanswer jwk).mp hjwk
    cases hasks with
    | method hmark => exact absurd hmark (by decide)
    | bare _ hfirst =>
      obtain ⟨rfl, -⟩ := List.cons.inj hfirst
      rw [hkid]
      decide
  · rw [hspelling (.sample "did:example:alice#key" AgentKey.sample.pair.publicKey) ?_, hjwk]
    exact
      { id := rfl
        methods := .cons ⟨.inr (by decide), rfl⟩ .nil
        authentication := .cons (.inr (by decide)) .nil }
  · apply hmissing
    intro d hholds
    cases DocumentRegistry.find?_run_eq_some.mpr hholds

end SealedEnvelope
