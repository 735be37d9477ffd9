import SealedEnvelope.Proofs.Envelope.EncryptedRoundTrip

/-!
# Which entry opens an envelope

A manager tries the keys that the entries name, in the order of the entries. Each key is tried on the
first entry with its id, so of entries that share an id only the foremost is ever tried. Among the
foremost entries the first one that opens on its own decides what is reported, and the envelope stays
closed only if none of them opens. A later entry with a repeated id is never tried, even if it is the
only one that opens.
-/

namespace SealedEnvelope

namespace Jwe

def only (j : Jwe) (entry : JweRecipient) : Jwe := { j with recipients := [entry] }

/-- The entries that no entry with the same id is in front of. -/
def foremost (j : Jwe) : List JweRecipient :=
  j.recipients.filter fun entry => j.entry? entry.kid = some entry

theorem opened_only {j : Jwe} {context : RecipientContext} {entry : JweRecipient}
    (h : j.entry? context.keyId = some entry) : (j.only entry).opened context = j.opened context := by
  have hkid : entry.kid = context.keyId := by
    unfold entry? at h
    simpa using List.find?_some h
  have hentry : Jwe.entry? (j.only entry) context.keyId = some entry := by
    simp [only, entry?, hkid]
  simp only [opened, hentry, h]
  rfl

theorem entry?_append_of_not_mem {j : Jwe} {front back : List JweRecipient} {entry : JweRecipient}
    (h : j.recipients = front ++ entry :: back) (hnew : ∀ other ∈ front, other.kid ≠ entry.kid) :
    j.entry? entry.kid = some entry := by
  have hfront : front.find? (fun other => other.kid = entry.kid) = none := by
    simpa [List.find?_eq_none] using hnew
  simp [h, entry?, List.find?_append, hfront]

theorem foremost_eq_self {j : Jwe} (h : (j.recipients.map JweRecipient.kid).Nodup) :
    j.foremost = j.recipients := by
  unfold foremost
  rw [List.filter_eq_self]
  intro entry hentry
  obtain ⟨front, back, hsplit⟩ := List.append_of_mem hentry
  rw [decide_eq_true_eq]
  apply entry?_append_of_not_mem hsplit
  intro other hother hsame
  rw [hsplit, List.map_append, List.nodup_append] at h
  exact h.2.2 other.kid (List.mem_map_of_mem hother) entry.kid (by simp) hsame

end Jwe

namespace Envelope

/-- Whether an entry names a key of the manager that can open envelopes, and the expected one if one is
expected. -/
def isAddressed (keys : KeyManager) (expected : Option Text) (entry : JweRecipient) : Bool :=
  (expected.isNone || expected = some entry.kid) && keys.canDecrypt entry.kid

/-- What the manager gets out of an envelope with this entry alone. -/
def openAlone (j : Jwe) (keys : KeyManager) (expected : Option Text) (entry : JweRecipient) :
    Option OpenedJwe :=
  if isAddressed keys expected entry then (openWith (j.only entry) keys entry.kid).toOption else none

/-- The step of unpacking that needs private keys. -/
def decrypted (j : Jwe) (keys : KeyManager) (expected : Option Text) : Except Error OpenedJwe :=
  openFirst j keys (.notRecipient none) (candidates j keys expected)

/-- The steps that are left once an envelope has been opened. -/
def conclude (header : JweHeader) (keys : KeyManager) (options : UnpackOptions) (opened : OpenedJwe) :
    Except Error Unpacked :=
  if Wire.isNested header then openNested opened keys
  else do
    checkUnsigned .encrypted options
    let payload ← decodePayload opened.plaintext "JWE plaintext"
    return ⟨payload, ⟨.encrypted, [], some opened.recipientKid, opened.senderKidHint⟩⟩

variable {j : Jwe} {keys : KeyManager} {expected : Option Text} {entry : JweRecipient}
  {opened : OpenedJwe} {kid : Text}

theorem openWire_encrypted (j : Jwe) (header : JweHeader) (keys : KeyManager)
    (options : UnpackOptions) :
    openWire (.encrypted j header) keys options =
      decrypted j keys options.expectedRecipientKid >>= conclude header keys options := rfl

/-! ### One key -/

theorem exists_agreement_of_canDecrypt (h : keys.canDecrypt kid = true) :
    ∃ k, keys.decryptionKey kid = .ok k ∧ k.context.keyId = kid := by
  simp only [KeyManager.canDecrypt] at h
  cases hget : keys.get? kid with
  | none => simp [hget] at h
  | some key =>
    rw [hget] at h
    obtain ⟨k, hk⟩ := Option.isSome_iff_exists.mp h
    have hkey : k.key = key := by
      simp only [AgentKey.agreement?] at hk
      split at hk
      · cases hk
      · rw [← Option.some.inj hk]
    refine ⟨k, ?_, ?_⟩
    · simp only [KeyManager.decryptionKey, KeyManager.agreementKey, KeyManager.get, hget, ok_bind, hk]
      rfl
    · change k.key.keyId = kid
      rw [hkey]
      exact KeyManager.keyId_of_get? hget

theorem hasCode_of_openWith_eq_error (h : keys.canDecrypt kid = true) {e : Error}
    (he : openWith j keys kid = .error e) : e.hasCode .decryptionFailed = true := by
  obtain ⟨k, hk, -⟩ := exists_agreement_of_canDecrypt h
  simp only [openWith, hk, ok_bind, Jwe.opened] at he
  split at he
  · rw [← Except.error.inj he]
    rfl
  · split at he
    · rw [← Except.error.inj he]
      rfl
    · cases he

theorem openWith_only (h : keys.canDecrypt kid = true) (hentry : j.entry? kid = some entry) :
    openWith (j.only entry) keys kid = openWith j keys kid := by
  obtain ⟨k, hk, hkid⟩ := exists_agreement_of_canDecrypt h
  simp only [openWith, hk, ok_bind]
  exact Jwe.opened_only (hkid.symm ▸ hentry)

theorem openAlone_of_foremost (haddressed : isAddressed keys expected entry = true)
    (hentry : j.entry? entry.kid = some entry) :
    openAlone j keys expected entry = (openWith j keys entry.kid).toOption := by
  have hheld : keys.canDecrypt entry.kid = true := by
    unfold isAddressed at haddressed
    exact (Bool.and_eq_true_iff.mp haddressed).2
  rw [openAlone, if_pos haddressed, openWith_only hheld hentry]

theorem eq_of_openAlone (h : openAlone j keys expected entry = some opened) :
    opened.recipientKid = entry.kid ∧ opened.senderKidHint = entry.senderKid := by
  unfold openAlone at h
  split at h
  · rename_i haddressed
    obtain ⟨k, hk, hkid⟩ := exists_agreement_of_canDecrypt (Bool.and_eq_true_iff.mp haddressed).2
    simp only [openWith, hk, ok_bind, Jwe.opened, Jwe.only, Jwe.entry?, hkid, List.find?_cons,
      decide_true] at h
    split at h
    · cases h
    · rw [← Option.some.inj h]
      exact ⟨rfl, rfl⟩
  · cases h

/-! ### All keys in turn -/

theorem openFirst_cases {kids : List Text} (hheld : ∀ kid ∈ kids, keys.canDecrypt kid = true)
    {failure : Error} (hfailure : failure.hasCode .decryptionFailed = true) :
    (∀ opened, openFirst j keys failure kids = .ok opened ↔
        kids.findSome? (fun kid => (openWith j keys kid).toOption) = some opened) ∧
      ∀ e, openFirst j keys failure kids = .error e → e.hasCode .decryptionFailed = true := by
  induction kids generalizing failure with
  | nil =>
    refine ⟨fun opened => ⟨fun h => (nomatch h), fun h => (nomatch h)⟩, fun e he => ?_⟩
    rw [← Except.error.inj he]
    exact hfailure
  | cons kid rest ih =>
    obtain ⟨hkid, hrest⟩ := List.forall_mem_cons.mp hheld
    cases hopen : openWith j keys kid with
    | ok found =>
      refine ⟨fun opened => ?_, fun e he => ?_⟩
      · simp [openFirst, hopen, Except.toOption]
      · simp [openFirst, hopen] at he
    | error e =>
      have he := hasCode_of_openWith_eq_error hkid hopen
      simpa [openFirst, hopen, he, Except.toOption] using ih hrest he

theorem candidates_eq (j : Jwe) (keys : KeyManager) (expected : Option Text) :
    candidates j keys expected =
      (j.recipients.filter (isAddressed keys expected)).map JweRecipient.kid := by
  unfold candidates
  rw [List.filter_map]
  rfl

/-- Trying a key once more changes nothing, so the entries behind `front` may be reduced to the foremost
ones if the entries of `front` do not open. -/
theorem findSome?_foremost {front back : List JweRecipient} (hsplit : j.recipients = front ++ back)
    (hfront : ∀ entry ∈ front, isAddressed keys expected entry = true →
      (openWith j keys entry.kid).toOption = none) :
    ((back.filter (isAddressed keys expected)).map JweRecipient.kid).findSome?
        (fun kid => (openWith j keys kid).toOption) =
      (back.filter fun entry => j.entry? entry.kid = some entry).findSome?
        (openAlone j keys expected) := by
  induction back generalizing front with
  | nil => rfl
  | cons entry back ih =>
    have hrest (hopen : isAddressed keys expected entry = true →
        (openWith j keys entry.kid).toOption = none) :=
      @ih (front ++ [entry]) (by simpa using hsplit) (by
        intro other hother
        rcases List.mem_append.mp hother with hother | hother
        · exact hfront other hother
        · rw [List.mem_singleton.mp hother]
          exact hopen)
    by_cases haddressed : isAddressed keys expected entry = true
    · by_cases hforemost : j.entry? entry.kid = some entry
      · have halone := openAlone_of_foremost haddressed hforemost
        cases hopen : (openWith j keys entry.kid).toOption with
        | some opened => simp [haddressed, hforemost, halone, hopen]
        | none => simpa [haddressed, hforemost, halone, hopen] using hrest fun _ => hopen
      · -- An entry with the same id stands in front, and its key has been tried.
        have htried : ∃ other ∈ front, other.kid = entry.kid := by
          by_contra hnew
          push Not at hnew
          exact hforemost (Jwe.entry?_append_of_not_mem hsplit hnew)
        obtain ⟨other, hother, hsame⟩ := htried
        have hopen : (openWith j keys entry.kid).toOption = none := by
          rw [← hsame]
          apply hfront other hother
          simpa [isAddressed, hsame] using haddressed
        simpa [haddressed, hforemost, hopen] using hrest fun _ => hopen
    · have halone : openAlone j keys expected entry = none := if_neg haddressed
      have hskipped := hrest fun h => absurd h haddressed
      by_cases hforemost : j.entry? entry.kid = some entry
      · simpa [haddressed, hforemost, halone] using hskipped
      · simpa [haddressed, hforemost] using hskipped

/-- An envelope is opened by the first of its foremost entries that opens alone. -/
theorem decrypted_cases (j : Jwe) (keys : KeyManager) (expected : Option Text) :
    (∀ opened, decrypted j keys expected = .ok opened ↔
        j.foremost.findSome? (openAlone j keys expected) = some opened) ∧
      ∀ e, decrypted j keys expected = .error e → e.hasCode .decryptionFailed = true := by
  have hheld : ∀ kid ∈ candidates j keys expected, keys.canDecrypt kid = true := by
    intro kid hkid
    exact (Bool.and_eq_true_iff.mp (List.mem_filter.mp hkid).2).2
  have hsearch := @findSome?_foremost j keys expected [] j.recipients rfl
    (fun _ h => absurd h List.not_mem_nil)
  rw [← candidates_eq] at hsearch
  obtain ⟨hopened, hfailed⟩ := @openFirst_cases j keys _ hheld (.notRecipient none) rfl
  refine ⟨fun opened => ?_, hfailed⟩
  rw [decrypted, hopened, hsearch]
  rfl

theorem unpack_eq_decrypted {transport : Text} {header : JweHeader} {options : UnpackOptions}
    (hwire : Wire.ofText transport.trim = .ok (.encrypted j header))
    (hsize : options.maxEnvelopeBytes.lt (.ofNat transport.utf8.length) = false)
    (hmode : options.expectedMode = none) :
    unpack transport keys options =
      decrypted j keys options.expectedRecipientKid >>= conclude header keys options := by
  have hchecked : checkMode (Wire.encrypted j header).mode options = .ok () := by
    rw [checkMode_eq_ok, hmode]
    exact fun _ h => nomatch h
  simp only [unpack, checkSize_eq_ok.mpr hsize, hwire, hchecked, ok_bind, openWire_encrypted]

/-- An encrypted envelope gets past decryption exactly if a foremost entry that is addressed to a key of
the manager opens alone, and then the first such entry gives all that is reported. If all ids differ,
this is said of every entry. -/
theorem unpack_opens_foremost {transport : Text} {header : JweHeader} {options : UnpackOptions}
    (hwire : Wire.ofText transport.trim = .ok (.encrypted j header))
    (hsize : options.maxEnvelopeBytes.lt (.ofNat transport.utf8.length) = false)
    (hmode : options.expectedMode = none) :
    unpack transport keys options =
        decrypted j keys options.expectedRecipientKid >>= conclude header keys options ∧
      ((∃ opened, decrypted j keys options.expectedRecipientKid = .ok opened) ↔
        ∃ entry ∈ j.foremost, (openAlone j keys options.expectedRecipientKid entry).isSome = true) ∧
      (∀ opened, decrypted j keys options.expectedRecipientKid = .ok opened ↔
        ∃ front entry back, j.foremost = front ++ entry :: back ∧
          openAlone j keys options.expectedRecipientKid entry = some opened ∧
          (∀ other ∈ front, openAlone j keys options.expectedRecipientKid other = none) ∧
          opened.recipientKid = entry.kid ∧ opened.senderKidHint = entry.senderKid) ∧
      (∀ e, decrypted j keys options.expectedRecipientKid = .error e →
        e.hasCode .decryptionFailed = true) ∧
      ((j.recipients.map JweRecipient.kid).Nodup → j.foremost = j.recipients) := by
  obtain ⟨hopened, hfailed⟩ := decrypted_cases j keys options.expectedRecipientKid
  refine ⟨unpack_eq_decrypted hwire hsize hmode, ?_, fun opened => ?_, hfailed, Jwe.foremost_eq_self⟩
  · simp only [hopened, ← Option.isSome_iff_exists, List.findSome?_isSome_iff]
  · rw [hopened, List.findSome?_eq_some_iff]
    constructor
    · rintro ⟨front, entry, back, hsplit, hentry, hfront⟩
      exact ⟨front, entry, back, hsplit, hentry, hfront, eq_of_openAlone hentry⟩
    · rintro ⟨front, entry, back, hsplit, hentry, hfront, -, -⟩
      exact ⟨front, entry, back, hsplit, hentry, hfront⟩

/-! ### Envelopes with a spoiled entry in front -/

/-- An entry whose key is a lone digit, which is no base64url. -/
def spoiledEntry (kid : Text) : JweRecipient := ⟨"A", kid, none⟩

theorem openWith_spoiled (hentry : j.entry? kid = some (spoiledEntry kid))
    (h : keys.canDecrypt kid = true) : (openWith j keys kid).toOption = none := by
  obtain ⟨k, hk, hkid⟩ := exists_agreement_of_canDecrypt h
  have hkey : Base64url.decode? (spoiledEntry kid).encryptedKey = none := by
    change Base64url.decode? "A" = none
    decide
  have hclosed : j.openEntry? k.context (spoiledEntry kid) = none := by
    simp [hkey, Jwe.openEntry?]
  simp only [openWith, hk, ok_bind, Jwe.opened, hkid, hentry, hclosed]
  rfl

theorem exists_sample : ∃ (j : Jwe) (entry : JweRecipient) (header : JweHeader) (plaintext : Bytes),
    j.recipients = [entry] ∧ entry.kid = "did:example:bob#key" ∧
      JweHeader.decode j.protectedHeader .decryptionFailed = .ok header ∧
      ∀ keys : KeyManager, keys.get? "did:example:bob#key" = some recipientKey →
        openWith j keys "did:example:bob#key" = .ok ⟨plaintext, "did:example:bob#key", none⟩ := by
  have hcreated : (Jwe.create [] [recipientPublicKey] {} UInt8.ofNat).toOption.isSome = true := by
    decide +kernel
  obtain ⟨j, hj⟩ := exists_ok hcreated
  obtain ⟨c, ephemeral, header, -, -, -, hseals⟩ := Jwe.create_eq_ok hj
  have hkids := Jwe.map_kid_of_entriesFor hseals.entries
  obtain ⟨entry, hentry⟩ := List.length_eq_one_iff.mp (by simpa using congrArg List.length hkids)
  rw [hentry] at hkids
  refine ⟨j, entry, header, [], hentry, List.head_eq_of_cons_eq hkids, ?_, fun keys hget => ?_⟩
  · rw [hseals.protectedHeader, JweHeader.decode_encode]
  · refine openWith_of_create hj (receives_of_recipientKey fun r hr key hkey => ?_) List.mem_cons_self
      (by simp [KeyManager.hasKey, hget])
    obtain rfl := List.mem_singleton.mp hr
    exact ⟨rfl, Option.some.inj (hkey.symm.trans hget)⟩

/-- A manager with the recipient's key under a second id. -/
def twoIds : KeyManager :=
  ⟨[{ recipientKey with keyId := "did:example:carol#key" }, recipientKey], none⟩

theorem exists_spoiled {kid : Text} (hkid : kid ≠ []) :
    ∃ (j : Jwe) (entry : JweRecipient) (header : JweHeader) (opened : OpenedJwe),
      j.recipients = [spoiledEntry kid, entry] ∧ entry.kid = "did:example:bob#key" ∧
        Wire.ofText j.serialized.trim = .ok (.encrypted j header) ∧
        openAlone j twoIds none entry = some opened := by
  obtain ⟨j, entry, header, plaintext, hentries, hentry, hheader, hopens⟩ := exists_sample
  let spoiled : Jwe := { j with recipients := [spoiledEntry kid, entry] }
  have honly : spoiled.only entry = j := by
    simp [spoiled, Jwe.only, ← hentries]
  refine ⟨spoiled, entry, header, ⟨plaintext, "did:example:bob#key", none⟩, rfl, hentry, ?_, ?_⟩
  · refine ofText_serialized (Jwe.ofJson_toJson (List.cons_ne_nil _ _) ?_) hheader
    change ∀ r ∈ [spoiledEntry kid, entry], r.kid ≠ []
    rw [List.forall_mem_cons, List.forall_mem_singleton, hentry]
    exact ⟨hkid, by decide⟩
  · have haddressed : isAddressed twoIds none entry = true := by
      simp only [isAddressed, hentry]
      decide
    rw [openAlone, if_pos haddressed, honly, hentry, hopens twoIds (by decide)]
    rfl

/-- A key whose entry is spoiled does not keep the next one from being tried. -/
theorem unpack_opens_foremost_second :
    ∃ (t : Text) (header : JweHeader) (opened : OpenedJwe),
      opened.recipientKid = "did:example:bob#key" ∧
        unpack t twoIds { maxEnvelopeBytes := .infinite false } =
          conclude header twoIds { maxEnvelopeBytes := .infinite false } opened := by
  obtain ⟨j, entry, header, opened, hentries, hentry, hwire, halone⟩ :=
    @exists_spoiled "did:example:carol#key" (by decide)
  obtain ⟨hunpack, -, hopened, -, hforemost⟩ := @unpack_opens_foremost j twoIds _ header
    { maxEnvelopeBytes := .infinite false } hwire (infinite_lt _) rfl
  have hdistinct : j.foremost = [spoiledEntry "did:example:carol#key"] ++ entry :: [] := by
    rw [hforemost, hentries]
    · rfl
    · rw [hentries, List.map_cons, List.map_singleton, hentry]
      decide
  have hspoiled : openAlone j twoIds none (spoiledEntry "did:example:carol#key") = none := by
    have hfirst : j.entry? "did:example:carol#key" = some (spoiledEntry "did:example:carol#key") := by
      simp [hentries, Jwe.entry?, spoiledEntry]
    rw [openAlone_of_foremost (by decide) hfirst]
    exact openWith_spoiled hfirst (by decide)
  have hdecrypted := (hopened opened).mpr ⟨_, entry, [], hdistinct, halone,
    List.forall_mem_singleton.mpr hspoiled, eq_of_openAlone halone⟩
  rw [hdecrypted, ok_bind] at hunpack
  exact ⟨_, header, opened, (eq_of_openAlone halone).1.trans hentry, hunpack⟩

/-- Behind a spoiled entry with the same id, the entry that would open is not tried. -/
theorem repeated_id_not_tried :
    ∃ (j : Jwe) (header : JweHeader) (entry : JweRecipient) (e : Error),
      Wire.ofText j.serialized.trim = .ok (.encrypted j header) ∧ entry ∈ j.recipients ∧
        (openAlone j twoIds none entry).isSome = true ∧ e.hasCode .decryptionFailed = true ∧
        unpack j.serialized twoIds { maxEnvelopeBytes := .infinite false } = .error e := by
  obtain ⟨j, entry, header, opened, hentries, hentry, hwire, halone⟩ :=
    @exists_spoiled "did:example:bob#key" (by decide)
  have hunpack := @unpack_eq_decrypted j twoIds _ header
    { maxEnvelopeBytes := .infinite false } hwire (infinite_lt _) rfl
  have hfirst : j.entry? "did:example:bob#key" = some (spoiledEntry "did:example:bob#key") := by
    simp [hentries, Jwe.entry?, spoiledEntry]
  have hspoiled : openAlone j twoIds none (spoiledEntry "did:example:bob#key") = none := by
    rw [openAlone_of_foremost (by decide) hfirst]
    exact openWith_spoiled hfirst (by decide)
  obtain ⟨hopened, hfailed⟩ := decrypted_cases j twoIds none
  cases hdecrypted : decrypted j twoIds none with
  | ok opened' =>
    -- Both entries have one id, so the spoiled one is the only foremost entry.
    obtain ⟨other, hother, hfound⟩ := List.exists_of_findSome?_eq_some ((hopened opened').mp hdecrypted)
    have hothers : other.kid = "did:example:bob#key" := by
      have hmem : other ∈ [spoiledEntry "did:example:bob#key", entry] :=
        hentries ▸ (List.mem_filter.mp hother).1
      rcases List.mem_cons.mp hmem with rfl | hmem
      · rfl
      · rw [List.mem_singleton.mp hmem, hentry]
    have hforemost := of_decide_eq_true (List.mem_filter.mp hother).2
    rw [hothers, hfirst] at hforemost
    rw [← Option.some.inj hforemost, hspoiled] at hfound
    cases hfound
  | error e =>
    rw [hdecrypted] at hunpack
    exact ⟨j, header, entry, e, hwire, by simp [hentries], by simp [halone], hfailed e hdecrypted,
      hunpack⟩

end Envelope
end SealedEnvelope
