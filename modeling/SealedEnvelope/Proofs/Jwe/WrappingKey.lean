import SealedEnvelope.Jwe.Agreement
import SealedEnvelope.Proofs.Cipher.ConcatKdf
import SealedEnvelope.Proofs.Text.Utf8

/-!
# Wrapping keys are bound to both parties

A wrapping key is one digest. Both ids are hashed with the secret, and no bytes can move between them:
with one secret, different recipients or different senders never hash the same bytes. The one exception
is by design, a sender that is not named counts as a sender with an empty id.
-/

namespace SealedEnvelope

/-- A text that its bytes stand for, and whose length in bytes can be written in front of them. -/
structure Text.Framable (t : Text) : Prop where
  paired : t.Paired
  length : t.utf8.length < 2 ^ 32

theorem Text.framable_nil : Text.Framable [] := ⟨.nil, by decide⟩

theorem Text.Framable.getD {t : Option Text} (h : ∀ s ∈ t, Text.Framable s) :
    Text.Framable (t.getD []) := by
  cases t with
  | none => exact Text.framable_nil
  | some s => exact h s rfl

theorem senderInfo_eq (senderKid : Option Text) : senderInfo senderKid = (senderKid.getD []).utf8 := by
  cases senderKid with
  | none => rfl
  | some kid => rfl

section

variable (secret : Bytes) (senderKid : Option Text) (recipientKid : Text)

/-- The one round that a wrapping key takes. -/
def wrappingRound : ConcatKdf.Round :=
  ⟨1, secret, ConcatKdf.keyAgreement, senderInfo senderKid, recipientKid.utf8, 256⟩

theorem rounds_wrappingKey :
    ConcatKdf.rounds secret (senderInfo senderKid) recipientKid.utf8 32 ConcatKdf.keyAgreement =
      [wrappingRound secret senderKid recipientKid] := rfl

theorem wrappingKey_eq_hash :
    wrappingKey secret senderKid recipientKid =
      Sha256.hash (wrappingRound secret senderKid recipientKid).input := by
  rw [wrappingKey, ConcatKdf.material_eq, rounds_wrappingKey, List.flatMap_singleton]
  exact List.take_of_length_le (Nat.le_of_eq (Sha256.length_hash _))

theorem length_wrappingKey : (wrappingKey secret senderKid recipientKid).length = 32 := by
  rw [wrappingKey_eq_hash, Sha256.length_hash]

/-- The 256 bits that wrapping keys are derived for are one round's digest. -/
theorem ConcatKdf.derive_wrappingKey :
    derive secret (senderInfo senderKid) recipientKid.utf8 (.ofNat 256) keyAgreement =
      .ok (wrappingKey secret senderKid recipientKid) := by
  refine derive_eq_ok.mpr ⟨32, by decide, by decide +kernel, by decide, ?_⟩
  exact material_eq _ _ _ _ _

end

theorem inRange_wrappingRound (secret : Bytes) {senderKid : Option Text} {recipientKid : Text}
    (hsender : ∀ t ∈ senderKid, Text.Framable t) (hrecipient : recipientKid.Framable) :
    (wrappingRound secret senderKid recipientKid).InRange := by
  have hinfo : (senderInfo senderKid).length < 2 ^ 32 := by
    rw [senderInfo_eq]
    exact (Text.Framable.getD hsender).length
  exact ConcatKdf.inRange_of_mem_rounds (by decide) (by decide) hinfo hrecipient.length (by decide) _
    (rounds_wrappingKey secret senderKid recipientKid ▸ List.mem_cons_self)

theorem wrappingRound_inj (secret : Bytes) {senderKid senderKid' : Option Text}
    {recipientKid recipientKid' : Text} (hsender : ∀ t ∈ senderKid, Text.Framable t)
    (hsender' : ∀ t ∈ senderKid', Text.Framable t) (hrecipient : recipientKid.Framable)
    (hrecipient' : recipientKid'.Framable) :
    (wrappingRound secret senderKid recipientKid).input =
        (wrappingRound secret senderKid' recipientKid').input ↔
      recipientKid = recipientKid' ∧ senderKid.getD [] = senderKid'.getD [] := by
  rw [ConcatKdf.Round.input_inj (inRange_wrappingRound secret hsender hrecipient)
      (inRange_wrappingRound secret hsender' hrecipient') rfl,
    ← Utf8.utf8_inj hrecipient.paired hrecipient'.paired,
    ← Utf8.utf8_inj (Text.Framable.getD hsender).paired (Text.Framable.getD hsender').paired,
    ← senderInfo_eq, ← senderInfo_eq]
  constructor
  · rintro ⟨-, -, -, hsame, hsame', -⟩
    exact ⟨hsame', hsame⟩
  · rintro ⟨hsame', hsame⟩
    exact ⟨rfl, rfl, rfl, hsame, hsame', rfl⟩

/-- A round's bytes determine what went into it, and key material is made of the digests of rounds. A
wrapping key is one such digest, so with one secret both parties' ids are determined. -/
theorem kdf_context_separation :
    (∀ a b : ConcatKdf.Round, a.InRange → b.InRange → a.secret.length = b.secret.length →
      (a.input = b.input ↔ a.counter = b.counter ∧ a.secret = b.secret ∧
        a.algorithm.utf8 = b.algorithm.utf8 ∧ a.apu = b.apu ∧ a.apv = b.apv ∧ a.bits = b.bits)) ∧
    (∀ (secret apu apv key : Bytes) (bits : Double) (algorithm : Text),
      ConcatKdf.derive secret apu apv bits algorithm = .ok key ↔
        ∃ bytes, 0 < bytes ∧ bits.toInt? = some ((bytes * 8 : Nat) : Int) ∧
          ConcatKdf.roundCount bytes ≤ ConcatKdf.maxRounds ∧
          key = ((ConcatKdf.rounds secret apu apv bytes algorithm).flatMap fun r =>
            Sha256.hash r.input).take bytes) ∧
    ∀ (secret : Bytes) (senderKid senderKid' : Option Text) (recipientKid recipientKid' : Text),
      (∀ t ∈ senderKid, Text.Framable t) → (∀ t ∈ senderKid', Text.Framable t) →
      recipientKid.Framable → recipientKid'.Framable →
        wrappingKey secret senderKid recipientKid =
            Sha256.hash (wrappingRound secret senderKid recipientKid).input ∧
          ((wrappingRound secret senderKid recipientKid).input =
              (wrappingRound secret senderKid' recipientKid').input ↔
            recipientKid = recipientKid' ∧ senderKid.getD [] = senderKid'.getD []) := by
  refine ⟨fun _ _ => ConcatKdf.Round.input_inj, fun _ _ _ _ _ _ => ConcatKdf.derive_eq_ok, ?_⟩
  intro secret senderKid senderKid' recipientKid recipientKid' hsender hsender' hrecipient hrecipient'
  exact ⟨wrappingKey_eq_hash secret senderKid recipientKid,
    wrappingRound_inj secret hsender hsender' hrecipient hrecipient'⟩

/-- A byte that moves from the sender's id to the recipient's, or from the algorithm to the sender,
changes what is hashed. A sender without a name is one with an empty name. -/
theorem kdf_context_separation_samples :
    (ConcatKdf.Round.mk 1 [7] "ab" [] [] 256).input ≠
        (ConcatKdf.Round.mk 1 [7] "a" [0x62] [] 256).input ∧
      (wrappingRound [7] (some "ab") "c").input ≠ (wrappingRound [7] (some "a") "bc").input ∧
      (wrappingRound [7] none "c").input = (wrappingRound [7] (some []) "c").input := by
  obtain ⟨hrounds, -, hparties⟩ := kdf_context_separation
  have hframable : ∀ {t : Text}, (t.all fun u => decide (u < 0xD800)) = true →
      t.utf8.length < 2 ^ 32 → t.Framable := fun h hlength => ⟨Text.paired_of_all h, hlength⟩
  have hsender : ∀ {t : Text}, t.Framable → ∀ s ∈ some t, Text.Framable s := by
    rintro t h _ ⟨⟩
    exact h
  have hnone : ∀ s ∈ (none : Option Text), Text.Framable s := by
    rintro _ ⟨⟩
  have hlong : (ConcatKdf.Round.mk 1 [7] "ab" [] [] 256).InRange := by constructor <;> decide
  have hshort : (ConcatKdf.Round.mk 1 [7] "a" [0x62] [] 256).InRange := by constructor <;> decide
  have hc : Text.Framable "c" := hframable (by decide) (by decide)
  refine ⟨fun h => ?_, fun h => ?_, ?_⟩
  · obtain ⟨-, -, halgorithm, -⟩ := (hrounds _ _ hlong hshort rfl).mp h
    revert halgorithm
    decide
  · have hab := hsender (hframable (t := "ab") (by decide) (by decide))
    have ha := hsender (hframable (t := "a") (by decide) (by decide))
    have hbc : Text.Framable "bc" := hframable (by decide) (by decide)
    obtain ⟨hrecipient, -⟩ := (hparties [7] (some "ab") (some "a") "c" "bc" hab ha hc hbc).2.mp h
    revert hrecipient
    decide
  · exact (hparties [7] none (some []) "c" "c" hnone (hsender Text.framable_nil) hc hc).2.mpr ⟨rfl, rfl⟩

end SealedEnvelope
