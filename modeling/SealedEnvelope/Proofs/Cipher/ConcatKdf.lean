import SealedEnvelope.Cipher.ConcatKdf
import SealedEnvelope.Proofs.Bytes

/-!
# What a derivation hashes

Key material is made of the digests of rounds. The counter in front of a round and the number of bits at
its end have a fixed width, the identifiers in between stand behind their lengths, and the secret, which
does not, has one length for all derivations on a curve. So the bytes of a round determine everything
that went into it, as long as no length, counter or number is too large for its field.
-/

namespace SealedEnvelope

namespace ConcatKdf

/-- What goes into one round of a derivation. -/
structure Round where
  counter : Nat
  secret : Bytes
  algorithm : Text
  apu : Bytes
  apv : Bytes
  /-- The length that is asked for. -/
  bits : Nat

namespace Round

def input (r : Round) : Bytes :=
  roundInput r.counter r.secret (context r.algorithm r.apu r.apv r.bits)

/-- Every number and every length fits into the 32 bits that it has. -/
structure InRange (r : Round) : Prop where
  counter : r.counter < 2 ^ 32
  algorithm : r.algorithm.utf8.length < 2 ^ 32
  apu : r.apu.length < 2 ^ 32
  apv : r.apv.length < 2 ^ 32
  bits : r.bits < 2 ^ 32

end Round

theorem context_inj {algorithm algorithm' : Text} {apu apu' apv apv' : Bytes} {bits bits' : Nat}
    (halgorithm : algorithm.utf8.length < 2 ^ 32) (halgorithm' : algorithm'.utf8.length < 2 ^ 32)
    (hapu : apu.length < 2 ^ 32) (hapu' : apu'.length < 2 ^ 32) (hapv : apv.length < 2 ^ 32)
    (hapv' : apv'.length < 2 ^ 32) (hbits : bits < 2 ^ 32) (hbits' : bits' < 2 ^ 32) :
    context algorithm apu apv bits = context algorithm' apu' apv' bits' ↔
      algorithm.utf8 = algorithm'.utf8 ∧ apu = apu' ∧ apv = apv' ∧ bits = bits' := by
  unfold context
  simp only [List.append_assoc]
  rw [Bytes.framed_append_inj halgorithm halgorithm', Bytes.framed_append_inj hapu hapu',
    Bytes.framed_append_inj hapv hapv', Bytes.word32_inj hbits hbits']

/-- The secret has no length in front of it, so only secrets of one length are told apart. -/
theorem Round.input_inj {a b : Round} (ha : a.InRange) (hb : b.InRange)
    (hsecret : a.secret.length = b.secret.length) :
    a.input = b.input ↔ a.counter = b.counter ∧ a.secret = b.secret ∧
      a.algorithm.utf8 = b.algorithm.utf8 ∧ a.apu = b.apu ∧ a.apv = b.apv ∧ a.bits = b.bits := by
  rw [← context_inj ha.algorithm hb.algorithm ha.apu hb.apu ha.apv hb.apv ha.bits hb.bits,
    ← Bytes.word32_inj ha.counter hb.counter]
  unfold input roundInput
  constructor
  · intro h
    obtain ⟨hfront, hcontext⟩ := List.append_inj h (by simp [hsecret])
    obtain ⟨hcounter, hsecret⟩ := List.append_inj hfront (by simp)
    exact ⟨hcounter, hsecret, hcontext⟩
  · rintro ⟨hcounter, hsecret, hcontext⟩
    rw [hcounter, hsecret, hcontext]

/-! ### The rounds of a derivation -/

def rounds (secret apu apv : Bytes) (bytes : Nat) (algorithm : Text) : List Round :=
  (List.range (roundCount bytes)).map fun i => ⟨i + 1, secret, algorithm, apu, apv, bytes * 8⟩

theorem material_eq (secret apu apv : Bytes) (bytes : Nat) (algorithm : Text) :
    material secret apu apv bytes algorithm =
      ((rounds secret apu apv bytes algorithm).flatMap fun r => Sha256.hash r.input).take bytes := by
  unfold material digests rounds
  rw [List.flatMap_map]
  rfl

theorem byteCount?_eq_some {bits : Double} {bytes : Nat} :
    byteCount? bits = some bytes ↔ 0 < bytes ∧ bits.toInt? = some ((bytes * 8 : Nat) : Int) := by
  unfold byteCount?
  cases bits.toInt? with
  | none => simp
  | some n =>
    simp only [Option.ite_none_right_eq_some, Option.some.injEq]
    omega

theorem derive_eq_material (secret apu apv : Bytes) {bits : Double} {bytes : Nat} (algorithm : Text)
    (hbytes : byteCount? bits = some bytes) (hcount : roundCount bytes ≤ maxRounds) :
    derive secret apu apv bits algorithm = .ok (material secret apu apv bytes algorithm) := by
  simp only [derive, hbytes, if_neg (Nat.not_lt.mpr hcount)]

theorem derive_eq_error (secret apu apv : Bytes) {bits : Double} (algorithm : Text)
    (hbytes : byteCount? bits = none) :
    derive secret apu apv bits algorithm = .error (.keyLengthBits bits) := by
  simp only [derive, hbytes]

theorem derive_eq_ok {secret apu apv key : Bytes} {bits : Double} {algorithm : Text} :
    derive secret apu apv bits algorithm = .ok key ↔
      ∃ bytes, 0 < bytes ∧ bits.toInt? = some ((bytes * 8 : Nat) : Int) ∧
        roundCount bytes ≤ maxRounds ∧
        key = ((rounds secret apu apv bytes algorithm).flatMap fun r => Sha256.hash r.input).take
          bytes := by
  constructor
  · intro h
    unfold derive at h
    split at h
    · cases h
    · rename_i bytes hbytes
      split at h
      · cases h
      · rename_i hcount
        obtain ⟨hpositive, hbits⟩ := byteCount?_eq_some.mp hbytes
        refine ⟨bytes, hpositive, hbits, Nat.le_of_not_lt hcount, ?_⟩
        rw [← material_eq, Except.ok.inj h]
  · rintro ⟨bytes, hpositive, hbits, hcount, rfl⟩
    rw [derive_eq_material secret apu apv algorithm (byteCount?_eq_some.mpr ⟨hpositive, hbits⟩) hcount,
      material_eq]

/-- The counters are never too large, because a derivation that needs more rounds is refused. -/
theorem inRange_of_mem_rounds {secret apu apv : Bytes} {bytes : Nat} {algorithm : Text}
    (hcount : roundCount bytes ≤ maxRounds) (halgorithm : algorithm.utf8.length < 2 ^ 32)
    (hapu : apu.length < 2 ^ 32) (hapv : apv.length < 2 ^ 32) (hbits : bytes * 8 < 2 ^ 32) :
    ∀ r ∈ rounds secret apu apv bytes algorithm, r.InRange := by
  intro r hr
  obtain ⟨i, hi, rfl⟩ := List.mem_map.mp hr
  have hcounter : i + 1 < 2 ^ 32 := by
    have hlt := List.mem_range.mp hi
    unfold maxRounds at hcount
    omega
  exact ⟨hcounter, halgorithm, hapu, hapv, hbits⟩

end ConcatKdf
end SealedEnvelope
