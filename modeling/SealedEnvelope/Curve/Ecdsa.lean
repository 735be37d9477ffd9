import SealedEnvelope.Curve.Weierstrass
import SealedEnvelope.Hash.Hmac

/-!
# ECDSA

Signatures over SHA-256 digests, as both numbers in 32 bytes each. The nonce comes from the key and
the digest through a chain of keyed hashes, so signing needs no randomness. A curve may ask for the
smaller of the two signatures `s` and `-s`, and then refuses the other one.
-/

namespace SealedEnvelope

namespace Ecdsa

/-- The chain that nonces are drawn from. -/
structure Chain where
  key : Bytes
  value : Bytes

def Chain.turn (c : Chain) (mark : UInt8) (seed : Bytes) : Chain :=
  let key := Hmac.sha256 c.key (c.value ++ mark :: seed)
  ⟨key, Hmac.sha256 key c.value⟩

def Chain.start (seed : Bytes) : Chain :=
  ((Chain.mk (List.replicate 32 0) (List.replicate 32 1)).turn 0 seed).turn 1 seed

/-- The first candidate that `accept` takes, out of `tries`. -/
def Chain.draw {α : Type} (accept : Nat → Option α) : (tries : Nat) → Chain → Option α
  | 0, _ => none
  | tries + 1, c =>
    let value := Hmac.sha256 c.key c.value
    match accept value.toNat with
    | some result => some result
    | none => draw accept tries (Chain.turn ⟨c.key, value⟩ 0 [])

def digest (c : Weierstrass) (message : Bytes) : Nat := (Sha256.hash message).toNat % c.order

/-- The signature with nonce `k`, unless the nonce is unusable. -/
def signWith? (c : Weierstrass) (lowS : Bool) (d h k : Nat) : Option Bytes :=
  if 0 < k ∧ k < c.order then
    match c.affine? (c.mul k c.generator.jacobian) with
    | none => none
    | some q =>
      let r := q.x % c.order
      let s := Residue.inverse c.order k * ((h + r * d) % c.order) % c.order
      if r = 0 ∨ s = 0 then none
      else
        let s := if lowS ∧ c.order / 2 < s then c.order - s else s
        some (Bytes.ofNat 32 r ++ Bytes.ofNat 32 s)
  else none

def sign? (c : Weierstrass) (lowS : Bool) (privateKey message : Bytes) : Option Bytes :=
  match c.scalar? privateKey with
  | none => none
  | some d =>
    let h := digest c message
    (Chain.start (Bytes.ofNat 32 d ++ Bytes.ofNat 32 h)).draw (signWith? c lowS d h) 1000

def verify (c : Weierstrass) (lowS : Bool) (publicKey signature message : Bytes) : Bool :=
  let r := Bytes.toNat (signature.take 32)
  let s := Bytes.toNat (signature.drop 32)
  if signature.length ≠ 64 ∨ r = 0 ∨ c.order ≤ r ∨ s = 0 ∨ c.order ≤ s then false
  else match c.decode? publicKey with
    | none => false
    | some q =>
      if lowS ∧ c.order / 2 < s then false
      else
        let i := Residue.inverse c.order s
        let u1 := digest c message * i % c.order
        let u2 := r * i % c.order
        match c.affine? (c.add (c.mul u1 c.generator.jacobian) (c.mul u2 q.jacobian)) with
        | none => false
        | some v => v.x % c.order == r

end Ecdsa
end SealedEnvelope
