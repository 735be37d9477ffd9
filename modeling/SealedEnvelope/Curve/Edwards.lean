import SealedEnvelope.Curve.Residue
import SealedEnvelope.Hash.Sha512

/-!
# Ed25519

The twisted Edwards curve `-x ^ 2 + y ^ 2 = 1 + d x ^ 2 y ^ 2` over the field with `2 ^ 255 - 19`
elements, in extended coordinates, where one formula adds any two points.

Points are decoded in two ways. A public key has to be in canonical form. Verification is lenient: it
takes every `y` below `2 ^ 255` and a sign for `x = 0`, hashes both points in canonical form, and
multiplies its equation by the cofactor, so that every verifier comes to the same answer.
-/

namespace SealedEnvelope

namespace Edwards

open Residue

/-- The weight of the bit that holds a sign. -/
def signWeight : Nat := Nat.pow 2 255

def p : Nat := signWeight - 19

/-- The order of the base point. -/
def order : Nat := Nat.pow 2 252 + 27742317777372353535851937790883648493

def d : Nat := 0x52036cee2b6ffe738cc740797779e89800700a4d4141d8ab75eb4dca135978a3

def rootOfMinusOne : Nat := 0x2b8324804fc1df0b2b4d00993dfbd7a72f431806ad2fe478c4ee1b274a0ea0b0

/-- The point `(x / z, y / z)`, with `t = x y / z`. -/
structure Point where
  x : Nat
  y : Nat
  z : Nat
  t : Nat

def Point.ofAffine (x y : Nat) : Point := ⟨x, y, 1, x * y % p⟩

def zero : Point := ⟨0, 1, 1, 0⟩

def base : Point :=
  Point.ofAffine 0x216936d3cd6e53fec0a4e231fdd6dc5c692cc7609525a7b2c9562d608f25d51a
    0x6666666666666666666666666666666666666666666666666666666666666658

def add (q r : Point) : Point :=
  let a := sub p q.y q.x * sub p r.y r.x % p
  let b := (q.y + q.x) * (r.y + r.x) % p
  let c := 2 * d * (q.t * r.t % p) % p
  let e := 2 * q.z * r.z % p
  let f := sub p b a
  let g := sub p e c
  let h := e + c
  let i := b + a
  ⟨f * g % p, h * i % p, g * h % p, f * i % p⟩

def neg (q : Point) : Point := ⟨sub p 0 q.x, q.y, q.z, sub p 0 q.t⟩

def mulOnto (k : Nat) (q : Point) : (bits : Nat) → (done : Point) → Point
  | 0, done => done
  | bits + 1, done =>
    let twice := add done done
    mulOnto k q bits (if k.testBit bits then add twice q else twice)

/-- `k` times a point, for `k` below `2 ^ 256`. -/
def mul (k : Nat) (q : Point) : Point := mulOnto k q 256 zero

def isZero (q : Point) : Bool := q.x % p == 0 && q.y % p == q.z % p

/-- `y` with the parity of `x` in the top bit, in canonical form. -/
def encode (q : Point) : Bytes :=
  let i := inverse p q.z
  let x := q.x * i % p
  let y := q.y * i % p
  Bytes.ofNatLE 32 (y + x % 2 * signWeight)

/-- A root of `u / v`, if there is one. -/
def ratioRoot? (u v : Nat) : Option Nat :=
  let v3 := v * v % p * v % p
  let v7 := v3 * v3 % p * v % p
  let x := u * v3 % p * pow p (u * v7 % p) ((p - 5) / 8) % p
  let vxx := v * (x * x % p) % p
  if vxx = u then some x
  else if vxx = sub p 0 u then some (x * rootOfMinusOne % p)
  else none

/-- The point with the given `y` and parity of `x`. -/
def lift? (y parity : Nat) : Option Point :=
  let yy := y * y % p
  match ratioRoot? (sub p yy 1) ((d * yy + 1) % p) with
  | none => none
  | some root =>
    let x := if root % 2 = parity then root else sub p 0 root
    some (.ofAffine x (y % p))

/-- Reads a point in canonical form, or leniently. -/
def decode? (canonical : Bool) (b : Bytes) : Option Point :=
  if b.length ≠ 32 then none
  else
    let n := b.toNatLE
    let y := n % signWeight
    let parity := n / signWeight
    if canonical ∧ p ≤ y then none
    else match lift? y parity with
      | none => none
      | some q => if canonical ∧ q.x = 0 ∧ parity = 1 then none else some q

/-- The secret scalar and the nonce key of a private key. -/
def expand (privateKey : Bytes) : Nat × Bytes :=
  let h := Sha512.hash privateKey
  let n := Bytes.toNatLE (h.take 32)
  let top := Nat.pow 2 254
  let clamped := n % top / 8 * 8 + top
  (clamped % order, h.drop 32)

def publicKey? (privateKey : Bytes) : Option Bytes :=
  if privateKey.length ≠ 32 then none
  else some (encode (mul (expand privateKey).1 base))

def hashScalar (b : Bytes) : Nat := (Sha512.hash b).toNatLE % order

def sign? (privateKey message : Bytes) : Option Bytes :=
  if privateKey.length ≠ 32 then none
  else
    let (a, nonceKey) := expand privateKey
    let publicKey := encode (mul a base)
    let r := hashScalar (nonceKey ++ message)
    let commitment := encode (mul r base)
    let k := hashScalar (commitment ++ publicKey ++ message)
    some (commitment ++ Bytes.ofNatLE 32 ((r + k * a) % order))

def verify (publicKey signature message : Bytes) : Bool :=
  if signature.length ≠ 64 then false
  else
    let s := Bytes.toNatLE (signature.drop 32)
    match decode? false publicKey, decode? false (signature.take 32) with
    | some a, some r =>
      if order ≤ s then false
      else
        let k := hashScalar (encode r ++ encode a ++ message)
        let difference := add (add r (mul k a)) (neg (mul s base))
        isZero (mul 8 difference)
    | _, _ => false

end Edwards
end SealedEnvelope
