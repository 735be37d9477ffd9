import SealedEnvelope.Cipher.Aes
import SealedEnvelope.Error

/-!
# Key wrap

A key of at least two semiblocks of eight bytes goes six times through the cipher behind a check
value, which is known at the start and has to be found again at the end. A pass takes the semiblocks in
order and the inverse pass takes them in reverse, so one undoes the other block by block.
-/

namespace SealedEnvelope

namespace KeyWrap

/-- The check value at the start. -/
def checkValue : Bytes := List.replicate 8 0xA6

def tagged (check : Bytes) (step : Nat) : Bytes := Bytes.xor check (Bytes.ofNat 8 step)

/-- One pass over the semiblocks, with the steps counted from `step` on. -/
def wrapPass (c : BlockCipher) : (step : Nat) → (check : Bytes) → List Bytes → Bytes × List Bytes
  | _, check, [] => (check, [])
  | step, check, r :: rs =>
    let b := c.encrypt (check ++ r)
    let (check', rs') := wrapPass c (step + 1) (tagged (b.take 8) step) rs
    (check', b.drop 8 :: rs')

/-- Undoes `wrapPass`. -/
def unwrapPass (c : BlockCipher) : (step : Nat) → (check : Bytes) → List Bytes → Bytes × List Bytes
  | _, check, [] => (check, [])
  | step, check, r :: rs =>
    let (check', rs') := unwrapPass c (step + 1) check rs
    let b := c.decrypt (tagged check' step ++ r)
    (b.take 8, b.drop 8 :: rs')

/-- The passes that start at the given steps. -/
def wrapPasses (c : BlockCipher) (starts : List Nat) (s : Bytes × List Bytes) : Bytes × List Bytes :=
  starts.foldl (fun s start => wrapPass c start s.1 s.2) s

def unwrapPasses (c : BlockCipher) (starts : List Nat) (s : Bytes × List Bytes) :
    Bytes × List Bytes :=
  starts.reverse.foldl (fun s start => unwrapPass c start s.1 s.2) s

/-- The first step of each of the six passes over `n` semiblocks. -/
def starts (n : Nat) : List Nat := (List.range 6).map fun pass => n * pass + 1

def wrapWith (c : BlockCipher) (key : Bytes) : Bytes :=
  let rs := key.blocks 8
  let (check, rs') := wrapPasses c (starts rs.length) (checkValue, rs)
  check ++ rs'.flatten

/-- The wrapped key, or `none` if the check value does not come back. -/
def unwrapWith (c : BlockCipher) (wrapped : Bytes) : Option Bytes :=
  let rs := Bytes.blocks 8 (wrapped.drop 8)
  let (check, rs') := unwrapPasses c (starts rs.length) (wrapped.take 8, rs)
  if check = checkValue then some rs'.flatten else none

/-- `key` wrapped under `kek`, eight bytes longer. -/
def wrap (kek key : Bytes) : Except Error Bytes :=
  if kek.length ≠ 32 then .error (.kekLength kek.length)
  else if key.length < 16 ∨ key.length % 8 ≠ 0 then .error (.unwrappedLength key.length)
  else .ok (wrapWith (Aes.cipher kek) key)

def unwrap (kek wrapped : Bytes) : Except Error Bytes :=
  if kek.length ≠ 32 then .error (.kekLength kek.length)
  else if wrapped.length < 24 ∨ wrapped.length % 8 ≠ 0 then .error (.wrappedLength wrapped.length)
  else match unwrapWith (Aes.cipher kek) wrapped with
    | some key => .ok key
    | none => .error .wrapIntegrity

end KeyWrap
end SealedEnvelope
