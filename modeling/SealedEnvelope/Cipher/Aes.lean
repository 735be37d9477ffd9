import SealedEnvelope.Bytes

/-!
# The block cipher AES-256

A state is its sixteen bytes, column by column. A round substitutes bytes, rotates the rows, mixes the
columns over the field with 256 elements and adds a round key; every step has its own inverse, and
decryption takes them in reverse order.
-/

namespace SealedEnvelope

/-- A permutation of blocks and its inverse under one key. -/
structure BlockCipher where
  encrypt : Bytes → Bytes
  decrypt : Bytes → Bytes

namespace Aes

/-- The inverse in the field followed by an affine map. -/
def substitution : Array UInt8 :=
  #[0x63, 0x7c, 0x77, 0x7b, 0xf2, 0x6b, 0x6f, 0xc5, 0x30, 0x01, 0x67, 0x2b, 0xfe, 0xd7, 0xab, 0x76,
    0xca, 0x82, 0xc9, 0x7d, 0xfa, 0x59, 0x47, 0xf0, 0xad, 0xd4, 0xa2, 0xaf, 0x9c, 0xa4, 0x72, 0xc0,
    0xb7, 0xfd, 0x93, 0x26, 0x36, 0x3f, 0xf7, 0xcc, 0x34, 0xa5, 0xe5, 0xf1, 0x71, 0xd8, 0x31, 0x15,
    0x04, 0xc7, 0x23, 0xc3, 0x18, 0x96, 0x05, 0x9a, 0x07, 0x12, 0x80, 0xe2, 0xeb, 0x27, 0xb2, 0x75,
    0x09, 0x83, 0x2c, 0x1a, 0x1b, 0x6e, 0x5a, 0xa0, 0x52, 0x3b, 0xd6, 0xb3, 0x29, 0xe3, 0x2f, 0x84,
    0x53, 0xd1, 0x00, 0xed, 0x20, 0xfc, 0xb1, 0x5b, 0x6a, 0xcb, 0xbe, 0x39, 0x4a, 0x4c, 0x58, 0xcf,
    0xd0, 0xef, 0xaa, 0xfb, 0x43, 0x4d, 0x33, 0x85, 0x45, 0xf9, 0x02, 0x7f, 0x50, 0x3c, 0x9f, 0xa8,
    0x51, 0xa3, 0x40, 0x8f, 0x92, 0x9d, 0x38, 0xf5, 0xbc, 0xb6, 0xda, 0x21, 0x10, 0xff, 0xf3, 0xd2,
    0xcd, 0x0c, 0x13, 0xec, 0x5f, 0x97, 0x44, 0x17, 0xc4, 0xa7, 0x7e, 0x3d, 0x64, 0x5d, 0x19, 0x73,
    0x60, 0x81, 0x4f, 0xdc, 0x22, 0x2a, 0x90, 0x88, 0x46, 0xee, 0xb8, 0x14, 0xde, 0x5e, 0x0b, 0xdb,
    0xe0, 0x32, 0x3a, 0x0a, 0x49, 0x06, 0x24, 0x5c, 0xc2, 0xd3, 0xac, 0x62, 0x91, 0x95, 0xe4, 0x79,
    0xe7, 0xc8, 0x37, 0x6d, 0x8d, 0xd5, 0x4e, 0xa9, 0x6c, 0x56, 0xf4, 0xea, 0x65, 0x7a, 0xae, 0x08,
    0xba, 0x78, 0x25, 0x2e, 0x1c, 0xa6, 0xb4, 0xc6, 0xe8, 0xdd, 0x74, 0x1f, 0x4b, 0xbd, 0x8b, 0x8a,
    0x70, 0x3e, 0xb5, 0x66, 0x48, 0x03, 0xf6, 0x0e, 0x61, 0x35, 0x57, 0xb9, 0x86, 0xc1, 0x1d, 0x9e,
    0xe1, 0xf8, 0x98, 0x11, 0x69, 0xd9, 0x8e, 0x94, 0x9b, 0x1e, 0x87, 0xe9, 0xce, 0x55, 0x28, 0xdf,
    0x8c, 0xa1, 0x89, 0x0d, 0xbf, 0xe6, 0x42, 0x68, 0x41, 0x99, 0x2d, 0x0f, 0xb0, 0x54, 0xbb, 0x16]

def inverseSubstitution : Array UInt8 :=
  #[0x52, 0x09, 0x6a, 0xd5, 0x30, 0x36, 0xa5, 0x38, 0xbf, 0x40, 0xa3, 0x9e, 0x81, 0xf3, 0xd7, 0xfb,
    0x7c, 0xe3, 0x39, 0x82, 0x9b, 0x2f, 0xff, 0x87, 0x34, 0x8e, 0x43, 0x44, 0xc4, 0xde, 0xe9, 0xcb,
    0x54, 0x7b, 0x94, 0x32, 0xa6, 0xc2, 0x23, 0x3d, 0xee, 0x4c, 0x95, 0x0b, 0x42, 0xfa, 0xc3, 0x4e,
    0x08, 0x2e, 0xa1, 0x66, 0x28, 0xd9, 0x24, 0xb2, 0x76, 0x5b, 0xa2, 0x49, 0x6d, 0x8b, 0xd1, 0x25,
    0x72, 0xf8, 0xf6, 0x64, 0x86, 0x68, 0x98, 0x16, 0xd4, 0xa4, 0x5c, 0xcc, 0x5d, 0x65, 0xb6, 0x92,
    0x6c, 0x70, 0x48, 0x50, 0xfd, 0xed, 0xb9, 0xda, 0x5e, 0x15, 0x46, 0x57, 0xa7, 0x8d, 0x9d, 0x84,
    0x90, 0xd8, 0xab, 0x00, 0x8c, 0xbc, 0xd3, 0x0a, 0xf7, 0xe4, 0x58, 0x05, 0xb8, 0xb3, 0x45, 0x06,
    0xd0, 0x2c, 0x1e, 0x8f, 0xca, 0x3f, 0x0f, 0x02, 0xc1, 0xaf, 0xbd, 0x03, 0x01, 0x13, 0x8a, 0x6b,
    0x3a, 0x91, 0x11, 0x41, 0x4f, 0x67, 0xdc, 0xea, 0x97, 0xf2, 0xcf, 0xce, 0xf0, 0xb4, 0xe6, 0x73,
    0x96, 0xac, 0x74, 0x22, 0xe7, 0xad, 0x35, 0x85, 0xe2, 0xf9, 0x37, 0xe8, 0x1c, 0x75, 0xdf, 0x6e,
    0x47, 0xf1, 0x1a, 0x71, 0x1d, 0x29, 0xc5, 0x89, 0x6f, 0xb7, 0x62, 0x0e, 0xaa, 0x18, 0xbe, 0x1b,
    0xfc, 0x56, 0x3e, 0x4b, 0xc6, 0xd2, 0x79, 0x20, 0x9a, 0xdb, 0xc0, 0xfe, 0x78, 0xcd, 0x5a, 0xf4,
    0x1f, 0xdd, 0xa8, 0x33, 0x88, 0x07, 0xc7, 0x31, 0xb1, 0x12, 0x10, 0x59, 0x27, 0x80, 0xec, 0x5f,
    0x60, 0x51, 0x7f, 0xa9, 0x19, 0xb5, 0x4a, 0x0d, 0x2d, 0xe5, 0x7a, 0x9f, 0x93, 0xc9, 0x9c, 0xef,
    0xa0, 0xe0, 0x3b, 0x4d, 0xae, 0x2a, 0xf5, 0xb0, 0xc8, 0xeb, 0xbb, 0x3c, 0x83, 0x53, 0x99, 0x61,
    0x17, 0x2b, 0x04, 0x7e, 0xba, 0x77, 0xd6, 0x26, 0xe1, 0x69, 0x14, 0x63, 0x55, 0x21, 0x0c, 0x7d]

def substitute (b : UInt8) : UInt8 := substitution.getD b.toNat 0

def unsubstitute (b : UInt8) : UInt8 := inverseSubstitution.getD b.toNat 0

/-- Multiplication by `x` modulo `x ^ 8 + x ^ 4 + x ^ 3 + x + 1`. -/
def double (b : UInt8) : UInt8 := (b <<< 1) ^^^ (if b &&& 0x80 = 0 then 0 else 0x1b)

/-- Multiplication by the polynomial whose coefficients are the low four bits of `k`. -/
def times (k : UInt8) (b : UInt8) : UInt8 :=
  let b2 := double b
  let b4 := double b2
  let b8 := double b4
  (if k &&& 1 = 0 then 0 else b) ^^^ (if k &&& 2 = 0 then 0 else b2)
    ^^^ (if k &&& 4 = 0 then 0 else b4) ^^^ (if k &&& 8 = 0 then 0 else b8)

/-- A column times the circulant matrix with first row `p q r s`. -/
def mixColumn (p q r s : UInt8) (a b c d : UInt8) : Bytes :=
  [times p a ^^^ times q b ^^^ times r c ^^^ times s d,
    times s a ^^^ times p b ^^^ times q c ^^^ times r d,
    times r a ^^^ times s b ^^^ times p c ^^^ times q d,
    times q a ^^^ times r b ^^^ times s c ^^^ times p d]

def mapColumns (f : UInt8 → UInt8 → UInt8 → UInt8 → Bytes) : Bytes → Bytes
  | a :: b :: c :: d :: rest => f a b c d ++ mapColumns f rest
  | rest => rest

def mixColumns : Bytes → Bytes := mapColumns (mixColumn 2 3 1 1)

def unmixColumns : Bytes → Bytes := mapColumns (mixColumn 14 11 13 9)

/-- The bytes at the given places. -/
def pick (places : List Nat) (s : Bytes) : Bytes := places.map fun i => s.getD i 0

/-- Row `i` goes `i` columns to the left. -/
def shiftRows : Bytes → Bytes := pick [0, 5, 10, 15, 4, 9, 14, 3, 8, 13, 2, 7, 12, 1, 6, 11]

def unshiftRows : Bytes → Bytes := pick [0, 13, 10, 7, 4, 1, 14, 11, 8, 5, 2, 15, 12, 9, 6, 3]

/-- The constants that set the rounds of the key schedule apart. -/
def roundConstant (i : Nat) : UInt8 :=
  [0x01, 0x02, 0x04, 0x08, 0x10, 0x20, 0x40].getD (i - 1) 0

/-- `count` more words of the key schedule, last word first. Words have four bytes. -/
def schedule : (count : Nat) → (words : List Bytes) → List Bytes
  | 0, words => words
  | count + 1, words =>
    let i := words.length
    let last := words.getD 0 []
    let mixed :=
      if i % 8 = 0 then
        Bytes.xor ((last.drop 1 ++ last.take 1).map substitute) [roundConstant (i / 8), 0, 0, 0]
      else if i % 8 = 4 then last.map substitute
      else last
    schedule count (Bytes.xor (words.getD 7 []) mixed :: words)

/-- The fifteen round keys of a key of 32 bytes. -/
def roundKeys (key : Bytes) : List Bytes :=
  Bytes.blocks 16 (schedule 52 (key.blocks 4).reverse).reverse.flatten

def encryptRound (s roundKey : Bytes) : Bytes :=
  Bytes.xor (mixColumns (shiftRows (s.map substitute))) roundKey

def decryptRound (s roundKey : Bytes) : Bytes :=
  (unshiftRows (unmixColumns (Bytes.xor s roundKey))).map unsubstitute

/-- Round keys in the order of use: one before the rounds, one for each full round, one for the last
round, which mixes no columns. -/
def encryptWith (first : Bytes) (middle : List Bytes) (last block : Bytes) : Bytes :=
  let s := middle.foldl encryptRound (Bytes.xor block first)
  Bytes.xor (shiftRows (s.map substitute)) last

def decryptWith (first : Bytes) (middle : List Bytes) (last block : Bytes) : Bytes :=
  let s := (unshiftRows (Bytes.xor block last)).map unsubstitute
  Bytes.xor (middle.reverse.foldl decryptRound s) first

/-- The cipher under a key of 32 bytes, on blocks of 16 bytes. -/
def cipher (key : Bytes) : BlockCipher :=
  let keys := roundKeys key
  let first := keys.getD 0 []
  let middle := (keys.drop 1).take 13
  let last := keys.getD 14 []
  { encrypt := encryptWith first middle last
    decrypt := decryptWith first middle last }

end Aes
end SealedEnvelope
