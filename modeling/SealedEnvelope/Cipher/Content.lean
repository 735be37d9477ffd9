import SealedEnvelope.Cipher.Gcm
import SealedEnvelope.Entropy
import SealedEnvelope.Error

/-!
# Sealed content

Content is sealed under a content encryption key with AES-256 in Galois counter mode, the tag kept
apart. Opening gives one error for every cause.
-/

namespace SealedEnvelope

structure SealedContent where
  ciphertext : Bytes
  iv : Bytes
  tag : Bytes

namespace Content

def keyLength : Nat := 32

def ivLength : Nat := 12

def tagLength : Nat := 16

/-- A fresh content encryption key. -/
def freshKey (e : Entropy) : Bytes := e.first keyLength

/-- Content sealed with a fresh initialization vector. -/
def sealed (key plaintext aad : Bytes) (e : Entropy) : Except Error SealedContent :=
  if key.length ≠ keyLength then .error .cekLength
  else
    let iv := e.first ivLength
    let (ciphertext, tag) := Gcm.encrypt (Aes.cipher key) iv aad plaintext
    .ok ⟨ciphertext, iv, tag⟩

def opened (key : Bytes) (content : SealedContent) (aad : Bytes) : Except Error Bytes :=
  if key.length ≠ keyLength ∨ content.iv.length ≠ ivLength ∨ content.tag.length ≠ tagLength then
    .error .openFailed
  else match Gcm.decrypt? (Aes.cipher key) content.iv aad content.ciphertext content.tag with
    | some plaintext => .ok plaintext
    | none => .error .openFailed

end Content
end SealedEnvelope
