import Mathlib.Data.LawfulXor.Basic

/-!
# Keyed permutations and cipher block chaining

A block cipher is a family of permutations of the block type, one for each key. Chaining is
defined over any block type with an exclusive or.
-/

namespace LeafReader

structure BlockCipher (K B : Type) where
  enc : K → B → B
  dec : K → B → B
  dec_enc : ∀ k x, dec k (enc k x) = x
  enc_dec : ∀ k x, enc k (dec k x) = x

attribute [simp] BlockCipher.dec_enc BlockCipher.enc_dec

namespace Cbc

variable {B : Type} [XorOp B]

/-- Chained encryption of the blocks `ps` from the initial block `iv`. -/
def encrypt (e : B → B) : B → List B → List B
  | _, [] => []
  | iv, p :: ps => e (p ^^^ iv) :: encrypt e (e (p ^^^ iv)) ps

/-- Chained decryption: each block is unmasked with the ciphertext block before it. -/
def decrypt (d : B → B) : B → List B → List B
  | _, [] => []
  | iv, c :: cs => (d c ^^^ iv) :: decrypt d c cs

@[simp] theorem length_encrypt (e : B → B) (iv : B) (ps : List B) :
    (encrypt e iv ps).length = ps.length := by
  induction ps generalizing iv with
  | nil => rfl
  | cons p ps ih => simp [encrypt, ih]

@[simp] theorem length_decrypt (d : B → B) (iv : B) (cs : List B) :
    (decrypt d iv cs).length = cs.length := by
  induction cs generalizing iv with
  | nil => rfl
  | cons c cs ih => simp [decrypt, ih]

theorem decrypt_encrypt [Zero B] [LawfulXor B] {e d : B → B} (h : ∀ x, d (e x) = x) (iv : B)
    (ps : List B) : decrypt d iv (encrypt e iv ps) = ps := by
  induction ps generalizing iv with
  | nil => rfl
  | cons p ps ih => rw [encrypt, decrypt, h, xor_cancel_right, ih]

end Cbc

end LeafReader
