import Mathlib.Logic.Equiv.Defs
import Mathlib.Tactic.IntervalCases
import LeafReader.DesfireCrypto

/-!
# AES-128

The block cipher behind `mbedtls_aes_crypt_cbc`, as a composition of permutations of the state.
Bytes stand in column order, so byte `4 c + r` is row `r` of column `c`.
-/

namespace LeafReader.Aes128

def sbox : List UInt8 :=
  [0x63, 0x7c, 0x77, 0x7b, 0xf2, 0x6b, 0x6f, 0xc5, 0x30, 0x01, 0x67, 0x2b, 0xfe, 0xd7, 0xab, 0x76,
   0xca, 0x82, 0xc9, 0x7d, 0xfa, 0x59, 0x47, 0xf0, 0xad, 0xd4, 0xa2, 0xaf, 0x9c, 0xa4, 0x72, 0xc0,
   0xb7, 0xfd, 0x93, 0x26, 0x36, 0x3f, 0xf7, 0xcc, 0x34, 0xa5, 0xe5, 0xf1, 0x71, 0xd8, 0x31, 0x15,
   0x04, 0xc7, 0x23, 0xc3, 0x18, 0x96, 0x05, 0x9a, 0x07, 0x12, 0x80, 0xe2, 0xeb, 0x27, 0xb2, 0x75,
   0x09, 0x83, 0x2c, 0x1a, 0x1b, 0x6e, 0x5a, 0xa0, 0x52, 0x3b, 0xd6, 0xb3, 0x29, 0xe3, 0x2f, 0x84,
   0x53, 0xd1, 0x00, 0xed, 0x20, 0xfc, 0xb1, 0x5b, 0x6a, 0xcb, 0xbe, 0x39, 0x4a, 0x4c, 0x58, 0xcf,
   0xd0, 0xef, 0xaa, 0xfb, 0x43, 0x4d, 0x33, 0x85, 0x45, 0xf9, 0x02, 0x7f, 0x50, 0x3c, 0x9f, 0xa8,
   0x51, 0xa3, 0x40, 0x8f, 0x92, 0x9d, 0x38, 0xf5, 0xbc, 0xb6, 0xda, 0x21, 0x10, 0xff, 0xf3, 0xd2,
   0xcd, 0x0c, 0x13, 0xec, 0x5f, 0x97, 0x44, 0x17, 0xc4, 0xa7, 0x7e, 0x3d, 0x64, 0x5d, 0x19, 0x73,
   0x60, 0x81, 0x4f, 0xdc, 0x22, 0x2a, 0x90, 0x88, 0x46, 0xee, 0xb8, 0x14, 0xde, 0x5e, 0x0b, 0xdb,
   0xe0, 0x32, 0x3a, 0x0a, 0x49, 0x06, 0x24, 0x5c, 0xc2, 0xd3, 0xac, 0x62, 0x91, 0x95, 0xe4, 0x79,
   0xe7, 0xc8, 0x37, 0x6d, 0x8d, 0xd5, 0x4e, 0xa9, 0x6c, 0x56, 0xf4, 0xea, 0x65, 0x7a, 0xae, 0x08,
   0xba, 0x78, 0x25, 0x2e, 0x1c, 0xa6, 0xb4, 0xc6, 0xe8, 0xdd, 0x74, 0x1f, 0x4b, 0xbd, 0x8b, 0x8a,
   0x70, 0x3e, 0xb5, 0x66, 0x48, 0x03, 0xf6, 0x0e, 0x61, 0x35, 0x57, 0xb9, 0x86, 0xc1, 0x1d, 0x9e,
   0xe1, 0xf8, 0x98, 0x11, 0x69, 0xd9, 0x8e, 0x94, 0x9b, 0x1e, 0x87, 0xe9, 0xce, 0x55, 0x28, 0xdf,
   0x8c, 0xa1, 0x89, 0x0d, 0xbf, 0xe6, 0x42, 0x68, 0x41, 0x99, 0x2d, 0x0f, 0xb0, 0x54, 0xbb, 0x16]

def invSbox : List UInt8 :=
  [0x52, 0x09, 0x6a, 0xd5, 0x30, 0x36, 0xa5, 0x38, 0xbf, 0x40, 0xa3, 0x9e, 0x81, 0xf3, 0xd7, 0xfb,
   0x7c, 0xe3, 0x39, 0x82, 0x9b, 0x2f, 0xff, 0x87, 0x34, 0x8e, 0x43, 0x44, 0xc4, 0xde, 0xe9, 0xcb,
   0x54, 0x7b, 0x94, 0x32, 0xa6, 0xc2, 0x23, 0x3d, 0xee, 0x4c, 0x95, 0x0b, 0x42, 0xfa, 0xc3, 0x4e,
   0x08, 0x2e, 0xa1, 0x66, 0x28, 0xd9, 0x24, 0xb2, 0x76, 0x5b, 0xa2, 0x49, 0x6d, 0x8b, 0xd1, 0x25,
   0x72, 0xf8, 0xf6, 0x64, 0x86, 0x68, 0x98, 0x16, 0xd4, 0xa4, 0x5c, 0xcc, 0x5d, 0x65, 0xb6, 0x92,
   0x6c, 0x70, 0x48, 0x50, 0xfd, 0xed, 0xb9, 0xda, 0x5e, 0x15, 0x46, 0x57, 0xa7, 0x8d, 0x9d, 0x84,
   0x90, 0xd8, 0xab, 0x00, 0x8c, 0xbc, 0xd3, 0x0a, 0xf7, 0xe4, 0x58, 0x05, 0xb8, 0xb3, 0x45, 0x06,
   0xd0, 0x2c, 0x1e, 0x8f, 0xca, 0x3f, 0x0f, 0x02, 0xc1, 0xaf, 0xbd, 0x03, 0x01, 0x13, 0x8a, 0x6b,
   0x3a, 0x91, 0x11, 0x41, 0x4f, 0x67, 0xdc, 0xea, 0x97, 0xf2, 0xcf, 0xce, 0xf0, 0xb4, 0xe6, 0x73,
   0x96, 0xac, 0x74, 0x22, 0xe7, 0xad, 0x35, 0x85, 0xe2, 0xf9, 0x37, 0xe8, 0x1c, 0x75, 0xdf, 0x6e,
   0x47, 0xf1, 0x1a, 0x71, 0x1d, 0x29, 0xc5, 0x89, 0x6f, 0xb7, 0x62, 0x0e, 0xaa, 0x18, 0xbe, 0x1b,
   0xfc, 0x56, 0x3e, 0x4b, 0xc6, 0xd2, 0x79, 0x20, 0x9a, 0xdb, 0xc0, 0xfe, 0x78, 0xcd, 0x5a, 0xf4,
   0x1f, 0xdd, 0xa8, 0x33, 0x88, 0x07, 0xc7, 0x31, 0xb1, 0x12, 0x10, 0x59, 0x27, 0x80, 0xec, 0x5f,
   0x60, 0x51, 0x7f, 0xa9, 0x19, 0xb5, 0x4a, 0x0d, 0x2d, 0xe5, 0x7a, 0x9f, 0x93, 0xc9, 0x9c, 0xef,
   0xa0, 0xe0, 0x3b, 0x4d, 0xae, 0x2a, 0xf5, 0xb0, 0xc8, 0xeb, 0xbb, 0x3c, 0x83, 0x53, 0x99, 0x61,
   0x17, 0x2b, 0x04, 0x7e, 0xba, 0x77, 0xd6, 0x26, 0xe1, 0x69, 0x14, 0x63, 0x55, 0x21, 0x0c, 0x7d]

def subByte (b : UInt8) : UInt8 := sbox.getD b.toNat 0

def invSubByte (b : UInt8) : UInt8 := invSbox.getD b.toNat 0

theorem invSubByte_subByte (b : UInt8) : invSubByte (subByte b) = b := by
  have h : ∀ i : Fin 256, invSubByte (subByte (UInt8.ofFin i)) = UInt8.ofFin i := by decide +kernel
  exact h b.toFin

theorem subByte_invSubByte (b : UInt8) : subByte (invSubByte b) = b := by
  have h : ∀ i : Fin 256, subByte (invSubByte (UInt8.ofFin i)) = UInt8.ofFin i := by decide +kernel
  exact h b.toFin

def subBytes : Equiv.Perm Block where
  toFun s := Vector.ofFn fun i => subByte s[i]
  invFun s := Vector.ofFn fun i => invSubByte s[i]
  left_inv s := by ext i hi; simp [invSubByte_subByte]
  right_inv s := by ext i hi; simp [subByte_invSubByte]

/-- Row `r` moves `r` columns to the left. -/
def shiftRows : Equiv.Perm Block where
  toFun s := Vector.ofFn fun i => s[(i.val * 5) % 16]
  invFun s := Vector.ofFn fun i => s[(i.val * 13) % 16]
  left_inv s := Vector.ext fun i hi => by
    simp only [Vector.getElem_ofFn]
    congr 1
    omega
  right_inv s := Vector.ext fun i hi => by
    simp only [Vector.getElem_ofFn]
    congr 1
    omega

/-! ### Columns -/

/-- Multiplication by `x` in the field of 256 elements. -/
def xtime (b : UInt8) : UInt8 := (b <<< 1) ^^^ (if b &&& 0x80 ≠ 0 then 0x1b else 0)

theorem and_0x80 (a : UInt8) : a &&& 0x80 = 0 ∨ a &&& 0x80 = 0x80 := by
  have h : ∀ i : Fin 256, UInt8.ofFin i &&& 0x80 = 0 ∨ UInt8.ofFin i &&& 0x80 = 0x80 := by
    decide +kernel
  exact h a.toFin

theorem xor_left_comm (a b c : UInt8) : a ^^^ (b ^^^ c) = b ^^^ (a ^^^ c) := by
  rw [← xor_assoc, UInt8.xor_comm a b, xor_assoc]

theorem xtime_xor (a b : UInt8) : xtime (a ^^^ b) = xtime a ^^^ xtime b := by
  have hm : (a ^^^ b) &&& 0x80 = (a &&& 0x80) ^^^ (b &&& 0x80) := by
    apply UInt8.toBitVec_inj.1
    apply BitVec.eq_of_getLsbD_eq
    intro i hi
    simp [Bool.and_xor_distrib_right]
  unfold xtime
  rw [UInt8.shiftLeft_xor, hm]
  rcases and_0x80 a with ha | ha <;> rcases and_0x80 b with hb | hb <;>
    simp [ha, hb, xor_assoc, UInt8.xor_comm]

abbrev Column := UInt8 × UInt8 × UInt8 × UInt8

/-- Multiplication by `3 x^3 + x^2 + x + 2` modulo `x^4 + 1`. -/
def mixColumn : Column → Column
  | (a, b, c, d) =>
    (xtime (a ^^^ b) ^^^ b ^^^ c ^^^ d, xtime (b ^^^ c) ^^^ c ^^^ d ^^^ a,
      xtime (c ^^^ d) ^^^ d ^^^ a ^^^ b, xtime (d ^^^ a) ^^^ a ^^^ b ^^^ c)

/-- The square of the polynomial is `4 x^2 + 5`. -/
theorem mixColumn_mixColumn (a b c d : UInt8) :
    mixColumn (mixColumn (a, b, c, d)) =
      (xtime (xtime (a ^^^ c)) ^^^ a, xtime (xtime (b ^^^ d)) ^^^ b,
        xtime (xtime (a ^^^ c)) ^^^ c, xtime (xtime (b ^^^ d)) ^^^ d) := by
  simp only [mixColumn, xtime_xor, Prod.mk.injEq]
  refine ⟨?_, ?_, ?_, ?_⟩ <;>
    simp [xor_assoc, UInt8.xor_comm, xor_left_comm]

/-- Its fourth power is 1, so three more multiplications undo one. -/
theorem mixColumn_four (p : Column) : mixColumn (mixColumn (mixColumn (mixColumn p))) = p := by
  obtain ⟨a, b, c, d⟩ := p
  rw [mixColumn_mixColumn a b c d, mixColumn_mixColumn]
  simp only [xtime_xor, Prod.mk.injEq]
  refine ⟨?_, ?_, ?_, ?_⟩ <;> simp [UInt8.xor_comm, xor_left_comm]

def onColumns (f : Column → Column) (s : Block) : Block :=
  let p := f (s.get 0, s.get 1, s.get 2, s.get 3)
  let q := f (s.get 4, s.get 5, s.get 6, s.get 7)
  let r := f (s.get 8, s.get 9, s.get 10, s.get 11)
  let t := f (s.get 12, s.get 13, s.get 14, s.get 15)
  #v[p.1, p.2.1, p.2.2.1, p.2.2.2, q.1, q.2.1, q.2.2.1, q.2.2.2, r.1, r.2.1, r.2.2.1, r.2.2.2,
    t.1, t.2.1, t.2.2.1, t.2.2.2]

theorem onColumns_onColumns (g f : Column → Column) (s : Block) :
    onColumns g (onColumns f s) = onColumns (g ∘ f) s := rfl

theorem onColumns_eq_self {f : Column → Column} (h : ∀ p, f p = p) (s : Block) :
    onColumns f s = s := by
  simp only [onColumns, h]
  apply Vector.ext
  intro i hi
  interval_cases i <;> rfl

def mixColumns : Equiv.Perm Block where
  toFun := onColumns mixColumn
  invFun := onColumns fun p => mixColumn (mixColumn (mixColumn p))
  left_inv s := by
    rw [onColumns_onColumns]
    exact onColumns_eq_self mixColumn_four s
  right_inv s := by
    rw [onColumns_onColumns]
    exact onColumns_eq_self mixColumn_four s

/-! ### Key schedule and rounds -/

def addRoundKey (k : Block) : Equiv.Perm Block where
  toFun s := s ^^^ k
  invFun s := s ^^^ k
  left_inv s := xor_cancel_right s k
  right_inv s := xor_cancel_right s k

def nextKey (k : Block) (rc : UInt8) : Block :=
  let g : List UInt8 := [subByte (k.get 13) ^^^ rc, subByte (k.get 14), subByte (k.get 15),
    subByte (k.get 12)]
  let w0 := List.zipWith (· ^^^ ·) (k.toList.take 4) g
  let w1 := List.zipWith (· ^^^ ·) ((k.toList.drop 4).take 4) w0
  let w2 := List.zipWith (· ^^^ ·) ((k.toList.drop 8).take 4) w1
  let w3 := List.zipWith (· ^^^ ·) (k.toList.drop 12) w2
  Block.ofBytes (w0 ++ w1 ++ w2 ++ w3)

/-- The rounds from the key `k` on, one for each round constant; the last one does not mix. -/
def rounds : Block → List UInt8 → Equiv.Perm Block
  | _, [] => Equiv.refl _
  | k, [rc] => subBytes.trans (shiftRows.trans (addRoundKey (nextKey k rc)))
  | k, rc :: rcs =>
    (subBytes.trans (shiftRows.trans (mixColumns.trans (addRoundKey (nextKey k rc))))).trans
      (rounds (nextKey k rc) rcs)

def cipher (k : Block) : Equiv.Perm Block :=
  (addRoundKey k).trans (rounds k [0x01, 0x02, 0x04, 0x08, 0x10, 0x20, 0x40, 0x80, 0x1b, 0x36])

@[irreducible] def aes128 : Aes where
  enc k := cipher k
  dec k := (cipher k).symm
  dec_enc k x := by rw [Equiv.symm_apply_apply]
  enc_dec k x := by rw [Equiv.apply_symm_apply]

-- the example vector of FIPS-197
example : aes128.enc (Block.ofBytes ((List.range 16).map Nat.toUInt8))
      (Block.ofBytes [0x00, 0x11, 0x22, 0x33, 0x44, 0x55, 0x66, 0x77, 0x88, 0x99, 0xaa, 0xbb,
        0xcc, 0xdd, 0xee, 0xff]) =
    Block.ofBytes [0x69, 0xc4, 0xe0, 0xd8, 0x6a, 0x7b, 0x04, 0x30, 0xd8, 0xcd, 0xb7, 0x80,
      0x70, 0xb4, 0xc5, 0x5a] := by decide +kernel

end LeafReader.Aes128
