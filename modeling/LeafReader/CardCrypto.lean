import LeafReader.CmacSpec
import LeafReader.Crc32
import LeafReader.DesfireAuth
import LeafReader.DesfireEnc

/-!
# The card's cryptography

What the other party of a session computes, from the standards and from the comments of
`desfire_auth.c` and `desfire_enc.c`: chaining, rotation, CMAC and the bytes of it on the wire,
CRC-32 as a register of bits, and the IVs. Each helper of the host is equal to its counterpart here.
-/

namespace LeafReader

variable (aes : Aes)

/-! ### Blocks out of numbers -/

/-- The last `n` bytes of a number, most significant first. -/
def beBytes : Nat → Nat → Bytes
  | 0, _ => []
  | n + 1, v => beBytes n (v / 256) ++ [UInt8.ofNat v]

@[simp] theorem length_beBytes (n v : Nat) : (beBytes n v).length = n := by
  induction n generalizing v with
  | zero => rfl
  | succ n ih => simp [beBytes, ih]

theorem ofBytesBE_beBytes (n v : Nat) : ofBytesBE (beBytes n v) = v % 256 ^ n := by
  induction n generalizing v with
  | zero => simp [beBytes, ofBytesBE, Nat.mod_one]
  | succ n ih =>
    have hlow : ofBytesBE [UInt8.ofNat v] = v % 256 := by simp [ofBytesBE]
    rw [beBytes, ofBytesBE_append, ih, hlow, pow_succ, Nat.mul_comm (256 ^ n), Nat.mod_mul]
    simp [Nat.add_comm]

def Block.ofBits (v : BitVec 128) : Block := Block.ofBytes (beBytes 16 v.toNat)

theorem Block.bits_ofBits (v : BitVec 128) : (Block.ofBits v).bits = v := by
  apply BitVec.eq_of_toNat_eq
  rw [Block.toNat_bits, Block.ofBits, Block.toList_ofBytes_of_le (by simp), length_beBytes, Nat.sub_self,
    List.replicate_zero, List.append_nil, ofBytesBE_beBytes]
  exact Nat.mod_eq_of_lt (by simpa using v.isLt)

/-! ### CMAC -/

/-- The doubling of SP 800-38B: one bit to the left, and `Rb` when a one falls out. -/
def cardDouble (b : Block) : Block :=
  Block.ofBits (if b.bits.msb then (b.bits <<< 1) ^^^ 0x87#128 else b.bits <<< 1)

theorem cardDouble_eq (b : Block) : cardDouble b = b.double := by
  apply Block.bits_injective
  rw [cardDouble, Block.bits_ofBits, Block.double_eq, ← if_congr (Block.msb_bits b) rfl rfl]
  split
  · rw [Block.bits_xorLast, Block.bits_leftShiftOne]
    rfl
  · rw [Block.bits_leftShiftOne]

theorem blockBytes_pos : 0 < 16 := Nat.succ_pos 15

def cardScheme : Cmac.Scheme UInt8 Block where
  n := 16
  pos := blockBytes_pos
  zero := .zero
  xor := (· ^^^ ·)
  block := Block.ofBytes
  pad l := l ++ [0x80] ++ List.replicate (15 - l.length) 0
  dbl := cardDouble

theorem cardScheme_eq : cardScheme = nistCmac := by
  rw [cardScheme, nistCmac, show cardDouble = Block.double from funext cardDouble_eq]

def cardCmac (key : Block) (msg : Bytes) : Block := cardScheme.mac (aes.enc key) msg

theorem desfireCmac_eq_card (key : Block) (msg : Bytes) :
    desfireCmac aes key msg = cardCmac aes key msg := by
  rw [cardCmac, cardScheme_eq, desfireCmac_eq]

/-- The bytes of a CMAC that go on the wire: those at odd positions. -/
def oddBytes (b : Block) : Bytes := List.ofFn fun i : Fin 8 => b.get ⟨2 * i + 1, by omega⟩

theorem macTruncate_eq (full : Block) : macTruncate full = oddBytes full := rfl

/-! ### The rest -/

def cardEncrypt (key iv : Block) (l : Bytes) : Bytes :=
  ofBlocks (Cbc.encrypt (aes.enc key) iv (toBlocks l))

def cardDecrypt (key iv : Block) (l : Bytes) : Bytes :=
  ofBlocks (Cbc.decrypt (aes.dec key) iv (toBlocks l))

theorem desfireAesCbcEncrypt_eq (key iv : Block) (l : Bytes) :
    desfireAesCbcEncrypt aes key iv l = cardEncrypt aes key iv l := rfl

theorem desfireAesCbcDecrypt_eq (key iv : Block) (l : Bytes) :
    desfireAesCbcDecrypt aes key iv l = cardDecrypt aes key iv l := rfl

theorem toBlocks_toList (b : Block) : toBlocks b.toList = [b] := by
  have h := toBlocks_ofBlocks [b]
  rwa [ofBlocks_cons, ofBlocks_nil, List.append_nil] at h

/-- One block under CBC with a zero IV is ECB. -/
theorem desfireAesCbcEncrypt_block (key b : Block) :
    desfireAesCbcEncrypt aes key .zero b.toList = (aes.enc key b).toList := by
  rw [desfireAesCbcEncrypt, toBlocks_toList, Cbc.encrypt, Cbc.encrypt, ofBlocks_cons, ofBlocks_nil,
    List.append_nil, show (Block.zero : Block) = 0 from rfl, xor_zero]

theorem desfireAesCbcDecrypt_block (key b : Block) :
    desfireAesCbcDecrypt aes key .zero b.toList = (aes.dec key b).toList := by
  rw [desfireAesCbcDecrypt, toBlocks_toList, Cbc.decrypt, Cbc.decrypt, ofBlocks_cons, ofBlocks_nil,
    List.append_nil, show (Block.zero : Block) = 0 from rfl, xor_zero]

/-- The first byte goes to the end. -/
def cardRotate (b : Block) : Block :=
  Vector.ofFn fun i : Fin 16 => b.get ⟨(i.val + 1) % 16, Nat.mod_lt _ (Nat.succ_pos 15)⟩

theorem rotateLeft1_eq (b : Block) : rotateLeft1 b = cardRotate b := by
  refine Vector.ext fun i hi => ?_
  simp only [rotateLeft1, cardRotate, Block.ofBytes, Vector.getElem_ofFn, List.getD_eq_getElem?_getD]
  by_cases h : i = 15
  · subst h
    simp [Vector.get]
  · have hnext : (i + 1) % 16 = i + 1 := Nat.mod_eq_of_lt (show i + 1 < 16 by omega)
    rw [List.getElem?_append_left (by simp; omega), List.getElem?_drop]
    simp [Vector.get, hnext, Nat.add_comm 1 i, show i + 1 < 16 by omega]

/-- CRC-32 one bit at a time, low bits first, without the final inversion. -/
def cardCrc (l : Bytes) : UInt32 := ⟨Crc.runBits crcPoly 0xFFFFFFFF#32 (crcBits l)⟩

theorem desfireCrc32_eq (l : Bytes) : desfireCrc32 l = cardCrc l :=
  UInt32.toBitVec_inj.1 (toBitVec_desfireCrc32_bits l)

/-- `AES-ECB(K_ses_auth_enc, magic | TI | cmd_ctr | 00 × 8)`. -/
def Session.cardIv (s : Session) (magicHi magicLo : UInt8) : Block :=
  aes.enc s.kSesAuthEnc
    #v[magicHi, magicLo, s.ti[0], s.ti[1], s.ti[2], s.ti[3], s.cmdCtr.toUInt8, (s.cmdCtr >>> 8).toUInt8,
      0, 0, 0, 0, 0, 0, 0, 0]

theorem ivInput_eq (s : Session) (magicHi magicLo : UInt8) :
    s.ivInput magicHi magicLo =
      #v[magicHi, magicLo, s.ti[0], s.ti[1], s.ti[2], s.ti[3], s.cmdCtr.toUInt8,
        (s.cmdCtr >>> 8).toUInt8, 0, 0, 0, 0, 0, 0, 0, 0] := by
  have hti : s.ti.toList = [s.ti[0], s.ti[1], s.ti[2], s.ti[3]] := by
    apply List.ext_getElem
    · simp
    · intro i h1 h2
      have hi : i = 0 ∨ i = 1 ∨ i = 2 ∨ i = 3 := by
        simp only [Vector.length_toList] at h1
        omega
      rcases hi with rfl | rfl | rfl | rfl <;> simp
  rw [Session.ivInput, hti]
  rfl

theorem desfireEncIv_ecb (s : Session) (magicHi magicLo : UInt8) :
    desfireEncIv aes s magicHi magicLo = aes.enc s.kSesAuthEnc (s.ivInput magicHi magicLo) := by
  rw [desfireEncIv, desfireAesCbcEncrypt_block, Block.ofBytes_toList']

theorem desfireEncIv_eq (s : Session) (magicHi magicLo : UInt8) :
    desfireEncIv aes s magicHi magicLo = s.cardIv aes magicHi magicLo := by
  rw [desfireEncIv_ecb, ivInput_eq]
  rfl

end LeafReader
