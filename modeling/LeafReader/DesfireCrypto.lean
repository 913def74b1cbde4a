import LeafReader.Bytes
import LeafReader.BlockCipher

/-!
# AES helpers, CMAC and CRC32 (`desfire_crypto.c`)

AES-128 is a parameter: any family of permutations of 16-byte blocks, indexed by 16-byte keys.
-/

namespace LeafReader

/-- AES-128 as the code uses it. -/
abbrev Aes := BlockCipher Block Block

/-- `mbedtls_aes_crypt_cbc` on `len` bytes, `len` a multiple of 16. -/
def desfireAesCbcEncrypt (aes : Aes) (key iv : Block) (inp : Bytes) : Bytes :=
  ofBlocks (Cbc.encrypt (aes.enc key) iv (toBlocks inp))

def desfireAesCbcDecrypt (aes : Aes) (key iv : Block) (inp : Bytes) : Bytes :=
  ofBlocks (Cbc.decrypt (aes.dec key) iv (toBlocks inp))

theorem length_desfireAesCbcEncrypt (aes : Aes) (key iv : Block) {inp : Bytes}
    (h : inp.length % 16 = 0) : (desfireAesCbcEncrypt aes key iv inp).length = inp.length := by
  simp [desfireAesCbcEncrypt, toBlocks]
  omega

theorem decrypt_encrypt (aes : Aes) (key iv : Block) {inp : Bytes} (h : inp.length % 16 = 0) :
    desfireAesCbcDecrypt aes key iv (desfireAesCbcEncrypt aes key iv inp) = inp := by
  rw [desfireAesCbcDecrypt, desfireAesCbcEncrypt, toBlocks_ofBlocks,
    Cbc.decrypt_encrypt (aes.dec_enc key), ofBlocks_toBlocks h]

/-! ### CMAC -/

/-- One bit to the left over the whole block, from byte 15 down to byte 0 with a carry. -/
def leftShiftOne (b : Block) : Block :=
  Block.ofBytes (b.toList.foldr (fun (x : UInt8) (s : Bytes × UInt8) =>
    (((x <<< 1) ||| s.2) :: s.1, if x &&& 0x80 ≠ 0 then 1 else 0)) ([], 0)).1

def cmacSubkeys (aes : Aes) (key : Block) : Block × Block :=
  let rb (b : Block) : Block := b.set 15 (b[15] ^^^ 0x87)
  let l := aes.enc key .zero
  let k1 := if l[0] &&& 0x80 ≠ 0 then rb (leftShiftOne l) else leftShiftOne l
  let k2 := if k1[0] &&& 0x80 ≠ 0 then rb (leftShiftOne k1) else leftShiftOne k1
  (k1, k2)

/-- `desfire_cmac` with the key slot `g_session_mac_key_full` holding `key`. -/
def desfireCmac (aes : Aes) (key : Block) (msg : Bytes) : Block :=
  let (k1, k2) := cmacSubkeys aes key
  let n := if msg.length = 0 then 1 else (msg.length + 15) / 16
  let lastComplete := msg.length ≠ 0 ∧ msg.length % 16 = 0
  let mLast :=
    if lastComplete then Block.ofBytes (msg.drop ((n - 1) * 16)) ^^^ k1
    else Block.ofBytes (msg.drop ((n - 1) * 16) ++ [0x80]) ^^^ k2
  let x := (blocks (n - 1) msg).foldl (fun x m => aes.enc key (x ^^^ m)) .zero
  aes.enc key (x ^^^ mLast)

/-- The on-wire MAC: the bytes at the odd positions 1, 3, …, 15. -/
def macTruncate (full : Block) : Bytes :=
  [full[1], full[3], full[5], full[7], full[9], full[11], full[13], full[15]]

@[simp] theorem length_macTruncate (full : Block) : (macTruncate full).length = 8 := rfl

/-! ### CRC32 -/

def crc32Bit (crc : UInt32) : UInt32 := (crc >>> 1) ^^^ (0xEDB88320 &&& -(crc &&& 1))

def desfireCrc32 (data : Bytes) : UInt32 :=
  data.foldl (fun crc b => crc32Bit^[8] (crc ^^^ b.toUInt32)) 0xFFFFFFFF

end LeafReader
