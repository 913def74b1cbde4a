import LeafReader.DesfireCrypto
import LeafReader.EndMarker

/-!
# The OSDP secure channel (`osdp_sc.c`)

The keys, cryptograms and chained MACs of a session, and the encryption of the data of a message.
AES-128 is a parameter; `osdp_encrypt` and `osdp_decrypt` without an initial vector are `aes.enc`
and `aes.dec` on one block.
-/

namespace LeafReader

abbrev Bytes8 := Vector UInt8 8

/-- `struct osdp_secure_channel`. -/
structure OsdpSecureChannel where
  scbk : Block
  sEnc : Block
  sMac1 : Block
  sMac2 : Block
  rMac : Block
  cMac : Block
  cpRandom : Bytes8
  pdRandom : Bytes8
  pdClientUid : Bytes8
  cpCryptogram : Block
  pdCryptogram : Block
deriving DecidableEq

/-- The structure after `memset(&pd->sc, 0, …)`. -/
def OsdpSecureChannel.zero : OsdpSecureChannel where
  scbk := .zero
  sEnc := .zero
  sMac1 := .zero
  sMac2 := .zero
  rMac := .zero
  cMac := .zero
  cpRandom := Vector.replicate 8 0
  pdRandom := Vector.replicate 8 0
  pdClientUid := Vector.replicate 8 0
  cpCryptogram := .zero
  pdCryptogram := .zero

/-- `osdp_encrypt` with an initial vector; the length of the data is a multiple of 16. -/
def osdpEncrypt (aes : Aes) (key iv : Block) (data : Bytes) : Bytes :=
  ofBlocks (Cbc.encrypt (aes.enc key) iv (toBlocks data))

/-- `osdp_decrypt` with an initial vector. -/
def osdpDecrypt (aes : Aes) (key iv : Block) (data : Bytes) : Bytes :=
  ofBlocks (Cbc.decrypt (aes.dec key) iv (toBlocks data))

def osdpScbkDefault : Block := .ofBytes
  [0x30, 0x31, 0x32, 0x33, 0x34, 0x35, 0x36, 0x37, 0x38, 0x39, 0x3A, 0x3B, 0x3C, 0x3D, 0x3E, 0x3F]

def osdpComputeScbk (aes : Aes) (masterKey : Block) (pdClientUid : Bytes8) : Block :=
  aes.enc masterKey (.ofBytes (pdClientUid.toList ++ pdClientUid.toList.map (~~~ ·)))

/-- What `osdp_compute_session_keys` encrypts: two constant bytes, six of the CP's random number,
zeroes. -/
def sessionKeyInput (label : UInt8) (cpRandom : Bytes8) : Block :=
  .ofBytes ([0x01, label] ++ cpRandom.toList.take 6)

/-- `osdp_compute_session_keys`; `useScbkd` is the flag `PD_FLAG_SC_USE_SCBKD`. -/
def osdpComputeSessionKeys (aes : Aes) (useScbkd : Bool) (sc : OsdpSecureChannel) : OsdpSecureChannel :=
  let scbk := if useScbkd then osdpScbkDefault else sc.scbk
  { sc with
    sEnc := aes.enc scbk (sessionKeyInput 0x82 sc.cpRandom)
    sMac1 := aes.enc scbk (sessionKeyInput 0x01 sc.cpRandom)
    sMac2 := aes.enc scbk (sessionKeyInput 0x02 sc.cpRandom) }

/-- The block `pd_random ‖ cp_random`, encrypted with `s_enc`. -/
def cpCryptogramOf (aes : Aes) (sc : OsdpSecureChannel) : Block :=
  aes.enc sc.sEnc (.ofBytes (sc.pdRandom.toList ++ sc.cpRandom.toList))

/-- The block `cp_random ‖ pd_random`, encrypted with `s_enc`. -/
def pdCryptogramOf (aes : Aes) (sc : OsdpSecureChannel) : Block :=
  aes.enc sc.sEnc (.ofBytes (sc.cpRandom.toList ++ sc.pdRandom.toList))

def osdpComputeCpCryptogram (aes : Aes) (sc : OsdpSecureChannel) : OsdpSecureChannel :=
  { sc with cpCryptogram := cpCryptogramOf aes sc }

def osdpComputePdCryptogram (aes : Aes) (sc : OsdpSecureChannel) : OsdpSecureChannel :=
  { sc with pdCryptogram := pdCryptogramOf aes sc }

/-- `osdp_ct_compare`: the differences of all bytes are gathered before the result is looked at. -/
def osdpCtCompare (s1 s2 : Bytes) : UInt8 :=
  (List.zipWith (· ^^^ ·) s1 s2).foldl (· ||| ·) 0

def osdpVerifyCpCryptogram (aes : Aes) (sc : OsdpSecureChannel) : Bool :=
  osdpCtCompare sc.cpCryptogram.toList (cpCryptogramOf aes sc).toList = 0

def osdpVerifyPdCryptogram (aes : Aes) (sc : OsdpSecureChannel) : Bool :=
  osdpCtCompare sc.pdCryptogram.toList (pdCryptogramOf aes sc).toList = 0

def osdpComputeRmacI (aes : Aes) (sc : OsdpSecureChannel) : OsdpSecureChannel :=
  { sc with rMac := aes.enc sc.sMac2 (aes.enc sc.sMac1 sc.cpCryptogram) }

/-- `AES_PAD_LEN`. -/
def aesPadLen (x : ℕ) : ℕ := (x + 15) / 16 * 16

def osdpScEomMarker : UInt8 := 0x80

/-- The initial vector of a message: the last MAC of the other direction with every bit turned over. -/
def messageIv (sc : OsdpSecureChannel) (isCmd : Bool) : Block :=
  (if isCmd then sc.rMac else sc.cMac).map (~~~ ·)

/-- `osdp_decrypt_data`: the length of the data, `none` for -1, and the buffer as it is left.
Without blocks the code looks for the marker in the bytes before the buffer, the identifier of the
message first; whatever it finds there, the result is negative. -/
def osdpDecryptData (aes : Aes) (sc : OsdpSecureChannel) (allowEmpty isCmd : Bool) (data : Bytes) :
    Option ℕ × Bytes :=
  if data.length % 16 ≠ 0 then (none, data)
  else if data.length = 0 then (if allowEmpty then some 0 else none, data)
  else
    let plain := osdpDecrypt aes sc.sEnc (messageIv sc isCmd) data
    let i := EndMarker.lastNonzero plain (data.length - 1)
    if plain.getD i 0 ≠ osdpScEomMarker then (none, plain) else (some i, plain.set i 0)

/-- `osdp_encrypt_data`: the bytes that take the place of `data`. -/
def osdpEncryptData (aes : Aes) (sc : OsdpSecureChannel) (isCmd : Bool) (data : Bytes) : Bytes :=
  osdpEncrypt aes sc.sEnc (messageIv sc isCmd)
    (data ++ osdpScEomMarker :: List.replicate (aesPadLen (data.length + 1) - data.length - 1) 0)

/-- The data that `osdp_compute_mac` works on: a last partial block is closed by the marker and
zeroes. -/
def macPadded (data : Bytes) : Bytes :=
  if data.length % 16 = 0 then data
  else data ++ 0x80 :: List.replicate (aesPadLen data.length - data.length - 1) 0

/-- The MAC of `data`: every block but the last is chained with `s_mac1`, the last one with
`s_mac2`. -/
def macOf (aes : Aes) (sc : OsdpSecureChannel) (iv : Block) (data : Bytes) : Block :=
  let bs := toBlocks (macPadded data)
  let iv := ((Cbc.encrypt (aes.enc sc.sMac1) iv bs.dropLast).getLast?).getD iv
  aes.enc sc.sMac2 (bs.getLast?.getD .zero ^^^ iv)

/-- `osdp_compute_mac` on data that is not empty. -/
def osdpComputeMac (aes : Aes) (isCmd : Bool) (data : Bytes) (sc : OsdpSecureChannel) :
    OsdpSecureChannel :=
  if isCmd then { sc with cMac := macOf aes sc sc.rMac data }
  else { sc with rMac := macOf aes sc sc.cMac data }

/-- The MAC of the direction `isCmd`. -/
def OsdpSecureChannel.macOfDir (sc : OsdpSecureChannel) (isCmd : Bool) : Block :=
  if isCmd then sc.cMac else sc.rMac

/-! ### Lengths -/

theorem aesPadLen_mod (x : ℕ) : aesPadLen x % 16 = 0 := Nat.mul_mod_left ..

theorem le_aesPadLen (x : ℕ) : x ≤ aesPadLen x := by
  unfold aesPadLen
  omega

theorem aesPadLen_lt (x : ℕ) : aesPadLen x < x + 16 := by
  unfold aesPadLen
  omega

theorem length_osdpEncrypt (aes : Aes) (key iv : Block) {data : Bytes} (h : data.length % 16 = 0) :
    (osdpEncrypt aes key iv data).length = data.length := by
  simp [osdpEncrypt, toBlocks]
  omega

@[simp] theorem length_osdpEncryptData (aes : Aes) (sc : OsdpSecureChannel)
  (isCmd : Bool) (data : Bytes) :
    (osdpEncryptData aes sc isCmd data).length = aesPadLen (data.length + 1) := by
  have hlen : (data ++ osdpScEomMarker ::
      List.replicate (aesPadLen (data.length + 1) - data.length - 1) 0).length =
      aesPadLen (data.length + 1) := by
    have := le_aesPadLen (data.length + 1)
    rw [List.length_append, List.length_cons, List.length_replicate]
    omega
  rw [osdpEncryptData, length_osdpEncrypt _ _ _ (by rw [hlen]; exact aesPadLen_mod _), hlen]

/-! ### Cryptograms -/

theorem or_eq_zero {a b : UInt8} : a ||| b = 0 ↔ a = 0 ∧ b = 0 := by
  rw [← UInt8.toNat_inj, ← UInt8.toNat_inj, ← UInt8.toNat_inj]
  simp

theorem foldl_or_eq_zero (l : Bytes) (a : UInt8) :
    l.foldl (· ||| ·) a = 0 ↔ a = 0 ∧ ∀ b ∈ l, b = 0 := by
  induction l generalizing a with
  | nil => simp
  | cons b l ih =>
    rw [List.foldl_cons, ih, or_eq_zero]
    simp [and_assoc]

/-- The constant-time comparison finds out whether two strings of one length are equal. -/
theorem osdpCtCompare_eq_zero {s1 s2 : Bytes} (h : s1.length = s2.length) :
    osdpCtCompare s1 s2 = 0 ↔ s1 = s2 := by
  rw [osdpCtCompare, foldl_or_eq_zero]
  induction s1 generalizing s2 with
  | nil =>
    rw [List.length_eq_zero_iff.1 h.symm]
    simp
  | cons a s1 ih =>
    rcases s2 with _ | ⟨b, s2⟩
    · cases h
    · have := ih (Nat.succ.inj h)
      simp only [true_and] at this
      simp [this]

theorem osdpVerifyPdCryptogram_iff {aes : Aes} {sc : OsdpSecureChannel} :
    osdpVerifyPdCryptogram aes sc = true ↔ sc.pdCryptogram = pdCryptogramOf aes sc := by
  rw [osdpVerifyPdCryptogram, decide_eq_true_iff, osdpCtCompare_eq_zero (by simp), Vector.toList_inj]

/-! ### Data -/

/-- The other end, with the same keys and the same MAC of the other direction, gets back the data,
whatever its length and its last bytes. -/
theorem osdpDecryptData_osdpEncryptData (aes : Aes) {sc sc' : OsdpSecureChannel} (allowEmpty isCmd : Bool)
    (henc : sc'.sEnc = sc.sEnc) (hiv : messageIv sc' isCmd = messageIv sc isCmd) (data : Bytes) :
    ∃ rest, osdpDecryptData aes sc' allowEmpty isCmd (osdpEncryptData aes sc isCmd data) =
      (some data.length, data ++ rest) := by
  have hpad := le_aesPadLen (data.length + 1)
  have hmod := aesPadLen_mod (data.length + 1)
  have hlen := length_osdpEncryptData aes sc isCmd data
  set n := aesPadLen (data.length + 1) - data.length - 1 with hn
  have hplain : osdpDecrypt aes sc'.sEnc (messageIv sc' isCmd) (osdpEncryptData aes sc isCmd data) =
      data ++ osdpScEomMarker :: List.replicate n 0 := by
    rw [henc, hiv, osdpDecrypt, osdpEncryptData, osdpEncrypt, toBlocks_ofBlocks,
      Cbc.decrypt_encrypt (aes.dec_enc _), ofBlocks_toBlocks]
    rw [List.length_append, List.length_cons, List.length_replicate]
    omega
  have hwalk : EndMarker.lastNonzero (data ++ osdpScEomMarker :: List.replicate n 0)
      (aesPadLen (data.length + 1) - 1) = data.length := by
    rw [show aesPadLen (data.length + 1) - 1 = data.length + n by omega]
    exact EndMarker.lastNonzero_marked (by decide)
  refine ⟨0 :: List.replicate n 0, ?_⟩
  unfold osdpDecryptData
  rw [hlen, if_neg (by omega), if_neg (by omega)]
  simp only [hplain, hwalk]
  rw [if_neg (by rw [EndMarker.getD_marked]; exact fun h => h rfl)]
  simp

end LeafReader
