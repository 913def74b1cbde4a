import LeafReader.DesfireXfer

/-!
# AuthenticateEV2First (`desfire_auth.c`)

The random number of the handshake is an argument of the call.
-/

namespace LeafReader

variable {σ : Type} (aes : Aes) (nfc : Nfc σ)

def rotateLeft1 (b : Block) : Block := Block.ofBytes (b.toList.drop 1 ++ b.toList.take 1)

/-- `cmac_with_key`: the key slot is saved, loaded with `key` and restored around `desfire_cmac`. -/
def cmacWithKey (key : Block) (msg : Bytes) (h : Host) : Block × Host :=
  let saved := h.macKey
  let h := { h with macKey := key }
  let out := desfireCmac aes h.macKey msg
  (out, { h with macKey := saved })

/-- The 32-byte vector `sv` under its two header bytes. -/
def sessionVector (h0 h1 : UInt8) (rndA rndB : Block) : Bytes :=
  [h0, h1, 0x00, 0x01, 0x00, 0x80] ++
    List.ofFn (fun i : Fin 2 => rndA[i.val]) ++
    List.ofFn (fun i : Fin 6 => rndA[2 + i.val] ^^^ rndB[i.val]) ++
    List.ofFn (fun i : Fin 10 => rndB[6 + i.val]) ++
    List.ofFn (fun i : Fin 8 => rndA[8 + i.val])

/-- `derive_session_keys`: the encryption key and the MAC key. -/
def deriveSessionKeys (kMaster rndA rndB : Block) (h : Host) : (Block × Block) × Host :=
  let (kEnc, h) := cmacWithKey aes kMaster (sessionVector 0xA5 0x5A rndA rndB) h
  let (kMac, h) := cmacWithKey aes kMaster (sessionVector 0x5A 0xA5 rndA rndB) h
  ((kEnc, kMac), h)

@[simp] theorem cmacWithKey_eq (key : Block) (msg : Bytes) (h : Host) :
    cmacWithKey aes key msg h = (desfireCmac aes key msg, h) := rfl

/-- The last lines of `desfire_auth_ev2_first`: the new session is written and its MAC key loaded. -/
def captureSession (keyNo : UInt8) (key rndA rndB : Block) (plain : Bytes) (w : World σ) :
    World σ :=
  let ((kEnc, kMac), h) := deriveSessionKeys aes key rndA rndB w.host
  { w with
    host :=
      { h with
        session :=
          { keyNo := keyNo
            ti := Vector.ofFn fun i => plain.getD i 0
            kSesAuthEnc := kEnc
            kSesAuthMac := kMac
            cmdCtr := 0
            authenticated := true }
        macKey := kMac } }

/-- The challenge `E(RndA | RndB')` of step 2, chained from the card's first answer. -/
def authChallenge (key rndA eRndB rndB : Block) : Bytes :=
  desfireAesCbcEncrypt aes key eRndB (rndA.toList ++ (rotateLeft1 rndB).toList)

def desfireAuthEv2First (keyNo : UInt8) (key rndA : Block) (w : World σ) : Call σ EspErr :=
  let x1 := desfireXfer nfc 0x71 [keyNo, 0x00, 0x00] (.buf 64) 64 w
  if x1.ret ≠ some 0xAF ∨ x1.out.bytes.length ≠ 16 then ⟨.fail, .null, x1.world⟩
  else
    let eRndB := Block.ofBytes x1.out.bytes
    let rndB := Block.ofBytes (desfireAesCbcDecrypt aes key .zero eRndB.toList)
    let encrypted := authChallenge aes key rndA eRndB rndB
    let x2 := desfireXfer nfc 0xAF encrypted x1.out 64 x1.world
    if x2.ret ≠ some 0x00 ∨ x2.out.bytes.length ≠ 32 then ⟨.fail, .null, x2.world⟩
    else
      let iv3 := Block.ofBytes (encrypted.drop 16)
      let plain := desfireAesCbcDecrypt aes key iv3 x2.out.bytes
      if (plain.drop 4).take 16 ≠ (rotateLeft1 rndA).toList then ⟨.fail, .null, x2.world⟩
      else ⟨.ok, .null, captureSession aes keyNo key rndA rndB plain x2.world⟩

end LeafReader
