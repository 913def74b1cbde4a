import LeafReader.DesfireXfer

/-!
# Encrypted-mode helpers (`desfire_enc.c`)

`desfire_enc_send`, `desfire_enc_recv` and `desfire_change_key`. The plaintext that each encrypting
call hands to AES-CBC is a function of its own (`encSendPlain`, `changeKeyPlain`).
-/

namespace LeafReader

variable {σ : Type} (aes : Aes) (nfc : Nfc σ)

/-! ### IV and MAC helpers -/

/-- The block `magic | TI | cmd_ctr | zeroes` the IV is derived from. -/
def Session.ivInput (s : Session) (magicHi magicLo : UInt8) : Block :=
  Block.ofBytes ([magicHi, magicLo] ++ s.ti.toList ++ le16 s.cmdCtr)

/-- `desfire_enc_iv`: one block under CBC with a zero IV. -/
def desfireEncIv (s : Session) (magicHi magicLo : UInt8) : Block :=
  Block.ofBytes
    (desfireAesCbcEncrypt aes s.kSesAuthEnc .zero (s.ivInput magicHi magicLo).toList)

/-- The head `first | cmd_ctr | TI` of every MAC input; `first` is a command or a status. -/
def macHead (first : UInt8) (s : Session) : Bytes := [first] ++ le16 s.cmdCtr ++ s.ti.toList

@[simp] theorem length_macHead (first : UInt8) (s : Session) : (macHead first s).length = 7 := by
  simp [macHead]

/-- `cmac_session`: the truncated CMAC under the key in the slot. -/
def cmacSession (h : Host) (msg : Bytes) : Bytes := macTruncate (desfireCmac aes h.macKey msg)

@[simp] theorem length_cmacSession (h : Host) (msg : Bytes) :
    (cmacSession aes h msg).length = 8 := rfl

/-- `pad_to_block`: `0x80` and zeroes up to a multiple of 16, nothing when already there. The empty
string stands for the return value 0. -/
def padToBlock (buf : Bytes) (bufSize : Nat) : Bytes :=
  let rem := buf.length % 16
  let pad := if rem = 0 then 0 else 16 - rem
  if pad = 0 then buf
  else if buf.length + pad > bufSize then []
  else buf ++ [0x80] ++ List.replicate (pad - 1) 0

/-! ### Encrypted send -/

/-- Steps 1 and 2 of `desfire_enc_send`: `data | crc32(cmd | header | data) | pad`; the empty
string where the call returns −1. -/
def encSendPlain (cmd : UInt8) (header data : Bytes) : Except Fault Bytes := do
  if sizeT (1 + header.length + data.length) > 257 then return []
  let crcBuf ← fill 257 ([cmd] ++ header ++ data)
  if sizeT (data.length + 4) > 256 then return []
  let plain ← fill 256 (data ++ le32 (desfireCrc32 crcBuf))
  return padToBlock plain 256

/-- Step 6 of `desfire_enc_send` after an answer with status 0: count, verify, strip. -/
def encSendFinish (out : Out) (rx : Bytes) (w : World σ) :
    Except Fault (Call σ (Option UInt8)) :=
  let w := w.bumpCtr
  if rx.length ≥ 8 then
    let rd := rx.length - 8
    if 7 + rd > 263 then .ok ⟨none, out, w⟩
    else if (rx.drop rd).take 8 ≠ cmacSession aes w.host (macHead 0x00 w.host.session ++ rx.take rd)
    then .ok ⟨none, out, w⟩
    else
      -- the copy to `resp` is not checked against `resp_buf`
      match out.resp with
      | some r =>
        if rd ≤ r.length then .ok ⟨some 0x00, out.put (rx.take rd), w⟩ else .error .overrun
      | none => .ok ⟨some 0x00, out.put (rx.take rd), w⟩
  else .ok ⟨some 0x00, { out with respLen := out.respLen.map fun _ => 0 }, w⟩

def desfireEncSend (cmd : UInt8) (header data : Bytes) (out : Out) (w : World σ) :
    Except Fault (Call σ (Option UInt8)) := do
  let s := w.host.session
  if !s.authenticated then return ⟨none, out, w⟩
  let plain ← encSendPlain cmd header data
  if plain.length = 0 then return ⟨none, out, w⟩
  let iv := desfireEncIv aes s 0xA5 0x5A
  let cipher := desfireAesCbcEncrypt aes s.kSesAuthEnc iv plain
  if 7 + header.length + cipher.length > 263 then return ⟨none, out, w⟩
  let mac8 := cmacSession aes w.host (macHead cmd s ++ header ++ cipher)
  if header.length + cipher.length + 8 > 256 then return ⟨none, out, w⟩
  let x := desfireXfer nfc cmd (header ++ cipher ++ mac8) (.buf 64) 64 w
  match x.ret with
  | none => return ⟨none, out, x.world⟩
  | some st =>
    if st ≠ 0x00 then return ⟨some st, out, x.world⟩
    encSendFinish aes out x.out.bytes x.world

/-! ### Encrypted receive -/

/-- Steps 3 to 5 of `desfire_enc_recv` on an answer `rx` with status 0. -/
def encRecvFinish (payloadLen : Nat) (out : Out) (rx : Bytes) (w : World σ) :
    Except Fault (Call σ (Option UInt8)) :=
  if rx.length < 8 then .ok ⟨none, out, w⟩
  else
    let w := w.bumpCtr
    let s := w.host.session
    let cipherLen := rx.length - 8
    if 7 + cipherLen > 287 then .ok ⟨none, out, w⟩
    else
      let cipher := rx.take cipherLen
      if (rx.drop cipherLen).take 8 ≠ cmacSession aes w.host (macHead 0x00 s ++ cipher) then
        .ok ⟨none, out, w⟩
      else
        let iv := desfireEncIv aes s 0x5A 0xA5
        if cipherLen % 16 ≠ 0 then .ok ⟨none, out, w⟩
        else if cipherLen > 280 then .ok ⟨none, out, w⟩
        else
          let plain := desfireAesCbcDecrypt aes s.kSesAuthEnc iv cipher
          if cipherLen < sizeT (payloadLen + 4) then .ok ⟨none, out, w⟩
          else if sizeT (1 + payloadLen) > 257 then .ok ⟨none, out, w⟩
          -- both checks have wrapped: the copy runs past `plain` and `crc_in`
          else if 1 + payloadLen > 257 then .error .overrun
          else
            let payload := plain.take payloadLen
            if desfireCrc32 ([0x00] ++ payload) ≠ ofLe32 (plain.drop payloadLen) then
              .ok ⟨none, out, w⟩
            else .ok ⟨some 0x00, out.put payload, w⟩

def desfireEncRecv (cmd : UInt8) (header : Bytes) (payloadLen : Nat) (out : Out) (respBuf : Nat)
    (w : World σ) : Except Fault (Call σ (Option UInt8)) := do
  let s := w.host.session
  if !s.authenticated then return ⟨none, out, w⟩
  if payloadLen > respBuf then return ⟨none, out, w⟩
  if sizeT (7 + header.length) > 71 then return ⟨none, out, w⟩
  let macbuf ← fill 71 (macHead cmd s ++ header)
  let mac8 := cmacSession aes w.host macbuf
  if sizeT (header.length + 8) > 72 then return ⟨none, out, w⟩
  let params ← fill 72 (header ++ mac8)
  let x := desfireXfer nfc cmd params (.buf 280) 280 w
  match x.ret with
  | none => return ⟨none, out, x.world⟩
  | some st =>
    if st ≠ 0x00 then return ⟨some st, out, x.world⟩
    encRecvFinish aes payloadLen out x.out.bytes x.world

/-! ### ChangeKey -/

/-- The padded plaintext of `desfire_change_key`, in its same-key and different-key branches. -/
def changeKeyPlain (sameKey : Bool) (keyNo : UInt8) (oldKey newKey : Block) (keyVersion : UInt8) :
    Bytes :=
  if sameKey then
    let crc := desfireCrc32 ([0xC4, keyNo] ++ newKey.toList ++ [keyVersion])
    padToBlock (newKey.toList ++ [keyVersion] ++ le32 crc) 32
  else
    let mixed := (newKey ^^^ oldKey).toList
    let crc1 := desfireCrc32 ([0xC4, keyNo] ++ mixed ++ [keyVersion])
    let crc2 := desfireCrc32 newKey.toList
    padToBlock (mixed ++ [keyVersion] ++ le32 crc1 ++ le32 crc2) 32

/-- The different-key branch of `desfire_change_key` after status 0: count and verify. -/
def changeKeyFinish (rx : Bytes) (w : World σ) : Call σ EspErr :=
  let w := w.bumpCtr
  if rx.length ≥ 8 then
    let rd := rx.length - 8
    if (rx.drop rd).take 8 ≠ cmacSession aes w.host (macHead 0x00 w.host.session ++ rx.take rd) then
      ⟨.invalidCrc, .null, w⟩
    else ⟨.ok, .null, w⟩
  else ⟨.ok, .null, w⟩

def desfireChangeKey (keyNo : UInt8) (oldKey newKey : Block) (keyVersion : UInt8) (w : World σ) :
    Call σ EspErr :=
  let s := w.host.session
  if !s.authenticated then ⟨.invalidState, .null, w⟩
  else
    let sameKey := keyNo == s.keyNo
    let plain := changeKeyPlain sameKey keyNo oldKey newKey keyVersion
    if plain.length = 0 then ⟨.invalidSize, .null, w⟩
    else
      let iv := desfireEncIv aes s 0xA5 0x5A
      let cipher := desfireAesCbcEncrypt aes s.kSesAuthEnc iv plain
      let mac8 := cmacSession aes w.host (macHead 0xC4 s ++ [keyNo] ++ cipher)
      let x := desfireXfer nfc 0xC4 ([keyNo] ++ cipher ++ mac8) (.buf 16) 16 w
      if x.ret ≠ some 0x00 then ⟨.fail, .null, x.world⟩
      else if sameKey then
        ⟨.ok, .null, x.world.setSession { x.world.host.session with authenticated := false }⟩
      else changeKeyFinish aes x.out.bytes x.world

end LeafReader
