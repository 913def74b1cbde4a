import LeafReader.Leaf
import LeafReader.Logged

/-!
# The MAC key slot in runs of one task

`g_session_mac_key_full` holds the key that `desfire_cmac` uses. The calls of `desfire.h` and
`leaf.h` once more, with a log of the CMACs (the key in the slot, and the key the call is meant to
use) and of the states in which calls return. Without the log each is its model; the log shows the
right key at every CMAC.
-/

namespace LeafReader

variable {σ : Type} (aes : Aes) (nfc : Nfc σ)

/-- An authenticated session has its MAC key in the slot. -/
def Host.SlotLive (h : Host) : Prop := h.session.authenticated = true → h.macKey = h.session.kSesAuthMac

inductive KeyEvent
  -- `desfire_cmac` is called with the key `slot` in the slot, where `wanted` is to be used
  | cmac (slot wanted : Block)
  -- a call returns
  | ret (h : Host)

def KeyEvent.Right : KeyEvent → Prop
  | .cmac slot wanted => slot = wanted
  | .ret h => h.SlotLive

abbrev KeyLog := Logged KeyEvent Fault

/-- `desfire_cmac` with the key in the slot, which is the key that is logged. -/
def desfireCmacLogged (h : Host) (wanted : Block) (msg : Bytes) : KeyLog Block := do
  let slot := h.macKey
  Logged.log (.cmac slot wanted)
  return desfireCmac aes slot msg

/-! ### CMACs under a key that is an argument -/

def cmacWithKeyLogged (key : Block) (msg : Bytes) (h : Host) : KeyLog (Block × Host) := do
  let saved := h.macKey
  let h := { h with macKey := key }
  let out ← desfireCmacLogged aes h key msg
  return (out, { h with macKey := saved })

def deriveSessionKeysLogged (kMaster rndA rndB : Block) (h : Host) : KeyLog ((Block × Block) × Host) := do
  let (kEnc, h) ← cmacWithKeyLogged aes kMaster (sessionVector 0xA5 0x5A rndA rndB) h
  let (kMac, h) ← cmacWithKeyLogged aes kMaster (sessionVector 0x5A 0xA5 rndA rndB) h
  return ((kEnc, kMac), h)

def captureSessionLogged (keyNo : UInt8) (key rndA rndB : Block) (plain : Bytes) (w : World σ) :
    KeyLog (World σ) := do
  let ((kEnc, kMac), h) ← deriveSessionKeysLogged aes key rndA rndB w.host
  return { w with
    host :=
      { h with
        session :=
          { keyNo := keyNo
            ti := Vector.ofFn fun i => plain.getD i 0
            kSesAuthEnc := kEnc
            kSesAuthMac := kMac
            cmdCtr := 0
            authenticated := true }
        macKey := kMac } }

def desfireAuthEv2FirstLogged (keyNo : UInt8) (key rndA : Block) (w : World σ) :
    KeyLog (Call σ EspErr) := do
  let x1 := desfireXfer nfc 0x71 [keyNo, 0x00, 0x00] (.buf 64) 64 w
  if x1.ret ≠ some 0xAF ∨ x1.out.bytes.length ≠ 16 then return ⟨.fail, .null, x1.world⟩
  let eRndB := Block.ofBytes x1.out.bytes
  let rndB := Block.ofBytes (desfireAesCbcDecrypt aes key .zero eRndB.toList)
  let encrypted := authChallenge aes key rndA eRndB rndB
  let x2 := desfireXfer nfc 0xAF encrypted x1.out 64 x1.world
  if x2.ret ≠ some 0x00 ∨ x2.out.bytes.length ≠ 32 then return ⟨.fail, .null, x2.world⟩
  let iv3 := Block.ofBytes (encrypted.drop 16)
  let plain := desfireAesCbcDecrypt aes key iv3 x2.out.bytes
  if (plain.drop 4).take 16 ≠ (rotateLeft1 rndA).toList then return ⟨.fail, .null, x2.world⟩
  let w ← captureSessionLogged aes keyNo key rndA rndB plain x2.world
  return ⟨.ok, .null, w⟩

/-! ### CMACs of a session -/

/-- `cmac_session`, and the CMACs of `cmac_append_and_send`. -/
def cmacSessionLogged (h : Host) (msg : Bytes) : KeyLog Bytes := do
  let full ← desfireCmacLogged aes h h.session.kSesAuthMac msg
  return macTruncate full

def cmacVerifyLogged (st : UInt8) (out : Out) (w : World σ) : KeyLog (Call σ EspErr) :=
  match out.respLen with
  | none => pure ⟨.ok, out, w⟩
  | some n =>
    if n < 8 then pure ⟨.ok, out, w⟩
    else
      match out.resp with
      | none => Logged.lift (.error .nullDeref)
      | some resp => do
        let rd := n - 8
        let verify ← Logged.lift (fill 256 (macHead st w.host.session ++ resp.take rd))
        let want ← cmacSessionLogged aes w.host verify
        if (resp.drop rd).take 8 ≠ want then return ⟨.invalidCrc, out, w⟩
        return ⟨.ok, { out with respLen := some rd }, w⟩

def cmacFinishLogged (x : Call σ (Option UInt8)) : KeyLog (Call σ EspErr) :=
  match x.ret with
  | none => pure ⟨.fail, x.out, x.world⟩
  | some st =>
    if st ≠ 0x00 ∧ st ≠ 0xAF then pure ⟨.fail, x.out, x.world⟩
    else cmacVerifyLogged aes st x.out x.world.bumpCtr

def cmacAppendAndSendLogged (cmd : UInt8) (header data : Bytes) (out : Out)
    (respBuf : Nat) (w : World σ) :
    KeyLog (Call σ EspErr) := do
  if sizeT (header.length + data.length) > 256 then return ⟨.invalidSize, out, w⟩
  let macbuf ← Logged.lift (fill 263 (macHead cmd w.host.session ++ header ++ data))
  let mac8 ← cmacSessionLogged aes w.host macbuf
  let params ← Logged.lift (fill 256 (header ++ data ++ mac8))
  cmacFinishLogged aes (desfireXfer nfc cmd params out respBuf w)

def encSendFinishLogged (out : Out) (rx : Bytes) (w : World σ) : KeyLog (Call σ (Option UInt8)) :=
  let w := w.bumpCtr
  if rx.length ≥ 8 then
    let rd := rx.length - 8
    if 7 + rd > 263 then pure ⟨none, out, w⟩
    else do
      let want ← cmacSessionLogged aes w.host (macHead 0x00 w.host.session ++ rx.take rd)
      if (rx.drop rd).take 8 ≠ want then return ⟨none, out, w⟩
      match out.resp with
      | some r =>
        if rd ≤ r.length then return ⟨some 0x00, out.put (rx.take rd), w⟩
        else Logged.lift (.error .overrun)
      | none => return ⟨some 0x00, out.put (rx.take rd), w⟩
  else pure ⟨some 0x00, { out with respLen := out.respLen.map fun _ => 0 }, w⟩

def desfireEncSendLogged (cmd : UInt8) (header data : Bytes) (out : Out) (w : World σ) :
    KeyLog (Call σ (Option UInt8)) := do
  let s := w.host.session
  if !s.authenticated then return ⟨none, out, w⟩
  let plain ← Logged.lift (encSendPlain cmd header data)
  if plain.length = 0 then return ⟨none, out, w⟩
  let iv := desfireEncIv aes s 0xA5 0x5A
  let cipher := desfireAesCbcEncrypt aes s.kSesAuthEnc iv plain
  if 7 + header.length + cipher.length > 263 then return ⟨none, out, w⟩
  let mac8 ← cmacSessionLogged aes w.host (macHead cmd s ++ header ++ cipher)
  if header.length + cipher.length + 8 > 256 then return ⟨none, out, w⟩
  let x := desfireXfer nfc cmd (header ++ cipher ++ mac8) (.buf 64) 64 w
  match x.ret with
  | none => return ⟨none, out, x.world⟩
  | some st =>
    if st ≠ 0x00 then return ⟨some st, out, x.world⟩
    encSendFinishLogged aes out x.out.bytes x.world

def encRecvFinishLogged (payloadLen : Nat) (out : Out) (rx : Bytes) (w : World σ) :
    KeyLog (Call σ (Option UInt8)) :=
  if rx.length < 8 then pure ⟨none, out, w⟩
  else
    let w := w.bumpCtr
    let s := w.host.session
    let cipherLen := rx.length - 8
    if 7 + cipherLen > 287 then pure ⟨none, out, w⟩
    else do
      let cipher := rx.take cipherLen
      let want ← cmacSessionLogged aes w.host (macHead 0x00 s ++ cipher)
      if (rx.drop cipherLen).take 8 ≠ want then return ⟨none, out, w⟩
      let iv := desfireEncIv aes s 0x5A 0xA5
      if cipherLen % 16 ≠ 0 then return ⟨none, out, w⟩
      if cipherLen > 280 then return ⟨none, out, w⟩
      let plain := desfireAesCbcDecrypt aes s.kSesAuthEnc iv cipher
      if cipherLen < sizeT (payloadLen + 4) then return ⟨none, out, w⟩
      if sizeT (1 + payloadLen) > 257 then return ⟨none, out, w⟩
      if 1 + payloadLen > 257 then Logged.lift (.error .overrun)
      let payload := plain.take payloadLen
      if desfireCrc32 ([0x00] ++ payload) ≠ ofLe32 (plain.drop payloadLen) then return ⟨none, out, w⟩
      return ⟨some 0x00, out.put payload, w⟩

def desfireEncRecvLogged (cmd : UInt8) (header : Bytes) (payloadLen : Nat) (out : Out) (respBuf : Nat)
    (w : World σ) : KeyLog (Call σ (Option UInt8)) := do
  let s := w.host.session
  if !s.authenticated then return ⟨none, out, w⟩
  if payloadLen > respBuf then return ⟨none, out, w⟩
  if sizeT (7 + header.length) > 71 then return ⟨none, out, w⟩
  let macbuf ← Logged.lift (fill 71 (macHead cmd s ++ header))
  let mac8 ← cmacSessionLogged aes w.host macbuf
  if sizeT (header.length + 8) > 72 then return ⟨none, out, w⟩
  let params ← Logged.lift (fill 72 (header ++ mac8))
  let x := desfireXfer nfc cmd params (.buf 280) 280 w
  match x.ret with
  | none => return ⟨none, out, x.world⟩
  | some st =>
    if st ≠ 0x00 then return ⟨some st, out, x.world⟩
    encRecvFinishLogged aes payloadLen out x.out.bytes x.world

def changeKeyFinishLogged (rx : Bytes) (w : World σ) : KeyLog (Call σ EspErr) :=
  let w := w.bumpCtr
  if rx.length ≥ 8 then do
    let rd := rx.length - 8
    let want ← cmacSessionLogged aes w.host (macHead 0x00 w.host.session ++ rx.take rd)
    if (rx.drop rd).take 8 ≠ want then return ⟨.invalidCrc, .null, w⟩
    return ⟨.ok, .null, w⟩
  else pure ⟨.ok, .null, w⟩

def desfireChangeKeyLogged (keyNo : UInt8) (oldKey newKey : Block) (keyVersion : UInt8) (w : World σ) :
    KeyLog (Call σ EspErr) := do
  let s := w.host.session
  if !s.authenticated then return ⟨.invalidState, .null, w⟩
  let sameKey := keyNo == s.keyNo
  let plain := changeKeyPlain sameKey keyNo oldKey newKey keyVersion
  if plain.length = 0 then return ⟨.invalidSize, .null, w⟩
  let iv := desfireEncIv aes s 0xA5 0x5A
  let cipher := desfireAesCbcEncrypt aes s.kSesAuthEnc iv plain
  let mac8 ← cmacSessionLogged aes w.host (macHead 0xC4 s ++ [keyNo] ++ cipher)
  let x := desfireXfer nfc 0xC4 ([keyNo] ++ cipher ++ mac8) (.buf 16) 16 w
  if x.ret ≠ some 0x00 then return ⟨.fail, .null, x.world⟩
  if sameKey then
    return ⟨.ok, .null, x.world.setSession { x.world.host.session with authenticated := false }⟩
  changeKeyFinishLogged aes x.out.bytes x.world

/-! ### Operations -/

def desfireGetUidLogged (uid : Bytes) (w : World σ) : KeyLog (Call σ EspErr) := do
  if !w.host.session.authenticated then return ⟨.invalidState, ⟨some uid, none⟩, w⟩
  let c ← desfireEncRecvLogged aes nfc 0x51 [] 7 (.buf 7) 7 w
  if c.ret ≠ some 0x00 ∨ c.out.bytes.length ≠ 7 then return ⟨.fail, ⟨some uid, none⟩, c.world⟩
  return ⟨.ok, .put ⟨some uid, none⟩ c.out.bytes, c.world⟩

def desfireFormatPiccLogged (w : World σ) : KeyLog (Call σ EspErr) := do
  if !w.host.session.authenticated then return ⟨.invalidState, .null, w⟩
  cmacAppendAndSendLogged aes nfc 0xFC [] [] .null 0 w

def desfireCreateApplicationLogged (aid : Aid) (keySettings numKeysAndFlags : UInt8) (w : World σ) :
    KeyLog (Call σ EspErr) :=
  let hdr := aid.toList ++ [keySettings, numKeysAndFlags]
  if w.host.session.authenticated then cmacAppendAndSendLogged aes nfc 0xCA hdr [] .null 0 w
  else pure (ofStatus (desfireXfer nfc 0xCA hdr .null 0 w))

def desfireCreateStdDataFileLogged (fileNo : UInt8) (comm : CommMode) (accessRights : UInt16)
    (fileSize : UInt32) (w : World σ) : KeyLog (Call σ EspErr) := do
  let hdr := [fileNo, comm.toByte] ++ le16 accessRights ++ le24 fileSize
  if !w.host.session.authenticated then return ⟨.invalidState, .null, w⟩
  cmacAppendAndSendLogged aes nfc 0xCD hdr [] .null 0 w

def desfireReadDataLogged (fileNo : UInt8) (offset length : UInt32) (comm : CommMode) (out : Out)
    (outBuf : Nat) (w : World σ) : KeyLog (Call σ EspErr) :=
  let hdr := fileHeader fileNo offset length
  match comm with
  | .plain => pure (ofStatus (desfireXfer nfc 0xBD hdr out outBuf w))
  | .cmac => do
    if !w.host.session.authenticated then return ⟨.invalidState, out, w⟩
    cmacAppendAndSendLogged aes nfc 0xBD hdr [] out outBuf w
  | .encrypted => do
    if !w.host.session.authenticated then return ⟨.invalidState, out, w⟩
    if length = 0 ∨ length.toNat > outBuf then return ⟨.invalidSize, out, w⟩
    let c ← desfireEncRecvLogged aes nfc 0xBD hdr length.toNat out outBuf w
    return ofStatus c

def desfireWriteDataLogged (fileNo : UInt8) (offset : UInt32) (comm : CommMode) (data : Bytes)
    (w : World σ) : KeyLog (Call σ EspErr) :=
  let hdr := fileHeader fileNo offset data.length.toUInt32
  match comm with
  | .plain => do
    if sizeT (hdr.length + data.length) > 256 then return ⟨.invalidSize, .null, w⟩
    let buf ← Logged.lift (fill 256 (hdr ++ data))
    return ofStatus (desfireXfer nfc 0x3D buf .null 0 w)
  | .cmac => do
    if !w.host.session.authenticated then return ⟨.invalidState, .null, w⟩
    cmacAppendAndSendLogged aes nfc 0x3D hdr data .null 0 w
  | .encrypted => do
    if !w.host.session.authenticated then return ⟨.invalidState, .null, w⟩
    let c ← desfireEncSendLogged aes nfc 0x3D hdr data .null w
    return ofStatus c

def Op.logged (w : World σ) : Op → KeyLog (Call σ EspErr)
  | .selectApplication aid => pure (desfireSelectApplication nfc aid w)
  | .authEv2First keyNo key rndA => desfireAuthEv2FirstLogged aes nfc keyNo key rndA w
  | .formatPicc => desfireFormatPiccLogged aes nfc w
  | .createApplication aid ks nk => desfireCreateApplicationLogged aes nfc aid ks nk w
  | .createStdDataFile fileNo comm rights size =>
    desfireCreateStdDataFileLogged aes nfc fileNo comm rights size w
  | .changeKey keyNo old new ver => desfireChangeKeyLogged aes nfc keyNo old new ver w
  | .readData fileNo offset length comm out outBuf =>
    desfireReadDataLogged aes nfc fileNo offset length comm out outBuf w
  | .writeData fileNo offset comm data => desfireWriteDataLogged aes nfc fileNo offset comm data w
  | .getUid uid => desfireGetUidLogged aes nfc uid w

/-- An operation, with the state in which it returns. -/
def Op.runLogged (op : Op) (w : World σ) : KeyLog (Call σ EspErr) := do
  let c ← op.logged aes nfc w
  Logged.log (.ret c.world.host)
  return c

/-! ### `leaf.h` -/

/-- `cmac_with_key` as `leaf_diversify_key` and `leaf_payload_mac` do it, with the state in which they
return. -/
def leafDiversifyKeyLogged (siteKey : Block) (uid : Bytes) (h : Host) : KeyLog (Block × Host) := do
  let (k, h) ← cmacWithKeyLogged aes siteKey (diversifyInput 0x01 uid) h
  Logged.log (.ret h)
  return (k, h)

def leafPayloadMacLogged (divKey : Block) (payload : Bytes) (h : Host) : KeyLog (Bytes × Host) := do
  let (full, h) ← cmacWithKeyLogged aes divKey (payload.take 10) h
  Logged.log (.ret h)
  return (macTruncate full, h)

def leafReadLogged (site : Option Block) (uid : Bytes) (rndA : Block)
    (mem : Vector UInt8 32) (w : World σ) :
    KeyLog (ReadCall σ) :=
  match leafGetSiteKey site with
  | .error _ => pure ⟨.invalidState, none, w⟩
  | .ok site => do
    let (kDiv, host) ← leafDiversifyKeyLogged aes site uid w.host
    let c ← Op.runLogged aes nfc (.selectApplication leafAid) { w with host := host }
    if c.ret ≠ .ok then return ⟨.fail, none, c.world⟩
    let c ← Op.runLogged aes nfc (.authEv2First 1 kDiv rndA) c.world
    if c.ret ≠ .ok then return ⟨.fail, none, c.world⟩
    let c ← Op.runLogged aes nfc
      (.readData leafFileNo 0 leafFileSize .cmac ⟨some mem.toList, some 0⟩ 32) c.world
    if c.ret ≠ .ok ∨ c.out.respLen ≠ some 32 then return ⟨.fail, none, c.world⟩
    let buf := c.out.bytes
    let (want, host) ← leafPayloadMacLogged aes kDiv buf c.world.host
    let w := { c.world with host := host }
    if (buf.drop 10).take 8 ≠ want then return ⟨.invalidCrc, none, w⟩
    return ⟨.ok, some (leafUnpackCredential buf), w⟩

def leafPersonalizeLogged (site : Option Block) (uid : Bytes) (cred : Credential)
    (rndA1 rndA2 rndA3 : Block) (mem : Vector UInt8 32) (w : World σ) : KeyLog (Call σ EspErr) :=
  match leafGetSiteKey site with
  | .error _ => pure ⟨.invalidState, .null, w⟩
  | .ok site => do
    let (kDiv, host) ← leafDiversifyKeyLogged aes site uid w.host
    let c ← Op.runLogged aes nfc (.selectApplication piccAid) { w with host := host }
    if c.ret ≠ .ok then return ⟨.fail, .null, c.world⟩
    let c ← Op.runLogged aes nfc (.authEv2First 0 defaultKey rndA1) c.world
    if c.ret ≠ .ok then return ⟨.fail, .null, c.world⟩
    let c ← Op.runLogged aes nfc .formatPicc c.world
    let c ← Op.runLogged aes nfc (.createApplication leafAid 0x0F 0x82) c.world
    if c.ret ≠ .ok then return ⟨.fail, .null, c.world⟩
    let c ← Op.runLogged aes nfc (.selectApplication leafAid) c.world
    if c.ret ≠ .ok then return ⟨.fail, .null, c.world⟩
    let c ← Op.runLogged aes nfc (.authEv2First 0 defaultKey rndA2) c.world
    if c.ret ≠ .ok then return ⟨.fail, .null, c.world⟩
    let c ← Op.runLogged aes nfc (.createStdDataFile leafFileNo .cmac 0x1000 leafFileSize) c.world
    if c.ret ≠ .ok then return ⟨.fail, .null, c.world⟩
    let (kDivMaster, host) ← cmacWithKeyLogged aes site (diversifyInput 0x02 uid) c.world.host
    let c ← Op.runLogged aes nfc (.changeKey 1 defaultKey kDiv 0x01) { c.world with host := host }
    if c.ret ≠ .ok then return ⟨.fail, .null, c.world⟩
    let c ← Op.runLogged aes nfc (.changeKey 0 defaultKey kDivMaster 0x01) c.world
    if c.ret ≠ .ok then return ⟨.fail, .null, c.world⟩
    let c ← Op.runLogged aes nfc (.authEv2First 0 kDivMaster rndA3) c.world
    if c.ret ≠ .ok then return ⟨.fail, .null, c.world⟩
    let packed := leafPackCredential cred
    let (mac8, host) ← leafPayloadMacLogged aes kDiv packed c.world.host
    let payload := packed ++ mac8 ++ mem.toList.drop 18
    Op.runLogged aes nfc (.writeData leafFileNo 0 .cmac payload) { c.world with host := host }

/-! ### Runs -/

/-- A call of the task, with the arguments it passes, what it finds in NVS and the random numbers
drawn. -/
inductive TaskCall
  | init
  | operation (op : Op)
  | diversifyKey (siteKey : Block) (uid : Bytes)
  | payloadMac (divKey : Block) (payload : Bytes)
  | read (site : Option Block) (uid : Bytes) (rndA : Block) (mem : Vector UInt8 32)
  | personalize (site : Option Block) (uid : Bytes) (cred : Credential) (rndA1 rndA2 rndA3 : Block)
    (mem : Vector UInt8 32)

/-- The world in which the call returns; `desfire_init` clears the session alone. -/
def TaskCall.run (w : World σ) : TaskCall → Except Fault (World σ)
  | .init => .ok (w.setSession desfireInit.session)
  | .operation o => (o.run aes nfc w).map (·.world)
  | .diversifyKey siteKey uid => .ok { w with host := (leafDiversifyKey aes siteKey uid w.host).2 }
  | .payloadMac divKey payload => .ok { w with host := (leafPayloadMac aes divKey payload w.host).2 }
  | .read site uid rndA mem => (leafRead aes nfc site uid rndA mem w).map (·.world)
  | .personalize site uid cred rndA1 rndA2 rndA3 mem =>
    (leafPersonalize aes nfc site uid cred rndA1 rndA2 rndA3 mem w).map (·.world)

def TaskCall.logged (w : World σ) : TaskCall → KeyLog (World σ)
  | .init => pure (w.setSession desfireInit.session)
  | .operation o => do
    let c ← o.runLogged aes nfc w
    return c.world
  | .diversifyKey siteKey uid => do
    let (_, h) ← leafDiversifyKeyLogged aes siteKey uid w.host
    return { w with host := h }
  | .payloadMac divKey payload => do
    let (_, h) ← leafPayloadMacLogged aes divKey payload w.host
    return { w with host := h }
  | .read site uid rndA mem => do
    let c ← leafReadLogged aes nfc site uid rndA mem w
    return c.world
  | .personalize site uid cred rndA1 rndA2 rndA3 mem => do
    let c ← leafPersonalizeLogged aes nfc site uid cred rndA1 rndA2 rndA3 mem w
    return c.world

def runCalls (cs : List TaskCall) (w : World σ) : Except Fault (World σ) :=
  cs.foldlM (fun w c => c.run aes nfc w) w

def runCallsLogged : List TaskCall → World σ → KeyLog (World σ)
  | [], w => pure w
  | c :: cs, w => do
    let w ← c.logged aes nfc w
    Logged.log (.ret w.host)
    runCallsLogged cs w

/-! ### Without the log -/

@[simp] theorem val_cmacWithKeyLogged (key : Block) (msg : Bytes) (h : Host) :
    (cmacWithKeyLogged aes key msg h).val = pure (cmacWithKey aes key msg h) := rfl

@[simp] theorem val_deriveSessionKeysLogged (kMaster rndA rndB : Block) (h : Host) :
    (deriveSessionKeysLogged aes kMaster rndA rndB h).val =
      pure (deriveSessionKeys aes kMaster rndA rndB h) :=
  rfl

@[simp] theorem val_captureSessionLogged (keyNo : UInt8) (key rndA rndB : Block) (plain : Bytes)
    (w : World σ) : (captureSessionLogged aes keyNo key rndA rndB plain w).val =
      pure (captureSession aes keyNo key rndA rndB plain w) := rfl

@[simp] theorem val_desfireAuthEv2FirstLogged (keyNo : UInt8) (key rndA : Block) (w : World σ) :
    (desfireAuthEv2FirstLogged aes nfc keyNo key rndA w).val =
      pure (desfireAuthEv2First aes nfc keyNo key rndA w) := by
  unfold desfireAuthEv2FirstLogged desfireAuthEv2First
  simp only [Logged.val_ite, Logged.val_pure, Logged.val_bind, val_captureSessionLogged, pure_bind,
    ← apply_ite]

@[simp] theorem val_cmacSessionLogged (h : Host) (msg : Bytes) :
    (cmacSessionLogged aes h msg).val = pure (cmacSession aes h msg) := rfl

@[simp] theorem val_cmacVerifyLogged (st : UInt8) (out : Out) (w : World σ) :
    (cmacVerifyLogged aes st out w).val = cmacVerify aes st out w := by
  unfold cmacVerifyLogged cmacVerify
  cases out.respLen with
  | none => rfl
  | some n =>
    simp only [Logged.val_ite]
    cases out.resp with
    | none => rfl
    | some resp =>
      simp only [Logged.val_bind, Logged.val_lift, val_cmacSessionLogged, pure_bind, Logged.val_ite,
        Logged.val_pure]
      rfl

@[simp] theorem val_cmacFinishLogged (x : Call σ (Option UInt8)) :
    (cmacFinishLogged aes x).val = cmacFinish aes x := by
  unfold cmacFinishLogged cmacFinish
  cases x.ret with
  | none => rfl
  | some st =>
    simp only [Logged.val_ite, val_cmacVerifyLogged]
    rfl

@[simp] theorem val_cmacAppendAndSendLogged (cmd : UInt8) (header data : Bytes)
  (out : Out) (respBuf : Nat)
    (w : World σ) : (cmacAppendAndSendLogged aes nfc cmd header data out respBuf w).val =
      cmacAppendAndSend aes nfc cmd header data out respBuf w := by
  unfold cmacAppendAndSendLogged cmacAppendAndSend
  simp only [Logged.val_ite, Logged.val_bind, Logged.val_lift, Logged.val_pure, val_cmacSessionLogged,
    pure_bind, val_cmacFinishLogged]

@[simp] theorem val_encSendFinishLogged (out : Out) (rx : Bytes) (w : World σ) :
    (encSendFinishLogged aes out rx w).val = encSendFinish aes out rx w := by
  unfold encSendFinishLogged encSendFinish
  cases out.resp with
  | none =>
    simp only [Logged.val_ite, Logged.val_bind, Logged.val_pure, val_cmacSessionLogged, pure_bind]
    rfl
  | some r =>
    simp only [Logged.val_ite, Logged.val_bind, Logged.val_lift, Logged.val_pure, val_cmacSessionLogged,
      pure_bind]
    rfl

@[simp] theorem val_desfireEncSendLogged (cmd : UInt8) (header data : Bytes) (out : Out) (w : World σ) :
    (desfireEncSendLogged aes nfc cmd header data out w).val =
      desfireEncSend aes nfc cmd header data out w := by
  unfold desfireEncSendLogged desfireEncSend
  simp only [Logged.val_ite, Logged.val_bind, Logged.val_lift, Logged.val_pure, val_cmacSessionLogged,
    pure_bind]
  congr 1
  congr 1
  funext plain
  generalize desfireXfer nfc cmd _ (.buf 64) 64 w = x
  cases x.ret with
  | none => rfl
  | some st => simp only [Logged.val_ite, Logged.val_pure, val_encSendFinishLogged]

@[simp] theorem val_encRecvFinishLogged (payloadLen : Nat) (out : Out) (rx : Bytes) (w : World σ) :
    (encRecvFinishLogged aes payloadLen out rx w).val = encRecvFinish aes payloadLen out rx w := by
  unfold encRecvFinishLogged encRecvFinish
  simp only [Logged.val_ite, Logged.val_bind, Logged.val_lift, Logged.val_pure, val_cmacSessionLogged,
    pure_bind]
  rfl

@[simp] theorem val_desfireEncRecvLogged (cmd : UInt8) (header : Bytes) (payloadLen : Nat) (out : Out)
    (respBuf : Nat) (w : World σ) :
    (desfireEncRecvLogged aes nfc cmd header payloadLen out respBuf w).val =
      desfireEncRecv aes nfc cmd header payloadLen out respBuf w := by
  unfold desfireEncRecvLogged desfireEncRecv
  simp only [Logged.val_ite, Logged.val_bind, Logged.val_lift, Logged.val_pure, val_cmacSessionLogged,
    pure_bind]
  congr 1
  congr 1
  congr 1
  congr 1
  funext macbuf
  congr 1
  congr 1
  funext params
  generalize desfireXfer nfc cmd params (.buf 280) 280 w = x
  cases x.ret with
  | none => rfl
  | some st => simp only [Logged.val_ite, Logged.val_pure, val_encRecvFinishLogged]

@[simp] theorem val_changeKeyFinishLogged (rx : Bytes) (w : World σ) :
    (changeKeyFinishLogged aes rx w).val = pure (changeKeyFinish aes rx w) := by
  unfold changeKeyFinishLogged changeKeyFinish
  simp only [Logged.val_ite, Logged.val_bind, Logged.val_pure, val_cmacSessionLogged,
    pure_bind, ← apply_ite]

@[simp] theorem val_desfireChangeKeyLogged (keyNo : UInt8) (oldKey newKey : Block) (keyVersion : UInt8)
    (w : World σ) : (desfireChangeKeyLogged aes nfc keyNo oldKey newKey keyVersion w).val =
      pure (desfireChangeKey aes nfc keyNo oldKey newKey keyVersion w) := by
  unfold desfireChangeKeyLogged desfireChangeKey
  simp only [Logged.val_ite, Logged.val_bind, Logged.val_pure, val_cmacSessionLogged, pure_bind,
    val_changeKeyFinishLogged, ← apply_ite]

@[simp] theorem val_desfireGetUidLogged (uid : Bytes) (w : World σ) :
    (desfireGetUidLogged aes nfc uid w).val = desfireGetUid aes nfc uid w := by
  unfold desfireGetUidLogged desfireGetUid
  simp only [Logged.val_ite, Logged.val_bind, Logged.val_pure, val_desfireEncRecvLogged]

@[simp] theorem val_opLogged (op : Op) (w : World σ) : (op.logged aes nfc w).val = op.run aes nfc w := by
  cases op with
  | selectApplication aid => rfl
  | authEv2First keyNo key rndA => exact val_desfireAuthEv2FirstLogged aes nfc keyNo key rndA w
  | getUid uid => exact val_desfireGetUidLogged aes nfc uid w
  | changeKey keyNo old new ver => exact val_desfireChangeKeyLogged aes nfc keyNo old new ver w
  | formatPicc =>
    simp only [Op.logged, Op.run, desfireFormatPiccLogged, desfireFormatPicc,
      Logged.val_ite, Logged.val_pure, val_cmacAppendAndSendLogged]
    rfl
  | createApplication aid ks nk =>
    simp only [Op.logged, Op.run, desfireCreateApplicationLogged,
      desfireCreateApplication, Logged.val_ite, Logged.val_pure, val_cmacAppendAndSendLogged]
    rfl
  | createStdDataFile fileNo comm rights size =>
    simp only [Op.logged, Op.run, desfireCreateStdDataFileLogged,
      desfireCreateStdDataFile, Logged.val_ite, Logged.val_pure, val_cmacAppendAndSendLogged]
    rfl
  | readData fileNo offset length comm out outBuf =>
    cases comm with
    | plain => rfl
    | cmac =>
      simp only [Op.logged, Op.run, desfireReadDataLogged, desfireReadData,
        Logged.val_ite, Logged.val_pure, val_cmacAppendAndSendLogged]
      rfl
    | encrypted =>
      simp only [Op.logged, Op.run, desfireReadDataLogged, desfireReadData,
        Logged.val_ite, Logged.val_pure, Logged.val_bind, val_desfireEncRecvLogged]
  | writeData fileNo offset comm data =>
    cases comm with
    | plain | encrypted =>
      simp only [Op.logged, Op.run, desfireWriteDataLogged, desfireWriteData,
        Logged.val_ite, Logged.val_pure, Logged.val_bind, Logged.val_lift, val_desfireEncSendLogged]
    | cmac =>
      simp only [Op.logged, Op.run, desfireWriteDataLogged, desfireWriteData,
        Logged.val_ite, Logged.val_pure, val_cmacAppendAndSendLogged]
      rfl

@[simp] theorem val_runLogged (op : Op) (w : World σ) :
    (op.runLogged aes nfc w).val = op.run aes nfc w := by
  unfold Op.runLogged
  simp only [Logged.val_bind, val_opLogged, Logged.val_log, Logged.val_pure, pure_bind, bind_pure]

@[simp] theorem val_leafDiversifyKeyLogged (siteKey : Block) (uid : Bytes) (h : Host) :
    (leafDiversifyKeyLogged aes siteKey uid h).val = pure (leafDiversifyKey aes siteKey uid h) := rfl

@[simp] theorem val_leafPayloadMacLogged (divKey : Block) (payload : Bytes) (h : Host) :
    (leafPayloadMacLogged aes divKey payload h).val = pure (leafPayloadMac aes divKey payload h) := rfl

@[simp] theorem val_leafReadLogged (site : Option Block) (uid : Bytes)
  (rndA : Block) (mem : Vector UInt8 32)
    (w : World σ) :
    (leafReadLogged aes nfc site uid rndA mem w).val = leafRead aes nfc site uid rndA mem w := by
  unfold leafReadLogged leafRead
  cases site with
  | none => rfl
  | some site =>
    simp only [leafGetSiteKey, Logged.val_bind, val_leafDiversifyKeyLogged, val_leafPayloadMacLogged,
      val_runLogged, Logged.val_ite, Logged.val_pure, pure_bind, Op.run]
    rfl

@[simp] theorem val_leafPersonalizeLogged (site : Option Block) (uid : Bytes) (cred : Credential)
    (rndA1 rndA2 rndA3 : Block) (mem : Vector UInt8 32) (w : World σ) :
    (leafPersonalizeLogged aes nfc site uid cred rndA1 rndA2 rndA3 mem w).val =
      leafPersonalize aes nfc site uid cred rndA1 rndA2 rndA3 mem w := by
  unfold leafPersonalizeLogged leafPersonalize
  cases site with
  | none => rfl
  | some site =>
    simp only [leafGetSiteKey, Logged.val_bind, val_leafDiversifyKeyLogged, val_leafPayloadMacLogged,
      val_cmacWithKeyLogged, val_runLogged, Logged.val_ite, Logged.val_pure, pure_bind, Op.run]
    rfl

/-- The log changes nothing. -/
theorem val_runCallsLogged (cs : List TaskCall) (w : World σ) :
    (runCallsLogged aes nfc cs w).val = runCalls aes nfc cs w := by
  induction cs generalizing w with
  | nil => rfl
  | cons c cs ih =>
    have hc : (c.logged aes nfc w).val = c.run aes nfc w := by
      cases c with
      | init | diversifyKey _ _ | payloadMac _ _ => rfl
      | operation o =>
        simp only [TaskCall.logged, TaskCall.run, Logged.val_bind, val_runLogged, Logged.val_pure]
        rfl
      | read site uid rndA mem =>
        simp only [TaskCall.logged, TaskCall.run, Logged.val_bind, val_leafReadLogged, Logged.val_pure]
        rfl
      | personalize site uid cred rndA1 rndA2 rndA3 mem =>
        simp only [TaskCall.logged, TaskCall.run, Logged.val_bind,
          val_leafPersonalizeLogged, Logged.val_pure]
        rfl
    simp only [runCallsLogged, runCalls, List.foldlM_cons, Logged.val_bind,
      hc, Logged.val_log, pure_bind, ih]

/-! ### The right key at every CMAC -/

/-- The MAC key of the session is in the slot. -/
def Host.Keyed (h : Host) : Prop := h.macKey = h.session.kSesAuthMac

theorem Host.Keyed.live {h : Host} (hk : h.Keyed) : h.SlotLive := fun _ => hk

theorem Host.SlotLive.keyed {h : Host} (hl : h.SlotLive) (ha : ¬ (!h.session.authenticated) = true) :
    h.Keyed :=
  hl (by simpa using ha)

/-- The log of a call is right, and `Q` holds where it returns. -/
abbrev Sound {α : Type} (Q : α → Prop) (x : KeyLog α) : Prop := x.Sat KeyEvent.Right Q

variable {aes nfc} {w : World σ}

/-- What keeps the key of the session in the slot keeps the slot live. -/
theorem sound_live {α : Type} {x : KeyLog (Call σ α)} (h : Sound (fun c => c.world.host.Keyed) x) :
    Sound (fun c => c.world.host.SlotLive) x :=
  h.mono fun _ hc => hc.live

theorem desfireCmac_sound {h : Host} {wanted : Block} {msg : Bytes} (hk : h.macKey = wanted) :
    Sound (fun _ => True) (desfireCmacLogged aes h wanted msg) :=
  .bind (.log hk) fun _ _ => .pure trivial

theorem cmacWithKey_sound {key : Block} {msg : Bytes} {h : Host} :
    Sound (fun r => r.2 = h) (cmacWithKeyLogged aes key msg h) :=
  .bind (desfireCmac_sound rfl) fun _ _ => .pure rfl

theorem deriveSessionKeys_sound {kMaster rndA rndB : Block} {h : Host} :
    Sound (fun r => r.2 = h) (deriveSessionKeysLogged aes kMaster rndA rndB h) :=
  .bind cmacWithKey_sound fun _ h₁ => .bind cmacWithKey_sound fun _ h₂ => .pure (h₂.trans h₁)

/-- An exchange touches neither the session nor the slot. -/
theorem desfireXfer_keys (cmd : UInt8) (params : Bytes) (out : Out) (respBuf : Nat) (w : World σ) :
    (desfireXfer nfc cmd params out respBuf w).world.host.session = w.host.session ∧
      (desfireXfer nfc cmd params out respBuf w).world.host.macKey = w.host.macKey := by
  by_cases h : params.length ≤ 255
  · rw [desfireXfer_eq nfc cmd out respBuf w h]
    exact ⟨receive_session .., receive_macKey ..⟩
  · rw [desfireXfer_of_lt nfc cmd out respBuf w (by omega)]
    exact ⟨rfl, rfl⟩

theorem desfireXfer_keyed {cmd : UInt8} {params : Bytes} {out : Out} {respBuf : Nat} (hk : w.host.Keyed) :
    (desfireXfer nfc cmd params out respBuf w).world.host.Keyed := by
  obtain ⟨hs, hm⟩ := @desfireXfer_keys σ nfc cmd params out respBuf w
  unfold Host.Keyed
  rw [hs, hm]
  exact hk

theorem desfireXfer_live {cmd : UInt8} {params : Bytes} {out : Out}
    {respBuf : Nat} (hl : w.host.SlotLive) :
    (desfireXfer nfc cmd params out respBuf w).world.host.SlotLive := by
  obtain ⟨hs, hm⟩ := @desfireXfer_keys σ nfc cmd params out respBuf w
  unfold Host.SlotLive
  rw [hs, hm]
  exact hl

theorem auth_sound {keyNo : UInt8} {key rndA : Block} (hl : w.host.SlotLive) :
    Sound (fun c => c.world.host.SlotLive) (desfireAuthEv2FirstLogged aes nfc keyNo key rndA w) := by
  unfold desfireAuthEv2FirstLogged
  refine .ite (fun _ => .pure (desfireXfer_live hl)) fun _ => ?_
  refine .ite (fun _ => .pure (desfireXfer_live (desfireXfer_live hl))) fun _ => ?_
  refine .ite (fun _ => .pure (desfireXfer_live (desfireXfer_live hl))) fun _ => ?_
  -- a new session is written, and its MAC key loaded
  refine .bind (Q := fun w => w.host.SlotLive) ?_ fun w hw => .pure hw
  exact .bind deriveSessionKeys_sound fun r _ => .pure fun _ => rfl

theorem cmacSession_sound {h : Host} {msg : Bytes} (hk : h.Keyed) :
    Sound (fun _ => True) (cmacSessionLogged aes h msg) :=
  .bind (desfireCmac_sound hk) fun _ _ => .pure trivial

theorem cmacVerify_sound {st : UInt8} {out : Out} (hk : w.host.Keyed) :
    Sound (fun c => c.world.host.Keyed) (cmacVerifyLogged aes st out w) := by
  unfold cmacVerifyLogged
  cases out.respLen with
  | none => exact .pure hk
  | some n =>
    refine .ite (fun _ => .pure hk) fun _ => ?_
    cases out.resp with
    | none => exact .lift fun c hc => by cases hc
    | some resp =>
      refine .bind (.lift fun _ _ => trivial) fun verify _ => ?_
      refine .bind (cmacSession_sound hk) fun want _ => ?_
      exact .ite (fun _ => .pure hk) fun _ => .pure hk

theorem cmacAppendAndSend_sound {cmd : UInt8} {header data : Bytes} {out : Out} {respBuf : Nat}
    (hk : w.host.Keyed) :
    Sound (fun c => c.world.host.Keyed)
      (cmacAppendAndSendLogged aes nfc cmd header data out respBuf w) := by
  unfold cmacAppendAndSendLogged
  refine .ite (fun _ => .pure hk) fun _ => ?_
  refine .bind (.lift fun _ _ => trivial) fun macbuf _ => ?_
  refine .bind (cmacSession_sound hk) fun mac8 _ => ?_
  refine .bind (.lift fun _ _ => trivial) fun params _ => ?_
  have hx := @desfireXfer_keyed σ nfc w cmd params out respBuf hk
  unfold cmacFinishLogged
  generalize desfireXfer nfc cmd params out respBuf w = x at hx
  cases x.ret with
  | none => exact .pure hx
  | some st => exact .ite (fun _ => .pure hx) fun _ => cmacVerify_sound hx

theorem encSendFinish_sound {out : Out} {rx : Bytes} (hk : w.host.Keyed) :
    Sound (fun c => c.world.host.Keyed) (encSendFinishLogged aes out rx w) := by
  unfold encSendFinishLogged
  refine .ite (fun _ => ?_) fun _ => .pure hk
  refine .ite (fun _ => .pure hk) fun _ => ?_
  refine .bind (cmacSession_sound hk) fun want _ => ?_
  refine .ite (fun _ => .pure hk) fun _ => ?_
  cases out.resp with
  | none => exact .pure hk
  | some r => exact .ite (fun _ => .pure hk) fun _ => .lift fun c hc => by cases hc

theorem desfireEncSend_sound {cmd : UInt8} {header data : Bytes} {out : Out} (hl : w.host.SlotLive) :
    Sound (fun c => c.world.host.SlotLive) (desfireEncSendLogged aes nfc cmd header data out w) := by
  unfold desfireEncSendLogged
  refine .ite (fun _ => .pure hl) fun ha => ?_
  have hk := hl.keyed ha
  refine .bind (.lift fun _ _ => trivial) fun plain _ => ?_
  refine .ite (fun _ => .pure hl) fun _ => ?_
  refine .ite (fun _ => .pure hl) fun _ => ?_
  refine .bind (cmacSession_sound hk) fun mac8 _ => ?_
  refine .ite (fun _ => .pure hl) fun _ => ?_
  generalize hx : desfireXfer nfc cmd _ (.buf 64) 64 w = x
  have hxk : x.world.host.Keyed := hx ▸ desfireXfer_keyed hk
  dsimp only
  cases x.ret with
  | none => exact .pure hxk.live
  | some st =>
    exact .ite (fun _ => .pure hxk.live) fun _ => sound_live (encSendFinish_sound hxk)

theorem encRecvFinish_sound {payloadLen : Nat} {out : Out} {rx : Bytes} (hk : w.host.Keyed) :
    Sound (fun c => c.world.host.Keyed) (encRecvFinishLogged aes payloadLen out rx w) := by
  unfold encRecvFinishLogged
  refine .ite (fun _ => .pure hk) fun _ => ?_
  refine .ite (fun _ => .pure hk) fun _ => ?_
  refine .bind (cmacSession_sound hk) fun want _ => ?_
  refine .ite (fun _ => .pure hk) fun _ => ?_
  refine .ite (fun _ => .pure hk) fun _ => ?_
  refine .ite (fun _ => .pure hk) fun _ => ?_
  refine .ite (fun _ => .pure hk) fun _ => ?_
  refine .ite (fun _ => .pure hk) fun _ => ?_
  refine .ite (fun _ => .bind (.lift fun c hc => by cases hc) fun _ (h : False) => h.elim) fun _ => ?_
  exact .ite (fun _ => .pure hk) fun _ => .pure hk

theorem desfireEncRecv_sound {cmd : UInt8} {header : Bytes} {payloadLen : Nat} {out : Out} {respBuf : Nat}
    (hl : w.host.SlotLive) :
    Sound (fun c => c.world.host.SlotLive)
      (desfireEncRecvLogged aes nfc cmd header payloadLen out respBuf w) := by
  unfold desfireEncRecvLogged
  refine .ite (fun _ => .pure hl) fun ha => ?_
  have hk := hl.keyed ha
  refine .ite (fun _ => .pure hl) fun _ => ?_
  refine .ite (fun _ => .pure hl) fun _ => ?_
  refine .bind (.lift fun _ _ => trivial) fun macbuf _ => ?_
  refine .bind (cmacSession_sound hk) fun mac8 _ => ?_
  refine .ite (fun _ => .pure hl) fun _ => ?_
  refine .bind (.lift fun _ _ => trivial) fun params _ => ?_
  generalize hx : desfireXfer nfc cmd _ (.buf 280) 280 w = x
  have hxk : x.world.host.Keyed := hx ▸ desfireXfer_keyed hk
  dsimp only
  cases x.ret with
  | none => exact .pure hxk.live
  | some st =>
    exact .ite (fun _ => .pure hxk.live) fun _ => sound_live (encRecvFinish_sound hxk)

theorem changeKeyFinish_sound {rx : Bytes} (hk : w.host.Keyed) :
    Sound (fun c => c.world.host.Keyed) (changeKeyFinishLogged aes rx w) := by
  unfold changeKeyFinishLogged
  refine .ite (fun _ => ?_) fun _ => .pure hk
  refine .bind (cmacSession_sound hk) fun want _ => ?_
  exact .ite (fun _ => .pure hk) fun _ => .pure hk

theorem desfireChangeKey_sound {keyNo : UInt8} {oldKey newKey : Block} {keyVersion : UInt8}
    (hl : w.host.SlotLive) :
    Sound (fun c => c.world.host.SlotLive)
      (desfireChangeKeyLogged aes nfc keyNo oldKey newKey keyVersion w) := by
  unfold desfireChangeKeyLogged
  refine .ite (fun _ => .pure hl) fun ha => ?_
  have hk := hl.keyed ha
  refine .ite (fun _ => .pure hl) fun _ => ?_
  refine .bind (cmacSession_sound hk) fun mac8 _ => ?_
  generalize hx : desfireXfer nfc 0xC4 _ (.buf 16) 16 w = x
  have hxk : x.world.host.Keyed := hx ▸ desfireXfer_keyed hk
  refine .ite (fun _ => .pure hxk.live) fun _ => ?_
  -- a session whose own key was changed is closed
  refine .ite (fun _ => .pure fun hopen => by cases hopen) fun _ => ?_
  exact sound_live (changeKeyFinish_sound hxk)

theorem ofStatus_live {c : Call σ (Option UInt8)} (h : c.world.host.SlotLive) :
    (ofStatus c).world.host.SlotLive :=
  h

/-- Every operation uses the key of the session, and leaves that key in the slot of a session it
leaves open. -/
theorem opLogged_sound (op : Op) (hl : w.host.SlotLive) :
    Sound (fun c => c.world.host.SlotLive) (op.logged aes nfc w) := by
  cases op with
  | selectApplication aid =>
    refine .pure ?_
    unfold desfireSelectApplication
    simp only
    split
    · exact desfireXfer_live hl
    · exact fun hopen => by cases hopen
  | authEv2First keyNo key rndA => exact auth_sound hl
  | formatPicc =>
    exact .ite (fun _ => .pure hl) fun ha =>
      sound_live (cmacAppendAndSend_sound (hl.keyed ha))
  | createApplication aid ks nk =>
    exact .ite (fun ha => sound_live (cmacAppendAndSend_sound (hl ha))) fun _ =>
      .pure (ofStatus_live (desfireXfer_live hl))
  | createStdDataFile fileNo comm rights size =>
    exact .ite (fun _ => .pure hl) fun ha =>
      sound_live (cmacAppendAndSend_sound (hl.keyed ha))
  | changeKey keyNo old new ver => exact desfireChangeKey_sound hl
  | readData fileNo offset length comm out outBuf =>
    cases comm with
    | plain => exact .pure (ofStatus_live (desfireXfer_live hl))
    | cmac =>
      exact .ite (fun _ => .pure hl) fun ha =>
        sound_live (cmacAppendAndSend_sound (hl.keyed ha))
    | encrypted =>
      refine .ite (fun _ => .pure hl) fun _ => .ite (fun _ => .pure hl) fun _ => ?_
      exact .bind (desfireEncRecv_sound hl) fun _ hc => .pure (ofStatus_live hc)
  | writeData fileNo offset comm data =>
    cases comm with
    | plain =>
      refine .ite (fun _ => .pure hl) fun _ => ?_
      exact .bind (.lift fun _ _ => trivial) fun _ _ => .pure (ofStatus_live (desfireXfer_live hl))
    | cmac =>
      exact .ite (fun _ => .pure hl) fun ha =>
        sound_live (cmacAppendAndSend_sound (hl.keyed ha))
    | encrypted =>
      refine .ite (fun _ => .pure hl) fun _ => ?_
      exact .bind (desfireEncSend_sound hl) fun _ hc => .pure (ofStatus_live hc)
  | getUid uid =>
    refine .ite (fun _ => .pure hl) fun _ => ?_
    exact .bind (desfireEncRecv_sound hl) fun _ hc => .ite (fun _ => .pure hc) fun _ => .pure hc

theorem runLogged_sound (op : Op) (hl : w.host.SlotLive) :
    Sound (fun c => c.world.host.SlotLive) (op.runLogged aes nfc w) :=
  .bind (opLogged_sound op hl) fun _ hc => .bind (.log hc) fun _ _ => .pure hc

theorem leafDiversifyKey_sound {siteKey : Block} {uid : Bytes} {h : Host} (hl : h.SlotLive) :
    Sound (fun r => r.2 = h) (leafDiversifyKeyLogged aes siteKey uid h) :=
  .bind cmacWithKey_sound fun _ hr => .bind (.log (hr ▸ hl)) fun _ _ => .pure hr

theorem leafPayloadMac_sound {divKey : Block} {payload : Bytes} {h : Host} (hl : h.SlotLive) :
    Sound (fun r => r.2 = h) (leafPayloadMacLogged aes divKey payload h) :=
  .bind cmacWithKey_sound fun _ hr => .bind (.log (hr ▸ hl)) fun _ _ => .pure hr

theorem leafRead_sound {site : Option Block} {uid : Bytes} {rndA : Block} {mem : Vector UInt8 32}
    (hl : w.host.SlotLive) :
    Sound (fun c => c.world.host.SlotLive) (leafReadLogged aes nfc site uid rndA mem w) := by
  unfold leafReadLogged
  cases site with
  | none => exact .pure hl
  | some site =>
    refine .bind (leafDiversifyKey_sound hl) fun r hr => ?_
    refine .bind (runLogged_sound _ (show Host.SlotLive r.2 from hr ▸ hl)) fun c hc => ?_
    refine .ite (fun _ => .pure hc) fun _ => ?_
    refine .bind (runLogged_sound _ hc) fun c hc => ?_
    refine .ite (fun _ => .pure hc) fun _ => ?_
    refine .bind (runLogged_sound _ hc) fun c hc => ?_
    refine .ite (fun _ => .pure hc) fun _ => ?_
    refine .bind (leafPayloadMac_sound hc) fun r hr => ?_
    have hw : Host.SlotLive r.2 := hr ▸ hc
    exact .ite (fun _ => .pure hw) fun _ => .pure hw

theorem leafPersonalize_sound {site : Option Block} {uid : Bytes} {cred : Credential}
    {rndA1 rndA2 rndA3 : Block} {mem : Vector UInt8 32} (hl : w.host.SlotLive) :
    Sound (fun c => c.world.host.SlotLive)
      (leafPersonalizeLogged aes nfc site uid cred rndA1 rndA2 rndA3 mem w) := by
  unfold leafPersonalizeLogged
  cases site with
  | none => exact .pure hl
  | some site =>
    refine .bind (leafDiversifyKey_sound hl) fun r hr => ?_
    refine .bind (runLogged_sound _ (show Host.SlotLive r.2 from hr ▸ hl)) fun c hc => ?_
    refine .ite (fun _ => .pure hc) fun _ => ?_
    refine .bind (runLogged_sound _ hc) fun c hc => ?_
    refine .ite (fun _ => .pure hc) fun _ => ?_
    -- FormatPICC may fail
    refine .bind (runLogged_sound _ hc) fun c hc => ?_
    refine .bind (runLogged_sound _ hc) fun c hc => ?_
    refine .ite (fun _ => .pure hc) fun _ => ?_
    refine .bind (runLogged_sound _ hc) fun c hc => ?_
    refine .ite (fun _ => .pure hc) fun _ => ?_
    refine .bind (runLogged_sound _ hc) fun c hc => ?_
    refine .ite (fun _ => .pure hc) fun _ => ?_
    refine .bind (runLogged_sound _ hc) fun c hc => ?_
    refine .ite (fun _ => .pure hc) fun _ => ?_
    -- the master key is derived with the session open
    refine .bind cmacWithKey_sound fun r hr => ?_
    refine .bind (runLogged_sound _ (show Host.SlotLive r.2 from hr ▸ hc)) fun c hc => ?_
    refine .ite (fun _ => .pure hc) fun _ => ?_
    refine .bind (runLogged_sound _ hc) fun c hc => ?_
    refine .ite (fun _ => .pure hc) fun _ => ?_
    refine .bind (runLogged_sound _ hc) fun c hc => ?_
    refine .ite (fun _ => .pure hc) fun _ => ?_
    refine .bind (leafPayloadMac_sound hc) fun r hr => ?_
    exact runLogged_sound _ (show Host.SlotLive r.2 from hr ▸ hc)

/-! ### Runs -/

/-- One call of the task. -/
theorem TaskCall.sound (c : TaskCall) (hl : w.host.SlotLive) :
    Sound (fun w' => w'.host.SlotLive) (c.logged aes nfc w) := by
  cases c with
  | init => exact .pure fun hopen => by cases hopen
  | operation o => exact .bind (runLogged_sound o hl) fun _ hc => .pure hc
  | diversifyKey siteKey uid =>
    exact .bind (leafDiversifyKey_sound hl) fun r hr => .pure (show Host.SlotLive r.2 from hr ▸ hl)
  | payloadMac divKey payload =>
    exact .bind (leafPayloadMac_sound hl) fun r hr => .pure (show Host.SlotLive r.2 from hr ▸ hl)
  | read site uid rndA mem => exact .bind (leafRead_sound hl) fun _ hc => .pure hc
  | personalize site uid cred rndA1 rndA2 rndA3 mem =>
    exact .bind (leafPersonalize_sound hl) fun _ hc => .pure hc

theorem runCalls_sound (cs : List TaskCall) (hl : w.host.SlotLive) :
    Sound (fun w' => w'.host.SlotLive) (runCallsLogged aes nfc cs w) := by
  induction cs generalizing w with
  | nil => exact .pure hl
  | cons c cs ih => exact .bind (c.sound hl) fun _ hw => .bind (.log hw) fun _ _ => ih hw

variable (aes nfc)

/-- In every run of calls from the start, over every card and driver: at every return an
authenticated session has its MAC key in the slot, and every CMAC is computed with the key it is
meant to use. -/
theorem macKeySlot_runs (link : σ) (cs : List TaskCall) :
    (runCallsLogged aes nfc cs ⟨desfireInit, link⟩).val = runCalls aes nfc cs ⟨desfireInit, link⟩ ∧
      (∀ e ∈ (runCallsLogged aes nfc cs ⟨desfireInit, link⟩).events, e.Right) ∧
      ∀ w, runCalls aes nfc cs ⟨desfireInit, link⟩ = .ok w → w.host.SlotLive := by
  have hsound := @runCalls_sound σ aes nfc ⟨desfireInit, link⟩ cs (fun hopen => by cases hopen)
  refine ⟨val_runCallsLogged aes nfc cs _, hsound.1, fun w hw => hsound.2 w ?_⟩
  rw [val_runCallsLogged]
  exact hw

end LeafReader
