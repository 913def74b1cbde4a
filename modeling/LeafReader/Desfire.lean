import LeafReader.DesfireEnc
import LeafReader.DesfireAuth

/-!
# The public card operations (`desfire.c`)

`cmac_append_and_send` and the operations of `desfire.h` built on it and on the encrypted helpers.
`Op` names every public operation with its arguments, so that runs of operations can be spoken of.
-/

namespace LeafReader

variable {σ : Type} (aes : Aes) (nfc : Nfc σ)

/-- `desfire_comm_mode_t`. -/
inductive CommMode
  | plain | cmac | encrypted
deriving DecidableEq, Repr

def CommMode.toByte : CommMode → UInt8
  | .plain => 0
  | .cmac => 1
  | .encrypted => 3

abbrev Aid := Vector UInt8 3

/-- `desfire_init` clears the session; the MAC key slot is a static array and starts as zeroes. -/
def desfireInit : Host :=
  ⟨⟨0, Vector.replicate 4 0, .zero, .zero, 0, false⟩, .zero, 0x00⟩

/-! ### CMAC mode -/

/-- The end of `cmac_append_and_send`: the response MAC is verified when `resp_len` is given and at
least eight bytes came back. -/
def cmacVerify (st : UInt8) (out : Out) (w : World σ) : Except Fault (Call σ EspErr) :=
  match out.respLen with
  | none => .ok ⟨.ok, out, w⟩
  | some n =>
    if n < 8 then .ok ⟨.ok, out, w⟩
    else
      match out.resp with
      | none => .error .nullDeref
      | some resp => do
        let rd := n - 8
        let verify ← fill 256 (macHead st w.host.session ++ resp.take rd)
        if (resp.drop rd).take 8 ≠ cmacSession aes w.host verify then
          return ⟨.invalidCrc, out, w⟩
        return ⟨.ok, { out with respLen := some rd }, w⟩

def cmacFinish (x : Call σ (Option UInt8)) : Except Fault (Call σ EspErr) :=
  match x.ret with
  | none => .ok ⟨.fail, x.out, x.world⟩
  | some st =>
    if st ≠ 0x00 ∧ st ≠ 0xAF then .ok ⟨.fail, x.out, x.world⟩
    else cmacVerify aes st x.out x.world.bumpCtr

def cmacAppendAndSend (cmd : UInt8) (header data : Bytes) (out : Out) (respBuf : Nat)
    (w : World σ) : Except Fault (Call σ EspErr) := do
  if sizeT (header.length + data.length) > 256 then return ⟨.invalidSize, out, w⟩
  let macbuf ← fill 263 (macHead cmd w.host.session ++ header ++ data)
  let mac8 := cmacSession aes w.host macbuf
  let params ← fill 256 (header ++ data ++ mac8)
  cmacFinish aes (desfireXfer nfc cmd params out respBuf w)

/-! ### Operations -/

def ofStatus (c : Call σ (Option UInt8)) : Call σ EspErr :=
  ⟨if c.ret = some 0x00 then .ok else .fail, c.out, c.world⟩

def desfireSelectApplication (aid : Aid) (w : World σ) : Call σ EspErr :=
  let x := desfireXfer nfc 0x5A aid.toList .null 0 w
  if x.ret ≠ some 0x00 then ⟨.fail, .null, x.world⟩
  else
    ⟨.ok, .null,
      x.world.setSession { x.world.host.session with authenticated := false, cmdCtr := 0 }⟩

def desfireGetUid (uid : Bytes) (w : World σ) : Except Fault (Call σ EspErr) := do
  if !w.host.session.authenticated then return ⟨.invalidState, ⟨some uid, none⟩, w⟩
  let c ← desfireEncRecv aes nfc 0x51 [] 7 (.buf 7) 7 w
  if c.ret ≠ some 0x00 ∨ c.out.bytes.length ≠ 7 then return ⟨.fail, ⟨some uid, none⟩, c.world⟩
  return ⟨.ok, .put ⟨some uid, none⟩ c.out.bytes, c.world⟩

def desfireFormatPicc (w : World σ) : Except Fault (Call σ EspErr) :=
  if !w.host.session.authenticated then .ok ⟨.invalidState, .null, w⟩
  else cmacAppendAndSend aes nfc 0xFC [] [] .null 0 w

def desfireCreateApplication (aid : Aid) (keySettings numKeysAndFlags : UInt8) (w : World σ) :
    Except Fault (Call σ EspErr) :=
  let hdr := aid.toList ++ [keySettings, numKeysAndFlags]
  if w.host.session.authenticated then cmacAppendAndSend aes nfc 0xCA hdr [] .null 0 w
  else .ok (ofStatus (desfireXfer nfc 0xCA hdr .null 0 w))

def desfireCreateStdDataFile (fileNo : UInt8) (comm : CommMode) (accessRights : UInt16)
    (fileSize : UInt32) (w : World σ) : Except Fault (Call σ EspErr) :=
  let hdr := [fileNo, comm.toByte] ++ le16 accessRights ++ le24 fileSize
  if !w.host.session.authenticated then .ok ⟨.invalidState, .null, w⟩
  else cmacAppendAndSend aes nfc 0xCD hdr [] .null 0 w

/-- The header `file_no | offset | length` of ReadData and WriteData, with 3-byte fields. -/
def fileHeader (fileNo : UInt8) (offset length : UInt32) : Bytes :=
  [fileNo] ++ le24 offset ++ le24 length

@[simp] theorem length_fileHeader (fileNo : UInt8) (offset length : UInt32) :
    (fileHeader fileNo offset length).length = 7 := rfl

def desfireReadData (fileNo : UInt8) (offset length : UInt32) (comm : CommMode) (out : Out)
    (outBuf : Nat) (w : World σ) : Except Fault (Call σ EspErr) :=
  let hdr := fileHeader fileNo offset length
  match comm with
  | .plain => .ok (ofStatus (desfireXfer nfc 0xBD hdr out outBuf w))
  | .cmac =>
    if !w.host.session.authenticated then .ok ⟨.invalidState, out, w⟩
    else cmacAppendAndSend aes nfc 0xBD hdr [] out outBuf w
  | .encrypted => do
    if !w.host.session.authenticated then return ⟨.invalidState, out, w⟩
    if length = 0 ∨ length.toNat > outBuf then return ⟨.invalidSize, out, w⟩
    let c ← desfireEncRecv aes nfc 0xBD hdr length.toNat out outBuf w
    return ofStatus c

/-- `desfire_write_data` of the whole of `data`, so `length` is the length of `data`. -/
def desfireWriteData (fileNo : UInt8) (offset : UInt32) (comm : CommMode) (data : Bytes)
    (w : World σ) : Except Fault (Call σ EspErr) :=
  let hdr := fileHeader fileNo offset data.length.toUInt32
  match comm with
  | .plain => do
    if sizeT (hdr.length + data.length) > 256 then return ⟨.invalidSize, .null, w⟩
    let buf ← fill 256 (hdr ++ data)
    return ofStatus (desfireXfer nfc 0x3D buf .null 0 w)
  | .cmac =>
    if !w.host.session.authenticated then .ok ⟨.invalidState, .null, w⟩
    else cmacAppendAndSend aes nfc 0x3D hdr data .null 0 w
  | .encrypted => do
    if !w.host.session.authenticated then return ⟨.invalidState, .null, w⟩
    let c ← desfireEncSend aes nfc 0x3D hdr data .null w
    return ofStatus c

/-! ### Operations as data -/

/-- A call of a public operation: its arguments, with the random number the call draws. -/
inductive Op
  | selectApplication (aid : Aid)
  | authEv2First (keyNo : UInt8) (key rndA : Block)
  | formatPicc
  | createApplication (aid : Aid) (keySettings numKeysAndFlags : UInt8)
  | createStdDataFile (fileNo : UInt8) (comm : CommMode) (accessRights : UInt16) (fileSize : UInt32)
  | changeKey (keyNo : UInt8) (oldKey newKey : Block) (keyVersion : UInt8)
  | readData (fileNo : UInt8) (offset length : UInt32) (comm : CommMode) (out : Out) (outBuf : Nat)
  | writeData (fileNo : UInt8) (offset : UInt32) (comm : CommMode) (data : Bytes)
  | getUid (uid : Bytes)

def Op.run (w : World σ) : Op → Except Fault (Call σ EspErr)
  | .selectApplication aid => .ok (desfireSelectApplication nfc aid w)
  | .authEv2First keyNo key rndA => .ok (desfireAuthEv2First aes nfc keyNo key rndA w)
  | .formatPicc => desfireFormatPicc aes nfc w
  | .createApplication aid ks nk => desfireCreateApplication aes nfc aid ks nk w
  | .createStdDataFile fileNo comm rights size =>
    desfireCreateStdDataFile aes nfc fileNo comm rights size w
  | .changeKey keyNo old new ver => .ok (desfireChangeKey aes nfc keyNo old new ver w)
  | .readData fileNo offset length comm out outBuf =>
    desfireReadData aes nfc fileNo offset length comm out outBuf w
  | .writeData fileNo offset comm data => desfireWriteData aes nfc fileNo offset comm data w
  | .getUid uid => desfireGetUid aes nfc uid w

end LeafReader
