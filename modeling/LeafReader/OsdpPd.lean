import LeafReader.OsdpFile
import Mathlib.Logic.Function.Basic

/-!
# The peripheral device (`osdp_pd.c`)

`OsdpPd` is the rest of `struct osdp_pd` over the packet layer, with the application's state. The
application answers a command with a number and may change the command's fields; its state can be
anything. What an update takes from outside (time, random bytes, whether the channel takes a packet)
comes with the update; time does not pass within one. A function that can stop the program in an
assertion returns `none` there.
-/

namespace LeafReader

def osdpPdScTimeoutMs : ℤ := 8000
def osdpRespToutMs : ℤ := 200
def osdpCmdTextMaxLen : ℕ := 32
def osdpCmdMfgMaxDatalen : ℕ := 64

/-- `enum osdp_pd_error_e`. -/
inductive PdErr
  | none
  | wait
  | generic
  | reply
  | ignore
  | noData
deriving DecidableEq

/-- What the application registers with the library. -/
structure PdApp (σ : Type) where
  command : Option (σ → OsdpCmd → (ℤ × OsdpCmd) × σ)
  file : Option (OsdpFileOps σ)

structure OsdpPd (σ : Type) extends OsdpLink where
  enforceSecure : Bool
  cap : ℕ → OsdpPdCap
  pdId : OsdpPdId
  baudRate : UInt32
  scTstamp : ℤ
  peerRxSize : UInt16
  eventQueue : List OsdpEvent
  reply : PdReply
  file : OsdpFile
  app : σ

/-- What an update takes from outside. -/
structure PdInput where
  now : ℤ
  random : Bytes8
  sendOk : Bool

section Pd

variable {σ : Type} (aes : Aes) (app : PdApp σ) (io : PdInput)

/-! ### Commands -/

def pdTranslateEvent : OsdpEvent → PdReply
  | .cardread readerNo format _ length data =>
    if format = 0 ∨ format = 1 then .raw readerNo format length data else .ack
  | .keypress readerNo data => .keypad readerNo data
  | .status report =>
    match report.type with
    | .input => .istatr report
    | .output => .ostatr report
    | .onboard => .lstatr report
    | .remote => .rstatr report
  | .mfgrep vendorCode command data => .mfgrep vendorCode command data
  | .notification .. => .ack

/-- `do_command_callback`: whether the application took the command, and the command as it left it. -/
def doCommandCallback (pd : OsdpPd σ) (cmd : OsdpCmd) : Bool × OsdpCmd × OsdpPd σ :=
  match app.command with
  | none => (false, cmd, { pd with reply := .nak nakRecord })
  | some callback =>
    let ((ret, cmd), s) := callback pd.app cmd
    if ret ≠ 0 then (false, cmd, { pd with app := s, reply := .nak nakRecord })
    else (true, cmd, { pd with app := s })

def capPresent (c : OsdpPdCap) : Bool := c.numItems ≠ 0 ∧ c.complianceLevel ≠ 0

def capCovers (c : OsdpPdCap) (n : UInt8) : Bool := c.complianceLevel ≠ 0 ∧ n.toNat + 1 ≤ c.numItems.toNat

/-- The test of `pd_cmd_cap_ok`. -/
def capOk (pd : OsdpPd σ) : Option OsdpCmd → Bool
  | some (.output outputNo ..) => pd.cmdId = cmdOut ∧ capCovers (pd.cap capOutputControl) outputNo
  | some (.led _ ledNumber ..) => pd.cmdId = cmdLed ∧ capCovers (pd.cap capReaderLedControl) ledNumber
  | _ =>
    if pd.cmdId = cmdIstat then capPresent (pd.cap capContactStatusMonitoring)
    else if pd.cmdId = cmdOstat then capPresent (pd.cap capOutputControl)
    else if pd.cmdId = cmdBuz then capPresent (pd.cap capReaderAudibleOutput)
    else if pd.cmdId = cmdText then capPresent (pd.cap capReaderTextOutput)
    else if pd.cmdId = cmdChlng ∨ pd.cmdId = cmdScrypt ∨ pd.cmdId = cmdKeyset then
      (pd.cap capCommunicationSecurity).complianceLevel ≠ 0
    else false

def pdCmdCapOk (pd : OsdpPd σ) (cmd : Option OsdpCmd) : Bool × OsdpPd σ :=
  if capOk pd cmd then (true, pd)
  else if pd.cmdId = cmdChlng ∨ pd.cmdId = cmdScrypt ∨ pd.cmdId = cmdKeyset then
    (false, { pd with reply := .nak nakScUnsup })
  else (false, { pd with reply := .nak nakCmdUnknown })

/-- The two questions before a command is carried out: is the PD capable of it, where that is asked,
and does the application take it. The command as the application left it. -/
def askApp (checked : Bool) (pd : OsdpPd σ) (capArg : Option OsdpCmd) (cmd : OsdpCmd) :
    Option OsdpCmd × OsdpPd σ :=
  match if checked then pdCmdCapOk pd capArg else (true, pd) with
  | (false, pd) => (none, pd)
  | (true, pd) =>
    match doCommandCallback app pd cmd with
    | (false, _, pd) => (none, pd)
    | (true, cmd, pd) => (some cmd, pd)

def pdPoll (pd : OsdpPd σ) (data : Bytes) : PdErr × OsdpPd σ :=
  if data ≠ [] then (.generic, pd)
  else
    match pd.eventQueue with
    | [] => (.none, { pd with reply := .ack })
    | event :: events => (.none, { pd with eventQueue := events, reply := pdTranslateEvent event })

/-- The cases of `CMD_ID` and `CMD_CAP`; the byte that names the kind of reply is not looked at. -/
def pdReport (reply : PdReply) (pd : OsdpPd σ) (data : Bytes) : PdErr × OsdpPd σ :=
  if data.length ≠ 1 then (.generic, pd) else (.none, { pd with reply := reply })

/-- The report that the application filled in. -/
def reportOf (type : OsdpStatusType) : OsdpCmd → OsdpStatusReport
  | .status report => report
  | _ => ⟨type, 0, []⟩

/-- The cases of the four status commands; two of them ask for a capability. -/
def pdStatus (type : OsdpStatusType) (checked : Bool) (mk : OsdpStatusReport → PdReply) (pd : OsdpPd σ)
    (data : Bytes) : PdErr × OsdpPd σ :=
  if data ≠ [] then (.generic, pd)
  else
    match askApp app checked pd none (.status ⟨type, 0, []⟩) with
    | (none, pd) => (.reply, pd)
    | (some cmd, pd) => (.none, { pd with reply := mk (reportOf type cmd) })

/-- The loop over the records of a command; it ends at the first record that is refused. -/
def recordLoop (size : ℕ) (of : Bytes → OsdpCmd) : ℕ → Bytes → OsdpPd σ → OsdpPd σ
  | 0, _, pd => pd
  | n + 1, data, pd =>
    match askApp app true pd (some (of (data.take size))) (of (data.take size)) with
    | (none, pd) => pd
    | (some _, pd) => recordLoop size of n (data.drop size) pd

/-- A command of several records is acknowledged even where a record was refused. -/
def pdRecords (size : ℕ) (of : Bytes → OsdpCmd) (pd : OsdpPd σ) (data : Bytes) : PdErr × OsdpPd σ :=
  if data.length % size ≠ 0 then (.generic, pd)
  else (.none, { recordLoop app size of (data.length / size) data pd with reply := .ack })

def pdText (pd : OsdpPd σ) (data : Bytes) : PdErr × OsdpPd σ :=
  let length := (data.getD 5 0).toNat
  if data.length < 6 ∨ length > osdpCmdTextMaxLen ∨ data.length - 6 < length then (.generic, pd)
  else
    match askApp app true pd (some (textOf data)) (textOf data) with
    | (none, pd) => (.reply, pd)
    | (some _, pd) => (.none, { pd with reply := .ack })

def comsetReply : OsdpCmd → PdReply
  | .comset address baudRate | .comsetDone address baudRate => .com address baudRate
  | _ => .com 0 0

def pdComset (pd : OsdpPd σ) (data : Bytes) : PdErr × OsdpPd σ :=
  if data.length ≠ 5 ∨ data.getD 0 0 ≥ 0x7F then (.generic, pd)
  else
    match askApp app false pd none (comsetOf data) with
    | (none, pd) => (.reply, pd)
    | (some cmd, pd) => (.none, { pd with reply := comsetReply cmd })

/-- The result of the callback is not looked at beyond zero or not, so that `REPLY_MFGREP` is no
answer to this command. -/
def pdMfg (pd : OsdpPd σ) (data : Bytes) : PdErr × OsdpPd σ :=
  if data.length < 4 ∨ (data.length - 4) % 256 > osdpCmdMfgMaxDatalen then (.generic, pd)
  else
    match askApp app false pd none (mfgOf data) with
    | (none, pd) => (.reply, pd)
    | (some _, pd) => (.none, { pd with reply := .ack })

def pdAcurxsize (pd : OsdpPd σ) (data : Bytes) : PdErr × OsdpPd σ :=
  if data.length < 2 then (.generic, pd)
  else (.none, { pd with peerRxSize := ofLe16 data, reply := .ack })

def pdKeepactive (pd : OsdpPd σ) (data : Bytes) : PdErr × OsdpPd σ :=
  if data.length < 2 then (.generic, pd)
  else (.none, { pd with scTstamp := pd.scTstamp + (ofLe16 data).toNat, reply := .ack })

def pdAbort (pd : OsdpPd σ) (data : Bytes) : PdErr × OsdpPd σ :=
  if data ≠ [] then (.generic, pd)
  else
    let (f, s) := osdpFileTxAbort app.file pd.file pd.app
    (.none, { pd with file := f, app := s, reply := .ack })

/-- An error of the file module has the value of `OSDP_PD_ERR_WAIT`. -/
def pdFiletransfer (pd : OsdpPd σ) (data : Bytes) : Option (PdErr × OsdpPd σ) :=
  let ask := app.command.map fun callback s cmd => ((callback s cmd).1.1, (callback s cmd).2)
  (osdpFileCmdTxDecode app.file ask pd.file data pd.app).map fun (ret, f, s) =>
    if ret = 0 then (.none, { pd with file := f, app := s, reply := .ftstat })
    else (.wait, { pd with file := f, app := s })

def keyOf : OsdpCmd → Bytes
  | .keyset _ data => data
  | _ => []

def pdKeyset (pd : OsdpPd σ) (data : Bytes) : PdErr × OsdpPd σ :=
  if data.length ≠ 18 ∨ data.getD 0 0 ≠ 1 ∨ data.getD 1 0 ≠ 16 then (.generic, pd)
  else
    match pdCmdCapOk { pd with reply := .nak nakScCond } none with
    | (false, pd) => (.reply, pd)
    | (true, pd) =>
      if !pd.scActive ∨ app.command.isNone then (.reply, pd)
      else
        match askApp app false pd none (.keyset (data.getD 0 0) (data.drop 2)) with
        | (none, pd) => (.reply, { pd with reply := .nak nakScCond })
        | (some cmd, pd) => (.none, { pd with reply := .keysetAck (keyOf cmd) })

def pdClientUid (id : OsdpPdId) : Bytes8 :=
  ⟨#[id.vendorCode.toUInt8, (id.vendorCode >>> 8).toUInt8, UInt8.ofNat id.model,
    UInt8.ofNat (id.version / 256),
    id.serialNumber.toUInt8, (id.serialNumber >>> 8).toUInt8, (id.serialNumber >>> 16).toUInt8,
    (id.serialNumber >>> 24).toUInt8], rfl⟩

def bytes8Of (b : Bytes) : Bytes8 := Vector.ofFn fun i => b.getD i 0

/-- `osdp_sc_setup` in PD mode: the key stays, everything else of the session is cleared. -/
def osdpScSetup (id : OsdpPdId) (sc : OsdpSecureChannel) : OsdpSecureChannel :=
  { OsdpSecureChannel.zero with scbk := sc.scbk, pdClientUid := pdClientUid id }

def pdChlng (pd : OsdpPd σ) (data : Bytes) : PdErr × OsdpPd σ :=
  if data.length ≠ 8 then (.generic, pd)
  else
    match pdCmdCapOk pd none with
    | (false, pd) => (.reply, pd)
    | (true, pd) =>
      (.none, { pd with
        scActive := false
        sc := { osdpScSetup pd.pdId pd.sc with cpRandom := bytes8Of data }
        reply := .ccrypt })

def pdScrypt (pd : OsdpPd σ) (data : Bytes) : PdErr × OsdpPd σ :=
  if data.length ≠ 16 then (.generic, pd)
  else
    match pdCmdCapOk pd none with
    | (false, pd) => (.reply, pd)
    | (true, pd) =>
      if pd.scActive then (.reply, { pd with reply := .nak nakScCond })
      else (.none, { pd with sc := { pd.sc with cpCryptogram := .ofBytes data }, reply := .rmacI })

/-- The cases of the `switch` of `pd_decode_command`. -/
def pdHandlers : List (UInt8 × (OsdpPd σ → Bytes → Option (PdErr × OsdpPd σ))) :=
  [(cmdPoll, fun pd data => some (pdPoll pd data)),
    (cmdLstat, fun pd data => some (pdStatus app .onboard false .lstatr pd data)),
    (cmdIstat, fun pd data => some (pdStatus app .input true .istatr pd data)),
    (cmdOstat, fun pd data => some (pdStatus app .output true .ostatr pd data)),
    (cmdRstat, fun pd data => some (pdStatus app .remote false .rstatr pd data)),
    (cmdId, fun pd data => some (pdReport .pdid pd data)),
    (cmdCap, fun pd data => some (pdReport .pdcap pd data)),
    (cmdOut, fun pd data => some (pdRecords app 4 outputOf pd data)),
    (cmdLed, fun pd data => some (pdRecords app 14 ledOf pd data)),
    (cmdBuz, fun pd data => some (pdRecords app 5 buzzerOf pd data)),
    (cmdText, fun pd data => some (pdText app pd data)),
    (cmdComset, fun pd data => some (pdComset app pd data)),
    (cmdMfg, fun pd data => some (pdMfg app pd data)),
    (cmdAcurxsize, fun pd data => some (pdAcurxsize pd data)),
    (cmdKeepactive, fun pd data => some (pdKeepactive pd data)),
    (cmdAbort, fun pd data => some (pdAbort app pd data)),
    (cmdFiletransfer, fun pd data => pdFiletransfer app pd data),
    (cmdKeyset, fun pd data => some (pdKeyset app pd data)),
    (cmdChlng, fun pd data => some (pdChlng pd data)),
    (cmdScrypt, fun pd data => some (pdScrypt pd data))]

/-- The commands that are allowed without a secure channel where one is enforced. -/
def openCmd (id : UInt8) : Bool := id = cmdId ∨ id = cmdCap ∨ id = cmdChlng ∨ id = cmdScrypt

def pdDecodeCommand (pd : OsdpPd σ) (id : UInt8) (data : Bytes) : Option (PdErr × OsdpPd σ) :=
  let pd := { pd with reply := .nak nakRecord, cmdId := id }
  if pd.enforceSecure ∧ !pd.scActive ∧ !openCmd id then some (.reply, { pd with reply := .nak nakScCond })
  else
    match (pdHandlers app).lookup id with
    | none => some (.reply, { pd with reply := .nak nakCmdUnknown })
    | some handler =>
      (handler pd data).map fun
        | (.generic, pd) => (.reply, { pd with reply := .nak nakCmdLen })
        | r => r

/-! ### Replies -/

/-- The first `n` bytes of an array that begins with `data`. -/
def firstBytes (n : ℕ) (data : Bytes) : Bytes := (data ++ List.replicate n 0).take n

def pdidBytes (id : OsdpPdId) : Bytes :=
  le24 id.vendorCode ++ [UInt8.ofNat id.model, UInt8.ofNat id.version] ++ le32 id.serialNumber ++
    be24 id.firmwareVersion

/-- The capabilities that are set, as many as there is room for. -/
def pdcapBytes (cap : ℕ → OsdpPdCap) (maxLen : ℕ) : Bytes :=
  let known := ((List.range capSentinel).drop 1).filter fun i => (cap i).functionCode.toNat = i
  (known.take (maxLen / 3)).flatMap fun i => [UInt8.ofNat i, (cap i).complianceLevel, (cap i).numItems]

/-- `assert_buf_len` before the bytes of a message. -/
def guarded {α : Type} (need maxLen : ℕ) (a : α) : Option α := if need < maxLen then some a else none

/-- The `switch` of `pd_build_reply`: the data behind the identifier, `none` inside where the reply
cannot be built, the security block, and the new state. -/
def pdReplyData (pd : OsdpPd σ) (maxLen : ℕ) (smb : Bytes) : Option (Option Bytes × Bytes × OsdpPd σ) :=
  match pd.reply with
  | .ack | .keysetAck _ => guarded 1 maxLen (some [], smb, pd)
  | .pdid => guarded 13 maxLen (some (pdidBytes pd.pdId), smb, pd)
  | .pdcap => guarded 1 maxLen (some (pdcapBytes pd.cap maxLen), smb, pd)
  | .ostatr report =>
    let n := (pd.cap capOutputControl).numItems.toNat
    if report.nrEntries ≠ n then some (none, smb, pd)
    else guarded (n + 1) maxLen (some (firstBytes n report.report), smb, pd)
  | .istatr report =>
    let n := (pd.cap capContactStatusMonitoring).numItems.toNat
    if report.nrEntries ≠ n then some (none, smb, pd)
    else guarded (n + 1) maxLen (some (firstBytes n report.report), smb, pd)
  | .lstatr report => guarded 3 maxLen (some (firstBytes 2 report.report), smb, pd)
  | .rstatr report => guarded 2 maxLen (some (firstBytes 1 report.report), smb, pd)
  | .keypad readerNo data =>
    guarded (2 + data.length) maxLen
      (some ([UInt8.ofNat readerNo, UInt8.ofNat data.length] ++ data), smb, pd)
  | .raw readerNo format length data =>
    let n := (length + 7) / 8
    guarded (4 + n) maxLen
      (some ([UInt8.ofNat readerNo, UInt8.ofNat format] ++ le16 (UInt16.ofNat length) ++
        firstBytes n data),
        smb, pd)
  | .com address baudRate => guarded 6 maxLen (some ([address] ++ le32 baudRate), smb, pd)
  | .nak code => guarded 2 maxLen (some [code], smb, pd)
  | .mfgrep vendorCode command data =>
    guarded (4 + data.length) maxLen (some (le24 vendorCode ++ [command] ++ data), smb, pd)
  | .ftstat =>
    (osdpFileCmdStatBuild app.file pd.file maxLen pd.app).map fun (stat, f, s) =>
      (stat, smb, { pd with file := f, app := s })
  | .ccrypt =>
    if smb = [] then some (none, smb, pd)
    else
      let sc := osdpComputePdCryptogram aes
        (osdpComputeSessionKeys aes pd.scUseScbkd { pd.sc with pdRandom := io.random })
      guarded 33 maxLen
        (some (sc.pdClientUid.toList ++ sc.pdRandom.toList ++ sc.pdCryptogram.toList),
          [3, scs12, if pd.scUseScbkd then 0 else 1], { pd with sc := sc })
  | .rmacI =>
    if smb = [] then some (none, smb, pd)
    else
      let sc := osdpComputeRmacI aes pd.sc
      let pd := { pd with sc := sc }
      guarded 17 maxLen
        (if osdpVerifyCpCryptogram aes sc then
          (some sc.rMac.toList, [3, scs14, 1], { pd with scActive := true, scTstamp := io.now })
        else (some sc.rMac.toList, [3, scs14, 0], pd))

/-- `pd_build_reply`: the message and the security block. A reply that cannot be built becomes a
NAK. -/
def pdBuildReply (pd : OsdpPd σ) (maxLen : ℕ) (smb : Bytes) : Option (Bytes × Bytes × OsdpPd σ) :=
  match pdReplyData aes app io pd maxLen smb with
  | none => none
  | some (data, smb, pd) =>
    let smb :=
      if smb.getD 1 0 > scs14 ∧ pd.scActive then
        [2, if (data.getD []).length > 0 then scs18 else scs16]
      else smb
    match data with
    | some data => some (pd.reply.id :: data, smb, pd)
    | none => guarded 2 maxLen ([replyNak, nakRecord], smb, pd)

/-- The security block written at index `i`; where it is longer than the room that was left for it,
it covers the message. -/
def setSmb (buf : Bytes) (i : ℕ) (smb : Bytes) : Bytes := buf.take i ++ smb ++ buf.drop (i + smb.length)

/-- `pd_send_reply`: whether the reply was sent, and its bytes. -/
def pdSendReply (pd : OsdpPd σ) : Option (Option Bytes × OsdpPd σ) :=
  match osdpPhyPacketInit pd.toOsdpLink pd.reply.id (getTxBufSize pd.peerRxSize) with
  | (.error _, l) => some (none, { pd with toOsdpLink := l })
  | (.ok hdr, l) =>
    let smb := hdr.drop (l.mark + 5)
    match pdBuildReply aes app io { pd with toOsdpLink := l }
      (getTxBufSize pd.peerRxSize - hdr.length) smb with
    | none => none
    | some (msg, smb, pd) =>
      let buf := setSmb (hdr ++ msg) (l.mark + 5) smb
      match osdpPhySendPacket aes pd.toOsdpLink buf (getTxBufSize pd.peerRxSize) io.sendOk with
      | (.error _, l) => some (none, { pd with toOsdpLink := l })
      | (.ok frame, l) => some (some frame, { pd with toOsdpLink := l })

/-! ### Updates -/

/-- `pd_receive_and_process_command`. -/
def pdReceiveAndProcessCommand (pd : OsdpPd σ) : Option (PdErr × OsdpPd σ) :=
  match osdpPhyCheckPacket io.now pd.toOsdpLink with
  | (.error e, l) =>
    let pd := { pd with toOsdpLink := l }
    match e with
    | .nack code => some (.reply, { pd with reply := .nak code })
    | .noData | .busy => some (.noData, pd)
    | .wait => some (.wait, pd)
    | .skip => some (.ignore, { pd with toOsdpLink := osdpPhyStateReset l false })
    | .check => some (.ignore, pd)
    | .fmt | .build | .nackLen => some (.generic, pd)
    | .overrun => none
  | (.ok (), l) =>
    match osdpPhyDecodePacket aes l with
    | (.error (.nack code), l) => some (.reply, { pd with toOsdpLink := l, reply := .nak code })
    | (.error .nackLen, l) => some (.reply, { pd with toOsdpLink := l })
    | (.error _, l) | (.ok [], l) => some (.generic, { pd with toOsdpLink := l })
    | (.ok (id :: data), l) => pdDecodeCommand app { pd with toOsdpLink := l } id data

/-- What follows once a reply is on its way: a new key is put in place, a new address and speed are
taken. -/
def pdReplySent (pd : OsdpPd σ) : OsdpPd σ :=
  match pd.reply with
  | .keysetAck key =>
    { pd with
      sc := { pd.sc with scbk := .ofBytes key }
      scUseScbkd := false
      installMode := false
      scActive := false }
  | .com address baudRate =>
    match doCommandCallback app pd (.comsetDone address baudRate) with
    | (_, cmd, pd) =>
      match comsetReply cmd with
      | .com address baudRate => { pd with address := address.toNat, baudRate := baudRate }
      | _ => pd
  | _ => pd

/-- `osdp_pd_update`: the bytes that were sent, if any. -/
def osdpPdUpdate (pd : OsdpPd σ) : Option (Option Bytes × OsdpPd σ) :=
  let pd :=
    if pd.scActive ∧ io.now - pd.scTstamp > osdpPdScTimeoutMs then { pd with scActive := false }
    else pd
  match pdReceiveAndProcessCommand aes app io pd with
  | none => none
  | some (ret, pd) =>
    if ret = .ignore ∨ ret = .noData ∨ ret = .wait ∧ io.now - pd.tstamp < osdpRespToutMs then
      some (none, pd)
    else if ret ≠ .none ∧ ret ≠ .reply then
      some (none, { pd with toOsdpLink := osdpPhyStateReset pd.toOsdpLink.scDeactivate false })
    else
      let pd := if ret = .none ∧ pd.scActive then { pd with scTstamp := io.now } else pd
      match pdSendReply aes app io pd with
      | none => none
      | some (frame, pd) =>
        let pd := if frame.isSome then pdReplySent app pd else pd
        some (frame, { pd with toOsdpLink := osdpPhyStateReset pd.toOsdpLink false })

end Pd

/-! ### The other calls of the application -/

section Calls

variable {σ : Type}

/-- `osdp_pd_submit_event`; `blocks` is the number of events that the pool has room for. -/
def osdpPdSubmitEvent (blocks : ℕ) (event : OsdpEvent) (pd : OsdpPd σ) : ℤ × OsdpPd σ :=
  if pd.eventQueue.length < blocks then (0, { pd with eventQueue := pd.eventQueue ++ [event] })
  else (-1, pd)

def osdpPdFlushEvents (pd : OsdpPd σ) : ℕ × OsdpPd σ :=
  (pd.eventQueue.length, { pd with eventQueue := [] })

end Calls

/-! ### Set-up -/

/-- `osdp_pd_info_t`: the flags of `flags` that this file looks at are fields. -/
structure OsdpPdInfo where
  baudRate : UInt32
  address : ℕ
  enforceSecure : Bool
  installMode : Bool
  allowEmpty : Bool
  pdId : OsdpPdId
  cap : List OsdpPdCap
  scbk : Option Block

/-- The implicit capabilities. -/
def osdpPdCap : List OsdpPdCap :=
  [⟨8, 1, 0⟩, ⟨9, 1, 0⟩, ⟨10, UInt8.ofNat osdpPacketBufSize, UInt8.ofNat (osdpPacketBufSize / 256)⟩,
    ⟨16, 2, 0⟩]

/-- `osdp_pd_set_attributes`: the table up to the first entry whose code is 0 or out of range. -/
def osdpPdSetAttributes (cap : ℕ → OsdpPdCap) (table : List OsdpPdCap) : ℕ → OsdpPdCap :=
  (table.takeWhile fun c => c.functionCode ≠ 0 ∧ c.functionCode.toNat < capSentinel).foldl
    (fun cap c => Function.update cap c.functionCode.toNat c) cap

/-- `osdp_pd_setup`. -/
def osdpPdSetup {σ : Type} (info : OsdpPdInfo) (s : σ) : Option (OsdpPd σ) :=
  if info.scbk.isNone ∧ info.enforceSecure then none
  else some
    { pdMode := true
      scCapable := true
      scDisabled := false
      scActive := false
      scUseScbkd := false
      skipSeqCheck := false
      pktHasMark := false
      pktBroadcast := false
      installMode := info.installMode || info.scbk.isNone
      allowEmpty := info.allowEmpty
      address := info.address
      seqNumber := -1
      tstamp := 0
      cmdId := 0
      sc := { OsdpSecureChannel.zero with scbk := info.scbk.getD .zero }
      rxWaiting := []
      rxRb := rxRbInit
      packetBuf := []
      packetLen := 0
      packetBufLen := 0
      packetScanSkip := 0
      enforceSecure := info.enforceSecure
      cap := osdpPdSetAttributes (osdpPdSetAttributes (fun _ => ⟨0, 0, 0⟩) info.cap) osdpPdCap
      pdId := info.pdId
      baudRate := info.baudRate
      scTstamp := 0
      peerRxSize := 0
      eventQueue := []
      reply := .nak 0
      file := .reset
      app := s }

def osdpPdSetCapabilities {σ : Type} (table : List OsdpPdCap) (pd : OsdpPd σ) : OsdpPd σ :=
  { pd with cap := osdpPdSetAttributes pd.cap table }

/-! ### Runs -/

/-- What the firmware does with the PD: it refreshes it, at which bytes may have come on the line,
and it hands over events. -/
inductive PdOp
  | refresh (io : PdInput) (bytes : Bytes)
  | submitEvent (event : OsdpEvent)
  | flushEvents
  | setCapabilities (table : List OsdpPdCap)

/-- `osdp_pd_refresh`, when `bytes` have come since the last time. -/
def osdpPdRefresh {σ : Type} (aes : Aes) (app : PdApp σ) (io : PdInput) (bytes : Bytes) (pd : OsdpPd σ) :
    Option (Option Bytes × OsdpPd σ) :=
  osdpPdUpdate aes app io { pd with rxWaiting := pd.rxWaiting ++ bytes }

def PdOp.step {σ : Type} (aes : Aes) (app : PdApp σ) (blocks : ℕ) (pd : OsdpPd σ) :
    PdOp → Option (OsdpPd σ)
  | .refresh io bytes => (osdpPdRefresh aes app io bytes pd).map Prod.snd
  | .submitEvent event => some (osdpPdSubmitEvent blocks event pd).2
  | .flushEvents => some (osdpPdFlushEvents pd).2
  | .setCapabilities table => some (osdpPdSetCapabilities table pd)

/-- A run of operations, unless an assertion stops the program or the bytes on the line overrun the packet
buffer. -/
def pdRun {σ : Type} (aes : Aes) (app : PdApp σ) (blocks : ℕ) (ops : List PdOp) (pd : OsdpPd σ) :
    Option (OsdpPd σ) :=
  ops.foldlM (PdOp.step aes app blocks) pd

/-! ### A sample -/

def sampleScbk : Block := .ofBytes [1, 2, 3]

/-- A PD with two LEDs that may enforce the channel. -/
def samplePdInfo (enforceSecure : Bool) : OsdpPdInfo :=
  ⟨9600, 1, enforceSecure, false, false, ⟨1, 2, 0x010203, 0x04050607, 0x080910⟩,
    [⟨4, 1, 2⟩], some sampleScbk⟩

/-- An application that takes each command, and keeps it. -/
def samplePdApp : PdApp (List OsdpCmd) := ⟨some fun cmds cmd => ((0, cmd), cmds ++ [cmd]), none⟩

def sampleInput : PdInput := ⟨0, bytes8Of [1, 2, 3], true⟩

end LeafReader
