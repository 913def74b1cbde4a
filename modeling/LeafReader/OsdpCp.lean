import LeafReader.OsdpPd

/-!
# The control panel (`osdp_cp.c`)

`OsdpCp` is what `struct osdp_pd` holds for one PD in CP mode, with the application's state. The
library hands the application what `ephemeral_data` holds, which is the last event or the last
command. Time does not pass within one update. A function that can stop the program in an assertion,
write behind an array, or take the bytes of an event for those of a command returns `none` there.
-/

namespace LeafReader

def osdpPdScRetryMs : ℤ := 600000
def osdpPdPollTimeoutMs : ℤ := 50
def osdpCmdRetryWaitMs : ℤ := 800
def osdpCmdMaxRetries : ℕ := 8
def osdpOnlineRetryWaitMaxMs : ℤ := 300000
def osdpEventMaxDatalen : ℕ := 64
def osdpEventMfgrepMaxDatalen : ℕ := 128
def osdpStatusReportMaxLen : ℕ := 64

def replyInvalid : UInt8 := 0

/-- `enum osdp_cp_error_e`. -/
inductive CpErr
  | none
  | generic
  | noData
  | retryCmd
  | canYield
  | inprog
  | unknown
deriving DecidableEq

/-- `enum osdp_cp_phy_state_e`. -/
inductive CpPhyState
  | idle
  | sendCmd
  | replyWait
  | wait
  | done
  | err
deriving DecidableEq

/-- `enum osdp_cp_state_e` without the state that nothing leads to. -/
inductive CpState
  | init
  | capdet
  | scChlng
  | scScrypt
  | setScbk
  | online
  | offline
deriving DecidableEq

/-- What `ephemeral_data` holds. -/
inductive CpEphemeral
  | blank
  | cmd (cmd : OsdpCmd)
  | event (event : OsdpEvent)
deriving DecidableEq

/-- What the application registers with the library. -/
structure CpApp (σ : Type) where
  callback : Option (σ → CpEphemeral → σ)
  file : Option (OsdpFileOps σ)

/-- A `cmdId` of 0 stands for -1, no command. A command in the queue comes with its broadcast flag. -/
structure OsdpCp (σ : Type) extends OsdpLink where
  enforceSecure : Bool
  ignUnsolicited : Bool
  enableNotification : Bool
  hasScbk : Bool
  cap : ℕ → OsdpPdCap
  pdId : OsdpPdId
  baudRate : UInt32
  scTstamp : ℤ
  phyTstamp : ℤ
  waitMs : ℤ
  phyRetryCount : ℕ
  peerRxSize : UInt16
  state : CpState
  phyState : CpPhyState
  reqRestartSc : Bool
  reqEventSend : Bool
  reqOffline : Bool
  replyId : UInt8
  cmdQueue : List (Bool × OsdpCmd)
  ephemeral : CpEphemeral
  file : OsdpFile
  app : σ

/-- What an update takes from outside. -/
abbrev CpInput := PdInput

section Cp

variable {σ : Type} (aes : Aes) (app : CpApp σ) (io : CpInput)

/-! ### Commands -/

/-- The table of `cp_translate_cmd`, but for the condition on `KEYSET`. -/
def cmdIdOf : OsdpCmd → Option UInt8
  | .output .. => some cmdOut
  | .led .. => some cmdLed
  | .buzzer .. => some cmdBuz
  | .text .. => some cmdText
  | .comset .. => some cmdComset
  | .mfg .. => some cmdMfg
  | .keyset .. => some cmdKeyset
  | .status report =>
    match report.type with
    | .input => some cmdIstat
    | .output => some cmdOstat
    | .onboard => some cmdLstat
    | .remote => some cmdRstat
  | .comsetDone .. | .fileTx .. => none

/-- What `cp_build_command` asks for in its assertion; for `MFG` that is a byte less than it writes.
-/
def recordNeed : OsdpCmd → ℕ
  | .mfg _ _ data => 4 + data.length
  | cmd => 1 + cmd.record.length

/-- The one length that is looked at after the assertion. -/
def mfgTooLong : OsdpCmd → Bool
  | .mfg _ _ data => data.length > osdpCmdMfgMaxDatalen
  | _ => false

/-- The commands that are their identifier and `data`. -/
def cpShort (data : Bytes) (cp : OsdpCp σ) (maxLen : ℕ) (smb : Bytes) :
    Option (Option Bytes × Bytes × OsdpCp σ) :=
  guarded (1 + data.length) maxLen (some (cp.cmdId :: data), smb, cp)

/-- The same, where the code makes no assertion. -/
def cpUnchecked (data : Bytes) (cp : OsdpCp σ) (_ : ℕ) (smb : Bytes) :
    Option (Option Bytes × Bytes × OsdpCp σ) :=
  some (some (cp.cmdId :: data), smb, cp)

/-- The commands that carry what the application gave. -/
def cpRecord (cp : OsdpCp σ) (maxLen : ℕ) (smb : Bytes) : Option (Option Bytes × Bytes × OsdpCp σ) :=
  match cp.ephemeral with
  | .cmd cmd =>
    if cmdIdOf cmd ≠ some cp.cmdId then none
    else guarded (recordNeed cmd) maxLen
      (if mfgTooLong cmd then none else some (cp.cmdId :: cmd.record), smb, cp)
  | _ => none

/-- Where no part of the file can be sent, the transfer is given up. -/
def cpFiletransfer (cp : OsdpCp σ) (maxLen : ℕ) (smb : Bytes) :
    Option (Option Bytes × Bytes × OsdpCp σ) :=
  match app.file with
  | none => none
  | some ops =>
    if cp.file.state = .inprog ∨ cp.file.state = .keepAlive then
      let (data, f, s) := osdpFileCmdTxBuild ops cp.file maxLen cp.app
      some (some (match data with
        | none => [cmdAbort]
        | some data => cp.cmdId :: data), smb, { cp with file := f, app := s })
    else none

/-- The key in a `KEYSET` command: the application's own, or the one that its master key gives for
this PD. -/
def keysetKey (cp : OsdpCp σ) (type : UInt8) (data : Bytes) : Option Bytes :=
  if data.length ≠ 16 then none
  else if type = 1 then some data
  else if type = 0 then some (osdpComputeScbk aes (.ofBytes data) cp.sc.pdClientUid).toList
  else none

def cpKeyset (cp : OsdpCp σ) (maxLen : ℕ) (smb : Bytes) : Option (Option Bytes × Bytes × OsdpCp σ) :=
  if !cp.scActive then some (none, smb, cp)
  else
    match cp.ephemeral with
    | .cmd (.keyset type data) =>
      guarded 19 maxLen ((keysetKey aes cp type data).map fun key => cp.cmdId :: [1, 16] ++ key, smb, cp)
    | _ => none

def cpChlng (cp : OsdpCp σ) (maxLen : ℕ) (smb : Bytes) : Option (Option Bytes × Bytes × OsdpCp σ) :=
  if smb = [] then some (none, smb, cp)
  else
    guarded 9 maxLen
      (some (cp.cmdId :: cp.sc.cpRandom.toList), [3, scs11, if cp.scUseScbkd then 0 else 1], cp)

def cpScrypt (cp : OsdpCp σ) (maxLen : ℕ) (smb : Bytes) : Option (Option Bytes × Bytes × OsdpCp σ) :=
  if smb = [] then some (none, smb, cp)
  else
    let sc := osdpComputeCpCryptogram aes cp.sc
    guarded 17 maxLen
      (some (cp.cmdId :: sc.cpCryptogram.toList), [3, scs13, if cp.scUseScbkd then 0 else 1],
        { cp with sc := sc })

/-- The cases of the `switch` of `cp_build_command`: the message, `none` inside where there is none,
and the security block. -/
def cpCommands : List (UInt8 × (OsdpCp σ → ℕ → Bytes → Option (Option Bytes × Bytes × OsdpCp σ))) :=
  [(cmdPoll, cpShort []), (cmdLstat, cpShort []), (cmdIstat, cpShort []), (cmdOstat, cpShort []),
    (cmdRstat, cpShort []), (cmdId, cpShort [0]), (cmdCap, cpShort [0]),
    (cmdOut, cpRecord), (cmdLed, cpRecord),
    (cmdBuz, cpRecord), (cmdText, cpRecord), (cmdComset, cpRecord), (cmdMfg, cpRecord),
    (cmdAcurxsize, cpUnchecked (le16 (UInt16.ofNat osdpPacketBufSize))),
    (cmdKeepactive, cpUnchecked (le16 0)),
    (cmdAbort, cpUnchecked []), (cmdFiletransfer, cpFiletransfer app), (cmdKeyset, cpKeyset aes),
    (cmdChlng, cpChlng), (cmdScrypt, cpScrypt aes)]

def cpCommandData (cp : OsdpCp σ) (maxLen : ℕ) (smb : Bytes) : Option (Option Bytes × Bytes × OsdpCp σ) :=
  match (cpCommands aes app).lookup cp.cmdId with
  | none => some (none, smb, cp)
  | some build => build cp maxLen smb

/-- `cp_build_command`. -/
def cpBuildCommand (cp : OsdpCp σ) (maxLen : ℕ) (smb : Bytes) :
    Option (Option Bytes × Bytes × OsdpCp σ) :=
  match cpCommandData aes app cp maxLen smb with
  | none => none
  | some (none, smb, cp) => some (none, smb, cp)
  | some (some msg, smb, cp) =>
    let smb :=
      if smb.getD 1 0 > scs14 ∧ cp.scActive then [2, if msg.length > 1 then scs17 else scs15] else smb
    some (some msg, smb, cp)

/-- `cp_build_and_send_packet`: the bytes that were sent, if the command could be built and sent. -/
def cpBuildAndSendPacket (cp : OsdpCp σ) : Option (Option Bytes × OsdpCp σ) :=
  let size := getTxBufSize cp.peerRxSize
  match osdpPhyPacketInit cp.toOsdpLink cp.cmdId size with
  | (.error _, l) => some (none, { cp with toOsdpLink := l })
  | (.ok hdr, l) =>
    match cpBuildCommand aes app { cp with toOsdpLink := l } (size - hdr.length)
      (hdr.drop (l.mark + 5)) with
    | none => none
    | some (none, _, cp) => some (none, cp)
    | some (some msg, smb, cp) =>
      match osdpPhySendPacket aes cp.toOsdpLink (setSmb (hdr ++ msg) (l.mark + 5) smb) size io.sendOk with
      | (.error _, l) => some (none, { cp with toOsdpLink := l })
      | (.ok frame, l) => some (some frame, { cp with toOsdpLink := l })

/-! ### Replies -/

/-- An event that came with a reply is kept for the application. -/
def cpKeepEvent (cp : OsdpCp σ) (event : OsdpEvent) : OsdpCp σ :=
  { cp with ephemeral := .event event, reqEventSend := true }

def bytesAt (b : Bytes) (i n : ℕ) : Bytes := (b.drop i).take n

def pdidOf (b : Bytes) : OsdpPdId :=
  ⟨(b.getD 4 0).toNat, (b.getD 3 0).toNat, UInt32.ofNat (ofLe24 b),
    ofLe32 (b.drop 5), UInt32.ofNat (ofBe24 (b.drop 9))⟩

/-- The loop over the capabilities; it ends at a code that is out of range. -/
def readCaps (cap : ℕ → OsdpPdCap) : Bytes → ℕ → OsdpPdCap
  | code :: level :: items :: rest =>
    if code.toNat ≥ capSentinel then cap
    else readCaps (Function.update cap code.toNat ⟨code, level, items⟩) rest
  | _ => cap

/-- What follows from the capabilities of the PD. -/
def cpTakeCaps (cp : OsdpCp σ) (cap : ℕ → OsdpPdCap) : OsdpCp σ :=
  let size := cap capReceiveBuffersize
  let cp := { cp with cap := cap, scCapable := (cap capCommunicationSecurity).complianceLevel &&& 1 ≠ 0 }
  if size.functionCode.toNat = capReceiveBuffersize then
    { cp with peerRxSize := size.complianceLevel.toUInt16 ||| (size.numItems.toUInt16 <<< 8) }
  else cp

/-- The cases of the four status reports; `n` is the length that is expected. -/
def cpStatus (type : OsdpStatusType) (n : ℕ) (cp : OsdpCp σ) (data : Bytes) : CpErr × OsdpCp σ :=
  if data.length ≠ n ∨ data.length > osdpStatusReportMaxLen then (.generic, cp)
  else (.none, cpKeepEvent cp (.status ⟨type, data.length, data⟩))

def cpRaw (cp : OsdpCp σ) (data : Bytes) : Option (CpErr × OsdpCp σ) :=
  let length := (ofLe16 (data.drop 2)).toNat
  let n := (length + 7) / 8
  if data.length < 4 ∨ n ≠ data.length - 4 then some (.generic, cp)
  else if n > osdpEventMaxDatalen then none
  else
    some (.none,
      cpKeepEvent cp (.cardread (data.getD 0 0).toNat (data.getD 1 0).toNat 0 length (data.drop 4)))

def cpKeypad (cp : OsdpCp σ) (data : Bytes) : Option (CpErr × OsdpCp σ) :=
  let n := (data.getD 1 0).toNat
  if data.length < 2 ∨ data.length - 2 ≠ n then some (.generic, cp)
  else if n > osdpEventMaxDatalen then none
  else some (.none, cpKeepEvent cp (.keypress (data.getD 0 0).toNat (data.drop 2)))

def cpMfgrep (cp : OsdpCp σ) (data : Bytes) : CpErr × OsdpCp σ :=
  if data.length < 4 ∨ data.length - 4 > osdpEventMfgrepMaxDatalen then (.generic, cp)
  else (.none, cpKeepEvent cp (.mfgrep (UInt32.ofNat (ofLe24 data)) (data.getD 3 0) (data.drop 4)))

def cpFtstat (cp : OsdpCp σ) (data : Bytes) : Option (CpErr × OsdpCp σ) :=
  (osdpFileCmdStatDecode app.file io.now cp.file data cp.app).map fun (ret, reset, f, s) =>
    (if ret = 0 then .none else .generic,
      { cp with file := f, app := s, reqOffline := cp.reqOffline || reset })

def cpCcrypt (cp : OsdpCp σ) (data : Bytes) : CpErr × OsdpCp σ :=
  if cp.scActive ∨ cp.cmdId ≠ cmdChlng ∨ data.length ≠ 32 then (.generic, cp)
  else
    let sc := osdpComputeSessionKeys aes cp.scUseScbkd { cp.sc with
      pdClientUid := bytes8Of (bytesAt data 0 8)
      pdRandom := bytes8Of (bytesAt data 8 8)
      pdCryptogram := .ofBytes (bytesAt data 16 16) }
    (if osdpVerifyPdCryptogram aes sc then .none else .generic, { cp with sc := sc })

def cpRmacI (cp : OsdpCp σ) (data : Bytes) : CpErr × OsdpCp σ :=
  if cp.scActive ∨ cp.cmdId ≠ cmdScrypt ∨ data.length ≠ 16 then (.generic, cp)
  else (.none, { cp with sc := { cp.sc with rMac := .ofBytes data } })

def cpCom (cp : OsdpCp σ) (data : Bytes) : CpErr × OsdpCp σ :=
  if data.length ≠ 5 then (.generic, cp)
  else (.none, { cp with address := (data.getD 0 0).toNat, baudRate := ofLe32 (data.drop 1) })

/-- The cases of the `switch` of `cp_decode_response`. -/
def cpReplies : List (UInt8 × (OsdpCp σ → Bytes → Option (CpErr × OsdpCp σ))) :=
  [(replyAck, fun cp data => some (if data ≠ [] then .generic else .none, cp)),
    (replyNak, fun cp data => some (if data.length ≠ 1 then .generic else .none, cp)),
    (replyPdid, fun cp data =>
      some (if data.length ≠ 12 then (.generic, cp) else (.none, { cp with pdId := pdidOf data }))),
    (replyPdcap, fun cp data =>
      some
        (if data.length % 3 ≠ 0 then (.generic, cp)
        else (.none, cpTakeCaps cp (readCaps cp.cap data)))),
    (replyOstatr, fun cp data =>
      some (cpStatus .output (cp.cap capOutputControl).numItems.toNat cp data)),
    (replyIstatr, fun cp data =>
      some (cpStatus .input (cp.cap capContactStatusMonitoring).numItems.toNat cp data)),
    (replyLstatr, fun cp data => some (cpStatus .onboard 2 cp data)),
    (replyRstatr, fun cp data => some (cpStatus .remote 1 cp data)),
    (replyCom, fun cp data => some (cpCom cp data)),
    (replyKeypad, fun cp data => cpKeypad cp data),
    (replyRaw, fun cp data => cpRaw cp data),
    (replyFmt, fun cp _ => some (.none, cp)),
    (replyBusy, fun cp data => some (if data ≠ [] then .generic else .retryCmd, cp)),
    (replyMfgrep, fun cp data => some (cpMfgrep cp data)),
    (replyFtstat, fun cp data => cpFtstat app io cp data),
    (replyCcrypt, fun cp data => some (cpCcrypt aes cp data)),
    (replyRmacI, fun cp data => some (cpRmacI cp data))]

def cpDecodeResponse (cp : OsdpCp σ) (id : UInt8) (data : Bytes) : Option (CpErr × OsdpCp σ) :=
  let cp := { cp with replyId := id }
  match (cpReplies aes app io).lookup id with
  | none => some (.unknown, cp)
  | some handler => handler cp data

/-- `cp_process_reply`. -/
def cpProcessReply (cp : OsdpCp σ) : Option (CpErr × OsdpCp σ) :=
  match osdpPhyCheckPacket io.now cp.toOsdpLink with
  | (.error e, l) =>
    if e = .overrun then none
    else
      some (match e with
        | .wait | .noData => .noData
        | .busy => .retryCmd
        | _ => .generic, { cp with toOsdpLink := l })
  | (.ok (), l) =>
    match osdpPhyDecodePacket aes l with
    | (.error _, l) | (.ok [], l) => some (.generic, { cp with toOsdpLink := l })
    | (.ok (id :: data), l) => cpDecodeResponse aes app io { cp with toOsdpLink := l } id data

/-! ### The exchange of a command and its reply -/

def cpPhyRunning (cp : OsdpCp σ) : Bool :=
  cp.phyState = .sendCmd ∨ cp.phyState = .replyWait ∨ cp.phyState = .wait

def cpPhyStateDone (cp : OsdpCp σ) : OsdpCp σ :=
  { cp with
    scTstamp := if cp.scActive then io.now else cp.scTstamp
    phyRetryCount := 0
    phyState := .done }

/-- `osdp_phy_state_reset` of the CP, whose channel has no `flush`. -/
def cpPhyStateReset (cp : OsdpCp σ) (isError : Bool) : OsdpCp σ :=
  let cp := { cp with toOsdpLink := osdpPhyStateReset cp.toOsdpLink isError, phyState := .idle }
  if isError then
    { cp with phyRetryCount := 0 }
  else cp

/-- The case `OSDP_CP_PHY_STATE_SEND_CMD`, and the bytes that were sent. -/
def cpPhySend (cp : OsdpCp σ) : Option (CpErr × Option Bytes × OsdpCp σ) :=
  (cpBuildAndSendPacket aes app io cp).map fun (frame, cp) =>
    match frame with
    | none => (.generic, none, { cp with phyState := .err })
    | some frame =>
      (.inprog, some frame,
        { cpPhyStateReset cp false with replyId := replyInvalid, phyState := .replyWait, phyTstamp := io.now })

/-- The case `OSDP_CP_PHY_STATE_REPLY_WAIT`. -/
def cpPhyReply (cp : OsdpCp σ) : Option (CpErr × OsdpCp σ) :=
  (cpProcessReply aes app io cp).map fun (rc, cp) =>
    if rc = .none then (.none, cpPhyStateDone io { cp with tstamp := io.now })
    else if rc = .unknown ∧ cp.cmdId = cmdPoll ∧ cp.ignUnsolicited then (.none, cpPhyStateDone io cp)
    else if rc = .generic ∨ rc = .unknown then (.generic, { cp with phyState := .err })
    else if rc = .retryCmd then
      (.canYield, { cp with phyTstamp := io.now, waitMs := osdpCmdRetryWaitMs, phyState := .wait })
    else if io.now - cp.phyTstamp > osdpRespToutMs then
      if cp.phyRetryCount < osdpCmdMaxRetries then
        (.canYield, { cp with
          waitMs := osdpCmdRetryWaitMs
          phyState := .wait
          phyRetryCount := cp.phyRetryCount + 1
          phyTstamp := io.now })
      else (.generic, { cp with phyState := .err })
    else (.inprog, cp)

/-- `cp_phy_state_update`. -/
def cpPhyStateUpdate (cp : OsdpCp σ) : Option (CpErr × Option Bytes × OsdpCp σ) :=
  match cp.phyState with
  | .done | .idle => some (.none, none, cp)
  | .err => some (.generic, none, cp)
  | .wait =>
    if io.now - cp.phyTstamp < cp.waitMs then some (.canYield, none, cp)
    else cpPhySend aes app io { cp with phyState := .sendCmd }
  | .sendCmd => cpPhySend aes app io cp
  | .replyWait => (cpPhyReply aes app io cp).map fun (err, cp) => (err, none, cp)

/-! ### The state machine -/

def doEventCallback (cp : OsdpCp σ) : OsdpCp σ :=
  match app.callback with
  | none => cp
  | some callback => { cp with app := callback cp.app cp.ephemeral }

/-- An event of the library itself, where the application wants these. -/
def cpNotify (type arg0 arg1 : ℕ) (cp : OsdpCp σ) : OsdpCp σ :=
  match app.callback with
  | none => cp
  | some callback =>
    if cp.enableNotification then
      { cp with app := callback cp.app (.event (.notification type arg0 arg1)) }
    else cp

/-- The second argument is not set here, and is what the stack holds. -/
def notifyPdStatus (isOnline : Bool) (cp : OsdpCp σ) : OsdpCp σ := cpNotify app 2 isOnline.toNat 0 cp

def notifyScStatus (cp : OsdpCp σ) : OsdpCp σ := cpNotify app 1 cp.scActive.toNat cp.scUseScbkd.toNat cp

/-- `notify_command_status`: the numbers of the commands in `enum osdp_cmd_e`. -/
def notifyCommandStatus (status : Bool) (cp : OsdpCp σ) : OsdpCp σ :=
  let ids : List (UInt8 × ℕ) :=
    [(cmdOut, 1), (cmdLed, 2), (cmdBuz, 3), (cmdText, 4), (cmdKeyset, 5), (cmdComset, 6), (cmdIstat, 9),
      (cmdOstat, 9), (cmdLstat, 9), (cmdRstat, 9)] ++ if cp.replyId = replyAck then [(cmdMfg, 7)] else []
  match ids.lookup cp.cmdId with
  | none => cp
  | some id => cpNotify app 0 id status.toNat cp

/-- `fill_local_keyset_cmd`. -/
def fillLocalKeysetCmd (cp : OsdpCp σ) : OsdpCp σ :=
  { cp with ephemeral := .cmd (.keyset 1 cp.sc.scbk.toList) }

/-- `cp_translate_cmd`: -1 is `none` inside. -/
def cpTranslateCmd (cp : OsdpCp σ) (cmd : OsdpCmd) : Option (Option UInt8 × OsdpCp σ) :=
  let cp := { cp with ephemeral := .cmd cmd }
  match cmdIdOf cmd with
  | none => none
  | some id =>
    match cmd with
    | .keyset type _ => some (if type ≠ 1 ∨ !cp.scActive then none else some id, cp)
    | _ => some (some id, cp)

/-- `cp_get_online_command`. -/
def cpGetOnlineCommand (cp : OsdpCp σ) : Option (Option UInt8 × OsdpCp σ) :=
  match cp.cmdQueue with
  | (broadcast, cmd) :: cmds =>
    (cpTranslateCmd { cp with cmdQueue := cmds } cmd).map fun (id, cp) =>
      (id, { cp with pktBroadcast := cp.pktBroadcast || broadcast })
  | [] =>
    let (ret, f, s) := osdpFileTxGetCommand app.file io.now cp.file cp.app
    let cp := { cp with file := f, app := s }
    if ret ≠ 0 then some (if ret < 0 then none else some (UInt8.ofNat ret.toNat), cp)
    else if io.now - cp.tstamp > osdpPdPollTimeoutMs then
      some (some cmdPoll, { cp with tstamp := io.now })
    else some (none, cp)

/-- `state_get_cmd`. -/
def stateGetCmd (cp : OsdpCp σ) : Option (Option UInt8 × OsdpCp σ) :=
  match cp.state with
  | .init => some (some cmdId, cp)
  | .capdet => some (some cmdCap, cp)
  | .scChlng => some (some cmdChlng, cp)
  | .scScrypt => some (some cmdScrypt, cp)
  | .setScbk => some (some cmdKeyset, cp)
  | .online => cpGetOnlineCommand app io cp
  | .offline => some (none, cp)

/-- The end of `cp_keyset_complete`: with the new key, a new session has to begin. -/
def cpEndSession (cp : OsdpCp σ) : OsdpCp σ :=
  let cp := notifyScStatus app { cp with scActive := false }
  { cp with reqRestartSc := cp.reqRestartSc || decide (cp.state = .online) }

/-- `cp_keyset_complete`; what `ephemeral_data` holds is read as a command. -/
def cpKeysetComplete (cp : OsdpCp σ) : Option (OsdpCp σ) :=
  if cp.scUseScbkd then some (cpEndSession app { cp with scUseScbkd := false })
  else
    match cp.ephemeral with
    | .cmd (.keyset _ data) =>
        some (cpEndSession app { cp with sc := { cp.sc with scbk := .ofBytes data } })
    | _ => none

/-- The replies to a `POLL` that the CP knows. -/
def pollReplies : List UInt8 :=
  [replyLstatr, replyIstatr, replyOstatr, replyRstatr, replyMfgrep, replyRaw, replyKeypad]

/-- The replies to other commands that the CP allows, besides the ACK. -/
def onlineReplies : List (UInt8 × UInt8) :=
  [(cmdFiletransfer, replyFtstat), (cmdComset, replyCom), (cmdMfg, replyMfgrep), (cmdLstat, replyLstatr),
    (cmdIstat, replyIstatr), (cmdOstat, replyOstatr), (cmdRstat, replyRstatr)]

/-- `cp_check_online_response`. -/
def cpCheckOnlineResponse (cp : OsdpCp σ) : Option (Bool × OsdpCp σ) :=
  if cp.replyId = replyAck then
    if cp.cmdId = cmdKeyset then (cpKeysetComplete app cp).map (true, ·) else some (true, cp)
  else if cp.replyId = replyNak ∨ cp.replyId = replyInvalid then some (false, cp)
  else if cp.cmdId = cmdPoll then some (cp.replyId ∈ pollReplies || cp.ignUnsolicited, cp)
  else some ((cp.cmdId, cp.replyId) ∈ onlineReplies, cp)

/-- `state_check_reply`. -/
def stateCheckReply (cp : OsdpCp σ) : Option (Bool × OsdpCp σ) :=
  match cp.state with
  | .init => some (cp.replyId = replyPdid, cp)
  | .capdet => some (cp.replyId = replyPdcap, cp)
  | .scChlng => some (cp.replyId = replyCcrypt, cp)
  | .scScrypt => some (cp.replyId = replyRmacI, cp)
  | .setScbk => some (cp.replyId = replyAck, cp)
  | .online => cpCheckOnlineResponse app cp
  | .offline => some (false, cp)

def cpScShouldRetry (cp : OsdpCp σ) : Bool :=
  cp.scIsCapable ∧ !cp.scActive ∧ io.now - cp.scTstamp > osdpPdScRetryMs

/-- `get_next_ok_state`. -/
def getNextOkState (cp : OsdpCp σ) : Option (CpState × OsdpCp σ) :=
  match cp.state with
  | .init => some (.capdet, cp)
  | .capdet =>
    some (if cp.scIsCapable then (.scChlng, { cp with scUseScbkd := false })
      else if cp.enforceSecure then (.offline, cp) else (.online, cp))
  | .scChlng => some (.scScrypt, cp)
  | .scScrypt =>
    let cp := notifyScStatus app { cp with scActive := true }
    some (if cp.scUseScbkd then (.setScbk, fillLocalKeysetCmd cp) else (.online, cp))
  | .setScbk => (cpKeysetComplete app cp).map (.scChlng, ·)
  | .online => some (if cpScShouldRetry io cp then .scChlng else .online, cp)
  | .offline => some (if io.now - cp.tstamp > cp.waitMs then .init else .offline, cp)

/-- `get_next_err_state`. -/
def getNextErrState (cp : OsdpCp σ) : CpState × OsdpCp σ :=
  match cp.state with
  | .init | .capdet | .online | .offline => (.offline, cp)
  | .scChlng =>
    if cp.enforceSecure then (.offline, cp)
    else if !cp.scUseScbkd then (.scChlng, { cp with scUseScbkd := true })
    else (.online, { cp with scUseScbkd := false, scTstamp := io.now })
  | .scScrypt => (if cp.enforceSecure then .offline else .online, cp)
  | .setScbk =>
    let cp := notifyScStatus app { cp with scActive := false }
    (if cp.enforceSecure ∨ cp.scUseScbkd then .offline else .online, cp)

/-- `osdp_sc_setup` in CP mode. -/
def cpScSetup (cp : OsdpCp σ) : OsdpCp σ :=
  { cp with sc := { OsdpSecureChannel.zero with
    scbk := if cp.hasScbk then cp.sc.scbk else .zero
    cpRandom := io.random } }

/-- `cp_state_change`. -/
def cpStateChange (next : CpState) (cp : OsdpCp σ) : OsdpCp σ :=
  let cp := match next with
    | .init => cpPhyStateReset cp true
    | .online => notifyPdStatus app true cp
    | .offline =>
      notifyPdStatus app false (notifyScStatus app
        { cp with tstamp := io.now, waitMs := osdpOnlineRetryWaitMaxMs, scActive := false })
    | .scChlng => cpScSetup io cp
    | _ => cp
  { cp with state := next }

/-! The requests that are looked at while the PD is online or comes online. -/

def cpTakeRestartSc (next : CpState) (cp : OsdpCp σ) : CpState × OsdpCp σ :=
  if cp.reqRestartSc then (.scChlng, cpPhyStateReset { cp with reqRestartSc := false } true)
  else (next, cp)

def cpTakeOffline (next : CpState) (cp : OsdpCp σ) : CpState × OsdpCp σ :=
  if cp.reqOffline then (.offline, { cp with reqOffline := false }) else (next, cp)

def cpTakeEventSend (cp : OsdpCp σ) : OsdpCp σ :=
  if cp.reqEventSend then doEventCallback app { cp with reqEventSend := false } else cp

def cpRequests (next : CpState) (cp : OsdpCp σ) : CpState × OsdpCp σ :=
  if cp.state = .online ∨ next = .online then
    let (next, cp) := cpTakeRestartSc next cp
    let (next, cp) := cpTakeOffline next cp
    (next, cpTakeEventSend app cp)
  else (next, cp)

/-- The rest of `state_update`, once an exchange is over or none is going on. -/
def cpNextState (err : Bool) (cp : OsdpCp σ) : Option (OsdpCp σ) :=
  (if err then some (getNextErrState app io cp) else getNextOkState app io cp).map fun (next, cp') =>
    let (next, cp') := cpRequests app next cp'
    if cp.state ≠ next then cpStateChange app io next cp' else cp'

/-- The middle of `state_update`: a command is looked for, or the reply is judged. -/
def cpDispatch (cp : OsdpCp σ) : Option (OsdpCp σ) :=
  match cp.phyState with
  | .idle =>
    match stateGetCmd app io cp with
    | none => none
    | some (some id, cp) => some { cp with cmdId := id, phyState := .sendCmd }
    | some (none, cp) => cpNextState app io false { cp with cmdId := 0 }
  | .err | .done =>
    match stateCheckReply app cp with
    | none => none
    | some (status, cp) =>
      let cp := notifyCommandStatus app status cp
      cpNextState app io (cp.phyState = .err ∨ !status) (cpPhyStateReset cp false)
  | _ => none

/-- `state_update`: the bytes that were sent, and whether the channel is given free. -/
def stateUpdate (cp : OsdpCp σ) : Option (Bool × Option Bytes × OsdpCp σ) :=
  if cpPhyRunning cp then
    match cpPhyStateUpdate aes app io cp with
    | none => none
    | some (err, frame, cp) =>
      if err = .inprog then some (false, frame, cp)
      else if err = .canYield then some (true, frame, cp)
      else (cpDispatch app io cp).map fun cp => (true, frame, cp)
  else (cpDispatch app io cp).map fun cp => (true, none, cp)

end Cp

/-! ### The calls of the application -/

section CpCalls

variable {σ : Type}

/-- `cp_submit_command` where the CP has one PD; `blocks` is the number of commands that the pool
has room for. -/
def cpSubmitCommand (app : CpApp σ) (blocks : ℕ) (broadcast : Bool)
    (cmd : OsdpCmd) (cp : OsdpCp σ) : ℤ × OsdpCp σ :=
  if cp.state ≠ .online ∨ broadcast ∧ cp.enforceSecure then (-1, cp)
  else
    match cmd with
    | .fileTx id flags =>
      let (ret, f, s) := osdpFileTxCommand app.file cp.file id flags cp.app
      (ret, { cp with file := f, app := s })
    | cmd =>
      let refused : Bool := match cmd with
        | .keyset type _ => type ≠ 1 ∨ !cp.scActive
        | _ => false
      if refused ∨ blocks ≤ cp.cmdQueue.length then (-1, cp)
      else (0, { cp with cmdQueue := cp.cmdQueue ++ [(broadcast, cmd)] })

def osdpCpFlushCommands (cp : OsdpCp σ) : ℕ × OsdpCp σ := (cp.cmdQueue.length, { cp with cmdQueue := [] })

end CpCalls

/-! ### Set-up and runs -/

/-- What `osdp_pd_info_t` holds for the CP. -/
structure OsdpCpInfo where
  baudRate : UInt32
  address : ℕ
  enforceSecure : Bool
  installMode : Bool
  allowEmpty : Bool
  ignUnsolicited : Bool
  enableNotification : Bool
  scbk : Option Block

/-- `cp_add_pd` for one PD. -/
def cpAddPd {σ : Type} (info : OsdpCpInfo) (s : σ) : Option (OsdpCp σ) :=
  if info.scbk.isNone ∧ info.enforceSecure then none
  else some
    { pdMode := false
      scCapable := false
      scDisabled := info.scbk.isNone
      scActive := false
      scUseScbkd := false
      skipSeqCheck := false
      pktHasMark := false
      pktBroadcast := false
      installMode := info.installMode
      allowEmpty := info.allowEmpty
      address := info.address
      seqNumber := -1
      tstamp := 0
      cmdId := 0
      sc := { OsdpSecureChannel.zero with scbk := info.scbk.getD .zero }
      rxWaiting := []
      rxRb := rxRbInit
      packetBuf := []
      packetLen := 0
      packetBufLen := 0
      packetScanSkip := 0
      enforceSecure := info.enforceSecure
      ignUnsolicited := info.ignUnsolicited
      enableNotification := info.enableNotification
      hasScbk := info.scbk.isSome
      cap := fun _ => ⟨0, 0, 0⟩
      pdId := ⟨0, 0, 0, 0, 0⟩
      baudRate := info.baudRate
      scTstamp := 0
      phyTstamp := 0
      waitMs := 0
      phyRetryCount := 0
      peerRxSize := 0
      state := .init
      phyState := .idle
      reqRestartSc := false
      reqEventSend := false
      reqOffline := false
      replyId := 0
      cmdQueue := []
      ephemeral := .blank
      file := .reset
      app := s }

inductive CpOp
  | refresh (io : CpInput) (bytes : Bytes)
  | submitCommand (broadcast : Bool) (cmd : OsdpCmd)
  | flushCommands

/-- `cp_refresh` of a PD that has its channel to itself, when `bytes` have come since the last time.
-/
def cpRefresh {σ : Type} (aes : Aes) (app : CpApp σ) (io : CpInput) (bytes : Bytes) (cp : OsdpCp σ) :
    Option (Option Bytes × OsdpCp σ) :=
  (stateUpdate aes app io { cp with rxWaiting := cp.rxWaiting ++ bytes }).map Prod.snd

/-- One operation, and the bytes that were sent. -/
def CpOp.step {σ : Type} (aes : Aes) (app : CpApp σ) (blocks : ℕ) (cp : OsdpCp σ) :
    CpOp → Option (Option Bytes × OsdpCp σ)
  | .refresh io bytes => cpRefresh aes app io bytes cp
  | .submitCommand broadcast cmd => some (none, (cpSubmitCommand app blocks broadcast cmd cp).2)
  | .flushCommands => some (none, (osdpCpFlushCommands cp).2)

def sampleCpInfo (enforceSecure : Bool) : OsdpCpInfo :=
  ⟨9600, 1, enforceSecure, false, false, false, false, some sampleScbk⟩

/-- An application that keeps what it hears. -/
def sampleCpApp : CpApp (List CpEphemeral) := ⟨some fun events event => events ++ [event], none⟩

end LeafReader
