import LeafReader.OsdpMsg

/-!
# File transfers (`osdp_file.c`)

The sender of a file is the CP, the receiver the PD. The operations on files are the application's,
over a state of its own. A function that can stop the program in an assertion returns `none` there.
-/

namespace LeafReader

def fileTransferHeaderSize : ℕ := 11
def fileTransferStatSize : ℕ := 7
def osdpFileErrorRetryMax : ℕ := 10

def osdpFileTxStatusAck : ℤ := 0
def osdpFileTxStatusContentsProcessed : ℤ := 1
def osdpFileTxStatusPdReset : ℤ := 2
def osdpFileTxStatusKeepAlive : ℤ := 3
def osdpFileTxStatusErrInvalid : ℤ := -3

def osdpFileTxFlagExclusive : UInt32 := 0x01000000
def osdpFileTxFlagPlainText : UInt32 := 0x02000000
def osdpFileTxFlagPollResp : UInt32 := 0x04000000
def osdpCmdFileTxFlagCancel : UInt32 := 0x80000000

/-- `enum file_tx_state_e`. -/
inductive FileTxState
  | idle
  | inprog
  | done
  | keepAlive
deriving DecidableEq

/-- `struct osdp_file_ops`; `fopen` also sets the size of the file. -/
structure OsdpFileOps (σ : Type) where
  fopen : σ → ℕ → ℤ → (ℤ × ℤ) × σ
  read : σ → ℕ → ℕ → (ℤ × Bytes) × σ
  write : σ → Bytes → ℕ → ℤ × σ
  close : σ → ℤ × σ

/-- `struct osdp_file` without the operations. -/
structure OsdpFile where
  flags : UInt32
  fileId : ℕ
  state : FileTxState
  length : ℤ
  size : ℕ
  offset : ℕ
  errors : ℕ
  cancelReq : Bool
  tstamp : ℤ
  waitTimeMs : ℕ
deriving DecidableEq

/-- `file_state_reset`: every field is set, so that nothing of the old state is left. -/
def OsdpFile.reset : OsdpFile := ⟨0, 0, .idle, 0, 0, 0, 0, false, 0, 0⟩

def fileTxInProgress (f : OsdpFile) : Bool := f.state = .inprog

def setFlagV (flags mask : UInt32) (v : Bool) : UInt32 := if v then flags ||| mask else flags &&& ~~~mask

def isSetFlag (flags mask : UInt32) : Bool := flags &&& mask = mask

def writeFileTxHeader (f : OsdpFile) : Bytes :=
  [UInt8.ofNat f.fileId] ++ le32 (UInt32.ofNat f.size) ++ le32 (UInt32.ofNat f.offset) ++
    le16 (UInt16.ofNat f.length.toNat)

/-! ### The sender -/

section Sender

variable {σ : Type}

/-- `osdp_file_cmd_tx_build` while a transfer is going on: the bytes behind the identifier, or
`none` where the transfer is aborted. -/
def osdpFileCmdTxBuild (ops : OsdpFileOps σ) (f : OsdpFile) (maxLen : ℕ) (s : σ) :
    Option Bytes × OsdpFile × σ :=
  if maxLen ≤ fileTransferHeaderSize then (none, .reset, s)
  else if f.state = .keepAlive then (some (writeFileTxHeader f), f, s)
  else
    let ((length, data), s) := ops.read s (maxLen - fileTransferHeaderSize - 16) f.offset
    if length ≤ 0 then (none, .reset, s)
    else
      let f := { f with length := length }
      (some (writeFileTxHeader f ++ data.take length.toNat), f, s)

/-- The `int16_t` of two bytes. -/
def int16At (b : Bytes) : ℤ :=
  let n := (ofLe16 b).toNat
  if n < 32768 then n else n - 65536

/-- `osdp_file_cmd_stat_decode`: whether the PD said it would reset, and the result, besides the new
state. -/
def osdpFileCmdStatDecode (ops : Option (OsdpFileOps σ)) (now : ℤ) (f : OsdpFile) (buf : Bytes) (s : σ) :
    Option (ℤ × Bool × OsdpFile × σ) :=
  match ops with
  | none => some (-1, false, f, s)
  | some ops =>
    if f.state ≠ .inprog then some (-1, false, f, s)
    else if buf.length < fileTransferStatSize then some (-1, false, f, s)
    else if buf.length ≠ fileTransferStatSize ∨ ¬ (f.offset + f.length ≤ f.size) then none
    else
      let control := buf.getD 0 0
      let status := int16At (buf.drop 3)
      let flags := setFlagV f.flags osdpFileTxFlagExclusive (control &&& 0x01 = 0)
      let flags := setFlagV flags osdpFileTxFlagPlainText (control &&& 0x02 ≠ 0)
      let flags := setFlagV flags osdpFileTxFlagPollResp (control &&& 0x04 ≠ 0)
      let offset := (f.offset + f.length).toNat
      let doClose := f.length ≠ 0 ∧ offset = f.size
      let f := { f with
        flags := flags
        offset := offset
        waitTimeMs := (ofLe16 (buf.drop 1)).toNat
        tstamp := now
        length := 0
        errors := 0 }
      if f.offset ≠ f.size then some (0, false, f, s)
      else
        let s := if doClose then (ops.close s).2 else s
        if status = osdpFileTxStatusKeepAlive then some (0, false, { f with state := .keepAlive }, s)
        else if status = osdpFileTxStatusPdReset then some (0, true, { f with state := .done }, s)
        else if status = osdpFileTxStatusContentsProcessed then
          some (0, false, { f with state := .done }, s)
        else some (-1, false, { f with errors := f.errors + 1 }, s)

def osdpFileTxAbort (ops : Option (OsdpFileOps σ)) (f : OsdpFile) (s : σ) : OsdpFile × σ :=
  match ops with
  | none => (f, s)
  | some ops => if fileTxInProgress f then (.reset, (ops.close s).2) else (f, s)

/-- `osdp_file_tx_get_command`: -1 for waiting, 0 for nothing to send. -/
def osdpFileTxGetCommand (ops : Option (OsdpFileOps σ)) (now : ℤ) (f : OsdpFile) (s : σ) :
    ℤ × OsdpFile × σ :=
  if ops.isNone ∨ f.state = .idle ∨ f.state = .done then (0, f, s)
  else if f.errors > osdpFileErrorRetryMax ∨ f.cancelReq then
    let (f, s) := osdpFileTxAbort ops f s
    (cmdAbort.toNat, f, s)
  else if f.waitTimeMs ≠ 0 ∧ now - f.tstamp < f.waitTimeMs then
    (if isSetFlag f.flags osdpFileTxFlagExclusive then -1 else 0, f, s)
  else if isSetFlag f.flags osdpFileTxFlagPollResp then (cmdPoll.toNat, f, s)
  else (cmdFiletransfer.toNat, f, s)

def osdpFileTxCommand (ops : Option (OsdpFileOps σ)) (f : OsdpFile) (fileId : ℕ)
    (flags : UInt32) (s : σ) :
    ℤ × OsdpFile × σ :=
  match ops with
  | none => (-1, f, s)
  | some ops =>
    if fileTxInProgress f then
      if flags &&& osdpCmdFileTxFlagCancel ≠ 0 ∧ fileId = f.fileId then
        (0, { f with cancelReq := true }, s)
      else (-1, f, s)
    else if flags &&& osdpCmdFileTxFlagCancel ≠ 0 then (-1, f, s)
    else
      let ((rc, size), s) := ops.fopen s fileId 0
      if rc < 0 ∨ size ≤ 0 then (-1, f, s)
      else
        (0, { OsdpFile.reset with flags := flags, fileId := fileId, size := size.toNat, state := .inprog }, s)

end Sender

/-! ### The receiver -/

section Receiver

variable {σ : Type}

/-- The part of `osdp_file_cmd_tx_decode` that opens the file; `ask` is the command callback, if
there is one. -/
def openForWrite (ops : OsdpFileOps σ) (ask : Option (σ → OsdpCmd → ℤ × σ))
    (f : OsdpFile) (fileType size : ℕ) (s : σ) : Option OsdpFile × σ :=
  let (rc, s) := match ask with
    | none => (0, s)
    | some ask => ask s (.fileTx fileType f.flags)
  if rc < 0 then (none, s)
  else
    let ((rc, _), s) := ops.fopen s fileType size
    if rc < 0 then (none, s)
    else (some { OsdpFile.reset with fileId := fileType, size := size, state := .inprog }, s)

/-- `osdp_file_cmd_tx_decode`. -/
def osdpFileCmdTxDecode (ops : Option (OsdpFileOps σ)) (ask : Option (σ → OsdpCmd → ℤ × σ)) (f : OsdpFile)
    (buf : Bytes) (s : σ) : Option (ℤ × OsdpFile × σ) :=
  match ops with
  | none => some (-1, f, s)
  | some ops =>
    if buf.length ≤ fileTransferHeaderSize then some (-1, f, s)
    else
      let fileType := (buf.getD 0 0).toNat
      let size := (ofLe32 (buf.drop 1)).toNat
      let offset := (ofLe32 (buf.drop 5)).toNat
      let length := (ofLe16 (buf.drop 9)).toNat
      if length + fileTransferHeaderSize ≠ buf.length then none
      else
        let r :=
          if f.state = .idle ∨ f.state = .done then openForWrite ops ask f fileType size s
          else (some f, s)
        match r with
        | (none, s) => some (-1, f, s)
        | (some f, s) =>
          if f.state ≠ .inprog then some (-1, f, s)
          else
            let (n, s) := ops.write s (buf.drop fileTransferHeaderSize) offset
            let f := { f with length := n }
            if n ≠ length then some (-1, { f with errors := f.errors + 1 }, s) else some (0, f, s)

/-- `osdp_file_cmd_stat_build`: the bytes behind the identifier; inner `none` for an error. -/
def osdpFileCmdStatBuild (ops : Option (OsdpFileOps σ)) (f : OsdpFile) (maxLen : ℕ) (s : σ) :
    Option (Option Bytes × OsdpFile × σ) :=
  match ops with
  | none => some (none, f, s)
  | some ops =>
    if f.state ≠ .inprog ∨ maxLen < fileTransferStatSize then some (none, f, s)
    else
      let status := if f.length > 0 then osdpFileTxStatusAck else osdpFileTxStatusErrInvalid
      let offset := if f.length > 0 then (f.offset + f.length.toNat) % 2 ^ 32 else f.offset
      let f := { f with offset := offset, length := 0 }
      if offset > f.size then none
      else
        let stat (status : ℤ) : Bytes := [0x01] ++ le16 0 ++ le16 (UInt16.ofInt status) ++ le16 0
        if offset = f.size then
          let (rc, s) := ops.close s
          if rc < 0 then some (none, f, s)
          else some (some (stat osdpFileTxStatusContentsProcessed), { f with state := .done }, s)
        else some (some (stat status), f, s)

end Receiver

end LeafReader
