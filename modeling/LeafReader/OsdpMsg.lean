import LeafReader.OsdpPhy

/-!
# Commands, events and replies

The structures that the application and the library hand each other (`osdp.h`), and the bytes of
each message behind its identifier. An array that comes with a length is the list of the bytes in
use. Numbers that the application gives as `int` are not negative. The timer of a permanent LED
setting is neither sent nor filled in, and is left out.
-/

namespace LeafReader

/-- A field of three bytes, the most significant one first. -/
def be24 (n : UInt32) : Bytes := [(n >>> 16).toUInt8, (n >>> 8).toUInt8, n.toUInt8]

def ofBe24 (b : Bytes) : ℕ :=
  65536 * (b.getD 0 0).toNat + 256 * (b.getD 1 0).toNat + (b.getD 2 0).toNat

/-! ### Identifiers -/

def cmdPoll : UInt8 := 0x60
def cmdId : UInt8 := 0x61
def cmdCap : UInt8 := 0x62
def cmdLstat : UInt8 := 0x64
def cmdIstat : UInt8 := 0x65
def cmdOstat : UInt8 := 0x66
def cmdRstat : UInt8 := 0x67
def cmdOut : UInt8 := 0x68
def cmdLed : UInt8 := 0x69
def cmdBuz : UInt8 := 0x6A
def cmdText : UInt8 := 0x6B
def cmdComset : UInt8 := 0x6E
def cmdAcurxsize : UInt8 := 0x7B
def cmdFiletransfer : UInt8 := 0x7C
def cmdMfg : UInt8 := 0x80
def cmdAbort : UInt8 := 0xA2
def cmdKeepactive : UInt8 := 0xA7

def replyPdid : UInt8 := 0x45
def replyPdcap : UInt8 := 0x46
def replyLstatr : UInt8 := 0x48
def replyIstatr : UInt8 := 0x49
def replyOstatr : UInt8 := 0x4A
def replyRstatr : UInt8 := 0x4B
def replyRaw : UInt8 := 0x50
def replyFmt : UInt8 := 0x51
def replyKeypad : UInt8 := 0x53
def replyCom : UInt8 := 0x54
def replyFtstat : UInt8 := 0x7A
def replyMfgrep : UInt8 := 0x90

def nakCmdLen : UInt8 := 2
def nakCmdUnknown : UInt8 := 3
def nakRecord : UInt8 := 9

/-! ### Structures -/

/-- `enum osdp_status_report_type`. -/
inductive OsdpStatusType
  | input
  | output
  | onboard
  | remote
deriving DecidableEq

/-- `struct osdp_status_report`. -/
structure OsdpStatusReport where
  type : OsdpStatusType
  nrEntries : ℕ
  report : Bytes
deriving DecidableEq

/-- `struct osdp_cmd_led_params` without its timer. -/
structure OsdpCmdLedParams where
  controlCode : UInt8
  onCount : UInt8
  offCount : UInt8
  onColor : UInt8
  offColor : UInt8
deriving DecidableEq

/-- `struct osdp_cmd`. -/
inductive OsdpCmd
  | output (outputNo controlCode : UInt8) (timerCount : UInt16)
  | led (reader ledNumber : UInt8) (temporary : OsdpCmdLedParams) (timerCount : UInt16)
      (permanent : OsdpCmdLedParams)
  | buzzer (reader controlCode onCount offCount repCount : UInt8)
  | text (reader controlCode tempTime offsetRow offsetCol : UInt8) (data : Bytes)
  | comset (address : UInt8) (baudRate : UInt32)
  | comsetDone (address : UInt8) (baudRate : UInt32)
  | keyset (type : UInt8) (data : Bytes)
  | mfg (vendorCode : UInt32) (command : UInt8) (data : Bytes)
  | fileTx (id : ℕ) (flags : UInt32)
  | status (report : OsdpStatusReport)
deriving DecidableEq

/-- `struct osdp_event`; the length of card data is counted in bits. -/
inductive OsdpEvent
  | cardread (readerNo format direction length : ℕ) (data : Bytes)
  | keypress (readerNo : ℕ) (data : Bytes)
  | mfgrep (vendorCode : UInt32) (command : UInt8) (data : Bytes)
  | status (report : OsdpStatusReport)
  | notification (type arg0 arg1 : ℕ)
deriving DecidableEq

/-- `struct osdp_pd_cap`. -/
structure OsdpPdCap where
  functionCode : UInt8
  complianceLevel : UInt8
  numItems : UInt8
deriving DecidableEq

/-- `struct osdp_pd_id`. -/
structure OsdpPdId where
  version : ℕ
  model : ℕ
  vendorCode : UInt32
  serialNumber : UInt32
  firmwareVersion : UInt32
deriving DecidableEq

/-! ### Function codes of capabilities -/

def capContactStatusMonitoring : ℕ := 1
def capOutputControl : ℕ := 2
def capReaderLedControl : ℕ := 4
def capReaderAudibleOutput : ℕ := 5
def capReaderTextOutput : ℕ := 6
def capCheckCharacterSupport : ℕ := 8
def capCommunicationSecurity : ℕ := 9
def capReceiveBuffersize : ℕ := 10
def capOsdpVersion : ℕ := 16
def capSentinel : ℕ := 17

/-! ### Records of commands -/

def OsdpCmdLedParams.bytes (p : OsdpCmdLedParams) : Bytes :=
  [p.controlCode, p.onCount, p.offCount, p.onColor, p.offColor]

/-- What `cp_build_command` puts behind the identifier of a command of the application. -/
def OsdpCmd.record : OsdpCmd → Bytes
  | .output outputNo controlCode timerCount => [outputNo, controlCode] ++ le16 timerCount
  | .led reader ledNumber temporary timerCount permanent =>
    [reader, ledNumber] ++ temporary.bytes ++ le16 timerCount ++ permanent.bytes
  | .buzzer reader controlCode onCount offCount repCount =>
    [reader, controlCode, onCount, offCount, repCount]
  | .text reader controlCode tempTime offsetRow offsetCol data =>
    [reader, controlCode, tempTime, offsetRow, offsetCol, UInt8.ofNat data.length] ++ data
  | .comset address baudRate => [address] ++ le32 baudRate
  | .mfg vendorCode command data => le24 vendorCode ++ [command] ++ data
  | _ => []

def ledParamsAt (b : Bytes) : OsdpCmdLedParams :=
  ⟨b.getD 0 0, b.getD 1 0, b.getD 2 0, b.getD 3 0, b.getD 4 0⟩

/-! What `pd_decode_command` reads of a record. -/

def outputOf (b : Bytes) : OsdpCmd := .output (b.getD 0 0) (b.getD 1 0) (ofLe16 (b.drop 2))

def ledOf (b : Bytes) : OsdpCmd :=
  .led (b.getD 0 0) (b.getD 1 0) (ledParamsAt (b.drop 2)) (ofLe16 (b.drop 7)) (ledParamsAt (b.drop 9))

def buzzerOf (b : Bytes) : OsdpCmd :=
  .buzzer (b.getD 0 0) (b.getD 1 0) (b.getD 2 0) (b.getD 3 0) (b.getD 4 0)

def textOf (b : Bytes) : OsdpCmd :=
  .text (b.getD 0 0) (b.getD 1 0) (b.getD 2 0) (b.getD 3 0) (b.getD 4 0)
    ((b.drop 6).take (b.getD 5 0).toNat)

def comsetOf (b : Bytes) : OsdpCmd := .comset (b.getD 0 0) (ofLe32 (b.drop 1))

/-- The length of the data is kept in one byte. -/
def mfgOf (b : Bytes) : OsdpCmd :=
  .mfg (UInt32.ofNat (ofLe24 b)) (b.getD 3 0) ((b.drop 4).take ((b.length - 4) % 256))

/-! ### Replies -/

/-- A reply of the PD: `reply_id`, with what `ephemeral_data` holds for it. -/
inductive PdReply
  | ack
  | nak (code : UInt8)
  | pdid
  | pdcap
  | lstatr (report : OsdpStatusReport)
  | istatr (report : OsdpStatusReport)
  | ostatr (report : OsdpStatusReport)
  | rstatr (report : OsdpStatusReport)
  | keypad (readerNo : ℕ) (data : Bytes)
  | raw (readerNo format length : ℕ) (data : Bytes)
  | com (address : UInt8) (baudRate : UInt32)
  | mfgrep (vendorCode : UInt32) (command : UInt8) (data : Bytes)
  | ftstat
  | ccrypt
  | rmacI
  | keysetAck (key : Bytes)
deriving DecidableEq

def PdReply.id : PdReply → UInt8
  | .ack | .keysetAck _ => replyAck
  | .nak _ => replyNak
  | .pdid => replyPdid
  | .pdcap => replyPdcap
  | .lstatr _ => replyLstatr
  | .istatr _ => replyIstatr
  | .ostatr _ => replyOstatr
  | .rstatr _ => replyRstatr
  | .keypad .. => replyKeypad
  | .raw .. => replyRaw
  | .com .. => replyCom
  | .mfgrep .. => replyMfgrep
  | .ftstat => replyFtstat
  | .ccrypt => replyCcrypt
  | .rmacI => replyRmacI

end LeafReader
