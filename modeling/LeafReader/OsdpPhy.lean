import LeafReader.Crc16
import LeafReader.OsdpSc
import LeafReader.Ring

/-!
# OSDP packets (`osdp_phy.c`)

`OsdpLink` holds what this file reads and writes of `struct osdp_pd`: the flags as one field each,
the state of the receiver, the sequence number and the secure channel. The bytes that the serial
driver holds for the next call of `recv` are a field too. Data traces and the build option that
leaves out the mark byte are not part of the firmware.
-/

namespace LeafReader

/-! ### Constants -/

def osdpPktMark : UInt8 := 0xFF
def osdpPktSom : UInt8 := 0x53
def pktControlSqn : UInt8 := 0x03
def pktControlCrc : UInt8 := 0x04
def pktControlScb : UInt8 := 0x08

def scs11 : UInt8 := 0x11
def scs12 : UInt8 := 0x12
def scs13 : UInt8 := 0x13
def scs14 : UInt8 := 0x14
def scs15 : UInt8 := 0x15
def scs16 : UInt8 := 0x16
def scs17 : UInt8 := 0x17
def scs18 : UInt8 := 0x18

def osdpPacketBufSize : ℕ := 256
def osdpRxRbSize : ℕ := 512
def osdpMinimumPacketSize : ℕ := 128

def cmdKeyset : UInt8 := 0x75
def cmdChlng : UInt8 := 0x76
def cmdScrypt : UInt8 := 0x77

def replyAck : UInt8 := 0x40
def replyNak : UInt8 := 0x41
def replyCcrypt : UInt8 := 0x76
def replyRmacI : UInt8 := 0x78
def replyBusy : UInt8 := 0x79

/-- The codes of a NAK that the packet layer asks for. -/
def nakSeqNum : UInt8 := 4
def nakScUnsup : UInt8 := 5
def nakScCond : UInt8 := 6

/-- `enum osdp_pkt_errors_e`; a NACK comes with the code that is left for the reply. `nackLen` is a
length of a message that is negative and equal to `OSDP_ERR_PKT_NACK`. `overrun` is none of them: bytes
would be written past the end of `packet_buf`, and the code does not look. -/
inductive PktErr
  | fmt
  | wait
  | skip
  | check
  | busy
  | nack (code : UInt8)
  | nackLen
  | build
  | noData
  | overrun
deriving DecidableEq

/-- The receive buffer at first. -/
def rxRbInit : Ring UInt8 osdpRxRbSize := .init 0 (by decide)

structure OsdpLink where
  pdMode : Bool
  scCapable : Bool
  scDisabled : Bool
  scActive : Bool
  scUseScbkd : Bool
  skipSeqCheck : Bool
  pktHasMark : Bool
  pktBroadcast : Bool
  installMode : Bool
  allowEmpty : Bool
  address : ℕ
  seqNumber : ℤ
  tstamp : ℤ
  cmdId : UInt8
  sc : OsdpSecureChannel
  rxWaiting : Bytes
  rxRb : Ring UInt8 osdpRxRbSize
  packetBuf : Bytes
  packetLen : ℕ
  packetBufLen : ℕ
  packetScanSkip : ℕ

/-- The mark byte, if the packet has one. -/
def markOf (m : Bool) : Bytes := if m then [osdpPktMark] else []

namespace OsdpLink

def scDeactivate (l : OsdpLink) : OsdpLink := { l with scActive := false }

def scIsCapable (l : OsdpLink) : Bool := l.scCapable && !l.scDisabled

/-- 1 when the packet at hand begins with a mark byte. -/
def mark (l : OsdpLink) : ℕ := if l.pktHasMark then 1 else 0

/-- The byte `i` places after the start of the header of the received packet. -/
def pkt (l : OsdpLink) (i : ℕ) : UInt8 := l.packetBuf.getD (l.mark + i) 0

/-- `bs` written into the packet buffer from index `i` on. -/
def overwrite (l : OsdpLink) (i : ℕ) (bs : Bytes) : OsdpLink :=
  { l with packetBuf := l.packetBuf.take i ++ bs ++ l.packetBuf.drop (i + bs.length) }

/-- `bs` put behind what the packet buffer holds. -/
def collect (l : OsdpLink) (bs : Bytes) : OsdpLink :=
  { l.overwrite l.packetBufLen bs with packetBufLen := l.packetBufLen + bs.length }

/-- The start byte, with the mark byte before it if `m`, put at the front of the packet buffer. -/
def startPacket (l : OsdpLink) (m : Bool) : OsdpLink :=
  { l.overwrite 0 (markOf m ++ [osdpPktSom]) with
    packetBufLen := (markOf m ++ [osdpPktSom]).length
    pktHasMark := m }

end OsdpLink

/-! ### Sending -/

/-- The value of the control field, and the new state. -/
def osdpPhyGetSeqNumber (l : OsdpLink) (doInc : Bool) : UInt8 × OsdpLink :=
  let n := if doInc then (if l.seqNumber + 1 > 3 then 1 else l.seqNumber + 1) else l.seqNumber
  (UInt8.ofNat (n % 4).toNat, { l with seqNumber := n })

def osdpPhyInScHandshake (isReply : Bool) (id : UInt8) : Bool :=
  if isReply then id == replyCcrypt || id == replyRmacI else id == cmdChlng || id == cmdScrypt

/-- `osdp_phy_packet_init`: the header that the payload is put behind. The length is filled in at
the end, the third byte of a handshake's security block by the function that builds the message. -/
def osdpPhyPacketInit (l : OsdpLink) (id : UInt8) (maxLen : ℕ) : Except PktErr Bytes × OsdpLink :=
  if maxLen < osdpMinimumPacketSize then (.error .fmt, l)
  else
    let l := if l.pdMode then l else { l with pktHasMark := true }
    let addr : UInt8 := if l.pktBroadcast then 0x7F else UInt8.ofNat l.address &&& 0x7F
    let addr := if l.pdMode then addr ||| 0x80 else addr
    let (seq, l) := osdpPhyGetSeqNumber { l with pktBroadcast := false } (!l.pdMode)
    let control := seq ||| pktControlCrc
    let (control, scb) :=
      if l.scActive then (control ||| pktControlScb, [2, scs15])
      else if osdpPhyInScHandshake l.pdMode id then (control ||| pktControlScb, [3, scs11, 0])
      else (control, [])
    (.ok (markOf l.pktHasMark ++ [osdpPktSom, addr, 0, 0, control] ++ scb), l)

/-- The length of the packet from the start byte on, written into its header. -/
def setPktLen (body : Bytes) (n : ℕ) : Bytes := (body.set 2 (UInt8.ofNat n)).set 3 (UInt8.ofNat (n / 256))

/-- The part of `osdp_phy_packet_finalize` for a packet under a secure channel: its data is
encrypted where the security block says so, and the first four bytes of the MAC are put behind it. -/
def finalizeSc (aes : Aes) (l : OsdpLink) (body : Bytes) (maxLen : ℕ) : Except PktErr Bytes × OsdpLink :=
  let isCmd := !l.pdMode
  let scb := body.getD 6 0
  let off := 5 + (body.getD 5 0).toNat + 1
  let encrypted := scb = scs17 ∨ scb = scs18
  if encrypted ∧ aesPadLen ((body.drop off).length + 1) > maxLen then (.error .fmt, l)
  else
    let body :=
      if encrypted then body.take off ++ osdpEncryptData aes l.sc isCmd (body.drop off) else body
    if body.length + 4 > maxLen then (.error .fmt, l)
    else
      let body := setPktLen body (body.length + 2 + 4)
      let sc := osdpComputeMac aes isCmd body l.sc
      (.ok (body ++ (sc.macOfDir isCmd).toList.take 4), { l with sc := sc })

/-- `osdp_phy_packet_finalize`: the bytes that are sent. -/
def osdpPhyPacketFinalize (aes : Aes) (l : OsdpLink) (buf : Bytes) (maxLen : ℕ) :
    Except PktErr Bytes × OsdpLink :=
  if buf.length ≤ 5 then (.error .fmt, l)
  else if l.pktHasMark ∧ buf.getD 0 0 ≠ osdpPktMark then (.error .fmt, l)
  else
    let body := buf.drop l.mark
    let maxLen := maxLen - l.mark
    if body.getD 0 0 ≠ osdpPktSom then (.error .fmt, l)
    else
      let body := setPktLen body (body.length + 2)
      let r :=
        if l.scActive ∧ body.getD 4 0 &&& pktControlScb ≠ 0 ∧ body.getD 6 0 ≥ scs15 then
          finalizeSc aes l body maxLen
        else (.ok body, l)
      match r with
      | (.error e, l') => (.error e, l')
      | (.ok body, l') =>
        if body.length + 2 > maxLen then (.error .fmt, l')
        else (.ok (buf.take l.mark ++ body ++ le16 (osdpComputeCrc16 body)), l')

/-- `get_tx_buf_size`: the buffer, unless the other end has less room. -/
def getTxBufSize (peerRxSize : UInt16) : ℕ :=
  if peerRxSize ≠ 0 then min osdpPacketBufSize peerRxSize.toNat else osdpPacketBufSize

/-- `osdp_phy_send_packet`; `sendOk` says whether the channel took all bytes. -/
def osdpPhySendPacket (aes : Aes) (l : OsdpLink) (buf : Bytes) (maxLen : ℕ) (sendOk : Bool) :
    Except PktErr Bytes × OsdpLink :=
  match osdpPhyPacketFinalize aes l buf maxLen with
  | (.error _, l) => (.error .build, l)
  | (.ok frame, l) => (if sendOk then .ok frame else .error .build, l)

/-! ### Receiving -/

/-- The loop of `osdp_channel_receive`: the driver is read 64 bytes at a time until it has fewer. -/
def channelReceiveLoop : ℕ → OsdpLink → ℤ → ℤ × OsdpLink
  | 0, l, total => (total, l)
  | fuel + 1, l, total =>
    let chunk := l.rxWaiting.take 64
    if chunk = [] then (total, l)
    else
      let (n, rb) := l.rxRb.pushBuf chunk
      let l := { l with rxRb := rb, rxWaiting := l.rxWaiting.drop 64 }
      if n ≠ chunk.length then (-1, l)
      else if chunk.length = 64 then channelReceiveLoop fuel l (total + 64)
      else (total + n, l)

def osdpChannelReceive (l : OsdpLink) : ℤ × OsdpLink :=
  channelReceiveLoop (l.rxWaiting.length + 1) l 0

/-- `phy_rescan_packet_buf`: the packet buffer from the next start byte on. -/
def phyRescanPacketBuf (l : OsdpLink) : OsdpLink :=
  let held := l.packetBuf.take l.packetBufLen
  match (held.drop (l.mark + 1)).findIdx? (· = osdpPktSom) with
  | none => { l with packetBufLen := 0 }
  | some k =>
    let i := l.mark + 1 + k
    let marked := held.getD (i - 1) 0 = osdpPktMark
    let moved := markOf marked ++ held.drop i
    { l.overwrite 0 moved with packetBufLen := moved.length, pktHasMark := marked }

/-- The loop of `phy_check_header` that looks for the start of a packet; `prev` is the byte before. -/
def scanStart : ℕ → OsdpLink → UInt8 → Except PktErr Unit × OsdpLink
  | 0, l, _ => (.error .noData, l)
  | fuel + 1, l, prev =>
    match l.rxRb.pop with
    | none => (.error .noData, l)
    | some (cur, rb) =>
      let l := { l with rxRb := rb }
      if cur = osdpPktSom then (.ok (), l.startPacket (prev == osdpPktMark))
      else
        scanStart fuel
          (if cur ≠ osdpPktMark then { l with packetScanSkip := l.packetScanSkip + 1 } else l) cur

/-- The rest of `phy_check_header`, once the start of a packet is in the buffer. After a rescan more
than a header may be held. -/
def checkHeader (l : OsdpLink) : Except PktErr ℕ × OsdpLink :=
  let (bs, rb) := l.rxRb.popBuf 4
  if l.packetBufLen + bs.length > osdpPacketBufSize then (.error .overrun, l)
  else
    let l := ({ l with rxRb := rb } : OsdpLink).collect bs
    if l.packetBufLen < 5 then (.error .wait, l)
    else if l.pkt 0 ≠ osdpPktSom then (.error .fmt, l)
    else
      let pktLen := (l.pkt 3).toNat * 256 + (l.pkt 2).toNat
      if pktLen > osdpPacketBufSize ∨ pktLen < 6 ∨ (l.pkt 1 &&& 0x80 ≠ 0 ↔ l.pdMode) then
        (.error .wait, phyRescanPacketBuf l)
      else (.ok (pktLen + l.mark), l)

def phyCheckHeader (l : OsdpLink) : Except PktErr ℕ × OsdpLink :=
  if l.packetBufLen = 0 then
    match scanStart (l.rxRb.size + 1) l 0 with
    | (.error e, l) => (.error e, l)
    | (.ok (), l) => checkHeader l
  else checkHeader l

/-- The number of check characters, by the control field. -/
def checkLen (ctrl : UInt8) : ℕ := if ctrl &&& pktControlCrc ≠ 0 then 2 else 1

/-- The check character or checksum of the packet in the buffer. -/
def checkCharOk (body : Bytes) : Bool :=
  if body.getD 4 0 &&& pktControlCrc ≠ 0 then
    body.drop (body.length - 2) = le16 (osdpComputeCrc16 (body.take (body.length - 2)))
  else body.getD (body.length - 1) 0 = osdpComputeChecksum (body.take (body.length - 1))

/-- What the PD does to its sequence number before it is counted up: a packet with number 0 starts
anew and ends the secure channel, a repeated packet is taken as if it came for the first time. -/
def pdSyncSeq (l : OsdpLink) (comp : UInt8) : OsdpLink :=
  if comp = 0 then { l.scDeactivate with seqNumber := -1 }
  else if comp.toNat = l.seqNumber then { l with seqNumber := l.seqNumber - 1 }
  else l

/-- `phy_check_packet`: check character, address and sequence number. -/
def phyCheckPacket (l : OsdpLink) : Except PktErr Unit × OsdpLink :=
  let body := (l.packetBuf.take l.packetLen).drop l.mark
  let pdAddr := (l.pkt 1 &&& 0x7F).toNat
  let comp := l.pkt 4 &&& pktControlSqn
  if !checkCharOk body then (.error .fmt, l)
  else if pdAddr ≠ l.address ∧ pdAddr ≠ 0x7F then (.error (if l.pdMode then .skip else .check), l)
  else if !l.pdMode ∧ comp = 0 ∧ l.pkt 5 = replyBusy ∧
      body.length - checkLen (l.pkt 4) = 6 then
    (.error .busy, { l with seqNumber := l.seqNumber - 1 })
  else
    let l :=
      if l.pdMode then { pdSyncSeq l comp with pktBroadcast := l.pktBroadcast || pdAddr == 0x7F } else l
    let (cur, l) := osdpPhyGetSeqNumber l l.pdMode
    if cur ≠ comp ∧ !l.skipSeqCheck then (.error (.nack nakSeqNum), l) else (.ok (), l)

/-- The header of a packet, unless it was read before. -/
def collectHeader (l : OsdpLink) : Except PktErr Unit × OsdpLink :=
  if l.packetLen = 0 then
    match phyCheckHeader l with
    | (.error e, l) => (.error e, l)
    | (.ok n, l) => (.ok (), { l with packetLen := n, packetScanSkip := 0 })
  else (.ok (), l)

/-- The bytes of a packet whose length is known. The length in the header may be that of the buffer,
and then there is no room for the mark. -/
def collectBody (l : OsdpLink) : Except PktErr Unit × OsdpLink :=
  let (bs, rb) := l.rxRb.popBuf (l.packetLen - l.packetBufLen)
  if l.packetBufLen + bs.length > osdpPacketBufSize then (.error .overrun, l)
  else
    let l := ({ l with rxRb := rb } : OsdpLink).collect bs
    (if l.packetBufLen ≠ l.packetLen then .error .wait else .ok (), l)

/-- `osdp_phy_check_packet` up to the point where a whole packet is in the buffer. -/
def collectPacket (now : ℤ) (l : OsdpLink) : Except PktErr Unit × OsdpLink :=
  let (ret, l) := osdpChannelReceive l
  let l := if l.pdMode ∧ l.packetBufLen = 0 ∧ ret > 0 then { l with tstamp := now } else l
  match collectHeader l with
  | (.error e, l) => (.error e, l)
  | (.ok (), l) => collectBody l

def osdpPhyCheckPacket (now : ℤ) (l : OsdpLink) : Except PktErr Unit × OsdpLink :=
  match collectPacket now l with
  | (.error e, l) => (.error e, l)
  | (.ok (), l) => phyCheckPacket l

/-- The message between `start` and `stop`. -/
def messageAt (body : Bytes) (start stop : ℕ) : Except PktErr Bytes :=
  if start = stop + 6 then .error .nackLen else .ok ((body.take stop).drop start)

/-- The part of `osdp_phy_decode_packet` under an active secure channel: the MAC over the packet is
compared, and the data decrypted in place. `start` and `stop` are where the message lies, counted
from the header. -/
def decodeSc (aes : Aes) (l : OsdpLink) (start stop : ℕ) : Except PktErr Bytes × OsdpLink :=
  let isCmd := l.pdMode
  let body := (l.packetBuf.take l.packetBufLen).drop l.mark
  let sc := osdpComputeMac aes isCmd (body.take (stop - 4)) l.sc
  let mac := (sc.macOfDir isCmd).toList.take 4
  let l := { l with sc := sc }
  if (body.drop (stop - 4)).take 4 ≠ mac then (.error (.nack nakScCond), l.scDeactivate)
  else
    if l.pkt 6 = scs17 ∨ l.pkt 6 = scs18 then
      match (body.take (stop - 4)).drop start with
      | [] => (.error (.nack nakScCond), l.scDeactivate)
      | id :: rest =>
        match osdpDecryptData aes l.sc l.allowEmpty isCmd rest with
        | (none, plain) =>
          (.error (.nack nakScCond), (l.overwrite (l.mark + start + 1) plain).scDeactivate)
        | (some n, plain) => (.ok (id :: plain.take n), l.overwrite (l.mark + start + 1) plain)
    else (messageAt body start (stop - 4), l)

/-- `osdp_phy_decode_packet`: the message of the packet, from its identifier on. The result is empty
where the code returns a length that is not positive. -/
def osdpPhyDecodePacket (aes : Aes) (l : OsdpLink) : Except PktErr Bytes × OsdpLink :=
  let body := (l.packetBuf.take l.packetBufLen).drop l.mark
  let stop := body.length - checkLen (l.pkt 4)
  if l.pkt 4 &&& pktControlScb ≠ 0 then
    let scb := l.pkt 6
    if l.pdMode ∧ !l.scIsCapable then (.error (.nack nakScUnsup), l)
    else if scb < scs11 ∨ scb > scs18 then (.error (.nack nakScCond), l)
    else if !l.scActive ∧ scb > scs14 then (.error (.nack nakScCond), l)
    else
      let start := 5 + (l.pkt 5).toNat
      let useScbkd := (scb == scs11 || scb == scs13) && l.installMode && l.pkt 7 == 0
      let l := { l with scUseScbkd := l.scUseScbkd || useScbkd }
      if l.scActive ∧ scb ≥ scs15 then decodeSc aes l start stop
      else (messageAt body start stop, l)
  else
    -- an ACK of a KEYSET, and any NAK, may come to the CP without the secure channel
    let exempt := !l.pdMode && (l.cmdId == cmdKeyset && l.pkt 5 == replyAck || l.pkt 5 == replyNak)
    if l.scActive && !exempt then (.error (.nack nakScCond), l)
    else (.ok ((body.take stop).drop 5), l)

def osdpPhyStateReset (l : OsdpLink) (isError : Bool) : OsdpLink :=
  let l := { l with packetBufLen := 0, packetLen := 0 }
  if isError then { l with seqNumber := -1 } else l

end LeafReader
