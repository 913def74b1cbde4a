import LeafReader.NfcHal
import LeafReader.Run

/-!
# The PN5180 driver (`pn5180_transceive.c`, `pn5180_iso14443.c`)

Frames over the air, the ISO 14443-4 part of the activation, and the loop of `pn5180_iso14443_apdu`.
The loop body is `pn5180ApduStep`; its control points are the head of the loop and the test of the
WTX loop, reached with a frame in `resp`. The card in the field is a parameter: a function from its
state and a frame to its answer, if any, and its next state.
-/

namespace LeafReader

/-! ### Constants of `pn5180_internal.h` -/

def pcbIBlockBase : UInt8 := 0x02
def pcbRBlockAck : UInt8 := 0x82
def pcbRBlockNak : UInt8 := 0xA2
def pcbSWtxReq : UInt8 := 0xF2
def pcbTypeMask : UInt8 := 0xC0
def pcbTypeI : UInt8 := 0x00
def pcbTypeR : UInt8 := 0x80
def pcbTypeS : UInt8 := 0xC0
def pcbBlockNumMask : UInt8 := 0x01
def pcbChaining : UInt8 := 0x10
def pcbAckNakMask : UInt8 := 0x20
def pcbSTypeMask : UInt8 := 0x30
def pcbSTypeWtx : UInt8 := 0x30

/-! ### State -/

/-- The fields of `pn5180_card_state_t` the exchange uses. -/
structure Pn5180CardState where
  iso144434Active : Bool
  blockNumber : UInt8
  fscMax : UInt16
deriving DecidableEq

variable {σ : Type}

/-- A card in the field. -/
abbrev Field (σ : Type) := σ → Bytes → Option Bytes × σ

/-- The field, and the frame the chip has received and not handed out yet. -/
structure Chip (σ : Type) where
  field : σ
  rx : Option Bytes

/-- `g_pn5180_card` and the chip. -/
structure Reader (σ : Type) where
  card : Pn5180CardState
  chip : Chip σ

namespace Reader

def setChip (r : Reader σ) (chip : Chip σ) : Reader σ := { r with chip := chip }

/-- `g_pn5180_card.block_number ^= 1`. -/
def toggle (r : Reader σ) : Reader σ :=
  { r with card := { r.card with blockNumber := r.card.blockNumber ^^^ 1 } }

end Reader

/-! ### `pn5180_transceive.c` -/

variable (field : Field σ)

/-- `pn5180_send_data` of whole bytes: stale bits are cleared and the frame goes out. -/
def pn5180SendData (data : Bytes) (chip : Chip σ) : Except EspErr (Chip σ) :=
  if data.length > 260 then .error .invalidSize
  else .ok ⟨(field chip.field data).2, (field chip.field data).1⟩

/-- `pn5180_read_data`: the length is read from nine bits of `RX_STATUS`. -/
def pn5180ReadData (bufLen : Nat) (chip : Chip σ) : Except EspErr Bytes × Chip σ :=
  match chip.rx with
  | none => (.error .timeout, chip)
  | some frame =>
    let chip := { chip with rx := none }
    let avail := frame.length % 512
    if avail > bufLen then (.error .invalidSize, chip) else (.ok (frame.take avail), chip)

/-! ### Activation -/

def fscTable : List UInt16 := [16, 24, 32, 40, 48, 64, 96, 128, 256]

/-- `fsc_max` out of the ATS. -/
def fscOfAts (ats : Bytes) : UInt16 :=
  let tl := ats.getD 0 0
  if tl.toNat ≤ ats.length ∧ 1 < tl.toNat then
    let fsci := ats.getD 1 0 &&& 0x0F
    if fsci ≤ 8 then fscTable.getD fsci.toNat 256 else 256
  else 32

/-- `g_pn5180_card` after RATS was answered with `ats`. -/
def activate (ats : Bytes) : Pn5180CardState := ⟨true, 0, fscOfAts ats⟩

theorem fscOfAts_bounds (ats : Bytes) : 16 ≤ (fscOfAts ats).toNat ∧ (fscOfAts ats).toNat ≤ 256 := by
  have htable : ∀ fsc ∈ fscTable, 16 ≤ fsc.toNat ∧ fsc.toNat ≤ 256 := by
    simp [fscTable]
  have hget (n : Nat) : 16 ≤ (fscTable.getD n 256).toNat ∧ (fscTable.getD n 256).toNat ≤ 256 := by
    rw [List.getD_eq_getElem?_getD]
    cases h : fscTable[n]? with
    | none => decide
    | some fsc => exact htable fsc (List.mem_of_getElem? h)
  simp only [fscOfAts]
  split
  · split
    · exact hget _
    · decide
  · decide

/-! ### `pn5180_iso14443_apdu` -/

/-- Where the loop stands. -/
inductive ApduPoint
  | head
  | got (resp : Bytes)

/-- The loop variables; `rx` is the first `rx_got` bytes of the caller's buffer. -/
structure ApduLoop (σ : Type) where
  reader : Reader σ
  txSent : Nat
  rx : Bytes
  piccChaining : Bool
  lastPcbSent : UInt8
  point : ApduPoint

/-- Result, bytes received, `*rx_len` if it was written, and the state left. -/
structure ApduCall (σ : Type) where
  ret : EspErr
  rx : Bytes
  rxLen : Option Nat
  reader : Reader σ

namespace ApduLoop

def start (r : Reader σ) : ApduLoop σ := ⟨r, 0, [], false, 0, .head⟩

def fail (s : ApduLoop σ) (e : EspErr) : ApduCall σ := ⟨e, s.rx, none, s.reader⟩

def ok (s : ApduLoop σ) : ApduCall σ := ⟨.ok, s.rx, some s.rx.length, s.reader⟩

def setChip (s : ApduLoop σ) (chip : Chip σ) : ApduLoop σ :=
  { s with reader := s.reader.setChip chip }

def got (s : ApduLoop σ) (resp : Bytes) : ApduLoop σ := { s with point := .got resp }

@[simp] theorem reader_start (r : Reader σ) : (start r).reader = r := rfl

@[simp] theorem rx_setChip (s : ApduLoop σ) (chip : Chip σ) : (s.setChip chip).rx = s.rx := rfl

@[simp] theorem rx_got (s : ApduLoop σ) (resp : Bytes) : (s.got resp).rx = s.rx := rfl

end ApduLoop

/-- `frame`, and the loop variables once it is built. -/
def nextFrame (tx : Bytes) (s : ApduLoop σ) : Bytes × ApduLoop σ :=
  let card := s.reader.card
  if s.piccChaining then ([pcbRBlockAck ||| card.blockNumber], s)
  else
    let rest := tx.length - s.txSent
    let chunk := if rest + 1 > card.fscMax.toNat then card.fscMax.toNat - 1 else rest
    let pcb := pcbIBlockBase ||| card.blockNumber
    let pcb := if s.txSent + chunk < tx.length then pcb ||| pcbChaining else pcb
    (pcb :: (tx.drop s.txSent).take chunk, { s with txSent := s.txSent + chunk, lastPcbSent := pcb })

/-- A frame out and a frame in; `onRead` is what an error of the read is returned as. -/
def exchangeFrame (onRead : EspErr → EspErr) (frame : Bytes) (s : ApduLoop σ) :
    ApduLoop σ ⊕ ApduCall σ :=
  match pn5180SendData field frame s.reader.chip with
  | .error _ => .inr (s.fail .fail)
  | .ok chip =>
    match pn5180ReadData 260 chip with
    | (.error e, chip) => .inr ((s.setChip chip).fail (onRead e))
    | (.ok resp, chip) =>
      if resp.length < 1 then .inr ((s.setChip chip).fail .fail) else .inl ((s.setChip chip).got resp)

def isWtx (pcb : UInt8) : Bool :=
  pcb &&& pcbTypeMask == pcbTypeS && pcb &&& pcbSTypeMask == pcbSTypeWtx

/-- What follows the WTX loop. -/
def onBlock (rxBuf : Nat) (resp : Bytes) (s : ApduLoop σ) : ApduLoop σ ⊕ ApduCall σ :=
  let pcb := resp.getD 0 0
  if pcb &&& pcbTypeMask = pcbTypeR then
    if pcb &&& pcbAckNakMask ≠ 0 then .inr (s.fail .fail)
    else if s.lastPcbSent &&& pcbChaining ≠ 0 then
      .inl { s with reader := s.reader.toggle, point := .head }
    else .inr (s.fail .fail)
  else if pcb &&& pcbTypeMask = pcbTypeI then
    let s := { s with reader := s.reader.toggle }
    if s.rx.length + (resp.length - 1) > rxBuf then .inr (s.fail .noMem)
    else
      let s := { s with rx := s.rx ++ resp.drop 1 }
      if pcb &&& pcbChaining ≠ 0 then .inl { s with piccChaining := true, point := .head }
      else .inr s.ok
  else .inr (s.fail .fail)

/-- From one control point of the loop to the next, or out of it. -/
def pn5180ApduStep (tx : Bytes) (rxBuf : Nat) (s : ApduLoop σ) : ApduLoop σ ⊕ ApduCall σ :=
  match s.point with
  | .head =>
    if s.txSent < tx.length ∨ s.piccChaining then
      exchangeFrame field id (nextFrame tx s).1 (nextFrame tx s).2
    else .inr s.ok
  | .got resp =>
    if isWtx (resp.getD 0 0) then
      -- the WTXM of the request is granted, 1 if it carries none
      exchangeFrame field (fun _ => .fail) [resp.getD 0 0, if resp.length > 1 then resp.getD 1 0 else 1] s
    else onBlock rxBuf resp s

/-- `pn5180_iso14443_apdu` of `tx`, with a receive buffer of `rxBuf` bytes, returns `call`. -/
def Pn5180Apdu (tx : Bytes) (rxBuf : Nat) (r : Reader σ) (call : ApduCall σ) : Prop :=
  if r.card.iso144434Active then Returns (pn5180ApduStep field tx rxBuf) (.start r) call
  else call = ⟨.invalidState, [], none, r⟩

theorem pn5180Apdu_iff {tx : Bytes} {rxBuf : Nat} {r : Reader σ} {call : ApduCall σ}
    (h : r.card.iso144434Active = true) : Pn5180Apdu field tx rxBuf r call ↔
      Returns (pn5180ApduStep field tx rxBuf) (.start r) call := by
  rw [Pn5180Apdu, if_pos h]

end LeafReader
