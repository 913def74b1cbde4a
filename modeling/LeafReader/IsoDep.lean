import LeafReader.Bytes

/-!
# The card's side of ISO/IEC 14443-4

Block protocol of a card, over any coding of its blocks and any application behind it: chained
commands are acknowledged, answers may be chained, every block may be preceded by requests for more
time, and the block number toggles on every I-block received and on every R(ACK) that does not carry
it. A block the coding does not know is left unanswered.
-/

namespace LeafReader

def bit (b : Bool) : UInt8 := if b then 1 else 0

/-- The PCB bytes of a block coding, with block number 0. -/
structure Coding where
  iBlock : UInt8
  chaining : UInt8
  ack : UInt8
  nak : UInt8
  wtx : UInt8

inductive DepBlock
  | i (more bn : Bool) (inf : Bytes)
  | ack (bn : Bool)
  | nak (bn : Bool)
  | wtx (wtxm : UInt8)
deriving DecidableEq

/-- The PCB of an I-block. -/
def Coding.iPcb (c : Coding) (more bn : Bool) : UInt8 :=
  c.iBlock ||| (if more then c.chaining else 0) ||| bit bn

def Coding.decode (c : Coding) : Bytes → Option DepBlock
  | [] => none
  | pcb :: inf =>
    let bn := pcb &&& 0x01 == 0x01
    if pcb &&& 0xFE = c.iBlock then some (.i false bn inf)
    else if pcb &&& 0xFE = c.iBlock ||| c.chaining then some (.i true bn inf)
    else if pcb = c.wtx then inf.head?.map .wtx
    else if pcb &&& 0xFE = c.ack then some (.ack bn)
    else if pcb &&& 0xFE = c.nak then some (.nak bn)
    else none

/-- The block coding of ISO/IEC 14443-4. -/
def standardCoding : Coding := ⟨0x02, 0x10, 0xA2, 0xB2, 0xF2⟩

/-- What a card does of its own accord: its answer to the last of the commands received, as a first
block and the blocks chained to it, and the requests for more time before its `n`-th block. -/
structure CardApp where
  answer : List Bytes → Bytes × List Bytes
  wtx : Nat → List UInt8

/-- The whole answer to the last of the commands `log`. -/
def CardApp.reply (app : CardApp) (log : List Bytes) : Bytes :=
  (app.answer log).1 ++ (app.answer log).2.flatten

/-- `buffered` is what came of a chained command so far, `log` the commands received, `toSend` the
blocks of the answer not sent yet, `held` the block kept back while requests for time are open. -/
structure Picc where
  bn : Bool
  buffered : Bytes
  log : List Bytes
  toSend : List Bytes
  last : Bytes
  held : Option (UInt8 × List UInt8 × Bytes)
  sent : Nat

namespace Picc

/-- After RATS: block number 1. -/
def activated : Picc := ⟨true, [], [], [], [], none, 0⟩

variable (c : Coding) (app : CardApp)

/-- The requests for time `ms`, then `block`. -/
def request (p : Picc) : List UInt8 → Bytes → Option Bytes × Picc
  | [], block => (some block, { p with held := none, last := block })
  | m :: ms, block => (some [c.wtx, m], { p with held := some (m, ms, block) })

def send (p : Picc) (block : Bytes) : Option Bytes × Picc :=
  ({ p with sent := p.sent + 1 } : Picc).request c (app.wtx p.sent) block

/-- One block of the answer. -/
def sendPart (p : Picc) (inf : Bytes) (rest : List Bytes) : Option Bytes × Picc :=
  ({ p with toSend := rest } : Picc).send c app (c.iPcb (!rest.isEmpty) p.bn :: inf)

/-- The answer to a frame, if any. -/
def receive (p : Picc) (frame : Bytes) : Option Bytes × Picc :=
  match p.held with
  | some (m, ms, block) =>
    if c.decode frame = some (.wtx m) then p.request c ms block else (none, p)
  | none =>
    match c.decode frame with
    | some (.i more _ inf) =>
      let p := { p with bn := !p.bn, buffered := p.buffered ++ inf }
      if more then p.send c app [c.ack ||| bit p.bn]
      else
        let p := { p with buffered := [], log := p.log ++ [p.buffered] }
        p.sendPart c app (app.answer p.log).1 (app.answer p.log).2
    | some (.ack bn) =>
      if bn = p.bn then (some p.last, p)
      else
        let p := { p with bn := !p.bn }
        match p.toSend with
        | [] => (none, p)
        | inf :: rest => p.sendPart c app inf rest
    | some (.nak bn) => if bn = p.bn then (some p.last, p) else p.send c app [c.ack ||| bit p.bn]
    | some (.wtx _) | none => (none, p)

variable {c app}

theorem request_held (p : Picc) (h : Option (UInt8 × List UInt8 × Bytes)) (ms : List UInt8)
    (block : Bytes) : ({ p with held := h } : Picc).request c ms block = p.request c ms block := by
  cases ms <;> rfl

/-- The granted time goes to the next request, or to the block. -/
theorem receive_wtx {p : Picc} {m : UInt8} {ms : List UInt8} {block frame : Bytes}
    (hh : p.held = some (m, ms, block)) (hd : c.decode frame = some (.wtx m)) :
    p.receive c app frame = p.request c ms block := by
  simp [receive, hh, hd]

section Blocks

variable {p : Picc} (hh : p.held = none) {frame : Bytes}
include hh

theorem receive_chained {bn : Bool} {inf : Bytes} (hd : c.decode frame = some (.i true bn inf)) :
    p.receive c app frame =
      ({ p with bn := !p.bn, buffered := p.buffered ++ inf } : Picc).send c app
        [c.ack ||| bit (!p.bn)] := by
  simp [receive, hh, hd]

/-- The last block of a command: the command is received, and its answer begins. -/
theorem receive_last {bn : Bool} {inf : Bytes} (hd : c.decode frame = some (.i false bn inf)) :
    p.receive c app frame =
      ({ p with
          bn := !p.bn
          buffered := []
          log := p.log ++ [p.buffered ++ inf] } : Picc).sendPart c app
        (app.answer (p.log ++ [p.buffered ++ inf])).1 (app.answer (p.log ++ [p.buffered ++ inf])).2 := by
  simp [receive, hh, hd]

theorem receive_ack {bn : Bool} (hd : c.decode frame = some (.ack bn)) (hb : bn ≠ p.bn) {inf : Bytes}
    {rest : List Bytes} (ht : p.toSend = inf :: rest) :
    p.receive c app frame = ({ p with bn := !p.bn } : Picc).sendPart c app inf rest := by
  simp [receive, hh, hd, hb, ht]

theorem receive_unknown (hd : c.decode frame = none) : p.receive c app frame = (none, p) := by
  simp [receive, hh, hd]

end Blocks

end Picc

end LeafReader
