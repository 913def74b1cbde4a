import LeafReader.Pn5180
import LeafReader.IsoDep

/-!
# Rounds of the PN5180 loop against a card

One round is a frame of the driver, the requests for time the card puts before its answer, and the
answer: `Completes.request` skips to the answer. `InTurn` says that a block at hand carries the
driver's block number; every lemma here keeps it along.
-/

namespace LeafReader

/-- The coding of `pn5180_internal.h`. -/
def headerCoding : Coding :=
  ⟨pcbIBlockBase, pcbChaining, pcbRBlockAck, pcbRBlockNak, pcbSWtxReq⟩

structure Coding.Usual (c : Coding) : Prop where
  iBlock : c.iBlock = pcbIBlockBase
  chaining : c.chaining = pcbChaining
  wtx : c.wtx = pcbSWtxReq

theorem usual_headerCoding : headerCoding.Usual := ⟨rfl, rfl, rfl⟩

theorem usual_standardCoding : standardCoding.Usual := ⟨rfl, rfl, rfl⟩

/-- A block at the test of the WTX loop carries the driver's block number, unless it asks for time. -/
def InTurn {σ : Type} (s : ApduLoop σ) : Prop :=
  ∀ resp, s.point = .got resp → isWtx (resp.getD 0 0) = false →
    resp.getD 0 0 &&& pcbBlockNumMask = s.reader.card.blockNumber

theorem inTurn_of_head {σ : Type} {s : ApduLoop σ} (h : s.point = .head) : InTurn s := by
  intro resp hr
  rw [h] at hr
  cases hr

theorem isWtx_req : isWtx pcbSWtxReq = true := by decide

theorem inTurn_wtx {σ : Type} (s : ApduLoop σ) (m : UInt8) : InTurn (s.got [pcbSWtxReq, m]) := by
  intro resp hr hw
  cases hr
  exact absurd hw (by show ¬ isWtx pcbSWtxReq = false; simp [isWtx_req])

/-! ### Frames -/

section Coding

variable {c : Coding} (hc : c.Usual)
include hc

theorem decode_last (b : Bool) (inf : Bytes) :
    c.decode ((pcbIBlockBase ||| bit b) :: inf) = some (.i false b inf) := by
  have h1 : (pcbIBlockBase ||| bit b) &&& 0xFE = pcbIBlockBase := by decide +revert
  have h2 : ((pcbIBlockBase ||| bit b) &&& 0x01 == 0x01) = b := by decide +revert
  simp only [Coding.decode, hc.iBlock, h1, h2, ↓reduceIte]

theorem decode_chained (b : Bool) (inf : Bytes) :
    c.decode ((pcbIBlockBase ||| bit b ||| pcbChaining) :: inf) = some (.i true b inf) := by
  have h1 : (pcbIBlockBase ||| bit b ||| pcbChaining) &&& 0xFE = pcbIBlockBase ||| pcbChaining := by
    decide +revert
  have h2 : ((pcbIBlockBase ||| bit b ||| pcbChaining) &&& 0x01 == 0x01) = b := by decide +revert
  have h3 : pcbIBlockBase ||| pcbChaining ≠ pcbIBlockBase := by decide
  simp only [Coding.decode, hc.iBlock, hc.chaining, h1, h2, h3, ↓reduceIte]

theorem decode_wtx (m : UInt8) : c.decode [pcbSWtxReq, m] = some (.wtx m) := by
  have h1 : pcbSWtxReq &&& 0xFE ≠ pcbIBlockBase := by decide
  have h2 : pcbSWtxReq &&& 0xFE ≠ pcbIBlockBase ||| pcbChaining := by decide
  simp only [Coding.decode, hc.iBlock, hc.chaining, hc.wtx, h1, h2, ↓reduceIte, List.head?_cons,
    Option.map_some]

theorem iPcb_eq (more b : Bool) :
    c.iPcb more b = pcbIBlockBase ||| (if more then pcbChaining else 0) ||| bit b := by
  rw [Coding.iPcb, hc.iBlock, hc.chaining]

theorem iPcb_facts (more b : Bool) :
    isWtx (c.iPcb more b) = false ∧ c.iPcb more b &&& pcbBlockNumMask = bit b ∧
      c.iPcb more b &&& pcbTypeMask = pcbTypeI ∧
      (c.iPcb more b &&& pcbChaining ≠ 0 ↔ more = true) := by
  rw [iPcb_eq hc]
  decide +revert

end Coding

/-- What the driver reads of a frame: the length register has nine bits. -/
def heard (frame : Bytes) : Bytes := frame.take (frame.length % 512)

theorem heard_of_le {frame : Bytes} (h : frame.length ≤ 260) : heard frame = frame := by
  rw [heard, Nat.mod_eq_of_lt (by omega), List.take_length]

/-- The length register shows a length the driver's buffer has room for. -/
def Audible (frame : Bytes) : Prop := 1 ≤ frame.length % 512 ∧ frame.length % 512 ≤ 260

theorem audible_of_le {frame : Bytes} (h1 : 1 ≤ frame.length) (h : frame.length ≤ 260) :
    Audible frame := by
  rw [Audible, Nat.mod_eq_of_lt (by omega)]
  exact ⟨h1, h⟩

section Frame

variable {σ : Type} {field : Field σ} (onRead : EspErr → EspErr) {frame f : Bytes}
  {s : ApduLoop σ} {card : σ} (hlen : frame.length ≤ 260)
include hlen

theorem exchangeFrame_heard (hf : field s.reader.chip.field frame = (some f, card)) (ha : Audible f) :
    exchangeFrame field onRead frame s = .inl ((s.setChip ⟨card, none⟩).got (heard f)) := by
  have hne : ¬ (f.take (f.length % 512)).length < 1 := by
    rw [List.length_take]
    have := Nat.mod_le f.length 512
    have := ha.1
    omega
  simp only [exchangeFrame, pn5180SendData, Nat.not_lt.2 hlen, ↓reduceIte, hf, pn5180ReadData,
    Nat.not_lt.2 ha.2, hne]
  rfl

theorem exchangeFrame_lost (hf : field s.reader.chip.field frame = (some f, card))
    (ha : ¬ Audible f) : exchangeFrame field onRead frame s = .inr ((s.setChip ⟨card, none⟩).fail
      (if f.length % 512 > 260 then onRead .invalidSize else .fail)) := by
  by_cases h260 : f.length % 512 > 260
  · simp only [exchangeFrame, pn5180SendData, gt_iff_lt, Nat.not_lt.2 hlen, ↓reduceIte, hf,
      pn5180ReadData, h260]
  · have h0 : f.length % 512 = 0 := by unfold Audible at ha; omega
    simp only [exchangeFrame, pn5180SendData, gt_iff_lt, Nat.not_lt.2 hlen, ↓reduceIte, hf,
      pn5180ReadData, h0]
    rfl

theorem exchangeFrame_mute (hf : field s.reader.chip.field frame = (none, card)) :
    exchangeFrame field onRead frame s = .inr ((s.setChip ⟨card, none⟩).fail (onRead .timeout)) := by
  simp only [exchangeFrame, pn5180SendData, gt_iff_lt, Nat.not_lt.2 hlen, ↓reduceIte, hf,
    pn5180ReadData]

end Frame

/-! ### Requests for time -/

section Round

variable {c : Coding} (hc : c.Usual) {app : CardApp} {tx : Bytes} {rxBuf : Nat}

theorem step_wtx {σ : Type} (field : Field σ) (s : ApduLoop σ) (m : UInt8) :
    pn5180ApduStep field tx rxBuf (s.got [pcbSWtxReq, m]) =
      exchangeFrame field (fun _ => .fail) [pcbSWtxReq, m] (s.got [pcbSWtxReq, m]) := by
  simp only [pn5180ApduStep, ApduLoop.got, List.getD_cons_zero, isWtx_req, ↓reduceIte]
  rfl

include hc in
theorem receive_granted (p : Picc) (m : UInt8) (ms : List UInt8) (block : Bytes) :
    ({ p with held := some (m, ms, block) } : Picc).receive c app [pcbSWtxReq, m] =
      p.request c ms block := by
  rw [Picc.receive_wtx rfl (decode_wtx hc m), Picc.request_held]

theorem request_cons (p : Picc) (m : UInt8) (ms : List UInt8) (block : Bytes) :
    p.request c (m :: ms) block = (some [c.wtx, m], { p with held := some (m, ms, block) }) := rfl

variable {onRead : EspErr → EspErr} {frame block : Bytes} {s0 s : ApduLoop Picc} {p : Picc}
  {call : ApduCall Picc}

include hc in
/-- From a frame sent to the block that answers it, over the requests for time `ms`. -/
theorem Completes.request (ms : List UInt8) (hin : InTurn s0)
    (hstep : pn5180ApduStep (Picc.receive c app) tx rxBuf s0 =
      exchangeFrame (Picc.receive c app) onRead frame s)
    (hlen : frame.length ≤ 260)
    (hreq : s.reader.chip.field.receive c app frame = p.request c ms block) (ha : Audible block)
    (h : Completes (pn5180ApduStep (Picc.receive c app) tx rxBuf) InTurn
      ((s.setChip ⟨{ p with held := none, last := block }, none⟩).got (heard block)) call) :
    Completes (pn5180ApduStep (Picc.receive c app) tx rxBuf) InTurn s0 call := by
  induction ms generalizing s0 s onRead frame with
  | nil => exact .next hin (hstep.trans (exchangeFrame_heard _ hlen hreq ha)) h
  | cons m ms ih =>
    rw [request_cons, hc.wtx] at hreq
    have hw : Audible [pcbSWtxReq, m] := audible_of_le (by simp) (by simp)
    refine .next hin (hstep.trans (exchangeFrame_heard _ hlen hreq hw)) ?_
    rw [heard_of_le (by simp)]
    exact ih (inTurn_wtx _ m) (step_wtx _ _ m) (by simp) (receive_granted hc p m ms block) h

include hc in
/-- A block the driver has no room for, or sees no byte of, ends the call; after a request for time
every error is `ESP_FAIL`. -/
theorem returns_lost (ms : List UInt8)
    (hstep : pn5180ApduStep (Picc.receive c app) tx rxBuf s0 =
      exchangeFrame (Picc.receive c app) onRead frame s)
    (hlen : frame.length ≤ 260)
    (hreq : s.reader.chip.field.receive c app frame = p.request c ms block)
    (ha : ¬ Audible block) :
    ∃ call, Returns (pn5180ApduStep (Picc.receive c app) tx rxBuf) s0 call ∧
      call.ret = if block.length % 512 > 260 ∧ ms = [] then onRead .invalidSize else .fail := by
  induction ms generalizing s0 s onRead frame with
  | nil => exact ⟨_, .done (hstep.trans (exchangeFrame_lost _ hlen hreq ha)), by simp [ApduLoop.fail]⟩
  | cons m ms ih =>
    rw [request_cons, hc.wtx] at hreq
    have hw : Audible [pcbSWtxReq, m] := audible_of_le (by simp) (by simp)
    have hx := exchangeFrame_heard onRead hlen hreq hw
    rw [heard_of_le (by simp)] at hx
    obtain ⟨call, hret, hcode⟩ :=
      ih (s := (s.setChip ⟨{ p with held := some (m, ms, block) }, none⟩).got [pcbSWtxReq, m])
        (step_wtx _ _ m) (by simp) (receive_granted hc p m ms block)
    exact ⟨call, .next (hstep.trans hx) hret, by simpa using hcode⟩

end Round

end LeafReader
