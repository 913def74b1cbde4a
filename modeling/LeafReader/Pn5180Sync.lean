import LeafReader.Pn5180Round

/-!
# Block numbers of the PN5180 driver

Exchanges with a card that codes its blocks as `pn5180_internal.h` does. An exchange is a phase that
sends the command, by induction on what is left of it, and a phase that takes the answer, by
induction on its blocks; the invariant of both is that the driver's block number is the card's while
an answer of the card is at hand, and the other one while it is the driver's turn.
-/

namespace LeafReader

/-! ### Blocks at hand -/

theorem bit_xor (b : Bool) : bit b ^^^ 1 = bit (!b) := by decide +revert

section Block

variable {σ : Type} {field : Field σ} {tx : Bytes} {rxBuf : Nat} {c : Coding} {s : ApduLoop σ}

theorem step_got {resp : Bytes} (h : s.point = .got resp) (hw : isWtx (resp.getD 0 0) = false) :
    pn5180ApduStep field tx rxBuf s = onBlock rxBuf resp s := by
  simp only [pn5180ApduStep, h, hw, Bool.false_eq_true, ↓reduceIte]

theorem inTurn_got {resp : Bytes} (h : s.point = .got resp)
    (hb : resp.getD 0 0 &&& pcbBlockNumMask = s.reader.card.blockNumber) : InTurn s := by
  intro resp' hr _
  rw [h] at hr
  cases hr
  exact hb

section IBlock

variable (hc : c.Usual) {b : Bool} {inf : Bytes} (hfit : s.rx.length + inf.length ≤ rxBuf)
include hc hfit

theorem onBlock_last : onBlock rxBuf (c.iPcb false b :: inf) s =
    .inr ({ s with reader := s.reader.toggle, rx := s.rx ++ inf } : ApduLoop σ).ok := by
  obtain ⟨-, -, ht, hm⟩ := iPcb_facts hc false b
  have hR : pcbTypeI ≠ pcbTypeR := by decide
  have hch : ¬ (c.iPcb false b &&& pcbChaining ≠ 0) := by simp [hm]
  simp only [onBlock, List.getD_cons_zero, ht, hR, hch, ↓reduceIte, List.length_cons,
    Nat.add_sub_cancel, gt_iff_lt, Nat.not_lt.2 hfit, List.drop_succ_cons, List.drop_zero]

theorem onBlock_more : onBlock rxBuf (c.iPcb true b :: inf) s =
    .inl { s with
      reader := s.reader.toggle, rx := s.rx ++ inf, piccChaining := true, point := .head } := by
  obtain ⟨-, -, ht, hm⟩ := iPcb_facts hc true b
  have hR : pcbTypeI ≠ pcbTypeR := by decide
  have hch : c.iPcb true b &&& pcbChaining ≠ 0 := hm.2 rfl
  simp only [onBlock, List.getD_cons_zero, ht, hR, hch, ↓reduceIte, List.length_cons,
    Nat.add_sub_cancel, gt_iff_lt, Nat.not_lt.2 hfit, List.drop_succ_cons, List.drop_zero, ne_eq,
    not_false_eq_true]

end IBlock

theorem onBlock_ack (b : Bool) (h : s.lastPcbSent &&& pcbChaining ≠ 0) :
    onBlock rxBuf [pcbRBlockAck ||| bit b] s =
      .inl { s with reader := s.reader.toggle, point := .head } := by
  have hR : (pcbRBlockAck ||| bit b) &&& pcbTypeMask = pcbTypeR := by decide +revert
  have hA : (pcbRBlockAck ||| bit b) &&& pcbAckNakMask = 0 := by decide +revert
  simp only [onBlock, List.getD_cons_zero, hR, hA, h, ↓reduceIte, ne_eq, not_true_eq_false,
    not_false_eq_true]

/-! ### Frames to send -/

variable (hch : s.piccChaining = false) (hsent : s.txSent < tx.length)
include hch hsent

theorem nextFrame_last (hfsc : tx.length - s.txSent + 1 ≤ s.reader.card.fscMax.toNat) :
    nextFrame tx s = ((pcbIBlockBase ||| s.reader.card.blockNumber) :: tx.drop s.txSent,
      { s with txSent := tx.length, lastPcbSent := pcbIBlockBase ||| s.reader.card.blockNumber }) := by
  have h2 : s.txSent + (tx.length - s.txSent) = tx.length := by omega
  simp only [nextFrame, hch, Bool.false_eq_true, ↓reduceIte, gt_iff_lt, Nat.not_lt.2 hfsc, h2,
    Nat.lt_irrefl]
  rw [List.take_of_length_le (by simp)]

theorem nextFrame_chained (hfsc : s.reader.card.fscMax.toNat < tx.length - s.txSent + 1)
    (h16 : 16 ≤ s.reader.card.fscMax.toNat) :
    nextFrame tx s = ((pcbIBlockBase ||| s.reader.card.blockNumber ||| pcbChaining) ::
        (tx.drop s.txSent).take (s.reader.card.fscMax.toNat - 1),
      { s with
        txSent := s.txSent + (s.reader.card.fscMax.toNat - 1)
        lastPcbSent := pcbIBlockBase ||| s.reader.card.blockNumber ||| pcbChaining }) := by
  have h1 : s.txSent + (s.reader.card.fscMax.toNat - 1) < tx.length := by omega
  simp only [nextFrame, hch, Bool.false_eq_true, ↓reduceIte, gt_iff_lt, hfsc, h1]

end Block

theorem nextFrame_ack {σ : Type} {tx : Bytes} {s : ApduLoop σ} (hch : s.piccChaining = true) :
    nextFrame tx s = ([pcbRBlockAck ||| s.reader.card.blockNumber], s) := by
  simp only [nextFrame, hch, ↓reduceIte]

/-! ### Exchanges -/

/-- Between exchanges: the block numbers differ, and no command is half received. -/
structure Ready (fsc : Nat) (r : Reader Picc) : Prop where
  active : r.card.iso144434Active = true
  fscMax : r.card.fscMax.toNat = fsc
  bn : r.card.blockNumber = bit (!r.chip.field.bn)
  held : r.chip.field.held = none
  buffered : r.chip.field.buffered = []

/-- The card has received `tx` once more, and the caller has the card's whole answer. -/
structure Delivered (app : CardApp) (log : List Bytes) (tx : Bytes) (call : ApduCall Picc) : Prop where
  ret : call.ret = .ok
  received : call.reader.chip.field.log = log ++ [tx]
  rx : call.rx = app.reply (log ++ [tx])
  rxLen : call.rxLen = some call.rx.length

theorem ready_activate (ats : Bytes) :
    Ready (fscOfAts ats).toNat ⟨activate ats, ⟨Picc.activated, none⟩⟩ := ⟨rfl, rfl, rfl, rfl, rfl⟩

section Exchange

variable {app : CardApp} {tx : Bytes} {rxBuf fsc : Nat} {c : Coding}

/-- The driver has the block `inf` of an answer at hand, with `rest` still to come. -/
structure AtPart (c : Coding) (fsc : Nat) (inf : Bytes) (rest : List Bytes) (s : ApduLoop Picc) :
    Prop where
  point : s.point = .got (c.iPcb (!rest.isEmpty) s.reader.chip.field.bn :: inf)
  active : s.reader.card.iso144434Active = true
  fscMax : s.reader.card.fscMax.toNat = fsc
  bn : s.reader.card.blockNumber = bit s.reader.chip.field.bn
  held : s.reader.chip.field.held = none
  buffered : s.reader.chip.field.buffered = []
  toSend : s.reader.chip.field.toSend = rest

theorem AtPart.inTurn (hc : c.Usual) {inf : Bytes} {rest : List Bytes} {s : ApduLoop Picc}
    (h : AtPart c fsc inf rest s) : InTurn s :=
  inTurn_got h.point (by rw [h.bn]; exact (iPcb_facts hc _ _).2.1)

theorem AtPart.last (app : CardApp) (tx : Bytes) (hc : c.Usual) {inf : Bytes} {s : ApduLoop Picc}
    (h : AtPart c fsc inf [] s) (hfit : s.rx.length + inf.length ≤ rxBuf) :
    ∃ call, Completes (pn5180ApduStep (Picc.receive c app) tx rxBuf) InTurn s call ∧ call.ret = .ok ∧
      call.rx = s.rx ++ inf ∧ call.rxLen = some call.rx.length ∧
      call.reader.chip.field.log = s.reader.chip.field.log ∧ Ready fsc call.reader := by
  have hstep : pn5180ApduStep (Picc.receive c app) tx rxBuf s = _ :=
    (step_got h.point (iPcb_facts hc _ _).1).trans (onBlock_last hc hfit)
  refine ⟨_, .done (h.inTurn hc) hstep, rfl, rfl, rfl, rfl, ⟨h.active, h.fscMax, ?_, h.held, h.buffered⟩⟩
  show s.reader.card.blockNumber ^^^ 1 = _
  rw [h.bn, bit_xor]
  rfl

/-- The driver takes an answer, block by block. -/
theorem AtPart.completes (app : CardApp) (tx : Bytes) {rest : List Bytes} {inf : Bytes}
    {s : ApduLoop Picc} (h : AtPart headerCoding fsc inf rest s) (hrest : ∀ part ∈ rest, part.length ≤ 259)
    (hfit : (s.rx ++ inf ++ rest.flatten).length ≤ rxBuf) :
    ∃ call, Completes (pn5180ApduStep (Picc.receive headerCoding app) tx rxBuf) InTurn s call ∧
      call.ret = .ok ∧ call.rx = s.rx ++ inf ++ rest.flatten ∧ call.rxLen = some call.rx.length ∧
      call.reader.chip.field.log = s.reader.chip.field.log ∧ Ready fsc call.reader := by
  have hc := usual_headerCoding
  induction rest generalizing inf s with
  | nil => simpa using h.last app tx hc (by simpa using hfit)
  | cons inf' rest ih =>
    simp only [List.length_append, List.flatten_cons] at hfit
    have hstep : pn5180ApduStep (Picc.receive headerCoding app) tx rxBuf s = _ :=
      (step_got h.point (iPcb_facts hc _ _).1).trans (onBlock_more hc (by omega))
    -- the driver acknowledges with its toggled number, and the card goes on
    set s1 : ApduLoop Picc :=
      { s with reader := s.reader.toggle, rx := s.rx ++ inf, piccChaining := true, point := .head }
    set p := s.reader.chip.field with hp
    have hack : nextFrame tx s1 = ([pcbRBlockAck ||| bit (!p.bn)], s1) := by
      rw [nextFrame_ack rfl]
      show ([pcbRBlockAck ||| (s.reader.card.blockNumber ^^^ 1)], s1) = _
      rw [h.bn, bit_xor]
    have hdec : headerCoding.decode [pcbRBlockAck ||| bit (!p.bn)] = some (.ack (!p.bn)) := by
      cases p.bn <;> decide
    have hreq : s1.reader.chip.field.receive headerCoding app [pcbRBlockAck ||| bit (!p.bn)] =
        ({ p with bn := !p.bn, toSend := rest, sent := p.sent + 1 } : Picc).request headerCoding
          (app.wtx p.sent) (headerCoding.iPcb (!rest.isEmpty) (!p.bn) :: inf') :=
      Picc.receive_ack h.held hdec (by simp [hp]) h.toSend
    have h259 := hrest inf' (by simp)
    have haud : Audible (headerCoding.iPcb (!rest.isEmpty) (!p.bn) :: inf') :=
      audible_of_le (by simp) (by simp; omega)
    obtain ⟨call, hcall, hret, hrx, hlen, hlog, hready⟩ :=
      ih (s := (s1.setChip ⟨{ p with
          bn := !p.bn
          toSend := rest
          sent := p.sent + 1
          held := none
          last := headerCoding.iPcb (!rest.isEmpty) (!p.bn) :: inf' }, none⟩).got
            (headerCoding.iPcb (!rest.isEmpty) (!p.bn) :: inf'))
        ⟨rfl, h.active, h.fscMax, by show s.reader.card.blockNumber ^^^ 1 = _; rw [h.bn, bit_xor]; rfl,
          rfl, h.buffered, rfl⟩ (fun part hpart => hrest part (by simp [hpart]))
        (by simp only [ApduLoop.rx_got, ApduLoop.rx_setChip, s1, List.length_append]; omega)
    refine ⟨call, .next (h.inTurn hc) hstep ?_, hret, by simpa [s1] using hrx, hlen, hlog, hready⟩
    have hstep1 : pn5180ApduStep (Picc.receive headerCoding app) tx rxBuf s1 =
        exchangeFrame (Picc.receive headerCoding app) id [pcbRBlockAck ||| bit (!p.bn)] s1 := by
      simp only [pn5180ApduStep, s1, or_true, ↓reduceIte, hack]
    refine Completes.request hc (app.wtx p.sent) (inTurn_of_head rfl) hstep1 (by simp) hreq haud ?_
    rw [heard_of_le (by simp; omega)]
    exact hcall

/-- It is the driver's turn in the command phase: `tx_sent` bytes are with the card. -/
structure AtHead (fsc : Nat) (tx : Bytes) (s : ApduLoop Picc) : Prop where
  point : s.point = .head
  active : s.reader.card.iso144434Active = true
  fscMax : s.reader.card.fscMax.toNat = fsc
  bn : s.reader.card.blockNumber = bit (!s.reader.chip.field.bn)
  held : s.reader.chip.field.held = none
  buffered : s.reader.chip.field.buffered = tx.take s.txSent
  sent : s.txSent < tx.length
  chaining : s.piccChaining = false
  rx : s.rx = []

theorem Ready.atHead {r : Reader Picc} (h : Ready fsc r) (htx : tx ≠ []) :
    AtHead fsc tx (.start r) :=
  ⟨rfl, h.active, h.fscMax, h.bn, h.held, h.buffered, List.length_pos_iff.2 htx, rfl, rfl⟩

/-- A state from which the call goes the way it goes from `s'`. -/
def LeadsTo (c : Coding) (app : CardApp) (tx : Bytes) (rxBuf : Nat) (s s' : ApduLoop Picc) : Prop :=
  ∀ call, Completes (pn5180ApduStep (Picc.receive c app) tx rxBuf) InTurn s' call →
    Completes (pn5180ApduStep (Picc.receive c app) tx rxBuf) InTurn s call

section Command

variable {s : ApduLoop Picc} (h : AtHead fsc tx s)
include h

theorem AtHead.step (field : Field Picc) (rxBuf : Nat) :
    pn5180ApduStep field tx rxBuf s = exchangeFrame field id (nextFrame tx s).1 (nextFrame tx s).2 := by
  simp only [pn5180ApduStep, h.point, h.sent, true_or, ↓reduceIte]

variable (hc : c.Usual)
include hc

theorem AtHead.receive_last : let a := app.answer (s.reader.chip.field.log ++ [tx])
    s.reader.chip.field.receive c app
        ((pcbIBlockBase ||| s.reader.card.blockNumber) :: tx.drop s.txSent) =
      ({ s.reader.chip.field with
        bn := !s.reader.chip.field.bn
        buffered := []
        log := s.reader.chip.field.log ++ [tx]
        toSend := a.2
        sent := s.reader.chip.field.sent + 1 } : Picc).request c (app.wtx s.reader.chip.field.sent)
          (c.iPcb (!a.2.isEmpty) (!s.reader.chip.field.bn) :: a.1) := by
  rw [h.bn, Picc.receive_last h.held (decode_last hc _ _), h.buffered, List.take_append_drop]
  rfl

/-- A first block of the answer that the driver has no room for, or sees no byte of. -/
theorem AtHead.lost (app : CardApp) (rxBuf : Nat) (hfit : tx.length - s.txSent + 1 ≤ fsc)
    (h256 : fsc ≤ 256) :
    let a := app.answer (s.reader.chip.field.log ++ [tx])
    ¬ Audible (c.iPcb (!a.2.isEmpty) (!s.reader.chip.field.bn) :: a.1) →
    ∃ call, Returns (pn5180ApduStep (Picc.receive c app) tx rxBuf) s call ∧
      call.ret = if (a.1.length + 1) % 512 > 260 ∧ app.wtx s.reader.chip.field.sent = []
        then .invalidSize else .fail := by
  intro a hblock
  have hnf := nextFrame_last h.chaining h.sent (by rw [h.fscMax]; exact hfit)
  have hstep := h.step (Picc.receive c app) rxBuf
  rw [hnf] at hstep
  refine returns_lost hc (app.wtx s.reader.chip.field.sent) hstep ?_ (h.receive_last hc) hblock
  simp only [List.length_cons, List.length_drop]
  omega

/-- The last block of the command brings the first block of the answer. -/
theorem AtHead.last (app : CardApp) (rxBuf : Nat) (hfit : tx.length - s.txSent + 1 ≤ fsc)
    (h256 : fsc ≤ 256) :
    let a := app.answer (s.reader.chip.field.log ++ [tx])
    Audible (c.iPcb (!a.2.isEmpty) (!s.reader.chip.field.bn) :: a.1) →
    ∃ s', AtPart c fsc (a.1.take ((a.1.length + 1) % 512 - 1)) a.2 s' ∧ s'.rx = [] ∧
      s'.reader.chip.field.log = s.reader.chip.field.log ++ [tx] ∧ LeadsTo c app tx rxBuf s s' := by
  intro a haud
  set p := s.reader.chip.field with hp
  set block := c.iPcb (!a.2.isEmpty) (!p.bn) :: a.1 with hblock
  have hnf := nextFrame_last h.chaining h.sent (by rw [h.fscMax]; exact hfit)
  set s1 : ApduLoop Picc :=
    { s with txSent := tx.length, lastPcbSent := pcbIBlockBase ||| s.reader.card.blockNumber }
  have hreq : p.receive c app ((pcbIBlockBase ||| s.reader.card.blockNumber) :: tx.drop s.txSent) =
      ({ p with
        bn := !p.bn, buffered := [], log := p.log ++ [tx], toSend := a.2, sent := p.sent + 1 } :
          Picc).request c (app.wtx p.sent) block := h.receive_last hc
  have hheard : heard block =
      c.iPcb (!a.2.isEmpty) (!p.bn) :: a.1.take ((a.1.length + 1) % 512 - 1) := by
    obtain ⟨n, hn⟩ : ∃ n, block.length % 512 = n + 1 := ⟨_, (Nat.succ_pred_eq_of_pos haud.1).symm⟩
    rw [heard, hn, hblock, List.take_succ_cons]
    rw [hblock, List.length_cons] at hn
    rw [hn, Nat.add_sub_cancel]
  refine ⟨(s1.setChip ⟨{ p with
      bn := !p.bn
      buffered := []
      log := p.log ++ [tx]
      toSend := a.2
      sent := p.sent + 1
      held := none
      last := block }, none⟩).got (heard block),
    ⟨by rw [hheard]; rfl, h.active, h.fscMax, h.bn, rfl, rfl, rfl⟩, h.rx, rfl, fun call hcall => ?_⟩
  have hstep := h.step (Picc.receive c app) rxBuf
  rw [hnf] at hstep
  refine Completes.request hc (app.wtx p.sent) (inTurn_of_head h.point) hstep ?_ hreq haud hcall
  simp only [List.length_cons, List.length_drop]
  omega

/-- A chained block of the command brings the card's R(ACK). -/
theorem AtHead.chained (app : CardApp) (rxBuf : Nat) (hfit : fsc < tx.length - s.txSent + 1)
    (h16 : 16 ≤ fsc) (h256 : fsc ≤ 256) :
    ∃ s', s'.point = .got [c.ack ||| bit (!s.reader.chip.field.bn)] ∧
      s'.lastPcbSent &&& pcbChaining ≠ 0 ∧
      AtHead fsc tx { s' with reader := s'.reader.toggle, point := .head } ∧
      s'.reader.card.blockNumber = bit (!s.reader.chip.field.bn) ∧
      s'.txSent = s.txSent + (fsc - 1) ∧ s'.reader.chip.field.log = s.reader.chip.field.log ∧
      LeadsTo c app tx rxBuf s s' := by
  set p := s.reader.chip.field with hp
  have hfsc := h.fscMax
  have hnf := nextFrame_chained h.chaining h.sent (by rw [hfsc]; exact hfit) (by rw [hfsc]; exact h16)
  rw [hfsc] at hnf
  set s1 : ApduLoop Picc :=
    { s with
      txSent := s.txSent + (fsc - 1)
      lastPcbSent := pcbIBlockBase ||| s.reader.card.blockNumber ||| pcbChaining }
  set inf := (tx.drop s.txSent).take (fsc - 1)
  have hinf : tx.take s.txSent ++ inf = tx.take (s.txSent + (fsc - 1)) := List.take_add.symm
  have hreq : p.receive c app
      ((pcbIBlockBase ||| s.reader.card.blockNumber ||| pcbChaining) :: inf) =
      ({ p with bn := !p.bn, buffered := tx.take (s.txSent + (fsc - 1)), sent := p.sent + 1 } :
          Picc).request c (app.wtx p.sent) [c.ack ||| bit (!p.bn)] := by
    rw [h.bn, Picc.receive_chained h.held (decode_chained hc _ _), h.buffered, hinf]
    rfl
  have hch : (pcbIBlockBase ||| s.reader.card.blockNumber ||| pcbChaining) &&& pcbChaining ≠ 0 := by
    rw [h.bn]
    cases p.bn <;> decide
  refine ⟨(s1.setChip ⟨{ p with
      bn := !p.bn
      buffered := tx.take (s.txSent + (fsc - 1))
      sent := p.sent + 1
      held := none
      last := [c.ack ||| bit (!p.bn)] }, none⟩).got [c.ack ||| bit (!p.bn)],
    rfl, hch, ⟨rfl, h.active, hfsc, ?_, rfl, rfl, ?_, h.chaining, h.rx⟩, h.bn, rfl, rfl,
    fun call hcall => ?_⟩
  · show s.reader.card.blockNumber ^^^ 1 = _
    rw [h.bn, bit_xor]
    rfl
  · show s.txSent + (fsc - 1) < tx.length
    omega
  · have hstep := h.step (Picc.receive c app) rxBuf
    rw [hnf] at hstep
    refine Completes.request hc (app.wtx p.sent) (inTurn_of_head h.point) hstep ?_ hreq
      (audible_of_le (by simp) (by simp)) hcall
    simp only [List.length_cons, List.length_take, inf]
    omega

end Command

/-- The driver sends a command, block by block, and comes to the first block of its answer. -/
theorem AtHead.leadsTo {s : ApduLoop Picc} (h : AtHead fsc tx s) (rxBuf : Nat) (h16 : 16 ≤ fsc)
    (h256 : fsc ≤ 256) (ha : (app.answer (s.reader.chip.field.log ++ [tx])).1.length ≤ 259) :
    ∃ s', AtPart headerCoding fsc (app.answer (s.reader.chip.field.log ++ [tx])).1
        (app.answer (s.reader.chip.field.log ++ [tx])).2 s' ∧ s'.rx = [] ∧
      s'.reader.chip.field.log = s.reader.chip.field.log ++ [tx] ∧
      LeadsTo headerCoding app tx rxBuf s s' := by
  have hc := usual_headerCoding
  induction hn : tx.length - s.txSent using Nat.strong_induction_on generalizing s with
  | _ n ih =>
  rcases Nat.lt_or_ge fsc (tx.length - s.txSent + 1) with hfit | hfit
  · obtain ⟨s1, hpt, hlast, hhead, hbn, hsent, hlog, hlead⟩ :=
      h.chained hc app rxBuf hfit h16 h256
    have hsent' := h.sent
    obtain ⟨s2, hpart, hrx, hlog2, hlead2⟩ :=
      ih (tx.length - s1.txSent) (by omega) hhead (by simpa [Reader.toggle, hlog] using ha) rfl
    have hlog3 : ({ s1 with reader := s1.reader.toggle, point := .head } :
        ApduLoop Picc).reader.chip.field.log = s.reader.chip.field.log := hlog
    rw [hlog3] at hpart hlog2
    have hstep : pn5180ApduStep (Picc.receive headerCoding app) tx rxBuf s1 = _ :=
      (step_got hpt (by cases s.reader.chip.field.bn <;> decide)).trans (onBlock_ack _ hlast)
    have hin : InTurn s1 := inTurn_got hpt (by rw [hbn]; cases s.reader.chip.field.bn <;> decide)
    exact ⟨s2, hpart, hrx, hlog2, fun call hcall => hlead call (.next hin hstep (hlead2 call hcall))⟩
  · have hmod : (app.answer (s.reader.chip.field.log ++ [tx])).1.take
        (((app.answer (s.reader.chip.field.log ++ [tx])).1.length + 1) % 512 - 1) =
        (app.answer (s.reader.chip.field.log ++ [tx])).1 := by
      rw [Nat.mod_eq_of_lt (by omega), Nat.add_sub_cancel, List.take_length]
    have hlast := h.last hc app rxBuf hfit h256
      (audible_of_le (by simp) (by simp; omega))
    rwa [hmod] at hlast

/-- An exchange with a card of the driver's coding, whose blocks the driver has room for. -/
theorem Ready.exchange {r : Reader Picc} (h : Ready fsc r) (htx : tx ≠ []) (h16 : 16 ≤ fsc)
    (h256 : fsc ≤ 256)
    (hfirst : (app.answer (r.chip.field.log ++ [tx])).1.length ≤ 259)
    (hrest : ∀ part ∈ (app.answer (r.chip.field.log ++ [tx])).2, part.length ≤ 259)
    (hfit : (app.reply (r.chip.field.log ++ [tx])).length ≤ rxBuf) :
    ∃ call, Completes (pn5180ApduStep (Picc.receive headerCoding app) tx rxBuf) InTurn (.start r) call ∧
      Delivered app r.chip.field.log tx call ∧ Ready fsc call.reader := by
  obtain ⟨s, hpart, hrx, hlog, hlead⟩ := (h.atHead htx).leadsTo rxBuf h16 h256 hfirst
  have hfit' : (s.rx ++ (app.answer (r.chip.field.log ++ [tx])).1 ++
      (app.answer (r.chip.field.log ++ [tx])).2.flatten).length ≤ rxBuf := by
    rw [hrx]
    exact hfit
  obtain ⟨call, hcall, hret, hrx', hlen, hlog', hready⟩ := hpart.completes app tx hrest hfit'
  exact ⟨call, hlead call hcall, ⟨hret, hlog'.trans hlog, by rw [hrx', hrx]; rfl, hlen⟩, hready⟩

end Exchange

/-! ### Runs of exchanges -/

/-- `Q` holds of every exchange of a run, given the commands up to and including its own. -/
def EachExchange (Q : List Bytes → Bytes × Nat → Prop) : List (Bytes × Nat) → List Bytes → Prop
  | [], _ => True
  | e :: es, log => Q (log ++ [e.1]) e ∧ EachExchange Q es (log ++ [e.1])

/-- Command and size of the receive buffer of each exchange: before it the block numbers differ, no
block at hand carries another number than the driver's, and it delivers. -/
def SyncedRun (app : CardApp) : List (Bytes × Nat) → Reader Picc → Prop
  | [], r => r.card.blockNumber ≠ bit r.chip.field.bn
  | (tx, rxBuf) :: es, r =>
    r.card.blockNumber ≠ bit r.chip.field.bn ∧
      (∀ s, Reaches (pn5180ApduStep (Picc.receive headerCoding app) tx rxBuf) (.start r) s → InTurn s) ∧
      ∃ call, Pn5180Apdu (Picc.receive headerCoding app) tx rxBuf r call ∧
        Delivered app r.chip.field.log tx call ∧ SyncedRun app es call.reader

/-- A command to send and an answer that fits the caller's buffer, in blocks the driver's frame
buffer has room for. -/
def RoomyExchange (app : CardApp) (log : List Bytes) (e : Bytes × Nat) : Prop :=
  e.1 ≠ [] ∧ (app.reply log).length ≤ e.2 ∧ (app.answer log).1.length ≤ 259 ∧
    ∀ part ∈ (app.answer log).2, part.length ≤ 259

theorem Ready.bn_ne {fsc : Nat} {r : Reader Picc} (h : Ready fsc r) :
    r.card.blockNumber ≠ bit r.chip.field.bn := by
  rw [h.bn]
  cases r.chip.field.bn <;> decide

theorem Ready.syncedRun {app : CardApp} {fsc : Nat} (h16 : 16 ≤ fsc) (h256 : fsc ≤ 256)
    (es : List (Bytes × Nat)) {r : Reader Picc} (h : Ready fsc r)
    (hes : EachExchange (RoomyExchange app) es r.chip.field.log) : SyncedRun app es r := by
  induction es generalizing r with
  | nil => exact h.bn_ne
  | cons e es ih =>
    obtain ⟨⟨htx, hfit, hfirst, hrest⟩, hes⟩ := hes
    obtain ⟨call, hcall, hdel, hready⟩ := h.exchange htx h16 h256 hfirst hrest hfit
    refine ⟨h.bn_ne, fun s hs => hcall.always hs, call,
      (pn5180Apdu_iff _ h.active).2 hcall.returns, hdel, ih hready ?_⟩
    rw [hdel.received]
    exact hes

/-- From the activation on, over any commands, any answers in blocks of at most 260 bytes, any
requests for time and any `fsc_max` from 16 to 256. -/
theorem syncedRun_of_roomy (app : CardApp) (fscMax : UInt16) (h16 : 16 ≤ fscMax.toNat)
    (h256 : fscMax.toNat ≤ 256) (es : List (Bytes × Nat))
    (hes : EachExchange (RoomyExchange app) es []) :
    SyncedRun app es ⟨⟨true, 0, fscMax⟩, ⟨Picc.activated, none⟩⟩ :=
  Ready.syncedRun h16 h256 es ⟨rfl, rfl, rfl, rfl, rfl⟩ hes

/-- A card that answers each command in the blocks `parts`, after one request for time. -/
def sampleApp (first : Bytes) (parts : List Bytes) : CardApp := ⟨fun _ => (first, parts), fun _ => [1]⟩

theorem syncedRun_chained :
    SyncedRun (sampleApp [1, 2] [[3], [4, 5]]) [(List.replicate 40 7, 280), ([8], 5)]
      ⟨⟨true, 0, 16⟩, ⟨Picc.activated, none⟩⟩ :=
  syncedRun_of_roomy _ 16 (by decide) (by decide) _
    ⟨⟨by decide, by decide, by decide, by decide⟩, ⟨by decide, by decide, by decide, by decide⟩, trivial⟩

/-- An answer of 260 bytes in one block fits the caller's buffer, but not the driver's. -/
theorem not_syncedRun_long :
    ((sampleApp (List.replicate 260 0) []).reply [[0x90]]).length ≤ 280 ∧
      ¬ SyncedRun (sampleApp (List.replicate 260 0) []) [([0x90], 280)]
        ⟨⟨true, 0, 64⟩, ⟨Picc.activated, none⟩⟩ := by
  refine ⟨by simp only [CardApp.reply, sampleApp, List.length_append, List.length_replicate,
    List.flatten_nil, List.length_nil, Nat.reduceAdd, Nat.reduceLeDiff], ?_⟩
  rintro ⟨-, -, call, hcall, hdel, -⟩
  have hready : Ready 64 ⟨⟨true, 0, 64⟩, ⟨Picc.activated, none⟩⟩ := ⟨rfl, rfl, rfl, rfl, rfl⟩
  have hhead : AtHead 64 [0x90] (.start ⟨⟨true, 0, 64⟩, ⟨Picc.activated, none⟩⟩) :=
    hready.atHead (by simp)
  obtain ⟨call', hcall', hret⟩ := hhead.lost usual_headerCoding
    (sampleApp (List.replicate 260 0) []) 280 (by decide) (by decide)
    (by simp only [Audible, sampleApp, List.length_cons, List.length_replicate]; omega)
  rw [← ((pn5180Apdu_iff _ rfl).1 hcall).unique hcall', hdel.ret] at hret
  split at hret <;> cases hret

end LeafReader
