import LeafReader.Pn5180Sync

/-!
# The PN5180 driver and a standard card

The same loop against a card whose R-blocks are coded as ISO/IEC 14443-4 codes them. The driver's
R(ACK) is no block of that coding, and the card's R(ACK) carries the bit the driver takes for a NAK,
so chaining fails in both directions: an exchange delivers exactly when neither side chains and the
answer fits the driver's frame buffer.
-/

namespace LeafReader

variable {app : CardApp} {tx : Bytes} {rxBuf fsc : Nat}

/-- Neither the command nor its answer is chained, and the answer fits the driver's frame buffer. -/
def SingleBlocks (app : CardApp) (fsc : Nat) (log : List Bytes) (e : Bytes × Nat) : Prop :=
  e.1.length + 1 ≤ fsc ∧ (app.answer log).2 = [] ∧ (app.answer log).1.length ≤ 259

/-- An exchange in single blocks delivers, whatever the R-blocks of the card. -/
theorem Ready.exchange_single {c : Coding} (hc : c.Usual) {r : Reader Picc} (h : Ready fsc r)
    (htx : tx ≠ []) (h256 : fsc ≤ 256)
    (hs : SingleBlocks app fsc (r.chip.field.log ++ [tx]) (tx, rxBuf))
    (hfit : (app.reply (r.chip.field.log ++ [tx])).length ≤ rxBuf) :
    ∃ call, Completes (pn5180ApduStep (Picc.receive c app) tx rxBuf) InTurn (.start r) call ∧
      Delivered app r.chip.field.log tx call ∧ Ready fsc call.reader := by
  obtain ⟨hlen, hone, h259⟩ := hs
  have hlast := (h.atHead htx).last hc app rxBuf hlen h256
  simp only [ApduLoop.reader_start] at hlast
  obtain ⟨s, hpart, hrx, hlog, hlead⟩ := hlast (audible_of_le (by simp) (Nat.succ_le_succ h259))
  have htake : ((app.answer (r.chip.field.log ++ [tx])).1.length + 1) % 512 - 1 =
      (app.answer (r.chip.field.log ++ [tx])).1.length := by omega
  have hreply : app.reply (r.chip.field.log ++ [tx]) = (app.answer (r.chip.field.log ++ [tx])).1 := by
    simp [CardApp.reply, hone]
  rw [hone, htake, List.take_length] at hpart
  rw [hreply] at hfit
  have hroom : s.rx.length + (app.answer (r.chip.field.log ++ [tx])).1.length ≤ rxBuf := by
    simpa [hrx] using hfit
  obtain ⟨call, hcall, hret, hrx', hlen', hlog', hready⟩ := hpart.last app tx hc hroom
  refine ⟨call, hlead call hcall, ⟨hret, hlog'.trans hlog, ?_, hlen'⟩, hready⟩
  rw [hrx', hrx, hreply, List.nil_append]

/-! ### Chaining -/

/-- The card's R(ACK) to a chained block is taken for a NAK. -/
theorem AtHead.nak {s : ApduLoop Picc} (h : AtHead fsc tx s) (app : CardApp) (rxBuf : Nat)
    (hfit : fsc < tx.length - s.txSent + 1) (h16 : 16 ≤ fsc) (h256 : fsc ≤ 256) :
    ∃ call, Completes (pn5180ApduStep (Picc.receive standardCoding app) tx rxBuf) InTurn s call ∧
      call.ret = .fail := by
  obtain ⟨s', hpt, -, -, hbn, -, -, hlead⟩ :=
    h.chained usual_standardCoding app rxBuf hfit h16 h256
  set b := !s.reader.chip.field.bn
  have hR : (standardCoding.ack ||| bit b) &&& pcbTypeMask = pcbTypeR := by cases b <;> decide
  have hN : (standardCoding.ack ||| bit b) &&& pcbAckNakMask ≠ 0 := by cases b <;> decide
  have hstep : pn5180ApduStep (Picc.receive standardCoding app) tx rxBuf s' =
      .inr (s'.fail .fail) := by
    rw [step_got hpt (by cases b <;> decide)]
    simp only [onBlock, List.getD_cons_zero, hR, hN, ↓reduceIte, ne_eq, not_false_eq_true]
  have hin : InTurn s' := inTurn_got hpt (by rw [hbn]; cases b <;> decide)
  exact ⟨_, hlead _ (.done hin hstep), rfl⟩

/-- The card does not answer the driver's R(ACK) to a chained answer. -/
theorem AtPart.mute {inf inf' : Bytes} {rest : List Bytes} {s : ApduLoop Picc}
    (h : AtPart standardCoding fsc inf (inf' :: rest) s) (app : CardApp) (tx : Bytes)
    (hfit : s.rx.length + inf.length ≤ rxBuf) :
    ∃ call, Completes (pn5180ApduStep (Picc.receive standardCoding app) tx rxBuf) InTurn s call ∧
      call.ret = .timeout := by
  have hc := usual_standardCoding
  have hstep : pn5180ApduStep (Picc.receive standardCoding app) tx rxBuf s = _ :=
    (step_got h.point (iPcb_facts hc _ _).1).trans (onBlock_more hc hfit)
  set s1 : ApduLoop Picc :=
    { s with reader := s.reader.toggle, rx := s.rx ++ inf, piccChaining := true, point := .head }
  have hack : nextFrame tx s1 = ([pcbRBlockAck ||| bit (!s.reader.chip.field.bn)], s1) := by
    rw [nextFrame_ack rfl]
    show ([pcbRBlockAck ||| (s.reader.card.blockNumber ^^^ 1)], s1) = _
    rw [h.bn, bit_xor]
  have hdec : standardCoding.decode [pcbRBlockAck ||| bit (!s.reader.chip.field.bn)] = none := by
    cases s.reader.chip.field.bn <;> decide
  have hmute : s1.reader.chip.field.receive standardCoding app
      [pcbRBlockAck ||| bit (!s.reader.chip.field.bn)] = (none, s.reader.chip.field) :=
    Picc.receive_unknown h.held hdec
  have hstep1 : pn5180ApduStep (Picc.receive standardCoding app) tx rxBuf s1 =
      exchangeFrame (Picc.receive standardCoding app) id
        [pcbRBlockAck ||| bit (!s.reader.chip.field.bn)] s1 := by
    simp only [pn5180ApduStep, s1, or_true, ↓reduceIte, hack]
  have hend := hstep1.trans (exchangeFrame_mute _ (by simp) hmute)
  exact ⟨_, .next (h.inTurn hc) hstep (.done (inTurn_of_head rfl) hend), rfl⟩

section Fails

variable {r : Reader Picc} (h : Ready fsc r) (htx : tx ≠ []) (h256 : fsc ≤ 256)
  (hfit : (app.reply (r.chip.field.log ++ [tx])).length ≤ rxBuf)
include h htx h256

theorem Ready.exchange_nak (app : CardApp) (rxBuf : Nat) (h16 : 16 ≤ fsc) (hlong : fsc < tx.length + 1) :
    ∃ call, Returns (pn5180ApduStep (Picc.receive standardCoding app) tx rxBuf) (.start r) call ∧
      call.ret = .fail := by
  obtain ⟨call, hcall, hret⟩ := (h.atHead htx).nak app rxBuf hlong h16 h256
  exact ⟨call, hcall.returns, hret⟩

theorem Ready.exchange_lost (app : CardApp) (rxBuf : Nat) (hshort : tx.length + 1 ≤ fsc) :
    let a := app.answer (r.chip.field.log ++ [tx])
    ¬ Audible (standardCoding.iPcb (!a.2.isEmpty) (!r.chip.field.bn) :: a.1) →
    ∃ call, Returns (pn5180ApduStep (Picc.receive standardCoding app) tx rxBuf) (.start r) call ∧
      call.ret = if (a.1.length + 1) % 512 > 260 ∧ app.wtx r.chip.field.sent = []
        then .invalidSize else .fail :=
  (h.atHead htx).lost usual_standardCoding app rxBuf hshort h256

include hfit

theorem Ready.exchange_front (hshort : tx.length + 1 ≤ fsc) :
    let a := app.answer (r.chip.field.log ++ [tx])
    Audible (standardCoding.iPcb (!a.2.isEmpty) (!r.chip.field.bn) :: a.1) →
    ∃ s, AtPart standardCoding fsc (a.1.take ((a.1.length + 1) % 512 - 1)) a.2 s ∧ s.rx = [] ∧
      s.rx.length + (a.1.take ((a.1.length + 1) % 512 - 1)).length ≤ rxBuf ∧
      LeadsTo standardCoding app tx rxBuf (.start r) s := by
  intro a haud
  obtain ⟨s, hpart, hrx, -, hlead⟩ :=
    (h.atHead htx).last usual_standardCoding app rxBuf hshort h256 haud
  rw [CardApp.reply, List.length_append] at hfit
  refine ⟨s, hpart, hrx, ?_, hlead⟩
  rw [hrx, List.length_take, List.length_nil]
  show 0 + min _ (app.answer (r.chip.field.log ++ [tx])).1.length ≤ rxBuf
  omega

theorem Ready.exchange_mute (hshort : tx.length + 1 ≤ fsc)
    (hrest : (app.answer (r.chip.field.log ++ [tx])).2 ≠ []) :
    let a := app.answer (r.chip.field.log ++ [tx])
    Audible (standardCoding.iPcb (!a.2.isEmpty) (!r.chip.field.bn) :: a.1) →
    ∃ call, Returns (pn5180ApduStep (Picc.receive standardCoding app) tx rxBuf) (.start r) call ∧
      call.ret = .timeout := by
  intro a haud
  obtain ⟨s, hpart, -, hroom, hlead⟩ := h.exchange_front htx h256 hfit hshort haud
  obtain ⟨inf', rest, hcons⟩ := List.exists_cons_of_ne_nil hrest
  rw [hcons] at hpart
  obtain ⟨call, hcall, hret⟩ := hpart.mute app tx hroom
  exact ⟨call, (hlead call hcall).returns, hret⟩

/-- An exchange that chains, or whose answer exceeds the driver's frame buffer, does not deliver. -/
theorem Ready.exchange_fails (h16 : 16 ≤ fsc)
    (hs : ¬ SingleBlocks app fsc (r.chip.field.log ++ [tx]) (tx, rxBuf)) :
    ∃ call, Returns (pn5180ApduStep (Picc.receive standardCoding app) tx rxBuf) (.start r) call ∧
      ¬ Delivered app r.chip.field.log tx call := by
  rcases Nat.lt_or_ge fsc (tx.length + 1) with hlong | hshort
  · obtain ⟨call, hcall, hret⟩ := h.exchange_nak htx h256 app rxBuf h16 hlong
    exact ⟨call, hcall, fun hd => by simp [hd.ret] at hret⟩
  set a := app.answer (r.chip.field.log ++ [tx]) with ha
  by_cases haud : Audible (standardCoding.iPcb (!a.2.isEmpty) (!r.chip.field.bn) :: a.1)
  · by_cases hrest : a.2 = []
    · -- the driver reads the front of a block that is too long
      obtain ⟨s, hpart, hrx, hroom, hlead⟩ := h.exchange_front htx h256 hfit hshort haud
      rw [← ha, hrest] at hpart
      obtain ⟨call, hcall, -, hrx', -, -, -⟩ := hpart.last app tx usual_standardCoding hroom
      refine ⟨call, (hlead call hcall).returns, fun hd => hs ⟨hshort, hrest, ?_⟩⟩
      have hlen := congrArg List.length (hrx'.symm.trans hd.rx)
      rw [CardApp.reply, ← ha, hrest, hrx] at hlen
      simp only [List.nil_append, List.length_take, List.flatten_nil, List.append_nil] at hlen
      have h2 := haud.2
      rw [List.length_cons] at h2
      show a.1.length ≤ 259
      omega
    · obtain ⟨call, hcall, hret⟩ := h.exchange_mute htx h256 hfit hshort hrest haud
      exact ⟨call, hcall, fun hd => by simp [hd.ret] at hret⟩
  · obtain ⟨call, hcall, hret⟩ := h.exchange_lost htx h256 app rxBuf hshort haud
    refine ⟨call, hcall, fun hd => ?_⟩
    rw [hd.ret] at hret
    split at hret <;> cases hret

end Fails

/-! ### Runs of exchanges -/

/-- Command and size of the receive buffer of each exchange: every one of them delivers. -/
def DeliversAll (c : Coding) (app : CardApp) : List (Bytes × Nat) → Reader Picc → Prop
  | [], _ => True
  | (tx, rxBuf) :: es, r =>
    ∃ call, Pn5180Apdu (Picc.receive c app) tx rxBuf r call ∧
      Delivered app r.chip.field.log tx call ∧ DeliversAll c app es call.reader

/-- A command to send, and an answer that fits the caller's buffer. -/
def FittingExchange (app : CardApp) (log : List Bytes) (e : Bytes × Nat) : Prop :=
  e.1 ≠ [] ∧ (app.reply log).length ≤ e.2

theorem Ready.delivers_iff (h16 : 16 ≤ fsc) (h256 : fsc ≤ 256) (es : List (Bytes × Nat))
    {r : Reader Picc} (h : Ready fsc r)
    (hes : EachExchange (FittingExchange app) es r.chip.field.log) :
    DeliversAll standardCoding app es r ↔ EachExchange (SingleBlocks app fsc) es r.chip.field.log := by
  induction es generalizing r with
  | nil => exact Iff.rfl
  | cons e es ih =>
    obtain ⟨tx, rxBuf⟩ := e
    obtain ⟨⟨htx, hfit⟩, hes⟩ := hes
    have hapdu (call : ApduCall Picc) : Pn5180Apdu (Picc.receive standardCoding app) tx rxBuf r call ↔
        Returns (pn5180ApduStep (Picc.receive standardCoding app) tx rxBuf) (.start r) call :=
      pn5180Apdu_iff _ h.active
    constructor
    · rintro ⟨call, hcall, hdel, hrest⟩
      have hs : SingleBlocks app fsc (r.chip.field.log ++ [tx]) (tx, rxBuf) := by
        by_contra hs
        obtain ⟨call', hcall', hnot⟩ := h.exchange_fails htx h256 hfit h16 hs
        rw [((hapdu call).1 hcall).unique hcall'] at hdel
        exact hnot hdel
      obtain ⟨call', hcall', -, hready⟩ := h.exchange_single usual_standardCoding htx h256 hs hfit
      rw [← ((hapdu call).1 hcall).unique hcall'.returns] at hready
      have hrest' := (ih hready (by rw [hdel.received]; exact hes)).1 hrest
      rw [hdel.received] at hrest'
      exact ⟨hs, hrest'⟩
    · rintro ⟨hs, hrest⟩
      obtain ⟨call, hcall, hdel, hready⟩ := h.exchange_single usual_standardCoding htx h256 hs hfit
      refine ⟨call, (hapdu call).2 hcall.returns, hdel, (ih hready ?_).2 ?_⟩
      · rw [hdel.received]
        exact hes
      · rw [hdel.received]
        exact hrest

/-- From the activation on, with a standard card and any ATS: a run of exchanges delivers exactly when
no command and no answer of it is chained, and every answer fits the driver's frame buffer. -/
theorem deliversAll_iff (app : CardApp) (ats : Bytes) (es : List (Bytes × Nat))
    (hes : EachExchange (FittingExchange app) es []) :
    DeliversAll standardCoding app es ⟨activate ats, ⟨Picc.activated, none⟩⟩ ↔
      EachExchange (SingleBlocks app (fscOfAts ats).toNat) es [] :=
  Ready.delivers_iff (fscOfAts_bounds ats).1 (fscOfAts_bounds ats).2 es (ready_activate ats) hes

theorem deliversAll_short :
    DeliversAll standardCoding (sampleApp [0x91, 0x00] []) [([0x90, 0x5A], 280), ([0x90, 0x71], 280)]
        ⟨activate [6, 0x75, 0x77, 0x81, 0x02, 0x80], ⟨Picc.activated, none⟩⟩ ↔
      EachExchange
        (SingleBlocks (sampleApp [0x91, 0x00] []) (fscOfAts [6, 0x75, 0x77, 0x81, 0x02, 0x80]).toNat)
        [([0x90, 0x5A], 280), ([0x90, 0x71], 280)] [] :=
  deliversAll_iff _ _ _ ⟨⟨by decide, by decide⟩, ⟨by decide, by decide⟩, trivial⟩

/-- A card with frames of 64 bytes and a command of 64 bytes: the first exchange ends in a NAK. -/
theorem not_deliversAll_chained :
    ¬ DeliversAll standardCoding (sampleApp [0x91, 0x00] []) [(List.replicate 64 0x90, 280)]
      ⟨activate [6, 0x75, 0x77, 0x81, 0x02, 0x80], ⟨Picc.activated, none⟩⟩ := by
  rintro ⟨call, hcall, hdel, -⟩
  have hhead : AtHead 64 (List.replicate 64 0x90)
      (.start ⟨activate [6, 0x75, 0x77, 0x81, 0x02, 0x80], ⟨Picc.activated, none⟩⟩) :=
    (ready_activate [6, 0x75, 0x77, 0x81, 0x02, 0x80]).atHead (by simp)
  obtain ⟨call', hcall', hret⟩ := hhead.nak (sampleApp [0x91, 0x00] []) 280 (by decide)
    (by decide) (by decide)
  rw [← ((pn5180Apdu_iff _ rfl).1 hcall).unique hcall'.returns, hdel.ret] at hret
  cases hret

end LeafReader
