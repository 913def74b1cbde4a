import LeafReader.OsdpCpSteps

/-!
# One exchange

`OsdpLink.InStep` is what holds of a CP and a PD on one line between two exchanges,
`OsdpLink.Answers` while a reply is due. A message that goes from one end to the other leads from
the one to the other, and is handed on as it was sent.
-/

namespace LeafReader

/-! ### The packet on the line -/

/-- The packet that an end makes of a message. -/
def OsdpLink.frameOf (l : OsdpLink) (scb msg : Bytes) : OsdpFrame :=
  ⟨l.initiated.pktHasMark, addrOf l, ctrlOf l.initiated.seqNumber (scb ≠ []), scb, msg, []⟩

section Header

variable {l : OsdpLink}

theorem SeqOnLine.nextSeq {n : ℤ} (h : SeqOnLine n) :
    SeqOnLine (nextSeq n) ∧ LeafReader.nextSeq n ≠ 0 := by
  rcases h.cases with rfl | rfl | rfl | rfl <;> exact ⟨⟨by decide, by decide⟩, by decide⟩

theorem addr_and {n : ℕ} (hn : n < 0x7F) : ((UInt8.ofNat n &&& 0x7F) &&& 0x7F).toNat = n := by
  rw [UInt8.and_assoc, show (0x7F : UInt8) &&& 0x7F = 0x7F from rfl, UInt8.toNat_and,
    UInt8.toNat_ofNat_of_lt' (Nat.lt_trans hn (by decide))]
  exact (Nat.and_two_pow_sub_one_eq_mod n 7).trans (Nat.mod_eq_of_lt (Nat.lt_trans hn (by decide)))

theorem and_or_distrib (a b c : UInt8) : (a ||| b) &&& c = a &&& c ||| b &&& c :=
  UInt8.toBitVec_inj.1 (BitVec.and_or_distrib_right ..)

/-- A packet is addressed to the one that the link is with, or to all. -/
theorem addrOf_and (h : l.address < 0x7F) :
    (addrOf l &&& 0x7F).toNat = l.address ∨ (addrOf l &&& 0x7F).toNat = 0x7F := by
  unfold addrOf
  rcases l.pktBroadcast with _ | _ <;> rcases l.pdMode with _ | _
  · exact .inl (addr_and h)
  · left
    simp only [Bool.false_eq_true, if_false, if_true, and_or_distrib]
    rw [show (0x80 : UInt8) &&& 0x7F = 0 from rfl, UInt8.or_zero]
    exact addr_and h
  · exact .inr (by simp only [Bool.false_eq_true, if_true, if_false]; decide)
  · exact .inr (by simp only [if_true]; decide)

theorem addrOf_dir (l : OsdpLink) : addrOf l &&& 0x80 ≠ 0 ↔ l.pdMode = true := by
  have hlow : (UInt8.ofNat l.address &&& 0x7F) &&& 0x80 = 0 := by
    rw [UInt8.and_assoc, show (0x7F : UInt8) &&& 0x80 = 0 from rfl, UInt8.and_zero]
  unfold addrOf
  rcases l.pktBroadcast with _ | _ <;> rcases l.pdMode with _ | _
  · simp [hlow]
  · simp only [Bool.false_eq_true, if_false, if_true, and_or_distrib, hlow]
    decide
  · simp only [Bool.false_eq_true, if_false, if_true, iff_false]
    decide
  · simp only [if_true, iff_true]
    decide

end Header

/-! ### Putting it on the line -/

/-- The security blocks that an end may give a message. -/
def BlockFor (l : OsdpLink) (scb : Bytes) : Prop :=
  if l.scActive then ∃ t, scb = [2, t] ∧ scs15 ≤ t ∧ t ≤ scs18
  else scb = [] ∨ ∃ t x, scb = [3, t, x] ∧ scs11 ≤ t ∧ t ≤ scs14

/-- The packet as it goes on the line, and the end that has sent it. -/
def OsdpLink.put (aes : Aes) (l : OsdpLink) (scb msg : Bytes) : OsdpFrame × OsdpLink :=
  let f := l.frameOf scb msg
  if l.scActive then
    ((f.sealed aes (!l.pdMode) l.sc).1, { l.initiated with sc := (f.sealed aes (!l.pdMode) l.sc).2 })
  else (f, l.initiated)

section Put

variable {aes : Aes} {l : OsdpLink} {scb : Bytes} {id : UInt8} {data : Bytes}

theorem put_off (h : l.scActive = false) (msg : Bytes) :
    l.put aes scb msg = (l.frameOf scb msg, l.initiated) := by
  unfold OsdpLink.put
  dsimp only
  rw [if_neg (by rw [h]; nofun)]

theorem put_on (h : l.scActive = true) (msg : Bytes) : l.put aes scb msg =
    (((l.frameOf scb msg).sealed aes (!l.pdMode) l.sc).1,
      { l.initiated with sc := ((l.frameOf scb msg).sealed aes (!l.pdMode) l.sc).2 }) := by
  unfold OsdpLink.put
  dsimp only
  rw [if_pos h]

theorem initiated_put (aes : Aes) (l : OsdpLink) (scb msg : Bytes) :
    ∃ sc, (l.put aes scb msg).2 = { l.initiated with sc := sc } := by
  rcases hon : l.scActive with _ | _
  · rw [put_off hon]
    exact ⟨l.initiated.sc, rfl⟩
  · rw [put_on hon]
    exact ⟨_, rfl⟩

theorem length_frame_le (aes : Aes) (id : UInt8) (data : Bytes) (hblock : BlockFor l scb) :
    (l.put aes scb (id :: data)).1.bytes.length ≤ data.length + 32 := by
  have hmark : (l.put aes scb (id :: data)).1.markBytes.length ≤ 1 := by
    rw [OsdpFrame.length_markBytes]
    split <;> omega
  rw [OsdpFrame.length_bytes, OsdpFrame.len]
  unfold BlockFor at hblock
  rcases hon : l.scActive with _ | _
  · rw [put_off hon] at hmark ⊢
    rw [hon, if_neg Bool.false_ne_true] at hblock
    have hscb : scb.length ≤ 3 := by
      rcases hblock with rfl | ⟨t, x, rfl, -, -⟩ <;> simp
    simp only [OsdpLink.frameOf, List.length_cons, List.length_nil] at hmark ⊢
    omega
  · rw [put_on hon] at hmark ⊢
    rw [hon, if_pos rfl] at hblock
    obtain ⟨t, rfl, -, -⟩ := hblock
    have hpad := aesPadLen_lt (data.length + 1)
    have hmsg : ((l.frameOf [2, t] (id :: data)).sealed aes
        (!l.pdMode) l.sc).1.msg.length ≤ data.length + 17 := by
      show (if _ ∨ _ then _ else _ : Bytes).length ≤ _
      split
      · show (id :: osdpEncryptData aes l.sc (!l.pdMode) data).length ≤ _
        rw [List.length_cons, length_osdpEncryptData]
        omega
      · show (id :: data).length ≤ _
        rw [List.length_cons]
        omega
    have hscb : ((l.frameOf [2, t] (id :: data)).sealed aes (!l.pdMode) l.sc).1.scb.length = 2 := rfl
    dsimp only at hmark ⊢
    rw [OsdpFrame.length_sealed_mac, hscb]
    omega

/-- What an end sends of a message is the packet that it puts on the line, where there is room for
it. -/
theorem send_put (aes : Aes) (id : UInt8) (data : Bytes) {maxLen : ℕ} (hblock : BlockFor l scb)
    (hfit : (l.put aes scb (id :: data)).1.bytes.length ≤ maxLen) :
    osdpPhySendPacket aes l.initiated (l.frameOf scb (id :: data)).draft maxLen true =
      (.ok (l.put aes scb (id :: data)).1.bytes, (l.put aes scb (id :: data)).2) := by
  unfold BlockFor at hblock
  unfold osdpPhySendPacket
  rcases hon : l.scActive with _ | _
  · rw [put_off hon] at hfit ⊢
    rw [finalize_plain rfl (List.cons_ne_nil _ _) rfl _ hfit]
    · rfl
    · rintro ⟨hno, -⟩
      exact Bool.noConfusion (hon.symm.trans hno)
  · rw [put_on hon] at hfit ⊢
    rw [hon, if_pos rfl] at hblock
    obtain ⟨t, rfl, ht, -⟩ := hblock
    rw [finalize_sealed (l := l.initiated) rfl rfl hon ((ctrlOf_scb _ _).2 rfl) rfl ht hfit]
    rfl

end Put

/-! ### Taking it in -/

section Take

variable {l : OsdpLink} {f : OsdpFrame}

/-- What an end needs of a packet, besides its number. -/
structure OsdpFrame.For (f : OsdpFrame) (l : OsdpLink) : Prop where
  msg : f.msg ≠ []
  fits : f.bytes.length ≤ osdpPacketBufSize
  direction : f.addr &&& 0x80 ≠ 0 ↔ l.pdMode = false
  addr : (f.addr &&& 0x7F).toNat = l.address ∨ (f.addr &&& 0x7F).toNat = 0x7F
  crc : f.ctrl &&& pktControlCrc ≠ 0

theorem OsdpFrame.For.arrives (hf : f.For l) : f.Arrives l.pdMode f.markBytes := by
  have hfits := hf.fits
  rw [f.length_bytes] at hfits
  refine ⟨?_, hf.msg, ⟨(Nat.le_add_left ..).trans hfits, fun hno => ?_⟩, ?_, ?_⟩
  · unfold OsdpFrame.markBytes markOf
    split <;> decide
  · have hboth := hno.symm.trans hf.direction
    rcases hmode : l.pdMode with _ | _ <;> rw [hmode] at hboth
    · exact Bool.noConfusion (hboth.2 rfl)
    · exact Bool.noConfusion (hboth.1 rfl)
  · unfold OsdpFrame.markBytes at hfits
    rw [show endsInMark f.markBytes = f.marked by unfold OsdpFrame.markBytes; cases f.marked <;> rfl]
    exact hfits
  · unfold osdpPacketBufSize at hfits
    unfold osdpRxRbSize
    omega

/-- The PD takes in a packet whose number starts anew, is the next one, or is that of the packet
before. -/
theorem check_pd (now : ℤ) (h : l.Idle) (hpd : l.pdMode = true) (hf : f.For l)
    (hseq : SeqAccepted l.seqNumber f.ctrl) :
    ∃ l' m, osdpPhyCheckPacket now { l with rxWaiting := f.bytes } = (.ok (), l') ∧
      l'.Holds { f with marked := m } ∧
      l'.rxRb.contents = [] ∧ l'.rxWaiting = [] ∧ OsdpLink.SameRest { l with
        seqNumber := (f.ctrl &&& pktControlSqn).toNat
        pktBroadcast := l.pktBroadcast || (f.addr &&& 0x7F).toNat == 0x7F
        scActive := if f.ctrl &&& pktControlSqn = 0 then false else l.scActive } l' := by
  obtain ⟨l₁, m, hcollect, hrest, hholds, hring, hwait⟩ := collectPacket_frame now h hf.arrives
  have hseq₁ : l₁.seqNumber = l.seqNumber := (congrArg OsdpLink.seqNumber hrest :)
  have haddr₁ : l₁.address = l.address := (congrArg OsdpLink.address hrest :)
  have hbroad₁ : l₁.pktBroadcast = l.pktBroadcast := (congrArg OsdpLink.pktBroadcast hrest :)
  have hactive₁ : l₁.scActive = l.scActive := (congrArg OsdpLink.scActive hrest :)
  have hcheck := phyCheckPacket_pd hholds (hrest.pdMode.trans hpd) hf.crc (haddr₁.symm ▸ hf.addr)
    (hseq₁.symm ▸ hseq)
  refine ⟨{ l₁ with
    seqNumber := (f.ctrl &&& pktControlSqn).toNat
    pktBroadcast := l₁.pktBroadcast || (f.addr &&& 0x7F).toNat == 0x7F
    scActive := if f.ctrl &&& pktControlSqn = 0 then false else l₁.scActive }, m, ?_,
    ⟨hholds.bytes, hholds.bufLen, hholds.len, hholds.marked⟩, hring, hwait, ?_⟩
  · unfold osdpPhyCheckPacket
    rw [show f.bytes = f.markBytes ++ f.body from rfl, hcollect]
    dsimp only
    rw [hcheck]
  · have hwithout : l₁.withoutRx = l.withoutRx := hrest
    rw [hbroad₁, hactive₁]
    exact congrArg (fun w : OsdpLink => { w with
      seqNumber := (f.ctrl &&& pktControlSqn).toNat
      pktBroadcast := l.pktBroadcast || (f.addr &&& 0x7F).toNat == 0x7F
      scActive := if f.ctrl &&& pktControlSqn = 0 then false else l.scActive }) hwithout

/-- The CP takes in a packet that has the number of its command. -/
theorem check_cp (now : ℤ) (h : l.Idle) (hcp : l.pdMode = false) (hf : f.For l)
    (hseq : l.seqNumber = (f.ctrl &&& pktControlSqn).toNat)
    (hbusy : (f.scb ++ f.msg ++ f.mac ++ f.check).getD 0 0 ≠ replyBusy) :
    ∃ l' m, osdpPhyCheckPacket now { l with rxWaiting := f.bytes } = (.ok (), l') ∧
      l'.Holds { f with marked := m } ∧
      l'.rxRb.contents = [] ∧ l'.rxWaiting = [] ∧ l.SameRest l' := by
  obtain ⟨l₁, m, hcollect, hrest, hholds, hring, hwait⟩ := collectPacket_frame now h hf.arrives
  have hseq₁ : l₁.seqNumber = l.seqNumber := (congrArg OsdpLink.seqNumber hrest :)
  have haddr₁ : l₁.address = l.address := (congrArg OsdpLink.address hrest :)
  have hcheck := phyCheckPacket_cp hholds (hrest.pdMode.trans hcp) hf.crc (haddr₁.symm ▸ hf.addr)
    (hseq₁.trans hseq) hbusy
  refine ⟨l₁, m, ?_, hholds, hring, hwait, hrest⟩
  unfold osdpPhyCheckPacket
  rw [show f.bytes = f.markBytes ++ f.body from rfl, hcollect]
  exact hcheck

end Take

/-! ### What holds between exchanges -/

/-- A CP and a PD on one line. -/
structure SameLine (a b : OsdpLink) : Prop where
  cpMode : a.pdMode = false
  pdMode : b.pdMode = true
  address : b.address = a.address
  inRange : a.address < 0x7F
  capable : b.scIsCapable = true

/-- The CP `a` and the PD `b` between two exchanges: where the CP does not start anew, they have the
same number, and the channel is active at both ends or at none. -/
structure OsdpLink.InStep (a b : OsdpLink) : Prop extends SameLine a b where
  cpIdle : a.Idle
  pdIdle : b.Idle
  seq : a.seqNumber = -1 ∨ SeqOnLine a.seqNumber ∧ b.seqNumber = a.seqNumber ∧ b.scActive = a.scActive
  chain : a.scActive = true → a.seqNumber ≠ -1 ∧ SameChain true a.sc b.sc

/-- The PD `b` has taken in the command of the CP `a`, and its reply is due. -/
structure OsdpLink.Answers (a b : OsdpLink) : Prop extends SameLine a b where
  cpIdle : a.Idle
  ring : b.rxRb.contents = []
  waiting : b.rxWaiting = []
  seq : SeqOnLine a.seqNumber ∧ b.seqNumber = a.seqNumber
  active : b.scActive = a.scActive
  chain : a.scActive = true → SameChain false b.sc a.sc

/-- The key that everyone knows is asked for. -/
def asksScbkd (l : OsdpLink) (scb : Bytes) : Bool :=
  (scb.getD 1 0 == scs11 || scb.getD 1 0 == scs13) && l.installMode && scb.getD 2 0 == 0

theorem SameChain.turn (aes : Aes) {isCmd : Bool} {a b : OsdpSecureChannel}
    (h : SameChain isCmd a b) (data : Bytes) :
    SameChain (!isCmd) (osdpComputeMac aes isCmd data b) (osdpComputeMac aes isCmd data a) := by
  have hmac : (osdpComputeMac aes isCmd data b).macOfDir isCmd =
      (osdpComputeMac aes isCmd data a).macOfDir isCmd :=
    h.mac data
  rcases isCmd with _ | _ <;> exact ⟨h.sEnc.symm, h.sMac1.symm, h.sMac2.symm, hmac.symm⟩

section Transfer

variable {aes : Aes} {a b l : OsdpLink} {scb : Bytes} {id : UInt8} {data : Bytes}

/-- The header of a packet does not depend on whether it is sealed. -/
theorem header_put (aes : Aes) (l : OsdpLink) (scb msg : Bytes) : (l.put aes scb msg).1.addr = addrOf l ∧
    (l.put aes scb msg).1.ctrl = ctrlOf l.initiated.seqNumber (scb ≠ []) ∧
    (l.put aes scb msg).1.scb = scb := by
  rcases hon : l.scActive with _ | _
  · rw [put_off hon]
    exact ⟨rfl, rfl, rfl⟩
  · rw [put_on hon]
    exact ⟨rfl, rfl, rfl⟩

theorem msg_put : (l.put aes scb (id :: data)).1.msg ≠ [] := by
  rcases hon : l.scActive with _ | _
  · rw [put_off hon]
    exact List.cons_ne_nil _ _
  · rw [put_on hon]
    show (if _ ∨ _ then _ else _ : Bytes) ≠ []
    split <;> exact List.cons_ne_nil _ _

/-- A packet is for the other end of the line. -/
theorem for_put (hmode : b.pdMode = !l.pdMode) (haddr : b.address = l.address)
    (hrange : l.address < 0x7F) (hlen : (l.put aes scb (id :: data)).1.bytes.length ≤ osdpPacketBufSize) :
    (l.put aes scb (id :: data)).1.For b := by
  obtain ⟨ha, hc, -⟩ := header_put aes l scb (id :: data)
  refine ⟨msg_put, hlen, ?_, ?_, ?_⟩
  · rw [ha, addrOf_dir, hmode]
    rcases l.pdMode with _ | _ <;> decide
  · rw [ha, haddr]
    exact addrOf_and hrange
  · rw [hc]
    exact ctrlOf_crc _ _

theorem asksScbkd_off {t : UInt8} (ht : scs15 ≤ t) : asksScbkd b [2, t] = false := by
  have hge : 0x15 ≤ t.toNat := UInt8.le_iff_toNat_le.1 ht
  have hne : (t == scs11 || t == scs13) = false := by
    rw [Bool.or_eq_false_iff, beq_eq_false_iff_ne, beq_eq_false_iff_ne]
    constructor <;> rintro rfl <;> exact absurd hge (by decide)
  unfold asksScbkd
  rw [show ([2, t] : Bytes).getD 1 0 = t from rfl, hne, Bool.false_and, Bool.false_and]

/-- The other end hands on the message as it was sent; under the channel, both ends are at the other
direction then. -/
theorem decode_put {m : Bool} (hholds : b.Holds { (l.put aes scb (id :: data)).1 with marked := m })
    (hblock : BlockFor l scb) (hmode : b.pdMode = !l.pdMode) (hactive : b.scActive = l.scActive)
    (hcap : b.pdMode = true → b.scIsCapable = true)
    (hchain : l.scActive = true → SameChain (!l.pdMode) l.sc b.sc) :
    ∃ buf sc, osdpPhyDecodePacket aes b = (.ok (id :: data), { b with
        packetBuf := buf, sc := sc, scUseScbkd := b.scUseScbkd || asksScbkd b scb }) ∧
      (l.scActive = false → sc = b.sc) ∧
      (l.scActive = true → SameChain l.pdMode sc (l.put aes scb (id :: data)).2.sc) := by
  unfold BlockFor at hblock
  rcases hon : l.scActive with _ | _
  · rw [put_off hon] at hholds ⊢
    rw [hon, if_neg nofun] at hblock
    rcases hblock with rfl | ⟨t, x, rfl, ht, ht'⟩
    · refine ⟨b.packetBuf, b.sc, ?_, fun _ => rfl, nofun⟩
      rw [decode_plain hholds (ctrlOf_crc _ _)
        (by_contra fun hno => Bool.noConfusion ((ctrlOf_scb _ _).1 hno)) rfl rfl
        (.inl (hactive.trans hon))]
      exact congrArg (fun u => (Except.ok (id :: data), { b with scUseScbkd := u }))
        (Bool.or_false _).symm
    · refine ⟨b.packetBuf, b.sc, ?_, fun _ => rfl, nofun⟩
      rw [decode_handshake hholds (ctrlOf_crc _ _) ((ctrlOf_scb _ _).2 rfl) rfl rfl ht ht' hcap]
      rfl
  · rw [put_on hon] at hholds ⊢
    rw [hon, if_pos rfl] at hblock
    obtain ⟨t, rfl, ht, ht'⟩ := hblock
    have hsame := hchain hon
    rw [← hmode] at hholds hsame ⊢
    obtain ⟨buf, hdecode⟩ := decode_sealed hholds hsame (hactive.trans hon) hcap (ctrlOf_crc _ _)
      ((ctrlOf_scb _ _).2 rfl) rfl ht ht' rfl
    have hturn := hsame.turn aes ((l.frameOf [2, t] (id :: data)).enciphered aes b.pdMode l.sc).head
    refine ⟨buf, osdpComputeMac aes b.pdMode
      ((l.frameOf [2, t] (id :: data)).enciphered aes b.pdMode l.sc).head b.sc,
      ?_, nofun, fun _ => ?_⟩
    · rw [asksScbkd_off ht, Bool.or_false]
      exact hdecode
    · rw [show l.pdMode = !b.pdMode by rw [hmode, Bool.not_not]]
      exact hturn

/-- A command of the CP is handed on at the PD as it was sent, and the reply is due. -/
theorem command_transfer (aes : Aes) (now : ℤ) (h : OsdpLink.InStep a b) (hblock : BlockFor a scb)
    (hlen : (a.put aes scb (id :: data)).1.bytes.length ≤ osdpPacketBufSize) :
    ∃ b₁ b₂, osdpPhyCheckPacket now { b with rxWaiting := (a.put aes scb (id :: data)).1.bytes } =
      (.ok (), b₁) ∧
      osdpPhyDecodePacket aes b₁ = (.ok (id :: data), b₂) ∧ b.Received b₂ ∧
      b₂.scUseScbkd = (b.scUseScbkd || asksScbkd b scb) ∧
        OsdpLink.Answers (a.put aes scb (id :: data)).2 b₂ := by
  have hfor : (a.put aes scb (id :: data)).1.For b :=
    for_put (by rw [h.cpMode, h.pdMode]; rfl) h.address h.inRange hlen
  obtain ⟨-, hctrl, -⟩ := header_put aes a scb (id :: data)
  -- the number that goes on the line, and what it does to the channel at the PD
  have hnum : SeqOnLine (nextSeq a.seqNumber) ∧
    SeqAccepted b.seqNumber (ctrlOf (nextSeq a.seqNumber) (scb ≠ [])) ∧
      (if ctrlOf (nextSeq a.seqNumber) (scb ≠ []) &&& pktControlSqn =
        0 then false else b.scActive) = a.scActive := by
    rcases h.seq with hneg | ⟨hline, heq, hactive⟩
    · have hoff : a.scActive = false := by
        by_contra hon
        exact (h.chain (by simpa using hon)).1 hneg
      rw [hneg, hoff]
      have hzero : ctrlOf (nextSeq (-1)) (scb ≠ []) &&& pktControlSqn = 0 := by
        rcases hb : decide (scb ≠ []) with _ | _ <;> decide
      exact ⟨⟨by decide, by decide⟩, .inl hzero, if_pos hzero⟩
    · obtain ⟨hnext, hne⟩ := hline.nextSeq
      have hsqn := ctrlOf_sqn hnext (scb ≠ [])
      refine ⟨hnext, .inr (.inr (by rw [hsqn, heq])), ?_⟩
      rw [if_neg fun hno => hne (by rw [← hsqn, hno]; rfl), hactive]
  obtain ⟨hnext, haccept, hactive⟩ := hnum
  have hseq : a.initiated.seqNumber = nextSeq a.seqNumber := by
    unfold OsdpLink.initiated
    rw [h.cpMode]
    rfl
  rw [hseq] at hctrl
  obtain ⟨b₁, m, hcheck, hholds, hring, hwait, hrest⟩ :=
    check_pd now h.pdIdle h.pdMode hfor (hctrl.symm ▸ haccept)
  rw [hctrl] at hrest
  have hactive₁ : b₁.scActive = a.scActive := (congrArg OsdpLink.scActive hrest :).trans hactive
  have hsc₁ : b₁.sc = b.sc := (congrArg OsdpLink.sc hrest :)
  have hmode₁ : b₁.pdMode = true := hrest.pdMode.trans h.pdMode
  have hcap₁ : b₁.scIsCapable = true := (congrArg OsdpLink.scIsCapable hrest :).trans h.capable
  obtain ⟨buf, sc, hdecode, -, hturn⟩ := decode_put hholds hblock (by rw [hmode₁, h.cpMode]; rfl) hactive₁
    (fun _ => hcap₁) fun hon => by rw [hsc₁, h.cpMode]; exact (h.chain hon).2
  have hreceived : b.Received b₁ := by
    have hcheck' := OsdpLink.received_osdpPhyCheckPacket now { b with
      rxWaiting := (a.put aes scb (id :: data)).1.bytes }
    rw [hcheck] at hcheck'
    have hwaits : b.Received { b with rxWaiting := (a.put aes scb (id :: data)).1.bytes } :=
      ⟨rfl, fun hon => hon, .inl⟩
    exact hwaits.trans hcheck'
  have hdecoded := OsdpLink.received_osdpPhyDecodePacket aes b₁
  rw [hdecode] at hdecoded
  have huse : b₁.scUseScbkd = b.scUseScbkd := (congrArg OsdpLink.scUseScbkd hrest :)
  have hinstall : b₁.installMode = b.installMode := hreceived.installMode
  obtain ⟨sc', hput⟩ := initiated_put aes a scb (id :: data)
  refine ⟨b₁, _, hcheck, hdecode, hreceived.trans hdecoded, ?_, ?_⟩
  · show (b₁.scUseScbkd || asksScbkd b₁ scb) = _
    unfold asksScbkd
    rw [huse, hinstall]
  · have hb : b₁.seqNumber = nextSeq a.seqNumber := by
      have := (congrArg OsdpLink.seqNumber hrest :)
      exact this.trans (ctrlOf_sqn hnext _)
    rw [hput] at hturn ⊢
    refine ⟨⟨h.cpMode, hmode₁, (hreceived.address.trans h.address :), h.inRange, hcap₁⟩,
      ⟨h.cpIdle.bufLen, h.cpIdle.len, h.cpIdle.ring, h.cpIdle.waiting⟩, hring,
      hwait, ?_, hactive₁, fun hon => ?_⟩
    · exact ⟨hseq.symm ▸ hnext, hb.trans hseq.symm⟩
    · have := hturn hon
      rw [h.cpMode] at this
      exact this

/-- The reply of the PD is handed on at the CP as it was sent, and the two are in step again. -/
theorem reply_transfer (aes : Aes) (now : ℤ) (h : OsdpLink.Answers a b)
    (hblock : BlockFor b scb) (hid : id ≠ replyBusy)
    (hlen : (b.put aes scb (id :: data)).1.bytes.length ≤ osdpPacketBufSize) :
    ∃ a₁ a₂, osdpPhyCheckPacket now { a with rxWaiting := (b.put aes scb (id :: data)).1.bytes } =
      (.ok (), a₁) ∧
      osdpPhyDecodePacket aes a₁ = (.ok (id :: data), a₂) ∧ a.Received a₂ ∧ a₂.scActive = a.scActive ∧
      a₂.scUseScbkd = (a.scUseScbkd || asksScbkd a scb) ∧
      OsdpLink.InStep (osdpPhyStateReset a₂ false)
        (osdpPhyStateReset (b.put aes scb (id :: data)).2 false) := by
  have hfor : (b.put aes scb (id :: data)).1.For a :=
    for_put (by rw [h.cpMode, h.pdMode]; rfl) h.address.symm (h.address.symm ▸ h.inRange) hlen
  obtain ⟨-, hctrl, hscb⟩ := header_put aes b scb (id :: data)
  have hseq : b.initiated.seqNumber = a.seqNumber := by
    unfold OsdpLink.initiated
    rw [h.pdMode]
    exact h.seq.2
  rw [hseq] at hctrl
  have hfirst (rest : Bytes) :
      (scb ++ (b.put aes scb (id :: data)).1.msg ++ rest).getD 0 0 ≠ replyBusy := by
    unfold BlockFor at hblock
    rcases hon : b.scActive with _ | _
    · rw [hon, if_neg nofun] at hblock
      rw [put_off hon]
      rcases hblock with rfl | ⟨t, x, rfl, -, -⟩
      · exact hid
      · exact fun hno => absurd hno (show (3 : UInt8) ≠ replyBusy by decide)
    · rw [hon, if_pos rfl] at hblock
      obtain ⟨t, rfl, -, -⟩ := hblock
      exact fun hno => absurd hno (show (2 : UInt8) ≠ replyBusy by decide)
  obtain ⟨a₁, m, hcheck, hholds, hring, hwait, hrest⟩ := check_cp now h.cpIdle h.cpMode hfor
    (by rw [hctrl, ctrlOf_sqn h.seq.1]) (by rw [hscb, List.append_assoc]; exact hfirst _)
  have hactive₁ : a₁.scActive = b.scActive := (congrArg OsdpLink.scActive hrest :).trans h.active.symm
  have hsc₁ : a₁.sc = a.sc := (congrArg OsdpLink.sc hrest :)
  have hmode₁ : a₁.pdMode = false := hrest.pdMode.trans h.cpMode
  have hseq₁ : a₁.seqNumber = a.seqNumber := (congrArg OsdpLink.seqNumber hrest :)
  obtain ⟨buf, sc, hdecode, -, hturn⟩ := decode_put hholds hblock (by rw [hmode₁, h.pdMode]; rfl) hactive₁
    (fun hno => by rw [hmode₁] at hno; cases hno) fun hon => by
      rw [hsc₁, h.pdMode]
      exact h.chain (h.active ▸ hon)
  have hreceived : a.Received a₁ := by
    have hcheck' := OsdpLink.received_osdpPhyCheckPacket now { a with
      rxWaiting := (b.put aes scb (id :: data)).1.bytes }
    rw [hcheck] at hcheck'
    have hwaits : a.Received { a with rxWaiting := (b.put aes scb (id :: data)).1.bytes } :=
      ⟨rfl, fun hon => hon, .inl⟩
    exact hwaits.trans hcheck'
  have hdecoded := OsdpLink.received_osdpPhyDecodePacket aes a₁
  rw [hdecode] at hdecoded
  have huse : a₁.scUseScbkd = a.scUseScbkd := (congrArg OsdpLink.scUseScbkd hrest :)
  have hinstall : a₁.installMode = a.installMode := hreceived.installMode
  obtain ⟨sc', hput⟩ := initiated_put aes b scb (id :: data)
  refine ⟨a₁, _, hcheck, hdecode, hreceived.trans hdecoded, hactive₁.trans h.active, ?_, ?_⟩
  · show (a₁.scUseScbkd || asksScbkd a₁ scb) = _
    unfold asksScbkd
    rw [huse, hinstall]
  · rw [hput] at hturn ⊢
    have hline : SameLine a₁ b := ⟨hmode₁, h.pdMode, h.address.trans hreceived.address.symm,
      hreceived.address.symm ▸ h.inRange, h.capable⟩
    refine ⟨⟨hline.cpMode, hline.pdMode, hline.address, hline.inRange, hline.capable⟩,
      ⟨rfl, rfl, hring, hwait⟩,
      ⟨rfl, rfl, h.ring, h.waiting⟩, .inr ⟨?_, ?_, hactive₁.symm⟩, fun hon => ⟨fun hno => ?_, ?_⟩⟩
    · exact hseq₁.symm ▸ h.seq.1
    · exact hseq.trans hseq₁.symm
    · have hneg : a.seqNumber = -1 := hseq₁.symm.trans hno
      have := h.seq.1.1
      omega
    · have := hturn (hactive₁.symm.trans hon)
      rw [h.pdMode] at this
      exact this

end Transfer

end LeafReader
