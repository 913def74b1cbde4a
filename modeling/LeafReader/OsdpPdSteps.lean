import LeafReader.FoldRun
import LeafReader.OsdpPd
import LeafReader.OsdpStream

/-!
# What a step of the PD leaves alone

Receiving bytes changes the receiver, the sequence number and the state of the secure channel, and
can only end the channel, never begin it. A command changes the session only when it is part of the
handshake.
-/

namespace LeafReader

/-! ### Receiving -/

/-- The keys, random numbers and cryptograms of a session, without the chain of MACs. -/
def OsdpSecureChannel.session (sc : OsdpSecureChannel) : OsdpSecureChannel :=
  { sc with rMac := .zero, cMac := .zero }

namespace OsdpLink

/-- The link without what taking in a packet may change. -/
def withoutPkt (l : OsdpLink) : OsdpLink :=
  { l.withoutRx with
    seqNumber := 0
    pktBroadcast := false
    scActive := false
    scUseScbkd := false
    sc := l.sc.session }

/-- `l'` is `l` after some of the work on a received packet. -/
structure Received (l l' : OsdpLink) : Prop where
  rest : l'.withoutPkt = l.withoutPkt
  active : l'.scActive = true → l.scActive = true
  scbkd : l'.scUseScbkd = true → l.scUseScbkd = true ∨ l.installMode = true

namespace Received

variable {a b c : OsdpLink}

theorem refl (a : OsdpLink) : a.Received a := ⟨rfl, id, .inl⟩

theorem installMode (h : a.Received b) : b.installMode = a.installMode :=
  (congrArg OsdpLink.installMode h.rest :)

theorem trans (h : a.Received b) (h' : b.Received c) : a.Received c := by
  refine ⟨h'.rest.trans h.rest, fun hc => h.active (h'.active hc), fun hc => ?_⟩
  rcases h'.scbkd hc with hb | hb
  · exact h.scbkd hb
  · exact .inr (h.installMode ▸ hb)

theorem of_sameRest (h : a.SameRest b) : a.Received b := by
  have hb : b.withoutRx = a.withoutRx := h
  have hactive : b.scActive = a.scActive := (congrArg OsdpLink.scActive hb :)
  have hsc : b.sc = a.sc := (congrArg OsdpLink.sc hb :)
  have huse : b.scUseScbkd = a.scUseScbkd := (congrArg OsdpLink.scUseScbkd hb :)
  refine ⟨?_, fun hc => hactive ▸ hc, fun hc => .inl (huse ▸ hc)⟩
  unfold withoutPkt
  rw [hb, hsc]

theorem pdMode (h : a.Received b) : b.pdMode = a.pdMode := (congrArg OsdpLink.pdMode h.rest :)

theorem address (h : a.Received b) : b.address = a.address := (congrArg OsdpLink.address h.rest :)

theorem session (h : a.Received b) : b.sc.session = a.sc.session := (congrArg OsdpLink.sc h.rest :)

theorem scbk (h : a.Received b) : b.sc.scbk = a.sc.scbk := (congrArg OsdpSecureChannel.scbk h.session :)

end Received

theorem sameRest_channelReceiveLoop (fuel : ℕ) (l : OsdpLink) (total : ℤ) :
    l.SameRest (channelReceiveLoop fuel l total).2 := by
  induction fuel generalizing l total with
  | zero => rfl
  | succ fuel ih =>
    rw [channelReceiveLoop]
    dsimp only
    split
    · rfl
    · split
      · rfl
      · split
        · exact SameRest.trans rfl (ih _ _)
        · rfl

theorem sameRest_scanStart (fuel : ℕ) (l : OsdpLink) (prev : UInt8) :
    l.SameRest (scanStart fuel l prev).2 := by
  induction fuel generalizing l prev with
  | zero => rfl
  | succ fuel ih =>
    rw [scanStart]
    split
    · rfl
    · dsimp only
      split
      · rfl
      · refine SameRest.trans ?_ (ih _ _)
        split <;> rfl

theorem sameRest_phyRescanPacketBuf (l : OsdpLink) : l.SameRest (phyRescanPacketBuf l) := by
  unfold phyRescanPacketBuf
  dsimp only
  split <;> rfl

theorem sameRest_checkHeader (l : OsdpLink) : l.SameRest (checkHeader l).2 := by
  unfold checkHeader
  dsimp only
  split
  · rfl
  · split
    · rfl
    · split
      · rfl
      · split
        · exact SameRest.trans rfl (sameRest_phyRescanPacketBuf _)
        · rfl

theorem sameRest_collectBody (l : OsdpLink) : l.SameRest (collectBody l).2 := by
  unfold collectBody
  dsimp only
  split <;> rfl

theorem sameRest_phyCheckHeader (l : OsdpLink) : l.SameRest (phyCheckHeader l).2 := by
  unfold phyCheckHeader
  split
  · split
    · rename_i h
      exact congrArg Prod.snd h ▸ sameRest_scanStart _ _ _
    · rename_i h
      exact (congrArg Prod.snd h ▸ sameRest_scanStart _ _ _).trans (sameRest_checkHeader _)
  · exact sameRest_checkHeader l

theorem sameRest_collectHeader (l : OsdpLink) : l.SameRest (collectHeader l).2 := by
  unfold collectHeader
  split
  · split
    · rename_i h
      exact congrArg Prod.snd h ▸ sameRest_phyCheckHeader l
    · rename_i h
      exact (congrArg Prod.snd h ▸ sameRest_phyCheckHeader l).trans rfl
  · rfl

theorem sameRest_collectPacket (now : ℤ) (l : OsdpLink) : l.SameRest (collectPacket now l).2 := by
  have hrecv := sameRest_channelReceiveLoop (l.rxWaiting.length + 1) l 0
  unfold collectPacket osdpChannelReceive
  dsimp only
  set l₁ := (channelReceiveLoop (l.rxWaiting.length + 1) l 0).2
  have hstamp : l₁.SameRest (if l₁.pdMode = true ∧ l₁.packetBufLen = 0 ∧
      (channelReceiveLoop (l.rxWaiting.length + 1) l 0).1 > 0 then { l₁ with tstamp := now }
        else l₁) := by
    split <;> rfl
  split
  · rename_i h
    exact hrecv.trans (hstamp.trans (congrArg Prod.snd h ▸ sameRest_collectHeader _))
  · rename_i h
    exact hrecv.trans (hstamp.trans
      ((congrArg Prod.snd h ▸ sameRest_collectHeader _).trans (sameRest_collectBody _)))

theorem received_pdSyncSeq (l : OsdpLink) (comp : UInt8) (n : ℤ) (b : Bool) :
    l.Received { pdSyncSeq l comp with seqNumber := n, pktBroadcast := b } := by
  rw [pdSyncSeq_seqNumber]
  refine ⟨rfl, fun h => ?_, .inl⟩
  dsimp only at h
  split at h
  · cases h
  · exact h

theorem received_osdpPhyGetSeqNumber (l : OsdpLink) (doInc : Bool) :
    l.Received (osdpPhyGetSeqNumber l doInc).2 := ⟨rfl, id, .inl⟩

theorem received_phyCheckPacket (l : OsdpLink) : l.Received (phyCheckPacket l).2 := by
  unfold phyCheckPacket
  dsimp only
  split
  · exact .refl l
  · split
    · exact .refl l
    · split
      · exact ⟨rfl, id, .inl⟩
      · simp only [apply_ite Prod.snd, ite_self]
        refine Received.trans ?_ (received_osdpPhyGetSeqNumber _ _)
        split
        · exact received_pdSyncSeq l (l.pkt 4 &&& pktControlSqn) _ _
        · exact .refl l

theorem received_osdpPhyCheckPacket (now : ℤ) (l : OsdpLink) :
    l.Received (osdpPhyCheckPacket now l).2 := by
  have hcollect := Received.of_sameRest (sameRest_collectPacket now l)
  unfold osdpPhyCheckPacket
  split
  · rename_i h
    exact congrArg Prod.snd h ▸ hcollect
  · rename_i h
    exact (congrArg Prod.snd h ▸ hcollect).trans (received_phyCheckPacket _)

theorem received_osdpComputeMac (aes : Aes) (isCmd : Bool) (data : Bytes) (l : OsdpLink) :
    l.Received { l with sc := osdpComputeMac aes isCmd data l.sc } := by
  rcases isCmd with _ | _ <;> exact ⟨rfl, id, .inl⟩

theorem received_decodeSc (aes : Aes) (l : OsdpLink) (start stop : ℕ) :
    l.Received (decodeSc aes l start stop).2 := by
  have hmac := received_osdpComputeMac aes l.pdMode
    (((l.packetBuf.take l.packetBufLen).drop l.mark).take (stop - 4)) l
  have hdrop {l' : OsdpLink} : l'.Received l'.scDeactivate := ⟨rfl, nofun, .inl⟩
  have hover {l' : OsdpLink} (i : ℕ) (bs : Bytes) : l'.Received (l'.overwrite i bs) := ⟨rfl, id, .inl⟩
  unfold decodeSc
  dsimp only
  split
  · exact hmac.trans hdrop
  · split
    · split
      · exact hmac.trans hdrop
      · split
        · exact hmac.trans ((hover _ _).trans hdrop)
        · exact hmac.trans (hover _ _)
    · exact hmac

theorem received_osdpPhyDecodePacket (aes : Aes) (l : OsdpLink) :
    l.Received (osdpPhyDecodePacket aes l).2 := by
  have huse (t x : UInt8) : l.Received { l with
      scUseScbkd := l.scUseScbkd || ((t == scs11 || t == scs13) && l.installMode && x == 0) } := by
    refine ⟨rfl, id, fun h => ?_⟩
    rcases Bool.or_eq_true_iff.1 h with h | h
    · exact .inl h
    · exact .inr (Bool.and_eq_true_iff.1 (Bool.and_eq_true_iff.1 h).1).2
  unfold osdpPhyDecodePacket
  dsimp only
  split
  · split
    · exact .refl l
    · split
      · exact .refl l
      · split
        · exact .refl l
        · split
          · exact (huse _ _).trans (received_decodeSc ..)
          · exact huse _ _
  · split <;> exact .refl l

theorem received_osdpPhyPacketInit (l : OsdpLink) (id : UInt8) (maxLen : ℕ) :
    l.Received (osdpPhyPacketInit l id maxLen).2 := by
  have hmark : l.Received (if l.pdMode then l else { l with pktHasMark := true }) := by
    split
    · exact .refl l
    · exact ⟨rfl, fun h => h, .inl⟩
  have hcast {a : OsdpLink} : a.Received { a with pktBroadcast := false } := ⟨rfl, fun h => h, .inl⟩
  unfold osdpPhyPacketInit
  split
  · exact .refl l
  · exact hmark.trans (hcast.trans (received_osdpPhyGetSeqNumber _ _))

/-- Sending moves the chain of MACs on, and nothing else. -/
def Sent (l l' : OsdpLink) : Prop := ∃ sc, l' = { l with sc := sc } ∧ sc.session = l.sc.session

theorem Sent.refl (l : OsdpLink) : l.Sent l := ⟨l.sc, rfl, rfl⟩

theorem Sent.received {l l' : OsdpLink} (h : l.Sent l') : l.Received l' := by
  obtain ⟨sc, rfl, hsession⟩ := h
  refine ⟨?_, fun h => h, .inl⟩
  unfold withoutPkt
  exact congrArg (fun s => { l.withoutRx with
    seqNumber := 0, pktBroadcast := false, scActive := false, scUseScbkd := false, sc := s }) hsession

theorem sent_osdpComputeMac (aes : Aes) (isCmd : Bool) (data : Bytes) (l : OsdpLink) :
    l.Sent { l with sc := osdpComputeMac aes isCmd data l.sc } := by
  rcases isCmd with _ | _ <;> exact ⟨_, rfl, rfl⟩

theorem sent_finalizeSc (aes : Aes) (l : OsdpLink) (body : Bytes) (maxLen : ℕ) :
    l.Sent (finalizeSc aes l body maxLen).2 := by
  unfold finalizeSc
  dsimp only
  split_ifs
  · exact .refl l
  · exact .refl l
  · exact sent_osdpComputeMac ..
  · exact .refl l
  · exact sent_osdpComputeMac ..

theorem sent_osdpPhyPacketFinalize (aes : Aes) (l : OsdpLink) (buf : Bytes) (maxLen : ℕ) :
    l.Sent (osdpPhyPacketFinalize aes l buf maxLen).2 := by
  have hsc (b : Prop) [Decidable b] (body : Bytes) (n : ℕ) :
      l.Sent (if b then finalizeSc aes l body n else (.ok body, l)).2 := by
    split
    · exact sent_finalizeSc ..
    · exact .refl l
  unfold osdpPhyPacketFinalize
  dsimp only
  split
  · exact .refl l
  · split
    · exact .refl l
    · split
      · exact .refl l
      · split
        · rename_i h
          exact congrArg Prod.snd h ▸ hsc _ _ _
        · rename_i h
          rw [apply_ite Prod.snd, ite_self]
          exact congrArg Prod.snd h ▸ hsc _ _ _

theorem sent_osdpPhySendPacket (aes : Aes) (l : OsdpLink) (buf : Bytes) (maxLen : ℕ) (sendOk : Bool) :
    l.Sent (osdpPhySendPacket aes l buf maxLen sendOk).2 := by
  have h := sent_osdpPhyPacketFinalize aes l buf maxLen
  unfold osdpPhySendPacket
  split
  · rename_i hf
    exact congrArg Prod.snd hf ▸ h
  · rename_i hf
    exact congrArg Prod.snd hf ▸ h

end OsdpLink

/-! ### Commands -/

section Commands

variable {σ : Type} {app : PdApp σ} {pd pd' : OsdpPd σ}

/-- What no update changes. -/
structure SameConfig (pd pd' : OsdpPd σ) : Prop where
  enforceSecure : pd'.enforceSecure = pd.enforceSecure
  cap : pd'.cap = pd.cap
  pdId : pd'.pdId = pd.pdId

theorem SameConfig.refl (pd : OsdpPd σ) : SameConfig pd pd := ⟨rfl, rfl, rfl⟩

theorem SameConfig.trans {a b c : OsdpPd σ} (h : SameConfig a b) (h' : SameConfig b c) : SameConfig a c :=
  ⟨h'.1.trans h.1, h'.2.trans h.2, h'.3.trans h.3⟩

def PdReply.handshake : PdReply → Bool
  | .ccrypt | .rmacI => true
  | _ => false

/-- `pd'` is `pd` after a command that is no part of the handshake. -/
structure Handled (pd pd' : OsdpPd σ) : Prop where
  config : SameConfig pd pd'
  link : pd'.toOsdpLink = pd.toOsdpLink
  reply : pd'.reply.handshake = true → pd.reply.handshake = true

theorem Handled.refl (pd : OsdpPd σ) : Handled pd pd := ⟨.refl pd, rfl, fun h => h⟩

theorem Handled.trans {a b c : OsdpPd σ} (h : Handled a b) (h' : Handled b c) : Handled a c :=
  ⟨h.1.trans h'.1, h'.2.trans h.2, fun hc => h.3 (h'.3 hc)⟩

theorem Handled.answered {pd pd' : OsdpPd σ} (config : SameConfig pd pd')
    (link : pd'.toOsdpLink = pd.toOsdpLink) (hr : pd'.reply.handshake = false) : Handled pd pd' :=
  ⟨config, link, fun h => absurd h (by rw [hr]; nofun)⟩

end Commands

/-! ### Updates -/

section Updates

variable {σ : Type} {aes : Aes} {app : PdApp σ} {io : PdInput} {pd : OsdpPd σ}

theorem OsdpLink.received_osdpPhyStateReset (l : OsdpLink) : l.Received (osdpPhyStateReset l false) :=
  ⟨rfl, fun h => h, .inl⟩

theorem OsdpLink.received_scDeactivate (l : OsdpLink) : l.Received l.scDeactivate := ⟨rfl, nofun, .inl⟩

/-- What comes of the bytes on the line: a NAK of the packet layer, nothing, or a command. -/
theorem pdReceive_cases {r : PdErr × OsdpPd σ} (h : pdReceiveAndProcessCommand aes app io pd = some r) :
    ∃ l, pd.toOsdpLink.Received l ∧
      ((∃ code, r = (.reply, { pd with toOsdpLink := l, reply := .nak code })) ∨
        r.2 = { pd with toOsdpLink := l } ∨
        ∃ id data, pdDecodeCommand app { pd with toOsdpLink := l } id data = some r) := by
  have hcheck := OsdpLink.received_osdpPhyCheckPacket io.now pd.toOsdpLink
  unfold pdReceiveAndProcessCommand at h
  split at h
  · rename_i e l heq
    rw [heq] at hcheck
    rcases e with _ | _ | _ | _ | _ | code | _ | _ | _ | _ <;> cases h
    · exact ⟨l, hcheck, .inr (.inl rfl)⟩
    · exact ⟨l, hcheck, .inr (.inl rfl)⟩
    · exact ⟨_, hcheck.trans l.received_osdpPhyStateReset, .inr (.inl rfl)⟩
    · exact ⟨l, hcheck, .inr (.inl rfl)⟩
    · exact ⟨l, hcheck, .inr (.inl rfl)⟩
    · exact ⟨l, hcheck, .inl ⟨code, rfl⟩⟩
    · exact ⟨l, hcheck, .inr (.inl rfl)⟩
    · exact ⟨l, hcheck, .inr (.inl rfl)⟩
    · exact ⟨l, hcheck, .inr (.inl rfl)⟩
  · rename_i l heq
    rw [heq] at hcheck
    have hdecode := hcheck.trans (OsdpLink.received_osdpPhyDecodePacket aes l)
    rcases hmsg : osdpPhyDecodePacket aes l with ⟨e | msg, l'⟩
    · rw [hmsg] at h hdecode
      cases e with
      | nack code =>
        cases h
        exact ⟨l', hdecode, .inl ⟨code, rfl⟩⟩
      | _ =>
        cases h
        exact ⟨l', hdecode, .inr (.inl rfl)⟩
    · rw [hmsg] at h hdecode
      cases msg with
      | nil =>
        cases h
        exact ⟨l', hdecode, .inr (.inl rfl)⟩
      | cons id data => exact ⟨l', hdecode, .inr (.inr ⟨id, data, h⟩)⟩

theorem guarded_eq_some {α : Type} {need maxLen : ℕ} {a b : α}
    (h : guarded need maxLen a = some b) : b = a := by
  unfold guarded at h
  split at h
  · exact (Option.some.inj h).symm
  · cases h

/-- A reply is built, or the packet layer has no room for one; whether or not it is sent, the link
alone differs. -/
theorem pdSendReply_cases {r : Option Bytes × OsdpPd σ} (h : pdSendReply aes app io pd = some r) :
    ∃ l, pd.toOsdpLink.Received l ∧
      (r = (none, { pd with toOsdpLink := l }) ∨
        ∃ maxLen smb b l', pdBuildReply aes app io { pd with toOsdpLink := l } maxLen smb = some b ∧
          b.2.2.toOsdpLink.Sent l' ∧ r.2 = { b.2.2 with toOsdpLink := l' }) := by
  have hinit := OsdpLink.received_osdpPhyPacketInit pd.toOsdpLink pd.reply.id (getTxBufSize pd.peerRxSize)
  unfold pdSendReply at h
  split at h
  · rename_i l heq
    rw [heq] at hinit
    cases h
    exact ⟨l, hinit, .inl rfl⟩
  · rename_i hdr l heq
    rw [heq] at hinit
    dsimp only at h
    split at h
    · cases h
    · rename_i msg smb pd₁ hbuild
      have hsend := OsdpLink.sent_osdpPhySendPacket aes pd₁.toOsdpLink
        (setSmb (hdr ++ msg) (l.mark + 5) smb) (getTxBufSize pd₁.peerRxSize) io.sendOk
      split at h
      · rename_i l' heq'
        rw [heq'] at hsend
        cases h
        exact ⟨l, hinit, .inr ⟨_, _, _, l', hbuild, hsend, rfl⟩⟩
      · rename_i frame l' heq'
        rw [heq'] at hsend
        cases h
        exact ⟨l, hinit, .inr ⟨_, _, _, l', hbuild, hsend, rfl⟩⟩

/-- An update receives; then it ends, gives the packet up, or replies. -/
theorem osdpPdUpdate_cases {r : Option Bytes × OsdpPd σ} (h : osdpPdUpdate aes app io pd = some r) :
    ∃ l ret pd₁, pd.toOsdpLink.Received l ∧
      pdReceiveAndProcessCommand aes app io { pd with toOsdpLink := l } = some (ret, pd₁) ∧
      (r = (none, pd₁) ∨
        r = (none, { pd₁ with toOsdpLink := osdpPhyStateReset pd₁.toOsdpLink.scDeactivate false }) ∨
        (ret = .none ∨ ret = .reply) ∧ ∃ t frame pd₂,
          pdSendReply aes app io { pd₁ with scTstamp := t } = some (frame, pd₂) ∧
          (frame = none ∧ r = (none, { pd₂ with toOsdpLink := osdpPhyStateReset pd₂.toOsdpLink false }) ∨
            ∃ bytes, frame = some bytes ∧ r = (some bytes, { pdReplySent app pd₂ with
              toOsdpLink := osdpPhyStateReset (pdReplySent app pd₂).toOsdpLink false }))) := by
  have htimed : ∃ l, pd.toOsdpLink.Received l ∧
      (if pd.scActive = true ∧ io.now - pd.scTstamp > osdpPdScTimeoutMs then { pd with scActive := false }
        else pd) = { pd with toOsdpLink := l } := by
    split
    · exact ⟨_, pd.toOsdpLink.received_scDeactivate, rfl⟩
    · exact ⟨_, .refl _, rfl⟩
  obtain ⟨l, hl, htimed⟩ := htimed
  unfold osdpPdUpdate at h
  rw [htimed] at h
  dsimp only at h
  split at h
  · cases h
  · rename_i ret pd₁ hrecv
    refine ⟨l, ret, pd₁, hl, hrecv, ?_⟩
    split at h
    · cases h
      exact .inl rfl
    · split at h
      · cases h
        exact .inr (.inl rfl)
      · rename_i hret
        have hstamped : ∃ t, (if ret = .none ∧ pd₁.scActive = true then { pd₁ with scTstamp := io.now }
            else pd₁) = { pd₁ with scTstamp := t } := by
          split
          · exact ⟨_, rfl⟩
          · exact ⟨pd₁.scTstamp, rfl⟩
        obtain ⟨t, hstamped⟩ := hstamped
        rw [hstamped] at h
        split at h
        · cases h
        · rename_i frame pd₂ hsend
          cases h
          refine .inr (.inr ⟨?_, t, frame, pd₂, hsend, ?_⟩)
          · by_contra hno
            exact hret (not_or.1 hno)
          · rcases frame with _ | bytes
            · exact .inl ⟨rfl, rfl⟩
            · exact .inr ⟨bytes, rfl, rfl⟩

/-! ### Runs -/

/-- What holds at first, and after every operation of a run that has come so far, holds at its end. -/
theorem pdRun_induction {blocks : ℕ} {pd₀ : OsdpPd σ} {P : List PdOp → OsdpPd σ → Prop} (hinit : P [] pd₀)
    (hstep : ∀ ops op pd pd', pdRun aes app blocks ops pd₀ = some pd →
      pdRun aes app blocks (ops ++ [op]) pd₀ = some pd' →
      op.step aes app blocks pd = some pd' → P ops pd → P (ops ++ [op]) pd')
    {ops : List PdOp} (hrun : pdRun aes app blocks ops pd₀ = some pd) : P ops pd :=
  foldlM_induction hinit hstep hrun

end Updates

end LeafReader
