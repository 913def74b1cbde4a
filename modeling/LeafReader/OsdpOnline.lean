import LeafReader.OsdpCodec
import LeafReader.OsdpExchange

/-!
# Refreshes of a CP and a PD that are in step

What each end does in one refresh while the PD is online: the CP looks for a command, sends it,
waits, and takes the reply; the PD waits, or takes the command and answers. The messages that go on
the line are those that the two ends build.
-/

namespace LeafReader

/-! ### An end that gets nothing -/

section Quiet

variable {l : OsdpLink}

/-- What an idle end becomes when it looks for a packet and nothing has come. -/
theorem check_nothing (now : ℤ) (h : l.Idle) :
    ∃ l', osdpPhyCheckPacket now l = (.error .noData, l') ∧ l.SameRest l' ∧ l'.Idle := by
  obtain ⟨hbuf, hlen, hring, hwait⟩ := h
  have hreceive : osdpChannelReceive l = (0, l) := by
    unfold osdpChannelReceive
    rw [channelReceiveLoop]
    simp [hwait]
  obtain ⟨l', hscan, hempty, hbuf', hwait', hlen', hrest⟩ := scanStart_none 0
    (show osdpPktSom ∉ l.rxRb.contents by rw [hring]; exact List.not_mem_nil)
    (show l.rxRb.contents.length < l.rxRb.size + 1 by rw [Ring.length_contents]; exact Nat.lt_succ_self _)
  refine ⟨l', ?_, hrest, ⟨hbuf'.trans hbuf, hlen'.trans hlen, hempty, hwait'.trans hwait⟩⟩
  have hno : ¬ (l.pdMode = true ∧ l.packetBufLen = 0 ∧ (0 : ℤ) > 0) :=
    fun hno => absurd hno.2.2 (by decide)
  unfold osdpPhyCheckPacket collectPacket
  rw [hreceive]
  dsimp only
  rw [if_neg hno, collectHeader, if_pos hlen, phyCheckHeader, if_pos hbuf, hscan]

end Quiet

/-! ### What each end sends -/

/-- The security block of a message that is not one of the handshake: under the channel it says
whether there is data. -/
def blockOf (on : Bool) (withData without : UInt8) (data : Bytes) : Bytes :=
  if on then [2, if data = [] then without else withData] else []

theorem blockFor_blockOf (l : OsdpLink) {withData without : UInt8} (data : Bytes)
    (h₁ : scs15 ≤ withData ∧ withData ≤ scs18)
    (h₀ : scs15 ≤ without ∧ without ≤ scs18) : BlockFor l (blockOf l.scActive withData without data) := by
  unfold BlockFor blockOf
  rcases l.scActive with _ | _
  · exact .inl rfl
  · refine ⟨_, rfl, ?_⟩
    split
    · exact h₀
    · exact h₁

abbrev cmdBlock (on : Bool) (data : Bytes) : Bytes := blockOf on scs17 scs15 data

abbrev replyBlock (on : Bool) (data : Bytes) : Bytes := blockOf on scs18 scs16 data

theorem blockFor_cmd (l : OsdpLink) (data : Bytes) : BlockFor l (cmdBlock l.scActive data) :=
  blockFor_blockOf l data ⟨by decide, by decide⟩ ⟨by decide, by decide⟩

theorem blockFor_reply (l : OsdpLink) (data : Bytes) : BlockFor l (replyBlock l.scActive data) :=
  blockFor_blockOf l data ⟨by decide, by decide⟩ ⟨by decide, by decide⟩

/-- The block that a header begins with is exchanged for the one that goes with the message. -/
theorem block_begun (l : OsdpLink) (id : UInt8) (hid : osdpPhyInScHandshake l.pdMode id = false)
    (withData without : UInt8) (data : Bytes) :
    (if (scbOf l id).getD 1 0 > scs14 ∧
      l.scActive then [2, if data.length > 0 then withData else without] else scbOf l id) =
        blockOf l.scActive withData without data ∧
      (blockOf l.scActive withData without data).length = (scbOf l id).length ∧
      decide (scbOf l id ≠ []) = decide (blockOf l.scActive withData without data ≠ []) := by
  unfold scbOf blockOf
  rw [hid]
  rcases l.scActive with _ | _
  · exact ⟨rfl, rfl, rfl⟩
  · refine ⟨?_, rfl, rfl⟩
    rw [if_pos rfl, if_pos ⟨by decide, rfl⟩]
    rcases data with _ | ⟨b, data⟩ <;> rfl

section Cp

variable {σ : Type} {aes : Aes} {app : CpApp σ} {io : CpInput} {cp : OsdpCp σ} {data : Bytes}

/-- What the CP makes of the command that is going on is the packet that it puts on the line. -/
theorem cpBuildAndSend_put (hcp : cp.pdMode = false)
    (hroom : osdpMinimumPacketSize ≤ getTxBufSize cp.peerRxSize)
    (hid : osdpPhyInScHandshake false cp.cmdId = false) (hok : io.sendOk = true) (hlen : data.length ≤ 96)
    (hdata : ∀ n smb, 100 ≤ n → cpCommandData aes app
      { cp with toOsdpLink := cp.toOsdpLink.initiated } n smb =
      some (some (cp.cmdId :: data), smb, { cp with toOsdpLink := cp.toOsdpLink.initiated })) :
    cpBuildAndSendPacket aes app io cp =
      some (some (cp.toOsdpLink.put aes (cmdBlock cp.scActive data) (cp.cmdId :: data)).1.bytes,
        { cp with toOsdpLink := (cp.toOsdpLink.put aes (cmdBlock cp.scActive data)
          (cp.cmdId :: data)).2 }) := by
  have hblock := blockFor_cmd cp.toOsdpLink data
  have hfit : (cp.toOsdpLink.put aes (cmdBlock cp.scActive data) (cp.cmdId :: data)).1.bytes.length ≤
      getTxBufSize cp.peerRxSize := by
    have hle := length_frame_le aes cp.cmdId data hblock
    unfold osdpMinimumPacketSize at hroom
    omega
  obtain ⟨hbegun, hlenBlock, hne⟩ :=
    block_begun cp.toOsdpLink cp.cmdId (by rw [hcp]; exact hid) scs17 scs15 data
  have hhdr : (markOf cp.toOsdpLink.initiated.pktHasMark ++ [osdpPktSom, addrOf cp.toOsdpLink, 0, 0,
      ctrlOf cp.toOsdpLink.initiated.seqNumber (scbOf cp.toOsdpLink cp.cmdId ≠ [])] ++
        scbOf cp.toOsdpLink cp.cmdId).length ≤ 8 := by
    have hscb : (scbOf cp.toOsdpLink cp.cmdId).length ≤ 2 := by
      rw [← hlenBlock]
      unfold blockOf
      split <;> simp
    rw [List.length_append, List.length_append, length_markOf]
    simp only [List.length_cons, List.length_nil]
    split <;> omega
  unfold cpBuildAndSendPacket
  dsimp only
  rw [osdpPhyPacketInit_eq _ _ hroom]
  dsimp only
  rw [OsdpLink.mark_eq_length, drop_header]
  unfold cpBuildCommand
  rw [hdata _ _ (by unfold osdpMinimumPacketSize at hroom; omega)]
  dsimp only
  have hdataLen : (cp.cmdId :: data).length > 1 ↔ data.length > 0 := by
    rw [List.length_cons]
    omega
  simp only [hdataLen]
  rw [show cp.toOsdpLink.initiated.scActive = cp.scActive from
    rfl, hbegun, setSmb_draft _ _ _ _ hlenBlock, hok, hne]
  have hsend := send_put aes cp.cmdId data hblock hfit
  rw [show (OsdpFrame.mk _ _ _ _ _ _ : OsdpFrame) = cp.toOsdpLink.frameOf (cmdBlock cp.scActive data)
    (cp.cmdId :: data) from rfl, hsend]

end Cp

section Pd

variable {σ : Type} {aes : Aes} {app : PdApp σ} {io : PdInput} {pd : OsdpPd σ} {data : Bytes}

/-- What the PD makes of a reply is the packet that it puts on the line. -/
theorem pdSendReply_put (hpd : pd.pdMode = true)
    (hroom : osdpMinimumPacketSize ≤ getTxBufSize pd.peerRxSize)
    (hid : osdpPhyInScHandshake true pd.reply.id = false) (hok : io.sendOk = true)
    (hlen : data.length ≤ 96)
    (hdata : ∀ n smb, 100 ≤ n → pdReplyData aes app io
      { pd with toOsdpLink := pd.toOsdpLink.initiated } n smb =
      some (some data, smb, { pd with toOsdpLink := pd.toOsdpLink.initiated })) :
    pdSendReply aes app io pd =
      some (some (pd.toOsdpLink.put aes (replyBlock pd.scActive data) (pd.reply.id :: data)).1.bytes,
        { pd with toOsdpLink := (pd.toOsdpLink.put aes (replyBlock pd.scActive data)
          (pd.reply.id :: data)).2 }) := by
  have hblock := blockFor_reply pd.toOsdpLink data
  have hfit : (pd.toOsdpLink.put aes (replyBlock pd.scActive data) (pd.reply.id :: data)).1.bytes.length ≤
      getTxBufSize pd.peerRxSize := by
    have hle := length_frame_le aes pd.reply.id data hblock
    unfold osdpMinimumPacketSize at hroom
    omega
  obtain ⟨hbegun, hlenBlock, hne⟩ :=
    block_begun pd.toOsdpLink pd.reply.id (by rw [hpd]; exact hid) scs18 scs16
    data
  have hhdr : (markOf pd.toOsdpLink.initiated.pktHasMark ++ [osdpPktSom, addrOf pd.toOsdpLink, 0, 0,
      ctrlOf pd.toOsdpLink.initiated.seqNumber (scbOf pd.toOsdpLink pd.reply.id ≠ [])] ++
        scbOf pd.toOsdpLink pd.reply.id).length ≤ 8 := by
    have hscb : (scbOf pd.toOsdpLink pd.reply.id).length ≤ 2 := by
      rw [← hlenBlock]
      unfold blockOf
      split <;> simp
    rw [List.length_append, List.length_append, length_markOf]
    simp only [List.length_cons, List.length_nil]
    split <;> omega
  unfold pdSendReply
  rw [osdpPhyPacketInit_eq _ _ hroom]
  dsimp only
  rw [OsdpLink.mark_eq_length, drop_header]
  unfold pdBuildReply
  rw [hdata _ _ (by unfold osdpMinimumPacketSize at hroom; omega)]
  dsimp only [Option.getD_some]
  rw [show pd.toOsdpLink.initiated.scActive = pd.scActive from rfl, hbegun]
  rw [setSmb_draft _ _ _ _ hlenBlock, hok, hne]
  have hsend := send_put aes pd.reply.id data hblock hfit
  rw [show (OsdpFrame.mk _ _ _ _ _ _ : OsdpFrame) = pd.toOsdpLink.frameOf (replyBlock pd.scActive data)
    (pd.reply.id :: data) from rfl, hsend]

/-- The timer of the channel has not run out. -/
def ScFresh (now : ℤ) (pd : OsdpPd σ) : Prop := pd.scActive = true → now - pd.scTstamp ≤ osdpPdScTimeoutMs

theorem ScFresh.keep {now : ℤ} (h : ScFresh now pd) :
    (if pd.scActive ∧ now - pd.scTstamp > osdpPdScTimeoutMs then
      { pd with scActive := false } else pd) = pd := by
  rw [if_neg]
  rintro ⟨hon, hlate⟩
  have := h hon
  omega

/-- When nothing has come, a refresh leaves the PD as it is. -/
theorem osdpPdRefresh_nothing (aes : Aes) (app : PdApp σ) (hidle : pd.toOsdpLink.Idle)
    (hfresh : ScFresh io.now pd) :
    ∃ l, osdpPdRefresh aes app io [] pd = some (none, { pd with toOsdpLink := l }) ∧
      pd.toOsdpLink.SameRest l ∧ l.Idle := by
  obtain ⟨l, hcheck, hrest, hidle'⟩ := check_nothing io.now hidle
  refine ⟨l, ?_, hrest, hidle'⟩
  have hsame : { pd with rxWaiting := pd.rxWaiting ++ [] } = pd := by rw [List.append_nil]
  unfold osdpPdRefresh osdpPdUpdate
  rw [hsame]
  dsimp only
  rw [hfresh.keep]
  unfold pdReceiveAndProcessCommand
  rw [hcheck]
  rfl

/-- A PD in step with the CP takes the command and answers it. -/
theorem osdpPdRefresh_command {a : OsdpLink} {id : UInt8} {cdata : Bytes}
    {r : PdReply} {s : σ} {q : List OsdpEvent}
    (h : OsdpLink.InStep a pd.toOsdpLink) (hfresh : ScFresh io.now pd) (hok : io.sendOk = true)
    (hroom : osdpMinimumPacketSize ≤ getTxBufSize pd.peerRxSize)
    (hcdata : cdata.length ≤ 96) (hlen : data.length ≤ 96)
    (hid : osdpPhyInScHandshake true r.id = false)
    (hplain : ∀ pd' : OsdpPd σ, pd'.reply = r → pdReplySent app pd' = pd')
    (hdecode : ∀ l : OsdpLink, l.scActive = a.scActive →
      pdDecodeCommand app { pd with toOsdpLink := l } id cdata =
      some (.none, { pd with toOsdpLink := { l with cmdId := id }, reply := r, app := s, eventQueue := q }))
    (hdata : ∀ (pd' : OsdpPd σ) n smb, pd'.reply = r → pd'.cap = pd.cap → 100 ≤ n →
      pdReplyData aes app io pd' n smb = some (some data, smb, pd')) :
    ∃ b, OsdpLink.Answers (a.put aes (cmdBlock a.scActive cdata) (id :: cdata)).2 b ∧
      osdpPdRefresh aes app io (a.put aes (cmdBlock a.scActive cdata) (id :: cdata)).1.bytes pd =
        some (some (b.put aes (replyBlock b.scActive data) (r.id :: data)).1.bytes, { pd with
          toOsdpLink := osdpPhyStateReset (b.put aes (replyBlock b.scActive data) (r.id :: data)).2 false
          reply := r
          app := s
          eventQueue := q
          scTstamp := if a.scActive then io.now else pd.scTstamp }) := by
  have hblock := blockFor_cmd a cdata
  have hfit :
      (a.put aes (cmdBlock a.scActive cdata) (id :: cdata)).1.bytes.length ≤ osdpPacketBufSize := by
    have hle := length_frame_le aes id cdata hblock
    unfold osdpPacketBufSize
    omega
  obtain ⟨b₁, b₂, hcheck, hdec, hreceived, -, hanswers⟩ := command_transfer aes io.now h hblock hfit
  set frame := (a.put aes (cmdBlock a.scActive cdata) (id :: cdata)).1.bytes with hframe
  have hactive : b₂.scActive = a.scActive := by
    have hput := hanswers.active
    obtain ⟨sc, hsc⟩ := initiated_put aes a (cmdBlock a.scActive cdata) (id :: cdata)
    rw [hsc] at hput
    exact hput
  have hwaits : { pd with rxWaiting := pd.rxWaiting ++ frame } = { pd with rxWaiting := frame } := by
    rw [h.pdIdle.waiting, List.nil_append]
  set b : OsdpLink := { b₂ with cmdId := id } with hb
  have hb' : OsdpLink.Answers (a.put aes (cmdBlock a.scActive cdata) (id :: cdata)).2 b :=
    ⟨⟨hanswers.cpMode, hanswers.pdMode, hanswers.address, hanswers.inRange, hanswers.capable⟩,
      hanswers.cpIdle,
      hanswers.ring, hanswers.waiting, hanswers.seq, hanswers.active, hanswers.chain⟩
  refine ⟨b, hb', ?_⟩
  have hfresh' : ScFresh io.now { pd with rxWaiting := frame } := hfresh
  unfold osdpPdRefresh osdpPdUpdate
  rw [hwaits]
  dsimp only
  rw [hfresh'.keep]
  unfold pdReceiveAndProcessCommand
  dsimp only
  rw [hcheck]
  dsimp only
  rw [hdec]
  dsimp only
  rw [hdecode b₂ hactive]
  dsimp only
  rw [if_neg (by simp), if_neg (by simp)]
  set pd₁ : OsdpPd σ := { pd with
    toOsdpLink := b
    reply := r
    app := s
    eventQueue := q
    scTstamp := if a.scActive then io.now else pd.scTstamp } with hpd₁
  have hif : (if PdErr.none = .none ∧ b₂.scActive then
      ({ pd with toOsdpLink := b, reply := r, app := s, eventQueue := q, scTstamp := io.now } : OsdpPd σ)
      else { pd with toOsdpLink := b, reply := r, app := s, eventQueue := q }) = pd₁ := by
    rw [hpd₁, hactive]
    rcases a.scActive with _ | _ <;> rfl
  have hsend := pdSendReply_put (show pd₁.pdMode = true from hanswers.pdMode) hroom hid hok hlen
    fun n smb hn => hdata _ n smb rfl rfl hn
  rw [hif, hsend]
  dsimp only [Option.isSome_some]
  rw [if_pos rfl, hplain _ rfl]

end Pd

/-! ### Refreshes of the CP -/

theorem OsdpLink.Answers.reset {a b : OsdpLink} (h : OsdpLink.Answers a b) :
    OsdpLink.Answers (osdpPhyStateReset a false) b :=
  ⟨⟨h.cpMode, h.pdMode, h.address, h.inRange, h.capable⟩,
    ⟨rfl, rfl, h.cpIdle.ring, h.cpIdle.waiting⟩, h.ring, h.waiting, h.seq, h.active, h.chain⟩

section Cp

variable {σ : Type} {aes : Aes} {app : CpApp σ} {io : CpInput} {cp : OsdpCp σ} {data : Bytes}

/-- The PD is online, and nothing else is asked for. -/
structure CpSettled (cp : OsdpCp σ) : Prop where
  state : cp.state = .online
  restart : cp.reqRestartSc = false
  offline : cp.reqOffline = false
  room : osdpMinimumPacketSize ≤ getTxBufSize cp.peerRxSize

/-- Where nothing is to be done, the CP stays online. -/
theorem cpNextState_settled (h : CpSettled cp) (hretry : cpScShouldRetry io cp = false) :
    cpNextState app io false cp = some (cpTakeEventSend app cp) := by
  have hnext : getNextOkState app io cp = some (.online, cp) := by
    unfold getNextOkState
    rw [h.state]
    dsimp only
    rw [hretry]
    rfl
  have hrequests : cpRequests app .online cp = (.online, cpTakeEventSend app cp) := by
    unfold cpRequests
    rw [if_pos (.inl h.state), cpTakeRestartSc, if_neg (by rw [h.restart]; nofun)]
    dsimp only
    rw [cpTakeOffline, if_neg (by rw [h.offline]; nofun)]
  unfold cpNextState
  rw [if_neg nofun, hnext, Option.map_some]
  dsimp only
  rw [hrequests]
  dsimp only
  rw [if_neg fun hno => hno h.state]

theorem phyUpdate_replyWait (hphy : cp.phyState = .replyWait) :
    cpPhyStateUpdate aes app io cp = (cpPhyReply aes app io cp).map fun (err, cp) => (err, none, cp) := by
  unfold cpPhyStateUpdate
  rw [hphy]

theorem cpProcessReply_nothing (aes : Aes) (app : CpApp σ) (io : CpInput)
    (hidle : cp.toOsdpLink.Idle) :
    ∃ l, cpProcessReply aes app io cp = some (.noData, { cp with toOsdpLink := l }) ∧
      cp.toOsdpLink.SameRest l ∧ l.Idle := by
  obtain ⟨l, hcheck, hrest, hidle'⟩ := check_nothing io.now hidle
  refine ⟨l, ?_, hrest, hidle'⟩
  unfold cpProcessReply
  rw [hcheck]
  exact if_neg PktErr.noConfusion

/-- While the reply is due and has not come, the CP waits. -/
theorem cpRefresh_waits (aes : Aes) (app : CpApp σ) (hphy : cp.phyState = .replyWait)
    (hidle : cp.toOsdpLink.Idle) (hsoon : io.now - cp.phyTstamp ≤ osdpRespToutMs) :
    ∃ l, cpRefresh aes app io [] cp = some (none, { cp with toOsdpLink := l }) ∧
      cp.toOsdpLink.SameRest l ∧ l.Idle := by
  obtain ⟨l, hreply, hrest, hidle'⟩ := cpProcessReply_nothing aes app io hidle
  refine ⟨l, ?_, hrest, hidle'⟩
  have hsame : { cp with rxWaiting := cp.rxWaiting ++ [] } = cp := by rw [List.append_nil]
  have hrun : cpPhyRunning cp = true := by simp [cpPhyRunning, hphy]
  have hphyReply : cpPhyReply aes app io cp = some (.inprog, { cp with toOsdpLink := l }) := by
    unfold cpPhyReply
    rw [hreply, Option.map_some]
    dsimp only
    rw [if_neg (fun hno => CpErr.noConfusion hno), if_neg (fun hno => CpErr.noConfusion hno.1),
      if_neg (by rintro (hno | hno) <;> cases hno), if_neg (fun hno => CpErr.noConfusion hno),
      if_neg (Int.not_lt.2 hsoon)]
  unfold cpRefresh stateUpdate
  rw [hsame, if_pos hrun, phyUpdate_replyWait hphy, hphyReply]
  dsimp only [Option.map_some]
  rw [if_pos rfl, Option.map_some]

/-- The CP sends the command that it has found. -/
theorem cpRefresh_sends (hphy : cp.phyState = .sendCmd) (hcp : cp.pdMode = false)
    (hroom : osdpMinimumPacketSize ≤ getTxBufSize cp.peerRxSize)
    (hid : osdpPhyInScHandshake false cp.cmdId = false) (hok : io.sendOk = true) (hlen : data.length ≤ 96)
    (hdata : ∀ n smb, 100 ≤ n → cpCommandData aes app
      { cp with toOsdpLink := cp.toOsdpLink.initiated } n smb =
      some (some (cp.cmdId :: data), smb, { cp with toOsdpLink := cp.toOsdpLink.initiated })) :
    cpRefresh aes app io [] cp =
      some (some (cp.toOsdpLink.put aes (cmdBlock cp.scActive data) (cp.cmdId :: data)).1.bytes, { cp with
        toOsdpLink := osdpPhyStateReset
          (cp.toOsdpLink.put aes (cmdBlock cp.scActive data) (cp.cmdId :: data)).2 false
        replyId := replyInvalid
        phyState := .replyWait
        phyTstamp := io.now }) := by
  have hsame : { cp with rxWaiting := cp.rxWaiting ++ [] } = cp := by rw [List.append_nil]
  have hrun : cpPhyRunning cp = true := by simp [cpPhyRunning, hphy]
  unfold cpRefresh stateUpdate
  rw [hsame, if_pos hrun]
  unfold cpPhyStateUpdate
  rw [hphy]
  dsimp only
  unfold cpPhySend
  rw [cpBuildAndSend_put hcp hroom hid hok hlen hdata]
  dsimp only [Option.map_some]
  rw [if_pos rfl, Option.map_some]
  rfl

/-- A refresh of a CP with no exchange going on, when nothing has come. -/
theorem cpRefresh_idle (hphy : cp.phyState = .idle) :
    cpRefresh aes app io [] cp = (cpDispatch app io cp).map fun cp => (none, cp) := by
  have hsame : { cp with rxWaiting := cp.rxWaiting ++ [] } = cp := by rw [List.append_nil]
  have hrun : ¬ cpPhyRunning cp = true := by simp [cpPhyRunning, hphy]
  unfold cpRefresh stateUpdate
  rw [hsame, if_neg hrun, Option.map_map]
  rfl

theorem cpDispatch_found {id : UInt8} {cp' : OsdpCp σ} (hphy : cp.phyState = .idle)
    (h : stateGetCmd app io cp = some (some id, cp')) :
    cpDispatch app io cp = some { cp' with cmdId := id, phyState := .sendCmd } := by
  unfold cpDispatch
  rw [hphy]
  dsimp only
  rw [h]

theorem cpDispatch_none {cp' : OsdpCp σ} (hphy : cp.phyState = .idle)
    (h : stateGetCmd app io cp = some (none, cp')) :
    cpDispatch app io cp = cpNextState app io false { cp' with cmdId := 0 } := by
  unfold cpDispatch
  rw [hphy]
  dsimp only
  rw [h]

/-- The first command of the queue is taken, where it is one that the CP sends as it is. -/
theorem cpRefresh_finds {broadcast : Bool} {cmd : OsdpCmd} {cmds : List (Bool × OsdpCmd)} {id : UInt8}
    (hphy : cp.phyState = .idle) (hstate : cp.state = .online)
    (hqueue : cp.cmdQueue = (broadcast, cmd) :: cmds)
    (hid : cmdIdOf cmd = some id) (hkeyset : id ≠ cmdKeyset) :
    cpRefresh aes app io [] cp = some (none, { cp with
      cmdQueue := cmds
      ephemeral := .cmd cmd
      pktBroadcast := cp.pktBroadcast || broadcast
      cmdId := id
      phyState := .sendCmd }) := by
  have htranslate (c : OsdpCp σ) :
      cpTranslateCmd c cmd = some (some id, { c with ephemeral := .cmd cmd }) := by
    unfold cpTranslateCmd
    rw [hid]
    cases cmd with
    | keyset => exact absurd (Option.some.inj hid).symm hkeyset
    | _ => rfl
  have hget : stateGetCmd app io cp = some (some id, { cp with
      cmdQueue := cmds, ephemeral := .cmd cmd, pktBroadcast := cp.pktBroadcast || broadcast }) := by
    unfold stateGetCmd cpGetOnlineCommand
    rw [hstate]
    dsimp only
    rw [hqueue]
    dsimp only
    rw [htranslate]
    rfl
  rw [cpRefresh_idle hphy, cpDispatch_found hphy hget]
  rfl

/-- With nothing in the queue and no file to send, the PD is polled once the time has come. -/
theorem cpRefresh_polls (hphy : cp.phyState = .idle) (hsettled : CpSettled cp)
    (hquiet : cp.reqEventSend = false) (hqueue : cp.cmdQueue = [])
    (hfile : app.file.isNone = true ∨ cp.file.state = .idle ∨ cp.file.state = .done)
    (hretry : cpScShouldRetry io cp = false) :
    cpRefresh aes app io [] cp = some (none,
      if io.now - cp.tstamp > osdpPdPollTimeoutMs then
        { cp with tstamp := io.now, cmdId := cmdPoll, phyState := .sendCmd }
      else { cp with cmdId := 0 }) := by
  have hnone : osdpFileTxGetCommand app.file io.now cp.file cp.app = (0, cp.file, cp.app) := if_pos hfile
  have hget : stateGetCmd app io cp = if io.now - cp.tstamp > osdpPdPollTimeoutMs then
      some (some cmdPoll, { cp with tstamp := io.now }) else some (none, cp) := by
    have honline : stateGetCmd app io cp = cpGetOnlineCommand app io cp := by
      unfold stateGetCmd
      rw [hsettled.state]
    rw [honline]
    unfold cpGetOnlineCommand
    split
    · next h => exact absurd (hqueue.symm.trans h) nofun
    · rw [hnone]
      exact if_neg fun hno => hno rfl
  rw [cpRefresh_idle hphy]
  by_cases hdue : io.now - cp.tstamp > osdpPdPollTimeoutMs
  · rw [cpDispatch_found hphy (hget.trans (if_pos hdue)), if_pos hdue]
    rfl
  · have hsettled' : CpSettled { cp with cmdId := 0 } :=
      ⟨hsettled.state, hsettled.restart, hsettled.offline, hsettled.room⟩
    have hquiet' : cpTakeEventSend app { cp with cmdId := 0 } = { cp with cmdId := 0 } :=
      if_neg fun hno => Bool.noConfusion (hquiet.symm.trans hno)
    rw [cpDispatch_none hphy (hget.trans (if_neg hdue)), if_neg hdue,
      cpNextState_settled hsettled' hretry, hquiet']
    rfl

/-- The answers that the CP takes for those to its command. -/
def GoodReply (cmd reply : UInt8) : Prop :=
  reply = replyAck ∧ cmd ≠ cmdKeyset ∨ cmd = cmdPoll ∧ reply ∈ pollReplies

theorem cpCheckOnlineResponse_good (h : GoodReply cp.cmdId cp.replyId) :
    cpCheckOnlineResponse app cp = some (true, cp) := by
  unfold cpCheckOnlineResponse
  rcases h with ⟨hack, hkeyset⟩ | ⟨hpoll, hmem⟩
  · rw [if_pos hack, if_neg hkeyset]
  · have hne : cp.replyId ≠ replyAck ∧ cp.replyId ≠ replyNak ∧ cp.replyId ≠ replyInvalid := by
      simp only [pollReplies, List.mem_cons, List.not_mem_nil, or_false] at hmem
      rcases hmem with h | h | h | h | h | h | h <;> rw [h] <;> decide
    rw [if_neg hne.1, if_neg (not_or.2 hne.2), if_pos hpoll, decide_eq_true hmem, Bool.true_or]

/-- The CP takes the reply of a PD that is in step with it, and the two are in step again. -/
theorem cpRefresh_takes {b : OsdpLink} {rid : UInt8} {rdata : Bytes} {eph : CpEphemeral} {ev : Bool}
    (h : OsdpLink.Answers cp.toOsdpLink b) (hsettled : CpSettled cp) (hphy : cp.phyState = .replyWait)
    (hretry : cpScShouldRetry io cp = false) (hgood : GoodReply cp.cmdId rid) (hlen : rdata.length ≤ 96)
    (hdecode : ∀ l : OsdpLink, cpDecodeResponse aes app io { cp with toOsdpLink := l } rid rdata =
      some (.none, { cp with toOsdpLink := l, replyId := rid, ephemeral := eph, reqEventSend := ev })) :
    ∃ l s, OsdpLink.InStep l
      (osdpPhyStateReset (b.put aes (replyBlock b.scActive rdata) (rid :: rdata)).2 false) ∧
      l.scActive = cp.scActive ∧ l.scIsCapable = cp.scIsCapable ∧
      notifyCommandStatus app true { cp with replyId := rid } = { cp with replyId := rid, app := s } ∧
      cpRefresh aes app io (b.put aes (replyBlock b.scActive rdata) (rid :: rdata)).1.bytes cp =
        some (none, cpTakeEventSend app { cp with
          toOsdpLink := { l with tstamp := io.now }
          replyId := rid
          ephemeral := eph
          reqEventSend := ev
          scTstamp := if cp.scActive then io.now else cp.scTstamp
          phyRetryCount := 0
          phyState := .idle
          app := s }) := by
  have hblock := blockFor_reply b rdata
  have hfit : (b.put aes (replyBlock b.scActive rdata) (rid :: rdata)).1.bytes.length ≤
      osdpPacketBufSize := by
    have hle := length_frame_le aes rid rdata hblock
    unfold osdpPacketBufSize
    omega
  have hbusy : rid ≠ replyBusy := by
    rcases hgood with ⟨hack, -⟩ | ⟨-, hmem⟩
    · rw [hack]
      decide
    · rintro rfl
      exact absurd hmem (by decide)
  obtain ⟨a₁, a₂, hcheck, hdec, hreceived, hactive, -, hstep⟩ :=
    reply_transfer aes io.now h hblock hbusy hfit
  set frame := (b.put aes (replyBlock b.scActive rdata) (rid :: rdata)).1.bytes with hframe
  have hid : a₂.cmdId = cp.cmdId := (congrArg OsdpLink.cmdId hreceived.rest :)
  have hcapable : a₂.scIsCapable = cp.scIsCapable := (congrArg OsdpLink.scIsCapable hreceived.rest :)
  set l : OsdpLink := osdpPhyStateReset a₂ false with hl
  -- the exchange is over
  have hreply : cpProcessReply aes app io { cp with rxWaiting := frame } = some (.none, { cp with
      toOsdpLink := a₂, replyId := rid, ephemeral := eph, reqEventSend := ev }) := by
    unfold cpProcessReply
    dsimp only
    rw [hcheck]
    dsimp only
    rw [hdec]
    exact hdecode a₂
  set done : OsdpCp σ := { cp with
    toOsdpLink := { a₂ with tstamp := io.now }
    replyId := rid
    ephemeral := eph
    reqEventSend := ev
    scTstamp := if cp.scActive then io.now else cp.scTstamp
    phyRetryCount := 0
    phyState := .done } with hdone
  have htime : (if a₂.scActive then io.now else cp.scTstamp) = if cp.scActive then io.now
      else cp.scTstamp := by
    rw [hactive]
  have hphyReply : cpPhyReply aes app io { cp with rxWaiting := frame } = some (.none, done) := by
    unfold cpPhyReply
    rw [hreply, Option.map_some]
    dsimp only
    rw [if_pos rfl]
    unfold cpPhyStateDone
    dsimp only
    rw [htime]
  -- and is judged
  obtain ⟨s, hs⟩ := notifyCommandStatus_eq app true { cp with replyId := rid }
  have hnotify : notifyCommandStatus app true done = { done with app := s } :=
    notifyCommandStatus_congr true
      (show done.cmdId = ({ cp with replyId := rid } : OsdpCp σ).cmdId from hid) rfl rfl rfl hs
  have hcheckReply : stateCheckReply app done = some (true, done) := by
    have hstate : done.state = .online := hsettled.state
    unfold stateCheckReply
    rw [hstate]
    exact cpCheckOnlineResponse_good (show GoodReply a₂.cmdId rid from hid.symm ▸ hgood)
  have hdispatch : cpDispatch app io done = some (cpTakeEventSend app { done with
      toOsdpLink := { l with tstamp := io.now }, phyState := .idle, app := s }) := by
    have hphyDone : done.phyState = .done := rfl
    unfold cpDispatch
    rw [hphyDone, hcheckReply]
    dsimp only
    rw [hnotify]
    have herr :
        decide (({ done with app := s } : OsdpCp σ).phyState = .err ∨ (!true) = true) = false := by
      simp [hphyDone]
    rw [herr]
    have hsettled' : CpSettled (cpPhyStateReset { done with app := s } false) :=
      ⟨hsettled.state, hsettled.restart, hsettled.offline, hsettled.room⟩
    refine cpNextState_settled hsettled' ?_
    have hcap : a₂.scIsCapable = cp.scIsCapable := hcapable
    refine Eq.trans ?_ hretry
    unfold cpScShouldRetry
    show decide (a₂.scIsCapable ∧ (!a₂.scActive) ∧
      io.now - (if cp.scActive then io.now else cp.scTstamp) > osdpPdScRetryMs) = _
    rw [hcap, hactive]
    rcases hon : cp.scActive with _ | _
    · rfl
    · simp
  have hwaits : { cp with rxWaiting := cp.rxWaiting ++ frame } = { cp with rxWaiting := frame } := by
    rw [h.cpIdle.waiting, List.nil_append]
  have hrun : cpPhyRunning { cp with rxWaiting := frame } = true := by simp [cpPhyRunning, hphy]
  refine ⟨l, s, hstep, hactive, hcapable, hs, ?_⟩
  unfold cpRefresh stateUpdate
  rw [hwaits, if_pos hrun, phyUpdate_replyWait
    (show ({ cp with rxWaiting := frame } : OsdpCp σ).phyState = .replyWait from hphy), hphyReply]
  dsimp only [Option.map_some]
  rw [if_neg nofun, if_neg nofun, hdispatch]
  rfl

end Cp

end LeafReader
