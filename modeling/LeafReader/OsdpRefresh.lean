import LeafReader.OsdpOnline

/-!
# Commands and events in refreshes

What the refreshes of the two ends do with a command of the application, with a poll, and with an
event that answers it.
-/

namespace LeafReader

/-! ### Commands on their way -/

/-- The commands that a PD with the capabilities `cap` hands to its application. -/
def OsdpCmd.Deliverable (cap : ℕ → OsdpPdCap) : OsdpCmd → Prop
  | .output outputNo .. => capCovers (cap capOutputControl) outputNo
  | .led _ ledNumber .. => capCovers (cap capReaderLedControl) ledNumber
  | .buzzer .. => capPresent (cap capReaderAudibleOutput)
  | .text _ _ _ _ _ data => capPresent (cap capReaderTextOutput) ∧ data.length ≤ osdpCmdTextMaxLen
  | .mfg vendorCode _ data => vendorCode.toNat < 2 ^ 24 ∧ data.length ≤ osdpCmdMfgMaxDatalen
  | _ => False

section Commands

variable {cap : ℕ → OsdpPdCap} {cmd : OsdpCmd} {id : UInt8}

instance : Decidable (cmd.Deliverable cap) :=
  match cmd with
  | .output outputNo .. => inferInstanceAs (Decidable (capCovers (cap capOutputControl) outputNo = true))
  | .led _ ledNumber .. =>
      inferInstanceAs (Decidable (capCovers (cap capReaderLedControl) ledNumber = true))
  | .buzzer .. => inferInstanceAs (Decidable (capPresent (cap capReaderAudibleOutput) = true))
  | .text _ _ _ _ _ data => inferInstanceAs
    (Decidable (capPresent (cap capReaderTextOutput) = true ∧ data.length ≤ osdpCmdTextMaxLen))
  | .mfg vendorCode _ data => inferInstanceAs
    (Decidable (vendorCode.toNat < 2 ^ 24 ∧ data.length ≤ osdpCmdMfgMaxDatalen))
  | .comset .. | .keyset .. | .status .. | .comsetDone .. | .fileTx .. => .isFalse fun h => h

theorem OsdpCmd.Deliverable.carried (h : cmd.Deliverable cap) : cmd.Carried := by
  cases cmd with
  | output => trivial
  | led => trivial
  | buzzer => trivial
  | text => exact h.2
  | mfg => exact h
  | _ => exact h.elim

theorem OsdpCmd.Deliverable.length_le (h : cmd.Deliverable cap) :
    cmd.record.length ≤ 68 ∧ recordNeed cmd ≤ 69 := by
  cases cmd with
  | output => exact ⟨show 4 ≤ 68 by decide, show 5 ≤ 69 by decide⟩
  | led => exact ⟨show 14 ≤ 68 by decide, show 15 ≤ 69 by decide⟩
  | buzzer => exact ⟨show 5 ≤ 68 by decide, show 6 ≤ 69 by decide⟩
  | text =>
    have hlen := h.2
    simp only [osdpCmdTextMaxLen] at hlen
    simp only [recordNeed, OsdpCmd.record, List.length_append, List.length_cons, List.length_nil]
    omega
  | mfg =>
    have hlen := h.2
    simp only [osdpCmdMfgMaxDatalen] at hlen
    simp only [recordNeed, OsdpCmd.record, List.length_append, List.length_cons,
      List.length_nil, length_le24]
    omega
  | _ => exact h.elim

theorem OsdpCmd.Deliverable.fits (h : cmd.Deliverable cap) : mfgTooLong cmd = false := by
  cases cmd with
  | mfg => exact decide_eq_false (Nat.not_lt.2 h.2)
  | _ => rfl

/-- The commands that are delivered have a number, and it is none of those of the handshake. -/
theorem OsdpCmd.Deliverable.exists_id (h : cmd.Deliverable cap) :
    ∃ id, cmdIdOf cmd = some id ∧ id ≠ cmdKeyset ∧ osdpPhyInScHandshake false id = false := by
  cases cmd with
  | output => exact ⟨_, rfl, by decide, by decide⟩
  | led => exact ⟨_, rfl, by decide, by decide⟩
  | buzzer => exact ⟨_, rfl, by decide, by decide⟩
  | text => exact ⟨_, rfl, by decide, by decide⟩
  | mfg => exact ⟨_, rfl, by decide, by decide⟩
  | _ => exact h.elim

theorem OsdpCmd.Deliverable.ne_poll (h : cmd.Deliverable cap) : cmdIdOf cmd ≠ some cmdPoll := by
  cases cmd with
  | output => exact (by decide : some cmdOut ≠ some cmdPoll)
  | led => exact (by decide : some cmdLed ≠ some cmdPoll)
  | buzzer => exact (by decide : some cmdBuz ≠ some cmdPoll)
  | text => exact (by decide : some cmdText ≠ some cmdPoll)
  | mfg => exact (by decide : some cmdMfg ≠ some cmdPoll)
  | _ => exact h.elim

/-- A command that is delivered is carried out once the application takes it. -/
theorem pdCarryOut_deliverable {τ : Type} {app : PdApp τ}
    {f : τ → OsdpCmd → (ℤ × OsdpCmd) × τ} {pd : OsdpPd τ}
    (hcommand : app.command = some f) (hid : cmdIdOf cmd = some id) (h : cmd.Deliverable pd.cap)
    (htakes : (f pd.app cmd).1.1 = 0) :
    pdCarryOut app { pd with reply := .nak nakRecord, cmdId := id } cmd =
      (.none, { pd with cmdId := id, reply := .ack, app := (f pd.app cmd).2 }) := by
  set pd₁ : OsdpPd τ := { pd with reply := .nak nakRecord, cmdId := id } with hpd₁
  have hcallback : doCommandCallback app pd₁ cmd =
      (true, (f pd.app cmd).1.2, { pd₁ with app := (f pd.app cmd).2 }) := by
    unfold doCommandCallback
    rw [hcommand]
    exact if_neg fun hno => hno htakes
  have hasked (hcap : capOk pd₁ (some cmd) = true) : askApp app true pd₁ (some cmd) cmd =
      (some (f pd.app cmd).1.2, { pd₁ with app := (f pd.app cmd).2 }) := by
    unfold askApp pdCmdCapOk
    rw [if_pos rfl, if_pos hcap]
    dsimp only
    rw [hcallback]
  unfold pdCarryOut
  cases cmd with
  | output outputNo controlCode timerCount =>
    cases hid
    dsimp only
    rw [hasked (show decide (cmdOut = cmdOut ∧ _) = true from decide_eq_true ⟨rfl, h⟩)]
  | led reader ledNumber temporary timerCount permanent =>
    cases hid
    dsimp only
    rw [hasked (show decide (cmdLed = cmdLed ∧ _) = true from decide_eq_true ⟨rfl, h⟩)]
  | buzzer =>
    cases hid
    dsimp only
    rw [hasked (show capPresent _ = true from h)]
  | text =>
    cases hid
    dsimp only
    rw [hasked (show capPresent _ = true from h.1)]
  | mfg =>
    cases hid
    dsimp only
    unfold askApp
    rw [if_neg nofun]
    dsimp only
    rw [hcallback]
  | _ => exact h.elim

end Commands

/-! ### What is on the line -/

/-- The identifier of the command that the CP has found, or of the poll where it has found none. -/
def cmdIdFor : Option OsdpCmd → Option UInt8
  | none => some cmdPoll
  | some cmd => cmdIdOf cmd

def cmdDataFor : Option OsdpCmd → Bytes
  | none => []
  | some cmd => cmd.record

/-- The reply of the PD: an event, or that it has done what it was told. -/
def replyFor : Option OsdpEvent → PdReply
  | none => .ack
  | some event => pdTranslateEvent event

def replyDataFor : Option OsdpEvent → Bytes
  | none => []
  | some event => eventData event

/-- The packet of a command, and the CP that has sent it. -/
def sentCmd (aes : Aes) (a : OsdpLink) (id : UInt8) (cmd : Option OsdpCmd) : OsdpFrame × OsdpLink :=
  a.put aes (cmdBlock a.scActive (cmdDataFor cmd)) (id :: cmdDataFor cmd)

/-- The packet of a reply, and the PD that has sent it. -/
def sentReply (aes : Aes) (b : OsdpLink) (event : Option OsdpEvent) : OsdpFrame × OsdpLink :=
  b.put aes (replyBlock b.scActive (replyDataFor event)) ((replyFor event).id :: replyDataFor event)

section Links

variable {a b l : OsdpLink}

/-- What an end becomes when it has sent a packet and waits for the next. -/
theorem idle_put (aes : Aes) (l : OsdpLink) (scb msg : Bytes)
    (hring : l.rxRb.contents = []) (hwait : l.rxWaiting = []) :
    (osdpPhyStateReset (l.put aes scb msg).2 false).Idle ∧
      (osdpPhyStateReset (l.put aes scb msg).2 false).scActive = l.scActive ∧
      (osdpPhyStateReset (l.put aes scb msg).2 false).cmdId = l.cmdId := by
  obtain ⟨sc, hput⟩ := initiated_put aes l scb msg
  rw [hput]
  exact ⟨⟨rfl, rfl, hring, hwait⟩, rfl, rfl⟩

/-- What the receiver of the CP holds does not matter between packets. -/
theorem OsdpLink.InStep.congr_cp (h : OsdpLink.InStep a b) (hrest : a.SameRest l) (hidle : l.Idle) :
    OsdpLink.InStep l b := by
  have hactive : l.scActive = a.scActive := (congrArg OsdpLink.scActive hrest :)
  have hseq : l.seqNumber = a.seqNumber := (congrArg OsdpLink.seqNumber hrest :)
  have haddr : l.address = a.address := (congrArg OsdpLink.address hrest :)
  have hsc : l.sc = a.sc := (congrArg OsdpLink.sc hrest :)
  refine ⟨⟨hrest.pdMode.trans h.cpMode, h.pdMode, h.address.trans haddr.symm,
    haddr.symm ▸ h.inRange, h.capable⟩, hidle, h.pdIdle, ?_, ?_⟩
  · rw [hseq, hactive]
    exact h.seq
  · rw [hseq, hactive, hsc]
    exact h.chain

theorem OsdpLink.InStep.congr_pd (h : OsdpLink.InStep a b) (hrest : b.SameRest l) (hidle : l.Idle) :
    OsdpLink.InStep a l := by
  have hactive : l.scActive = b.scActive := (congrArg OsdpLink.scActive hrest :)
  have hseq : l.seqNumber = b.seqNumber := (congrArg OsdpLink.seqNumber hrest :)
  have hsc : l.sc = b.sc := (congrArg OsdpLink.sc hrest :)
  refine ⟨⟨h.cpMode, hrest.pdMode.trans h.pdMode,
    (congrArg OsdpLink.address hrest :).trans h.address, h.inRange,
    (congrArg OsdpLink.scIsCapable hrest :).trans h.capable⟩, h.cpIdle, hidle, ?_, ?_⟩
  · rw [hseq, hactive]
    exact h.seq
  · rw [hsc]
    exact h.chain

theorem OsdpLink.Answers.congr_cp (h : OsdpLink.Answers a b) (hrest : a.SameRest l) (hidle : l.Idle) :
    OsdpLink.Answers l b := by
  have hactive : l.scActive = a.scActive := (congrArg OsdpLink.scActive hrest :)
  have hseq : l.seqNumber = a.seqNumber := (congrArg OsdpLink.seqNumber hrest :)
  have haddr : l.address = a.address := (congrArg OsdpLink.address hrest :)
  have hsc : l.sc = a.sc := (congrArg OsdpLink.sc hrest :)
  refine ⟨⟨hrest.pdMode.trans h.cpMode, h.pdMode, h.address.trans haddr.symm,
    haddr.symm ▸ h.inRange, h.capable⟩, hidle,
    h.ring, h.waiting, ?_, h.active.trans hactive.symm, ?_⟩
  · rw [hseq]
    exact h.seq
  · rw [hactive, hsc]
    exact h.chain

/-- Nor does what the CP is about to send. -/
theorem OsdpLink.InStep.retag (h : OsdpLink.InStep a b) (broadcast : Bool) (now : ℤ) (id : UInt8) :
    OsdpLink.InStep { a with pktBroadcast := broadcast, tstamp := now, cmdId := id } b :=
  ⟨⟨h.cpMode, h.pdMode, h.address, h.inRange, h.capable⟩,
    ⟨h.cpIdle.bufLen, h.cpIdle.len, h.cpIdle.ring, h.cpIdle.waiting⟩, h.pdIdle, h.seq, h.chain⟩

/-- The channel of the PD is that of the CP, if this is active. -/
theorem OsdpLink.InStep.pdActive (h : OsdpLink.InStep a b) (hon : a.scActive = true) :
    b.scActive = true := by
  rcases h.seq with hneg | ⟨-, -, hactive⟩
  · exact absurd hneg (h.chain hon).1
  · exact hactive.trans hon

end Links

theorem OsdpEvent.Carried.congr {cap cap' : ℕ → OsdpPdCap}
    (hcap : ∀ type, statusCount cap' type = statusCount cap type)
    {event : OsdpEvent} (h : event.Carried cap) : event.Carried cap' := by
  cases event with
  | status report => exact ⟨h.1, h.2.1.trans (hcap _).symm, h.2.2⟩
  | _ => exact h

theorem OsdpEvent.Carried.reply_id {cap : ℕ → OsdpPdCap} {event : OsdpEvent} (h : event.Carried cap) :
    (pdTranslateEvent event).id ∈ pollReplies := by
  cases event with
  | cardread readerNo format direction length data =>
    rw [pdTranslateEvent, if_pos h.2.1]
    exact (by decide : replyRaw ∈ pollReplies)
  | keypress => exact (by decide : replyKeypad ∈ pollReplies)
  | mfgrep => exact (by decide : replyMfgrep ∈ pollReplies)
  | status report =>
    obtain ⟨type, n, data⟩ := report
    cases type with
    | input => exact (by decide : replyIstatr ∈ pollReplies)
    | output => exact (by decide : replyOstatr ∈ pollReplies)
    | onboard => exact (by decide : replyLstatr ∈ pollReplies)
    | remote => exact (by decide : replyRstatr ∈ pollReplies)
  | notification => exact h.elim

/-! ### The CP -/

/-- What the application of the CP becomes by hearing `events`, with notifications of the library in
between. -/
inductive Heard {σ : Type} (callback : σ → CpEphemeral → σ) (s₀ : σ) : List OsdpEvent → σ → Prop
  | start : Heard callback s₀ [] s₀
  | event {events : List OsdpEvent} {s : σ} (event : OsdpEvent) (h : Heard callback s₀ events s) :
      Heard callback s₀ (events ++ [event]) (callback s (.event event))
  | notice {events : List OsdpEvent} {s : σ} (type arg0 arg1 : ℕ) (h : Heard callback s₀ events s) :
      Heard callback s₀ events (callback s (.event (.notification type arg0 arg1)))

section Cp

variable {σ : Type} {aes : Aes} {app : CpApp σ} {callback : σ → CpEphemeral → σ}
  {io : CpInput} {cp : OsdpCp σ}

theorem Heard.notifyCommandStatus (happ : app.callback = some callback)
    {s₀ : σ} {events : List OsdpEvent} (status : Bool)
    (h : Heard callback s₀ events cp.app) :
    Heard callback s₀ events (notifyCommandStatus app status cp).app := by
  unfold LeafReader.notifyCommandStatus
  dsimp only
  split
  · exact h
  · unfold cpNotify
    rw [happ]
    dsimp only
    split
    · exact .notice _ _ _ h
    · exact h

/-- The CP has found the command `cmd`, or is to poll. -/
structure CpHas (cap : ℕ → OsdpPdCap) (cp : OsdpCp σ) (cmd : Option OsdpCmd) : Prop where
  id : cmdIdFor cmd = some cp.cmdId
  kept : ∀ c ∈ cmd, cp.ephemeral = .cmd c
  deliverable : ∀ c ∈ cmd, c.Deliverable cap

theorem length_cmdDataFor {cap : ℕ → OsdpPdCap} {cmd : Option OsdpCmd}
    (h : ∀ c ∈ cmd, c.Deliverable cap) :
    (cmdDataFor cmd).length ≤ 96 := by
  cases cmd with
  | none => exact Nat.zero_le _
  | some c => exact (h c rfl).length_le.1.trans (by decide)

theorem length_replyDataFor {cap : ℕ → OsdpPdCap} {event : Option OsdpEvent}
    (h : ∀ e ∈ event, e.Carried cap) :
    (replyDataFor event).length ≤ 96 := by
  cases event with
  | none => exact Nat.zero_le _
  | some e => exact (length_eventData_le (h e rfl)).trans (by decide)

theorem cmdIdFor_plain {cap : ℕ → OsdpPdCap} {cmd : Option OsdpCmd} {id : UInt8}
    (hid : cmdIdFor cmd = some id)
    (h : ∀ c ∈ cmd, c.Deliverable cap) : id ≠ cmdKeyset ∧ osdpPhyInScHandshake false id = false := by
  cases cmd with
  | none =>
    cases hid
    exact ⟨by decide, by decide⟩
  | some c =>
    obtain ⟨i, hi, hne⟩ := (h c rfl).exists_id
    cases hi.symm.trans hid
    exact hne

/-- A command of the application, once its number is known, is its record. -/
theorem cpCommandData_found {cap : ℕ → OsdpPdCap} {cmd : Option OsdpCmd}
    (h : CpHas cap cp cmd) {n : ℕ} (hn : 100 ≤ n)
    (smb : Bytes) : cpCommandData aes app cp n smb =
      some (some (cp.cmdId :: cmdDataFor cmd), smb, cp) := by
  unfold cpCommandData
  cases cmd with
  | none =>
    have hid : cp.cmdId = cmdPoll := (Option.some.inj h.id).symm
    rw [show (cpCommands aes app).lookup cp.cmdId = some (cpShort []) by rw [hid]; rfl]
    exact guarded_pos (by simp only [List.length_nil]; omega) _
  | some c =>
    have hc := h.deliverable c rfl
    have hid : cmdIdOf c = some cp.cmdId := h.id
    have hlook : (cpCommands aes app).lookup cp.cmdId = some cpRecord := by
      cases c with
      | output => rw [← Option.some.inj hid]; rfl
      | led => rw [← Option.some.inj hid]; rfl
      | buzzer => rw [← Option.some.inj hid]; rfl
      | text => rw [← Option.some.inj hid]; rfl
      | mfg => rw [← Option.some.inj hid]; rfl
      | _ => exact hc.elim
    have hneed := hc.length_le.2
    rw [hlook]
    show cpRecord cp n smb = _
    unfold cpRecord
    rw [h.kept c rfl]
    dsimp only
    rw [if_neg (fun hno => hno hid), guarded_pos (by omega), hc.fits, if_neg nofun]
    rfl

/-- The CP sends the command that it has found, or the poll. -/
theorem cpRefresh_sentCmd {cap : ℕ → OsdpPdCap} {cmd : Option OsdpCmd} (hphy : cp.phyState = .sendCmd)
    (hcp : cp.pdMode = false) (hroom : osdpMinimumPacketSize ≤ getTxBufSize cp.peerRxSize)
    (hok : io.sendOk = true) (h : CpHas cap cp cmd) :
    cpRefresh aes app io [] cp = some (some (sentCmd aes cp.toOsdpLink cp.cmdId cmd).1.bytes, { cp with
      toOsdpLink := osdpPhyStateReset (sentCmd aes cp.toOsdpLink cp.cmdId cmd).2 false
      replyId := replyInvalid
      phyState := .replyWait
      phyTstamp := io.now }) := by
  have hfound : CpHas cap { cp with toOsdpLink := cp.toOsdpLink.initiated } cmd :=
    ⟨h.id, h.kept, h.deliverable⟩
  exact cpRefresh_sends hphy hcp hroom (cmdIdFor_plain h.id h.deliverable).2 hok
    (length_cmdDataFor h.deliverable) fun n smb hn => cpCommandData_found hfound hn smb

theorem goodReply_for {cmd : UInt8} {event : Option OsdpEvent} {cap : ℕ → OsdpPdCap}
    (hkeyset : cmd ≠ cmdKeyset)
    (hpoll : event ≠ none → cmd = cmdPoll) (h : ∀ e ∈ event, e.Carried cap) :
    GoodReply cmd (replyFor event).id := by
  cases event with
  | none => exact .inl ⟨rfl, hkeyset⟩
  | some e => exact .inr ⟨hpoll nofun, (h e rfl).reply_id⟩

/-- The CP takes the reply, and its application hears the event that came with it. -/
theorem cpRefresh_sentReply (aes : Aes) (happ : app.callback = some callback)
    {b : OsdpLink} {event : Option OsdpEvent}
    (h : OsdpLink.Answers cp.toOsdpLink b) (hsettled : CpSettled cp) (hphy : cp.phyState = .replyWait)
    (hquiet : cp.reqEventSend = false) (hretry : cpScShouldRetry io cp = false)
    (hgood : GoodReply cp.cmdId (replyFor event).id) (hevent : ∀ e ∈ event, e.Carried cp.cap) :
    ∃ l s eph, OsdpLink.InStep l (osdpPhyStateReset (sentReply aes b event).2 false) ∧
      l.scActive = cp.scActive ∧
      (∀ s₀ events, Heard callback s₀ events cp.app → Heard callback s₀ (events ++ event.toList) s) ∧
      cpRefresh aes app io (sentReply aes b event).1.bytes cp = some (none, { cp with
        toOsdpLink := l
        replyId := (replyFor event).id
        ephemeral := eph
        reqEventSend := false
        scTstamp := if cp.scActive then io.now else cp.scTstamp
        phyRetryCount := 0
        phyState := .idle
        app := s }) := by
  -- what the reply is decoded to
  have hdecode : ∃ eph, (∀ e ∈ event, eph = .event e) ∧ ∀ l : OsdpLink,
      cpDecodeResponse aes app io { cp with toOsdpLink := l } (replyFor event).id (replyDataFor event) =
        some (.none, { cp with
          toOsdpLink := l
          replyId := (replyFor event).id
          ephemeral := eph
          reqEventSend := event.isSome }) := by
    cases event with
    | none =>
      refine ⟨cp.ephemeral, nofun, fun l => ?_⟩
      have hnone : ({ cp with toOsdpLink := l, replyId := replyAck } : OsdpCp σ) =
          { cp with toOsdpLink := l, replyId := replyAck, reqEventSend := false } := by rw [← hquiet]
      exact congrArg (fun c => some (CpErr.none, c)) hnone
    | some e =>
      refine ⟨.event e, fun e' he => by cases he; rfl, fun l => ?_⟩
      exact cpDecodeResponse_event (show e.Carried ({ cp with toOsdpLink := l } : OsdpCp σ).cap from
        hevent e rfl)
  obtain ⟨eph, heph, hdecode⟩ := hdecode
  obtain ⟨l, s, hstep, hactive, -, hs, hrefresh⟩ := cpRefresh_takes h hsettled hphy hretry hgood
    (length_replyDataFor hevent) hdecode
  have hheard (s₀ : σ) (events : List OsdpEvent) (hbefore : Heard callback s₀ events cp.app) :
      Heard callback s₀ events s := by
    have hnotice := Heard.notifyCommandStatus happ true
      (show Heard callback s₀ events
        ({ cp with replyId := (replyFor event).id } : OsdpCp σ).app from hbefore)
    rw [hs] at hnotice
    exact hnotice
  have hstep' : OsdpLink.InStep { l with tstamp := io.now }
      (osdpPhyStateReset (sentReply aes b event).2 false) :=
    hstep.congr_cp rfl ⟨hstep.cpIdle.bufLen, hstep.cpIdle.len, hstep.cpIdle.ring, hstep.cpIdle.waiting⟩
  refine ⟨{ l with tstamp := io.now }, if event.isSome then callback s eph else s,
    eph, hstep', hactive, ?_, hrefresh.trans ?_⟩
  · intro s₀ events hbefore
    cases event with
    | none =>
      rw [Option.toList_none, List.append_nil]
      exact hheard s₀ events hbefore
    | some e =>
      rw [heph e rfl]
      exact .event e (hheard s₀ events hbefore)
  · unfold cpTakeEventSend doEventCallback
    rw [happ]
    cases event with
    | none => rfl
    | some e => rfl

end Cp

section Pd

variable {τ : Type} {aes : Aes} {app : PdApp τ} {f : τ → OsdpCmd → (ℤ × OsdpCmd) × τ}
  {io : PdInput} {pd : OsdpPd τ}

/-- What the PD builds of its reply. -/
theorem pdReplyData_for {event : Option OsdpEvent} (hreply : pd.reply = replyFor event)
    (h : ∀ e ∈ event, e.Carried pd.cap) {n : ℕ} (hn : 100 ≤ n) (smb : Bytes) :
    pdReplyData aes app io pd n smb = some (some (replyDataFor event), smb, pd) := by
  cases event with
  | none =>
    unfold pdReplyData
    rw [hreply]
    exact guarded_pos (by omega) _
  | some e => exact pdReplyData_event (h e rfl) hreply (by omega) smb

theorem replyFor_plain (app : PdApp τ) {event : Option OsdpEvent}
    {cap : ℕ → OsdpPdCap} (h : ∀ e ∈ event, e.Carried cap) :
    osdpPhyInScHandshake true (replyFor event).id = false ∧
      ∀ pd : OsdpPd τ, pd.reply = replyFor event → pdReplySent app pd = pd := by
  cases event with
  | none =>
    refine ⟨by decide, fun pd hreply => ?_⟩
    unfold pdReplySent
    rw [hreply]
    rfl
  | some e =>
    have hid := (h e rfl).reply_id
    constructor
    · show osdpPhyInScHandshake true (pdTranslateEvent e).id = false
      simp only [pollReplies, List.mem_cons, List.not_mem_nil, or_false] at hid
      rcases hid with h | h | h | h | h | h | h <;> rw [h] <;> decide
    · intro pd hreply
      unfold pdReplySent
      rw [hreply]
      cases e with
      | cardread readerNo format direction length data =>
        have hraw : replyFor (some (.cardread readerNo format direction length data)) =
          .raw readerNo format length data := if_pos (h _ rfl).2.1
        rw [hraw]
      | keypress => rfl
      | mfgrep => rfl
      | status report =>
        obtain ⟨type, n, data⟩ := report
        cases type <;> rfl
      | notification => exact (h _ rfl).elim

/-- A PD that is polled sends the first of its events, if it has any. -/
theorem pdDecodeCommand_poll (app : PdApp τ) (hgate : pd.enforceSecure = true → pd.scActive = true) :
    pdDecodeCommand app pd cmdPoll [] = some (.none, { pd with
      cmdId := cmdPoll
      reply := replyFor pd.eventQueue.head?
      eventQueue := pd.eventQueue.tail }) := by
  have hopen : ¬ (pd.enforceSecure = true ∧ (!pd.scActive) = true ∧ (!openCmd cmdPoll) = true) := by
    rintro ⟨henforce, hoff, -⟩
    rw [hgate henforce] at hoff
    cases hoff
  have hpoll : pdDecodeCommand app pd cmdPoll [] =
      some (pdPoll { pd with reply := .nak nakRecord, cmdId := cmdPoll } []) := by
    unfold pdDecodeCommand
    rw [if_neg hopen]
    show ((some (pdPoll { pd with reply := .nak nakRecord, cmdId := cmdPoll } [])).map _) = _
    unfold pdPoll
    rw [if_neg fun hno => hno rfl]
    dsimp only
    split <;> rfl
  rw [hpoll]
  unfold pdPoll
  rw [if_neg fun hno => hno rfl]
  dsimp only
  split
  · next hqueue =>
    have hnone : ({ pd with cmdId := cmdPoll, reply := .ack } : OsdpPd τ) =
        { pd with cmdId := cmdPoll, reply := .ack, eventQueue := [] } := by rw [← hqueue]
    rw [hnone, hqueue]
    rfl
  · next hqueue =>
    rw [hqueue]
    rfl

/-- The PD takes the command of a CP that is in step with it. If it is polled, it sends the first of
its events; else its application does what it is told. -/
theorem osdpPdRefresh_sentCmd (aes : Aes) (hcommand : app.command = some f)
    {a : OsdpLink} {id : UInt8} {cmd : Option OsdpCmd}
    (htakes : ∀ t, ∀ c ∈ cmd, (f t c).1.1 = 0)
    (h : OsdpLink.InStep a pd.toOsdpLink)
    (hfresh : ScFresh io.now pd) (hok : io.sendOk = true)
    (hroom : osdpMinimumPacketSize ≤ getTxBufSize pd.peerRxSize)
    (hid : cmdIdFor cmd = some id) (hcmd : ∀ c ∈ cmd, c.Deliverable pd.cap)
    (hgate : pd.enforceSecure = true → a.scActive = true)
    (hevents : cmd = none → ∀ e ∈ pd.eventQueue, e.Carried pd.cap) :
    ∃ b event queue, OsdpLink.Answers (sentCmd aes a id cmd).2 b ∧ event.toList ++ queue = pd.eventQueue ∧
      (event ≠ none → id = cmdPoll) ∧
      osdpPdRefresh aes app io (sentCmd aes a id cmd).1.bytes pd =
        some (some (sentReply aes b event).1.bytes, { pd with
        toOsdpLink := osdpPhyStateReset (sentReply aes b event).2 false
        reply := replyFor event
        app := cmd.toList.foldl (fun t c => (f t c).2) pd.app
        eventQueue := queue
        scTstamp := if a.scActive then io.now else pd.scTstamp }) := by
  have hdecode : ∃ event queue, event.toList ++ queue = pd.eventQueue ∧ (event ≠ none → cmd = none) ∧
      ∀ l : OsdpLink, l.scActive = a.scActive →
        pdDecodeCommand app { pd with toOsdpLink := l } id (cmdDataFor cmd) =
        some (.none, { pd with
          toOsdpLink := { l with cmdId := id }
          reply := replyFor event
          app := cmd.toList.foldl (fun t c => (f t c).2) pd.app
          eventQueue := queue }) := by
    cases cmd with
    | none =>
      cases hid
      refine ⟨pd.eventQueue.head?, pd.eventQueue.tail, ?_, fun _ => rfl, fun l hl => ?_⟩
      · cases pd.eventQueue <;> rfl
      · exact pdDecodeCommand_poll app
          (show ({ pd with toOsdpLink := l } : OsdpPd τ).enforceSecure = true →
          ({ pd with toOsdpLink := l } : OsdpPd τ).scActive = true from fun he => hl.trans (hgate he))
    | some c =>
      refine ⟨none, pd.eventQueue, rfl, fun hno => absurd rfl hno, fun l hl => ?_⟩
      have hrecord := pdDecodeCommand_record app (show cmdIdOf c = some id from hid) (hcmd c rfl).carried
        (show ({ pd with toOsdpLink := l } : OsdpPd τ).enforceSecure = true →
          ({ pd with toOsdpLink := l } : OsdpPd τ).scActive = true from fun he => hl.trans (hgate he))
      have hdone := pdCarryOut_deliverable hcommand (show cmdIdOf c = some id from hid)
        (show c.Deliverable ({ pd with toOsdpLink := l } : OsdpPd τ).cap from
          hcmd c rfl) (htakes _ c rfl)
      exact hrecord.trans (congrArg some hdone)
  obtain ⟨event, queue, hqueue, hnone, hdecode⟩ := hdecode
  have hpoll (hne : event ≠ none) : id = cmdPoll := by
    rw [hnone hne] at hid
    exact (Option.some.inj hid).symm
  have hevent (e : OsdpEvent) (he : e ∈ event) : e.Carried pd.cap :=
    hevents (hnone (Option.ne_none_iff_exists'.2 ⟨e, he⟩)) e
      (hqueue ▸ List.mem_append_left _ (Option.mem_toList.2 he))
  obtain ⟨hplain, hsent⟩ := replyFor_plain app hevent
  obtain ⟨b, hanswers, hrefresh⟩ := osdpPdRefresh_command h hfresh hok hroom (length_cmdDataFor hcmd)
    (length_replyDataFor hevent) hplain hsent hdecode fun pd' n smb hreply hcap hn =>
      pdReplyData_for hreply (hcap ▸ hevent) hn smb
  exact ⟨b, event, queue, hanswers, hqueue, hpoll, hrefresh⟩

end Pd

end LeafReader
