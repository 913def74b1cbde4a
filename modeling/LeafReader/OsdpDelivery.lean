import LeafReader.Aes128
import LeafReader.OsdpRefresh
import LeafReader.Run

/-!
# Delivery over one line

A CP and a PD that are online, with the bytes on their way between them. The two ends are refreshed
in any order, and commands and events are handed over at any time. While no timer runs out, each
command that was accepted is handed to the application of the PD once and in order, and each event
to the application of the CP.
-/

namespace LeafReader

/-! ### Both ends and the line -/

/-- A CP, a PD, the bytes that are on their way to each, and the commands and events that were
accepted so far. -/
structure OsdpWire (σ τ : Type) where
  cp : OsdpCp σ
  pd : OsdpPd τ
  toPd : Bytes
  toCp : Bytes
  cmds : List OsdpCmd
  events : List OsdpEvent

/-- What happens next: one end is refreshed, or its application hands something over. -/
inductive WireOp
  | cpRefresh (io : CpInput)
  | pdRefresh (io : PdInput)
  | submitCommand (broadcast : Bool) (cmd : OsdpCmd)
  | submitEvent (event : OsdpEvent)

section Wire

variable {σ τ : Type} (aes : Aes) (capp : CpApp σ) (papp : PdApp τ) (cmdBlocks eventBlocks : ℕ)

/-- An end that is refreshed takes all that has come, and what it sends is on its way. The line
neither cuts a packet nor loses one. -/
def wireStep (op : WireOp) (w : OsdpWire σ τ) : Option (OsdpWire σ τ) :=
  match op with
  | .cpRefresh io => (cpRefresh aes capp io w.toCp w.cp).map fun (frame, cp) =>
    { w with cp := cp, toCp := [], toPd := w.toPd ++ frame.getD [] }
  | .pdRefresh io => (osdpPdRefresh aes papp io w.toPd w.pd).map fun (frame, pd) =>
    { w with pd := pd, toPd := [], toCp := w.toCp ++ frame.getD [] }
  | .submitCommand broadcast cmd =>
    let (ret, cp) := cpSubmitCommand capp cmdBlocks broadcast cmd w.cp
    some { w with cp := cp, cmds := if ret = 0 then w.cmds ++ [cmd] else w.cmds }
  | .submitEvent event =>
    let (ret, pd) := osdpPdSubmitEvent eventBlocks event w.pd
    some { w with pd := pd, events := if ret = 0 then w.events ++ [event] else w.events }

/-- No timer runs out, the line takes what is sent, and what is handed over is what the PD is
capable of. -/
def WireOp.Timely (op : WireOp) (w : OsdpWire σ τ) : Prop :=
  match op with
  | .cpRefresh io => io.sendOk = true ∧ cpScShouldRetry io w.cp = false ∧
    (w.cp.phyState = .replyWait → w.toCp = [] → io.now - w.cp.phyTstamp ≤ osdpRespToutMs)
  | .pdRefresh io => io.sendOk = true ∧ ScFresh io.now w.pd
  | .submitCommand _ cmd => cmd.Deliverable w.pd.cap
  | .submitEvent event => event.Carried w.pd.cap

instance (op : WireOp) (w : OsdpWire σ τ) : Decidable (op.Timely w) :=
  match op with
  | .cpRefresh io => inferInstanceAs (Decidable (io.sendOk = true ∧ cpScShouldRetry io w.cp = false ∧
    (w.cp.phyState = .replyWait → w.toCp = [] → io.now - w.cp.phyTstamp ≤ osdpRespToutMs)))
  | .pdRefresh io => inferInstanceAs
    (Decidable (io.sendOk = true ∧ (w.pd.scActive = true → io.now - w.pd.scTstamp ≤ osdpPdScTimeoutMs)))
  | .submitCommand _ cmd => inferInstanceAs (Decidable (cmd.Deliverable w.pd.cap))
  | .submitEvent event => inferInstanceAs (Decidable (event.Carried w.pd.cap))

/-- Where the exchange is, with the command and the event that are on their way. -/
inductive WirePhase (w : OsdpWire σ τ) : Option OsdpCmd → Option OsdpEvent → Prop
  | rest (phy : w.cp.phyState = .idle) (step : OsdpLink.InStep w.cp.toOsdpLink w.pd.toOsdpLink)
      (toPd : w.toPd = []) (toCp : w.toCp = []) : WirePhase w none none
  | found {cmd : Option OsdpCmd} (phy : w.cp.phyState = .sendCmd)
      (step : OsdpLink.InStep w.cp.toOsdpLink w.pd.toOsdpLink)
      (has : CpHas w.pd.cap w.cp cmd) (toPd : w.toPd = [])
      (toCp : w.toCp = []) : WirePhase w cmd none
  | asked {cmd : Option OsdpCmd} {a : OsdpLink} {id : UInt8} (phy : w.cp.phyState = .replyWait)
      (step : OsdpLink.InStep a w.pd.toOsdpLink) (active : a.scActive = w.cp.scActive)
      (cmdId : w.cp.cmdId = id) (has : CpHas w.pd.cap w.cp cmd)
      (cpRest : (osdpPhyStateReset (sentCmd aes a id cmd).2 false).SameRest w.cp.toOsdpLink)
      (cpIdle : w.cp.toOsdpLink.Idle) (toPd : w.toPd = (sentCmd aes a id cmd).1.bytes)
      (toCp : w.toCp = []) :
      WirePhase w cmd none
  | answered {event : Option OsdpEvent} {b : OsdpLink} (phy : w.cp.phyState = .replyWait)
      (answers : OsdpLink.Answers w.cp.toOsdpLink b) (carried : ∀ e ∈ event, e.Carried w.pd.cap)
      (good : GoodReply w.cp.cmdId (replyFor event).id)
      (pdRest : (osdpPhyStateReset (sentReply aes b event).2 false).SameRest w.pd.toOsdpLink)
      (pdIdle : w.pd.toOsdpLink.Idle) (toPd : w.toPd = [])
      (toCp : w.toCp = (sentReply aes b event).1.bytes) :
      WirePhase w none event

/-- What no exchange changes. -/
structure WireSettled (cap : ℕ → OsdpPdCap) (on : Bool) (w : OsdpWire σ τ) : Prop where
  cp : CpSettled w.cp
  quiet : w.cp.reqEventSend = false
  file : capp.file.isNone = true ∨ w.cp.file.state = .idle ∨ w.cp.file.state = .done
  room : osdpMinimumPacketSize ≤ getTxBufSize w.pd.peerRxSize
  cap : w.pd.cap = cap
  caps : ∀ type, statusCount w.cp.cap type = statusCount w.pd.cap type
  active : w.cp.scActive = on
  gate : w.pd.enforceSecure = true → w.cp.scActive = true
  cmds : ∀ p ∈ w.cp.cmdQueue, p.2.Deliverable w.pd.cap
  events : ∀ e ∈ w.pd.eventQueue, e.Carried w.pd.cap

/-- Every command that was accepted has been done, or is on its way, or waits, in this order; and
the same with events. -/
structure WireTraffic (callback : σ → CpEphemeral → σ) (f : τ → OsdpCmd → (ℤ × OsdpCmd) × τ)
    (s₀ : σ) (t₀ : τ)
    (w : OsdpWire σ τ) (cmd : Option OsdpCmd) (event : Option OsdpEvent) : Prop where
  cmds : ∃ done, w.cmds = done ++ cmd.toList ++ w.cp.cmdQueue.map Prod.snd ∧
    w.pd.app = done.foldl (fun t c => (f t c).2) t₀
  events : ∃ heard, w.events = heard ++ event.toList ++ w.pd.eventQueue ∧ Heard callback s₀ heard w.cp.app

/-- How many refreshes it takes at most until the commands that were accepted are done, if each of
them helps: `n` commands wait, and the command `id` is under way. -/
def dueOf (phy : CpPhyState) (id : UInt8) (n : ℕ) (toCp : Bytes) : ℕ :=
  match phy with
  | .sendCmd => if id = cmdPoll ∧ n = 0 then 0 else 4 * n + 3
  | .replyWait =>
    if toCp ≠ [] then 4 * n + min n 1
    else if id = cmdPoll ∧ n = 0 then 0
    else 4 * n + 2
  | _ => 4 * n

def wireDue (w : OsdpWire σ τ) : ℕ := dueOf w.cp.phyState w.cp.cmdId w.cp.cmdQueue.length w.toCp

/-- The PD has been asked, and has not taken the command yet. -/
def WireAsked (w : OsdpWire σ τ) : Prop := w.cp.phyState = .replyWait ∧ w.toCp = []

/-- What holds of the two ends at any time. -/
structure WireInv (callback : σ → CpEphemeral → σ) (f : τ → OsdpCmd → (ℤ × OsdpCmd) × τ) (s₀ : σ) (t₀ : τ)
    (cap : ℕ → OsdpPdCap) (on : Bool) (w : OsdpWire σ τ) : Prop where
  settled : WireSettled capp cap on w
  phase : ∃ cmd event, WirePhase aes w cmd event ∧ WireTraffic callback f s₀ t₀ w cmd event

variable {aes capp papp cmdBlocks eventBlocks}
variable {callback : σ → CpEphemeral → σ} {f : τ → OsdpCmd → (ℤ × OsdpCmd) × τ} {s₀ : σ} {t₀ : τ}
  {cap : ℕ → OsdpPdCap} {on : Bool} {w : OsdpWire σ τ}

theorem wireStep_cp {io : CpInput} {bytes : Bytes} {frame : Option Bytes}
    {cp : OsdpCp σ} (hto : w.toCp = bytes)
    (h : cpRefresh aes capp io bytes w.cp = some (frame, cp)) :
    wireStep aes capp papp cmdBlocks eventBlocks (.cpRefresh io) w =
      some { w with cp := cp, toCp := [], toPd := w.toPd ++ frame.getD [] } := by
  unfold wireStep
  dsimp only
  rw [hto, h]
  rfl

theorem wireStep_pd {io : PdInput} {bytes : Bytes} {frame : Option Bytes}
    {pd : OsdpPd τ} (hto : w.toPd = bytes)
    (h : osdpPdRefresh aes papp io bytes w.pd = some (frame, pd)) :
    wireStep aes capp papp cmdBlocks eventBlocks (.pdRefresh io) w =
      some { w with pd := pd, toPd := [], toCp := w.toCp ++ frame.getD [] } := by
  unfold wireStep
  dsimp only
  rw [hto, h]
  rfl

section Due

variable (id id' : UInt8) (n : ℕ) (toCp : Bytes)

theorem due_found : dueOf .sendCmd id n toCp ≤ dueOf .idle id' (n + 1) toCp - 1 := by
  show (if id = cmdPoll ∧ n = 0 then 0 else 4 * n + 3) ≤ 4 * (n + 1) - 1
  split <;> omega

theorem due_asked : dueOf .replyWait id n [] ≤ dueOf .sendCmd id n toCp - 1 := by
  show (if id = cmdPoll ∧ n = 0 then 0 else 4 * n + 2) ≤
    (if id = cmdPoll ∧ n = 0 then 0 else 4 * n + 3) - 1
  split <;> omega

variable {toCp}

theorem due_answered (h : toCp ≠ []) : dueOf .replyWait id n toCp ≤ dueOf .replyWait id n [] - 1 := by
  show (if toCp ≠ [] then 4 * n + min n 1 else _) ≤ (if id = cmdPoll ∧ n = 0 then 0 else 4 * n + 2) - 1
  rw [if_pos h]
  split <;> omega

theorem due_taken (h : toCp ≠ []) (toCp' : Bytes) :
    dueOf .idle id n toCp' ≤ dueOf .replyWait id' n toCp - 1 := by
  show 4 * n ≤ (if toCp ≠ [] then 4 * n + min n 1 else _) - 1
  rw [if_pos h]
  omega

end Due

theorem OsdpFrame.bytes_ne_nil (fr : OsdpFrame) : fr.bytes ≠ [] := by
  intro hno
  have hlen := fr.length_bytes
  rw [hno] at hlen
  simp [OsdpFrame.len] at hlen

/-- A refresh of the CP helps, unless it is the turn of the PD. -/
theorem WireInv.cpRefresh (happ : capp.callback = some callback)
    (h : WireInv aes capp callback f s₀ t₀ cap on w)
    {io : CpInput} (htimely : (WireOp.cpRefresh io).Timely w) :
    ∃ w', wireStep aes capp papp cmdBlocks eventBlocks (.cpRefresh io) w = some w' ∧
      WireInv aes capp callback f s₀ t₀ cap on w' ∧
      (wireDue w' ≤ wireDue w - 1 ∨ WireAsked w' ∧ wireDue w' ≤ wireDue w) := by
  obtain ⟨hok, hretry, hsoon⟩ := htimely
  obtain ⟨hset, cmd, event, hphase, htraffic⟩ := h
  obtain ⟨done, hcmds, hdone⟩ := htraffic.cmds
  cases hphase with
  | rest hphy hstep htoPd htoCp =>
    have hnext : w.toPd ++ (none : Option Bytes).getD [] = [] := by rw [htoPd]; rfl
    rcases hqueue : w.cp.cmdQueue with _ | ⟨⟨broadcast, cmd⟩, cmds⟩
    · refine ⟨_, wireStep_cp htoCp (cpRefresh_polls hphy hset.cp hset.quiet hqueue hset.file hretry),
        ⟨?_, none, none, ?_, ?_⟩, .inl ?_⟩
      · split
        · exact ⟨⟨hset.cp.state, hset.cp.restart, hset.cp.offline, hset.cp.room⟩,
            hset.quiet, hset.file, hset.room,
            hset.cap, hset.caps, hset.active, hset.gate, hset.cmds, hset.events⟩
        · exact ⟨⟨hset.cp.state, hset.cp.restart, hset.cp.offline, hset.cp.room⟩,
            hset.quiet, hset.file, hset.room,
            hset.cap, hset.caps, hset.active, hset.gate, hset.cmds, hset.events⟩
      · split
        · exact .found rfl (hstep.retag _ _ _) ⟨rfl, nofun, nofun⟩ hnext rfl
        · exact .rest hphy (hstep.retag _ _ _) hnext rfl
      · split
        · exact ⟨htraffic.cmds, htraffic.events⟩
        · exact ⟨htraffic.cmds, htraffic.events⟩
      · split
        · show dueOf .sendCmd cmdPoll w.cp.cmdQueue.length [] ≤ _
          rw [hqueue]
          exact Nat.zero_le _
        · show dueOf w.cp.phyState 0 w.cp.cmdQueue.length [] ≤ _
          rw [hphy, hqueue]
          exact Nat.zero_le _
    · have hcmd : cmd.Deliverable w.pd.cap :=
        hset.cmds (broadcast, cmd) (by rw [hqueue]; exact List.mem_cons_self ..)
      obtain ⟨id, hid, hkeyset, -⟩ := hcmd.exists_id
      refine ⟨_, wireStep_cp htoCp (cpRefresh_finds hphy hset.cp.state hqueue hid hkeyset),
        ⟨?_, some cmd, none, ?_, ?_, htraffic.events⟩, .inl ?_⟩
      · exact ⟨⟨hset.cp.state, hset.cp.restart, hset.cp.offline, hset.cp.room⟩,
          hset.quiet, hset.file, hset.room, hset.cap, hset.caps, hset.active, hset.gate,
          fun p hp => hset.cmds p (by rw [hqueue]; exact List.mem_cons_of_mem _ hp), hset.events⟩
      · exact .found rfl (hstep.retag _ _ _)
          ⟨hid, fun c hc => by cases hc; rfl, fun c hc => by cases hc; exact hcmd⟩ hnext rfl
      · refine ⟨done, ?_, hdone⟩
        rw [hcmds, hqueue]
        simp
      · show dueOf .sendCmd id cmds.length [] ≤ wireDue w - 1
        unfold wireDue
        rw [hphy, hqueue, htoCp]
        exact due_found _ _ _ _
  | found hphy hstep hhas htoPd htoCp =>
    obtain ⟨hidle, hactive, hid⟩ := idle_put aes w.cp.toOsdpLink (cmdBlock w.cp.scActive (cmdDataFor cmd))
      (w.cp.cmdId :: cmdDataFor cmd) hstep.cpIdle.ring hstep.cpIdle.waiting
    refine ⟨_, wireStep_cp htoCp (cpRefresh_sentCmd hphy hstep.cpMode hset.cp.room hok hhas),
      ⟨?_, cmd, none, ?_, htraffic.cmds, htraffic.events⟩, .inl ?_⟩
    · exact ⟨⟨hset.cp.state, hset.cp.restart, hset.cp.offline, hset.cp.room⟩,
        hset.quiet, hset.file, hset.room,
        hset.cap, hset.caps, hactive.trans hset.active,
        fun he => hactive.trans (hset.gate he), hset.cmds, hset.events⟩
    · refine .asked rfl hstep hactive.symm hid
        ⟨hhas.id.trans (congrArg some hid.symm), hhas.kept, hhas.deliverable⟩ rfl
        hidle ?_ rfl
      rw [htoPd]
      rfl
    · show dueOf .replyWait (osdpPhyStateReset (sentCmd aes w.cp.toOsdpLink w.cp.cmdId cmd).2 false).cmdId
        w.cp.cmdQueue.length [] ≤ wireDue w - 1
      unfold wireDue sentCmd
      rw [hphy, hid]
      exact due_asked _ _ _
  | asked hphy hstep hactive hid hhas hrest hidle htoPd htoCp =>
    obtain ⟨l, hwaits, hrest', hidle'⟩ := cpRefresh_waits aes capp hphy hidle (hsoon hphy htoCp)
    have hactive' : l.scActive = w.cp.scActive := (congrArg OsdpLink.scActive hrest' :)
    have hid' : l.cmdId = w.cp.cmdId := (congrArg OsdpLink.cmdId hrest' :)
    refine ⟨_, wireStep_cp htoCp hwaits, ⟨?_, cmd, none, ?_, htraffic.cmds, htraffic.events⟩,
      .inr ⟨⟨hphy, rfl⟩, ?_⟩⟩
    · exact ⟨⟨hset.cp.state, hset.cp.restart, hset.cp.offline, hset.cp.room⟩,
        hset.quiet, hset.file, hset.room,
        hset.cap, hset.caps, hactive'.trans hset.active,
        fun he => hactive'.trans (hset.gate he), hset.cmds, hset.events⟩
    · refine .asked hphy hstep (hactive.trans hactive'.symm) (hid'.trans hid)
        ⟨hhas.id.trans (congrArg some hid'.symm), hhas.kept, hhas.deliverable⟩
        (hrest.trans hrest') hidle' ?_ rfl
      rw [htoPd]
      exact List.append_nil _
    · show dueOf w.cp.phyState l.cmdId w.cp.cmdQueue.length [] ≤ wireDue w
      rw [hid', ← htoCp]
      exact Nat.le_refl _
  | answered hphy hanswers hcarried hgood hrest hidle htoPd htoCp =>
    obtain ⟨l, s, eph, hstep, hactive, hheard, htakes⟩ :=
      cpRefresh_sentReply aes happ hanswers hset.cp hphy hset.quiet
      hretry hgood fun e he => (hcarried e he).congr hset.caps
    refine ⟨_, wireStep_cp htoCp htakes, ⟨?_, none, none, ?_, htraffic.cmds, ?_⟩, .inl ?_⟩
    · exact ⟨⟨hset.cp.state, hset.cp.restart, hset.cp.offline, hset.cp.room⟩, rfl, hset.file, hset.room,
        hset.cap, hset.caps, hactive.trans hset.active,
        fun he => hactive.trans (hset.gate he), hset.cmds, hset.events⟩
    · refine .rest rfl (hstep.congr_pd hrest hidle) ?_ rfl
      rw [htoPd]
      rfl
    · obtain ⟨heard, hevents, hbefore⟩ := htraffic.events
      refine ⟨heard ++ event.toList, ?_, hheard _ _ hbefore⟩
      rw [hevents]
      simp
    · show dueOf .idle l.cmdId w.cp.cmdQueue.length [] ≤ wireDue w - 1
      unfold wireDue
      rw [hphy]
      exact due_taken _ _ _ (htoCp ▸ OsdpFrame.bytes_ne_nil _) _

/-- A refresh of the PD helps, if it is its turn. -/
theorem WireInv.pdRefresh (hcommand : papp.command = some f)
    (htakes : ∀ t c, OsdpCmd.Deliverable cap c → (f t c).1.1 = 0)
    (h : WireInv aes capp callback f s₀ t₀ cap on w) {io : PdInput}
    (htimely : (WireOp.pdRefresh io).Timely w) :
    ∃ w', wireStep aes capp papp cmdBlocks eventBlocks (.pdRefresh io) w = some w' ∧
      WireInv aes capp callback f s₀ t₀ cap on w' ∧
      wireDue w' ≤ wireDue w ∧ (WireAsked w → wireDue w' ≤ wireDue w - 1) := by
  obtain ⟨hok, hfresh⟩ := htimely
  obtain ⟨hset, cmd, event, hphase, htraffic⟩ := h
  obtain ⟨done, hcmds, hdone⟩ := htraffic.cmds
  obtain ⟨heard, hevents, hheard⟩ := htraffic.events
  have hset' (l : OsdpLink) (toCp : Bytes) :
      WireSettled capp cap on { w with pd := { w.pd with toOsdpLink := l }, toPd := [], toCp := toCp } :=
    ⟨hset.cp, hset.quiet, hset.file, hset.room, hset.cap, hset.caps, hset.active,
      hset.gate, hset.cmds, hset.events⟩
  have hnext {bytes : Bytes} (hto : w.toCp = bytes) :
      w.toCp ++ (none : Option Bytes).getD [] = bytes := by
    rw [hto]
    exact List.append_nil _
  have hsame : dueOf w.cp.phyState w.cp.cmdId w.cp.cmdQueue.length
      (w.toCp ++ (none : Option Bytes).getD []) ≤ wireDue w := by
    rw [hnext rfl]
    exact Nat.le_refl _
  cases hphase with
  | rest hphy hstep htoPd htoCp =>
    obtain ⟨l, hnothing, hrest, hidle⟩ := osdpPdRefresh_nothing aes papp hstep.pdIdle hfresh
    exact ⟨_, wireStep_pd htoPd hnothing, ⟨hset' l _, none, none,
      .rest hphy (hstep.congr_pd hrest hidle) rfl (hnext htoCp), htraffic.cmds, htraffic.events⟩,
      hsame,
      fun hno => absurd (hphy.symm.trans hno.1) nofun⟩
  | found hphy hstep hhas htoPd htoCp =>
    obtain ⟨l, hnothing, hrest, hidle⟩ := osdpPdRefresh_nothing aes papp hstep.pdIdle hfresh
    exact ⟨_, wireStep_pd htoPd hnothing, ⟨hset' l _, cmd, none,
      .found hphy (hstep.congr_pd hrest hidle) hhas rfl (hnext htoCp), htraffic.cmds, htraffic.events⟩,
      hsame,
      fun hno => absurd (hphy.symm.trans hno.1) nofun⟩
  | asked hphy hstep hactive hid hhas hrest hidle htoPd htoCp =>
    rename_i a id
    obtain ⟨b, event, queue, hanswers, hqueue, hpoll, htaken⟩ := osdpPdRefresh_sentCmd aes hcommand
      (fun t c hc => htakes t c (hset.cap ▸ hhas.deliverable c hc)) hstep hfresh hok hset.room
      (hid ▸ hhas.id) hhas.deliverable
      (fun he => hactive.trans (hset.gate he)) fun _ => hset.events
    have hcarried (e : OsdpEvent) (he : e ∈ event) : e.Carried w.pd.cap :=
      hset.events e (hqueue ▸ List.mem_append_left _ (Option.mem_toList.2 he))
    have hkeyset : w.cp.cmdId ≠ cmdKeyset := (cmdIdFor_plain hhas.id hhas.deliverable).1
    obtain ⟨hidle', -, -⟩ := idle_put aes b (replyBlock b.scActive (replyDataFor event))
      ((replyFor event).id :: replyDataFor event) hanswers.ring hanswers.waiting
    have htoCp' : w.toCp ++ (some (sentReply aes b event).1.bytes).getD [] ≠ [] := by
      rw [htoCp]
      exact OsdpFrame.bytes_ne_nil _
    have hdue : dueOf w.cp.phyState w.cp.cmdId w.cp.cmdQueue.length
        (w.toCp ++ (some (sentReply aes b event).1.bytes).getD []) ≤ wireDue w - 1 := by
      unfold wireDue
      rw [hphy, htoCp]
      exact due_answered _ _ (htoCp ▸ htoCp')
    refine ⟨_, wireStep_pd htoPd htaken,
      ⟨?_, none, event, ?_, ⟨done ++ cmd.toList, ?_, ?_⟩, heard, ?_, hheard⟩, ?_, ?_⟩
    · exact ⟨hset.cp, hset.quiet, hset.file, hset.room, hset.cap, hset.caps,
        hset.active, hset.gate, hset.cmds,
        fun e he => hset.events e (hqueue ▸ List.mem_append_right _ he)⟩
    · refine .answered hphy (hanswers.reset.congr_cp hrest hidle) hcarried
        (goodReply_for hkeyset (fun hne => hid.trans (hpoll hne)) hcarried) rfl hidle' rfl ?_
      rw [htoCp]
      rfl
    · rw [hcmds]
      simp
    · rw [List.foldl_append, ← hdone]
    · rw [hevents, ← hqueue]
      simp
    · exact hdue.trans (Nat.sub_le _ _)
    · exact fun _ => hdue
  | answered hphy hanswers hcarried hgood hrest hidle htoPd htoCp =>
    obtain ⟨l, hnothing, hrest', hidle'⟩ := osdpPdRefresh_nothing aes papp hidle hfresh
    have hne : w.toCp ≠ [] := htoCp ▸ OsdpFrame.bytes_ne_nil _
    exact ⟨_, wireStep_pd htoPd hnothing, ⟨hset' l _, none, event,
      .answered hphy hanswers hcarried hgood (hrest.trans hrest') hidle' rfl (hnext htoCp), htraffic.cmds,
      htraffic.events⟩, hsame, fun hno => absurd hno.2 hne⟩

/-- The phase does not depend on what waits in the queues. -/
theorem WirePhase.congr {w' : OsdpWire σ τ} {cmd : Option OsdpCmd} {event : Option OsdpEvent}
    (h : WirePhase aes w cmd event) {queue : List (Bool × OsdpCmd)} {events : List OsdpEvent}
    (hcp : w'.cp = { w.cp with cmdQueue := queue }) (hpd : w'.pd = { w.pd with eventQueue := events })
    (htoPd : w'.toPd = w.toPd) (htoCp : w'.toCp = w.toCp) : WirePhase aes w' cmd event := by
  obtain ⟨cp, pd, toPd, toCp, cmds, reported⟩ := w'
  cases hcp
  cases hpd
  cases htoPd
  cases htoCp
  cases h with
  | rest hphy hstep htoPd htoCp => exact .rest hphy hstep htoPd htoCp
  | found hphy hstep hhas htoPd htoCp =>
      exact .found hphy hstep ⟨hhas.id, hhas.kept, hhas.deliverable⟩ htoPd htoCp
  | asked hphy hstep hactive hid hhas hrest hidle htoPd htoCp =>
    exact .asked hphy hstep hactive hid ⟨hhas.id, hhas.kept, hhas.deliverable⟩ hrest hidle htoPd htoCp
  | answered hphy hanswers hcarried hgood hrest hidle htoPd htoCp =>
    exact .answered hphy hanswers hcarried hgood hrest hidle htoPd htoCp

/-- A command is handed over: it is put behind those that wait, or is not accepted. -/
theorem WireInv.submitCommand (h : WireInv aes capp callback f s₀ t₀ cap on w)
    {broadcast : Bool} {cmd : OsdpCmd} (htimely : (WireOp.submitCommand broadcast cmd).Timely w) :
    ∃ w', wireStep aes capp papp cmdBlocks eventBlocks (.submitCommand broadcast cmd) w = some w' ∧
      WireInv aes capp callback f s₀ t₀ cap on w' := by
  have hdeliverable : cmd.Deliverable w.pd.cap := htimely
  have hsubmit : (∃ ret, ret ≠ 0 ∧ cpSubmitCommand capp cmdBlocks broadcast cmd w.cp = (ret, w.cp)) ∨
      cpSubmitCommand capp cmdBlocks broadcast cmd w.cp =
        (0, { w.cp with cmdQueue := w.cp.cmdQueue ++ [(broadcast, cmd)] }) := by
    unfold cpSubmitCommand
    split
    · exact .inl ⟨-1, by decide, rfl⟩
    · cases cmd with
      | fileTx => exact hdeliverable.elim
      | keyset => exact hdeliverable.elim
      | _ =>
        dsimp only
        split
        · exact .inl ⟨-1, by decide, rfl⟩
        · exact .inr rfl
  obtain ⟨hset, cmd', event, hphase, ⟨done, hcmds, hdone⟩, hevents⟩ := h
  unfold wireStep
  dsimp only
  rcases hsubmit with ⟨ret, hret, heq⟩ | heq
  · rw [heq]
    dsimp only
    rw [if_neg hret]
    exact ⟨w, rfl, hset, cmd', event, hphase, ⟨done, hcmds, hdone⟩, hevents⟩
  · rw [heq]
    refine ⟨_, rfl, ?_, cmd', event, hphase.congr rfl rfl rfl rfl, ⟨done, ?_, hdone⟩, hevents⟩
    · refine ⟨⟨hset.cp.state, hset.cp.restart, hset.cp.offline, hset.cp.room⟩,
        hset.quiet, hset.file, hset.room,
        hset.cap, hset.caps, hset.active, hset.gate, fun p hp => ?_, hset.events⟩
      rcases List.mem_append.1 hp with hp | hp
      · exact hset.cmds p hp
      · rw [List.mem_singleton.1 hp]
        exact hdeliverable
    · show w.cmds ++ [cmd] = _
      rw [hcmds]
      simp

theorem WireInv.submitEvent (h : WireInv aes capp callback f s₀ t₀ cap on w) {event : OsdpEvent}
    (htimely : (WireOp.submitEvent event).Timely w) :
    ∃ w', wireStep aes capp papp cmdBlocks eventBlocks (.submitEvent event) w = some w' ∧
      WireInv aes capp callback f s₀ t₀ cap on w' := by
  have hcarried : event.Carried w.pd.cap := htimely
  obtain ⟨hset, cmd, event', hphase, hcmds, heard, hevents, hheard⟩ := h
  unfold wireStep osdpPdSubmitEvent
  dsimp only
  split
  · refine ⟨_, rfl, ?_, cmd, event', hphase.congr rfl rfl rfl rfl, hcmds, heard, ?_, hheard⟩
    · refine ⟨hset.cp, hset.quiet, hset.file, hset.room, hset.cap, hset.caps,
        hset.active, hset.gate, hset.cmds, fun e he => ?_⟩
      rcases List.mem_append.1 he with he | he
      · exact hset.events e he
      · rw [List.mem_singleton.1 he]
        exact hcarried
    · show w.events ++ [event] = _
      rw [hevents]
      simp
  · exact ⟨w, rfl, hset, cmd, event', hphase, hcmds, heard, hevents, hheard⟩

/-! ### Runs -/

/-- Where a run starts: both ends are online and at rest, and nothing has been accepted but what
waits. -/
structure WireStart (capp : CpApp σ) (w : OsdpWire σ τ) : Prop where
  settled : WireSettled capp w.pd.cap w.cp.scActive w
  phy : w.cp.phyState = .idle
  step : OsdpLink.InStep w.cp.toOsdpLink w.pd.toOsdpLink
  toPd : w.toPd = []
  toCp : w.toCp = []
  cmds : w.cmds = w.cp.cmdQueue.map Prod.snd
  events : w.events = w.pd.eventQueue

theorem WireStart.inv (h : WireStart capp w) (callback : σ → CpEphemeral → σ)
    (f : τ → OsdpCmd → (ℤ × OsdpCmd) × τ) :
    WireInv aes capp callback f w.cp.app w.pd.app w.pd.cap w.cp.scActive w :=
  ⟨h.settled, none, none, .rest h.phy h.step h.toPd h.toCp, ⟨[], h.cmds, rfl⟩, [], h.events, .start⟩

theorem WireInv.step (happ : capp.callback = some callback) (hcommand : papp.command = some f)
    (htakes : ∀ t c, OsdpCmd.Deliverable cap c → (f t c).1.1 = 0) (op : WireOp)
    (w : OsdpWire σ τ) (htimely : op.Timely w) (h : WireInv aes capp callback f s₀ t₀ cap on w) :
    ∃ w', wireStep aes capp papp cmdBlocks eventBlocks op w = some w' ∧
      WireInv aes capp callback f s₀ t₀ cap on w' := by
  cases op with
  | cpRefresh io =>
    obtain ⟨w', hstep, hinv, -⟩ := h.cpRefresh happ htimely
    exact ⟨w', hstep, hinv⟩
  | pdRefresh io =>
    obtain ⟨w', hstep, hinv, -⟩ := h.pdRefresh hcommand htakes htimely
    exact ⟨w', hstep, hinv⟩
  | submitCommand broadcast cmd => exact h.submitCommand htimely
  | submitEvent event => exact h.submitEvent htimely

/-- While the CP is under the channel, so is the PD. -/
theorem WireInv.pdActive (h : WireInv aes capp callback f s₀ t₀ cap on w) (hon : on = true) :
    w.pd.scActive = true := by
  obtain ⟨hset, cmd, event, hphase, -⟩ := h
  have hcp : w.cp.scActive = true := hset.active.trans hon
  cases hphase with
  | rest hphy hstep htoPd htoCp => exact hstep.pdActive hcp
  | found hphy hstep hhas htoPd htoCp => exact hstep.pdActive hcp
  | asked hphy hstep hactive hid hhas hrest hidle htoPd htoCp => exact hstep.pdActive (hactive.trans hcp)
  | answered hphy hanswers hcarried hgood hrest hidle htoPd htoCp =>
    rename_i b
    obtain ⟨-, hactive, -⟩ := idle_put aes b (replyBlock b.scActive (replyDataFor event))
      ((replyFor event).id :: replyDataFor event) hanswers.ring hanswers.waiting
    exact ((congrArg OsdpLink.scActive hrest :).trans hactive).trans (hanswers.active.trans hcp)

/-- In any order of refreshes and submissions in which no timer runs out, neither end stops or goes
offline or loses the channel, and each command that is accepted comes to the application of the PD
once and in order, each event to that of the CP. At most one is under way besides those that wait. -/
theorem wire_delivers {w₀ : OsdpWire σ τ} {ops : List WireOp} (happ : capp.callback = some callback)
    (hcommand : papp.command = some f) (htakes : ∀ t c, OsdpCmd.Deliverable w₀.pd.cap c → (f t c).1.1 = 0)
    (hstart : WireStart capp w₀)
    (htimely : Throughout (wireStep aes capp papp cmdBlocks eventBlocks) WireOp.Timely ops w₀) :
    ∃ w, exec (wireStep aes capp papp cmdBlocks eventBlocks) ops w₀ = some w ∧
      w.cp.state = .online ∧ w.cp.scActive = w₀.cp.scActive ∧
        (w.cp.scActive = true → w.pd.scActive = true) ∧
      (∃ done cmd, w.cmds = done ++ Option.toList cmd ++ w.cp.cmdQueue.map Prod.snd ∧
        w.pd.app = done.foldl (fun t c => (f t c).2) w₀.pd.app) ∧
      ∃ heard event, w.events = heard ++ Option.toList event ++ w.pd.eventQueue ∧
        Heard callback w₀.cp.app heard w.cp.app := by
  obtain ⟨w, hexec, hinv⟩ :=
    htimely.exec_some (WireInv.step happ hcommand htakes) ops w₀ (hstart.inv callback f)
  have hactive : w.cp.scActive = w₀.cp.scActive := hinv.settled.active
  obtain ⟨hset, cmd, event, hphase, htraffic⟩ := hinv
  obtain ⟨done, hcmds⟩ := htraffic.cmds
  obtain ⟨heard, hevents⟩ := htraffic.events
  exact ⟨w, hexec, hset.cp.state, hactive,
    fun hon => WireInv.pdActive ⟨hset, cmd, event, hphase, htraffic⟩
    (hactive.symm.trans hon), ⟨done, cmd, hcmds⟩, heard, event, hevents⟩

/-- A CP and a PD at rest, under the channel or not. -/
def sampleWire (on : Bool) : Option (OsdpWire (List CpEphemeral) (List OsdpCmd)) :=
  match cpAddPd (sampleCpInfo on) [], osdpPdSetup (samplePdInfo on) [] with
  | some cp, some pd => some
    { cp := { cp with state := .online, scCapable := true, scActive := on, seqNumber := 0 }
      pd := { pd with scActive := on, seqNumber := 0 }
      toPd := []
      toCp := []
      cmds := []
      events := [] }
  | _, _ => none

theorem wireStart_sample {on : Bool} {w : OsdpWire (List CpEphemeral) (List OsdpCmd)}
    (h : sampleWire on = some w) :
    WireStart sampleCpApp w := by
  cases on
  all_goals
    cases h
    exact ⟨⟨⟨rfl, rfl, rfl, by decide⟩, rfl, .inl rfl,
      by decide, rfl, fun type => by cases type <;> rfl, rfl, by decide,
      nofun, nofun⟩, rfl, ⟨⟨rfl, rfl, rfl, by decide, rfl⟩, ⟨rfl, rfl, rfl, rfl⟩, ⟨rfl, rfl, rfl, rfl⟩,
      .inr ⟨⟨by decide, by decide⟩, rfl, rfl⟩, fun _ => ⟨by decide, ⟨rfl, rfl, rfl, rfl⟩⟩⟩,
        rfl, rfl, rfl, rfl⟩

def sampleAt (now : ℤ) : PdInput := { sampleInput with now := now }

/-- A LED is to be switched while a key is pressed, and both ends are refreshed until the CP has
heard of both. -/
def samplePress : List WireOp :=
  [.submitCommand false (.led 0 1 ⟨0, 0, 0, 0, 0⟩ 0 ⟨1, 1, 0, 2, 2⟩), .submitEvent (.keypress 0 [0x31]),
    .cpRefresh (sampleAt 0), .cpRefresh (sampleAt 0), .pdRefresh (sampleAt 10), .cpRefresh (sampleAt 20),
    .cpRefresh (sampleAt 80), .cpRefresh (sampleAt 90), .pdRefresh (sampleAt 100),
    .cpRefresh (sampleAt 110)]

theorem wire_delivers_led : ∃ w₀ w, sampleWire false = some w₀ ∧
    exec (wireStep Aes128.aes128 sampleCpApp samplePdApp 4 4) samplePress w₀ = some w ∧
    w.cp.state = .online ∧ w.pd.app = [.led 0 1 ⟨0, 0, 0, 0, 0⟩ 0 ⟨1, 1, 0, 2, 2⟩] ∧
    w.cp.app = [.event (.keypress 0 [0x31])] := by
  obtain ⟨w₀, hw₀⟩ := Option.isSome_iff_exists.1 (by decide +kernel : (sampleWire false).isSome = true)
  have htimely : ∀ w₀ ∈ sampleWire false,
    Throughout (wireStep Aes128.aes128 sampleCpApp samplePdApp 4 4) WireOp.Timely samplePress w₀ := by
      decide +kernel
  have hheard : ∀ w₀ ∈ sampleWire false,
    ∀ w ∈ exec (wireStep Aes128.aes128 sampleCpApp samplePdApp 4 4) samplePress w₀,
      w.pd.app = [.led 0 1 ⟨0, 0, 0, 0, 0⟩ 0 ⟨1, 1, 0, 2, 2⟩] ∧
        w.cp.app = [.event (.keypress 0 [0x31])] := by decide +kernel
  obtain ⟨w, hexec, honline, -⟩ :=
    wire_delivers rfl rfl (fun _ _ _ => rfl) (wireStart_sample hw₀) (htimely w₀ hw₀)
  have hdone := hheard w₀ hw₀ w hexec
  cases hw₀
  exact ⟨_, w, rfl, hexec, honline, hdone⟩

/-- A refresh of each end. -/
def rounds (ios : List (CpInput × PdInput)) : List WireOp := ios.flatMap fun io => [.cpRefresh io.1, .pdRefresh io.2]

theorem WireInv.rounds (happ : capp.callback = some callback) (hcommand : papp.command = some f)
    (htakes : ∀ t c, OsdpCmd.Deliverable cap c → (f t c).1.1 = 0) {ios : List (CpInput × PdInput)}
    (h : WireInv aes capp callback f s₀ t₀ cap on w)
    (htimely : Throughout (wireStep aes capp papp cmdBlocks eventBlocks) WireOp.Timely (LeafReader.rounds ios) w) :
    ∃ w', exec (wireStep aes capp papp cmdBlocks eventBlocks) (LeafReader.rounds ios) w = some w' ∧
      WireInv aes capp callback f s₀ t₀ cap on w' ∧ wireDue w' ≤ wireDue w - ios.length := by
  induction ios generalizing w with
  | nil => exact ⟨w, rfl, h, Nat.le_refl _⟩
  | cons io ios ih =>
    obtain ⟨w₁, hstep₁, hinv₁, hdue₁⟩ := h.cpRefresh happ htimely.1
    have htimely₁ := htimely.2 w₁ hstep₁
    obtain ⟨w₂, hstep₂, hinv₂, hle₂, hdue₂⟩ := hinv₁.pdRefresh hcommand htakes htimely₁.1
    obtain ⟨w', hexec, hinv', hdue'⟩ := ih hinv₂ (htimely₁.2 w₂ hstep₂)
    refine ⟨w', ?_, hinv', ?_⟩
    · show (wireStep _ _ _ _ _ _ w).bind _ = _
      rw [hstep₁]
      show (wireStep _ _ _ _ _ _ w₁).bind _ = _
      rw [hstep₂]
      exact hexec
    · have hround : wireDue w₂ ≤ wireDue w - 1 := by
        rcases hdue₁ with hdue₁ | ⟨hasked, hdue₁⟩
        · exact hle₂.trans hdue₁
        · exact (hdue₂ hasked).trans (Nat.sub_le_sub_right hdue₁ 1)
      rw [List.length_cons]
      omega

/-- When no refresh is due, every command that was accepted is done. -/
theorem WireInv.done (h : WireInv aes capp callback f s₀ t₀ cap on w) (hdue : wireDue w = 0) :
    w.pd.app = w.cmds.foldl (fun t c => (f t c).2) t₀ := by
  obtain ⟨hset, cmd, event, hphase, htraffic⟩ := h
  obtain ⟨done, hcmds, hdone⟩ := htraffic.cmds
  have hpolls (hhas : CpHas w.pd.cap w.cp cmd) (hid : w.cp.cmdId = cmdPoll) : cmd = none := by
    cases cmd with
    | none => rfl
    | some c => exact absurd (hhas.id.trans (congrArg some hid)) (OsdpCmd.Deliverable.ne_poll (hhas.deliverable c rfl))
  have hempty : cmd = none ∧ w.cp.cmdQueue.length = 0 := by
    unfold wireDue at hdue
    cases hphase with
    | rest hphy hstep htoPd htoCp =>
      rw [hphy] at hdue
      have hdue : 4 * w.cp.cmdQueue.length = 0 := hdue
      exact ⟨rfl, by omega⟩
    | found hphy hstep hhas htoPd htoCp =>
      rw [hphy] at hdue
      obtain ⟨hpoll, hzero⟩ := of_not_not fun hno => absurd ((if_neg hno).symm.trans hdue) (by omega)
      exact ⟨hpolls hhas hpoll, hzero⟩
    | asked hphy hstep hactive hid hhas hrest hidle htoPd htoCp =>
      rw [hphy, htoCp] at hdue
      obtain ⟨hpoll, hzero⟩ := of_not_not fun hno => absurd ((if_neg hno).symm.trans hdue) (by omega)
      exact ⟨hpolls hhas hpoll, hzero⟩
    | answered hphy hanswers hcarried hgood hrest hidle htoPd htoCp =>
      rw [hphy] at hdue
      have hdue := (if_pos (htoCp ▸ OsdpFrame.bytes_ne_nil _ : w.toCp ≠ [])).symm.trans hdue
      exact ⟨rfl, by omega⟩
  rw [hcmds, hempty.1, List.length_eq_zero_iff.1 hempty.2, hdone]
  simp

/-- However the run went, once no more commands are handed over, enough refreshes of both ends in
turn have the application of the PD do every command that was accepted. -/
theorem wire_progress {w₀ w : OsdpWire σ τ} {ops : List WireOp} {ios : List (CpInput × PdInput)}
    (happ : capp.callback = some callback) (hcommand : papp.command = some f)
    (htakes : ∀ t c, OsdpCmd.Deliverable w₀.pd.cap c → (f t c).1.1 = 0) (hstart : WireStart capp w₀)
    (htimely : Throughout (wireStep aes capp papp cmdBlocks eventBlocks) WireOp.Timely
      (ops ++ rounds ios) w₀)
    (hops : exec (wireStep aes capp papp cmdBlocks eventBlocks) ops w₀ = some w)
    (hmany : 4 * w.cp.cmdQueue.length + 3 ≤ ios.length) :
    ∃ w', exec (wireStep aes capp papp cmdBlocks eventBlocks) (ops ++ rounds ios) w₀ = some w' ∧
      w'.pd.app = w'.cmds.foldl (fun t c => (f t c).2) w₀.pd.app := by
  obtain ⟨hbefore, hafter⟩ := htimely.of_append
  obtain ⟨w₁, hexec, hinv⟩ :=
    hbefore.exec_some (WireInv.step happ hcommand htakes) ops w₀ (hstart.inv callback f)
  cases hexec.symm.trans hops
  obtain ⟨w', hrounds, hinv', hdue⟩ := hinv.rounds happ hcommand htakes (hafter w hexec)
  refine ⟨w', ?_, hinv'.done ?_⟩
  · rw [exec_append, hexec]
    exact hrounds
  · have hle : wireDue w ≤ 4 * w.cp.cmdQueue.length + 3 := by
      unfold wireDue dueOf
      split
      · split <;> omega
      · split
        · omega
        · split <;> omega
      · omega
    omega

/-- Seven refreshes of each end do a command that was handed over. -/
theorem wire_progress_led : ∃ w₀ w, sampleWire false = some w₀ ∧
    exec (wireStep Aes128.aes128 sampleCpApp samplePdApp 4 4)
      ([.submitCommand false (.led 0 1 ⟨0, 0, 0, 0, 0⟩ 0 ⟨1, 1, 0, 2, 2⟩)] ++
        rounds (.replicate 7 (sampleInput, sampleInput)))
      w₀ = some w ∧ w.pd.app = w.cmds.foldl (fun cmds cmd => cmds ++ [cmd]) [] := by
  have htimely : ∀ w₀ ∈ sampleWire false,
    Throughout (wireStep Aes128.aes128 sampleCpApp samplePdApp 4 4) WireOp.Timely
      ([.submitCommand false (.led 0 1 ⟨0, 0, 0, 0, 0⟩ 0 ⟨1, 1, 0, 2, 2⟩)] ++
        rounds (.replicate 7 (sampleInput, sampleInput)))
      w₀ := by decide +kernel
  obtain ⟨w₀, hw₀⟩ := Option.isSome_iff_exists.1 (by decide +kernel : (sampleWire false).isSome = true)
  obtain ⟨w, hexec, hdone⟩ :=
    wire_progress rfl rfl (fun _ _ _ => rfl) (wireStart_sample hw₀) (htimely w₀ hw₀) rfl
    (by cases hw₀; decide)
  cases hw₀
  exact ⟨_, w, rfl, hexec, hdone⟩

end Wire

end LeafReader
