import LeafReader.OsdpDelivery

/-!
# Lost replies

A CP without the channel asks again when no reply has come. What it sends then has the next number,
so that the PD takes it for a new command: each reply that is lost has the application of the PD
carry out the command once more, and the application of the CP hears of none of this.
-/

namespace LeafReader

section Cp

variable {σ : Type} {aes : Aes} {app : CpApp σ} {io : CpInput} {cp : OsdpCp σ}

/-- When the reply has not come in time, the CP makes up its mind to ask again. -/
theorem cpRefresh_late (aes : Aes) (app : CpApp σ) (hphy : cp.phyState = .replyWait)
    (hidle : cp.toOsdpLink.Idle) (hlate : io.now - cp.phyTstamp > osdpRespToutMs)
    (hretry : cp.phyRetryCount < osdpCmdMaxRetries) :
    ∃ l, cpRefresh aes app io [] cp = some (none, { cp with
        toOsdpLink := l
        waitMs := osdpCmdRetryWaitMs
        phyState := .wait
        phyRetryCount := cp.phyRetryCount + 1
        phyTstamp := io.now }) ∧
      cp.toOsdpLink.SameRest l ∧ l.Idle := by
  obtain ⟨l, hreply, hrest, hidle'⟩ := cpProcessReply_nothing aes app io hidle
  refine ⟨l, ?_, hrest, hidle'⟩
  have hsame : { cp with rxWaiting := cp.rxWaiting ++ [] } = cp := by rw [List.append_nil]
  have hrun : cpPhyRunning cp = true := by simp [cpPhyRunning, hphy]
  have hphyReply : cpPhyReply aes app io cp = some (.canYield, { cp with
      toOsdpLink := l
      waitMs := osdpCmdRetryWaitMs
      phyState := .wait
      phyRetryCount := cp.phyRetryCount + 1
      phyTstamp := io.now }) := by
    unfold cpPhyReply
    rw [hreply, Option.map_some]
    dsimp only
    rw [if_neg (fun hno => CpErr.noConfusion hno), if_neg (fun hno => CpErr.noConfusion hno.1),
      if_neg (by rintro (hno | hno) <;> cases hno), if_neg (fun hno => CpErr.noConfusion hno),
      if_pos hlate, if_pos hretry]
  unfold cpRefresh stateUpdate
  rw [hsame, if_pos hrun, phyUpdate_replyWait hphy, hphyReply]
  dsimp only [Option.map_some]
  rw [if_neg (fun hno => CpErr.noConfusion hno), if_pos rfl, Option.map_some]

/-- A CP that has waited long enough goes on as if it had just found its command. -/
theorem cpRefresh_again (aes : Aes) (app : CpApp σ) (bytes : Bytes) (hphy : cp.phyState = .wait)
    (hwaited : cp.waitMs ≤ io.now - cp.phyTstamp) :
    cpRefresh aes app io bytes cp = cpRefresh aes app io bytes { cp with phyState := .sendCmd } := by
  have hwait : cpPhyRunning { cp with rxWaiting := cp.rxWaiting ++ bytes } = true := by
    simp [cpPhyRunning, hphy]
  have hsend : cpPhyRunning
      { cp with rxWaiting := cp.rxWaiting ++ bytes, phyState := .sendCmd } = true := rfl
  have hupdate : cpPhyStateUpdate aes app io { cp with rxWaiting := cp.rxWaiting ++ bytes } =
      cpPhyStateUpdate aes app io
        { cp with rxWaiting := cp.rxWaiting ++ bytes, phyState := .sendCmd } := by
    unfold cpPhyStateUpdate
    dsimp only
    rw [hphy]
    exact if_neg (Int.not_lt.2 hwaited)
  unfold cpRefresh stateUpdate
  rw [if_pos hwait, if_pos hsend, hupdate]

end Cp

/-! ### A round whose reply is lost -/

/-- The times of a round: the CP sends, the PD answers, and the CP gives up on the reply. -/
structure LostReply where
  sent : CpInput
  taken : PdInput
  late : CpInput

section Wire

variable {σ τ : Type} (aes : Aes) (capp : CpApp σ) (papp : PdApp τ) (cmdBlocks eventBlocks : ℕ)

/-- The line loses what the PD has sent. -/
def lostReply (r : LostReply) (w : OsdpWire σ τ) : Option (OsdpWire σ τ) :=
  (wireStep aes capp papp cmdBlocks eventBlocks (.cpRefresh r.sent) w).bind fun w =>
    (wireStep aes capp papp cmdBlocks eventBlocks (.pdRefresh r.taken) w).bind fun w =>
      wireStep aes capp papp cmdBlocks eventBlocks (.cpRefresh r.late) { w with toCp := [] }

/-- The CP may ask once more, both ends send when they want to, and the CP waits as long as it means
to, first before it asks, then for the reply. -/
def LostReply.Late (r : LostReply) (w : OsdpWire σ τ) : Prop :=
  w.cp.phyRetryCount < osdpCmdMaxRetries ∧ r.sent.sendOk = true ∧ r.taken.sendOk = true ∧
    (w.cp.phyState = .wait → w.cp.waitMs ≤ r.sent.now - w.cp.phyTstamp) ∧
    r.late.now - r.sent.now > osdpRespToutMs

instance (r : LostReply) (w : OsdpWire σ τ) : Decidable (r.Late w) :=
  inferInstanceAs (Decidable (w.cp.phyRetryCount < osdpCmdMaxRetries ∧ r.sent.sendOk = true ∧
    r.taken.sendOk = true ∧
    (w.cp.phyState = .wait → w.cp.waitMs ≤ r.sent.now - w.cp.phyTstamp) ∧
    r.late.now - r.sent.now > osdpRespToutMs))

/-- The CP is about to send the command `cmd`, for the first time or again, and both ends are without
the channel. -/
structure Asking (cmd : OsdpCmd) (w : OsdpWire σ τ) : Prop where
  phy : w.cp.phyState = .sendCmd ∨ w.cp.phyState = .wait
  step : OsdpLink.InStep w.cp.toOsdpLink w.pd.toOsdpLink
  cpOff : w.cp.scActive = false
  pdOff : w.pd.scActive = false
  gate : w.pd.enforceSecure = false
  cpRoom : osdpMinimumPacketSize ≤ getTxBufSize w.cp.peerRxSize
  pdRoom : osdpMinimumPacketSize ≤ getTxBufSize w.pd.peerRxSize
  has : CpHas w.pd.cap w.cp (some cmd)
  toPd : w.toPd = []
  toCp : w.toCp = []

variable {aes capp papp cmdBlocks eventBlocks}
variable {f : τ → OsdpCmd → (ℤ × OsdpCmd) × τ} {cmd : OsdpCmd} {w : OsdpWire σ τ}

/-- The CP sends, whether for the first time or again. -/
theorem Asking.cpRefresh (aes : Aes) (capp : CpApp σ) (h : Asking cmd w) {io : CpInput}
    (hok : io.sendOk = true)
    (hwaited : w.cp.phyState = .wait → w.cp.waitMs ≤ io.now - w.cp.phyTstamp) :
    LeafReader.cpRefresh aes capp io [] w.cp =
      some (some (sentCmd aes w.cp.toOsdpLink w.cp.cmdId (some cmd)).1.bytes, { w.cp with
        toOsdpLink := osdpPhyStateReset (sentCmd aes w.cp.toOsdpLink w.cp.cmdId (some cmd)).2 false
        replyId := replyInvalid
        phyState := .replyWait
        phyTstamp := io.now }) := by
  rcases h.phy with hphy | hphy
  · exact cpRefresh_sentCmd hphy h.step.cpMode h.cpRoom hok h.has
  · rw [cpRefresh_again aes capp [] hphy (hwaited hphy)]
    have hhas : CpHas w.pd.cap { w.cp with phyState := .sendCmd } (some cmd) :=
      ⟨h.has.id, h.has.kept, h.has.deliverable⟩
    exact cpRefresh_sentCmd rfl h.step.cpMode h.cpRoom hok hhas

/-- A CP that has not heard the answer is in step with the PD that gave it, without the channel. -/
theorem OsdpLink.Answers.unheard (aes : Aes) {a b l : OsdpLink} {event : Option OsdpEvent}
    (h : OsdpLink.Answers a b) (hoff : a.scActive = false)
    (hrest : (osdpPhyStateReset a false).SameRest l) (hidle : l.Idle) :
    OsdpLink.InStep l (osdpPhyStateReset (sentReply aes b event).2 false) := by
  have hseq : l.seqNumber = a.seqNumber := (congrArg OsdpLink.seqNumber hrest :)
  have hactive : l.scActive = a.scActive := (congrArg OsdpLink.scActive hrest :)
  have haddr : l.address = a.address := (congrArg OsdpLink.address hrest :)
  obtain ⟨hidle', hactive', -⟩ := idle_put aes b (replyBlock b.scActive (replyDataFor event))
    ((replyFor event).id :: replyDataFor event) h.ring h.waiting
  obtain ⟨sc, hput⟩ := initiated_put aes b (replyBlock b.scActive (replyDataFor event))
    ((replyFor event).id :: replyDataFor event)
  have hput' : (sentReply aes b event).2 = { b.initiated with sc := sc } := hput
  have hnum : b.initiated.seqNumber = b.seqNumber := if_pos h.pdMode
  refine ⟨?_, hidle, hidle', .inr ⟨hseq ▸ h.seq.1, ?_, ?_⟩, fun hon => ?_⟩
  · rw [hput']
    exact ⟨hrest.pdMode.trans h.cpMode, h.pdMode, h.address.trans haddr.symm,
      haddr.symm ▸ h.inRange, h.capable⟩
  · rw [hput', hseq]
    exact hnum.trans h.seq.2
  · exact (hactive'.trans h.active).trans hactive.symm
  · rw [hactive, hoff] at hon
    cases hon

/-- After a round whose reply is lost, the command has been carried out, and the CP is about to send
it again. -/
theorem Asking.lostReply (hcommand : papp.command = some f)
    (htakes : ∀ t, (f t cmd).1.1 = 0) (h : Asking cmd w)
    {r : LostReply} (hlate : r.Late w) :
    ∃ w', LeafReader.lostReply aes capp papp cmdBlocks eventBlocks r w = some w' ∧ Asking cmd w' ∧
      w'.pd.app = (f w.pd.app cmd).2 ∧ w'.cp.app = w.cp.app ∧ w'.cp.state = w.cp.state ∧
        w'.cp.phyRetryCount = w.cp.phyRetryCount + 1 := by
  obtain ⟨hretry, hsendOk, htakenOk, hwaited, hgone⟩ := hlate
  have hsent := h.cpRefresh aes capp hsendOk hwaited
  obtain ⟨b, event, queue, hanswers, -, -, htaken⟩ := osdpPdRefresh_sentCmd aes hcommand
    (fun t c hc => Option.some.inj hc ▸ htakes t)
    h.step (fun hon => absurd (h.pdOff.symm.trans hon) Bool.false_ne_true) htakenOk h.pdRoom h.has.id
    h.has.deliverable (fun he => absurd (h.gate.symm.trans he) Bool.false_ne_true)
    fun hno => absurd hno (Option.some_ne_none cmd)
  obtain ⟨hidle, hactive, hid⟩ := idle_put aes w.cp.toOsdpLink
    (cmdBlock w.cp.scActive (cmdDataFor (some cmd))) (w.cp.cmdId :: cmdDataFor (some cmd))
    h.step.cpIdle.ring h.step.cpIdle.waiting
  set a := (sentCmd aes w.cp.toOsdpLink w.cp.cmdId (some cmd)).2 with ha
  have hoff : a.scActive = false := hactive.trans h.cpOff
  set cp₁ : OsdpCp σ := { w.cp with
    toOsdpLink := osdpPhyStateReset a false
    replyId := replyInvalid
    phyState := .replyWait
    phyTstamp := r.sent.now } with hcp₁
  obtain ⟨l, hgiveUp, hrest, hidle'⟩ :=
    cpRefresh_late aes capp (show cp₁.phyState = .replyWait from rfl) hidle
      (show r.late.now - cp₁.phyTstamp > osdpRespToutMs from hgone) hretry
  have hstep : OsdpLink.InStep l (osdpPhyStateReset (sentReply aes b event).2 false) :=
    hanswers.unheard aes hoff hrest hidle'
  have hlActive : l.scActive = false := (congrArg OsdpLink.scActive hrest :).trans hoff
  have hlId : l.cmdId = w.cp.cmdId := (congrArg OsdpLink.cmdId hrest :).trans hid
  have hpdActive := (idle_put aes b (replyBlock b.scActive (replyDataFor event))
    ((replyFor event).id :: replyDataFor event) hanswers.ring hanswers.waiting).2.1
  have hasked : w.toPd ++ (some (sentCmd aes w.cp.toOsdpLink w.cp.cmdId (some cmd)).1.bytes).getD [] =
      (sentCmd aes w.cp.toOsdpLink w.cp.cmdId (some cmd)).1.bytes := by
    rw [h.toPd]
    rfl
  refine ⟨_, Option.bind_eq_some_iff.2 ⟨_, wireStep_cp h.toCp hsent, Option.bind_eq_some_iff.2
    ⟨_, wireStep_pd hasked htaken, wireStep_cp rfl hgiveUp⟩⟩, ?_, rfl, rfl, rfl, rfl⟩
  refine ⟨.inr rfl, hstep, hlActive, ?_, h.gate, h.cpRoom, h.pdRoom,
    ⟨h.has.id.trans (congrArg some hlId.symm), h.has.kept, h.has.deliverable⟩, rfl, rfl⟩
  exact (hpdActive.trans hanswers.active).trans hoff

/-- However many replies are lost, up to the number of times that the CP asks again, each of them has
the application of the PD carry out the command once more. The CP stays online with the command still
to be sent, and its application has heard nothing. -/
theorem lost_replies {w₀ : OsdpWire σ τ} {rs : List LostReply} (hcommand : papp.command = some f)
    (htakes : ∀ t, (f t cmd).1.1 = 0) (hasking : Asking cmd w₀)
    (hlate : Throughout (lostReply aes capp papp cmdBlocks eventBlocks) LostReply.Late rs w₀) :
    ∃ w, exec (lostReply aes capp papp cmdBlocks eventBlocks) rs w₀ = some w ∧ Asking cmd w ∧
      w.pd.app = (fun t => (f t cmd).2)^[rs.length] w₀.pd.app ∧ w.cp.app = w₀.cp.app ∧
      w.cp.state = w₀.cp.state ∧ w.cp.phyRetryCount = w₀.cp.phyRetryCount + rs.length := by
  induction rs generalizing w₀ with
  | nil => exact ⟨w₀, rfl, hasking, rfl, rfl, rfl, rfl⟩
  | cons r rs ih =>
    obtain ⟨w₁, hstep, hasking₁, hpd, hcp, hstate, hcount⟩ := hasking.lostReply hcommand htakes hlate.1
    obtain ⟨w, hexec, hasking', hpd', hcp', hstate', hcount'⟩ := ih hasking₁ (hlate.2 w₁ hstep)
    refine ⟨w, ?_, hasking', ?_, hcp'.trans hcp, hstate'.trans hstate, ?_⟩
    · rw [exec, hstep]
      exact hexec
    · rw [hpd', hpd]
      rfl
    · rw [hcount', hcount, List.length_cons]
      omega

end Wire

def sampleLed : OsdpCmd := .led 0 1 ⟨0, 0, 0, 0, 0⟩ 0 ⟨1, 1, 0, 2, 2⟩

/-- Both ends are without the channel, and a LED is to be switched. -/
def sampleAsking : Option (OsdpWire (List CpEphemeral) (List OsdpCmd)) :=
  (sampleWire false).map fun w =>
    { w with cp := { w.cp with phyState := .sendCmd, cmdId := cmdLed, ephemeral := .cmd sampleLed } }

theorem asking_sample {w : OsdpWire (List CpEphemeral) (List OsdpCmd)} (h : sampleAsking = some w) :
    Asking sampleLed w := by
  cases h
  exact ⟨.inl rfl, ⟨⟨rfl, rfl, rfl, by decide, rfl⟩, ⟨rfl, rfl, rfl, rfl⟩, ⟨rfl, rfl, rfl, rfl⟩,
    .inr ⟨⟨by decide, by decide⟩, rfl, rfl⟩, nofun⟩, rfl, rfl, rfl, by decide, by decide,
    ⟨rfl, fun c hc => by cases hc; rfl, fun c hc => by cases hc; decide⟩, rfl, rfl⟩

/-- Two replies are lost, and the LED is switched twice. -/
theorem lost_replies_led : ∃ w₀ w, sampleAsking = some w₀ ∧
    exec (lostReply Aes128.aes128 sampleCpApp samplePdApp 4 4)
      [⟨sampleInput, sampleInput, { sampleInput with now := 300 }⟩,
        ⟨{ sampleInput with now := 1200 }, sampleInput, { sampleInput with now := 1500 }⟩] w₀ =
      some w ∧ w.pd.app = [sampleLed, sampleLed] := by
  obtain ⟨w₀, hw₀⟩ := Option.isSome_iff_exists.1 (by decide +kernel : sampleAsking.isSome = true)
  have hlate : ∀ w₀ ∈ sampleAsking,
    Throughout (lostReply Aes128.aes128 sampleCpApp samplePdApp 4 4) LostReply.Late
      [⟨sampleInput, sampleInput, { sampleInput with now := 300 }⟩,
        ⟨{ sampleInput with now := 1200 }, sampleInput, { sampleInput with now := 1500 }⟩] w₀ := by
    decide +kernel
  obtain ⟨w, hexec, -, hpd, -⟩ :=
    lost_replies rfl (fun _ => rfl) (asking_sample hw₀) (hlate w₀ hw₀)
  cases hw₀
  exact ⟨_, w, rfl, hexec, hpd⟩

end LeafReader
