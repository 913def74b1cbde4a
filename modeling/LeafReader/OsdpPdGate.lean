import LeafReader.Aes128
import LeafReader.OsdpPdSteps

/-!
# A PD that enforces the secure channel

Such a PD takes four commands before there is a channel: those for its identity and its
capabilities, and the two of the handshake. `Gated` is what holds of it until the first channel:
apart from the session and the receiver it is as it was when it was set up, and nothing has been
asked of the application.
-/

namespace LeafReader

/-- The replies to the commands that are allowed without a secure channel, and a refusal. -/
def PdReply.gated : PdReply → Bool
  | .nak _ | .pdid | .pdcap | .ccrypt | .rmacI => true
  | _ => false

section Gate

variable {σ : Type} {aes : Aes} {app : PdApp σ} {io : PdInput} {pd pd' pd₀ : OsdpPd σ}

/-- The PD without its session, its receiver and its reply. -/
def OsdpPd.shell (pd : OsdpPd σ) : OsdpPd σ :=
  { pd with
    toOsdpLink := { pd.toOsdpLink.withoutPkt with
      cmdId := 0, sc := { OsdpSecureChannel.zero with scbk := pd.sc.scbk } }
    reply := .ack
    scTstamp := 0 }

theorem shell_of_received {l : OsdpLink} (h : pd.toOsdpLink.Received l) :
    ({ pd with toOsdpLink := l } : OsdpPd σ).shell = pd.shell := by
  unfold OsdpPd.shell
  simp only [h.rest, h.scbk]

/-- `pd'` is `pd` after something that is allowed without a secure channel. -/
structure Gated (pd pd' : OsdpPd σ) : Prop where
  shell : pd'.shell = pd.shell
  reply : pd'.reply.gated = true

theorem gated_with_reply (pd : OsdpPd σ) {r : PdReply} (hr : r.gated = true) : Gated pd
    { pd with reply := r } :=
  ⟨rfl, hr⟩

theorem Gated.trans {a b c : OsdpPd σ} (h : a.shell = b.shell) (h' : Gated b c) : Gated a c :=
  ⟨h'.1.trans h.symm, h'.2⟩

theorem gated_pdCmdCapOk (hr : pd.reply.gated = true) : Gated pd (pdCmdCapOk pd none).2 := by
  unfold pdCmdCapOk
  split
  · exact ⟨rfl, hr⟩
  · split <;> exact gated_with_reply pd rfl

theorem gated_pdReport {r : PdReply} (hr : pd.reply.gated = true) (hr' : r.gated = true) (data : Bytes) :
    Gated pd (pdReport r pd data).2 := by
  unfold pdReport
  split
  · exact ⟨rfl, hr⟩
  · exact gated_with_reply pd hr'

theorem gated_pdChlng (hr : pd.reply.gated = true) (data : Bytes) : Gated pd (pdChlng pd data).2 := by
  have hcap := gated_pdCmdCapOk hr
  unfold pdChlng
  split
  · exact ⟨rfl, hr⟩
  · split
    · rename_i hc
      exact congrArg Prod.snd hc ▸ hcap
    · rename_i hc
      rw [hc] at hcap
      exact ⟨hcap.shell ▸ rfl, rfl⟩

theorem gated_pdScrypt (hr : pd.reply.gated = true) (data : Bytes) : Gated pd (pdScrypt pd data).2 := by
  have hcap := gated_pdCmdCapOk hr
  unfold pdScrypt
  split
  · exact ⟨rfl, hr⟩
  · split
    · rename_i hc
      exact congrArg Prod.snd hc ▸ hcap
    · rename_i hc
      rw [hc] at hcap
      split
      · exact ⟨hcap.shell, rfl⟩
      · exact ⟨hcap.shell ▸ rfl, rfl⟩

/-- Without a channel, a PD that enforces one carries out no other command. -/
theorem gated_pdDecodeCommand {id : UInt8} {data : Bytes}
    {r : PdErr × OsdpPd σ} (henforce : pd.enforceSecure = true)
    (hoff : pd.scActive = false) (hdec : pdDecodeCommand app pd id data = some r) : Gated pd r.2 := by
  set pd₀ : OsdpPd σ := { pd with reply := .nak nakRecord, cmdId := id } with hpd₀
  have hshell : pd.shell = pd₀.shell := rfl
  have hreply : pd₀.reply.gated = true := rfl
  unfold pdDecodeCommand at hdec
  rw [← hpd₀] at hdec
  dsimp only at hdec
  split at hdec
  · cases hdec
    exact ⟨rfl, rfl⟩
  · rename_i hopen
    split at hdec
    · cases hdec
      exact ⟨rfl, rfl⟩
    · rename_i handler hlook
      obtain ⟨⟨ret, pd₁⟩, hhandler, hmap⟩ := Option.map_eq_some_iff.1 hdec
      have h₁ : Gated pd pd₁ := by
        refine .trans hshell ?_
        have hid : openCmd id = true := by
          by_contra hno
          exact hopen ⟨henforce, by rw [show pd₀.scActive = false from hoff]; rfl, by simpa using hno⟩
        have hids : id = cmdId ∨ id = cmdCap ∨ id = cmdChlng ∨ id = cmdScrypt := of_decide_eq_true hid
        rcases hids with rfl | rfl | rfl | rfl
        · have hdone := gated_pdReport (r := .pdid) hreply rfl data
          cases hlook
          rw [Option.some.inj hhandler] at hdone
          exact hdone
        · have hdone := gated_pdReport (r := .pdcap) hreply rfl data
          cases hlook
          rw [Option.some.inj hhandler] at hdone
          exact hdone
        · have hdone := gated_pdChlng hreply data
          cases hlook
          rw [Option.some.inj hhandler] at hdone
          exact hdone
        · have hdone := gated_pdScrypt hreply data
          cases hlook
          rw [Option.some.inj hhandler] at hdone
          exact hdone
      rcases ret with _ | _ | _ | _ | _ | _ <;> cases hmap
      · exact h₁
      · exact h₁
      · exact ⟨h₁.shell, rfl⟩
      · exact h₁
      · exact h₁
      · exact h₁

theorem gated_pdReplyData {maxLen : ℕ} {smb : Bytes} {r : Option Bytes × Bytes × OsdpPd σ}
    (hr : pd.reply.gated = true)
    (hdata : pdReplyData aes app io pd maxLen smb = some r) : Gated pd r.2.2 := by
  have hkeep {need : ℕ} {d : Option Bytes}
      (hg : guarded need maxLen (d, smb, pd) = some r) : Gated pd r.2.2 :=
    guarded_eq_some hg ▸ ⟨rfl, hr⟩
  unfold pdReplyData at hdata
  rcases hreply : pd.reply with _ | code | _ | _ | _ | _ | _ | _ | _ | _ | _ | _ | _ | _ | _ | _
  case nak | pdid | pdcap =>
    rw [hreply] at hdata
    exact hkeep hdata
  case ccrypt =>
    rw [hreply] at hdata
    dsimp only at hdata
    split at hdata
    · cases hdata
      exact ⟨rfl, hr⟩
    · rw [guarded_eq_some hdata]
      exact ⟨rfl, rfl⟩
  case rmacI =>
    rw [hreply] at hdata
    dsimp only at hdata
    split at hdata
    · cases hdata
      exact ⟨rfl, hr⟩
    · rw [guarded_eq_some hdata]
      split <;> exact ⟨rfl, rfl⟩
  all_goals
    rw [hreply] at hr
    cases hr

theorem gated_pdBuildReply {maxLen : ℕ} {smb : Bytes} {r : Bytes × Bytes × OsdpPd σ}
    (hr : pd.reply.gated = true)
    (hbuild : pdBuildReply aes app io pd maxLen smb = some r) : Gated pd r.2.2 := by
  unfold pdBuildReply at hbuild
  split at hbuild
  · cases hbuild
  · rename_i hdata
    have hkept := gated_pdReplyData hr hdata
    dsimp only at hbuild
    split at hbuild
    · cases hbuild
      exact hkept
    · rw [guarded_eq_some hbuild]
      exact hkept

theorem gated_pdSendReply {r : Option Bytes × OsdpPd σ} (hr : pd.reply.gated = true)
    (hsend : pdSendReply aes app io pd = some r) : Gated pd r.2 := by
  obtain ⟨l, hl, rfl | ⟨maxLen, smb, b, l', hbuild, hl', hb⟩⟩ := pdSendReply_cases hsend
  · exact ⟨shell_of_received hl, hr⟩
  · have hbuilt := gated_pdBuildReply
      (show ({ pd with toOsdpLink := l } : OsdpPd σ).reply.gated = true from hr) hbuild
    rw [hb]
    exact ⟨(shell_of_received hl'.received).trans (hbuilt.shell.trans (shell_of_received hl)),
      hbuilt.reply⟩

theorem pdReplySent_gated (hr : pd.reply.gated = true) : pdReplySent app pd = pd := by
  unfold pdReplySent
  split
  · rename_i hreply
    rw [hreply] at hr
    cases hr
  · rename_i hreply
    rw [hreply] at hr
    cases hr
  · rfl

/-- An update of a PD that enforces a secure channel and has none. -/
theorem gated_osdpPdUpdate {r : Option Bytes × OsdpPd σ} (henforce : pd.enforceSecure = true)
    (hoff : pd.scActive = false)
    (hr : pd.reply.gated = true) (hupdate : osdpPdUpdate aes app io pd = some r) :
    Gated pd r.2 := by
  have hstill {l : OsdpLink} (h : pd.toOsdpLink.Received l) : l.scActive = false := by
    by_contra hon
    rw [h.active (by simpa using hon)] at hoff
    cases hoff
  obtain ⟨l, ret, pd₁, hl, hrecv, hcases⟩ := osdpPdUpdate_cases hupdate
  have hlshell : OsdpPd.shell { pd with toOsdpLink := l } = pd.shell := shell_of_received hl
  have hgated₁ : Gated pd pd₁ := by
    obtain ⟨l', hl', ⟨code, heq⟩ | heq | ⟨id, data, hdec⟩⟩ := pdReceive_cases hrecv
    · cases heq
      exact ⟨shell_of_received (hl.trans hl'), rfl⟩
    · rw [show pd₁ = _ from heq]
      exact ⟨shell_of_received (hl.trans hl'), hr⟩
    · have hdone := gated_pdDecodeCommand
        (show ({ pd with toOsdpLink := l' } : OsdpPd σ).enforceSecure = true from henforce)
        (hstill (hl.trans hl')) hdec
      exact ⟨hdone.shell.trans (shell_of_received (hl.trans hl')), hdone.reply⟩
  rcases hcases with rfl | rfl | ⟨-, t, frame, pd₂, hsend, hdone⟩
  · exact hgated₁
  · exact ⟨(shell_of_received ((OsdpLink.received_scDeactivate _).trans
      (OsdpLink.received_osdpPhyStateReset _))).trans hgated₁.shell, hgated₁.reply⟩
  · have hsent := gated_pdSendReply
      (show ({ pd₁ with scTstamp := t } : OsdpPd σ).reply.gated = true from hgated₁.reply) hsend
    have hshell : pd₂.shell = pd.shell := hsent.shell.trans hgated₁.shell
    rcases hdone with ⟨-, rfl⟩ | ⟨bytes, -, rfl⟩
    · exact ⟨(shell_of_received (OsdpLink.received_osdpPhyStateReset _)).trans hshell, hsent.reply⟩
    · rw [pdReplySent_gated hsent.reply]
      exact ⟨(shell_of_received (OsdpLink.received_osdpPhyStateReset _)).trans hshell, hsent.reply⟩

/-! ### Runs -/

/-- The events that wait after the operations, when none is sent. -/
def queueAfter (blocks : ℕ) (queue : List OsdpEvent) : PdOp → List OsdpEvent
  | .submitEvent event => if queue.length < blocks then queue ++ [event] else queue
  | .flushEvents => []
  | _ => queue

/-- The PD after the operations of a run so far, none of which has found a secure channel. -/
structure Waiting (blocks : ℕ) (pd₀ : OsdpPd σ) (ops : List PdOp) (pd : OsdpPd σ) : Prop where
  shell : pd.shell = { pd₀.shell with eventQueue := pd.eventQueue, cap := pd.cap }
  reply : pd.reply.gated = true
  queue : pd.eventQueue = ops.foldl (queueAfter blocks) pd₀.eventQueue

theorem Waiting.step {blocks : ℕ} {ops : List PdOp} {op : PdOp} (h : Waiting blocks pd₀ ops pd)
    (henforce : pd₀.enforceSecure = true) (hoff : pd.scActive = false)
    (hstep : op.step aes app blocks pd = some pd') : Waiting blocks pd₀ (ops ++ [op]) pd' := by
  have henforce' : pd.enforceSecure = true := (congrArg OsdpPd.enforceSecure h.shell :).trans henforce
  have hqueue : (ops ++ [op]).foldl (queueAfter blocks) pd₀.eventQueue =
      queueAfter blocks pd.eventQueue op := by
    rw [List.foldl_append, ← h.queue]
    rfl
  rcases op with ⟨io, bytes⟩ | event | _ | table
  · obtain ⟨r, hr, rfl⟩ := Option.map_eq_some_iff.1 hstep
    set pd₁ : OsdpPd σ := { pd with rxWaiting := pd.rxWaiting ++ bytes }
    have hdone := gated_osdpPdUpdate (show pd₁.enforceSecure = true from henforce') hoff h.reply hr
    have hevents : r.2.eventQueue = pd.eventQueue := (congrArg OsdpPd.eventQueue hdone.shell :)
    have hcap : r.2.cap = pd.cap := (congrArg OsdpPd.cap hdone.shell :)
    refine ⟨?_, hdone.reply, ?_⟩
    · rw [hevents, hcap, ← h.shell]
      exact hdone.shell
    · rw [hqueue, hevents]
      rfl
  · cases hstep
    rw [osdpPdSubmitEvent]
    split
    · rename_i hroom
      refine ⟨?_, h.reply, ?_⟩
      · exact congrArg (fun p => { p with eventQueue := pd.eventQueue ++ [event] }) h.shell
      · rw [hqueue]
        exact (if_pos hroom).symm
    · rename_i hfull
      refine ⟨h.shell, h.reply, ?_⟩
      rw [hqueue]
      exact (if_neg hfull).symm
  · cases hstep
    exact ⟨congrArg (fun p => { p with eventQueue := [] }) h.shell, h.reply, hqueue.symm⟩
  · cases hstep
    refine ⟨congrArg (fun p => { p with cap := osdpPdSetAttributes pd.cap table }) h.shell, h.reply, ?_⟩
    rw [hqueue]
    rfl

/-- Up to the moment when the first secure channel begins, whatever has come on the line, a PD that
enforces one has asked nothing of the application, has taken no key, address or speed, has sent no
event and taken no file. -/
theorem pdRun_gated {blocks : ℕ} {info : OsdpPdInfo} {s : σ} {ops : List PdOp}
    (hsetup : osdpPdSetup info s = some pd₀) (henforce : info.enforceSecure = true)
    (hrun : pdRun aes app blocks ops pd₀ = some pd)
    (hoff : ∀ ops' pd', ops' <+: ops → ops' ≠ ops → pdRun aes app blocks ops' pd₀ = some pd' →
      pd'.scActive = false) :
    pd.app = s ∧ pd.sc.scbk = info.scbk.getD .zero ∧ pd.installMode = info.installMode ∧
      pd.address = info.address ∧ pd.baudRate = info.baudRate ∧ pd.peerRxSize = 0 ∧ pd.file = .reset ∧
      pd.eventQueue = ops.foldl (queueAfter blocks) [] := by
  unfold osdpPdSetup at hsetup
  split at hsetup
  · cases hsetup
  · rename_i hkey
    rw [Option.some.injEq] at hsetup
    have henforce₀ : pd₀.enforceSecure = true := by rw [← hsetup]; exact henforce
    have hinit : Waiting blocks pd₀ [] pd₀ := ⟨rfl, by rw [← hsetup]; rfl, rfl⟩
    have hwait : Waiting blocks pd₀ ops pd := by
      refine pdRun_induction (P := fun ops pd => (∀ ops' pd', ops' <+: ops → ops' ≠ ops →
        pdRun aes app blocks ops' pd₀ = some pd' → pd'.scActive = false) → Waiting blocks pd₀ ops pd)
        (fun _ => hinit) ?_ hrun hoff
      intro ops op pd pd' hrun' _ hstep ih hoff'
      have hne : ops ≠ ops ++ [op] := by simp
      have hbefore := ih fun ops' pd'' hpre hne' =>
        hoff' ops' pd'' (hpre.trans (List.prefix_append ..)) fun heq => by
          have hlen := hpre.length_le
          rw [heq, List.length_append] at hlen
          exact absurd hlen (by simp)
      exact hbefore.step henforce₀ (hoff' ops pd (List.prefix_append ..) hne hrun') hstep
    have hnone : info.scbk.isNone = false := by
      by_contra hno
      exact hkey ⟨by simpa using hno, henforce⟩
    have hshell := hwait.shell
    rw [← hsetup] at hshell
    refine ⟨(congrArg OsdpPd.app hshell :), (congrArg (fun pd => pd.sc.scbk) hshell :), ?_,
      (congrArg (fun pd => pd.address) hshell :), (congrArg OsdpPd.baudRate hshell :),
      (congrArg OsdpPd.peerRxSize hshell :), (congrArg OsdpPd.file hshell :), ?_⟩
    · have hmode : pd.installMode = (info.installMode || info.scbk.isNone) :=
        (congrArg (fun pd => pd.installMode) hshell :)
      rw [hmode, hnone, Bool.or_false]
    · rw [hwait.queue, ← hsetup]

/-- An event is kept while the PD is polled in the clear. -/
theorem pdRun_gated_polled : ∃ pd₀ pd, osdpPdSetup (samplePdInfo true) [] = some pd₀ ∧
    pdRun Aes128.aes128 samplePdApp 4 [.submitEvent (.keypress 0 [0x31]),
      .refresh sampleInput (OsdpFrame.mk true 1 4 [] [cmdPoll] []).bytes] pd₀ = some pd ∧
    pd.app = [] ∧ pd.eventQueue = [.keypress 0 [0x31]] := by
  have hoff : ∀ pd₀ ∈ osdpPdSetup (samplePdInfo true) ([] : List OsdpCmd), ∀ ops' ∈ List.inits
      [.submitEvent (.keypress 0 [0x31]),
        .refresh sampleInput (OsdpFrame.mk true 1 4 [] [cmdPoll] []).bytes],
      ∀ pd' ∈ pdRun Aes128.aes128 samplePdApp 4 ops' pd₀, pd'.scActive = false := by decide +kernel
  have hruns : (do
      let pd₀ ← osdpPdSetup (samplePdInfo true) ([] : List OsdpCmd)
      pdRun Aes128.aes128 samplePdApp 4 [.submitEvent (.keypress 0 [0x31]),
        .refresh sampleInput (OsdpFrame.mk true 1 4 [] [cmdPoll] []).bytes] pd₀).isSome =
          true := by decide +kernel
  obtain ⟨pd, hruns⟩ := Option.isSome_iff_exists.1 hruns
  obtain ⟨pd₀, hsetup, hrun⟩ := Option.bind_eq_some_iff.1 hruns
  obtain ⟨happ, -, -, -, -, -, -, hqueue⟩ := pdRun_gated hsetup rfl hrun fun ops' pd' hpre _ hrun' =>
    hoff pd₀ hsetup ops' (List.mem_inits _ _ |>.2 hpre) pd' hrun'
  exact ⟨pd₀, pd, hsetup, hrun, happ, hqueue⟩

end Gate

end LeafReader
