import LeafReader.OsdpCp
import LeafReader.OsdpRound

/-!
# What a step of the CP leaves alone

The state machine of the CP looks at a few fields only: its state, the command that is going on, the
request to begin the channel anew, and whether the channel is active. Receiving and sending leave
them as they are, but that a packet that is refused may end the channel.
-/

namespace LeafReader

/-! ### The channel stays active -/

section Link

variable {aes : Aes} {l l' : OsdpLink}

end Link

/-! ### Fields that a step keeps -/

section Cp

variable {σ : Type} {aes : Aes} {app : CpApp σ} {io : CpInput} {cp cp' : OsdpCp σ}

/-- The fields that the state machine goes by, without the state of the exchange. -/
def OsdpCp.control (cp : OsdpCp σ) : CpState × Bool × Bool × Bool × UInt8 × List (Bool × OsdpCmd) :=
  (cp.state, cp.enforceSecure, cp.reqRestartSc, cp.pdMode, cp.cmdId, cp.cmdQueue)

/-- `cp'` is `cp` after an exchange has gone on: the state machine has not. -/
structure CpKept (cp cp' : OsdpCp σ) : Prop where
  control : cp'.control = cp.control
  active : cp'.scActive = true → cp.scActive = true

theorem CpKept.refl (cp : OsdpCp σ) : CpKept cp cp := ⟨rfl, fun h => h⟩

theorem CpKept.trans {a b c : OsdpCp σ} (h : CpKept a b) (h' : CpKept b c) : CpKept a c :=
  ⟨h'.1.trans h.1, fun hc => h.2 (h'.2 hc)⟩

/-- A reply leaves the state machine, the session's being active and the state of the exchange as
they are. -/
structure CpDecoded (cp cp' : OsdpCp σ) : Prop where
  control : cp'.control = cp.control
  active : cp'.scActive = cp.scActive
  phyState : cp'.phyState = cp.phyState

/-- The security blocks of the packets that no MAC covers. -/
def HandBlock (scb : Bytes) : Prop := scb = [] ∨ ∃ t k, scb = [3, t, k] ∧ t ≤ scs14

/-- What is built for a command: the state machine does not go on, and outside of the handshake the
link stays as it is and the security block as it was begun. The message begins with the command, or
gives up a file. -/
structure CpBuilt (cp cp' : OsdpCp σ) (smb smb' : Bytes) (msg : Option Bytes) : Prop where
  decoded : CpDecoded cp cp'
  link : cp.cmdId ≠ cmdScrypt → cp'.toOsdpLink = cp.toOsdpLink
  mark : cp'.pktHasMark = cp.pktHasMark
  kept : cp.cmdId ≠ cmdChlng → cp.cmdId ≠ cmdScrypt → smb' = smb
  hand : HandBlock smb → HandBlock smb' ∧ smb'.length = smb.length
  msg : ∀ m, msg = some m → ∃ id data, m = id :: data ∧
    (id = cp.cmdId ∨ cp.cmdId = cmdFiletransfer ∧ id = cmdAbort)

theorem CpBuilt.same {smb : Bytes} (data : Bytes) : CpBuilt cp cp smb smb (some (cp.cmdId :: data)) :=
  ⟨⟨rfl, rfl, rfl⟩, fun _ => rfl, rfl, fun _ _ => rfl, fun h => ⟨h, rfl⟩,
    fun _ h => ⟨_, _, (Option.some.inj h).symm, .inl rfl⟩⟩

theorem CpBuilt.refused (cp : OsdpCp σ) (smb : Bytes) : CpBuilt cp cp smb smb none :=
  ⟨⟨rfl, rfl, rfl⟩, fun _ => rfl, rfl, fun _ _ => rfl, fun h => ⟨h, rfl⟩, nofun⟩

theorem CpDecoded.trans {a b c : OsdpCp σ} (h : CpDecoded a b) (h' : CpDecoded b c) : CpDecoded a c :=
  ⟨h'.1.trans h.1, h'.2.trans h.2, h'.3.trans h.3⟩

theorem cpNotify_eq (app : CpApp σ) (type arg0 arg1 : ℕ) (cp : OsdpCp σ) :
    ∃ s, cpNotify app type arg0 arg1 cp = { cp with app := s } := by
  unfold cpNotify
  split
  · exact ⟨cp.app, rfl⟩
  · split
    · exact ⟨_, rfl⟩
    · exact ⟨cp.app, rfl⟩

theorem notifyCommandStatus_eq (app : CpApp σ) (status : Bool) (cp : OsdpCp σ) :
    ∃ s, notifyCommandStatus app status cp = { cp with app := s } := by
  unfold notifyCommandStatus
  dsimp only
  split
  · exact ⟨cp.app, rfl⟩
  · exact cpNotify_eq ..

/-- What the application hears of a command depends on the command and its reply alone. -/
theorem notifyCommandStatus_congr (status : Bool) (hid : cp'.cmdId = cp.cmdId)
    (hreply : cp'.replyId = cp.replyId)
    (hwants : cp'.enableNotification = cp.enableNotification) (happ : cp'.app = cp.app) {s : σ}
    (h : notifyCommandStatus app status cp = { cp with app := s }) :
    notifyCommandStatus app status cp' = { cp' with app := s } := by
  have hnotify (type arg0 arg1 : ℕ) :
      (cpNotify app type arg0 arg1 cp').app = (cpNotify app type arg0 arg1 cp).app := by
    unfold cpNotify
    split
    · exact happ
    · rename_i callback _
      by_cases hon : cp.enableNotification = true
      · rw [if_pos hon, if_pos (hwants.trans hon)]
        exact congrArg (fun s => callback s (.event (.notification type arg0 arg1))) happ
      · rw [if_neg hon, if_neg (fun hno => hon (hwants.symm.trans hno))]
        exact happ
  have hsame : (notifyCommandStatus app status cp').app = (notifyCommandStatus app status cp).app := by
    unfold notifyCommandStatus
    rw [hid, hreply]
    dsimp only
    split
    · exact happ
    · exact hnotify _ _ _
  obtain ⟨s', hs'⟩ := notifyCommandStatus_eq app status cp'
  rw [hs', h] at hsame
  rw [hs', show s' = s from hsame]

end Cp

end LeafReader
