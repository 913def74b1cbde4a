import LeafReader.Aes128
import LeafReader.OsdpCpSteps

/-!
# A CP that enforces the secure channel

`CpSafe` is what holds of the CP between two updates, whatever has come on the line. The channel is
active in two states only; a CP that enforces it is online only with it, and the key of a PD is set
only under it.
-/

namespace LeafReader

section Cp

variable {σ : Type} {aes : Aes} {app : CpApp σ} {io : CpInput} {cp cp' : OsdpCp σ} {e : Bool}

/-- What the end of an update begins with: an exchange has been judged, or there is none. -/
structure CpJudged (e err : Bool) (cp : OsdpCp σ) : Prop where
  mode : cp.pdMode = false
  enforce : cp.enforceSecure = e
  phy : cp.phyState = .idle
  active : cp.scActive = true → cp.state = .setScbk ∨ cp.state = .online
  restart : cp.reqRestartSc = true → cp.state = .online ∧ cp.scActive = false
  secure : err = false → e = true → cp.state = .online → cp.scActive = true ∨ cp.reqRestartSc = true

/-- The state that comes next, before the requests are looked at. -/
structure CpNext (e : Bool) (cp : OsdpCp σ) (next : CpState) (cp' : OsdpCp σ) : Prop where
  mode : cp'.pdMode = false
  phy : cp'.phyState = .idle
  state : cp'.state = cp.state
  enforce : cp'.enforceSecure = e
  restart : cp'.reqRestartSc = true → cp.state = .online ∧ cp'.scActive = false
  setScbk : next = .setScbk → cp'.scActive = true
  secure : e = true → next = .online → cp'.scActive = true ∨ cp'.reqRestartSc = true
  active : cp'.scActive = true → cp.state ≠ .offline ∧
    (next = .setScbk ∨ next = .online ∨ next = .offline)

/-- The CP goes offline, or back to the handshake without a channel, or stays as it is. -/
theorem CpJudged.offline {err : Bool} (h : CpJudged e err cp) (hstate : cp.state ≠ .offline) :
    CpNext e cp .offline cp :=
  ⟨h.mode, h.phy, rfl, h.enforce, h.restart, nofun, fun _ => nofun, fun _ => ⟨hstate, .inr (.inr rfl)⟩⟩

end Cp

end LeafReader
