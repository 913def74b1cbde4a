import LeafReader.Aes128
import LeafReader.OsdpPdSteps

/-!
# How a secure channel begins

The PD activates the secure channel when it answers `CMD_SCRYPT`, if the cryptogram fits the session
keys and random numbers that it holds. `PdSession` is what holds of them in every state of every
run: where the channel is active, the cryptogram fits, and the keys come from a key that the PD once
had, or are all zero, as they are from the set-up or a `CMD_CHLNG` on until the reply is built.
-/

namespace LeafReader

/-- The session keys that `CMD_CHLNG` and its reply make out of the base key `k`. -/
structure SessionKeys (aes : Aes) (k : Block) (sc : OsdpSecureChannel) : Prop where
  sEnc : sc.sEnc = aes.enc k (sessionKeyInput 0x82 sc.cpRandom)
  sMac1 : sc.sMac1 = aes.enc k (sessionKeyInput 0x01 sc.cpRandom)
  sMac2 : sc.sMac2 = aes.enc k (sessionKeyInput 0x02 sc.cpRandom)

/-- The session keys are all zero: none have been computed since the set-up or the last `CMD_CHLNG`. -/
structure NoKeys (sc : OsdpSecureChannel) : Prop where
  sEnc : sc.sEnc = .zero
  sMac1 : sc.sMac1 = .zero
  sMac2 : sc.sMac2 = .zero

/-- The session keys are made out of a key that was held, or are all zero. -/
def KeysFrom (aes : Aes) (held : Block → Prop) (sc : OsdpSecureChannel) : Prop :=
  NoKeys sc ∨ ∃ k, held k ∧ SessionKeys aes k sc

/-- The session of the PD; `held` tells the base keys that it has had. -/
structure PdSession {σ : Type} (aes : Aes) (held : Block → Prop) (pd : OsdpPd σ) : Prop where
  proof : pd.scActive = true → pd.sc.cpCryptogram = cpCryptogramOf aes pd.sc
  fresh : pd.reply = .ccrypt → pd.scActive = false
  keys : KeysFrom aes held pd.sc
  scbkd : pd.scUseScbkd = true → pd.installMode = true
  scbk : held pd.sc.scbk
  default : pd.installMode = true → held osdpScbkDefault

section Session

variable {σ : Type} {aes : Aes} {app : PdApp σ} {io : PdInput} {held : Block → Prop} {pd pd' : OsdpPd σ}

theorem KeysFrom.of_eq {a b : OsdpSecureChannel} (hk : KeysFrom aes held a) (hEnc : b.sEnc = a.sEnc)
    (hMac1 : b.sMac1 = a.sMac1) (hMac2 : b.sMac2 = a.sMac2) (hrandom : b.cpRandom = a.cpRandom) :
    KeysFrom aes held b := by
  rcases hk with hk | ⟨k, hheld, hk⟩
  · exact .inl ⟨hEnc.trans hk.1, hMac1.trans hk.2, hMac2.trans hk.3⟩
  · refine .inr ⟨k, hheld, ?_, ?_, ?_⟩
    · rw [hEnc, hrandom, hk.1]
    · rw [hMac1, hrandom, hk.2]
    · rw [hMac2, hrandom, hk.3]

theorem KeysFrom.of_session {a b : OsdpSecureChannel} (hk : KeysFrom aes held a)
    (h : b.session = a.session) :
    KeysFrom aes held b :=
  hk.of_eq (congrArg OsdpSecureChannel.sEnc h :) (congrArg OsdpSecureChannel.sMac1 h :)
    (congrArg OsdpSecureChannel.sMac2 h :) (congrArg OsdpSecureChannel.cpRandom h :)

theorem KeysFrom.mono {sc : OsdpSecureChannel} (hk : KeysFrom aes held sc) {held' : Block → Prop}
    (hle : ∀ k, held k → held' k) : KeysFrom aes held' sc := by
  rcases hk with hk | ⟨k, hheld, hk⟩
  · exact .inl hk
  · exact .inr ⟨k, hle k hheld, hk⟩

theorem proof_congr {a b : OsdpSecureChannel} (h : b.session = a.session)
    (hp : a.cpCryptogram = cpCryptogramOf aes a) : b.cpCryptogram = cpCryptogramOf aes b := by
  have hb : b.session.cpCryptogram = cpCryptogramOf aes b.session := by
    rw [h]
    exact hp
  exact hb

namespace PdSession

theorem received (h : PdSession aes held pd) {l : OsdpLink} (hl : pd.toOsdpLink.Received l) :
    PdSession aes held { pd with toOsdpLink := l } where
  proof hc := proof_congr hl.session (h.proof (hl.active hc))
  fresh hr := by
    have hoff := h.fresh hr
    rcases hc : l.scActive with _ | _
    · rfl
    · rw [hl.active hc] at hoff
      cases hoff
  keys := h.keys.of_session hl.session
  scbkd hu := by
    show l.installMode = true
    rw [hl.installMode]
    rcases hl.scbkd hu with hu | hi
    · exact h.scbkd hu
    · exact hi
  scbk := by
    show held l.sc.scbk
    rw [hl.scbk]
    exact h.scbk
  default hi := h.default (hl.installMode ▸ hi)

theorem handled (h : PdSession aes held pd) (hh : Handled pd pd') (hr : pd.reply.handshake = false) :
    PdSession aes held pd' where
  proof hc := by
    rw [hh.link] at hc ⊢
    exact h.proof hc
  fresh hcc := by
    rw [hh.reply (by rw [hcc]; rfl)] at hr
    cases hr
  keys := by
    rw [hh.link]
    exact h.keys
  scbkd hu := by
    rw [hh.link] at hu ⊢
    exact h.scbkd hu
  scbk := by
    rw [hh.link]
    exact h.scbk
  default hi := by
    rw [hh.link] at hi
    exact h.default hi

theorem mono (h : PdSession aes held pd) {held' : Block → Prop} (hle : ∀ k, held k → held' k) :
    PdSession aes held' pd where
  proof := h.proof
  fresh := h.fresh
  keys := h.keys.mono hle
  scbkd := h.scbkd
  scbk := hle _ h.scbk
  default hi := hle _ (h.default hi)

end PdSession

/-! ### Commands -/

/-- What a step of the PD leaves of the session counts for a PD with the same link and the same
reply. -/
theorem PdSession.congr (h : PdSession aes held pd) (hlink : pd'.toOsdpLink = pd.toOsdpLink)
    (hreply : pd'.reply = pd.reply) : PdSession aes held pd' where
  proof hc := by
    rw [hlink] at hc ⊢
    exact h.proof hc
  fresh hcc := by
    rw [hlink]
    exact h.fresh (hreply ▸ hcc)
  keys := by
    rw [hlink]
    exact h.keys
  scbkd hu := by
    rw [hlink] at hu ⊢
    exact h.scbkd hu
  scbk := by
    rw [hlink]
    exact h.scbk
  default hi := by
    rw [hlink] at hi
    exact h.default hi

end Session

end LeafReader
