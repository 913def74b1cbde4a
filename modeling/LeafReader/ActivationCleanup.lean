import LeafReader.Pn5180Chip

/-!
# What a failed activation leaves behind

Every exit of `pn5180_iso14443_activate` after the field is on goes through `pn5180_rf_off`, but the one for
`pn5180_rf_on` itself: a command RF_ON whose IRQ does not come in time leaves the field on.
-/

namespace LeafReader

variable {σ : Type}

/-! ### The exits of the activation -/

/-- The commands between RF_ON and the end of the activation relate the chip before and after them. -/
structure ChipOps.Respects (ops : ChipOps σ) (R : σ → σ → Prop) : Prop where
  refl : ∀ s, R s s
  trans : ∀ {s s' s''}, R s s' → R s' s'' → R s s''
  setCrc : ∀ on s, R s (ops.setCrc on s)
  sendData : ∀ data bits s, R s (ops.sendData data bits s).2
  readData : ∀ n s, R s (ops.readData n s).2

namespace ChipOps.Respects

variable {ops : ChipOps σ} {R : σ → σ → Prop} (h : ops.Respects R)
include h

theorem request (frame : Bytes) (bits : UInt8) (n : Nat) (s : σ) :
    R s (ops.request frame bits n s).2 := by
  have hsend := h.sendData frame bits s
  rw [ChipOps.request]
  generalize ops.sendData frame bits s = r at hsend ⊢
  obtain ⟨e, s₁⟩ := r
  dsimp only
  split
  · exact hsend
  have hread := h.readData n s₁
  generalize ops.readData n s₁ = r at hread ⊢
  obtain ⟨_ | data, s₂⟩ := r
  · exact h.trans hsend hread
  · exact h.trans hsend hread

theorem anticollision (sels uid : Bytes) (s : σ) : R s (LeafReader.anticollision ops sels uid s).2 := by
  induction sels generalizing uid s with
  | nil => exact h.refl s
  | cons sel rest ih =>
    have hac := h.request [sel, 0x20] 0 5 s
    rw [LeafReader.anticollision]
    generalize ops.request [sel, 0x20] 0 5 s = r at hac ⊢
    obtain ⟨_ | ac, s₁⟩ := r
    · exact hac
    dsimp only
    split
    · exact hac
    have hsel := h.trans hac (h.trans (h.setCrc true s₁)
      (h.request ([sel, 0x70] ++ ac) 0 1 (ops.setCrc true s₁)))
    generalize ops.request ([sel, 0x70] ++ ac) 0 1 (ops.setCrc true s₁) = r at hsel ⊢
    obtain ⟨_ | sak, s₂⟩ := r
    · exact hsel
    dsimp only
    split
    · exact hsel
    · exact h.trans hsel (h.trans (h.setCrc false s₂) (ih _ _))

theorem rats (s : σ) : R s (LeafReader.rats ops s).2 := by
  have hsend := h.sendData [0xE0, 0x80] 0 s
  rw [LeafReader.rats]
  generalize ops.sendData [0xE0, 0x80] 0 s = r at hsend ⊢
  obtain ⟨e, s₁⟩ := r
  dsimp only
  split
  · exact hsend
  have hread := h.readData 32 s₁
  generalize ops.readData 32 s₁ = r at hread ⊢
  obtain ⟨_ | data, s₂⟩ := r
  · exact h.trans hsend hread
  · exact h.trans hsend hread

/-- The activation fails before the field is on, or comes to a state from which it fails through
`pn5180_rf_off` or succeeds, without or with ISO 14443-4. -/
theorem activate_cases (uidBuf : Nat) (s : σ) :
    let s₁ := (ops.loadRfConfig s).2
    let s₂ := (ops.rfOn s₁).2
    let a := pn5180Iso14443Activate ops uidBuf s
    ((ops.loadRfConfig s).1 ≠ .ok ∧ a = ⟨.error .fail, noCard, s₁⟩) ∨
      ((ops.loadRfConfig s).1 = .ok ∧ (ops.rfOn s₁).1 ≠ .ok ∧ a = ⟨.error .fail, noCard, s₂⟩) ∨
      ((ops.loadRfConfig s).1 = .ok ∧ (ops.rfOn s₁).1 = .ok ∧ ∃ s₃, R s₂ s₃ ∧
        ((∃ e, a = ⟨.error e, noCard, (ops.rfOff s₃).2⟩) ∨
          (∃ found, a = ⟨.ok found, noCard, s₃⟩) ∨
          ∃ found ats, a = ⟨.ok found, activate ats, s₃⟩)) := by
  dsimp only
  rw [pn5180Iso14443Activate]
  dsimp only
  by_cases hload : (ops.loadRfConfig s).1 = .ok
  swap
  · rw [if_pos hload]
    exact .inl ⟨hload, rfl⟩
  rw [if_neg (not_not.2 hload)]
  generalize (ops.loadRfConfig s).2 = s₁
  by_cases hon : (ops.rfOn s₁).1 = .ok
  swap
  · rw [if_pos hon]
    exact .inr (.inl ⟨hload, hon, rfl⟩)
  rw [if_neg (not_not.2 hon)]
  generalize (ops.rfOn s₁).2 = s₂
  refine .inr (.inr ⟨hload, hon, ?_⟩)
  have hreq := h.trans (h.setCrc false s₂) (h.request [0x26] 7 2 (ops.setCrc false s₂))
  generalize ops.request [0x26] 7 2 (ops.setCrc false s₂) = r at hreq ⊢
  obtain ⟨_ | atqa, s₃⟩ := r
  · exact ⟨s₃, hreq, .inl ⟨_, rfl⟩⟩
  dsimp only at hreq ⊢
  have hac := h.trans hreq (h.anticollision cascadeCmds [] s₃)
  generalize LeafReader.anticollision ops cascadeCmds [] s₃ = r at hac ⊢
  obtain ⟨_ | ⟨uid, sak⟩, s₄⟩ := r
  · exact ⟨s₄, hac, .inl ⟨_, rfl⟩⟩
  dsimp only at hac ⊢
  split
  · exact ⟨s₄, hac, .inr (.inl ⟨_, rfl⟩)⟩
  have hrats := h.trans hac (h.rats s₄)
  generalize LeafReader.rats ops s₄ = r at hrats ⊢
  obtain ⟨_ | ats, s₅⟩ := r
  · exact ⟨s₅, hrats, .inl ⟨_, rfl⟩⟩
  · exact ⟨s₅, hrats, .inr (.inr ⟨_, ats, rfl⟩)⟩

end ChipOps.Respects

theorem ChipBus.respects_quiet (bus : ChipBus σ) : bus.chipOps.Respects Quiet :=
  ⟨Quiet.refl, Quiet.trans, bus.setCrc_quiet, bus.sendData_quiet, bus.readData_quiet⟩

/-! ### Cleanup -/

/-- A failed call has closed the link, and every RF_ON of `a.chip.issued` is followed by an RF_OFF; a call
that opened the link has a frame size between 16 and 256 and starts with block 0. -/
def CleanedUp (a : Activation (Wire σ)) : Prop :=
  (∀ e, a.result = .error e → a.card.iso144434Active = false ∧ OffAfterOn a.chip.issued) ∧
    ∀ found, a.result = .ok found → a.card.iso144434Active = true →
      16 ≤ a.card.fscMax.toNat ∧ a.card.fscMax.toNat ≤ 256 ∧ a.card.blockNumber = 0

/-- `pn5180_rf_on` fails in the activation that starts with the chip in `s`: RF_ON or its IRQ does. -/
def RfOnFails (bus : ChipBus σ) (s : σ) : Prop :=
  (bus.chipOps.loadRfConfig ⟨s, []⟩).1 = .ok ∧
    (bus.chipOps.rfOn (bus.chipOps.loadRfConfig ⟨s, []⟩).2).1 ≠ .ok

/-- An activation cleans up exactly if `pn5180_rf_on` does not fail in it. -/
theorem cleanedUp_iff (bus : ChipBus σ) (uidBuf : Nat) (s : σ) :
    CleanedUp (pn5180Iso14443Activate bus.chipOps uidBuf ⟨s, []⟩) ↔ ¬ RfOnFails bus s := by
  rcases bus.respects_quiet.activate_cases uidBuf ⟨s, []⟩ with
    ⟨hload, ha⟩ | ⟨hload, hon, ha⟩ | ⟨hload, hon, w, hq, hend⟩
  · -- nothing but LOAD_RF_CONFIG was issued
    have hoff := (bus.loadRfConfig_quiet 0x00 0x80 ⟨s, []⟩).fieldAfter_eq false
    rw [ha]
    exact ⟨fun _ h => hload h.1, fun _ => ⟨fun _ _ => ⟨rfl, offAfterOn_iff.2 hoff⟩, nofun⟩⟩
  · -- RF_ON was the last command that concerns the field
    have hfield := bus.fieldAfter_rfOn (bus.chipOps.loadRfConfig ⟨s, []⟩).2 false
    rw [ha]
    refine ⟨fun h => ?_, fun h => absurd ⟨hload, hon⟩ h⟩
    have hoff := offAfterOn_iff.1 (h.1 _ rfl).2
    exact absurd (hfield.symm.trans hoff) (by decide)
  · refine ⟨fun _ h => h.2 hon, fun _ => ?_⟩
    rcases hend with ⟨e, ha⟩ | ⟨found, ha⟩ | ⟨found, ats, ha⟩
    · rw [ha]
      exact ⟨fun _ _ => ⟨rfl, offAfterOn_iff.2 (bus.fieldAfter_rfOff w false)⟩, nofun⟩
    · rw [ha]
      exact ⟨nofun, nofun⟩
    · rw [ha]
      exact ⟨nofun, fun _ _ _ => ⟨(fscOfAts_bounds ats).1, (fscOfAts_bounds ats).2, rfl⟩⟩

/-- A chip that takes every command and raises no IRQ. -/
def silentBus : ChipBus Unit := ⟨fun _ n _ => (.ok (.replicate n 0), ()), fun _ _ => 0⟩

/-- RF_ON is issued, its IRQ does not come, and RF_OFF is not issued. -/
theorem not_cleanedUp_silentBus :
    (pn5180Iso14443Activate silentBus.chipOps 10 ⟨(), []⟩).result = .error .fail ∧
      (pn5180Iso14443Activate silentBus.chipOps 10 ⟨(), []⟩).chip.issued =
        [[0x11, 0x00, 0x80], [0x16, 0x01], [0x04, 0x02]] ∧
      ¬ CleanedUp (pn5180Iso14443Activate silentBus.chipOps 10 ⟨(), []⟩) := by
  refine ⟨rfl, rfl, fun h => ?_⟩
  obtain ⟨f, hf, hoff⟩ := (h.1 .fail rfl).2.2.1 rfl
  obtain rfl := List.mem_singleton.1 hf
  cases hoff

end LeafReader
