import LeafReader.FindTarget

/-!
# The commands of the PN5180 (`pn5180_spi.c`, `pn5180_transceive.c`)

The driver's functions down to `pn5180_send_command`, whose outcome is the chip's to choose. The
wire keeps the frames of the commands that were issued, and `chipOps` is the chip as
`pn5180_iso14443_activate` sees it through these functions.
-/

namespace LeafReader

variable {σ : Type}

/-- The chip behind `pn5180_send_command`: a frame and the size of the answer to fetch after it,
with the outcome and the answer. `turns` is how often the loop of `pn5180_wait_irq` goes on before
its deadline. -/
structure ChipBus (σ : Type) where
  command : Bytes → (n : Nat) → σ → Except EspErr (Vector UInt8 n) × σ
  turns : Nat → σ → Nat

/-- The chip, and the commands issued to it: every frame that `pn5180_send_command` was called with,
also one that it gave up before the transfer because BUSY stayed high. -/
structure Wire (σ : Type) where
  chip : σ
  issued : List Bytes

namespace ChipBus

variable (bus : ChipBus σ)

/-! ### `pn5180_spi.c` -/

def sendCommand (frame : Bytes) (n : Nat) (w : Wire σ) : Except EspErr (Vector UInt8 n) × Wire σ :=
  -- the first `wait_busy_low`, before the transfer, is one of the ways in which `command` fails
  let (r, chip) := bus.command frame n w.chip
  (r, ⟨chip, w.issued ++ [frame]⟩)

def writeRegister (reg : UInt8) (value : UInt32) (w : Wire σ) : EspErr × Wire σ :=
  let (r, w) := bus.sendCommand ([0x00, reg] ++ le32 value) 0 w
  (codeOf r, w)

def writeRegisterOrMask (reg : UInt8) (mask : UInt32) (w : Wire σ) : EspErr × Wire σ :=
  let (r, w) := bus.sendCommand ([0x01, reg] ++ le32 mask) 0 w
  (codeOf r, w)

def writeRegisterAndMask (reg : UInt8) (mask : UInt32) (w : Wire σ) : EspErr × Wire σ :=
  let (r, w) := bus.sendCommand ([0x02, reg] ++ le32 mask) 0 w
  (codeOf r, w)

def readRegister (reg : UInt8) (w : Wire σ) : Except EspErr UInt32 × Wire σ :=
  let (r, w) := bus.sendCommand [0x04, reg] 4 w
  (r.map fun v => ofLe32 v.toList, w)

/-! ### `pn5180_transceive.c` -/

/-- The loop of `pn5180_wait_irq` with `n` more turns before the deadline. -/
def waitIrqLoop (mask : UInt32) : Nat → Wire σ → EspErr × Wire σ
  | n, w =>
    match bus.readRegister 0x02 w with
    | (.error _, w) => (.fail, w)
    | (.ok status, w) =>
      -- the result of clearing the matched bits is not looked at
      if status &&& mask ≠ 0 then (.ok, (bus.writeRegister 0x03 (status &&& mask) w).2)
      else
        match n with
        | 0 => (.timeout, w)
        | n + 1 => waitIrqLoop mask n w

def waitIrq (mask : UInt32) (timeoutMs : Nat) (w : Wire σ) : EspErr × Wire σ :=
  bus.waitIrqLoop mask (bus.turns timeoutMs w.chip) w

/-- A command without an answer, and the wait for its IRQ. -/
def commandIrq (frame : Bytes) (mask : UInt32) (timeoutMs : Nat) (w : Wire σ) : EspErr × Wire σ :=
  match bus.sendCommand frame 0 w with
  | (.error e, w) => (e, w)
  | (.ok _, w) => bus.waitIrq mask timeoutMs w

def loadRfConfig (txIdx rxIdx : UInt8) (w : Wire σ) : EspErr × Wire σ :=
  let (r, w) := bus.sendCommand [0x11, txIdx, rxIdx] 0 w
  (codeOf r, w)

def rfOn (w : Wire σ) : EspErr × Wire σ := bus.commandIrq [0x16, 0x01] 0x80 100 w

def rfOff (w : Wire σ) : EspErr × Wire σ := bus.commandIrq [0x17, 0x00] 0x40 100 w

def sendData (data : Bytes) (validBits : UInt8) (w : Wire σ) : EspErr × Wire σ :=
  if data.length > 260 then (.invalidSize, w)
  else
    let (_, w) := bus.writeRegister 0x03 0x03 w
    bus.commandIrq ([0x09, validBits &&& 0x07] ++ data) 0x02 50 w

def readData (bufLen : Nat) (w : Wire σ) : Except EspErr Bytes × Wire σ :=
  let (e, w) := bus.waitIrq 0x01 50 w
  if e ≠ .ok then (.error e, w)
  else
    match bus.readRegister 0x13 w with
    | (.error e, w) => (.error e, w)
    | (.ok rxStatus, w) =>
      if rxStatus &&& 0x60000 ≠ 0 then
        (.error (if rxStatus &&& 0x20000 ≠ 0 then .invalidState else .invalidCrc), w)
      else
        let avail := (rxStatus &&& 0x1FF).toNat
        if avail > bufLen then (.error .invalidSize, w)
        else
          let (r, w) := bus.sendCommand [0x0A, 0x00] avail w
          (r.map fun v => v.toList, w)

/-- CRC enable bits of both directions, on or off. -/
def setCrc (on : Bool) (w : Wire σ) : Wire σ :=
  if on then (bus.writeRegisterOrMask 0x1B 0x01 (bus.writeRegisterOrMask 0x19 0x01 w).2).2
  else (bus.writeRegisterAndMask 0x1B 0xFFFFFFFE (bus.writeRegisterAndMask 0x19 0xFFFFFFFE w).2).2

/-- The chip of `pn5180_iso14443_activate`. -/
def chipOps : ChipOps (Wire σ) where
  loadRfConfig := bus.loadRfConfig 0x00 0x80
  rfOn := bus.rfOn
  rfOff := bus.rfOff
  setCrc := bus.setCrc
  sendData := bus.sendData
  readData := bus.readData

end ChipBus

/-! ### The field, as commanded -/

def IsRfOn (frame : Bytes) : Prop := frame.head? = some 0x16

def IsRfOff (frame : Bytes) : Prop := frame.head? = some 0x17

instance (frame : Bytes) : Decidable (IsRfOn frame) := inferInstanceAs (Decidable (_ = _))

instance (frame : Bytes) : Decidable (IsRfOff frame) := inferInstanceAs (Decidable (_ = _))

/-- Whether the field is on after the commands `issued`, when it was on or off before. -/
def fieldAfter (issued : List Bytes) (on : Bool) : Bool :=
  issued.foldl (fun on frame => if IsRfOn frame then true else if IsRfOff frame then false else on) on

/-- After every RF_ON there is an RF_OFF. -/
def OffAfterOn : List Bytes → Prop
  | [] => True
  | frame :: rest => (IsRfOn frame → ∃ f ∈ rest, IsRfOff f) ∧ OffAfterOn rest

theorem not_isRfOff_of_isRfOn {frame : Bytes} (h : IsRfOn frame) : ¬ IsRfOff frame := by
  intro h'
  rw [IsRfOff, show frame.head? = _ from h] at h'
  exact absurd h' (by decide)

theorem fieldAfter_append (a b : List Bytes) (on : Bool) :
    fieldAfter (a ++ b) on = fieldAfter b (fieldAfter a on) := List.foldl_append

/-- The field is off at the end exactly if every RF_ON is followed by an RF_OFF, and one is issued
at all where the field was on before. -/
theorem fieldAfter_eq_false {issued : List Bytes} {on : Bool} :
    fieldAfter issued on = false ↔ OffAfterOn issued ∧ (on = true → ∃ f ∈ issued, IsRfOff f) := by
  induction issued generalizing on with
  | nil => cases on <;> simp [fieldAfter, OffAfterOn]
  | cons frame rest ih =>
    have hcons : fieldAfter (frame :: rest) on =
        fieldAfter rest (if IsRfOn frame then true else if IsRfOff frame then false else on) := rfl
    rw [hcons, ih, OffAfterOn]
    by_cases hon : IsRfOn frame
    · have hoff := not_isRfOff_of_isRfOn hon
      simp only [hon, ↓reduceIte, forall_const, List.mem_cons, exists_eq_or_imp, hoff, false_or]
      exact ⟨fun h => ⟨⟨h.2, h.1⟩, fun _ => h.2⟩, fun h => ⟨h.1.2, h.1.1⟩⟩
    · by_cases hoff : IsRfOff frame
      · simp [hon, hoff]
      · simp [hon, hoff]

theorem offAfterOn_iff {issued : List Bytes} : OffAfterOn issued ↔ fieldAfter issued false = false := by
  simp [fieldAfter_eq_false]

/-! ### What the functions issue -/

/-- Between `w` and `w'` commands were issued that leave the field as it is. -/
def Quiet (w w' : Wire σ) : Prop :=
  ∃ fs : List Bytes, w'.issued = w.issued ++ fs ∧ ∀ f ∈ fs, ¬ IsRfOn f ∧ ¬ IsRfOff f

namespace Quiet

variable {w w' w'' : Wire σ}

theorem refl (w : Wire σ) : Quiet w w := ⟨[], by simp, by simp⟩

theorem trans (h : Quiet w w') (h' : Quiet w' w'') : Quiet w w'' := by
  obtain ⟨fs, hfs, hq⟩ := h
  obtain ⟨fs', hfs', hq'⟩ := h'
  refine ⟨fs ++ fs', by rw [hfs', hfs, List.append_assoc], fun f hf => ?_⟩
  rcases List.mem_append.1 hf with hf | hf
  · exact hq f hf
  · exact hq' f hf

theorem fieldAfter_eq (h : Quiet w w') (on : Bool) :
    fieldAfter w'.issued on = fieldAfter w.issued on := by
  obtain ⟨fs, hfs, hq⟩ := h
  have hsame : ∀ on, fieldAfter fs on = on := by
    clear hfs
    induction fs with
    | nil => exact fun _ => rfl
    | cons f fs ih =>
      intro on
      obtain ⟨hon, hoff⟩ := hq f (List.mem_cons_self ..)
      have hstep : fieldAfter (f :: fs) on = fieldAfter fs on := by
        simp only [fieldAfter, List.foldl_cons, hon, hoff, ↓reduceIte]
      rw [hstep, ih fun g hg => hq g (List.mem_cons_of_mem _ hg)]
  rw [hfs, fieldAfter_append, hsame]

end Quiet

namespace ChipBus

variable (bus : ChipBus σ)

theorem sendCommand_quiet {code : UInt8} {rest : Bytes} (n : Nat) (w : Wire σ)
    (hon : code ≠ 0x16) (hoff : code ≠ 0x17) : Quiet w (bus.sendCommand (code :: rest) n w).2 := by
  refine ⟨[code :: rest], rfl, fun f hf => ?_⟩
  obtain rfl := List.mem_singleton.1 hf
  exact ⟨fun h => hon (Option.some.inj h), fun h => hoff (Option.some.inj h)⟩

theorem readRegister_quiet (reg : UInt8) (w : Wire σ) : Quiet w (bus.readRegister reg w).2 :=
  bus.sendCommand_quiet 4 w (by decide) (by decide)

theorem writeRegister_quiet (reg : UInt8) (value : UInt32) (w : Wire σ) :
    Quiet w (bus.writeRegister reg value w).2 :=
  bus.sendCommand_quiet 0 w (by decide) (by decide)

/-- One turn of the wait ends it, or goes on with one turn less. -/
theorem waitIrqLoop_turn (mask : UInt32) (n : Nat) (w : Wire σ) :
    ∃ w', Quiet w w' ∧ ((∃ e, bus.waitIrqLoop mask n w = (e, w')) ∨
      ∃ m, n = m + 1 ∧ bus.waitIrqLoop mask n w = bus.waitIrqLoop mask m w') := by
  have hread := bus.readRegister_quiet 0x02 w
  rw [waitIrqLoop.eq_def]
  dsimp only
  generalize bus.readRegister 0x02 w = r at hread ⊢
  obtain ⟨_ | status, w'⟩ := r
  · exact ⟨w', hread, .inl ⟨_, rfl⟩⟩
  · dsimp only
    by_cases hirq : status &&& mask ≠ 0
    · rw [if_pos hirq]
      exact ⟨_, hread.trans (bus.writeRegister_quiet 0x03 _ w'), .inl ⟨_, rfl⟩⟩
    · rw [if_neg hirq]
      cases n with
      | zero => exact ⟨w', hread, .inl ⟨_, rfl⟩⟩
      | succ m => exact ⟨w', hread, .inr ⟨m, rfl, rfl⟩⟩

theorem waitIrqLoop_quiet (mask : UInt32) (n : Nat) (w : Wire σ) :
    Quiet w (bus.waitIrqLoop mask n w).2 := by
  induction n generalizing w with
  | zero =>
    obtain ⟨w', hturn, ⟨e, h⟩ | ⟨m, hm, -⟩⟩ := bus.waitIrqLoop_turn mask 0 w
    · rw [h]
      exact hturn
    · cases hm
  | succ n ih =>
    obtain ⟨w', hturn, ⟨e, h⟩ | ⟨m, hm, h⟩⟩ := bus.waitIrqLoop_turn mask (n + 1) w
    · rw [h]
      exact hturn
    · cases hm
      rw [h]
      exact hturn.trans (ih w')

/-- A command and its wait issue the command, and then nothing that concerns the field. -/
theorem commandIrq_quiet (frame : Bytes) (mask : UInt32) (timeoutMs : Nat) (w : Wire σ) :
    Quiet (bus.sendCommand frame 0 w).2 (bus.commandIrq frame mask timeoutMs w).2 := by
  rw [commandIrq]
  generalize bus.sendCommand frame 0 w = r
  obtain ⟨_ | _, w'⟩ := r
  · exact .refl w'
  · exact bus.waitIrqLoop_quiet mask _ w'

theorem fieldAfter_rfOn (w : Wire σ) (on : Bool) : fieldAfter (bus.rfOn w).2.issued on = true := by
  rw [rfOn, (bus.commandIrq_quiet [0x16, 0x01] 0x80 100 w).fieldAfter_eq]
  exact fieldAfter_append w.issued [[0x16, 0x01]] on

theorem fieldAfter_rfOff (w : Wire σ) (on : Bool) : fieldAfter (bus.rfOff w).2.issued on = false := by
  rw [rfOff, (bus.commandIrq_quiet [0x17, 0x00] 0x40 100 w).fieldAfter_eq]
  exact fieldAfter_append w.issued [[0x17, 0x00]] on

theorem loadRfConfig_quiet (txIdx rxIdx : UInt8) (w : Wire σ) :
    Quiet w (bus.loadRfConfig txIdx rxIdx w).2 :=
  bus.sendCommand_quiet 0 w (by decide) (by decide)

theorem sendData_quiet (data : Bytes) (validBits : UInt8) (w : Wire σ) :
    Quiet w (bus.sendData data validBits w).2 := by
  rw [sendData]
  split
  · exact .refl w
  · have hclear := bus.writeRegister_quiet 0x03 0x03 w
    refine hclear.trans (.trans ?_ (bus.commandIrq_quiet _ 0x02 50 _))
    exact bus.sendCommand_quiet 0 _ (by decide) (by decide)

theorem readData_quiet (bufLen : Nat) (w : Wire σ) : Quiet w (bus.readData bufLen w).2 := by
  have hwait := bus.waitIrqLoop_quiet 0x01 (bus.turns 50 w.chip) w
  simp only [readData, waitIrq]
  split
  · exact hwait
  have hread := hwait.trans (bus.readRegister_quiet 0x13 _)
  generalize bus.readRegister 0x13 _ = r at hread ⊢
  obtain ⟨_ | rxStatus, w'⟩ := r
  · exact hread
  dsimp only
  split
  · exact hread
  split
  · exact hread
  · exact hread.trans (bus.sendCommand_quiet _ w' (by decide) (by decide))

theorem setCrc_quiet (on : Bool) (w : Wire σ) : Quiet w (bus.setCrc on w) := by
  have hcode : ∀ (code : UInt8) (rest : Bytes) (w : Wire σ), code = 0x01 ∨ code = 0x02 →
      Quiet w (bus.sendCommand (code :: rest) 0 w).2 := by
    rintro code rest w (rfl | rfl)
    · exact bus.sendCommand_quiet 0 w (by decide) (by decide)
    · exact bus.sendCommand_quiet 0 w (by decide) (by decide)
  cases on with
  | true => exact (hcode _ _ w (.inl rfl)).trans (hcode _ _ _ (.inl rfl))
  | false => exact (hcode _ _ w (.inr rfl)).trans (hcode _ _ _ (.inr rfl))

end ChipBus

end LeafReader
