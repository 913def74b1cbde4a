import LeafReader.NfcTask
import LeafReader.Pn532
import LeafReader.Pn5180

/-!
# `nfc_find_target` of the two drivers

`pn532_find_target` over the chip of `Pn532`, and `pn5180_iso14443_activate` over the chip commands it
issues, each with any outcome. `driverPolls` is the sequence of polls `nfc_task` makes with a driver.
-/

namespace LeafReader

variable {σ : Type}

/-! ### PN532 -/

/-- What `pn532_find_target` makes of the response to InListPassiveTarget: UID and SAK. -/
def targetOf (uidBufLen : Nat) (r : Bytes) : Except EspErr (Bytes × UInt8) :=
  if r.length < 1 ∨ r.getD 0 0 = 0 then .error .notFound
  else if r.length < 6 then .error .invalidResponse
  else
    let nfcidLen := (r.getD 5 0).toNat
    if nfcidLen > uidBufLen ∨ r.length < 6 + nfcidLen then .error .invalidSize
    else .ok ((r.drop 6).take nfcidLen, r.getD 4 0)

def pn532FindTarget (spi : Spi σ) (uidBufLen : Nat) (s : σ) : Except EspErr (Bytes × UInt8) × σ :=
  let (r, s) := pn532Cmd spi 0x4A [0x01, 0x00] 64 s
  (r.bind (targetOf uidBufLen), s)

/-! ### PN5180 -/

/-- The commands `pn5180_iso14443_activate` gives the chip. -/
structure ChipOps (σ : Type) where
  loadRfConfig : σ → EspErr × σ
  rfOn : σ → EspErr × σ
  rfOff : σ → EspErr × σ
  -- the TX and RX CRC registers; the results of the register writes are not looked at
  setCrc : Bool → σ → σ
  sendData : Bytes → UInt8 → σ → EspErr × σ
  readData : Nat → σ → Except EspErr Bytes × σ

/-- A command and its answer of exactly `n` bytes. -/
def ChipOps.request (ops : ChipOps σ) (frame : Bytes) (bits : UInt8) (n : Nat) (s : σ) :
    Option Bytes × σ :=
  let (e, s) := ops.sendData frame bits s
  if e ≠ .ok then (none, s)
  else
    match ops.readData n s with
    | (.error _, s) => (none, s)
    | (.ok r, s) => (if r.length = n then some r else none, s)

def cascadeCmds : Bytes := [0x93, 0x95, 0x97]

/-- The anticollision loop from a cascade level on: `uid_collected` and the last SAK. -/
def anticollision (ops : ChipOps σ) : Bytes → Bytes → σ → Option (Bytes × UInt8) × σ
  | [], _, s => (none, s)
  | sel :: rest, uid, s =>
    match ops.request [sel, 0x20] 0 5 s with
    | (none, s) => (none, s)
    | (some ac, s) =>
      if ac.getD 0 0 ^^^ ac.getD 1 0 ^^^ ac.getD 2 0 ^^^ ac.getD 3 0 ≠ ac.getD 4 0 then (none, s)
      else
        match ops.request ([sel, 0x70] ++ ac) 0 1 (ops.setCrc true s) with
        | (none, s) => (none, s)
        | (some sak, s) =>
          let uid := uid ++ if ac.getD 0 0 = 0x88 then (ac.drop 1).take 3 else ac.take 4
          if sak.getD 0 0 &&& 0x04 = 0 then (some (uid, sak.getD 0 0), s)
          else anticollision ops rest uid (ops.setCrc false s)

/-- RATS and the ATS, of 1 to 32 bytes. -/
def rats (ops : ChipOps σ) (s : σ) : Option Bytes × σ :=
  let (e, s) := ops.sendData [0xE0, 0x80] 0 s
  if e ≠ .ok then (none, s)
  else
    match ops.readData 32 s with
    | (.error _, s) => (none, s)
    | (.ok ats, s) => (if ats.length < 1 then none else some ats, s)

/-- UID and SAK for the caller, `g_pn5180_card`, and the chip. -/
structure Activation (σ : Type) where
  result : Except EspErr (Bytes × UInt8)
  card : Pn5180CardState
  chip : σ

/-- `g_pn5180_card` after the `memset`. -/
def noCard : Pn5180CardState := ⟨false, 0, 0⟩

def pn5180Iso14443Activate (ops : ChipOps σ) (uidBuf : Nat) (s : σ) : Activation σ :=
  let (e, s) := ops.loadRfConfig s
  if e ≠ .ok then ⟨.error .fail, noCard, s⟩
  else
    let (e, s) := ops.rfOn s
    if e ≠ .ok then ⟨.error .fail, noCard, s⟩
    else
      match ops.request [0x26] 7 2 (ops.setCrc false s) with
      | (none, s) => ⟨.error .notFound, noCard, (ops.rfOff s).2⟩
      | (some _, s) =>
        match anticollision ops cascadeCmds [] s with
        | (none, s) => ⟨.error .fail, noCard, (ops.rfOff s).2⟩
        | (some (uid, sak), s) =>
          if sak &&& 0x20 = 0 then ⟨.ok (uid.take uidBuf, sak), noCard, s⟩
          else
            match rats ops s with
            | (none, s) => ⟨.error .fail, noCard, (ops.rfOff s).2⟩
            | (some ats, s) => ⟨.ok (uid.take uidBuf, sak), activate ats, s⟩

/-! ### Result codes -/

/-- Every error of `x` is one of `codes`. -/
def FailsWith {α : Type} (codes : List EspErr) (x : Except EspErr α) : Prop :=
  ∀ e, x = .error e → e ∈ codes

namespace FailsWith

variable {α β : Type} {codes : List EspErr}

theorem ok (a : α) : FailsWith codes (.ok a) := by
  intro e h
  cases h

theorem error {e : EspErr} (he : e ∈ codes) : FailsWith codes (.error e : Except EspErr α) := by
  intro e' h
  cases h
  exact he

theorem bind {x : Except EspErr α} {f : α → Except EspErr β} (hx : FailsWith codes x)
    (hf : ∀ a, FailsWith codes (f a)) : FailsWith codes (x.bind f) := by
  cases x with
  | ok a => exact hf a
  | error e => exact error (hx e rfl)

theorem ite {c : Prop} [Decidable c] {x y : Except EspErr α} (hx : FailsWith codes x)
    (hy : FailsWith codes y) : FailsWith codes (if c then x else y) := by
  split
  · exact hx
  · exact hy

end FailsWith

/-- The codes of a failed `pn532_find_target`. -/
def pn532Codes : List EspErr := [.notFound, .timeout, .invalidResponse, .invalidCrc, .invalidSize]

/-- The codes of a failed `pn5180_iso14443_activate`. -/
def pn5180Codes : List EspErr := [.notFound, .fail]

theorem readAck_fails (r : Option Bytes) : FailsWith pn532Codes (readAck r) := by
  cases r with
  | none => exact .error (by decide)
  | some f => exact .ite (.error (by decide)) (.ok ())

theorem readResponse_fails (bufLen : Nat) (r : Option Bytes) :
    FailsWith pn532Codes (readResponse bufLen r) := by
  cases r with
  | none => exact .error (by decide)
  | some f =>
    refine .ite (.error (by decide)) (.ite (.error (by decide)) (.ite (.error (by decide)) ?_))
    exact .ite (.error (by decide)) (.ok _)

theorem checkResponse_fails (code : UInt8) (respBuf : Nat) (r : Bytes) :
    FailsWith pn532Codes (checkResponse code respBuf r) :=
  .ite (.error (by decide)) (.ite (.error (by decide)) (.ok _))

theorem targetOf_fails (uidBufLen : Nat) (r : Bytes) : FailsWith pn532Codes (targetOf uidBufLen r) :=
  .ite (.error (by decide)) (.ite (.error (by decide)) (.ite (.error (by decide)) (.ok _)))

theorem pn532Cmd_fails (spi : Spi σ) (code : UInt8) (params : Bytes) (respBuf : Nat) (s : σ) :
    FailsWith pn532Codes (pn532Cmd spi code params respBuf s).1 := by
  rw [pn532Cmd]
  split
  · rename_i e he
    rw [sendFrame] at he
    split at he
    · cases he
      exact .error (by decide)
    · cases he
  · exact (readAck_fails _).bind fun _ =>
      (readResponse_fails 270 _).bind fun r => checkResponse_fails code respBuf r

/-- A failed search of the PN532 driver returns one of `pn532Codes`, whatever the chip sends. -/
theorem pn532FindTarget_fails (spi : Spi σ) (uidBufLen : Nat) (s : σ) :
    FailsWith pn532Codes (pn532FindTarget spi uidBufLen s).1 :=
  (pn532Cmd_fails spi 0x4A [0x01, 0x00] 64 s).bind fun r => targetOf_fails uidBufLen r

/-- A failed activation of the PN5180 driver returns one of `pn5180Codes`, whatever the chip does. -/
theorem pn5180Iso14443Activate_fails (ops : ChipOps σ) (uidBuf : Nat) (s : σ) :
    FailsWith pn5180Codes (pn5180Iso14443Activate ops uidBuf s).result := by
  rw [pn5180Iso14443Activate]
  split
  rename_i e s he
  split
  · exact .error (by decide)
  split
  rename_i e s he
  split
  · exact .error (by decide)
  split
  · exact .error (by decide)
  split
  · exact .error (by decide)
  split
  · exact .ok _
  split
  · exact .error (by decide)
  · exact .ok _

/-! ### The next card -/

/-- After four or more failed polls in a row, a successful one is processed exactly if no card was in
the field before them or enough of them returned `ESP_ERR_NOT_FOUND`. -/
theorem processed_after_failures (polls : ℕ → Poll) (a b : ℕ) (hab : a + 4 ≤ b)
    (hfail : ∀ k, a ≤ k → k < b → (polls k).result ≠ .ok) (hok : (polls b).result = .ok) :
    Processed polls b ↔
      (detectorAt polls a).cardInField = false ∨
        4 ≤ (detectorAt polls a).emptyCount + misses polls a b := by
  have hle : a ≤ b := by omega
  have hno : ∀ k, a ≤ k → k < b → ¬ Processed polls k := fun k hk hkb hp =>
    hfail k hk hkb (processed_iff.1 hp).1
  rw [processed_iff]
  cases ha : (detectorAt polls a).cardInField with
  | false =>
    have hb := armed_of_unprocessed hle ha hno
    exact ⟨fun _ => .inl rfl, fun _ => ⟨hok, hb⟩⟩
  | true =>
    obtain ⟨hiff, -⟩ := inField_of_unprocessed hle ha hno
    constructor
    · rintro ⟨-, hout⟩
      refine .inr (Nat.le_of_not_lt fun hlt => ?_)
      rw [hiff.2 hlt] at hout
      cases hout
    · rintro (h | h)
      · cases h
      · refine ⟨hok, ?_⟩
        rw [← Bool.not_eq_true]
        exact fun hin => absurd (hiff.1 hin) (by omega)

theorem processed_after_not_found :
    Processed (fun n => ⟨if n % 5 = 0 then .ok else .notFound, .read⟩) 5 :=
  (processed_after_failures _ 1 5 (by decide)
    (fun k h1 h5 => by simp [show ¬ k % 5 = 0 by omega]) (by decide)).2 (.inr (by decide))

/-! ### The loop over a driver -/

/-- `esp_err_t` of a call. -/
def codeOf {α : Type} : Except EspErr α → EspErr
  | .ok _ => .ok
  | .error e => e

/-- The polls of `nfc_task`, which find the driver's chip in the states `chips`. -/
def driverPolls {α : Type} (find : σ → Except EspErr α) (chips : ℕ → σ) (modes : ℕ → ReaderMode) :
    ℕ → Poll :=
  fun n => ⟨codeOf (find (chips n)), modes n⟩

/-- A chip that is about to send an ACK and a response, if any. -/
def scriptedSpi : Spi (Option Bytes × Option Bytes) := fun s _ => (s, s)

/-- InListPassiveTarget is answered with a card at the polls 0 and 5 and stays unanswered between. -/
def silentChip (n : ℕ) : Option Bytes × Option Bytes :=
  (some ackFrame, if n % 5 = 0 then
    some (infoFrame [0xD5, 0x4B, 0x01, 0x01, 0x03, 0x44, 0x20, 0x04, 0xC0, 0xFF, 0xEE, 0x01]) else none)

def silentPolls : ℕ → Poll :=
  driverPolls (fun s => (pn532FindTarget scriptedSpi 10 s).1) silentChip fun _ => .read

/-- The next card is locked out: after four polls that timed out it is found and not processed. -/
theorem silentPolls_lock_out :
    Processed silentPolls 0 ∧ (∀ k, 1 ≤ k → k < 5 → (silentPolls k).result = .timeout) ∧
      (silentPolls 5).result = .ok ∧ ¬ Processed silentPolls 5 := by
  have hcard : (silentPolls 0).result = .ok ∧ (silentPolls 5).result = .ok := by decide
  have hsilent : ∀ k, 1 ≤ k → k < 5 → (silentPolls k).result = .timeout := by
    intro k h1 h5
    have hk : ¬ k % 5 = 0 := by omega
    simp only [silentPolls, driverPolls, silentChip, hk, ↓reduceIte]
    rfl
  refine ⟨?_, hsilent, hcard.2, ?_⟩
  · exact processed_iff.2 ⟨hcard.1, rfl⟩
  · unfold Processed
    decide

end LeafReader
