import LeafReader.Pn532
import LeafReader.Pn5180Standard
import LeafReader.DesfireXfer

/-!
# One card behind the PN532 and behind the PN5180

The PN532 runs the block protocol itself and forwards APDUs; the PN5180 leaves it to the driver. Over
the same card the two drivers return the same for an APDU exactly when `AgreeWhen` holds: their limits
on the APDU, the chaining of either side and the length of the answer all differ.
-/

namespace LeafReader

/-- The PN532 in front of a card: at most `cap` bytes of the answer come with the first response, and
bit 6 of the status says that more are pending. -/
def pn532Chip (cap : Nat) (app : CardApp) : Spi (List Bytes) := fun log w =>
  match writtenBody w with
  | none => ((none, none), log)
  | some body =>
    if body.take 3 = [0xD4, 0x40, 0x01] then
      let log := log ++ [body.drop 3]
      let answer := app.reply log
      ((some ackFrame, some (infoFrame
        ([0xD5, 0x41, if cap < answer.length then 0x40 else 0x00] ++ answer.take cap))), log)
    else ((none, none), log)

section Pn532

variable {cap : Nat} {app : CardApp} {tx : Bytes} {rxBuf : Nat} {log : List Bytes}

/-- The length check of `send_frame` refuses 252 bytes, which `pn532_apdu_exchange` lets pass. -/
theorem pn532ApduExchange_of_lt (h : 251 < tx.length) :
    pn532ApduExchange (pn532Chip cap app) tx rxBuf log = (.error .invalidSize, log) := by
  by_cases h252 : tx.length > 252
  · rw [pn532ApduExchange, if_pos h252]
  · have hsend : sendFrame ([0xD4, 0x40] ++ ([0x01] ++ tx)) = .error .invalidSize := by
      rw [sendFrame, if_pos (by simp; omega)]
    rw [pn532ApduExchange, if_neg h252, pn532Cmd, hsend]
    rfl

theorem checkResponse_dataExchange (st : UInt8) {part : Bytes} (h : part.length ≤ 252) :
    checkResponse 0x40 264 ([0xD5, 0x41, st] ++ part) = .ok (st :: part) := by
  simp [checkResponse, show ¬ part.length + 1 + 1 + 1 < 2 by omega,
    show ¬ 264 < part.length + 1 by omega]

theorem dataOf_cons {st : UInt8} {part : Bytes} (hst : st &&& 0x3F = 0x00)
    (h : part.length ≤ rxBuf) : dataOf rxBuf (st :: part) = .ok part := by
  simp [dataOf, hst, h]

/-- An APDU the PN532 driver sends: the caller gets what came with the first response. -/
theorem pn532ApduExchange_of_le (h : tx.length ≤ 251) (hfit : (app.reply (log ++ [tx])).length ≤ rxBuf) :
    pn532ApduExchange (pn532Chip cap app) tx rxBuf log =
      (if ((app.reply (log ++ [tx])).take cap).length ≤ 252 then
        .ok ((app.reply (log ++ [tx])).take cap) else .error .invalidCrc, log ++ [tx]) := by
  set answer := app.reply (log ++ [tx]) with hanswer
  set st : UInt8 := if cap < answer.length then 0x40 else 0x00 with hst
  have hlen : ¬ ([0xD4, 0x40] ++ ([0x01] ++ tx)).length > 254 := by simp; omega
  obtain ⟨w, hw⟩ : ∃ w, sendFrame ([0xD4, 0x40] ++ ([0x01] ++ tx)) = .ok w :=
    ⟨_, by rw [sendFrame, if_neg hlen]⟩
  have hchip : pn532Chip cap app log w =
      ((some ackFrame, some (infoFrame ([0xD5, 0x41, st] ++ answer.take cap))), log ++ [tx]) := by
    simp [pn532Chip, writtenBody_sendFrame hw, ← hanswer, ← hst]
  have hbody : ([0xD5, 0x41, st] ++ answer.take cap).length = (answer.take cap).length + 3 := by simp
  rw [pn532ApduExchange, if_neg (by omega), pn532Cmd_eq _ _ hw hchip, hbody]
  by_cases h252 : (answer.take cap).length ≤ 252
  · have hmask : st &&& 0x3F = 0x00 := by
      rw [hst]
      split <;> decide
    have hpart : (answer.take cap).length ≤ rxBuf := by
      rw [List.length_take]
      omega
    rw [if_pos (by omega), if_pos h252, checkResponse_dataExchange st (by omega)]
    exact congrArg (·, log ++ [tx]) (dataOf_cons hmask hpart)
  · rw [if_neg (by omega), if_neg h252]
    rfl

end Pn532

/-! ### The same APDU over both chips -/

def resultCode (r : Except EspErr Bytes) : EspErr :=
  match r with
  | .ok _ => .ok
  | .error e => e

/-- Over the same card, after the same commands, both drivers return the same code for `tx`, and on
`ESP_OK` both callers have the whole answer. -/
def ChipsAgree (cap : Nat) (app : CardApp) (tx : Bytes) (r : Reader Picc) : Prop :=
  let log := r.chip.field.log
  let pn532 := (pn532ApduExchange (pn532Chip cap app) tx 280 log).1
  ∃ call, Pn5180Apdu (Picc.receive standardCoding app) tx 280 r call ∧ resultCode pn532 = call.ret ∧
    (call.ret = .ok → call.rx = app.reply (log ++ [tx]) ∧ pn532 = .ok (app.reply (log ++ [tx])))

/-- The APDU fits both drivers and one block, and the answer comes in one block and in the first
response of the PN532; or both drivers refuse with `ESP_ERR_INVALID_SIZE`, the PN532 the APDU and the
PN5180 the answer, whose first block comes at once and is too long. -/
def AgreeWhen (cap fsc : Nat) (app : CardApp) (tx : Bytes) (r : Reader Picc) : Prop :=
  let log := r.chip.field.log ++ [tx]
  tx.length + 1 ≤ fsc ∧
    (tx.length ≤ 251 ∧ (app.answer log).2 = [] ∧ (app.reply log).length ≤ min cap 252 ∨
      251 < tx.length ∧ 259 < (app.answer log).1.length ∧ app.wtx r.chip.field.sent = [])

section Swap

variable {cap fsc : Nat} {app : CardApp} {tx : Bytes} {r : Reader Picc}

theorem chipsAgree_of_returns (hact : r.card.iso144434Active = true) {call : ApduCall Picc}
    (hcall : Returns (pn5180ApduStep (Picc.receive standardCoding app) tx 280) (.start r) call) :
    ChipsAgree cap app tx r ↔
      resultCode (pn532ApduExchange (pn532Chip cap app) tx 280 r.chip.field.log).1 = call.ret ∧
      (call.ret = .ok → call.rx = app.reply (r.chip.field.log ++ [tx]) ∧
        (pn532ApduExchange (pn532Chip cap app) tx 280 r.chip.field.log).1 =
          .ok (app.reply (r.chip.field.log ++ [tx]))) := by
  constructor
  · rintro ⟨call', hcall', h⟩
    rwa [((pn5180Apdu_iff _ hact).1 hcall').unique hcall] at h
  · exact fun h => ⟨call, (pn5180Apdu_iff _ hact).2 hcall, h⟩

theorem resultCode_pn532 (hfit : (app.reply (r.chip.field.log ++ [tx])).length ≤ 280) :
    resultCode (pn532ApduExchange (pn532Chip cap app) tx 280 r.chip.field.log).1 =
      if 251 < tx.length then .invalidSize
      else if ((app.reply (r.chip.field.log ++ [tx])).take cap).length ≤ 252 then .ok
      else .invalidCrc := by
  split
  · rename_i h
    rw [pn532ApduExchange_of_lt h]
    rfl
  · rename_i h
    rw [pn532ApduExchange_of_le (by omega) hfit]
    split <;> rfl

theorem pn532_complete_iff (hfit : (app.reply (r.chip.field.log ++ [tx])).length ≤ 280)
    (h : tx.length ≤ 251) :
    (pn532ApduExchange (pn532Chip cap app) tx 280 r.chip.field.log).1 =
        .ok (app.reply (r.chip.field.log ++ [tx])) ↔
      (app.reply (r.chip.field.log ++ [tx])).length ≤ min cap 252 := by
  rw [pn532ApduExchange_of_le h hfit]
  set answer := app.reply (r.chip.field.log ++ [tx])
  have htake : answer.take cap = answer ↔ answer.length ≤ cap := List.take_eq_self_iff answer
  have hlen : (answer.take cap).length = min cap answer.length := List.length_take
  constructor
  · intro heq
    dsimp only at heq
    split at heq
    · rename_i h252
      have hcap := htake.1 (Except.ok.inj heq)
      omega
    · cases heq
  · intro hle
    dsimp only
    rw [if_pos (by omega), htake.2 (by omega)]

/-- The length of the first block of an answer that fits 280 bytes, as the driver sees it. -/
theorem audible_iff (hfit : (app.reply (r.chip.field.log ++ [tx])).length ≤ 280) (pcb : UInt8) :
    Audible (pcb :: (app.answer (r.chip.field.log ++ [tx])).1) ↔
      (app.answer (r.chip.field.log ++ [tx])).1.length ≤ 259 := by
  rw [CardApp.reply, List.length_append] at hfit
  rw [Audible, List.length_cons, Nat.mod_eq_of_lt (by omega)]
  omega

/-- The two errors of the PN5180 driver that the PN532 driver never returns. -/
theorem not_chipsAgree (hact : r.card.iso144434Active = true)
    (hfit : (app.reply (r.chip.field.log ++ [tx])).length ≤ 280) {call : ApduCall Picc}
    (hcall : Returns (pn5180ApduStep (Picc.receive standardCoding app) tx 280) (.start r) call)
    (hret : call.ret = .fail ∨ call.ret = .timeout) : ¬ ChipsAgree cap app tx r := by
  rw [chipsAgree_of_returns hact hcall, resultCode_pn532 hfit]
  rintro ⟨hcode, -⟩
  rcases hret with hret | hret <;> rw [hret] at hcode <;> split at hcode
  · cases hcode
  · split at hcode <;> cases hcode
  · cases hcode
  · split at hcode <;> cases hcode

theorem chipsAgree_single (h : Ready fsc r) (htx : tx ≠ []) (h256 : fsc ≤ 256)
    (hfit : (app.reply (r.chip.field.log ++ [tx])).length ≤ 280)
    (hs : SingleBlocks app fsc (r.chip.field.log ++ [tx]) (tx, 280)) :
    ChipsAgree cap app tx r ↔
      tx.length ≤ 251 ∧ (app.reply (r.chip.field.log ++ [tx])).length ≤ min cap 252 := by
  obtain ⟨call, hcall, hdel, -⟩ := h.exchange_single usual_standardCoding htx h256 hs hfit
  rw [chipsAgree_of_returns h.active hcall.returns, resultCode_pn532 hfit, hdel.ret]
  by_cases h251 : 251 < tx.length
  · rw [if_pos h251]
    exact iff_of_false (fun hx => by cases hx.1) fun hx => absurd hx.1 (by omega)
  · rw [if_neg h251, pn532_complete_iff hfit (by omega)]
    constructor
    · exact fun hx => ⟨by omega, (hx.2 rfl).2⟩
    · rintro ⟨-, hle⟩
      rw [if_pos (by rw [List.length_take]; omega)]
      exact ⟨rfl, fun _ => ⟨hdel.rx, hle⟩⟩

/-- A first block of the answer that the PN5180 driver has no room for. -/
theorem chipsAgree_lost (h : Ready fsc r) (htx : tx ≠ []) (h256 : fsc ≤ 256)
    (hfit : (app.reply (r.chip.field.log ++ [tx])).length ≤ 280) (hshort : tx.length + 1 ≤ fsc)
    (hlong : 259 < (app.answer (r.chip.field.log ++ [tx])).1.length) :
    ChipsAgree cap app tx r ↔ 251 < tx.length ∧ app.wtx r.chip.field.sent = [] := by
  obtain ⟨call, hcall, hret⟩ := h.exchange_lost htx h256 app 280 hshort
    (fun ha => absurd ((audible_iff hfit _).1 ha) (by omega))
  have hfirst : (app.answer (r.chip.field.log ++ [tx])).1.length ≤
      (app.reply (r.chip.field.log ++ [tx])).length := by simp [CardApp.reply]
  have h260 : ((app.answer (r.chip.field.log ++ [tx])).1.length + 1) % 512 > 260 := by
    rw [Nat.mod_eq_of_lt (by omega)]
    omega
  rw [if_congr (and_iff_right h260) rfl rfl] at hret
  by_cases hw : app.wtx r.chip.field.sent = []
  · rw [if_pos hw] at hret
    rw [chipsAgree_of_returns h.active hcall, resultCode_pn532 hfit, hret]
    constructor
    · rintro ⟨hcode, -⟩
      split at hcode
      · exact ⟨by assumption, hw⟩
      · split at hcode <;> cases hcode
    · rintro ⟨h251, -⟩
      rw [if_pos h251]
      exact ⟨rfl, fun hx => by cases hx⟩
  · rw [if_neg hw] at hret
    exact iff_of_false (not_chipsAgree h.active hfit hcall (.inl hret)) fun hx => hw hx.2

theorem length_apdu (cmd : UInt8) (params : Bytes) : (apdu cmd params).length = params.length + 6 := by
  simp [apdu]

theorem apdu_ne_nil (cmd : UInt8) (params : Bytes) : apdu cmd params ≠ [] := by simp [apdu]

/-- Between exchanges with a standard card, and over any chip, card and state of theirs, the drivers
agree on an APDU of `desfire_xfer` exactly when `AgreeWhen` holds. -/
theorem chipsAgree_iff (cap : Nat) (app : CardApp) (cmd : UInt8) (params : Bytes) (r : Reader Picc)
    (h : Ready fsc r) (h16 : 16 ≤ fsc) (h256 : fsc ≤ 256)
    (hfit : (app.reply (r.chip.field.log ++ [apdu cmd params])).length ≤ 280) :
    ChipsAgree cap app (apdu cmd params) r ↔ AgreeWhen cap fsc app (apdu cmd params) r := by
  have htx := apdu_ne_nil cmd params
  generalize apdu cmd params = tx at hfit htx ⊢
  have hfirst : (app.answer (r.chip.field.log ++ [tx])).1.length ≤
      (app.reply (r.chip.field.log ++ [tx])).length := by simp [CardApp.reply]
  rcases Nat.lt_or_ge fsc (tx.length + 1) with hlong | hshort
  · obtain ⟨call, hcall, hret⟩ := h.exchange_nak htx h256 app 280 h16 hlong
    exact iff_of_false (not_chipsAgree h.active hfit hcall (.inl hret)) fun hx => by
      have := hx.1
      omega
  rcases Nat.lt_or_ge 259 (app.answer (r.chip.field.log ++ [tx])).1.length with hlost | haud
  · rw [chipsAgree_lost h htx h256 hfit hshort hlost]
    constructor
    · exact fun hx => ⟨hshort, .inr ⟨hx.1, hlost, hx.2⟩⟩
    · rintro ⟨-, ⟨-, -, hle⟩ | hx⟩
      · omega
      · exact ⟨hx.1, hx.2.2⟩
  by_cases hrest : (app.answer (r.chip.field.log ++ [tx])).2 = []
  · rw [chipsAgree_single h htx h256 hfit ⟨hshort, hrest, haud⟩]
    constructor
    · exact fun hx => ⟨hshort, .inl ⟨hx.1, hrest, hx.2⟩⟩
    · rintro ⟨-, ⟨h251, -, hle⟩ | hx⟩
      · exact ⟨h251, hle⟩
      · have := hx.2.1
        omega
  · obtain ⟨call, hcall, hret⟩ :=
      h.exchange_mute htx h256 hfit hshort hrest ((audible_iff hfit _).2 haud)
    refine iff_of_false (not_chipsAgree h.active hfit hcall (.inr hret)) ?_
    rintro ⟨-, ⟨-, hx, -⟩ | ⟨-, hx, -⟩⟩
    · exact hrest hx
    · omega

theorem chipsAgree_select :
    ChipsAgree 252 (sampleApp [0x91, 0x00] []) (apdu 0x5A [0, 0, 0])
        ⟨activate [2, 0x08], ⟨Picc.activated, none⟩⟩ ↔
      AgreeWhen 252 256 (sampleApp [0x91, 0x00] []) (apdu 0x5A [0, 0, 0])
        ⟨activate [2, 0x08], ⟨Picc.activated, none⟩⟩ :=
  chipsAgree_iff 252 _ 0x5A [0, 0, 0] _ (ready_activate [2, 0x08]) (by decide) (by decide) (by decide)

/-- A WriteData of 247 parameter bytes: the PN5180 delivers its APDU of 253 bytes, the PN532 driver
refuses it. -/
theorem not_chipsAgree_253 :
    ¬ ChipsAgree 252 (sampleApp [0x91, 0x00] []) (apdu 0x3D (List.replicate 247 0))
      ⟨activate [2, 0x08], ⟨Picc.activated, none⟩⟩ := by
  have hlen : (apdu 0x3D (List.replicate 247 0)).length = 253 := by
    rw [length_apdu, List.length_replicate]
  rw [chipsAgree_single (ready_activate [2, 0x08]) (apdu_ne_nil _ _) (by decide) ?_ ⟨?_, rfl, ?_⟩, hlen]
  · exact fun hx => absurd hx.1 (by decide)
  · show ([0x91, 0x00] : Bytes).length ≤ 280
    decide
  · show (apdu 0x3D (List.replicate 247 0)).length + 1 ≤ _
    rw [hlen]
    decide
  · show ([0x91, 0x00] : Bytes).length ≤ 259
    decide

end Swap

end LeafReader
