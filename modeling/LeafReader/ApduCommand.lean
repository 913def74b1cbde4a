import LeafReader.ApduTape

/-!
# The command on the air

What the frames of a call carry of the command. An I-block that comes before the last segment is out is
taken for the answer, and the rest of the command stays unsent; and a full segment leaves no room for
the CRC in the card's frame size.
-/

namespace LeafReader

section

variable {x : Exchange} {n : Nat} {s : ApduLoop Tape} {call : ApduCall Tape}

/-- The command went out in the I-blocks sent, and the caller has the INF fields of the I-blocks heard
from the last of them on. -/
structure CommandSent (x : Exchange) (call : ApduCall Tape) : Prop where
  sent : infs (call.reader.chip.field.map Prod.fst) = x.tx
  received : call.rx = infs ((sinceCommand call.reader.chip.field).map Prod.snd)
  rxLen : call.rxLen = some call.rx.length

theorem Exchange.returns_iff (x : Exchange) (call : ApduCall Tape) :
    Pn5180Apdu (onTape x.answers) x.tx x.rxBuf x.reader call ↔ Returns x.step x.start call :=
  pn5180Apdu_iff _ rfl

/-- The first I-block of the card comes after the R(ACK)s to all segments but the last. -/
def AnswersLast (x : Exchange) : Prop :=
  ∀ n, isI (hearing x.answers n) = true → (x.heard n).any isI = false →
    x.tx.length ≤ (acks (x.heard n) + 1) * x.seg

theorem Exchange.hearing_mem (x : Exchange) {i : Nat} (h : i < n) :
    hearing x.answers i ∈ x.heard n :=
  List.mem_map_of_mem (List.mem_range.2 h)

theorem Exchange.first_block (x : Exchange) (h : (x.heard n).any isI = true) :
    ∃ i < n, isI (hearing x.answers i) = true ∧ (x.heard i).any isI = false ∧
      acks (x.heard n) = acks (x.heard i) := by
  induction n with
  | zero => cases h
  | succ n ih =>
    rw [x.heard_succ, acks_append]
    cases hany : (x.heard n).any isI with
    | true =>
      obtain ⟨i, hlt, hi, hno, hacks⟩ := ih hany
      exact ⟨i, by omega, hi, hno, by simp [hacks]⟩
    | false =>
      have hi : isI (hearing x.answers n) = true := by
        rw [x.heard_succ, List.any_append, hany] at h
        simpa using h
      exact ⟨n, by omega, hi, hany, by simp [(isI_kind hi).2]⟩

theorem answersLast_iff (h : (x.heard n).any isI = true) :
    AnswersLast x ↔ x.tx.length ≤ (acks (x.heard n) + 1) * x.seg := by
  obtain ⟨i, -, hi, hno, hacks⟩ := x.first_block h
  rw [hacks]
  constructor
  · intro hlast
    exact hlast i hi hno
  · intro hle j hj hnoj
    -- there is only one first I-block
    rw [List.any_eq_false] at hno hnoj
    rcases Nat.lt_trichotomy i j with hlt | rfl | hlt
    · exact absurd hi (hnoj _ (x.hearing_mem hlt))
    · exact hle
    · exact absurd hj (hno _ (x.hearing_mem hlt))

theorem Succeeds.sent_iff (h : Succeeds x n s call) : CommandSent x call ↔ AnswersLast x := by
  have hs := h.at_reply
  have hany : (x.heard (n + 1)).any isI = true := by
    rw [x.heard_succ, List.any_append]
    simp [h.block]
  have hacks : acks (x.heard (n + 1)) = acks (x.heard n) := by
    rw [x.heard_succ, acks_append, (isI_kind h.block).2]
    simp
  have hsent : infs (call.reader.chip.field.map Prod.fst) =
      x.tx.take (min ((acks (x.heard n) + 1) * x.seg) x.tx.length) := by
    rw [h.tape, hs.sent.command, hs.segments.txSent]
  rw [answersLast_iff hany, hacks]
  constructor
  · intro hall
    have hlen := List.take_eq_self_iff _ |>.1 (hsent.symm.trans hall.sent)
    omega
  · intro hle
    refine ⟨?_, ?_, h.rxLen⟩
    · rw [hsent, Nat.min_eq_right hle, List.take_length]
    · rw [h.rx, h.tape, hs.sent.since, hs.record]

end

/-- Of a call that succeeds: the whole command went out, and `rx` is the answer to it, exactly if no
I-block of the card came before its R(ACK)s to all segments but the last. -/
theorem commandSent_iff (x : Exchange) (call : ApduCall Tape) (htx : x.tx ≠ [])
    (h : Pn5180Apdu (onTape x.answers) x.tx x.rxBuf x.reader call) (hok : call.ret = .ok) :
    CommandSent x call ↔ AnswersLast x := by
  obtain ⟨n, -, hsucc⟩ := over_of_returns htx ((x.returns_iff call).1 h)
  obtain ⟨m, s, hm⟩ := hsucc hok
  exact hm.sent_iff

/-- Frames of 16 bytes, and a card that answers the first one with status 0x9100. -/
def hasty (tx : Bytes) : Exchange :=
  ⟨tx, 280, 16, false, none, fun n => if n = 0 then some [0x02, 0x91, 0x00] else none, by decide⟩

/-- How a call with `hasty` ends, whose first frame is `frame`. -/
def hastyCall (frame : Bytes) : ApduCall Tape :=
  ⟨.ok, [0x91, 0x00], some 2, ⟨⟨true, 1, 16⟩, ⟨[(frame, [0x02, 0x91, 0x00])], none⟩⟩⟩

/-- Sixteen bytes in frames of 16, and a card that acknowledges the first frame and answers the second. -/
def chainedExchange : Exchange :=
  ⟨.replicate 16 0x5A, 280, 16, false, none,
    fun n => if n = 0 then some [0x82] else if n = 1 then some [0x03, 0x91, 0x00] else none, by decide⟩

def chainedCall : ApduCall Tape :=
  ⟨.ok, [0x91, 0x00], some 2, ⟨⟨true, 0, 16⟩,
    ⟨[(0x12 :: .replicate 15 0x5A, [0x82]), ([0x03, 0x5A], [0x03, 0x91, 0x00])], none⟩⟩⟩

theorem commandSent_chained : CommandSent chainedExchange chainedCall ↔ AnswersLast chainedExchange :=
  commandSent_iff chainedExchange chainedCall (by decide) ((Exchange.returns_iff _ _).2 ⟨4, rfl⟩) rfl

/-- Sixteen bytes in frames of sixteen: the call succeeds with fifteen of them sent. -/
theorem not_commandSent_hasty :
    ¬ ∀ (x : Exchange) (call : ApduCall Tape), x.tx ≠ [] →
      Pn5180Apdu (onTape x.answers) x.tx x.rxBuf x.reader call → call.ret = .ok →
      CommandSent x call := by
  intro h
  have hsent := (h (hasty (List.replicate 16 0x5A)) (hastyCall (0x12 :: List.replicate 15 0x5A))
    (by decide) ((Exchange.returns_iff _ _).2 ⟨3, rfl⟩) rfl).sent
  exact absurd hsent (by decide)

/-! ### Frame sizes -/

/-- With the CRC the frame fits into frames of `fsc` bytes, and an I-block has an INF byte. -/
def FrameFits (fsc : Nat) (frame : Bytes) : Prop :=
  frame.length + 2 ≤ fsc ∧ (isI frame = true → 2 ≤ frame.length)

/-- The call passes `frame` to `pn5180_send_data`. -/
def Exchange.Passes (x : Exchange) (frame : Bytes) : Prop :=
  (∃ s, Reaches x.step x.start s ∧ frame ∈ s.tape.map Prod.fst) ∨
    ∃ call, Returns x.step x.start call ∧ frame ∈ call.reader.chip.field.map Prod.fst

section

variable {x : Exchange} {n : Nat} {s : ApduLoop Tape} {call : ApduCall Tape}

theorem On.sent (h : On x s) : Sent x.tx s.txSent s.tape := by
  obtain ⟨n, h | h⟩ := h
  · exact h.sent
  · exact h.sent

theorem Sent.frameFits {k : Nat} {tape : Tape} (h : Sent x.tx k tape)
    (hfit : x.tx.length + 3 ≤ x.fscMax.toNat) {frame : Bytes} (hm : frame ∈ tape.map Prod.fst) :
    FrameFits x.fscMax.toNat frame := by
  obtain ⟨e, he, rfl⟩ := List.mem_map.1 hm
  have h16 := x.fsc_bounds.1
  rcases h.size e he with ⟨hi, hlen⟩ | ⟨h2, hlen⟩
  · exact ⟨by omega, fun h => by rw [hi] at h; cases h⟩
  · exact ⟨by omega, fun _ => h2⟩

/-- The first frame carries as much of the command as a full segment holds. -/
theorem Exchange.first_frame (x : Exchange) (htx : x.tx ≠ []) :
    ∃ frame, x.Passes frame ∧ min x.seg x.tx.length + 1 ≤ frame.length := by
  obtain ⟨frame, s, hstep, hsends⟩ := (atTurn_start htx).sends
  have htape : s.tape = [] := List.map_eq_nil_iff.1 hsends.record
  refine ⟨frame, ?_, ?_⟩
  · by_cases hr : Reply x.answers s.tape.length
    · have hs' := hstep.trans (exchangeFrame_reply id hsends.length hr)
      exact .inl ⟨_, .single hs', by simp⟩
    · obtain ⟨call, hcall, -, -, -, hfield⟩ :=
        exchangeFrame_no_reply id hsends.length (fun _ he => he) hr
      exact .inr ⟨call, .done (hstep.trans hcall), by simp [hfield]⟩
  · have hsent : s.txSent = min x.seg x.tx.length := by
      have h := hsends.segments.txSent
      rwa [show acks (x.heard 0) = 0 from rfl, Nat.zero_add, Nat.one_mul] at h
    have hcommand := congrArg List.length (hsends.goes []).command
    rw [htape, hsent] at hcommand
    simp only [List.nil_append, List.map_singleton, infs_singleton, List.length_take] at hcommand
    have hpos := List.length_pos_of_ne_nil htx
    have hseg : 15 ≤ x.seg := by have := x.fsc_bounds.1; unfold seg; omega
    cases hi : isI frame with
    | true =>
      rw [hi, if_pos rfl, List.length_drop] at hcommand
      omega
    | false =>
      rw [hi, if_neg (by simp), List.length_nil] at hcommand
      omega

/-- Nothing is sent of an empty command. -/
theorem Exchange.step_nil (x : Exchange) (htx : x.tx = []) : x.step x.start = .inr x.start.ok := by
  simp [step, pn5180ApduStep, start, ApduLoop.start, htx]

theorem Exchange.passes_fits (x : Exchange) (hfit : x.tx.length + 3 ≤ x.fscMax.toNat)
    {frame : Bytes} (h : x.Passes frame) : FrameFits x.fscMax.toNat frame := by
  by_cases htx : x.tx = []
  · have hend := x.step_nil htx
    rcases h with ⟨s, hreach, hm⟩ | ⟨call, hcall, hm⟩
    · rcases hreach.cases_head with rfl | ⟨s', hs', -⟩
      · cases hm
      · cases hend.symm.trans hs'
    · cases (Returns.done hend).unique hcall
      cases hm
  · rcases h with ⟨s, hreach, hm⟩ | ⟨call, hcall, hm⟩
    · exact (on_of_reaches htx hreach).sent.frameFits hfit hm
    · obtain ⟨n, hover, -⟩ := over_of_returns htx hcall
      obtain ⟨k, hk⟩ := hover.sent
      exact hk.frameFits hfit hm

end

/-- An exchange after the activation with `ats`. -/
def Exchange.ofAts (ats tx : Bytes) (rxBuf : Nat) (number : Bool) (stale : Option Bytes)
    (answers : ℕ → Option Bytes) : Exchange :=
  ⟨tx, rxBuf, fscOfAts ats, number, stale, answers, fscOfAts_bounds ats⟩

/-- Whatever the card's ATS and answers: every frame fits the card's frame size with its CRC exactly if
the command is three bytes shorter than that. -/
theorem framesFit_iff (ats tx : Bytes) (rxBuf : Nat) (number : Bool) (stale : Option Bytes)
    (answers : ℕ → Option Bytes) :
    (∀ frame, (Exchange.ofAts ats tx rxBuf number stale answers).Passes frame →
      FrameFits (fscOfAts ats).toNat frame) ↔ tx.length + 3 ≤ (fscOfAts ats).toNat := by
  set x := Exchange.ofAts ats tx rxBuf number stale answers
  constructor
  · intro h
    by_contra hlt
    have htx : x.tx ≠ [] := by
      intro hnil
      have h16 := x.fsc_bounds.1
      have hlen : tx.length = 0 := congrArg List.length hnil
      have hfsc : (fscOfAts ats).toNat = x.fscMax.toNat := rfl
      omega
    obtain ⟨frame, hpass, hlen⟩ := x.first_frame htx
    have hfits := (h frame hpass).1
    have hseg : x.seg = (fscOfAts ats).toNat - 1 := rfl
    have htxlen : x.tx.length = tx.length := rfl
    omega
  · intro h frame hpass
    exact x.passes_fits h hpass

/-- A card with frames of 64 bytes, and a command of 62. -/
theorem not_framesFit_sixty_two :
    ¬ ∀ frame, (Exchange.ofAts [6, 0x75, 0x77, 0x81, 0x02, 0x80] (List.replicate 62 0x90) 280 false
      none fun _ => none).Passes frame →
        FrameFits (fscOfAts [6, 0x75, 0x77, 0x81, 0x02, 0x80]).toNat frame := by
  intro h
  have hpass : (Exchange.ofAts [6, 0x75, 0x77, 0x81, 0x02, 0x80] (List.replicate 62 0x90) 280 false
      none fun _ => none).Passes (0x02 :: List.replicate 62 0x90) :=
    .inr ⟨⟨.timeout, [], none, ⟨⟨true, 0, 64⟩, ⟨[(0x02 :: List.replicate 62 0x90, [])], none⟩⟩⟩,
      ⟨1, rfl⟩, .head _⟩
  exact absurd (h _ hpass).1 (by decide)

end LeafReader
