import LeafReader.ApduEnds

/-!
# Block numbers of the answers

The driver toggles its block number on every block it takes and never looks at the number of the block.
`blocksInTurn_iff` says on which answers it takes only blocks in turn: those whose own numbers alternate
from the driver's on. On any other answers a late or repeated block is taken.
-/

namespace LeafReader

/-- From `s` the driver takes the block at hand: the block number or `rx` changes, or it is the
driver's turn again. -/
def Accepted (s : ApduLoop Tape) : ApduLoop Tape ⊕ ApduCall Tape → Prop
  | .inl s' => s'.reader.card.blockNumber ≠ s.reader.card.blockNumber ∨ s'.rx ≠ s.rx ∨ s'.point = .head
  | .inr call => call.reader.card.blockNumber ≠ s.reader.card.blockNumber ∨ call.rx ≠ s.rx

/-- A block is taken only if it carries the driver's block number, and not a second time when it is
delivered twice in a row. -/
structure BlocksInTurn (x : Exchange) : Prop where
  turn : ∀ s resp, Reaches x.step x.start s → s.point = .got resp → Accepted s (x.step s) →
    resp.getD 0 0 &&& pcbBlockNumMask = s.reader.card.blockNumber
  once : ∀ s s1 s2 resp, Reaches x.step x.start s → s.point = .got resp →
    isWtx (resp.getD 0 0) = false → x.step s = .inl s1 → x.step s1 = .inl s2 → s2.point = .got resp →
    ¬ Accepted s2 (x.step s2)

/-- The answer `f` after the frames `past` is an I-block, or the R(ACK) to a segment that is not the
last. -/
def Exchange.Numbered (x : Exchange) (past : List Bytes) (f : Bytes) : Prop :=
  isI f = true ∨ (isAck f = true ∧ (acks past + 1) * x.seg < x.tx.length)

/-- The I-blocks and R(ACK)s that the call comes to carry alternating numbers, from the driver's on. -/
def InSequence (x : Exchange) : Prop :=
  x.tx ≠ [] → ∀ n, x.Taken n → Reply x.answers n → x.Numbered (x.heard n) (hearing x.answers n) →
    (hearing x.answers n).getD 0 0 &&& pcbBlockNumMask = x.numberAt n

section

variable {x : Exchange} {n : Nat} {s : ApduLoop Tape}

/-! ### Reached states -/

theorem AtTurn.next (h : AtTurn x n s) (hr : Reply x.answers n) :
    ∃ s', x.step s = .inl s' ∧ AtReply x n s' := by
  obtain ⟨frame, s1, hstep, hsends⟩ := h.sends
  obtain ⟨s', hs', hreply⟩ := hsends.reply id hr
  exact ⟨s', hstep.trans hs', hreply⟩

theorem AtReply.next (h : AtReply x n s) (hk : x.Keeps (x.heard n) (hearing x.answers n))
    (hr : Reply x.answers (n + 1)) : ∃ s', Reaches x.step s s' ∧ AtReply x (n + 1) s' := by
  rcases hk with hw | ⟨ha, hmore⟩ | ⟨hi, hch, hfit⟩
  · obtain ⟨frame, hstep, hsends⟩ := h.step_wtx hw
    obtain ⟨s', hs', hreply⟩ := hsends.reply (fun _ => .fail) hr
    exact ⟨s', .single (hstep.trans hs'), hreply⟩
  · obtain ⟨s1, hs1, hturn⟩ := h.step_ack ha hmore
    obtain ⟨s', hs', hreply⟩ := hturn.next hr
    exact ⟨s', .head hs1 (.single hs'), hreply⟩
  · obtain ⟨s1, hs1, hturn⟩ := h.step_part hi hch hfit
    obtain ⟨s', hs', hreply⟩ := hturn.next hr
    exact ⟨s', .head hs1 (.single hs'), hreply⟩

/-- The loop comes to every answer that the ones before it leave open. -/
theorem exists_atReply (htx : x.tx ≠ []) (ht : x.Taken n) (hr : Reply x.answers n) :
    ∃ s, Reaches x.step x.start s ∧ AtReply x n s := by
  induction n with
  | zero =>
    obtain ⟨s, hs, hreply⟩ := (atTurn_start htx).next hr
    exact ⟨s, .single hs, hreply⟩
  | succ n ih =>
    obtain ⟨hrn, hk⟩ := ht n (Nat.lt_succ_self n)
    obtain ⟨s, hreach, hreply⟩ := ih (ht.mono (Nat.le_succ n)) hrn
    obtain ⟨s', hs', hreply'⟩ := hreply.next hk hr
    exact ⟨s', hreach.trans hs', hreply'⟩

theorem atReply_of_reaches (htx : x.tx ≠ []) (h : Reaches x.step x.start s) {resp : Bytes}
    (hp : s.point = .got resp) : ∃ n, AtReply x n s ∧ resp = hearing x.answers n := by
  obtain ⟨n, hturn | hreply⟩ := on_of_reaches htx h
  · rw [hturn.point] at hp
    cases hp
  · rw [hreply.point] at hp
    cases hp
    exact ⟨n, hreply, rfl⟩

/-- A call, failed or not, leaves the driver in a state that an exchange starts from. -/
theorem exists_number_after {call : ApduCall Tape} (h : Returns x.step x.start call) :
    ∃ b, call.reader.card = ⟨true, bit b, x.fscMax⟩ := by
  by_cases htx : x.tx = []
  · cases (Returns.done (x.step_nil htx)).unique h
    exact ⟨x.number, rfl⟩
  · obtain ⟨n, hover, -⟩ := over_of_returns htx h
    exact hover.card

/-! ### Accepted blocks -/

theorem xor_one_ne (b : Bool) : bit b ^^^ 1 ≠ bit b := by decide +revert

/-- A frame waiting time extension is granted and not taken. -/
theorem AtReply.not_accepted_wtx (h : AtReply x n s)
    (hw : isWtx ((hearing x.answers n).getD 0 0) = true) : ¬ Accepted s (x.step s) := by
  obtain ⟨frame, hstep, hsends⟩ := h.step_wtx hw
  rw [hstep]
  by_cases hreply : Reply x.answers s.tape.length
  · rw [exchangeFrame_reply (fun _ => .fail) hsends.length hreply]
    rintro (hne | hne | hhead)
    · exact hne rfl
    · exact hne rfl
    · cases hhead
  · obtain ⟨call, hcall, -, hcard, hrx, -⟩ :=
      exchangeFrame_no_reply (fun _ => .fail) hsends.length (fun _ _ => by simp) hreply
    rw [hcall]
    rintro (hne | hne)
    · exact hne (by rw [hcard])
    · exact hne hrx

/-- What the driver takes is an I-block, or the R(ACK) to a segment that is not the last. -/
theorem AtReply.accepted_iff (h : AtReply x n s) :
    Accepted s (x.step s) ↔ x.Numbered (x.heard n) (hearing x.answers n) := by
  have htoggle : s.reader.toggle.card.blockNumber ≠ s.reader.card.blockNumber := by
    show s.reader.card.blockNumber ^^^ 1 ≠ _
    rw [h.card]
    exact xor_one_ne _
  cases hw : isWtx ((hearing x.answers n).getD 0 0) with
  | true =>
    obtain ⟨hi, hr⟩ := isWtx_kind hw
    have hack : isAck (hearing x.answers n) = false := by simp [isAck, hr]
    refine iff_of_false (h.not_accepted_wtx hw) ?_
    rintro (hi' | ⟨ha', -⟩)
    · rw [hi] at hi'
      cases hi'
    · rw [hack] at ha'
      cases ha'
  | false =>
    cases hi : isI (hearing x.answers n) with
    | true =>
      refine iff_of_true ?_ (.inl hi)
      rw [h.step_iBlock hi]
      split
      · exact .inl htoggle
      · split
        · exact .inl htoggle
        · exact .inl htoggle
    | false =>
      by_cases ha : isAck (hearing x.answers n) = true ∧
          (acks (x.heard n) + 1) * x.seg < x.tx.length
      · obtain ⟨s', hs', hturn⟩ := h.step_ack ha.1 ha.2
        rw [hs']
        exact iff_of_true (.inr (.inr hturn.point)) (.inr ha)
      · rw [h.step_refused hw hi ha]
        refine iff_of_false ?_ ?_
        · rintro (hne | hne)
          · exact hne rfl
          · exact hne rfl
        · rintro (hi' | ha')
          · rw [hi] at hi'
            cases hi'
          · exact ha ha'

theorem Exchange.numberAt_succ_ne (hw : isWtx ((hearing x.answers n).getD 0 0) = false) :
    x.numberAt (n + 1) ≠ x.numberAt n := by
  rw [x.numberAt_succ, hw]
  exact xor_one_ne _

theorem InSequence.turn (hseq : InSequence x) (htx : x.tx ≠ []) (h : AtReply x n s)
    (ha : Accepted s (x.step s)) :
    (hearing x.answers n).getD 0 0 &&& pcbBlockNumMask = x.numberAt n :=
  hseq htx n h.taken h.reply (h.accepted_iff.1 ha)

/-- A block that is not a request for time and keeps the call going is taken. -/
theorem AtReply.accepted_of_next (h : AtReply x n s) {s1 : ApduLoop Tape} (hs : x.step s = .inl s1)
    (hw : isWtx ((hearing x.answers n).getD 0 0) = false) :
    Accepted s (x.step s) ∧ AtTurn x (n + 1) s1 := by
  by_cases hnum : x.Numbered (x.heard n) (hearing x.answers n)
  · refine ⟨h.accepted_iff.2 hnum, ?_⟩
    rcases hnum with hi | ⟨ha, hmore⟩
    · by_cases hk : x.Keeps (x.heard n) (hearing x.answers n)
      · obtain ⟨hch, hfit⟩ := (x.keeps_of_isI _ hi).1 hk
        obtain ⟨s', hs', hturn⟩ := h.step_part hi hch hfit
        cases hs'.symm.trans hs
        exact hturn
      · -- the last part of the answer, or one part too many
        rw [x.keeps_of_isI _ hi, ← h.rx] at hk
        rw [h.step_iBlock hi] at hs
        split at hs
        · cases hs
        · rw [if_neg fun hch => hk ⟨hch, by omega⟩] at hs
          cases hs
    · obtain ⟨s', hs', hturn⟩ := h.step_ack ha hmore
      cases hs'.symm.trans hs
      exact hturn
  · rw [Exchange.Numbered, not_or] at hnum
    rw [h.step_refused hw (by simpa using hnum.1) hnum.2] at hs
    cases hs

end

/-- The driver takes only blocks in turn, and none twice, exactly if the I-blocks and R(ACK)s it comes to
carry alternating numbers, from its own block number on. -/
theorem blocksInTurn_iff (x : Exchange) : BlocksInTurn x ↔ InSequence x := by
  constructor
  · intro h htx n ht hr hnum
    obtain ⟨s, hreach, hreply⟩ := exists_atReply htx ht hr
    rw [h.turn s _ hreach hreply.point (hreply.accepted_iff.2 hnum), hreply.card]
  · intro hseq
    have hgot {s : ApduLoop Tape} {resp : Bytes} (hreach : Reaches x.step x.start s)
        (hp : s.point = .got resp) : x.tx ≠ [] := by
      intro htx
      rcases hreach.cases_head with rfl | ⟨s', hs', -⟩
      · cases hp
      · cases (x.step_nil htx).symm.trans hs'
    constructor
    · intro s resp hreach hp ha
      obtain ⟨n, hreply, rfl⟩ := atReply_of_reaches (hgot hreach hp) hreach hp
      rw [hseq.turn (hgot hreach hp) hreply ha, hreply.card]
    · intro s s1 s2 resp hreach hp hw hs1 hs2 hp2 ha2
      have htx := hgot hreach hp
      obtain ⟨n, hreply, rfl⟩ := atReply_of_reaches htx hreach hp
      obtain ⟨ha, hturn⟩ := hreply.accepted_of_next hs1 hw
      rcases hturn.step_cases with ⟨s', hs', hreply2⟩ | ⟨call, hcall, -⟩
      · cases hs'.symm.trans hs2
        have hsame : hearing x.answers n = hearing x.answers (n + 1) :=
          ApduPoint.got.inj (hp2.symm.trans hreply2.point)
        have hbit := hseq.turn htx hreply2 ha2
        rw [← hsame, hseq.turn htx hreply ha] at hbit
        exact x.numberAt_succ_ne hw hbit.symm
      · cases hcall.symm.trans hs2

/-- A card that repeats the first part of its answer instead of going on. -/
def stutter : Exchange :=
  { hasty [0x5A] with answers := fun n => [[0x12, 0xAA], [0x12, 0xAA], [0x03, 0x91, 0x00]][n]? }

/-- The repeated part is in the caller's answer twice. -/
theorem not_blocksInTurn_stutter :
    ¬ BlocksInTurn stutter ∧ ∃ call, Returns stutter.step stutter.start call ∧ call.ret = .ok ∧
      call.rx = [0xAA, 0xAA, 0x91, 0x00] := by
  refine ⟨fun h => ?_, _, ⟨8, rfl⟩, rfl, rfl⟩
  have haud : Audible [0x12, 0xAA] := ⟨by decide, by decide⟩
  have hfirst : stutter.Keeps (stutter.heard 0) (hearing stutter.answers 0) :=
    .inr (.inr ⟨by decide, by decide, by decide⟩)
  have ht : stutter.Taken 1 := by
    intro i hi
    obtain rfl : i = 0 := Nat.lt_one_iff.1 hi
    exact ⟨⟨[0x12, 0xAA], rfl, haud⟩, hfirst⟩
  obtain ⟨s, hreach, hreply⟩ := exists_atReply (by decide) ht ⟨[0x12, 0xAA], rfl, haud⟩
  have hbit := h.turn s _ hreach hreply.point (hreply.accepted_iff.2 (.inl (by decide)))
  rw [hreply.card] at hbit
  exact absurd hbit (by decide)

end LeafReader
