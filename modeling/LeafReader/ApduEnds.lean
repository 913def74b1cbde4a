import LeafReader.ApduCommand

/-!
# When the exchange ends

R(ACK)s are bounded by the command and INF bytes by the receive buffer, but a request for time, an
I-block without INF and an R-block once the answer has begun use up neither: a call ends exactly if
some answer of the card does not keep it going, and within a bound in the number of these idle
frames.
-/

namespace LeafReader

/-- The R-blocks after the first I-block. -/
def lateAcks (fs : List Bytes) : Nat := (fs.dropWhile fun f => !isI f).countP isR

/-- The frames that bring a call no further: requests for time, I-blocks without INF, and R-blocks
after the first I-block. -/
def idle (fs : List Bytes) : Nat :=
  fs.countP (fun f => isWtx (f.getD 0 0) || isI f && f.length == 1) + lateAcks fs

theorem acks_add_lateAcks (fs : List Bytes) : acks fs + lateAcks fs = fs.countP isR := by
  rw [acks, lateAcks, ← List.countP_append, List.takeWhile_append_dropWhile]

theorem lateAcks_append (fs : List Bytes) (f : Bytes) :
    lateAcks (fs ++ [f]) = lateAcks fs + if isR f && fs.any isI then 1 else 0 := by
  have h := acks_add_lateAcks (fs ++ [f])
  have h' := acks_add_lateAcks fs
  rw [acks_append, List.countP_append, List.countP_singleton] at h
  cases hr : isR f <;> cases hi : fs.any isI <;> simp only [hr, hi] at h ⊢ <;> simp at h ⊢ <;> omega

theorem idle_append (fs : List Bytes) (f : Bytes) : idle (fs ++ [f]) = idle fs +
    ((if isWtx (f.getD 0 0) || isI f && f.length == 1 then 1 else 0) +
      if isR f && fs.any isI then 1 else 0) := by
  rw [idle, idle, lateAcks_append, List.countP_append, List.countP_singleton]
  omega

section

variable {x : Exchange} {n : Nat} {s : ApduLoop Tape}

theorem Exchange.Taken.mono {m : Nat} (h : x.Taken n) (hle : m ≤ n) : x.Taken m :=
  fun i hi => h i (Nat.lt_of_lt_of_le hi hle)

/-- Every answer that keeps a call going acknowledges a segment, brings INF bytes or is idle. -/
theorem Exchange.Taken.le (h : x.Taken n) :
    n ≤ acks (x.heard n) + (infs (x.heard n)).length + idle (x.heard n) := by
  induction n with
  | zero => exact Nat.zero_le _
  | succ n ih =>
    have hle := ih (h.mono (Nat.le_succ n))
    rw [x.heard_succ, acks_append, infs_append, idle_append, List.length_append, infs_singleton]
    rcases (h n (Nat.lt_succ_self n)).2 with hw | ⟨ha, -⟩ | ⟨hi, -, -⟩
    · rw [hw, Bool.true_or, if_pos rfl]
      omega
    · rw [(isAck_kind ha).2.2]
      cases (x.heard n).any isI <;> simp only [Bool.and_true, Bool.and_false, Bool.not_true,
        Bool.not_false, ↓reduceIte, Bool.false_eq_true] <;> omega
    · rw [hi, if_pos rfl, List.length_drop]
      by_cases h1 : (hearing x.answers n).length = 1
      · simp only [h1, BEq.rfl, Bool.and_true, Bool.or_true, ↓reduceIte]
        omega
      · have hpos := (h n (Nat.lt_succ_self n)).1.length_pos
        omega

theorem Exchange.Taken.room (h : x.Taken n) : (infs (x.heard n)).length ≤ x.rxBuf := by
  induction n with
  | zero => exact Nat.zero_le _
  | succ n ih =>
    have hle := ih (h.mono (Nat.le_succ n))
    rw [x.heard_succ, infs_append, List.length_append, infs_singleton]
    rcases (h n (Nat.lt_succ_self n)).2 with hw | ⟨ha, -⟩ | ⟨hi, -, hfit⟩
    · rw [(isWtx_kind hw).1]
      simpa using hle
    · rw [(isAck_kind ha).2.1]
      simpa using hle
    · rw [hi, if_pos rfl, List.length_drop]
      exact hfit

theorem Exchange.Taken.acks_lt (h : x.Taken n) (htx : x.tx ≠ []) :
    acks (x.heard n) * x.seg < x.tx.length := by
  induction n with
  | zero =>
    rw [show acks (x.heard 0) = 0 from rfl, Nat.zero_mul]
    exact List.length_pos_of_ne_nil htx
  | succ n ih =>
    have hlt := ih (h.mono (Nat.le_succ n))
    rw [x.heard_succ, acks_append]
    rcases (h n (Nat.lt_succ_self n)).2 with hw | ⟨-, hmore⟩ | ⟨hi, -, -⟩
    · rw [(isWtx_kind hw).2]
      simpa using hlt
    · split
      · exact hmore
      · exact hlt
    · rw [(isI_kind hi).2]
      simpa using hlt

/-- Frames of a call with at most `w` idle answers. -/
def Exchange.bound (x : Exchange) (w : Nat) : Nat := (x.tx.length - 1) / x.seg + x.rxBuf + w + 1

theorem Exchange.Taken.lt_bound (h : x.Taken n) (htx : x.tx ≠ []) {w : Nat}
    (hw : ∀ n, idle (x.heard n) ≤ w) : n < x.bound w := by
  have hseg : 0 < x.seg := by have := x.fsc_bounds.1; unfold seg; omega
  have hacks : acks (x.heard n) ≤ (x.tx.length - 1) / x.seg :=
    (Nat.le_div_iff_mul_le hseg).2 (by have := h.acks_lt htx; omega)
  have hle := h.le
  have hroom := h.room
  have hidle := hw n
  unfold bound
  omega

/-- Frames sent, and whether the driver has taken in the last answer. -/
def ApduLoop.progress (s : ApduLoop Tape) : Nat :=
  2 * s.tape.length + match s.point with
    | .head => 1
    | .got _ => 0

theorem AtTurn.progress (h : AtTurn x n s) : s.progress = 2 * n + 1 := by
  rw [ApduLoop.progress, h.point, length_of_record h.record]

theorem AtReply.progress (h : AtReply x n s) : s.progress = 2 * (n + 1) := by
  rw [ApduLoop.progress, h.point, length_of_record h.record]
  rfl

theorem On.progress_lt {s' : ApduLoop Tape} (h : On x s) (hs : x.step s = .inl s') :
    s.progress < s'.progress := by
  obtain ⟨n, hturn | hreply⟩ := h
  · rcases hturn.step_cases with ⟨s'', hs'', h''⟩ | ⟨call, hcall, -⟩
    · cases hs''.symm.trans hs
      rw [hturn.progress, h''.progress]
      omega
    · cases hcall.symm.trans hs
  · rcases hreply.step_cases with ⟨s'', hs'', h'' | h''⟩ | ⟨call, hcall, -⟩
    · cases hs''.symm.trans hs
      rw [hreply.progress, h''.progress]
      omega
    · cases hs''.symm.trans hs
      rw [hreply.progress, h''.progress]
      omega
    · cases hcall.symm.trans hs

theorem On.progress_le {m : Nat} (hm : ¬ x.Taken m) (h : On x s) : s.progress ≤ 2 * m := by
  have hlt {n : Nat} (ht : x.Taken n) : n < m := Nat.lt_of_not_le fun hle => hm (ht.mono hle)
  obtain ⟨n, h | h⟩ := h
  · have := hlt h.taken
    rw [h.progress]
    omega
  · have := hlt h.taken
    rw [h.progress]
    omega

/-- The loop stops exactly if some answer is missing or does not keep it going. -/
theorem exists_call_iff (htx : x.tx ≠ []) :
    (∃ call, Returns x.step x.start call) ↔ ∃ n, ¬ x.Taken n := by
  constructor
  · rintro ⟨call, hcall⟩
    obtain ⟨n, hover, -⟩ := over_of_returns htx hcall
    exact ⟨n + 1, hover.stops⟩
  · rintro ⟨m, hm⟩
    exact exists_returns (I := On x) ApduLoop.progress (2 * m) (fun _ => On.progress_le hm)
      (fun _ _ h hs => ⟨h.step hs, h.progress_lt hs⟩) (.start htx)

end

/-- If at most `w` answers of the card are idle, the call returns, after at most
`(tx_len - 1) / (fsc_max - 1) + rx_buf + w + 1` frames. -/
theorem apdu_ends (x : Exchange) (w : Nat) (hw : ∀ n, idle (x.heard n) ≤ w) :
    ∃ call, Pn5180Apdu (onTape x.answers) x.tx x.rxBuf x.reader call ∧
      call.reader.chip.field.length ≤
        (x.tx.length - 1) / (x.fscMax.toNat - 1) + x.rxBuf + w + 1 := by
  simp only [x.returns_iff]
  by_cases htx : x.tx = []
  · exact ⟨x.start.ok, .done (x.step_nil htx), Nat.zero_le _⟩
  · obtain ⟨call, hcall⟩ := (exists_call_iff htx).2
      ⟨x.bound w, fun ht => Nat.lt_irrefl _ (ht.lt_bound htx hw)⟩
    obtain ⟨n, hover, -⟩ := over_of_returns htx hcall
    refine ⟨call, hcall, ?_⟩
    rw [hover.length]
    exact hover.taken.lt_bound htx hw

theorem idle_chained (n : Nat) : idle (chainedExchange.heard n) ≤ 0 := by
  induction n with
  | zero => exact Nat.le_refl 0
  | succ n ih =>
    rw [Exchange.heard_succ, idle_append]
    rcases n with _ | _ | n
    · have hack : hearing chainedExchange.answers 0 = [0x82] := rfl
      have hw : isWtx (([0x82] : Bytes).getD 0 0) = false := by decide
      have hi : isI [0x82] = false := by decide
      rw [hack, hw, hi, show chainedExchange.heard 0 = [] from rfl]
      exact Nat.le_refl 0
    · have hblock : hearing chainedExchange.answers 1 = [0x03, 0x91, 0x00] := rfl
      have hw : isWtx (([0x03, 0x91, 0x00] : Bytes).getD 0 0) = false := by decide
      have hr : isR [0x03, 0x91, 0x00] = false := by decide
      rw [hblock, hw, hr]
      simpa using ih
    · have hnone : hearing chainedExchange.answers (n + 2) = [] := rfl
      have hw : isWtx (([] : Bytes).getD 0 0) = false := by decide
      have hr : isR [] = false := by decide
      rw [hnone, hw, hr]
      simpa using ih

theorem apdu_ends_chained :
    ∃ call, Pn5180Apdu (onTape chainedExchange.answers) chainedExchange.tx
      280 chainedExchange.reader call ∧
      call.reader.chip.field.length ≤ (16 - 1) / 15 + 280 + 0 + 1 :=
  apdu_ends chainedExchange 0 idle_chained

/-- A card that asks for more time forever: no bound on the frames of a call holds of it. -/
theorem not_apdu_bounded :
    ¬ ∃ bound : Nat → Nat → Nat → Nat, ∀ x : Exchange, ∃ call,
      Pn5180Apdu (onTape x.answers) x.tx x.rxBuf x.reader call ∧
        call.reader.chip.field.length ≤ bound x.tx.length x.fscMax.toNat x.rxBuf := by
  rintro ⟨bound, h⟩
  let x : Exchange := ⟨[0x5A], 280, 16, false, none, fun _ => some [0xF2, 0x01], by decide⟩
  obtain ⟨call, hcall, -⟩ := h x
  obtain ⟨n, hn⟩ := (exists_call_iff (x := x) (by simp [x])).1 ⟨call, (x.returns_iff call).1 hcall⟩
  have haud : Audible [0xF2, 0x01] := ⟨by decide, by decide⟩
  exact hn fun i _ => ⟨⟨[0xF2, 0x01], rfl, haud⟩, .inl isWtx_req⟩

end LeafReader
