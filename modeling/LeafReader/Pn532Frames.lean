import LeafReader.DesfireXfer
import LeafReader.Pn532
import Mathlib.Algebra.BigOperators.Group.List.Basic
import Mathlib.Data.UInt

/-!
# Frames of `send_frame` read by `read_response`

Both checksums of a frame are sums that have to vanish, and one changed byte changes a sum. The
length byte has a checksum of its own, so that a frame with a changed length is refused before the
length is used.
-/

namespace LeafReader

/-! ### Sums -/

/-- Another entry at one place changes the sum. -/
theorem sum_set_eq_iff {G : Type*} [AddCommGroup G] {l : List G} {n : ℕ} (hn : n < l.length) (a : G) :
    (l.set n a).sum = l.sum ↔ a = l[n] := by
  rw [List.sum_set', dif_pos hn, add_eq_left, neg_add_eq_zero, eq_comm]

theorem dcsOf_eq_sum (body : Bytes) : dcsOf body = body.sum := List.sum_eq_foldl.symm

/-! ### The buffer of `read_response` -/

/-- The loop that reads `n` more bytes of the body: `out_body`, of `bufLen` bytes, and `dcs_calc`. -/
def readBody (bufLen : Nat) (f : Bytes) : Nat → Bytes → UInt8 → Except Fault (Bytes × UInt8)
  | 0, out, dcs => .ok (out, dcs)
  | n + 1, out, dcs => do
    let b := f.getD (5 + out.length) 0
    let out ← fill bufLen (out ++ [b])
    readBody bufLen f n out (dcs + b)

/-- `read_response`, and the bytes it has written to `out_body`. -/
def readResponseInto (bufLen : Nat) : Option Bytes → Except Fault (Except EspErr Bytes × Bytes)
  | none => .ok (.error .timeout, [])
  | some f =>
    let len := f.getD 3 0
    if f.getD 0 0 ≠ 0x00 ∨ f.getD 1 0 ≠ 0x00 ∨ f.getD 2 0 ≠ 0xFF then .ok (.error .invalidResponse, [])
    else if len + f.getD 4 0 ≠ 0 then .ok (.error .invalidCrc, [])
    else if len.toNat > bufLen then .ok (.error .invalidSize, [])
    else do
      let (out, dcs) ← readBody bufLen f len.toNat [] 0
      if dcs + f.getD (5 + len.toNat) 0 ≠ 0 then return (.error .invalidCrc, out)
      return (.ok out, out)

/-- The `n` bytes of the body. -/
def bodyOf (f : Bytes) (n : Nat) : Bytes := (List.range n).map fun i => f.getD (5 + i) 0

@[simp] theorem length_bodyOf (f : Bytes) (n : Nat) : (bodyOf f n).length = n := by
  simp [bodyOf]

theorem bodyOf_succ (f : Bytes) (n : Nat) : bodyOf f (n + 1) = bodyOf f n ++ [f.getD (5 + n) 0] := by
  simp [bodyOf, List.range_succ]

theorem readBody_eq {bufLen : Nat} (f : Bytes) (n : Nat) {k : Nat} (h : k + n ≤ bufLen) :
    readBody bufLen f n (bodyOf f k) (dcsOf (bodyOf f k)) =
      .ok (bodyOf f (k + n), dcsOf (bodyOf f (k + n))) := by
  induction n generalizing k with
  | zero => rfl
  | succ n ih =>
    have hdcs : dcsOf (bodyOf f k) + f.getD (5 + k) 0 = dcsOf (bodyOf f (k + 1)) := by
      simp [bodyOf_succ, dcsOf]
    have hstep := ih (show k + 1 + n ≤ bufLen by omega)
    rw [show k + 1 + n = k + (n + 1) by omega, ← hdcs, bodyOf_succ] at hstep
    rw [readBody, length_bodyOf, fill_of_le (by simp; omega)]
    exact hstep

/-- The body stays in the buffer, an accepted one is what is in it, and a frame with too long a body
writes nothing to it. -/
theorem readResponseInto_eq (bufLen : Nat) (f : Bytes) :
    ∃ out, readResponseInto bufLen (some f) = .ok (readResponse bufLen (some f), out) ∧
      (∀ body, readResponse bufLen (some f) = .ok body → out = body) ∧
        (bufLen < (f.getD 3 0).toNat → out = []) := by
  unfold readResponseInto readResponse
  dsimp only
  by_cases hstart : f.getD 0 0 ≠ 0x00 ∨ f.getD 1 0 ≠ 0x00 ∨ f.getD 2 0 ≠ 0xFF
  · rw [if_pos hstart, if_pos hstart]
    exact ⟨[], rfl, nofun, fun _ => rfl⟩
  rw [if_neg hstart, if_neg hstart]
  by_cases hlcs : f.getD 3 0 + f.getD 4 0 ≠ 0
  · rw [if_pos hlcs, if_pos hlcs]
    exact ⟨[], rfl, nofun, fun _ => rfl⟩
  rw [if_neg hlcs, if_neg hlcs]
  by_cases hlen : (f.getD 3 0).toNat > bufLen
  · rw [if_pos hlen, if_pos hlen]
    exact ⟨[], rfl, nofun, fun _ => rfl⟩
  rw [if_neg hlen, if_neg hlen]
  have hread := @readBody_eq bufLen f (f.getD 3 0).toNat 0 (by omega)
  rw [Nat.zero_add] at hread
  rw [show readBody bufLen f (f.getD 3 0).toNat [] 0 = _ from hread]
  refine ⟨bodyOf f (f.getD 3 0).toNat, ?_, ?_, fun h => absurd h hlen⟩
  · simp only [bind, Except.bind, pure, Except.pure]
    by_cases hdcs : dcsOf (bodyOf f (f.getD 3 0).toNat) + f.getD (5 + (f.getD 3 0).toNat) 0 ≠ 0
    · rw [if_pos hdcs]
      exact congrArg (fun r => Except.ok (r, _)) (if_pos hdcs).symm
    · rw [if_neg hdcs]
      exact congrArg (fun r => Except.ok (r, _)) (if_neg hdcs).symm
  · intro body hbody
    split at hbody
    · cases hbody
    · cases hbody
      rfl

/-! ### What is accepted -/

/-- An accepted frame: the start bytes, a length with its complement that the buffer holds, and a
sum of body and checksum that vanishes. -/
theorem readResponse_eq_ok {bufLen : Nat} {f body : Bytes} (h : readResponse bufLen (some f) = .ok body) :
    (f.getD 0 0 = 0x00 ∧ f.getD 1 0 = 0x00 ∧ f.getD 2 0 = 0xFF) ∧ f.getD 3 0 + f.getD 4 0 = 0 ∧
      (f.getD 3 0).toNat ≤ bufLen ∧ (bodyOf f ((f.getD 3 0).toNat + 1)).sum = 0 := by
  simp only [readResponse] at h
  split at h
  · cases h
  rename_i hstart
  push Not at hstart
  split at h
  · cases h
  rename_i hlcs
  split at h
  · cases h
  rename_i hlen
  split at h
  · cases h
  rename_i hdcs
  refine ⟨hstart, not_not.1 hlcs, Nat.not_lt.1 hlen, ?_⟩
  rw [bodyOf_succ, List.sum_append, List.sum_singleton, ← dcsOf_eq_sum]
  exact not_not.1 hdcs

theorem getD_set (f : Bytes) (i k : Nat) (b : UInt8) :
    (f.set i b).getD k 0 = if i = k ∧ i < f.length then b else f.getD k 0 := by
  rw [List.getD_eq_getElem?_getD, List.getD_eq_getElem?_getD, List.getElem?_set]
  by_cases hik : i = k
  · subst hik
    by_cases hi : i < f.length
    · simp [hi]
    · simp [hi]
  · simp [hik]

theorem bodyOf_set {f : Bytes} {i n : Nat} {b : UInt8} (hi : 5 ≤ i) (hif : i < f.length) :
    bodyOf (f.set i b) n = (bodyOf f n).set (i - 5) b := by
  refine List.ext_getElem (by simp) fun k h1 _ => ?_
  simp only [length_bodyOf] at h1
  rw [List.getElem_set]
  simp only [bodyOf, List.getElem_map, List.getElem_range, getD_set]
  by_cases hk : i = 5 + k
  · rw [if_pos ⟨hk, hif⟩, if_pos (by omega)]
  · rw [if_neg fun h => hk h.1, if_neg (by omega)]

/-! ### Round trip and corrupted bytes -/

theorem sendFrame_eq {body : Bytes} (h : body.length ≤ 254) :
    sendFrame body = .ok (0x01 :: infoFrame body) := by
  rw [sendFrame, if_neg (by omega), infoFrame]
  simp only [show body.length ≤ 255 by omega, ↓reduceIte]
  rfl

/-- `read_response` returns an error in place of a body, whatever the buffer. -/
def Refused (f : Bytes) : Prop :=
  ∀ bufLen, ∃ e out, readResponseInto bufLen (some f) = .ok (.error e, out)

theorem refused_of_not_ok {f : Bytes} (h : ∀ bufLen body, readResponse bufLen (some f) ≠ .ok body) :
    Refused f := by
  intro bufLen
  obtain ⟨out, hout, -, -⟩ := readResponseInto_eq bufLen f
  cases hr : readResponse bufLen (some f) with
  | ok body => exact absurd hr (h bufLen body)
  | error e => exact ⟨e, out, hr ▸ hout⟩

section Changed

variable {body : Bytes} (h : body.length ≤ 254)
include h

theorem infoFrame_eq : infoFrame body =
    [0x00, 0x00, 0xFF, body.length.toUInt8, (0x100 - body.length).toUInt8] ++
      (body ++ [0 - dcsOf body]) ++ [0x00] := by
  simp [infoFrame, show body.length ≤ 255 by omega]

theorem bodyOf_infoFrame : bodyOf (infoFrame body) (body.length + 1) = body ++ [0 - dcsOf body] := by
  have hmap := map_getD_range [0x00, 0x00, 0xFF, body.length.toUInt8, (0x100 - body.length).toUInt8]
    (body ++ [0 - dcsOf body]) [0x00]
  rw [← infoFrame_eq h, List.length_append] at hmap
  exact hmap

theorem sum_bodyOf_infoFrame : (bodyOf (infoFrame body) (body.length + 1)).sum = 0 := by
  rw [bodyOf_infoFrame h, List.sum_append, List.sum_singleton, ← dcsOf_eq_sum]
  exact add_zero_sub _

/-- A frame with one byte changed, but for the postamble, is refused. -/
theorem refused_set {i : Nat} {b : UInt8} (hi : i + 1 < (infoFrame body).length)
    (hb : (infoFrame body).getD i 0 ≠ b) : Refused ((infoFrame body).set i b) := by
  refine refused_of_not_ok fun bufLen body' hok => ?_
  obtain ⟨⟨h0, h1, h2⟩, hlcs, -, hsum⟩ := readResponse_eq_ok hok
  have hlen : (infoFrame body).length = body.length + 7 := by simp [infoFrame_eq h]
  have hif : i < (infoFrame body).length := by omega
  have hget : ∀ k, k ≠ i → ((infoFrame body).set i b).getD k 0 = (infoFrame body).getD k 0 := by
    intro k hk
    rw [getD_set, if_neg fun h => hk h.1.symm]
  have hself : ((infoFrame body).set i b).getD i 0 = b := by
    rw [getD_set, if_pos ⟨rfl, hif⟩]
  have hsum0 : (infoFrame body).getD 3 0 + (infoFrame body).getD 4 0 = 0 := by
    rw [infoFrame_eq h]
    exact len_add_lcs (by omega)
  rcases Nat.lt_or_ge i 5 with hi5 | hi5
  · -- a start byte, or one of the two bytes of the length, whose sum determines each from the other
    have hcases : i = 0 ∨ i = 1 ∨ i = 2 ∨ i = 3 ∨ i = 4 := by omega
    rcases hcases with rfl | rfl | rfl | rfl | rfl
    · exact hb (by rw [← hself, h0, infoFrame_eq h]; rfl)
    · exact hb (by rw [← hself, h1, infoFrame_eq h]; rfl)
    · exact hb (by rw [← hself, h2, infoFrame_eq h]; rfl)
    · rw [hself, hget 4 (by decide)] at hlcs
      exact hb (add_right_cancel (hsum0.trans hlcs.symm))
    · rw [hself, hget 3 (by decide)] at hlcs
      exact hb (add_left_cancel (hsum0.trans hlcs.symm))
  · -- the length is the one sent, and the sum of body and checksum tells the change
    have hn : (((infoFrame body).set i b).getD 3 0).toNat = body.length := by
      rw [hget 3 (by omega), infoFrame_eq h]
      show (body.length.toUInt8).toNat = body.length
      simp
      omega
    rw [hn, bodyOf_set hi5 hif, ← sum_bodyOf_infoFrame h] at hsum
    have hk : i - 5 < (bodyOf (infoFrame body) (body.length + 1)).length := by
      rw [length_bodyOf]
      omega
    have heq := (sum_set_eq_iff hk b).1 hsum
    simp only [bodyOf, List.getElem_map, List.getElem_range] at heq
    rw [Nat.add_sub_cancel' hi5] at heq
    exact hb heq.symm

/-- A body of at most 254 bytes is sent in a frame that any large enough buffer gets it back from,
and that is refused with any of its bytes changed but the postamble. A frame with a longer body than
the buffer is refused before anything is written. -/
theorem pn532_frames : ∃ frame, sendFrame body = .ok (0x01 :: frame) ∧
    (∀ bufLen, body.length ≤ bufLen → readResponseInto bufLen (some frame) = .ok (.ok body, body)) ∧
      (∀ i b, i + 1 < frame.length → frame.getD i 0 ≠ b → Refused (frame.set i b)) ∧
        ∀ f bufLen, bufLen < (f.getD 3 0).toNat →
          ∃ e, readResponseInto bufLen (some f) = .ok (.error e, []) := by
  refine ⟨infoFrame body, sendFrame_eq h, fun bufLen hbuf => ?_, fun i b hi hb => refused_set h hi hb, ?_⟩
  · obtain ⟨out, hout, hbody, -⟩ := readResponseInto_eq bufLen (infoFrame body)
    have hr : readResponse bufLen (some (infoFrame body)) = .ok body :=
      readResponse_infoFrame (by omega) hbuf
    rwa [hbody body hr, hr] at hout
  · intro f bufLen hlt
    obtain ⟨out, hout, -, hnone⟩ := readResponseInto_eq bufLen f
    rw [hnone hlt] at hout
    cases hr : readResponse bufLen (some f) with
    | error e => exact ⟨e, hr ▸ hout⟩
    | ok body' => exact absurd (readResponse_eq_ok hr).2.2.1 (Nat.not_le.2 hlt)

end Changed

/-- `GetFirmwareVersion`. -/
theorem pn532_frames_version : ∃ frame, sendFrame [0xD4, 0x02] = .ok (0x01 :: frame) ∧
    (∀ bufLen, 2 ≤ bufLen → readResponseInto bufLen (some frame) = .ok (.ok [0xD4, 0x02], [0xD4, 0x02])) ∧
      (∀ i b, i + 1 < frame.length → frame.getD i 0 ≠ b → Refused (frame.set i b)) ∧
        ∀ f bufLen, bufLen < (f.getD 3 0).toNat →
          ∃ e, readResponseInto bufLen (some f) = .ok (.error e, []) :=
  pn532_frames (show ([0xD4, 0x02] : Bytes).length ≤ 254 by decide)

end LeafReader
