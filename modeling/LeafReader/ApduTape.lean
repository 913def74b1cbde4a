import Mathlib.Data.Nat.Bits
import LeafReader.Pn5180Sync

/-!
# The exchange loop over a tape of answers

`pn5180_iso14443_apdu` against a card that answers the n-th frame with the n-th entry of a tape,
whatever is on it. `AtTurn` and `AtReply` say of every state the loop comes to what the driver has sent
and kept, as functions of the frames it has heard: the R(ACK)s before the first I-block count the
segments, the parity of the blocks gives the block number, and `rx` is the INF fields of the I-blocks.
-/

namespace LeafReader

/-! ### Frames -/

def isI (f : Bytes) : Bool := f.getD 0 0 &&& pcbTypeMask == pcbTypeI

def isR (f : Bytes) : Bool := f.getD 0 0 &&& pcbTypeMask == pcbTypeR

def isAck (f : Bytes) : Bool := isR f && f.getD 0 0 &&& pcbAckNakMask == 0

def isChained (f : Bytes) : Bool := f.getD 0 0 &&& pcbChaining != 0

/-- The INF fields of the I-blocks of `fs`, one after the other. -/
def infs (fs : List Bytes) : Bytes := (fs.filter isI).flatMap (·.drop 1)

/-- The R-blocks before the first I-block. -/
def acks (fs : List Bytes) : Nat := (fs.takeWhile fun f => !isI f).countP isR

/-- The I- and R-blocks: all but the requests for time. -/
def numbered (fs : List Bytes) : Nat := fs.countP fun f => !isWtx (f.getD 0 0)

theorem isWtx_kind {f : Bytes} (h : isWtx (f.getD 0 0) = true) : isI f = false ∧ isR f = false := by
  simp only [isWtx, Bool.and_eq_true, beq_iff_eq] at h
  simp only [isI, isR, h.1]
  decide

theorem isAck_kind {f : Bytes} (h : isAck f = true) :
    isWtx (f.getD 0 0) = false ∧ isI f = false ∧ isR f = true := by
  simp only [isAck, isR, Bool.and_eq_true, beq_iff_eq] at h
  simp only [isI, isR, isWtx, h.1]
  exact ⟨rfl, rfl, rfl⟩

theorem isI_kind {f : Bytes} (h : isI f = true) : isWtx (f.getD 0 0) = false ∧ isR f = false := by
  simp only [isI, beq_iff_eq] at h
  simp only [isR, isWtx, h]
  exact ⟨rfl, rfl⟩

theorem infs_append (fs gs : List Bytes) : infs (fs ++ gs) = infs fs ++ infs gs := by
  simp [infs]

theorem infs_singleton (f : Bytes) : infs [f] = if isI f then f.drop 1 else [] := by
  cases h : isI f <;> simp [infs, h]

theorem infs_eq_nil {fs : List Bytes} (h : fs.any isI = false) : infs fs = [] := by
  rw [List.any_eq_false] at h
  rw [infs, List.filter_eq_nil_iff.2 h]
  rfl

theorem acks_append (fs : List Bytes) (f : Bytes) :
    acks (fs ++ [f]) = acks fs + if isR f && !fs.any isI then 1 else 0 := by
  induction fs with
  | nil =>
    cases hi : isI f with
    | true => simp [acks, hi, (isI_kind hi).2]
    | false => cases hr : isR f <;> simp [acks, hi, hr]
  | cons g fs ih =>
    cases hg : isI g with
    | true => simp [acks, hg]
    | false =>
      have h (gs : List Bytes) : acks (g :: gs) = (if isR g then 1 else 0) + acks gs := by
        simp [acks, hg, List.countP_cons, Nat.add_comm]
      rw [List.cons_append, h, h, ih, List.any_cons, hg, Bool.false_or, Nat.add_assoc]

theorem numbered_append (fs : List Bytes) (f : Bytes) :
    numbered (fs ++ [f]) = numbered fs + if isWtx (f.getD 0 0) then 0 else 1 := by
  cases h : isWtx (f.getD 0 0) <;> simp [numbered, h, -List.getD_eq_getElem?_getD]

/-! ### The tape -/

/-- The frames the driver sent, each with what it heard in answer. -/
abbrev Tape := List (Bytes × Bytes)

/-- What the driver hears of the `n`-th answer. -/
def hearing (answers : ℕ → Option Bytes) (n : Nat) : Bytes := heard ((answers n).getD [])

def hears (answers : ℕ → Option Bytes) (n : Nat) : List Bytes :=
  (List.range n).map (hearing answers)

/-- A card that answers the `n`-th frame with `answers n`, with the record of the exchange. -/
def onTape (answers : ℕ → Option Bytes) : Field Tape := fun tape frame =>
  (answers tape.length, tape ++ [(frame, hearing answers tape.length)])

/-- There is an `n`-th answer, and the driver has room for it. -/
def Reply (answers : ℕ → Option Bytes) (n : Nat) : Prop := ∃ f, answers n = some f ∧ Audible f

theorem Reply.length_pos {answers : ℕ → Option Bytes} {n : Nat} (h : Reply answers n) :
    0 < (hearing answers n).length := by
  obtain ⟨f, hf, haud, -⟩ := h
  have hle := Nat.mod_le f.length 512
  rw [hearing, hf, Option.getD_some, heard, List.length_take]
  omega

theorem hears_succ (answers : ℕ → Option Bytes) (n : Nat) :
    hears answers (n + 1) = hears answers n ++ [hearing answers n] := by
  simp [hears, List.range_succ]

namespace ApduLoop

def tape (s : ApduLoop Tape) : Tape := s.reader.chip.field

/-- `frame` was sent and `resp` heard. -/
def hear (s : ApduLoop Tape) (frame resp : Bytes) : ApduLoop Tape :=
  (s.setChip ⟨s.tape ++ [(frame, resp)], none⟩).got resp

@[simp] theorem tape_hear (s : ApduLoop Tape) (frame resp : Bytes) :
    (s.hear frame resp).tape = s.tape ++ [(frame, resp)] := rfl

end ApduLoop

section Exchange

variable {answers : ℕ → Option Bytes}

theorem exchangeFrame_reply (onRead : EspErr → EspErr) {frame : Bytes} {s : ApduLoop Tape}
    (hlen : frame.length ≤ 260) (h : Reply answers s.tape.length) :
    exchangeFrame (onTape answers) onRead frame s =
      .inl (s.hear frame (hearing answers s.tape.length)) := by
  obtain ⟨f, hf, haud⟩ := h
  have hhear : hearing answers s.tape.length = heard f := by
    rw [hearing, hf]
    rfl
  have hx : onTape answers s.tape frame = (some f, s.tape ++ [(frame, heard f)]) := by
    rw [onTape, hf, hhear]
  rw [exchangeFrame_heard onRead hlen hx haud, hhear]
  rfl

/-- Without an answer that the driver has room for, the call fails. -/
theorem exchangeFrame_no_reply (onRead : EspErr → EspErr) {frame : Bytes} {s : ApduLoop Tape}
    (hlen : frame.length ≤ 260) (hread : ∀ e, e ≠ .ok → onRead e ≠ .ok)
    (h : ¬ Reply answers s.tape.length) :
    ∃ call, exchangeFrame (onTape answers) onRead frame s = .inr call ∧ call.ret ≠ .ok ∧
      call.reader.card = s.reader.card ∧ call.rx = s.rx ∧
      call.reader.chip.field = s.tape ++ [(frame, hearing answers s.tape.length)] := by
  cases hf : answers s.tape.length with
  | none =>
    have hx : onTape answers s.reader.chip.field frame = (none, _) := congrArg (·, _) hf
    exact ⟨_, exchangeFrame_mute onRead hlen hx, hread _ nofun, rfl, rfl, rfl⟩
  | some f =>
    have hx : onTape answers s.reader.chip.field frame = (some f, _) := congrArg (·, _) hf
    refine ⟨_, exchangeFrame_lost onRead hlen hx fun haud => h ⟨f, hf, haud⟩, ?_, rfl, rfl, rfl⟩
    show ite _ _ _ ≠ _
    split
    · exact hread _ nofun
    · exact nofun

end Exchange

/-! ### Exchanges -/

/-- A call with a tape: the arguments, the frame size, the block number and what the chip holds from
before. -/
structure Exchange where
  tx : Bytes
  rxBuf : Nat
  fscMax : UInt16
  number : Bool
  stale : Option Bytes
  answers : ℕ → Option Bytes
  fsc_bounds : 16 ≤ fscMax.toNat ∧ fscMax.toNat ≤ 256

namespace Exchange

variable (x : Exchange)

def reader : Reader Tape := ⟨⟨true, bit x.number, x.fscMax⟩, ⟨[], x.stale⟩⟩

def start : ApduLoop Tape := .start x.reader

def step : ApduLoop Tape → ApduLoop Tape ⊕ ApduCall Tape :=
  pn5180ApduStep (onTape x.answers) x.tx x.rxBuf

/-- The bytes of the command in a full segment. -/
def seg : Nat := x.fscMax.toNat - 1

/-- The first `n` answers as the driver hears them. -/
def heard (n : Nat) : List Bytes := hears x.answers n

/-- The block number after the first `n` answers. -/
def numberAt (n : Nat) : UInt8 := bit (x.number ^^ (numbered (x.heard n)).bodd)

/-- After the frames `past`, the answer `f` keeps the call going. -/
def Keeps (past : List Bytes) (f : Bytes) : Prop :=
  isWtx (f.getD 0 0) = true ∨ (isAck f = true ∧ (acks past + 1) * x.seg < x.tx.length) ∨
    (isI f = true ∧ isChained f = true ∧ (infs past).length + (f.length - 1) ≤ x.rxBuf)

/-- The first `n` answers keep the call going. -/
def Taken (n : Nat) : Prop :=
  ∀ i < n, Reply x.answers i ∧ x.Keeps (x.heard i) (hearing x.answers i)

end Exchange

/-- The exchanges from the last I-block sent on. -/
def sinceCommand (tape : Tape) : Tape :=
  tape.foldl (fun acc e => if isI e.1 then [e] else acc ++ [e]) []

theorem sinceCommand_append (tape : Tape) (e : Bytes × Bytes) :
    sinceCommand (tape ++ [e]) = if isI e.1 then [e] else sinceCommand tape ++ [e] := by
  rw [sinceCommand, List.foldl_append]
  rfl

/-- What the frames sent say when `sent` bytes of the command are out. -/
structure Sent (tx : Bytes) (sent : Nat) (tape : Tape) : Prop where
  command : infs (tape.map Prod.fst) = tx.take sent
  since : infs ((sinceCommand tape).map Prod.snd) = infs (tape.map Prod.snd)
  size : ∀ e ∈ tape, (isI e.1 = false ∧ e.1.length ≤ 2) ∨
    (2 ≤ e.1.length ∧ e.1.length ≤ tx.length + 1)

namespace Sent

variable {tx : Bytes} {sent : Nat} {tape : Tape}

theorem nil (tx : Bytes) : Sent tx 0 [] := ⟨by simp [infs], rfl, by simp⟩

theorem other (h : Sent tx sent tape) {frame : Bytes} (hi : isI frame = false)
    (hlen : frame.length ≤ 2) (resp : Bytes) : Sent tx sent (tape ++ [(frame, resp)]) := by
  constructor
  · rw [List.map_append, infs_append, h.command, List.map_singleton, infs_singleton, hi]
    simp
  · rw [sinceCommand_append, hi]
    simp only [Bool.false_eq_true, ↓reduceIte, List.map_append, infs_append, h.since]
  · intro e he
    rcases List.mem_append.1 he with he | he
    · exact h.size e he
    · obtain rfl := List.mem_singleton.1 he
      exact .inl ⟨hi, hlen⟩

/-- A segment goes out before any I-block was heard. -/
theorem segment (h : Sent tx sent tape) (hno : (tape.map Prod.snd).any isI = false) {pcb : UInt8}
    {m : Nat} (hi : pcb &&& pcbTypeMask = pcbTypeI) (hm : 1 ≤ m) (hsent : sent < tx.length)
    (resp : Bytes) : Sent tx (min (sent + m) tx.length)
      (tape ++ [(pcb :: (tx.drop sent).take m, resp)]) := by
  have hI : isI (pcb :: (tx.drop sent).take m) = true := beq_iff_eq.2 hi
  constructor
  · rw [List.map_append, infs_append, h.command, List.map_singleton, infs_singleton, if_pos hI,
      List.drop_succ_cons, List.drop_zero, ← List.take_add]
    rcases Nat.le_total (sent + m) tx.length with hle | hle
    · rw [Nat.min_eq_left hle]
    · rw [Nat.min_eq_right hle, List.take_of_length_le hle, List.take_length]
  · rw [sinceCommand_append, if_pos hI, List.map_append, infs_append, infs_eq_nil hno]
    rfl
  · intro e he
    rcases List.mem_append.1 he with he | he
    · exact h.size e he
    · obtain rfl := List.mem_singleton.1 he
      refine .inr ?_
      simp only [List.length_cons, List.length_take, List.length_drop]
      omega

end Sent

/-- `k` segments before the last one sent are full, and its chaining bit says whether more follow. -/
structure Segments (x : Exchange) (k : Nat) (s : ApduLoop Tape) : Prop where
  started : k * x.seg < x.tx.length
  txSent : s.txSent = min ((k + 1) * x.seg) x.tx.length
  more : s.lastPcbSent &&& pcbChaining ≠ 0 ↔ (k + 1) * x.seg < x.tx.length

/-- The loop after `n` answers that kept it going. -/
structure Tracks (x : Exchange) (n : Nat) (s : ApduLoop Tape) : Prop where
  taken : x.Taken n
  card : s.reader.card = ⟨true, x.numberAt n, x.fscMax⟩
  rx : s.rx = infs (x.heard n)
  chaining : s.piccChaining = (x.heard n).any isI

/-- At the head of the loop. -/
structure AtTurn (x : Exchange) (n : Nat) (s : ApduLoop Tape) : Prop extends Tracks x n s where
  point : s.point = .head
  record : s.tape.map Prod.snd = x.heard n
  sent : Sent x.tx s.txSent s.tape
  first : (x.heard n).any isI = false →
    s.txSent = acks (x.heard n) * x.seg ∧ acks (x.heard n) * x.seg < x.tx.length
  later : (x.heard n).any isI = true → Segments x (acks (x.heard n)) s

/-- With the next answer at hand. -/
structure AtReply (x : Exchange) (n : Nat) (s : ApduLoop Tape) : Prop extends Tracks x n s where
  point : s.point = .got (hearing x.answers n)
  record : s.tape.map Prod.snd = x.heard (n + 1)
  sent : Sent x.tx s.txSent s.tape
  reply : Reply x.answers n
  segments : Segments x (acks (x.heard n)) s

/-! ### Frames out -/

/-- The PCB of a segment. -/
def segmentPcb (more b : Bool) : UInt8 :=
  if more then pcbIBlockBase ||| bit b ||| pcbChaining else pcbIBlockBase ||| bit b

theorem segmentPcb_facts (more b : Bool) : segmentPcb more b &&& pcbTypeMask = pcbTypeI ∧
    (segmentPcb more b &&& pcbChaining ≠ 0 ↔ more = true) := by
  decide +revert

theorem nextFrame_segment {σ : Type} {s : ApduLoop σ} {tx : Bytes} {b : Bool}
    (hch : s.piccChaining = false) (hb : s.reader.card.blockNumber = bit b)
    (hsent : s.txSent < tx.length) (h16 : 16 ≤ s.reader.card.fscMax.toNat) :
    let m := s.reader.card.fscMax.toNat - 1
    let pcb := segmentPcb (decide (s.txSent + m < tx.length)) b
    nextFrame tx s = (pcb :: (tx.drop s.txSent).take m,
      { s with txSent := min (s.txSent + m) tx.length, lastPcbSent := pcb }) := by
  intro m pcb
  by_cases hfit : tx.length - s.txSent + 1 ≤ s.reader.card.fscMax.toNat
  · have hmore : ¬ s.txSent + m < tx.length := by omega
    have hmin : min (s.txSent + m) tx.length = tx.length := by omega
    have htake : (tx.drop s.txSent).take m = tx.drop s.txSent :=
      List.take_of_length_le (by rw [List.length_drop]; omega)
    rw [nextFrame_last hch hsent hfit, hmin, htake]
    simp [pcb, segmentPcb, hmore, hb]
  · have hmore : s.txSent + m < tx.length := by omega
    have hmin : min (s.txSent + m) tx.length = s.txSent + m := by omega
    rw [nextFrame_chained hch hsent (Nat.not_le.1 hfit) h16, hmin]
    simp [pcb, segmentPcb, hmore, hb, m]

/-- `frame` is about to go out, with `s` the loop variables once it is built. -/
structure Sends (x : Exchange) (n : Nat) (frame : Bytes) (s : ApduLoop Tape) : Prop
    extends Tracks x n s where
  length : frame.length ≤ 260
  record : s.tape.map Prod.snd = x.heard n
  segments : Segments x (acks (x.heard n)) s
  goes : ∀ resp, Sent x.tx s.txSent (s.tape ++ [(frame, resp)])

/-- A call that is over with the `n`-th frame. -/
structure Over (x : Exchange) (n : Nat) (call : ApduCall Tape) : Prop where
  taken : x.Taken n
  stops : ¬ x.Taken (n + 1)
  card : ∃ b, call.reader.card = ⟨true, bit b, x.fscMax⟩
  length : call.reader.chip.field.length = n + 1
  sent : ∃ k, Sent x.tx k call.reader.chip.field

section

variable {x : Exchange} {n : Nat} {s : ApduLoop Tape}

theorem Exchange.heard_succ (x : Exchange) (n : Nat) :
    x.heard (n + 1) = x.heard n ++ [hearing x.answers n] := hears_succ _ _

theorem length_of_record {tape : Tape} (h : tape.map Prod.snd = x.heard n) : tape.length = n := by
  simpa [Exchange.heard, hears] using congrArg List.length h

theorem Sends.reply {frame : Bytes} (h : Sends x n frame s) (onRead : EspErr → EspErr)
    (hr : Reply x.answers n) :
    ∃ s', exchangeFrame (onTape x.answers) onRead frame s = .inl s' ∧ AtReply x n s' := by
  have hn := length_of_record h.record
  rw [← hn] at hr
  refine ⟨_, exchangeFrame_reply onRead h.length hr, ?_⟩
  rw [hn] at hr ⊢
  refine ⟨⟨h.taken, h.card, h.rx, h.chaining⟩, rfl, ?_, h.goes _, hr,
    ⟨h.segments.started, h.segments.txSent, h.segments.more⟩⟩
  rw [ApduLoop.tape_hear, List.map_append, h.record, x.heard_succ]
  rfl

theorem Sends.no_reply {frame : Bytes} (h : Sends x n frame s) {onRead : EspErr → EspErr}
    (hread : ∀ e, e ≠ .ok → onRead e ≠ .ok) (hr : ¬ Reply x.answers n) :
    ∃ call, exchangeFrame (onTape x.answers) onRead frame s = .inr call ∧ call.ret ≠ .ok ∧
      Over x n call := by
  have hn := length_of_record h.record
  have hstops : ¬ x.Taken (n + 1) := fun ht => hr (ht n (Nat.lt_succ_self n)).1
  rw [← hn] at hr
  obtain ⟨call, hcall, hret, hcard, -, htape⟩ := exchangeFrame_no_reply onRead h.length hread hr
  refine ⟨call, hcall, hret, h.taken, hstops, ⟨_, hcard.trans h.card⟩, ?_, s.txSent, ?_⟩
  · rw [htape, List.length_append, hn]
    rfl
  · rw [htape]
    exact h.goes _

/-- The frame of a turn: the next segment, or the R(ACK) to a part of the answer. -/
theorem AtTurn.sends (h : AtTurn x n s) : ∃ frame s1,
    x.step s = exchangeFrame (onTape x.answers) id frame s1 ∧ Sends x n frame s1 := by
  have hfsc := x.fsc_bounds
  refine ⟨(nextFrame x.tx s).1, (nextFrame x.tx s).2, ?_, ?_⟩
  · have hgo : s.txSent < x.tx.length ∨ s.piccChaining = true := by
      cases hi : (x.heard n).any isI with
      | true => exact .inr (h.chaining.trans hi)
      | false =>
        obtain ⟨hsent, hlt⟩ := h.first hi
        exact .inl (by omega)
    simp only [Exchange.step, pn5180ApduStep, h.point, hgo, ↓reduceIte]
  · cases hi : (x.heard n).any isI with
    | true =>
      have hb : ∀ b : Bool, isI [pcbRBlockAck ||| bit b] = false := by decide
      rw [nextFrame_ack (h.chaining.trans hi), h.card]
      exact ⟨h.toTracks, by simp, h.record, h.later hi, fun resp => h.sent.other (hb _) (by simp) resp⟩
    | false =>
      obtain ⟨hsent, hlt⟩ := h.first hi
      have hseg : s.reader.card.fscMax.toNat - 1 = x.seg := by rw [h.card]; rfl
      have hadd : s.txSent + x.seg = (acks (x.heard n) + 1) * x.seg := by rw [hsent, Nat.succ_mul]
      have hnext := nextFrame_segment (h.chaining.trans hi) (by rw [h.card]; rfl)
        (show s.txSent < x.tx.length by omega) (by rw [h.card]; exact hfsc.1)
      simp only [hseg] at hnext
      rw [hnext]
      obtain ⟨hI, hmore⟩ := segmentPcb_facts (decide (s.txSent + x.seg < x.tx.length))
        (x.number ^^ (numbered (x.heard n)).bodd)
      have hpos : 1 ≤ x.seg := by unfold Exchange.seg; omega
      have hgoes := fun resp => h.sent.segment (by rw [h.record]; exact hi) hI hpos
        (show s.txSent < x.tx.length by omega) resp
      refine ⟨⟨h.taken, h.card, h.rx, h.chaining⟩, ?_, h.record, ⟨hlt, ?_, ?_⟩, hgoes⟩
      · simp only [List.length_cons, List.length_take]
        have : x.seg ≤ 255 := by unfold Exchange.seg; omega
        omega
      · show min (s.txSent + x.seg) x.tx.length = _
        rw [hadd]
      · show segmentPcb _ _ &&& pcbChaining ≠ 0 ↔ _
        rw [hmore, decide_eq_true_iff, hadd]

/-! ### Frames in -/

theorem Exchange.Taken.succ (h : x.Taken n) (hr : Reply x.answers n)
    (hk : x.Keeps (x.heard n) (hearing x.answers n)) : x.Taken (n + 1) := by
  intro i hi
  rcases Nat.lt_succ_iff_lt_or_eq.1 hi with hi | rfl
  · exact h i hi
  · exact ⟨hr, hk⟩

theorem Exchange.numberAt_succ (x : Exchange) (n : Nat) : x.numberAt (n + 1) =
    if isWtx ((hearing x.answers n).getD 0 0) then x.numberAt n else x.numberAt n ^^^ 1 := by
  rw [numberAt, x.heard_succ, numbered_append]
  cases isWtx ((hearing x.answers n).getD 0 0) with
  | true => rfl
  | false =>
    rw [if_neg (by simp), if_neg (by simp), Nat.bodd_succ, numberAt, bit_xor]
    cases x.number <;> cases (numbered (x.heard n)).bodd <;> rfl

theorem Exchange.keeps_of_isI (x : Exchange) (past : List Bytes) {f : Bytes} (hi : isI f = true) :
    x.Keeps past f ↔ isChained f = true ∧ (infs past).length + (f.length - 1) ≤ x.rxBuf := by
  have hack : isAck f = false := by simp [isAck, (isI_kind hi).2]
  rw [Keeps, (isI_kind hi).1, hack, hi]
  simp

namespace AtReply

/-- A request for time is granted. -/
theorem step_wtx (h : AtReply x n s) (hw : isWtx ((hearing x.answers n).getD 0 0) = true) :
    ∃ frame, x.step s = exchangeFrame (onTape x.answers) (fun _ => .fail) frame s ∧
      Sends x (n + 1) frame s := by
  obtain ⟨hi, hr⟩ := isWtx_kind hw
  set f := hearing x.answers n with hf
  refine ⟨[f.getD 0 0, if f.length > 1 then f.getD 1 0 else 1], ?_, ?_⟩
  · simp only [Exchange.step, pn5180ApduStep, h.point, ← hf, hw, ↓reduceIte]
  · have hacks : acks (x.heard (n + 1)) = acks (x.heard n) := by
      rw [x.heard_succ, acks_append, ← hf, hr]
      simp
    have hframe (m : UInt8) : isI [f.getD 0 0, m] = false := hi
    refine ⟨⟨h.taken.succ h.reply (.inl (hf ▸ hw)), ?_, ?_, ?_⟩, by simp, h.record, ?_,
      fun resp => h.sent.other (hframe _) (by simp) resp⟩
    · rw [h.card, x.numberAt_succ, ← hf, if_pos hw]
    · rw [h.rx, x.heard_succ, infs_append, infs_singleton, ← hf, hi]
      simp
    · rw [h.chaining, x.heard_succ, List.any_append, ← hf]
      simp [hi]
    · rw [hacks]
      exact h.segments

section

variable (h : AtReply x n s)
include h

theorem step_eq (hw : isWtx ((hearing x.answers n).getD 0 0) = false) :
    x.step s = onBlock x.rxBuf (hearing x.answers n) s :=
  step_got h.point hw

theorem toggle_card (hw : isWtx ((hearing x.answers n).getD 0 0) = false) :
    s.reader.toggle.card = ⟨true, x.numberAt (n + 1), x.fscMax⟩ := by
  rw [x.numberAt_succ, hw, Reader.toggle, h.card]
  rfl

/-- The R(ACK) to a segment that is not the last. -/
theorem step_ack (ha : isAck (hearing x.answers n) = true)
    (hmore : (acks (x.heard n) + 1) * x.seg < x.tx.length) :
    ∃ s', x.step s = .inl s' ∧ AtTurn x (n + 1) s' := by
  obtain ⟨hw, hi, hr⟩ := isAck_kind ha
  refine ⟨{ s with reader := s.reader.toggle, point := .head }, ?_, ?_⟩
  · rw [h.step_eq hw]
    simp only [isAck, isR, Bool.and_eq_true, beq_iff_eq] at ha
    simp only [onBlock, ha.1, ha.2, ↓reduceIte, ne_eq, not_true_eq_false, h.segments.more.2 hmore,
      not_false_eq_true]
  · have hany : (x.heard (n + 1)).any isI = (x.heard n).any isI := by
      rw [x.heard_succ, List.any_append]
      simp [hi]
    have hacks : acks (x.heard (n + 1)) =
        acks (x.heard n) + if !(x.heard n).any isI then 1 else 0 := by
      rw [x.heard_succ, acks_append, hr, Bool.true_and]
    refine ⟨⟨h.taken.succ h.reply (.inr (.inl ⟨ha, hmore⟩)), h.toggle_card hw, ?_, ?_⟩, rfl, h.record,
      h.sent, ?_, ?_⟩
    · rw [x.heard_succ, infs_append, infs_singleton, hi]
      simpa using h.rx
    · rw [hany]
      exact h.chaining
    · intro hno
      rw [hany] at hno
      rw [hacks, hno]
      refine ⟨?_, hmore⟩
      show s.txSent = _
      rw [h.segments.txSent]
      exact Nat.min_eq_left hmore.le
    · intro hyes
      rw [hany] at hyes
      rw [hacks, hyes]
      exact ⟨h.segments.started, h.segments.txSent, h.segments.more⟩

section IBlock

variable (hi : isI (hearing x.answers n) = true)
include hi

theorem step_iBlock : x.step s =
    if s.rx.length + ((hearing x.answers n).length - 1) > x.rxBuf then
      .inr (({ s with reader := s.reader.toggle } : ApduLoop Tape).fail .noMem)
    else if isChained (hearing x.answers n) then
      .inl { s with
        reader := s.reader.toggle, rx := s.rx ++ (hearing x.answers n).drop 1, piccChaining := true,
        point := .head }
    else .inr ({ s with
      reader := s.reader.toggle, rx := s.rx ++ (hearing x.answers n).drop 1 } : ApduLoop Tape).ok := by
  rw [h.step_eq (isI_kind hi).1, onBlock]
  simp only [isI, beq_iff_eq] at hi
  have hR : pcbTypeI ≠ pcbTypeR := by decide
  simp only [hi, hR, ↓reduceIte, isChained, bne_iff_ne]

/-- A part of the answer with more to come. -/
theorem step_part (hch : isChained (hearing x.answers n) = true)
    (hfit : (infs (x.heard n)).length + ((hearing x.answers n).length - 1) ≤ x.rxBuf) :
    ∃ s', x.step s = .inl s' ∧ AtTurn x (n + 1) s' := by
  have hany : (x.heard (n + 1)).any isI = true := by
    rw [x.heard_succ, List.any_append]
    simp [hi]
  have hacks : acks (x.heard (n + 1)) = acks (x.heard n) := by
    rw [x.heard_succ, acks_append, (isI_kind hi).2]
    simp
  refine ⟨{ s with
    reader := s.reader.toggle, rx := s.rx ++ (hearing x.answers n).drop 1, piccChaining := true,
    point := .head }, ?_, ⟨⟨h.taken.succ h.reply (.inr (.inr ⟨hi, hch, hfit⟩)),
    h.toggle_card (isI_kind hi).1, ?_, hany.symm⟩, rfl, h.record, h.sent, ?_, ?_⟩⟩
  · rw [h.step_iBlock hi, h.rx, if_neg (by omega), if_pos hch]
  · rw [x.heard_succ, infs_append, infs_singleton, if_pos hi, ← h.rx]
  · intro hno
    rw [hany] at hno
    cases hno
  · intro _
    rw [hacks]
    exact ⟨h.segments.started, h.segments.txSent, h.segments.more⟩

end IBlock

/-- Any other block ends the call. -/
theorem step_refused (hw : isWtx ((hearing x.answers n).getD 0 0) = false)
    (hi : isI (hearing x.answers n) = false)
    (ha : ¬ (isAck (hearing x.answers n) = true ∧ (acks (x.heard n) + 1) * x.seg < x.tx.length)) :
    x.step s = .inr (s.fail .fail) := by
  rw [h.step_eq hw, onBlock]
  simp only [isI, beq_eq_false_iff_ne] at hi
  by_cases hr : (hearing x.answers n).getD 0 0 &&& pcbTypeMask = pcbTypeR
  · by_cases hn : (hearing x.answers n).getD 0 0 &&& pcbAckNakMask = 0
    · have hlast : ¬ s.lastPcbSent &&& pcbChaining ≠ 0 := fun hm =>
        ha ⟨by rw [isAck, isR, hr, hn]; rfl, h.segments.more.1 hm⟩
      simp only [hr, hn, hlast, ↓reduceIte, ne_eq, not_true_eq_false]
    · simp only [hr, hn, ↓reduceIte, ne_eq, not_false_eq_true]
  · simp only [hr, hi, ↓reduceIte]

end

theorem ends (h : AtReply x n s) {call : ApduCall Tape} (htape : call.reader.chip.field = s.tape)
    (hcard : ∃ b, call.reader.card = ⟨true, bit b, x.fscMax⟩)
    (hk : ¬ x.Keeps (x.heard n) (hearing x.answers n)) : Over x n call := by
  refine ⟨h.taken, fun ht => hk (ht n (Nat.lt_succ_self n)).2, hcard, ?_, s.txSent, ?_⟩
  · rw [htape]
    exact length_of_record h.record
  · rw [htape]
    exact h.sent

end AtReply

/-! ### Runs -/

/-- The call succeeded with the I-block at hand in `s`. -/
structure Succeeds (x : Exchange) (n : Nat) (s : ApduLoop Tape) (call : ApduCall Tape) : Prop where
  at_reply : AtReply x n s
  block : isI (hearing x.answers n) = true
  tape : call.reader.chip.field = s.tape
  rx : call.rx = infs (x.heard (n + 1))
  rxLen : call.rxLen = some call.rx.length

theorem AtTurn.step_cases (h : AtTurn x n s) :
    (∃ s', x.step s = .inl s' ∧ AtReply x n s') ∨
      ∃ call, x.step s = .inr call ∧ Over x n call ∧ call.ret ≠ .ok := by
  obtain ⟨frame, s1, hstep, hsends⟩ := h.sends
  by_cases hr : Reply x.answers n
  · obtain ⟨s', hs', hreply⟩ := hsends.reply id hr
    exact .inl ⟨s', hstep.trans hs', hreply⟩
  · obtain ⟨call, hcall, hret, hover⟩ := hsends.no_reply (fun _ he => he) hr
    exact .inr ⟨call, hstep.trans hcall, hover, hret⟩

theorem AtReply.step_cases (h : AtReply x n s) :
    (∃ s', x.step s = .inl s' ∧ (AtTurn x (n + 1) s' ∨ AtReply x (n + 1) s')) ∨
      ∃ call, x.step s = .inr call ∧ (Over x n call ∨ Over x (n + 1) call) ∧
        (call.ret = .ok → Succeeds x n s call) := by
  cases hw : isWtx ((hearing x.answers n).getD 0 0) with
  | true =>
    obtain ⟨frame, hstep, hsends⟩ := h.step_wtx hw
    by_cases hr : Reply x.answers (n + 1)
    · obtain ⟨s', hs', hreply⟩ := hsends.reply (fun _ => .fail) hr
      exact .inl ⟨s', hstep.trans hs', .inr hreply⟩
    · have hread : ∀ e : EspErr, e ≠ .ok → (fun _ => EspErr.fail) e ≠ .ok := fun _ _ => nofun
      obtain ⟨call, hcall, hret, hover⟩ := hsends.no_reply hread hr
      exact .inr ⟨call, hstep.trans hcall, .inr hover, fun hok => absurd hok hret⟩
  | false =>
    cases hi : isI (hearing x.answers n) with
    | true =>
      have hstep := h.step_iBlock hi
      have hkeeps := x.keeps_of_isI (x.heard n) hi
      have hcard := h.toggle_card hw
      by_cases hfit : s.rx.length + ((hearing x.answers n).length - 1) > x.rxBuf
      · rw [if_pos hfit] at hstep
        rw [h.rx] at hfit
        exact .inr ⟨_, hstep, .inl (h.ends rfl ⟨_, hcard⟩ fun hk => by
          have := (hkeeps.1 hk).2
          omega), nofun⟩
      · cases hch : isChained (hearing x.answers n) with
        | true =>
          obtain ⟨s', hs', hturn⟩ := h.step_part hi hch (by rw [← h.rx]; omega)
          exact .inl ⟨s', hs', .inl hturn⟩
        | false =>
          rw [if_neg hfit, hch] at hstep
          refine .inr ⟨_, hstep, .inl (h.ends rfl ⟨_, hcard⟩ fun hk => ?_),
            fun _ => ⟨h, hi, rfl, ?_, rfl⟩⟩
          · rw [hkeeps, hch] at hk
            cases hk.1
          · rw [x.heard_succ, infs_append, infs_singleton, if_pos hi, ← h.rx]
            rfl
    | false =>
      by_cases ha : isAck (hearing x.answers n) = true ∧
          (acks (x.heard n) + 1) * x.seg < x.tx.length
      · obtain ⟨s', hs', hturn⟩ := h.step_ack ha.1 ha.2
        exact .inl ⟨s', hs', .inl hturn⟩
      · refine .inr ⟨_, h.step_refused hw hi ha, .inl (h.ends rfl ⟨_, h.card⟩ ?_), nofun⟩
        rintro (hk | hk | hk)
        · rw [hw] at hk
          cases hk
        · exact ha hk
        · rw [hi] at hk
          cases hk.1

/-- The loop has the first `n` answers behind it, and perhaps the next one at hand. -/
def On (x : Exchange) (s : ApduLoop Tape) : Prop := ∃ n, AtTurn x n s ∨ AtReply x n s

theorem atTurn_start (htx : x.tx ≠ []) : AtTurn x 0 x.start := by
  refine ⟨⟨?_, ?_, rfl, rfl⟩, rfl, rfl, .nil x.tx, ?_, nofun⟩
  · intro i hi
    exact absurd hi (Nat.not_lt_zero i)
  · have h0 : x.numberAt 0 = bit x.number := by
      simp [Exchange.numberAt, Exchange.heard, hears, numbered]
    rw [h0]
    rfl
  · intro _
    have hpos := List.length_pos_of_ne_nil htx
    exact ⟨by simp [Exchange.heard, hears, acks]; rfl, by simpa [Exchange.heard, hears, acks] using hpos⟩

theorem On.start (htx : x.tx ≠ []) : On x x.start := ⟨0, .inl (atTurn_start htx)⟩

theorem On.step {s' : ApduLoop Tape} (h : On x s) (hs : x.step s = .inl s') : On x s' := by
  obtain ⟨n, hturn | hreply⟩ := h
  · rcases hturn.step_cases with ⟨s'', hs'', h''⟩ | ⟨call, hcall, -⟩
    · cases hs''.symm.trans hs
      exact ⟨n, .inr h''⟩
    · cases hcall.symm.trans hs
  · rcases hreply.step_cases with ⟨s'', hs'', h''⟩ | ⟨call, hcall, -⟩
    · cases hs''.symm.trans hs
      exact ⟨n + 1, h''⟩
    · cases hcall.symm.trans hs

theorem On.ends {call : ApduCall Tape} (h : On x s) (hs : x.step s = .inr call) :
    ∃ n, Over x n call ∧ (call.ret = .ok → ∃ m, Succeeds x m s call) := by
  obtain ⟨n, hturn | hreply⟩ := h
  · rcases hturn.step_cases with ⟨s', hs', -⟩ | ⟨call', hcall, hover, hret⟩
    · cases hs'.symm.trans hs
    · cases hcall.symm.trans hs
      exact ⟨n, hover, fun hok => absurd hok hret⟩
  · rcases hreply.step_cases with ⟨s', hs', -⟩ | ⟨call', hcall, hover, hok⟩
    · cases hs'.symm.trans hs
    · cases hcall.symm.trans hs
      rcases hover with hover | hover
      · exact ⟨n, hover, fun h => ⟨n, hok h⟩⟩
      · exact ⟨n + 1, hover, fun h => ⟨n, hok h⟩⟩

theorem on_of_reaches (htx : x.tx ≠ []) (h : Reaches x.step x.start s) : On x s :=
  h.invariant (fun _ _ => On.step) (.start htx)

theorem over_of_returns (htx : x.tx ≠ []) {call : ApduCall Tape}
    (h : Returns x.step x.start call) :
    ∃ n, Over x n call ∧ (call.ret = .ok → ∃ m s, Succeeds x m s call) := by
  obtain ⟨s, hreach, hend⟩ := h.reaches
  obtain ⟨n, hover, hok⟩ := (on_of_reaches htx hreach).ends hend
  exact ⟨n, hover, fun h => (hok h).imp fun m hm => ⟨s, hm⟩⟩

end

end LeafReader
