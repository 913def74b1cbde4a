import LeafReader.NfcHal

/-!
# The PN532 driver (`pn532.c`)

Frames, their checksums, one command with its ACK and its response, and `pn532_apdu_exchange`. The
chip on the bus is a parameter: a function from its state and the bytes of a written frame to what it
sends next, the ACK and the response, each missing if its status never shows ready.
-/

namespace LeafReader

variable {σ : Type}

abbrev Spi (σ : Type) := σ → Bytes → (Option Bytes × Option Bytes) × σ

def dcsOf (body : Bytes) : UInt8 := body.foldl (· + ·) 0

def sendFrame (body : Bytes) : Except EspErr Bytes :=
  if body.length > 254 then .error .invalidSize
  else .ok ([0x01, 0x00, 0x00, 0xFF, body.length.toUInt8, (0x100 - body.length).toUInt8] ++ body ++
    [0 - dcsOf body, 0x00])

def ackFrame : Bytes := [0x00, 0x00, 0xFF, 0x00, 0xFF, 0x00]

def readAck : Option Bytes → Except EspErr Unit
  | none => .error .timeout
  | some f =>
    if (List.range 6).map (f.getD · 0) ≠ ackFrame then .error .invalidResponse else .ok ()

/-- The body of a response frame, read byte by byte into a buffer of `bufLen` bytes. -/
def readResponse (bufLen : Nat) : Option Bytes → Except EspErr Bytes
  | none => .error .timeout
  | some f =>
    let len := f.getD 3 0
    let body := (List.range len.toNat).map fun i => f.getD (5 + i) 0
    if f.getD 0 0 ≠ 0x00 ∨ f.getD 1 0 ≠ 0x00 ∨ f.getD 2 0 ≠ 0xFF then .error .invalidResponse
    else if len + f.getD 4 0 ≠ 0 then .error .invalidCrc
    else if len.toNat > bufLen then .error .invalidSize
    else if dcsOf body + f.getD (5 + len.toNat) 0 ≠ 0 then .error .invalidCrc
    else .ok body

/-- What `cmd` makes of a response body. -/
def checkResponse (code : UInt8) (respBuf : Nat) (r : Bytes) : Except EspErr Bytes :=
  if r.length < 2 ∨ r.getD 0 0 ≠ 0xD5 ∨ (r.getD 1 0).toNat ≠ code.toNat + 1 then .error .invalidResponse
  else if r.length - 2 > respBuf then .error .invalidSize
  else .ok (r.drop 2)

variable (spi : Spi σ)

/-- `cmd`: the parameters of the response. -/
def pn532Cmd (code : UInt8) (params : Bytes) (respBuf : Nat) (s : σ) : Except EspErr Bytes × σ :=
  match sendFrame ([0xD4, code] ++ params) with
  | .error e => (.error e, s)
  | .ok frame =>
    let ((ack, response), s) := spi s frame
    ((readAck ack).bind fun _ => (readResponse 270 response).bind (checkResponse code respBuf), s)

/-- What `pn532_apdu_exchange` makes of the response to InDataExchange. -/
def dataOf (rxBuf : Nat) (r : Bytes) : Except EspErr Bytes :=
  if r.length < 1 then .error .invalidResponse
  -- bit 6, more data, is masked out of the status
  else if r.getD 0 0 &&& 0x3F ≠ 0x00 then .error .fail
  else if r.length - 1 > rxBuf then .error .invalidSize
  else .ok (r.drop 1)

/-- `pn532_apdu_exchange`: the bytes received, `*rx_len` of them. -/
def pn532ApduExchange (tx : Bytes) (rxBuf : Nat) (s : σ) : Except EspErr Bytes × σ :=
  if tx.length > 252 then (.error .invalidSize, s)
  else
    let (r, s) := pn532Cmd spi 0x40 ([0x01] ++ tx) 264 s
    (r.bind (dataOf rxBuf), s)

/-! ### Frames of the chip -/

/-- The body of a frame written by the driver, when its two checksums are right. -/
def writtenBody (w : Bytes) : Option Bytes :=
  let len := w.getD 4 0
  let body := (w.drop 6).take len.toNat
  if w.take 4 = [0x01, 0x00, 0x00, 0xFF] ∧ len + w.getD 5 0 = 0 ∧ w.length = len.toNat + 8 ∧
      dcsOf body + w.getD (6 + len.toNat) 0 = 0 then some body
  else none

/-- An information frame; bodies of more than 255 bytes take the extended format. -/
def infoFrame (body : Bytes) : Bytes :=
  let n := body.length
  let head : Bytes :=
    if n ≤ 255 then [n.toUInt8, (0x100 - n).toUInt8]
    else [0xFF, 0xFF, (n / 256).toUInt8, n.toUInt8, 0 - ((n / 256).toUInt8 + n.toUInt8)]
  [0x00, 0x00, 0xFF] ++ head ++ body ++ [0 - dcsOf body, 0x00]

theorem len_add_lcs {n : Nat} (h : n ≤ 256) : n.toUInt8 + (0x100 - n).toUInt8 = 0 := by
  apply UInt8.toNat_inj.1
  simp
  omega

theorem add_zero_sub (a : UInt8) : a + (0 - a) = 0 := by
  rw [UInt8.zero_sub, UInt8.add_right_neg]

theorem getD_append_tail (head body : Bytes) (c : UInt8) (tail : Bytes) :
    (head ++ body ++ c :: tail).getD (head.length + body.length) 0 = c := by
  rw [List.getD_eq_getElem?_getD, List.getElem?_append_right (by simp)]
  simp

theorem map_getD_range (head body tail : Bytes) :
    ((List.range body.length).map fun i => (head ++ body ++ tail).getD (head.length + i) 0) = body := by
  refine List.ext_getElem (by simp) fun i h1 h2 => ?_
  rw [List.getElem_map, List.getElem_range, List.append_assoc, List.getD_eq_getElem?_getD,
    List.getElem?_append_right (by simp), Nat.add_sub_cancel_left, List.getElem?_append_left h2,
    List.getElem?_eq_getElem h2, Option.getD_some]

/-- The chip reads what the driver wrote. -/
theorem writtenBody_sendFrame {body w : Bytes} (h : sendFrame body = .ok w) :
    writtenBody w = some body := by
  simp only [sendFrame] at h
  split at h
  · cases h
  · rename_i hlen
    cases h
    have hn : (body.length.toUInt8).toNat = body.length := by simp; omega
    set head : Bytes := [0x01, 0x00, 0x00, 0xFF, body.length.toUInt8, (0x100 - body.length).toUInt8]
      with hhead
    have h4 : (head ++ body ++ [0 - dcsOf body, 0x00]).getD 4 0 = body.length.toUInt8 := rfl
    have h5 : (head ++ body ++ [0 - dcsOf body, 0x00]).getD 5 0 = (0x100 - body.length).toUInt8 := rfl
    have hbody : ((head ++ body ++ [0 - dcsOf body, 0x00]).drop 6).take body.length = body := by
      show (body ++ [0 - dcsOf body, 0x00]).take body.length = body
      exact List.take_left
    have hdcs : (head ++ body ++ [0 - dcsOf body, 0x00]).getD (6 + body.length) 0 = 0 - dcsOf body :=
      getD_append_tail head body (0 - dcsOf body) [0x00]
    rw [writtenBody]
    simp only [h4, h5, hn, hbody, hdcs]
    rw [if_pos ⟨rfl, len_add_lcs (by omega), by simp [head], add_zero_sub _⟩]

/-- The driver reads what the chip sends in an ordinary frame. -/
theorem readResponse_infoFrame {body : Bytes} {bufLen : Nat} (h : body.length ≤ 255)
    (hbuf : body.length ≤ bufLen) : readResponse bufLen (some (infoFrame body)) = .ok body := by
  have hn : (body.length.toUInt8).toNat = body.length := by simp; omega
  set head : Bytes := [0x00, 0x00, 0xFF, body.length.toUInt8, (0x100 - body.length).toUInt8]
    with hhead
  have hf : infoFrame body = head ++ body ++ [0 - dcsOf body, 0x00] := by
    simp only [infoFrame, h, ↓reduceIte, hhead, List.cons_append, List.nil_append]
  have h3 : (head ++ body ++ [0 - dcsOf body, 0x00]).getD 3 0 = body.length.toUInt8 := rfl
  have h4 : (head ++ body ++ [0 - dcsOf body, 0x00]).getD 4 0 = (0x100 - body.length).toUInt8 := rfl
  have hbody : ((List.range body.length).map fun i =>
      (head ++ body ++ [0 - dcsOf body, 0x00]).getD (5 + i) 0) = body := map_getD_range head body _
  have hdcs : (head ++ body ++ [0 - dcsOf body, 0x00]).getD (5 + body.length) 0 = 0 - dcsOf body :=
    getD_append_tail head body (0 - dcsOf body) [0x00]
  have hstart : ¬ ((head ++ body ++ [0 - dcsOf body, 0x00]).getD 0 0 ≠ 0x00 ∨
      (head ++ body ++ [0 - dcsOf body, 0x00]).getD 1 0 ≠ 0x00 ∨
      (head ++ body ++ [0 - dcsOf body, 0x00]).getD 2 0 ≠ 0xFF) := by
    simp [head]
  rw [hf, readResponse]
  simp only [h3, hn, h4, hbody, hdcs, hstart, ↓reduceIte, len_add_lcs (show body.length ≤ 256 by omega),
    add_zero_sub, ne_eq, not_true_eq_false, gt_iff_lt, Nat.not_lt.2 hbuf]

/-- The driver does not know the extended format. -/
theorem readResponse_extended {body : Bytes} (h : 255 < body.length) :
    readResponse 270 (some (infoFrame body)) = .error .invalidCrc := by
  simp only [readResponse, infoFrame, Nat.not_le.2 h, ↓reduceIte, List.cons_append, List.nil_append,
    List.getD_cons_succ, List.getD_cons_zero]
  rfl

theorem pn532Cmd_eq {code : UInt8} {params : Bytes} (respBuf : Nat) {s s' : σ} {w body : Bytes}
    (hw : sendFrame ([0xD4, code] ++ params) = .ok w)
    (hs : spi s w = ((some ackFrame, some (infoFrame body)), s')) :
    pn532Cmd spi code params respBuf s =
      (if body.length ≤ 255 then checkResponse code respBuf body else .error .invalidCrc, s') := by
  have hack : readAck (some ackFrame) = .ok () := by decide
  rw [pn532Cmd, hw]
  simp only [hs, hack, Except.bind]
  by_cases h : body.length ≤ 255
  · rw [readResponse_infoFrame h (by omega), if_pos h]
  · rw [readResponse_extended (by omega), if_neg h]

end LeafReader
