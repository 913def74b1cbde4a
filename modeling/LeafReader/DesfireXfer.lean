import LeafReader.NfcHal
import LeafReader.DesfireCrypto

/-!
# Host state and `desfire_xfer`

The globals of the card layer, out-parameters, and one native command wrapped as an APDU.
`desfireXfer_eq` is what every later proof uses about the exchange: the driver's result parsed into
status and data, and the three ways it can be refused.
-/

namespace LeafReader

/-! ### State -/

/-- `desfire_session_t`. -/
structure Session where
  keyNo : UInt8
  ti : Vector UInt8 4
  kSesAuthEnc : Block
  kSesAuthMac : Block
  cmdCtr : UInt16
  authenticated : Bool
deriving DecidableEq

/-- The globals `g_session`, `g_session_mac_key_full` and `s_last_status`. -/
structure Host where
  session : Session
  macKey : Block
  lastStatus : UInt8
deriving DecidableEq

structure World (σ : Type) where
  host : Host
  link : σ

variable {σ : Type}

namespace World

def setStatus (w : World σ) (st : UInt8) : World σ :=
  { w with host := { w.host with lastStatus := st } }

def setSession (w : World σ) (s : Session) : World σ :=
  { w with host := { w.host with session := s } }

/-- `g_session.cmd_ctr++`. -/
def bumpCtr (w : World σ) : World σ :=
  w.setSession { w.host.session with cmdCtr := w.host.session.cmdCtr + 1 }

@[simp] theorem setStatus_session (w : World σ) (st : UInt8) :
    (w.setStatus st).host.session = w.host.session := rfl

@[simp] theorem setStatus_macKey (w : World σ) (st : UInt8) :
    (w.setStatus st).host.macKey = w.host.macKey := rfl

@[simp] theorem setStatus_link (w : World σ) (st : UInt8) : (w.setStatus st).link = w.link := rfl

@[simp] theorem setSession_session (w : World σ) (s : Session) :
    (w.setSession s).host.session = s := rfl

@[simp] theorem setSession_macKey (w : World σ) (s : Session) :
    (w.setSession s).host.macKey = w.host.macKey := rfl

@[simp] theorem setSession_link (w : World σ) (s : Session) : (w.setSession s).link = w.link := rfl

@[simp] theorem bumpCtr_session (w : World σ) :
    w.bumpCtr.host.session = { w.host.session with cmdCtr := w.host.session.cmdCtr + 1 } := rfl

@[simp] theorem bumpCtr_macKey (w : World σ) : w.bumpCtr.host.macKey = w.host.macKey := rfl

@[simp] theorem bumpCtr_link (w : World σ) : w.bumpCtr.link = w.link := rfl

end World

/-! ### Arrays and out-parameters -/

/-- A run past the end of an array, or through a NULL pointer: C gives it no meaning. -/
inductive Fault
  | overrun | nullDeref
deriving DecidableEq, Repr

theorem bind_eq_ok {α β : Type} {x : Except Fault α} {f : α → Except Fault β} {b : β}
    (h : (x >>= f) = .ok b) : ∃ a, x = .ok a ∧ f a = .ok b := by
  cases x with
  | error e => cases h
  | ok a => exact ⟨a, rfl, h⟩

/-- The contents of a local array of `cap` bytes after `b` is written to its front. -/
def fill (cap : Nat) (b : Bytes) : Except Fault Bytes :=
  if b.length ≤ cap then .ok b else .error .overrun

theorem fill_of_le {cap : Nat} {b : Bytes} (h : b.length ≤ cap) : fill cap b = .ok b := if_pos h

theorem fill_of_lt {cap : Nat} {b : Bytes} (h : cap < b.length) : fill cap b = .error .overrun :=
  if_neg (Nat.not_le.2 h)

theorem fill_eq_ok {cap : Nat} {b b' : Bytes} : fill cap b = .ok b' ↔ b.length ≤ cap ∧ b = b' := by
  unfold fill
  by_cases h : b.length ≤ cap
  · simp [h]
  · simp [h]

/-- The `n` bytes at index `pos` of an array of which `b` is written. -/
def slice (b : Bytes) (pos n : Nat) : Except Fault Bytes :=
  if pos + n ≤ b.length then .ok ((b.drop pos).take n) else .error .overrun

theorem slice_of_le {b : Bytes} {pos n : Nat} (h : pos + n ≤ b.length) :
    slice b pos n = .ok ((b.drop pos).take n) := if_pos h

/-- Arithmetic on the 32-bit `size_t`. -/
def sizeT (n : Nat) : Nat := n % 2 ^ 32

/-- The bytes behind `resp` and the value behind `resp_len`; `none` for a NULL pointer. -/
structure Out where
  resp : Option Bytes
  respLen : Option Nat
deriving DecidableEq, Repr

namespace Out

def null : Out := ⟨none, none⟩

/-- A local array of `n` bytes with its length variable at 0. -/
def buf (n : Nat) : Out := ⟨some (List.replicate n 0), some 0⟩

/-- `memcpy(resp, data, n)` and `*resp_len = n`, each unless its pointer is NULL. -/
def put (o : Out) (data : Bytes) : Out :=
  ⟨o.resp.map fun r => data ++ r.drop data.length, o.respLen.map fun _ => data.length⟩

/-- The first `*resp_len` bytes. -/
def bytes (o : Out) : Bytes := (o.resp.getD []).take (o.respLen.getD 0)

@[simp] theorem put_null (data : Bytes) : null.put data = null := rfl

@[simp] theorem bytes_put_buf (n : Nat) (data : Bytes) : ((buf n).put data).bytes = data := by
  simp [buf, put, bytes]

end Out

/-- A C call's return value, out-parameters and the state it leaves. -/
structure Call (σ α : Type) where
  ret : α
  out : Out
  world : World σ

/-! ### `desfire_xfer` -/

/-- The ISO-wrapped form of a native command. -/
def apdu (cmd : UInt8) (params : Bytes) : Bytes :=
  [0x90, cmd, 0x00, 0x00, params.length.toUInt8] ++ params ++ [0x00]

/-- `desfire_xfer`; the return value −1 is `none`. -/
def desfireXfer (nfc : Nfc σ) (cmd : UInt8) (params : Bytes) (out : Out) (respBuf : Nat)
    (w : World σ) : Call σ (Option UInt8) :=
  if params.length > 255 then ⟨none, out, w⟩
  else
    let r := nfc w.link (apdu cmd params)
    let w := { w with link := r.2 }
    match r.1 with
    | .error _ => ⟨none, out, w.setStatus 0xFF⟩
    | .ok rx =>
      let rxl := rx.bytes.length
      if rxl < 2 then ⟨none, out, w.setStatus 0xFF⟩
      else if rx.bytes.getD (rxl - 2) 0 ≠ 0x91 then ⟨none, out, w.setStatus 0xFF⟩
      else
        let st := rx.bytes.getD (rxl - 1) 0
        let dataLen := rxl - 2
        if dataLen > respBuf then ⟨none, out, w.setStatus st⟩
        else ⟨some st, out.put (rx.bytes.take dataLen), w.setStatus st⟩

/-- What `desfire_xfer` makes of a driver result. -/
def receive (out : Out) (respBuf : Nat) (w : World σ) (r : LinkResult) : Call σ (Option UInt8) :=
  match r.parse with
  | none => ⟨none, out, w.setStatus 0xFF⟩
  | some (st, data) =>
    if data.length ≤ respBuf then ⟨some st, out.put data, w.setStatus st⟩
    else ⟨none, out, w.setStatus st⟩

theorem desfireXfer_eq (nfc : Nfc σ) (cmd : UInt8) {params : Bytes} (out : Out) (respBuf : Nat)
    (w : World σ) (h : params.length ≤ 255) :
    desfireXfer nfc cmd params out respBuf w =
      receive out respBuf { w with link := (nfc w.link (apdu cmd params)).2 }
        (nfc w.link (apdu cmd params)).1 := by
  rw [desfireXfer, if_neg (by omega)]
  generalize nfc w.link (apdu cmd params) = r
  obtain ⟨_ | rx, link⟩ := r
  · rfl
  · simp only [receive, LinkResult.parse]
    by_cases h2 : rx.bytes.length < 2
    · simp [h2, show ¬ 2 ≤ rx.bytes.length by omega]
    by_cases h91 : rx.bytes.getD (rx.bytes.length - 2) 0 = 0x91
    · simp only [h2, h91, ↓reduceIte, ne_eq, not_true_eq_false, show 2 ≤ rx.bytes.length by omega,
        and_self, List.length_take]
      rw [show min (rx.bytes.length - 2) rx.bytes.length = rx.bytes.length - 2 by omega]
      split <;> split <;> first | rfl | omega
    · simp only [h2, h91, ↓reduceIte, ne_eq, not_false_eq_true, and_false]

theorem desfireXfer_of_lt (nfc : Nfc σ) (cmd : UInt8) {params : Bytes} (out : Out) (respBuf : Nat)
    (w : World σ) (h : 255 < params.length) :
    desfireXfer nfc cmd params out respBuf w = ⟨none, out, w⟩ := if_pos h

@[simp] theorem receive_session (out : Out) (respBuf : Nat) (w : World σ) (r : LinkResult) :
    (receive out respBuf w r).world.host.session = w.host.session := by
  unfold receive; split <;> [rfl; (split <;> rfl)]

@[simp] theorem receive_macKey (out : Out) (respBuf : Nat) (w : World σ) (r : LinkResult) :
    (receive out respBuf w r).world.host.macKey = w.host.macKey := by
  unfold receive; split <;> [rfl; (split <;> rfl)]

@[simp] theorem receive_link (out : Out) (respBuf : Nat) (w : World σ) (r : LinkResult) :
    (receive out respBuf w r).world.link = w.link := by
  unfold receive; split <;> [rfl; (split <;> rfl)]

end LeafReader
