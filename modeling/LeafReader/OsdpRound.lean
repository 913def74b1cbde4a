import LeafReader.OsdpPdSteps

/-!
# A packet at an end that is idle

An end is idle when it holds nothing of a packet and nothing waits for it. A packet that comes then
is taken in by one poll; what is sent is a packet again, whose parts are known. The header of what
is sent is the same for both ends but for the direction.
-/

namespace LeafReader

/-! ### Taking a packet in -/

/-- Nothing of a packet is held, and nothing waits on the line. -/
structure OsdpLink.Idle (l : OsdpLink) : Prop where
  bufLen : l.packetBufLen = 0
  len : l.packetLen = 0
  ring : l.rxRb.contents = []
  waiting : l.rxWaiting = []

section Receive

variable {l : OsdpLink} {f : OsdpFrame} {noise : Bytes}

/-- What an idle end needs of the bytes before a packet, and of the packet, to take it in at once. -/
structure OsdpFrame.Arrives (f : OsdpFrame) (pdMode : Bool) (noise : Bytes) : Prop where
  clean : osdpPktSom ∉ noise
  msg : f.msg ≠ []
  receivable : f.Receivable pdMode
  room : f.Fits (endsInMark noise)
  fits : noise.length + f.len < osdpRxRbSize

theorem collectPacket_frame (now : ℤ) (h : l.Idle) (hf : f.Arrives l.pdMode noise) :
    ∃ l' m, collectPacket now { l with rxWaiting := noise ++ f.body } = (.ok (), l') ∧ l.SameRest l' ∧
      l'.Holds { f with marked := m } ∧ l'.rxRb.contents = [] ∧ l'.rxWaiting = [] := by
  set l₁ : OsdpLink := { l with rxWaiting := noise ++ f.body } with hl₁
  have hex : Expects l₁ f (l₁.rxWaiting ++ []) [] := by
    refine ⟨noise, [], .searching h.bufLen h.len, hf.clean, .inr rfl, hf.room, ?_⟩
    rw [show l₁.rxRb.contents = [] from h.ring, List.append_nil, List.nil_append, List.append_nil]
  have hfit : l₁.rxRb.contents.length + l₁.rxWaiting.length < osdpRxRbSize := by
    rw [show l₁.rxRb.contents = [] from h.ring, hl₁, List.length_append, f.length_body]
    simpa using hf.fits
  obtain ⟨l', hwait, hrest, hstep⟩ := collectPacket_step now hex hf.msg hf.receivable hfit
  rw [if_pos (Nat.le_refl _)] at hstep
  obtain ⟨hpoll, ⟨m, hholds⟩, hring⟩ := hstep
  exact ⟨l', m, hpoll, hrest, hholds, by simpa using hring, hwait⟩

end Receive

/-! ### Sending a packet -/

/-- The sequence numbers that are on the line. -/
def SeqOnLine (n : ℤ) : Prop := 0 ≤ n ∧ n ≤ 3

/-- The control field of a packet with the number `n`; `scb` says whether a security block follows. -/
def ctrlOf (n : ℤ) (scb : Bool) : UInt8 :=
  UInt8.ofNat (n % 4).toNat ||| pktControlCrc ||| (if scb then pktControlScb else 0)

theorem SeqOnLine.cases {n : ℤ} (h : SeqOnLine n) : n = 0 ∨ n = 1 ∨ n = 2 ∨ n = 3 := by
  obtain ⟨h₀, h₃⟩ := h
  omega

theorem ctrlOf_crc (n : ℤ) (scb : Bool) : ctrlOf n scb &&& pktControlCrc ≠ 0 := by
  have hn : n % 4 = 0 ∨ n % 4 = 1 ∨ n % 4 = 2 ∨ n % 4 = 3 := by omega
  unfold ctrlOf
  rcases hn with hn | hn | hn | hn <;> rw [hn] <;> rcases scb with _ | _ <;> decide

theorem ctrlOf_sqn {n : ℤ} (h : SeqOnLine n) (scb : Bool) :
    ((ctrlOf n scb &&& pktControlSqn).toNat : ℤ) = n := by
  rcases h.cases with rfl | rfl | rfl | rfl <;> rcases scb with _ | _ <;> decide

theorem ctrlOf_scb (n : ℤ) (scb : Bool) : ctrlOf n scb &&& pktControlScb ≠ 0 ↔ scb = true := by
  have hn : n % 4 = 0 ∨ n % 4 = 1 ∨ n % 4 = 2 ∨ n % 4 = 3 := by omega
  unfold ctrlOf
  rcases hn with hn | hn | hn | hn <;> rw [hn] <;> rcases scb with _ | _ <;> decide

/-- The address field of what this end sends. -/
def addrOf (l : OsdpLink) : UInt8 :=
  let addr : UInt8 := if l.pktBroadcast then 0x7F else UInt8.ofNat l.address &&& 0x7F
  if l.pdMode then addr ||| 0x80 else addr

/-- The security block that a header begins with. -/
def scbOf (l : OsdpLink) (id : UInt8) : Bytes :=
  if l.scActive then [2, scs15] else if osdpPhyInScHandshake l.pdMode id then [3, scs11, 0] else []

theorem OsdpLink.mark_eq_length (l : OsdpLink) : l.mark = (markOf l.pktHasMark).length :=
  (length_markOf _).symm

/-- The link when the header of a packet has been made. -/
def OsdpLink.initiated (l : OsdpLink) : OsdpLink :=
  { l with
    pktHasMark := l.pktHasMark || !l.pdMode
    pktBroadcast := false
    seqNumber := if l.pdMode then l.seqNumber else nextSeq l.seqNumber }

theorem osdpPhyPacketInit_eq (l : OsdpLink) (id : UInt8) {maxLen : ℕ}
    (hroom : osdpMinimumPacketSize ≤ maxLen) :
    osdpPhyPacketInit l id maxLen =
      (.ok (markOf l.initiated.pktHasMark ++ [osdpPktSom, addrOf l, 0, 0,
        ctrlOf l.initiated.seqNumber (scbOf l id ≠ [])] ++ scbOf l id), l.initiated) := by
  have hlen : ¬ maxLen < osdpMinimumPacketSize := Nat.not_lt.2 hroom
  unfold osdpPhyPacketInit
  rw [if_neg hlen]
  rcases hpd : l.pdMode with _ | _ <;> rcases hsc : l.scActive with _ | _ <;>
    rcases hid : osdpPhyInScHandshake l.pdMode id with _ | _
  all_goals
    rw [hpd] at hid
    simp [osdpPhyGetSeqNumber, OsdpLink.initiated, addrOf, scbOf, ctrlOf, hpd, hsc, hid, nextSeq]

/-- The security block behind a header. -/
theorem drop_header (m : Bool) (addr ctrl : UInt8) (scb : Bytes) :
    (markOf m ++ [osdpPktSom, addr, 0, 0, ctrl] ++ scb).drop ((markOf m).length + 5) = scb := by
  have hhead : (markOf m ++ [osdpPktSom, addr, 0, 0, ctrl]).length = (markOf m).length + 5 := by
    rw [List.length_append]
    rfl
  rw [← hhead, List.drop_left]

section Send

variable {aes : Aes} {l l' : OsdpLink} {maxLen : ℕ} {frame : Bytes}

variable {f : OsdpFrame} {sendOk : Bool}

/-- The header and the message, with a security block of the length that was left for it, are a
draft. -/
theorem setSmb_draft (m : Bool) (addr ctrl : UInt8) {scb smb : Bytes}
    (msg : Bytes) (hlen : smb.length = scb.length) :
    setSmb (markOf m ++ [osdpPktSom, addr, 0, 0, ctrl] ++ scb ++ msg) ((markOf m).length + 5) smb =
      (OsdpFrame.mk m addr ctrl smb msg []).draft := by
  have hhead : (markOf m ++ [osdpPktSom, addr, 0, 0, ctrl]).length = (markOf m).length + 5 := by
    rw [List.length_append]
    rfl
  unfold setSmb
  rw [List.append_assoc _ scb msg, ← hhead, List.take_left, hlen, ← List.drop_drop,
    List.drop_left, List.drop_left]
  rfl

end Send

end LeafReader
