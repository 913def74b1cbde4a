import LeafReader.LeafFlow
import LeafReader.StackMemory

/-!
# `leaf_personalize` with its stack

The functions of the flow once more, with the arrays they leave uninitialised. An array that one call
or one loop writes as a whole is its value; every other one starts with the memory of its call and is
written piece by piece. Each function comes with the equation to its definition without memory; what
remains of the memory in the end is the tail of `payload`.
-/

namespace LeafReader

variable {σ : Type} (aes : Aes) (nfc : Nfc σ) (g : Garbage UInt8)

/-- The `k`-th array of the call, with the pieces written to it in turn. -/
def collect (k cap : Nat) (ds : List Bytes) : Except Fault (Buf UInt8 cap) :=
  match (Buf.start (g.array k cap) (g.length_array k cap)).puts ds with
  | none => .error .overrun
  | some b => .ok b

/-- What is read of it: the bytes written. -/
def gather (k cap : Nat) (ds : List Bytes) : Except Fault Bytes :=
  (collect g k cap ds).map Buf.contents

theorem gather_eq (k cap : Nat) (ds : List Bytes) : gather g k cap ds = fill cap ds.flatten := by
  have h := Buf.contents_puts ds (Buf.start (g.array k cap) (g.length_array k cap))
  have hused : (Buf.start (g.array k cap) (g.length_array k cap)).used = 0 := rfl
  rw [Buf.contents_start, List.nil_append, hused, Nat.zero_add] at h
  unfold gather collect fill
  split
  · rename_i hp
    rw [hp] at h
    split_ifs at h ⊢
    · cases h
    · rfl
  · rename_i b hp
    rw [hp] at h
    split_ifs at h ⊢
    · exact congrArg Except.ok (Option.some.inj h)
    · cases h

theorem collect_of_le {k cap : Nat} {ds : List Bytes} (h : ds.flatten.length ≤ cap) :
    ∃ b, collect g k cap ds = .ok b ∧ b.contents = ds.flatten := by
  have hg := gather_eq g k cap ds
  rw [fill_of_le h, gather] at hg
  cases hc : collect g k cap ds with
  | error e =>
    rw [hc] at hg
    cases hg
  | ok b =>
    rw [hc] at hg
    exact ⟨b, rfl, Except.ok.inj hg⟩

/-! ### CMAC -/

def desfireCmacMem (key : Block) (msg : Bytes) : Block :=
  let (k1, k2) := cmacSubkeys aes key
  let n := if msg.length = 0 then 1 else (msg.length + 15) / 16
  let lastComplete := msg.length ≠ 0 ∧ msg.length % 16 = 0
  let last := (msg.drop ((n - 1) * 16)).take 16
  let mem := g.array 0 16
  let mLast :=
    if lastComplete then Block.ofBytes (store mem 0 last) ^^^ k1
    else
      let mem := store (store mem 0 (List.replicate 16 0)) 0 last
      Block.ofBytes (store mem last.length [0x80]) ^^^ k2
  let x := (blocks (n - 1) msg).foldl (fun x m => aes.enc key (x ^^^ m)) .zero
  aes.enc key (x ^^^ mLast)

theorem ofBytes_append_zeros (l : Bytes) (n : Nat) :
    Block.ofBytes (l ++ List.replicate n 0) = Block.ofBytes l := by
  ext i hi
  simp only [Block.ofBytes, Vector.getElem_ofFn, List.getD_eq_getElem?_getD, List.getElem?_append,
    List.getElem?_replicate]
  split
  · rfl
  · rename_i hlt
    rw [List.getElem?_eq_none (by omega)]
    split <;> rfl

@[simp] theorem desfireCmacMem_eq (key : Block) (msg : Bytes) :
    desfireCmacMem aes g key msg = desfireCmac aes key msg := by
  unfold desfireCmacMem desfireCmac
  dsimp only
  set n := if msg.length = 0 then 1 else (msg.length + 15) / 16 with hn
  have hlen : (msg.drop ((n - 1) * 16)).length ≤ 16 := by
    rw [List.length_drop, hn]
    split <;> omega
  rw [List.take_of_length_le hlen]
  by_cases hc : msg.length ≠ 0 ∧ msg.length % 16 = 0
  · have h16 : (msg.drop ((n - 1) * 16)).length = 16 := by
      rw [List.length_drop, hn, if_neg hc.1]
      omega
    rw [if_pos hc, if_pos hc, store_all (by simp [h16])]
  · have h15 : (msg.drop ((n - 1) * 16)).length ≤ 15 := by
      rw [List.length_drop, hn]
      split <;> omega
    have hset : store (g.array 0 16) 0 (List.replicate 16 0) = List.replicate 16 0 := store_all (by simp)
    rw [if_neg hc, if_neg hc, hset, store_zero, store_append _ _ rfl, List.drop_replicate,
      List.drop_replicate, ofBytes_append_zeros]

def cmacSessionMem (h : Host) (msg : Bytes) : Bytes :=
  macTruncate (desfireCmacMem aes (g.call 0) h.macKey msg)

def cmacWithKeyMem (key : Block) (msg : Bytes) (h : Host) : Block × Host :=
  let saved := h.macKey
  let h := { h with macKey := key }
  let out := desfireCmacMem aes (g.call 0) h.macKey msg
  (out, { h with macKey := saved })

@[simp] theorem cmacSessionMem_eq (h : Host) (msg : Bytes) :
    cmacSessionMem aes g h msg = cmacSession aes h msg := by
  rw [cmacSessionMem, desfireCmacMem_eq, cmacSession]

@[simp] theorem cmacWithKeyMem_eq (key : Block) (msg : Bytes) (h : Host) :
    cmacWithKeyMem aes g key msg h = cmacWithKey aes key msg h := by
  rw [cmacWithKeyMem, desfireCmacMem_eq, cmacWithKey]

/-! ### Keys and payload -/

/-- `sv` of `derive_session_keys`, under the header of `sv1`. -/
def sessionVectorMem (rndA rndB : Block) : Bytes :=
  let sv := store (g.array 0 32) 0 [0xA5, 0x5A, 0x00, 0x01, 0x00, 0x80]
  let sv := store sv 6 (rndA.toList.take 2)
  let sv := store sv 8 (List.zipWith (· ^^^ ·) ((rndA.toList.drop 2).take 6) (rndB.toList.take 6))
  let sv := store sv 14 ((rndB.toList.drop 6).take 10)
  store sv 24 ((rndA.toList.drop 8).take 8)

def deriveSessionKeysMem (kMaster rndA rndB : Block) (h : Host) : (Block × Block) × Host :=
  let sv := sessionVectorMem g rndA rndB
  let (kEnc, h) := cmacWithKeyMem aes (g.call 0) kMaster sv h
  -- the same body under the header of `sv2`
  let sv := store sv 0 [0x5A, 0xA5]
  let (kMac, h) := cmacWithKeyMem aes (g.call 1) kMaster sv h
  ((kEnc, kMac), h)

theorem sessionVectorMem_eq (rndA rndB : Block) :
    sessionVectorMem g rndA rndB = sessionVector 0xA5 0x5A rndA rndB := by
  have h6 : rndA.toList.take 2 = List.ofFn fun i : Fin 2 => rndA[i.val] :=
    List.ext_getElem (by simp) fun i _ _ => by rw [List.getElem_ofFn]; simp
  have h8 : List.zipWith (· ^^^ ·) ((rndA.toList.drop 2).take 6) (rndB.toList.take 6) =
      List.ofFn fun i : Fin 6 => rndA[2 + i.val] ^^^ rndB[i.val] :=
    List.ext_getElem (by simp) fun i _ _ => by rw [List.getElem_ofFn]; simp
  have h14 : (rndB.toList.drop 6).take 10 = List.ofFn fun i : Fin 10 => rndB[6 + i.val] :=
    List.ext_getElem (by simp) fun i _ _ => by rw [List.getElem_ofFn]; simp
  have h24 : (rndA.toList.drop 8).take 8 = List.ofFn fun i : Fin 8 => rndA[8 + i.val] :=
    List.ext_getElem (by simp) fun i _ _ => by rw [List.getElem_ofFn]; simp
  rw [sessionVectorMem, h6, h8, h14, h24]
  rw [store_zero, store_append _ _ (by simp), store_append _ _ (by simp), store_append _ _ (by simp),
    store_append _ _ (by simp), List.drop_of_length_le (by simp), List.append_nil]
  rfl

@[simp] theorem deriveSessionKeysMem_eq (kMaster rndA rndB : Block) (h : Host) :
    deriveSessionKeysMem aes g kMaster rndA rndB h = deriveSessionKeys aes kMaster rndA rndB h := by
  have hsv : store (sessionVector 0xA5 0x5A rndA rndB) 0 [0x5A, 0xA5] =
      sessionVector 0x5A 0xA5 rndA rndB := rfl
  rw [deriveSessionKeysMem, sessionVectorMem_eq, deriveSessionKeys]
  simp only [cmacWithKeyMem_eq, hsv]

/-- The CMAC under `site` of `tag | UID | AID`, laid out in `m[17]`. -/
def diversifyMem (tag : UInt8) (site : Block) (uid : Bytes) (h : Host) :
    Except Fault (Block × Host) := do
  let m ← gather g 0 17 [[tag], uid.take 7, leafAid.toList]
  return cmacWithKeyMem aes (g.call 0) site m h

def leafDiversifyKeyMem (site : Block) (uid : Bytes) (h : Host) : Except Fault (Block × Host) :=
  diversifyMem aes g 0x01 site uid h

def diversifyMasterMem (site : Block) (uid : Bytes) (h : Host) : Except Fault (Block × Host) :=
  diversifyMem aes g 0x02 site uid h

theorem diversifyMem_eq (tag : UInt8) (site : Block) (uid : Bytes) (h : Host) :
    diversifyMem aes g tag site uid h = .ok (cmacWithKey aes site (diversifyInput tag uid) h) := by
  have htake : (uid.take 7).length ≤ 7 := List.length_take_le 7 uid
  have hfit : ([[tag], uid.take 7, leafAid.toList] : List Bytes).flatten.length ≤ 17 := by
    simp only [List.flatten_cons, List.flatten_nil, List.length_append, List.length_cons,
      List.length_nil, Vector.length_toList]
    omega
  rw [diversifyMem, gather_eq, fill_of_le hfit]
  simp [diversifyInput, bind, Except.bind, pure, Except.pure]

@[simp] theorem leafDiversifyKeyMem_eq (site : Block) (uid : Bytes) (h : Host) :
    leafDiversifyKeyMem aes g site uid h = .ok (leafDiversifyKey aes site uid h) :=
  diversifyMem_eq aes g 0x01 site uid h

@[simp] theorem diversifyMasterMem_eq (site : Block) (uid : Bytes) (h : Host) :
    diversifyMasterMem aes g site uid h = .ok (diversifyMaster aes site uid h) :=
  diversifyMem_eq aes g 0x02 site uid h

def leafPayloadMacMem (divKey : Block) (payload : Bytes) (h : Host) : Bytes × Host :=
  let (full, h) := cmacWithKeyMem aes (g.call 0) divKey (payload.take 10) h
  (macTruncate full, h)

@[simp] theorem leafPayloadMacMem_eq (divKey : Block) (payload : Bytes) (h : Host) :
    leafPayloadMacMem aes g divKey payload h = leafPayloadMac aes divKey payload h := by
  rw [leafPayloadMacMem, cmacWithKeyMem_eq, leafPayloadMac]

/-! ### `desfire_xfer` -/

def desfireXferMem (cmd : UInt8) (params : Bytes) (out : Out) (respBuf : Nat) (w : World σ) :
    Except Fault (Call σ (Option UInt8)) := do
  if params.length > 255 then return ⟨none, out, w⟩
  let apdu ← gather g 0 262 [[0x90], [cmd], [0x00], [0x00], [params.length.toUInt8], params, [0x00]]
  let r := nfc w.link apdu
  let w := { w with link := r.2 }
  match r.1 with
  | .error _ => return ⟨none, out, w.setStatus 0xFF⟩
  | .ok rx =>
    -- the driver writes `rxl` of the 280 bytes
    let mem := store (g.array 1 280) 0 rx.bytes
    let rxl := rx.bytes.length
    if rxl < 2 then return ⟨none, out, w.setStatus 0xFF⟩
    if mem.getD (rxl - 2) 0 ≠ 0x91 then return ⟨none, out, w.setStatus 0xFF⟩
    let st := mem.getD (rxl - 1) 0
    let dataLen := rxl - 2
    if dataLen > respBuf then return ⟨none, out, w.setStatus st⟩
    return ⟨some st, out.put (mem.take dataLen), w.setStatus st⟩

@[simp] theorem desfireXferMem_eq (cmd : UInt8) (params : Bytes) (out : Out) (respBuf : Nat)
    (w : World σ) :
    desfireXferMem nfc g cmd params out respBuf w = .ok (desfireXfer nfc cmd params out respBuf w) := by
  unfold desfireXferMem desfireXfer
  by_cases hlen : params.length > 255
  · rw [if_pos hlen, if_pos hlen]
    rfl
  · have hfit : ([[0x90], [cmd], [0x00], [0x00], [params.length.toUInt8], params, [0x00]] :
        List Bytes).flatten.length ≤ 262 := by
      simp
      omega
    have happ : ([[0x90], [cmd], [0x00], [0x00], [params.length.toUInt8], params, [0x00]] :
        List Bytes).flatten = apdu cmd params := by
      simp [apdu]
    rw [if_neg hlen, if_neg hlen, gather_eq, fill_of_le hfit, happ]
    simp only [bind, Except.bind, pure, Except.pure]
    cases (nfc w.link (apdu cmd params)).1 with
    | error e => rfl
    | ok rx =>
      by_cases h2 : rx.bytes.length < 2
      · simp only [if_pos h2]
      · have hget (i : Nat) (hi : i < rx.bytes.length) :
            (store (g.array 1 280) 0 rx.bytes).getD i 0 = rx.bytes.getD i 0 := by
          rw [store_zero, List.getD_eq_getElem?_getD, List.getElem?_append_left hi,
            List.getD_eq_getElem?_getD]
        have htake : (store (g.array 1 280) 0 rx.bytes).take (rx.bytes.length - 2) =
            rx.bytes.take (rx.bytes.length - 2) := by
          rw [store_zero, List.take_append_of_le_length (by omega)]
        simp only [if_neg h2, hget _ (show rx.bytes.length - 2 < rx.bytes.length by omega),
          hget _ (show rx.bytes.length - 1 < rx.bytes.length by omega), htake]
        split_ifs <;> rfl

/-! ### The handshake -/

/-- Two out-parameters that differ in the bytes beyond `*resp_len` only. -/
structure Out.Alike (o o' : Out) : Prop where
  resp : o.resp.isSome = o'.resp.isSome
  respLen : o.respLen = o'.respLen
  bytes : o.bytes = o'.bytes

theorem Out.alike_local (mem : Bytes) (n : Nat) : Out.Alike ⟨some mem, some 0⟩ (.buf n) :=
  ⟨rfl, rfl, rfl⟩

theorem Out.Alike.put {o o' : Out} (h : o.Alike o') (d : Bytes) : (o.put d).Alike (o'.put d) := by
  obtain ⟨r, n⟩ := o
  obtain ⟨r', n'⟩ := o'
  obtain ⟨hr, rfl, -⟩ := h
  refine ⟨by simpa [Out.put] using hr, rfl, ?_⟩
  cases r <;> cases r' <;> cases n <;> simp_all [Out.put, Out.bytes]

theorem desfireXfer_alike {o o' : Out} (h : o.Alike o') (cmd : UInt8) (params : Bytes) (respBuf : Nat)
    (w : World σ) :
    let x := desfireXfer nfc cmd params o respBuf w
    let x' := desfireXfer nfc cmd params o' respBuf w
    x.ret = x'.ret ∧ x.world = x'.world ∧ x.out.Alike x'.out := by
  intro x x'
  by_cases hlen : params.length ≤ 255
  · have hx : x = _ := desfireXfer_eq nfc cmd o respBuf w hlen
    have hx' : x' = _ := desfireXfer_eq nfc cmd o' respBuf w hlen
    rw [hx, hx', receive, receive]
    split
    · exact ⟨rfl, rfl, h⟩
    · split
      · exact ⟨rfl, rfl, h.put _⟩
      · exact ⟨rfl, rfl, h⟩
  · have hx : x = _ := desfireXfer_of_lt nfc cmd o respBuf w (by omega)
    have hx' : x' = _ := desfireXfer_of_lt nfc cmd o' respBuf w (by omega)
    rw [hx, hx']
    exact ⟨rfl, rfl, h⟩

def captureSessionMem (keyNo : UInt8) (key rndA rndB : Block) (plain : Bytes) (w : World σ) : World σ :=
  let ((kEnc, kMac), h) := deriveSessionKeysMem aes g key rndA rndB w.host
  { w with
    host :=
      { h with
        session :=
          { keyNo := keyNo
            ti := Vector.ofFn fun i => plain.getD i 0
            kSesAuthEnc := kEnc
            kSesAuthMac := kMac
            cmdCtr := 0
            authenticated := true }
        macKey := kMac } }

@[simp] theorem captureSessionMem_eq (keyNo : UInt8) (key rndA rndB : Block) (plain : Bytes)
    (w : World σ) :
    captureSessionMem aes g keyNo key rndA rndB plain w =
      captureSession aes keyNo key rndA rndB plain w := by
  rw [captureSessionMem, deriveSessionKeysMem_eq, captureSession]

def desfireAuthEv2FirstMem (keyNo : UInt8) (key rndA : Block) (w : World σ) :
    Except Fault (Call σ EspErr) := do
  let x1 ← desfireXferMem nfc (g.call 0) 0x71 [keyNo, 0x00, 0x00] ⟨some (g.array 0 64), some 0⟩ 64 w
  if x1.ret ≠ some 0xAF ∨ x1.out.bytes.length ≠ 16 then return ⟨.fail, .null, x1.world⟩
  let eRndB := Block.ofBytes x1.out.bytes
  let rndB := Block.ofBytes (desfireAesCbcDecrypt aes key .zero eRndB.toList)
  let toEnc := store (store (g.array 1 32) 0 rndA.toList) 16 (rotateLeft1 rndB).toList
  let encrypted := desfireAesCbcEncrypt aes key eRndB toEnc
  let x2 ← desfireXferMem nfc (g.call 1) 0xAF encrypted x1.out 64 x1.world
  if x2.ret ≠ some 0x00 ∨ x2.out.bytes.length ≠ 32 then return ⟨.fail, .null, x2.world⟩
  let iv3 := Block.ofBytes (encrypted.drop 16)
  let plain := desfireAesCbcDecrypt aes key iv3 x2.out.bytes
  if (plain.drop 4).take 16 ≠ (rotateLeft1 rndA).toList then return ⟨.fail, .null, x2.world⟩
  return ⟨.ok, .null, captureSessionMem aes (g.call 2) keyNo key rndA rndB plain x2.world⟩

@[simp] theorem desfireAuthEv2FirstMem_eq (keyNo : UInt8) (key rndA : Block) (w : World σ) :
    desfireAuthEv2FirstMem aes nfc g keyNo key rndA w =
      .ok (desfireAuthEv2First aes nfc keyNo key rndA w) := by
  unfold desfireAuthEv2FirstMem desfireAuthEv2First
  obtain ⟨hret1, hw1, hout1⟩ := desfireXfer_alike nfc (Out.alike_local (g.array 0 64) 64) 0x71
    [keyNo, 0x00, 0x00] 64 w
  simp only [desfireXferMem_eq, bind, Except.bind]
  generalize desfireXfer nfc 0x71 [keyNo, 0x00, 0x00] ⟨some (g.array 0 64), some 0⟩ 64 w = y1 at *
  generalize desfireXfer nfc 0x71 [keyNo, 0x00, 0x00] (.buf 64) 64 w = x1 at *
  rw [hret1, hw1, hout1.bytes]
  have hstore (a b : Block) : store (store (g.array 1 32) 0 a.toList) 16 b.toList =
      a.toList ++ b.toList := by
    rw [store_zero, store_append _ _ (by simp), List.drop_of_length_le (by simp), List.append_nil]
  simp only [hstore, captureSessionMem_eq, authChallenge]
  by_cases h1 : x1.ret ≠ some 0xAF ∨ x1.out.bytes.length ≠ 16
  · rw [if_pos h1, if_pos h1]
    rfl
  · rw [if_neg h1, if_neg h1]
    have h2 (c : Bytes) := desfireXfer_alike nfc hout1 0xAF c 64 x1.world
    refine Eq.trans (ite_congr ?_ (fun _ => ?_) fun _ => ?_) (apply_ite Except.ok _ _ _).symm
    · rw [(h2 _).1, (h2 _).2.2.bytes]
    · rw [(h2 _).2.1]
      rfl
    · refine Eq.trans (ite_congr ?_ (fun _ => ?_) fun _ => ?_) (apply_ite Except.ok _ _ _).symm
      · rw [(h2 _).2.2.bytes]
      · rw [(h2 _).2.1]
        rfl
      · rw [(h2 _).2.1, (h2 _).2.2.bytes]
        rfl

/-! ### CMAC mode -/

/-- A MAC input `first | ctr | TI | …` laid out in the `k`-th array. -/
def macInput (k cap : Nat) (first : UInt8) (s : Session) (ds : List Bytes) : Except Fault Bytes :=
  gather g k cap ([[first], le16 s.cmdCtr, s.ti.toList] ++ ds)

theorem macInput_eq (k cap : Nat) (first : UInt8) (s : Session) (ds : List Bytes) :
    macInput g k cap first s ds = fill cap (macHead first s ++ ds.flatten) := by
  rw [macInput, gather_eq]
  simp [macHead]

def cmacVerifyMem (st : UInt8) (out : Out) (w : World σ) : Except Fault (Call σ EspErr) :=
  match out.respLen with
  | none => .ok ⟨.ok, out, w⟩
  | some n =>
    if n < 8 then .ok ⟨.ok, out, w⟩
    else
      match out.resp with
      | none => .error .nullDeref
      | some resp => do
        let rd := n - 8
        let verify ← macInput g 2 256 st w.host.session [resp.take rd]
        if (resp.drop rd).take 8 ≠ cmacSessionMem aes (g.call 2) w.host verify then
          return ⟨.invalidCrc, out, w⟩
        return ⟨.ok, { out with respLen := some rd }, w⟩

def cmacFinishMem (x : Call σ (Option UInt8)) : Except Fault (Call σ EspErr) :=
  match x.ret with
  | none => .ok ⟨.fail, x.out, x.world⟩
  | some st =>
    if st ≠ 0x00 ∧ st ≠ 0xAF then .ok ⟨.fail, x.out, x.world⟩
    else cmacVerifyMem aes g st x.out x.world.bumpCtr

def cmacAppendAndSendMem (cmd : UInt8) (header data : Bytes) (out : Out) (respBuf : Nat)
    (w : World σ) : Except Fault (Call σ EspErr) := do
  if sizeT (header.length + data.length) > 256 then return ⟨.invalidSize, out, w⟩
  let macbuf ← macInput g 0 263 cmd w.host.session [header, data]
  let mac8 := cmacSessionMem aes (g.call 0) w.host macbuf
  let params ← gather g 1 256 [header, data, mac8]
  let x ← desfireXferMem nfc (g.call 1) cmd params out respBuf w
  cmacFinishMem aes g x

theorem cmacVerifyMem_eq (st : UInt8) (out : Out) (w : World σ) :
    cmacVerifyMem aes g st out w = cmacVerify aes st out w := by
  unfold cmacVerifyMem cmacVerify
  cases out.respLen with
  | none => rfl
  | some n =>
    cases out.resp with
    | none => rfl
    | some resp =>
      simp only [macInput_eq, List.flatten_cons, List.flatten_nil, List.append_nil, cmacSessionMem_eq]

@[simp] theorem cmacFinishMem_eq (x : Call σ (Option UInt8)) :
    cmacFinishMem aes g x = cmacFinish aes x := by
  obtain ⟨_ | st, out, w⟩ := x
  · rfl
  · simp only [cmacFinishMem, cmacFinish, cmacVerifyMem_eq]

@[simp] theorem cmacAppendAndSendMem_eq (cmd : UInt8) (header data : Bytes) (out : Out) (respBuf : Nat)
    (w : World σ) :
    cmacAppendAndSendMem aes nfc g cmd header data out respBuf w =
      cmacAppendAndSend aes nfc cmd header data out respBuf w := by
  simp only [cmacAppendAndSendMem, cmacAppendAndSend, macInput_eq, gather_eq, desfireXferMem_eq,
    cmacFinishMem_eq, cmacSessionMem_eq, List.flatten_cons, List.flatten_nil, List.append_nil,
    List.append_assoc]
  rfl

/-! ### Operations -/

def desfireSelectApplicationMem (aid : Aid) (w : World σ) : Except Fault (Call σ EspErr) := do
  let x ← desfireXferMem nfc (g.call 0) 0x5A aid.toList .null 0 w
  if x.ret ≠ some 0x00 then return ⟨.fail, .null, x.world⟩
  return ⟨.ok, .null,
    x.world.setSession { x.world.host.session with authenticated := false, cmdCtr := 0 }⟩

def desfireFormatPiccMem (w : World σ) : Except Fault (Call σ EspErr) :=
  if !w.host.session.authenticated then .ok ⟨.invalidState, .null, w⟩
  else cmacAppendAndSendMem aes nfc (g.call 0) 0xFC [] [] .null 0 w

def desfireCreateApplicationMem (aid : Aid) (keySettings numKeysAndFlags : UInt8) (w : World σ) :
    Except Fault (Call σ EspErr) := do
  let hdr := store (store (store (g.array 0 5) 0 aid.toList) 3 [keySettings]) 4 [numKeysAndFlags]
  if w.host.session.authenticated then cmacAppendAndSendMem aes nfc (g.call 0) 0xCA hdr [] .null 0 w
  else
    let x ← desfireXferMem nfc (g.call 0) 0xCA hdr .null 0 w
    return ofStatus x

def desfireCreateStdDataFileMem (fileNo : UInt8) (comm : CommMode) (accessRights : UInt16)
    (fileSize : UInt32) (w : World σ) : Except Fault (Call σ EspErr) :=
  let hdr := store (store (g.array 0 7) 0 [fileNo]) 1 [comm.toByte]
  let hdr := store (store hdr 2 (le16 accessRights)) 4 (le24 fileSize)
  if !w.host.session.authenticated then .ok ⟨.invalidState, .null, w⟩
  else cmacAppendAndSendMem aes nfc (g.call 0) 0xCD hdr [] .null 0 w

/-- `desfire_write_data` in the mode `DESFIRE_COMM_CMAC`. -/
def desfireWriteDataMem (fileNo : UInt8) (offset : UInt32) (data : Bytes) (w : World σ) :
    Except Fault (Call σ EspErr) :=
  let hdr := store (g.array 0 7) 0 [fileNo]
  let hdr := store (store hdr 1 (le24 offset)) 4 (le24 data.length.toUInt32)
  if !w.host.session.authenticated then .ok ⟨.invalidState, .null, w⟩
  else cmacAppendAndSendMem aes nfc (g.call 0) 0x3D hdr data .null 0 w

@[simp] theorem desfireSelectApplicationMem_eq (aid : Aid) (w : World σ) :
    desfireSelectApplicationMem nfc g aid w = .ok (desfireSelectApplication nfc aid w) := by
  simp only [desfireSelectApplicationMem, desfireSelectApplication, desfireXferMem_eq,
    apply_ite Except.ok]
  rfl

@[simp] theorem desfireFormatPiccMem_eq (w : World σ) :
    desfireFormatPiccMem aes nfc g w = desfireFormatPicc aes nfc w := by
  simp only [desfireFormatPiccMem, cmacAppendAndSendMem_eq, desfireFormatPicc]

@[simp] theorem desfireCreateApplicationMem_eq (aid : Aid) (ks nk : UInt8) (w : World σ) :
    desfireCreateApplicationMem aes nfc g aid ks nk w = desfireCreateApplication aes nfc aid ks nk w := by
  have hhdr : store (store (store (g.array 0 5) 0 aid.toList) 3 [ks]) 4 [nk] =
      aid.toList ++ [ks, nk] := by
    rw [store_zero, store_append _ _ (by simp), store_append _ _ (by simp),
      List.drop_of_length_le (by simp), List.append_nil, List.append_assoc]
    rfl
  simp only [desfireCreateApplicationMem, desfireCreateApplication, hhdr, cmacAppendAndSendMem_eq,
    desfireXferMem_eq]
  rfl

@[simp] theorem desfireCreateStdDataFileMem_eq (fileNo : UInt8) (comm : CommMode) (rights : UInt16)
    (size : UInt32) (w : World σ) :
    desfireCreateStdDataFileMem aes nfc g fileNo comm rights size w =
      desfireCreateStdDataFile aes nfc fileNo comm rights size w := by
  have hhdr : store (store (store (store (g.array 0 7) 0 [fileNo]) 1 [comm.toByte]) 2 (le16 rights)) 4
      (le24 size) = [fileNo, comm.toByte] ++ le16 rights ++ le24 size := by
    rw [store_zero, store_append _ _ (by simp), store_append _ _ (by simp), store_append _ _ (by simp),
      List.drop_of_length_le (by simp), List.append_nil]
    rfl
  simp only [desfireCreateStdDataFileMem, desfireCreateStdDataFile, hhdr, cmacAppendAndSendMem_eq]

@[simp] theorem desfireWriteDataMem_eq (fileNo : UInt8) (offset : UInt32) (data : Bytes) (w : World σ) :
    desfireWriteDataMem aes nfc g fileNo offset data w =
      desfireWriteData aes nfc fileNo offset .cmac data w := by
  have hhdr : store (store (store (g.array 0 7) 0 [fileNo]) 1 (le24 offset)) 4
      (le24 data.length.toUInt32) = fileHeader fileNo offset data.length.toUInt32 := by
    rw [store_zero, store_append _ _ (by simp), store_append _ _ (by simp),
      List.drop_of_length_le (by simp), List.append_nil]
    rfl
  simp only [desfireWriteDataMem, desfireWriteData, hhdr, cmacAppendAndSendMem_eq]

/-! ### ChangeKey -/

/-- `pad_to_block`, in place; `none` where it returns 0. -/
def padToBlockMem {cap : Nat} (b : Buf UInt8 cap) : Option (Buf UInt8 cap) :=
  let rem := b.used % 16
  let pad := if rem = 0 then 0 else 16 - rem
  if pad = 0 then some b
  else b.puts [[0x80], List.replicate (pad - 1) 0]

theorem padToBlockMem_eq {cap : Nat} (b : Buf UInt8 cap) :
    ((padToBlockMem b).map Buf.contents).getD [] = padToBlock b.contents cap := by
  unfold padToBlockMem padToBlock
  simp only [Buf.length_contents]
  set pad := if b.used % 16 = 0 then 0 else 16 - b.used % 16 with hpad
  by_cases h0 : pad = 0
  · simp [h0]
  · have hlen : ([[0x80], List.replicate (pad - 1) 0] : List Bytes).flatten.length = pad := by
      simp
      omega
    rw [if_neg h0, if_neg h0, Buf.contents_puts, hlen]
    by_cases hfit : b.used + pad ≤ cap
    · rw [if_pos hfit, if_neg (Nat.not_lt.2 hfit)]
      simp
    · rw [if_neg hfit, if_pos (Nat.not_le.1 hfit)]
      rfl

/-- `plain` of `desfire_change_key`, filled and padded; `crc_in` is a second array. -/
def changeKeyPlainMem (sameKey : Bool) (keyNo : UInt8) (oldKey newKey : Block) (keyVersion : UInt8) :
    Except Fault Bytes := do
  let plain ←
    if sameKey then do
      let crcIn ← gather g 1 19 [[0xC4], [keyNo], newKey.toList, [keyVersion]]
      collect g 0 32 [newKey.toList, [keyVersion], le32 (desfireCrc32 crcIn)]
    else do
      let mixed := (newKey ^^^ oldKey).toList
      let crcIn ← gather g 1 19 [[0xC4], [keyNo], mixed, [keyVersion]]
      collect g 0 32 [mixed, [keyVersion], le32 (desfireCrc32 crcIn), le32 (desfireCrc32 newKey.toList)]
  return ((padToBlockMem plain).map Buf.contents).getD []

def changeKeyFinishMem (rx : Bytes) (w : World σ) : Except Fault (Call σ EspErr) := do
  let w := w.bumpCtr
  if rx.length ≥ 8 then
    let rd := rx.length - 8
    let verify ← macInput g 5 23 0x00 w.host.session [rx.take rd]
    if (rx.drop rd).take 8 ≠ cmacSessionMem aes (g.call 2) w.host verify then
      return ⟨.invalidCrc, .null, w⟩
    return ⟨.ok, .null, w⟩
  return ⟨.ok, .null, w⟩

def desfireChangeKeyMem (keyNo : UInt8) (oldKey newKey : Block) (keyVersion : UInt8) (w : World σ) :
    Except Fault (Call σ EspErr) := do
  let s := w.host.session
  if !s.authenticated then return ⟨.invalidState, .null, w⟩
  let sameKey := keyNo == s.keyNo
  let plain ← changeKeyPlainMem g sameKey keyNo oldKey newKey keyVersion
  if plain.length = 0 then return ⟨.invalidSize, .null, w⟩
  let iv := desfireEncIv aes s 0xA5 0x5A
  let cipher := desfireAesCbcEncrypt aes s.kSesAuthEnc iv plain
  let macbuf ← macInput g 2 40 0xC4 s [[keyNo], cipher]
  let mac8 := cmacSessionMem aes (g.call 0) w.host macbuf
  let params ← gather g 3 41 [[keyNo], cipher, mac8]
  let x ← desfireXferMem nfc (g.call 1) 0xC4 params ⟨some (g.array 4 16), some 0⟩ 16 w
  if x.ret ≠ some 0x00 then return ⟨.fail, .null, x.world⟩
  if sameKey then
    return ⟨.ok, .null, x.world.setSession { x.world.host.session with authenticated := false }⟩
  changeKeyFinishMem aes g x.out.bytes x.world

theorem collect_pad {ds : List Bytes} (h : ds.flatten.length ≤ 32) :
    (collect g 0 32 ds >>= fun plain => return ((padToBlockMem plain).map Buf.contents).getD []) =
      (.ok (padToBlock ds.flatten 32) : Except Fault Bytes) := by
  obtain ⟨b, hb, hc⟩ := collect_of_le g (k := 0) h
  rw [hb, ← hc, ← padToBlockMem_eq]
  rfl

theorem changeKeyPlainMem_eq (sameKey : Bool) (keyNo : UInt8) (old new : Block) (ver : UInt8) :
    changeKeyPlainMem g sameKey keyNo old new ver = .ok (changeKeyPlain sameKey keyNo old new ver) := by
  have hcrc (k : Block) : gather g 1 19 [[0xC4], [keyNo], k.toList, [ver]] =
      .ok ([0xC4, keyNo] ++ k.toList ++ [ver]) := by
    rw [gather_eq, fill_of_le (by simp)]
    simp
  unfold changeKeyPlainMem changeKeyPlain
  cases sameKey with
  | true =>
    rw [if_pos rfl, if_pos rfl, hcrc]
    refine (collect_pad g (by simp)).trans ?_
    simp
  | false =>
    rw [if_neg Bool.false_ne_true, if_neg Bool.false_ne_true]
    dsimp only
    rw [hcrc]
    refine (collect_pad g (by simp)).trans ?_
    simp

theorem changeKeyFinishMem_eq {rx : Bytes} (hrx : rx.length ≤ 16) (w : World σ) :
    changeKeyFinishMem aes g rx w = .ok (changeKeyFinish aes rx w) := by
  have hfit : (macHead 0x00 w.bumpCtr.host.session ++
      [rx.take (rx.length - 8)].flatten).length ≤ 23 := by
    simp
    omega
  simp only [changeKeyFinishMem, changeKeyFinish, macInput_eq, fill_of_le hfit, cmacSessionMem_eq]
  simp only [List.flatten_cons, List.flatten_nil, List.append_nil, apply_ite Except.ok]
  rfl

/-- `desfire_xfer` hands back no more than the buffer holds. -/
theorem length_bytes_desfireXfer (cmd : UInt8) (params : Bytes) (n : Nat) (w : World σ) :
    (desfireXfer nfc cmd params (.buf n) n w).out.bytes.length ≤ n := by
  by_cases hlen : params.length ≤ 255
  · rw [desfireXfer_eq nfc cmd _ n w hlen, receive]
    split
    · simp [Out.bytes, Out.buf]
    · split
      · rename_i hd
        rw [Out.bytes_put_buf]
        exact hd
      · simp [Out.bytes, Out.buf]
  · rw [desfireXfer_of_lt nfc cmd _ n w (by omega)]
    simp [Out.bytes, Out.buf]

@[simp] theorem desfireChangeKeyMem_eq (keyNo : UInt8) (old new : Block) (ver : UInt8) (w : World σ) :
    desfireChangeKeyMem aes nfc g keyNo old new ver w =
      .ok (desfireChangeKey aes nfc keyNo old new ver w) := by
  unfold desfireChangeKeyMem desfireChangeKey
  dsimp only
  cases hauth : w.host.session.authenticated with
  | false => rfl
  | true =>
    set same := keyNo == w.host.session.keyNo
    have hplain : (changeKeyPlain same keyNo old new ver).length = 32 :=
      length_changeKeyPlain same keyNo old new ver
    have hcipher (iv : Block) : (desfireAesCbcEncrypt aes w.host.session.kSesAuthEnc iv
        (changeKeyPlain same keyNo old new ver)).length = 32 := by
      rw [length_desfireAesCbcEncrypt aes _ _ (by omega), hplain]
    have hmac {cipher : Bytes} (hc : cipher.length = 32) :
        macInput g 2 40 0xC4 w.host.session [[keyNo], cipher] =
          .ok (macHead 0xC4 w.host.session ++ [keyNo] ++ cipher) := by
      rw [macInput_eq, fill_of_le (by simp [hc])]
      simp
    have hparams {cipher mac8 : Bytes} (hc : cipher.length = 32) (h8 : mac8.length = 8) :
        gather g 3 41 [[keyNo], cipher, mac8] = .ok ([keyNo] ++ cipher ++ mac8) := by
      rw [gather_eq, fill_of_le (by simp [hc, h8])]
      simp
    simp only [Bool.not_true, Bool.false_eq_true, ↓reduceIte, changeKeyPlainMem_eq, hplain,
      OfNat.ofNat_ne_zero, hmac (hcipher _), cmacSessionMem_eq,
      hparams (hcipher _) (length_cmacSession aes _ _), desfireXferMem_eq, bind, Except.bind]
    generalize [keyNo] ++ _ ++ cmacSession aes w.host _ = params
    obtain ⟨hret, hworld, hout⟩ :=
      desfireXfer_alike nfc (Out.alike_local (g.array 4 16) 16) 0xC4 params 16 w
    have hfit := length_bytes_desfireXfer nfc 0xC4 params 16 w
    rw [hret, hworld, hout.bytes, changeKeyFinishMem_eq aes g hfit]
    simp only [apply_ite Except.ok]
    rfl

/-! ### The flow -/

/-- `payload`, before its first 18 bytes are written. -/
def payloadMem : Vector UInt8 32 := Vector.ofFn fun i => g [0] i

def leafPersonalizeMem (site : Option Block) (uid : Bytes) (cred : Credential)
    (rndA1 rndA2 rndA3 : Block) (w : World σ) : Except Fault (Call σ EspErr) :=
  match leafGetSiteKey site with
  | .error _ => .ok ⟨.invalidState, .null, w⟩
  | .ok site => do
    let (kDiv, host) ← leafDiversifyKeyMem aes (g.call 0) site uid w.host
    let c ← desfireSelectApplicationMem nfc (g.call 1) piccAid { w with host := host }
    if c.ret ≠ .ok then return ⟨.fail, .null, c.world⟩
    let c ← desfireAuthEv2FirstMem aes nfc (g.call 2) 0 defaultKey rndA1 c.world
    if c.ret ≠ .ok then return ⟨.fail, .null, c.world⟩
    let c ← desfireFormatPiccMem aes nfc (g.call 3) c.world
    let c ← desfireCreateApplicationMem aes nfc (g.call 4) leafAid 0x0F 0x82 c.world
    if c.ret ≠ .ok then return ⟨.fail, .null, c.world⟩
    let c ← desfireSelectApplicationMem nfc (g.call 5) leafAid c.world
    if c.ret ≠ .ok then return ⟨.fail, .null, c.world⟩
    let c ← desfireAuthEv2FirstMem aes nfc (g.call 6) 0 defaultKey rndA2 c.world
    if c.ret ≠ .ok then return ⟨.fail, .null, c.world⟩
    let c ← desfireCreateStdDataFileMem aes nfc (g.call 7) leafFileNo .cmac 0x1000 leafFileSize c.world
    if c.ret ≠ .ok then return ⟨.fail, .null, c.world⟩
    let (kDivMaster, host) ← diversifyMasterMem aes (g.call 8) site uid c.world.host
    let c ← desfireChangeKeyMem aes nfc (g.call 9) 1 defaultKey kDiv 0x01 { c.world with host := host }
    if c.ret ≠ .ok then return ⟨.fail, .null, c.world⟩
    let c ← desfireChangeKeyMem aes nfc (g.call 10) 0 defaultKey kDivMaster 0x01 c.world
    if c.ret ≠ .ok then return ⟨.fail, .null, c.world⟩
    let c ← desfireAuthEv2FirstMem aes nfc (g.call 11) 0 kDivMaster rndA3 c.world
    if c.ret ≠ .ok then return ⟨.fail, .null, c.world⟩
    let payload := store (g.array 0 32) 0 (leafPackCredential cred)
    let (mac8, host) := leafPayloadMacMem aes (g.call 12) kDiv payload c.world.host
    let payload := store payload 10 mac8
    desfireWriteDataMem aes nfc (g.call 13) leafFileNo 0 payload { c.world with host := host }

/-- Of all the memory it starts with, the flow uses the last 14 bytes of `payload`. -/
theorem leafPersonalizeMem_eq (site : Option Block) (uid : Bytes) (cred : Credential)
    (rndA1 rndA2 rndA3 : Block) (w : World σ) :
    leafPersonalizeMem aes nfc g site uid cred rndA1 rndA2 rndA3 w =
      leafPersonalize aes nfc site uid cred rndA1 rndA2 rndA3 (payloadMem g) w := by
  have hmem : (payloadMem g).toList = g.array 0 32 := by
    refine List.ext_getElem (by simp) fun i h₁ h₂ => ?_
    simp [payloadMem, Garbage.array]
  have hpacked : (leafPackCredential cred).length = 10 := rfl
  unfold leafPersonalizeMem leafPersonalize
  generalize leafPackCredential cred = packed at *
  have hmac (kDiv : Block) (h : Host) : leafPayloadMac aes kDiv (store (g.array 0 32) 0 packed) h =
      leafPayloadMac aes kDiv packed h := by
    rw [leafPayloadMac, leafPayloadMac, store_zero, List.take_left' hpacked,
      List.take_of_length_le (by omega)]
  have hpay (mac8 : Bytes) (h8 : mac8.length = 8) :
      store (store (g.array 0 32) 0 packed) 10 mac8 = packed ++ mac8 ++ (g.array 0 32).drop 18 := by
    rw [store_zero, store_append _ _ hpacked.symm, List.drop_drop, hpacked, h8]
  have hmac8 (kDiv : Block) (h : Host) : (leafPayloadMac aes kDiv packed h).1.length = 8 := rfl
  cases leafGetSiteKey site with
  | error e => rfl
  | ok site =>
    simp only [leafDiversifyKeyMem_eq, diversifyMasterMem_eq, desfireSelectApplicationMem_eq,
      desfireAuthEv2FirstMem_eq, desfireFormatPiccMem_eq, desfireCreateApplicationMem_eq,
      desfireCreateStdDataFileMem_eq, desfireChangeKeyMem_eq, desfireWriteDataMem_eq,
      leafPayloadMacMem_eq, hmac, hpay _ (hmac8 _ _), hmem, bind, Except.bind]

end LeafReader
